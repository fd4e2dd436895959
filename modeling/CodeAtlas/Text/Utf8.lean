/-!
Reading bytes as UTF-8 without ever failing: every longest run of bytes that begins a character
and cannot be continued is replaced by one U+FFFD.
-/
namespace CodeAtlas.Text

/-- A character that has been begun: the bits so far, the number of bytes missing, and the range
that the next byte must lie in. -/
structure PartialChar where
  bits : Nat
  missing : Nat
  low : Nat
  high : Nat

def replacement : Char := Char.ofNat 0xFFFD

/-- The first byte of a character: a whole character, a beginning, or neither. The narrower second
ranges keep out overlong forms, surrogates and what lies above U+10FFFF. -/
def leadByte (b : Nat) : List Char × Option PartialChar :=
  if b < 0x80 then ([Char.ofNat b], none)
  else if 0xC2 ≤ b && b ≤ 0xDF then ([], some ⟨b - 0xC0, 1, 0x80, 0xBF⟩)
  else if 0xE0 ≤ b && b ≤ 0xEF then
    ([], some ⟨b - 0xE0, 2, if b = 0xE0 then 0xA0 else 0x80, if b = 0xED then 0x9F else 0xBF⟩)
  else if 0xF0 ≤ b && b ≤ 0xF4 then
    ([], some ⟨b - 0xF0, 3, if b = 0xF0 then 0x90 else 0x80, if b = 0xF4 then 0x8F else 0xBF⟩)
  else ([replacement], none)

def nextByte : Option PartialChar → Nat → List Char × Option PartialChar
  | none, b => leadByte b
  | some p, b =>
    if p.low ≤ b && b ≤ p.high then
      let bits := p.bits * 64 + (b - 0x80)
      if p.missing ≤ 1 then ([Char.ofNat bits], none)
      else ([], some ⟨bits, p.missing - 1, 0x80, 0xBF⟩)
    else
      let (chars, rest) := leadByte b
      (replacement :: chars, rest)

def decodeFrom : Option PartialChar → List UInt8 → List Char
  | none, [] => []
  | some _, [] => [replacement]
  | begun, b :: bs =>
    let (chars, rest) := nextByte begun b.toNat
    chars ++ decodeFrom rest bs

def decodeUtf8 (bytes : List UInt8) : String := String.ofList (decodeFrom none bytes)

/-- Carriage returns, alone or before a line feed, become line feeds. -/
def unifyNewlines : List Char → List Char
  | [] => []
  | '\r' :: '\n' :: cs => '\n' :: unifyNewlines cs
  | c :: cs => (if c = '\r' then '\n' else c) :: unifyNewlines cs

end CodeAtlas.Text
