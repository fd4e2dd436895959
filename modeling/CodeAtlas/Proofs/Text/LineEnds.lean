import CodeAtlas.Text.Utf8

/-! Carriage returns in bytes and in the text they spell. No ill-formed run of bytes spells one, and
no well-formed one but the byte itself. -/
namespace CodeAtlas.Text

/-- A beginning that no byte completes to an ASCII character, and that no ASCII byte continues. -/
structure PartialChar.Wide (p : PartialChar) : Prop where
  low : 0x80 ≤ p.low
  bits : p.bits ≠ 0 ∨ 0x90 ≤ p.low ∧ 2 ≤ p.missing

theorem ofNat_eq_return_iff {n : Nat} : Char.ofNat n = '\r' ↔ n = 13 := by
  constructor
  · intro h
    have hcode : (Char.ofNat n).toNat = 13 := congrArg Char.toNat h
    by_cases hvalid : n.isValidChar
    · rw [Char.ofNat, dif_pos hvalid] at hcode
      exact hcode
    · rw [Char.ofNat, dif_neg hvalid] at hcode
      cases hcode
  · rintro rfl
    rfl

theorem return_ne_replacement : '\r' ≠ replacement := by decide

def ReturnsOnly (b : Nat) (read : List Char × Option PartialChar) : Prop :=
  ('\r' ∈ read.1 ↔ b = 13) ∧ ∀ p ∈ read.2, p.Wide

theorem returnsOnly_open {b : Nat} {p : PartialChar} (hb : b ≠ 13) (hp : p.Wide) :
    ReturnsOnly b ([], some p) :=
  ⟨iff_of_false List.not_mem_nil hb, fun _ h => Option.some.inj h ▸ hp⟩

theorem returnsOnly_whole {b : Nat} {c : Char} (h : c = '\r' ↔ b = 13) :
    ReturnsOnly b ([c], none) :=
  ⟨by rw [List.mem_singleton, eq_comm, h], nofun⟩

theorem returnsOnly_leadByte (b : Nat) : ReturnsOnly b (leadByte b) := by
  rw [leadByte]
  split
  · exact returnsOnly_whole ofNat_eq_return_iff
  · next hascii =>
    have hb : b ≠ 13 := by omega
    split
    · next hrange =>
      simp only [Bool.and_eq_true, decide_eq_true_eq] at hrange
      exact returnsOnly_open hb ⟨Nat.le_refl _, .inl (by simp only; omega)⟩
    split
    · next hrange =>
      simp only [Bool.and_eq_true, decide_eq_true_eq] at hrange
      refine returnsOnly_open hb ⟨?_, ?_⟩
      · simp only; split <;> omega
      · simp only; split <;> omega
    split
    · next hrange =>
      simp only [Bool.and_eq_true, decide_eq_true_eq] at hrange
      refine returnsOnly_open hb ⟨?_, ?_⟩
      · simp only; split <;> omega
      · simp only; split <;> omega
    · exact returnsOnly_whole (iff_of_false return_ne_replacement.symm hb)

private theorem returnsOnly_nextByte {begun : Option PartialChar} (h : ∀ p ∈ begun, p.Wide)
    (b : Nat) : ReturnsOnly b (nextByte begun b) := by
  cases begun with
  | none => exact returnsOnly_leadByte b
  | some p =>
    obtain ⟨hlow, hbits⟩ := h p rfl
    rw [nextByte]
    split
    · next hrange =>
      simp only [Bool.and_eq_true, decide_eq_true_eq] at hrange
      split
      · refine returnsOnly_whole (ofNat_eq_return_iff.trans ?_)
        omega
      · exact returnsOnly_open (by omega) ⟨Nat.le_refl _, .inl (by simp only; omega)⟩
    · -- The byte is no continuation: it is read on its own, behind a replacement.
      obtain ⟨hreturn, hwide⟩ := returnsOnly_leadByte b
      refine ⟨?_, hwide⟩
      rw [List.mem_cons, or_iff_right return_ne_replacement, hreturn]

private theorem mem_decodeFrom_iff {begun : Option PartialChar} (h : ∀ p ∈ begun, p.Wide)
    (bytes : List UInt8) : '\r' ∈ decodeFrom begun bytes ↔ 13 ∈ bytes := by
  induction bytes generalizing begun with
  | nil => cases begun <;> simp [decodeFrom, replacement]
  | cons b rest ih =>
    obtain ⟨hreturn, hwide⟩ := returnsOnly_nextByte h b.toNat
    have hbyte : b.toNat = 13 ↔ 13 = b := by
      rw [← UInt8.toNat_inj, eq_comm]
      rfl
    rw [decodeFrom, List.mem_append, List.mem_cons, hreturn, ih hwide, hbyte]

theorem not_mem_decodeFrom {bytes : List UInt8} (h : 13 ∉ bytes) :
    '\r' ∉ decodeFrom none bytes := by
  have hbegun : ∀ p ∈ (none : Option PartialChar), p.Wide := nofun
  exact fun hmem => h ((mem_decodeFrom_iff hbegun bytes).1 hmem)

theorem unifyNewlines_of_not_mem {cs : List Char} (h : '\r' ∉ cs) : unifyNewlines cs = cs := by
  induction cs with
  | nil => rfl
  | cons c cs ih =>
    rw [List.mem_cons, not_or] at h
    rw [unifyNewlines, ih h.2, if_neg (Ne.symm h.1)]
    rintro rest rfl
    exact absurd rfl h.1

end CodeAtlas.Text
