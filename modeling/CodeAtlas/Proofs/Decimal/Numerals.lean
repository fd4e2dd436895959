import CodeAtlas.Decimal.Fixed

/-! The characters that numbers are written with: digits, signs, a point, and the letters of `e`,
`inf` and `nan`. -/
namespace CodeAtlas.Decimal

def isNumeral (c : Char) : Bool :=
  c.isDigit || ['.', '-', '+', 'e', 'i', 'n', 'f', 'a'].contains c

def Numeral (cs : List Char) : Prop := ∀ c ∈ cs, isNumeral c = true

-- By the characters of the text, and not by all characters there are.
instance (cs : List Char) : Decidable (Numeral cs) :=
  List.decidableBAll (fun c => isNumeral c = true) cs

private theorem numeral_nil : Numeral [] := nofun

theorem numeral_cons {c : Char} {cs : List Char} :
    Numeral (c :: cs) ↔ isNumeral c = true ∧ Numeral cs := List.forall_mem_cons

theorem numeral_append {cs ds : List Char} : Numeral (cs ++ ds) ↔ Numeral cs ∧ Numeral ds :=
  List.forall_mem_append

theorem Numeral.sublist {cs ds : List Char} (h : Numeral ds) (hsub : cs.Sublist ds) :
    Numeral cs := fun c hc => h c (hsub.subset hc)

theorem numeral_zeros (n : Nat) : Numeral (List.replicate n '0') := by
  intro c hc
  rw [List.eq_of_mem_replicate hc]
  rfl

theorem numeral_toDigits (n : Nat) : Numeral (Nat.toDigits 10 n) := by
  intro c hc
  rw [isNumeral, Nat.isDigit_of_mem_toDigits (by decide) (by decide) hc, Bool.true_or]

theorem numeral_toString_int (n : Int) : Numeral (toString n).toList := by
  have hnat (m : Nat) : Numeral m.repr.toList := by
    rw [Nat.repr, String.toList_ofList]
    exact numeral_toDigits m
  cases n with
  | ofNat m => exact hnat m
  | negSucc m =>
    have htext : (toString (Int.negSucc m)).toList = '-' :: m.succ.repr.toList := by
      change ("-" ++ m.succ.repr).toList = _
      rw [String.toList_append]
      rfl
    rw [htext, numeral_cons]
    exact ⟨rfl, hnat m.succ⟩

private theorem numeral_placed (places n : Nat) : Numeral (placed places n) := by
  have hdigits (width : Nat) : Numeral (List.replicate width '0' ++ Nat.toDigits 10 n) :=
    numeral_append.2 ⟨numeral_zeros width, numeral_toDigits n⟩
  simp only [placed]
  split
  · exact (hdigits _).sublist (List.take_sublist _ _)
  · rw [numeral_append, numeral_cons]
    exact ⟨(hdigits _).sublist (List.take_sublist _ _), rfl,
      (hdigits _).sublist (List.drop_sublist _ _)⟩

theorem numeral_fixed (places : Nat) (x : Float) : Numeral (fixed places x).toList := by
  rw [fixed]
  split
  · decide
  · split <;> decide
  · simp only [String.toList_ofList, numeral_append]
    refine ⟨?_, numeral_placed _ _⟩
    split <;> decide

private theorem numeral_normal (d : Scaled) : Numeral d.normal.1 := by
  have hkept : Numeral ((Nat.toDigits 10 d.digits).reverse.dropWhile (· == '0')).reverse :=
    fun c hc => numeral_toDigits d.digits c
      (List.mem_reverse.1 ((List.dropWhile_sublist _).subset (List.mem_reverse.1 hc)))
  simp only [Scaled.normal]
  split
  · decide
  · exact hkept

private theorem numeral_layOut {digits : List Char} (h : Numeral digits) (exponent : Int) :
    Numeral (layOut digits exponent) := by
  have htake (n : Nat) : Numeral (digits.take n) := h.sublist (List.take_sublist _ _)
  have hdrop (n : Nat) : Numeral (digits.drop n) := h.sublist (List.drop_sublist _ _)
  simp only [layOut]
  split
  · simp only [numeral_append, numeral_cons]
    refine ⟨⟨htake 1, ?_⟩, rfl, ?_, numeral_zeros _, numeral_toDigits _⟩
    · split
      · exact numeral_nil
      · exact numeral_cons.2 ⟨rfl, hdrop 1⟩
    · split <;> rfl
  · split
    · simp only [numeral_append, numeral_cons]
      exact ⟨⟨rfl, rfl, numeral_zeros _⟩, h⟩
    · simp only [numeral_append, numeral_cons]
      refine ⟨⟨htake _, numeral_zeros _⟩, rfl, ?_⟩
      split
      · decide
      · exact hdrop _

theorem numeral_shortestText (x : Float) : Numeral (shortestText x).toList := by
  rw [shortestText]
  split
  · decide
  · split <;> decide
  · next negative mantissa exponent _ =>
    have hbody : Numeral (if mantissa = 0 then ['0', '.', '0'] else
        layOut (shortest mantissa exponent).normal.1 (shortest mantissa exponent).normal.2) := by
      split
      · decide
      · exact numeral_layOut (numeral_normal _) _
    rw [String.toList_ofList]
    split
    · exact numeral_cons.2 ⟨rfl, hbody⟩
    · exact hbody

end CodeAtlas.Decimal
