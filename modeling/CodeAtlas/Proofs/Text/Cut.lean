import CodeAtlas.Proofs.Text.Scan
import CodeAtlas.Proofs.Text.Segment

/-! Scanning a text part by part. Where no occurrence reaches over a cut, the occurrences of the
whole are those of the parts; so a text is scanned piece by piece between its separators if and only
if no occurrence covers one. -/
namespace CodeAtlas.Text

variable {β : Type}

def Span.coveredIn (s : Span β) (text : List Char) : List Char :=
  (text.drop s.start).take s.length

theorem Span.mem_coveredIn_iff {s : Span β} {text : List Char} {c : Char} :
    c ∈ s.coveredIn text ↔
      ∃ i, s.start ≤ i ∧ i < s.start + s.length ∧ text[i]? = some c := by
  rw [coveredIn, List.mem_iff_getElem?]
  constructor
  · rintro ⟨k, hk⟩
    rw [List.getElem?_take, Option.ite_none_right_eq_some, List.getElem?_drop] at hk
    exact ⟨s.start + k, by omega, by omega, hk.2⟩
  · rintro ⟨i, hle, hlt, hi⟩
    refine ⟨i - s.start, ?_⟩
    rw [List.getElem?_take, if_pos (by omega), List.getElem?_drop, Nat.add_sub_cancel' hle, hi]

/-- The texts between the line feeds. -/
def lines (text : String) : List String := (splitOn '\n' text.toList).map String.ofList

namespace Matcher

/-- A matcher looks at what it covers alone: text behind an occurrence takes it away as little as it
changes it. -/
structure Local (matcher : Matcher β) : Prop where
  within : ∀ {text value length}, matcher text = some (value, length) → length ≤ text.length
  kept : ∀ {text} (rest : List Char), matcher text ≠ none → matcher (text ++ rest) ≠ none
  cut : ∀ {text rest value length}, matcher (text ++ rest) = some (value, length) →
    length ≤ text.length → matcher text = some (value, length)

/-- The occurrences in pieces of a text that stand one character apart. -/
def spansOfPieces (matcher : Matcher β) : Nat → List (List Char) → List (Span β)
  | _, [] => []
  | position, piece :: pieces =>
    spansFrom matcher position 0 piece ++
      spansOfPieces matcher (position + piece.length + 1) pieces

theorem map_value_spansOfPieces (matcher : Matcher β) (position : Nat)
    (pieces : List (List Char)) :
    (spansOfPieces matcher position pieces).map Span.value = pieces.flatMap (scan matcher) := by
  induction pieces generalizing position with
  | nil => rfl
  | cons piece pieces ih =>
    rw [spansOfPieces, List.map_append, map_value_spansFrom, ih, List.flatMap_cons, scan]

variable {matcher : Matcher β}

private theorem Local.bounds (hlocal : matcher.Local) {position skip : Nat} {cs : List Char}
    {s : Span β} (h : s ∈ spansFrom matcher position skip cs) :
    position ≤ s.start ∧ s.start + s.length ≤ position + cs.length := by
  induction cs generalizing position skip with
  | nil => cases skip <;> cases h
  | cons c cs ih =>
    rw [List.length_cons]
    cases skip with
    | succ skip =>
      have hmem : s ∈ spansFrom matcher (position + 1) skip cs := h
      have := ih hmem
      omega
    | zero =>
      cases hmatch : matcher (c :: cs) with
      | none =>
        rw [spansFrom, hmatch] at h
        have := ih h
        omega
      | some found =>
        rw [spansFrom, hmatch] at h
        rcases List.mem_cons.1 h with rfl | h
        · have := hlocal.within hmatch
          rw [List.length_cons] at this
          exact ⟨Nat.le_refl _, by simp only; omega⟩
        · have := ih h
          omega

theorem Local.spansFrom_append (hlocal : matcher.Local) {position skip : Nat} {a b : List Char}
    (hskip : skip ≤ a.length)
    (hcut : ∀ s ∈ spansFrom matcher position skip (a ++ b), s.start < position + a.length →
      s.start + s.length ≤ position + a.length) :
    spansFrom matcher position skip (a ++ b) =
      spansFrom matcher position skip a ++ spansFrom matcher (position + a.length) 0 b := by
  induction a generalizing position skip with
  | nil =>
    obtain rfl := Nat.le_zero.1 hskip
    rfl
  | cons c a ih =>
    rw [List.length_cons] at hskip hcut ⊢
    rw [show position + (a.length + 1) = position + 1 + a.length by omega] at hcut ⊢
    rw [List.cons_append] at hcut ⊢
    cases skip with
    | succ skip => exact ih (Nat.le_of_succ_le_succ hskip) hcut
    | zero =>
      cases hmatch : matcher (c :: (a ++ b)) with
      | none =>
        have hnone : matcher (c :: a) = none := by
          by_contra hfound
          exact hlocal.kept b hfound hmatch
        rw [spansFrom, hmatch] at hcut ⊢
        rw [spansFrom, hnone]
        exact ih (Nat.zero_le _) hcut
      | some found =>
        rw [spansFrom, hmatch] at hcut ⊢
        have hend := hcut _ List.mem_cons_self (by simp only; omega)
        have hlength : found.2 ≤ (c :: a).length := by
          rw [List.length_cons]
          simp only at hend
          omega
        have hfound : matcher (c :: a) = some found := hlocal.cut hmatch hlength
        rw [spansFrom, hfound]
        rw [List.length_cons] at hlength
        exact congrArg (_ :: ·) (ih (by omega) fun s hs => hcut s (List.mem_cons_of_mem _ hs))

theorem spansFrom_cons_of_eq_none {position : Nat} {c : Char} {cs : List Char}
    (h : matcher (c :: cs) = none) :
    spansFrom matcher position 0 (c :: cs) = spansFrom matcher (position + 1) 0 cs := by
  rw [spansFrom, h]

variable {sep : Char} {text : List Char}

private theorem Local.spansFrom_joinWith (hlocal : matcher.Local)
    (hsep : ∀ cs, matcher (sep :: cs) = none) {pieces : List (List Char)} {position : Nat}
    (hdrop : text.drop position = joinWith sep pieces)
    (hclear : ∀ s ∈ spansFrom matcher position 0 (joinWith sep pieces),
      sep ∉ s.coveredIn text) :
    spansFrom matcher position 0 (joinWith sep pieces) =
      spansOfPieces matcher position pieces := by
  induction pieces generalizing position with
  | nil => rfl
  | cons piece pieces ih =>
    cases pieces with
    | nil => exact (List.append_nil _).symm
    | cons next pieces =>
      rw [joinWith] at hdrop hclear ⊢
      have hat : text[position + piece.length]? = some sep := by
        rw [← List.getElem?_drop, hdrop, List.getElem?_append_right (Nat.le_refl _), Nat.sub_self]
        rfl
      have hcut : ∀ s ∈ spansFrom matcher position 0
          (piece ++ sep :: joinWith sep (next :: pieces)), s.start < position + piece.length →
            s.start + s.length ≤ position + piece.length := fun s hs hlt => by
        by_contra hover
        exact hclear s hs (Span.mem_coveredIn_iff.2 ⟨_, by omega, by omega, hat⟩)
      have hparts := hlocal.spansFrom_append (Nat.zero_le _) hcut
      rw [spansFrom_cons_of_eq_none (hsep _)] at hparts
      have hrest : text.drop (position + piece.length + 1) = joinWith sep (next :: pieces) := by
        rw [Nat.add_assoc, ← List.drop_drop, hdrop, ← List.drop_drop, List.drop_left]
        rfl
      rw [hparts, spansOfPieces, ih hrest fun s hs => hclear s ?_]
      rw [hparts]
      exact List.mem_append_right _ hs

private theorem Local.not_mem_coveredIn (hlocal : matcher.Local) {pieces : List (List Char)}
    (hpieces : ∀ piece ∈ pieces, sep ∉ piece) {position : Nat}
    (hdrop : text.drop position = joinWith sep pieces) {s : Span β}
    (h : s ∈ spansOfPieces matcher position pieces) : sep ∉ s.coveredIn text := by
  induction pieces generalizing position with
  | nil => cases h
  | cons piece pieces ih =>
    obtain ⟨hpiece, hpieces⟩ := List.forall_mem_cons.1 hpieces
    rw [spansOfPieces, List.mem_append] at h
    rcases h with h | h
    · intro hmem
      obtain ⟨i, hle, hlt, hi⟩ := Span.mem_coveredIn_iff.1 hmem
      have hbounds := hlocal.bounds h
      obtain ⟨rest, hrest⟩ : ∃ rest, joinWith sep (piece :: pieces) = piece ++ rest := by
        cases pieces with
        | nil => exact ⟨[], (List.append_nil _).symm⟩
        | cons next pieces => exact ⟨_, rfl⟩
      rw [← Nat.add_sub_cancel' (show position ≤ i by omega), ← List.getElem?_drop, hdrop, hrest,
        List.getElem?_append_left (by omega)] at hi
      exact hpiece (List.mem_of_getElem? hi)
    · cases pieces with
      | nil => cases h
      | cons next pieces =>
        refine ih hpieces ?_ h
        rw [Nat.add_assoc, ← List.drop_drop, hdrop, joinWith, ← List.drop_drop, List.drop_left]
        rfl

theorem Local.spansOfPieces_eq_iff (hlocal : matcher.Local)
    (hsep : ∀ cs, matcher (sep :: cs) = none) :
    spansFrom matcher 0 0 text = spansOfPieces matcher 0 (splitOn sep text) ↔
      ∀ s ∈ spansFrom matcher 0 0 text, sep ∉ s.coveredIn text := by
  have hjoin : text.drop 0 = joinWith sep (splitOn sep text) := (joinWith_splitOn sep text).symm
  constructor
  · intro heq s hs
    rw [heq] at hs
    exact hlocal.not_mem_coveredIn (fun piece hpiece => not_mem_of_mem_splitOn hpiece) hjoin hs
  · intro hclear
    have hscan := hlocal.spansFrom_joinWith hsep hjoin
    rw [joinWith_splitOn] at hscan
    exact hscan hclear

end Matcher

end CodeAtlas.Text
