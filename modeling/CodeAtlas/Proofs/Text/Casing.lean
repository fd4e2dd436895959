import CodeAtlas.Text.Casing
import CodeAtlas.Text.Segment
import Mathlib.Data.List.Infix

/-! Small forms in the middle of a text. Only a capital sigma has more than one of them, and which
one it takes depends on the nearest characters that are not passed over; so the small form of a part
is a part of the small form unless the part leaves one of these open. -/
namespace CodeAtlas.Text

namespace Casing

def AllPassed (text : List Char) : Prop := ∀ c ∈ text, within passedRanges c = true

variable {text rest : List Char}

theorem within_eq (ranges : Array (Nat × Nat)) (c : Char) : within ranges c =
    ranges.toList.any fun r => r.1 ≤ c.toNat && c.toNat ≤ r.2 := by
  rw [within, Array.any_toList]

theorem meetsLetter_cons (c : Char) (cs : List Char) : meetsLetter (c :: cs) =
    if within passedRanges c then meetsLetter cs else within casedRanges c := by
  rw [meetsLetter, meetsLetter]
  cases hc : within passedRanges c with
  | true => rw [List.dropWhile_cons_of_pos hc, if_pos rfl]
  | false => rw [List.dropWhile_cons_of_neg (by simp [hc]), if_neg Bool.false_ne_true]

theorem allPassed_reverse : AllPassed text.reverse ↔ AllPassed text := by
  simp only [AllPassed, List.mem_reverse]

theorem meetsLetter_append_of_allPassed (h : AllPassed text) (rest : List Char) :
    meetsLetter (text ++ rest) = meetsLetter rest := by
  rw [meetsLetter, List.dropWhile_append_of_pos h, ← meetsLetter]

theorem meetsLetter_of_allPassed (h : AllPassed text) : meetsLetter text = false := by
  rw [← List.append_nil text, meetsLetter_append_of_allPassed h]
  rfl

theorem meetsLetter_append_of_not_allPassed (h : ¬ AllPassed text) (rest : List Char) :
    meetsLetter (text ++ rest) = meetsLetter text := by
  induction text with
  | nil => exact absurd (fun _ hc => absurd hc List.not_mem_nil) h
  | cons c cs ih =>
    rw [List.cons_append, meetsLetter_cons, meetsLetter_cons]
    cases hc : within passedRanges c with
    | true =>
      rw [if_pos rfl, if_pos rfl, ih fun hcs => h (List.forall_mem_cons.2 ⟨hc, hcs⟩)]
    | false => rfl

theorem meetsLetter_append (h : meetsLetter text = true) (rest : List Char) :
    meetsLetter (text ++ rest) = true := by
  rw [meetsLetter_append_of_not_allPassed _ rest, h]
  intro hpassed
  rw [meetsLetter_of_allPassed hpassed] at h
  cases h

def endsWord (before after : List Char) : Bool := meetsLetter before && !meetsLetter after

/-- A capital sigma between two parts of a text whose small form depends on what stands around the
text: behind a letter and at the end of the text, or at the start and not in front of a letter. -/
def LeftOpen (before after : List Char) : Prop :=
  (meetsLetter before.reverse = true ∧ AllPassed after) ∨
    (AllPassed before ∧ meetsLetter after = false)

private theorem endsWord_append_of_not_leftOpen {before after : List Char}
    (h : ¬ LeftOpen before after) (left right : List Char) :
    endsWord (before.reverse ++ left) (after ++ right) = endsWord before.reverse after := by
  obtain ⟨hend, hstart⟩ := not_or.1 h
  by_cases hbefore : AllPassed before
  · have hafter : meetsLetter after = true := by
      rw [← Bool.not_eq_false]
      exact fun hafter => hstart ⟨hbefore, hafter⟩
    rw [endsWord, endsWord, meetsLetter_append hafter, hafter, Bool.not_true, Bool.and_false,
      Bool.and_false]
  · have hsame := meetsLetter_append_of_not_allPassed (allPassed_reverse.not.2 hbefore) left
    by_cases hafter : AllPassed after
    · have hbefore' : meetsLetter before.reverse = false := by
        rw [← Bool.not_eq_true]
        exact fun hbefore' => hend ⟨hbefore', hafter⟩
      rw [endsWord, endsWord, hsame, hbefore', Bool.false_and, Bool.false_and]
    · rw [endsWord, endsWord, hsame, meetsLetter_append_of_not_allPassed hafter]

def lowerBetween (before : List Char) : List Char → List Char → List Char
  | [], _ => []
  | c :: cs, after =>
    (if c = 'Σ' then [if endsWord before (cs ++ after) then 'ς' else 'σ'] else lowerChar c) ++
      lowerBetween (c :: before) cs after

private theorem lowerFrom_eq (before text : List Char) :
    lowerFrom before text = lowerBetween before text [] := by
  induction text generalizing before with
  | nil => rfl
  | cons c cs ih => rw [lowerFrom, lowerBetween, ih, endsWord, List.append_nil]

theorem lowerBetween_append (before text rest after : List Char) :
    lowerBetween before (text ++ rest) after =
      lowerBetween before text (rest ++ after) ++
        lowerBetween (text.reverse ++ before) rest after := by
  induction text generalizing before with
  | nil => rfl
  | cons c cs ih =>
    rw [List.cons_append, lowerBetween, lowerBetween, ih, List.append_assoc, List.append_assoc,
      List.reverse_cons, List.append_assoc, List.singleton_append]

theorem forall_place_cons {x c : Char} {cs : List Char} {P : List Char → List Char → Prop} :
    (∀ u v, c :: cs = u ++ x :: v → P u v) ↔
      (c = x → P [] cs) ∧ ∀ u v, cs = u ++ x :: v → P (c :: u) v := by
  constructor
  · intro h
    exact ⟨fun hc => h [] cs (by rw [hc, List.nil_append]),
      fun u v huv => h (c :: u) v (by rw [huv, List.cons_append])⟩
  · rintro ⟨hhere, hrest⟩ u v huv
    cases u with
    | nil =>
      obtain ⟨rfl, rfl⟩ := List.cons.inj huv
      exact hhere rfl
    | cons d u =>
      obtain ⟨rfl, rfl⟩ := List.cons.inj huv
      exact hrest u v rfl

private theorem lowerBetween_congr {before before' after after' : List Char}
    (h : ∀ u v, text = u ++ 'Σ' :: v → endsWord (u.reverse ++ before) (v ++ after) =
      endsWord (u.reverse ++ before') (v ++ after')) :
    lowerBetween before text after = lowerBetween before' text after' := by
  induction text generalizing before before' with
  | nil => rfl
  | cons c cs ih =>
    obtain ⟨hhere, hrest⟩ := forall_place_cons.1 h
    simp only [List.reverse_cons, List.append_assoc, List.singleton_append] at hrest
    rw [lowerBetween, lowerBetween, ih hrest]
    split
    · next hc =>
      have hends : endsWord before (cs ++ after) = endsWord before' (cs ++ after') := hhere hc
      rw [hends]
    · rfl

private theorem count_sigmas (before before' text after after' : List Char) :
    (lowerBetween before text after).count 'ς' + (lowerBetween before text after).count 'σ' =
      (lowerBetween before' text after').count 'ς' +
        (lowerBetween before' text after').count 'σ' := by
  induction text generalizing before before' with
  | nil => rfl
  | cons c cs ih =>
    have hrest := ih (c :: before) (c :: before')
    simp only [lowerBetween, List.count_append]
    split
    · cases endsWord before (cs ++ after) <;> cases endsWord before' (cs ++ after') <;>
        simp <;> omega
    · omega

theorem count_final_le {before before' after after' : List Char}
    (h : ∀ u v, text = u ++ 'Σ' :: v → endsWord (u.reverse ++ before) (v ++ after) = true →
      endsWord (u.reverse ++ before') (v ++ after') = true) :
    (lowerBetween before text after).count 'ς' ≤
      (lowerBetween before' text after').count 'ς' := by
  induction text generalizing before before' with
  | nil => exact Nat.le_refl _
  | cons c cs ih =>
    obtain ⟨hhere, hrest⟩ := forall_place_cons.1 h
    simp only [List.reverse_cons, List.append_assoc, List.singleton_append] at hrest
    simp only [lowerBetween, List.count_append]
    refine Nat.add_le_add ?_ (ih hrest)
    split
    · next hc =>
      cases hends : endsWord before (cs ++ after) with
      | true =>
        have hends' : endsWord before' (cs ++ after') = true := hhere hc hends
        rw [hends']
      | false => simp
    · exact Nat.le_refl _

theorem count_final_lt {before before' after after' u v : List Char}
    (h : ∀ u v, text = u ++ 'Σ' :: v → endsWord (u.reverse ++ before) (v ++ after) = true →
      endsWord (u.reverse ++ before') (v ++ after') = true)
    (huv : text = u ++ 'Σ' :: v) (hnot : endsWord (u.reverse ++ before) (v ++ after) = false)
    (hends : endsWord (u.reverse ++ before') (v ++ after') = true) :
    (lowerBetween before text after).count 'ς' <
      (lowerBetween before' text after').count 'ς' := by
  subst huv
  have hfront : (lowerBetween before u ('Σ' :: v ++ after)).count 'ς' ≤
      (lowerBetween before' u ('Σ' :: v ++ after')).count 'ς' := by
    refine count_final_le fun w x hwx => ?_
    have hwhole := h w (x ++ 'Σ' :: v) (by rw [hwx, List.append_assoc, List.cons_append])
    rwa [List.append_assoc, List.append_assoc] at hwhole
  have hback : (lowerBetween ('Σ' :: (u.reverse ++ before)) v after).count 'ς' ≤
      (lowerBetween ('Σ' :: (u.reverse ++ before')) v after').count 'ς' := by
    refine count_final_le fun w x hwx => ?_
    have hwhole := h (u ++ 'Σ' :: w) x (by rw [hwx, List.append_assoc, List.cons_append])
    simpa using hwhole
  rw [lowerBetween_append, lowerBetween_append, List.count_append, List.count_append, lowerBetween,
    lowerBetween, if_pos rfl, if_pos rfl, hnot, hends, List.count_append, List.count_append]
  simp only [Bool.false_eq_true, if_true, if_false, List.count_singleton_self,
    show ['σ'].count 'ς' = 0 by decide]
  omega

private theorem endsWord_of_append_right {before after right : List Char}
    (h : endsWord before (after ++ right) = true) : endsWord before after = true := by
  rw [endsWord, Bool.and_eq_true, Bool.not_eq_true'] at h ⊢
  refine ⟨h.1, ?_⟩
  rw [← Bool.not_eq_true]
  intro hafter
  rw [meetsLetter_append hafter right] at h
  cases h.2

private theorem endsWord_append_left {before after : List Char} (h : endsWord before after = true)
    (left : List Char) : endsWord (before ++ left) after = true := by
  rw [endsWord, Bool.and_eq_true] at h ⊢
  exact ⟨meetsLetter_append h.1 left, h.2⟩

end Casing

theorem toList_lower (text : String) :
    (lower text).toList = Casing.lowerBetween [] text.toList [] := by
  rw [lower, String.toList_ofList, Casing.lowerFrom_eq]

open Casing

private theorem lower_isInfix {part whole : String} (h : part.toList <:+: whole.toList)
    (hclosed : ∀ before after, part.toList = before ++ 'Σ' :: after → ¬ LeftOpen before after) :
    (lower part).toList <:+: (lower whole).toList := by
  obtain ⟨left, right, hwhole⟩ := h
  have hpart : lowerBetween (left.reverse ++ []) part.toList right =
      lowerBetween [] part.toList [] := by
    refine lowerBetween_congr fun u v huv => ?_
    rw [endsWord_append_of_not_leftOpen (hclosed u v huv)]
    simp
  rw [toList_lower, toList_lower, ← hwhole, lowerBetween_append, lowerBetween_append,
    List.append_nil right, hpart]
  exact List.infix_append _ _ _

theorem not_lower_isInfix_of_end {part right : String} {before after : List Char}
    (hpart : part.toList = before ++ 'Σ' :: after) (hbefore : meetsLetter before.reverse = true)
    (hafter : AllPassed after) (hright : meetsLetter right.toList = true)
    (hclear : 'ς' ∉ lowerBetween part.toList.reverse right.toList []) :
    ¬ (lower part).toList <:+: (lower (part ++ right)).toList := by
  have hnot : endsWord (before.reverse ++ []) (after ++ right.toList) = false := by
    rw [endsWord, meetsLetter_append_of_allPassed hafter, hright, Bool.not_true, Bool.and_false]
  have hends : endsWord (before.reverse ++ []) (after ++ []) = true := by
    rw [endsWord, List.append_nil, List.append_nil, hbefore, meetsLetter_of_allPassed hafter]
    rfl
  have hfewer : (lowerBetween [] part.toList right.toList).count 'ς' <
      (lowerBetween [] part.toList []).count 'ς' := by
    refine count_final_lt (fun u v _ h => ?_) hpart hnot hends
    rw [List.append_nil v]
    exact endsWord_of_append_right h
  intro hinfix
  have hcount := hinfix.sublist.count_le 'ς'
  rw [toList_lower, toList_lower, String.toList_append, lowerBetween_append, List.count_append,
    List.append_nil, List.append_nil, List.count_eq_zero.2 hclear] at hcount
  exact absurd hfewer (Nat.not_lt.2 hcount)

theorem meetsLetter_a : meetsLetter ['a'] = true := by
  rw [meetsLetter_cons, within_eq, within_eq]
  decide +kernel

theorem lowerBetween_a (before after : List Char) : lowerBetween before ['a'] after = ['a'] := rfl

theorem toList_a : "a".toList = ['a'] := rfl

private theorem not_lower_isInfix_of_start {part : String} {before after : List Char}
    (hpart : part.toList = before ++ 'Σ' :: after) (hbefore : AllPassed before)
    (hafter : meetsLetter after = false) :
    ¬ (lower part).toList <:+: (lower ("a" ++ part)).toList := by
  have hreverse := allPassed_reverse.2 hbefore
  have hnot : endsWord (before.reverse ++ []) (after ++ []) = false := by
    rw [endsWord, List.append_nil, meetsLetter_of_allPassed hreverse, Bool.false_and]
  have hends : endsWord (before.reverse ++ ['a']) (after ++ []) = true := by
    rw [endsWord, meetsLetter_append_of_allPassed hreverse, meetsLetter_a, List.append_nil,
      hafter]
    rfl
  have hmore : (lowerBetween [] part.toList []).count 'ς' <
      (lowerBetween ['a'] part.toList []).count 'ς' := by
    refine count_final_lt (fun u v _ h => ?_) hpart hnot hends
    rw [List.append_nil u.reverse] at h
    exact endsWord_append_left h ['a']
  -- The other sigmas are as many fewer.
  have hsigmas := count_sigmas [] ['a'] part.toList [] []
  intro hinfix
  have hcount := hinfix.sublist.count_le 'σ'
  rw [toList_lower, toList_lower, String.toList_append, lowerBetween_append, List.count_append,
    toList_a, lowerBetween_a, show ['a'].count 'σ' = 0 by decide, Nat.zero_add,
    List.reverse_singleton, List.append_nil] at hcount
  omega

/-- The small form of a text is part of that of every text around it if and only if none of its
capital sigmas is left open. -/
theorem lower_isInfix_iff (part : String) :
    (∀ whole : String, part.toList <:+: whole.toList →
      (lower part).toList <:+: (lower whole).toList) ↔
    ∀ before after, part.toList = before ++ 'Σ' :: after → ¬ LeftOpen before after := by
  constructor
  · intro h before after hpart hopen
    rcases hopen with ⟨hbefore, hafter⟩ | ⟨hbefore, hafter⟩
    · have hclear : 'ς' ∉ lowerBetween part.toList.reverse "a".toList [] := by
        rw [toList_a, lowerBetween_a]
        decide
      refine not_lower_isInfix_of_end hpart hbefore hafter (toList_a ▸ meetsLetter_a) hclear
        (h _ ?_)
      rw [String.toList_append]
      exact (List.prefix_append _ _).isInfix
    · refine not_lower_isInfix_of_start hpart hbefore hafter (h _ ?_)
      rw [String.toList_append]
      exact (List.suffix_append _ _).isInfix
  · exact fun hclosed whole h => lower_isInfix h hclosed

end CodeAtlas.Text
