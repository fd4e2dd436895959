import CodeAtlas.Text.Scan
import Mathlib.Data.Set.List

/-! What scanning finds, said without the scan: occurrences that do not overlap and that leave no
place free where another one begins. There is only one such list, so nothing is lost by scanning
from the left. -/
namespace CodeAtlas.Text

variable {β : Type}

/-- An occurrence in a text: where it begins, what was found there and how much it covers. -/
structure Span (β : Type) where
  start : Nat
  value : β
  length : Nat

def spansFrom (matcher : Matcher β) : Nat → Nat → List Char → List (Span β)
  | _, _, [] => []
  | position, skip + 1, _ :: cs => spansFrom matcher (position + 1) skip cs
  | position, 0, c :: cs =>
    match matcher (c :: cs) with
    | some (value, length) =>
      ⟨position, value, length⟩ :: spansFrom matcher (position + 1) (length - 1) cs
    | none => spansFrom matcher (position + 1) 0 cs

/-- Scanning a family of occurrences from a position on: the leftmost one is taken, and the scan
goes on behind its end. It is over where none is left. -/
inductive ScannedFrom {O : Type} (span : O → Span β) : Nat → List O → Prop
  | done {position : Nat} (passed : ∀ o : O, (span o).start < position) :
      ScannedFrom span position []
  | next {position : Nat} {found : List O} (first : O) (reached : position ≤ (span first).start)
      (leftmost : ∀ o : O, position ≤ (span o).start → (span first).start ≤ (span o).start)
      (rest : ScannedFrom span ((span first).start + (span first).length) found) :
      ScannedFrom span position (first :: found)

namespace Matcher

/-- An occurrence covers at least one character. -/
structure Proper (matcher : Matcher β) : Prop where
  nil : matcher [] = none
  pos : ∀ {text value length}, matcher text = some (value, length) → 0 < length

/-- The spans are occurrences from a position on, none of them reaches into the next one, and
wherever an occurrence begins one of them lies. -/
structure Selects (matcher : Matcher β) (text : List Char) (position : Nat)
    (spans : List (Span β)) : Prop where
  occurs : ∀ s ∈ spans, position ≤ s.start ∧
    matcher (text.drop s.start) = some (s.value, s.length)
  disjoint : spans.Pairwise fun a b => a.start + a.length ≤ b.start
  covers : ∀ i, position ≤ i → matcher (text.drop i) ≠ none →
    ∃ s ∈ spans, s.start ≤ i ∧ i < s.start + s.length

variable {matcher : Matcher β} {text : List Char}

theorem Proper.drop_eq_none (proper : matcher.Proper) {i position : Nat}
    (h : text.drop position = []) (hi : position ≤ i) : matcher (text.drop i) = none := by
  have hdrop : text.drop i = [] := by
    rw [List.drop_eq_nil_iff] at h ⊢
    omega
  rw [hdrop, proper.nil]

theorem drop_succ_of_drop_eq_cons {c : Char} {cs : List Char} {position : Nat}
    (h : text.drop position = c :: cs) : text.drop (position + 1) = cs := by
  rw [← List.drop_drop, h]
  rfl

theorem map_value_spansFrom (matcher : Matcher β) (position skip : Nat) (cs : List Char) :
    (spansFrom matcher position skip cs).map Span.value = scanFrom matcher skip cs := by
  induction cs generalizing position skip with
  | nil => cases skip <;> rfl
  | cons c cs ih =>
    cases skip with
    | succ skip => exact ih (position + 1) skip
    | zero =>
      cases hmatch : matcher (c :: cs) with
      | none =>
        rw [spansFrom, scanFrom, hmatch]
        exact ih (position + 1) 0
      | some found =>
        rw [spansFrom, scanFrom, hmatch]
        exact congrArg (found.1 :: ·) (ih (position + 1) (found.2 - 1))

private theorem selects_spansFrom (proper : matcher.Proper) (skip : Nat) (cs : List Char)
    (position : Nat) (h : text.drop position = cs) :
    matcher.Selects text (position + skip) (spansFrom matcher position skip cs) := by
  induction cs generalizing skip position with
  | nil =>
    have hnil : spansFrom matcher position skip [] = [] := by cases skip <;> rfl
    rw [hnil]
    refine ⟨by simp, by simp, fun i hi hmatch => ?_⟩
    exact absurd (proper.drop_eq_none h (by omega)) hmatch
  | cons c cs ih =>
    have hnext := drop_succ_of_drop_eq_cons h
    cases skip with
    | succ skip =>
      rw [show position + (skip + 1) = position + 1 + skip by omega]
      exact ih skip (position + 1) hnext
    | zero =>
      cases hmatch : matcher (c :: cs) with
      | none =>
        have hspans := ih 0 (position + 1) hnext
        rw [spansFrom, hmatch]
        refine ⟨fun s hs => ?_, hspans.disjoint, fun i hi hfound => ?_⟩
        · have := hspans.occurs s hs
          exact ⟨by omega, this.2⟩
        · rcases Nat.eq_or_lt_of_le hi with rfl | hlt
          · exact absurd (by rw [Nat.add_zero, h, hmatch]) hfound
          · exact hspans.covers i hlt hfound
      | some found =>
        obtain ⟨value, length⟩ := found
        have hpos := proper.pos hmatch
        have hspans := ih (length - 1) (position + 1) hnext
        rw [show position + 1 + (length - 1) = position + length by omega] at hspans
        rw [spansFrom, hmatch]
        refine ⟨?_, ?_, fun i hi hfound => ?_⟩
        · intro s hs
          rcases List.mem_cons.1 hs with rfl | hs
          · exact ⟨Nat.le_refl _, by rw [h, hmatch]⟩
          · have := hspans.occurs s hs
            exact ⟨by omega, this.2⟩
        · exact List.pairwise_cons.2 ⟨fun s hs => (hspans.occurs s hs).1, hspans.disjoint⟩
        · rcases Nat.lt_or_ge i (position + length) with hlt | hge
          · exact ⟨_, List.mem_cons_self, hi, hlt⟩
          · obtain ⟨s, hs, hcover⟩ := hspans.covers i hge hfound
            exact ⟨s, List.mem_cons_of_mem _ hs, hcover⟩

private theorem eq_spansFrom_of_selects (proper : matcher.Proper) (skip : Nat) (cs : List Char)
    (position : Nat) (spans : List (Span β)) (h : text.drop position = cs)
    (hspans : matcher.Selects text (position + skip) spans) :
    spans = spansFrom matcher position skip cs := by
  induction cs generalizing skip position spans with
  | nil =>
    cases spans with
    | nil => cases skip <;> rfl
    | cons s spans =>
      obtain ⟨hstart, hmatch⟩ := hspans.occurs s List.mem_cons_self
      rw [proper.drop_eq_none h (by omega)] at hmatch
      cases hmatch
  | cons c cs ih =>
    have hnext := drop_succ_of_drop_eq_cons h
    cases skip with
    | succ skip =>
      rw [show position + (skip + 1) = position + 1 + skip by omega] at hspans
      exact ih skip (position + 1) spans hnext hspans
    | zero =>
      rw [Nat.add_zero] at hspans
      cases hmatch : matcher (c :: cs) with
      | none =>
        rw [spansFrom, hmatch]
        refine ih 0 (position + 1) spans hnext ⟨fun s hs => ?_, hspans.disjoint,
          fun i hi => hspans.covers i (by omega)⟩
        obtain ⟨hstart, hs⟩ := hspans.occurs s hs
        refine ⟨Nat.lt_of_le_of_ne hstart fun heq => ?_, hs⟩
        rw [← heq, h, hmatch] at hs
        cases hs
      | some found =>
        obtain ⟨value, length⟩ := found
        have hpos := proper.pos hmatch
        obtain ⟨first, hfirst, hle, hlt⟩ := hspans.covers position (Nat.le_refl _)
          (by rw [h, hmatch]; simp)
        cases spans with
        | nil => cases hfirst
        | cons s spans =>
          obtain ⟨hstart, hs⟩ := hspans.occurs s List.mem_cons_self
          have hpairs := List.pairwise_cons.1 hspans.disjoint
          -- The span that covers the position begins there, so no other one comes before it.
          have hhead : s.start = position := by
            rcases List.mem_cons.1 hfirst with rfl | hlater
            · omega
            · have := hpairs.1 first hlater
              omega
          rw [hhead, h, hmatch] at hs
          obtain ⟨rfl, rfl⟩ : value = s.value ∧ length = s.length := by simpa using hs
          subst hhead
          rw [spansFrom, hmatch]
          refine congrArg (s :: ·) (ih (s.length - 1) (s.start + 1) spans hnext ?_)
          rw [show s.start + 1 + (s.length - 1) = s.start + s.length by omega]
          refine ⟨fun later hlater => ?_, hpairs.2, fun i hi hfound => ?_⟩
          · have := hpairs.1 later hlater
            exact ⟨by omega, (hspans.occurs later (List.mem_cons_of_mem _ hlater)).2⟩
          · obtain ⟨cover, hcover, hle', hlt'⟩ := hspans.covers i (by omega) hfound
            rcases List.mem_cons.1 hcover with rfl | hlater
            · omega
            · exact ⟨cover, hlater, hle', hlt'⟩

theorem selects_iff (proper : matcher.Proper) (spans : List (Span β)) :
    matcher.Selects text 0 spans ↔ spans = spansFrom matcher 0 0 text := by
  constructor
  · exact eq_spansFrom_of_selects proper 0 text 0 spans rfl
  · rintro rfl
    exact selects_spansFrom proper 0 text 0 rfl

theorem scan_eq_iff (proper : matcher.Proper) (values : List β) :
    scan matcher text = values ↔
      ∃ spans, matcher.Selects text 0 spans ∧ values = spans.map Span.value := by
  rw [scan, ← map_value_spansFrom matcher 0]
  constructor
  · rintro rfl
    exact ⟨_, (selects_iff proper _).2 rfl, rfl⟩
  · rintro ⟨spans, hspans, rfl⟩
    rw [(selects_iff proper spans).1 hspans]

section Family

variable {O : Type} {span : O → Span β}

private theorem scannedFrom_of_selects
    (hspan : ∀ s : Span β, matcher (text.drop s.start) = some (s.value, s.length) ↔ ∃ o, span o = s)
    {found : List O} {position : Nat} (h : matcher.Selects text position (found.map span)) :
    ScannedFrom span position found := by
  have hmatch : ∀ o : O, matcher (text.drop (span o).start) ≠ none := fun o => by
    rw [(hspan (span o)).2 ⟨o, rfl⟩]
    exact Option.some_ne_none _
  induction found generalizing position with
  | nil =>
    refine .done fun o => Nat.lt_of_not_le fun hle => ?_
    obtain ⟨s, hs, -⟩ := h.covers _ hle (hmatch o)
    cases hs
  | cons first found ih =>
    have hpairs := List.pairwise_cons.1 h.disjoint
    refine .next first (h.occurs _ List.mem_cons_self).1 (fun o ho => ?_) (ih ⟨?_, hpairs.2, ?_⟩)
    · obtain ⟨s, hs, hle, -⟩ := h.covers _ ho (hmatch o)
      rcases List.mem_cons.1 hs with rfl | hlater
      · exact hle
      · have := hpairs.1 s hlater
        omega
    · exact fun s hs => ⟨hpairs.1 s hs, (h.occurs s (List.mem_cons_of_mem _ hs)).2⟩
    · intro i hi hfound
      have hreached := (h.occurs _ List.mem_cons_self).1
      obtain ⟨s, hs, hle, hlt⟩ := h.covers i (by omega) hfound
      rcases List.mem_cons.1 hs with rfl | hlater
      · omega
      · exact ⟨s, hlater, hle, hlt⟩

theorem selects_of_scannedFrom
    (hspan : ∀ s : Span β, matcher (text.drop s.start) = some (s.value, s.length) ↔ ∃ o, span o = s)
    {found : List O} {position : Nat} (h : ScannedFrom span position found) :
    matcher.Selects text position (found.map span) := by
  have hbegins : ∀ i, matcher (text.drop i) ≠ none → ∃ o, (span o).start = i := fun i hi => by
    obtain ⟨⟨value, length⟩, hmatch⟩ := Option.ne_none_iff_exists'.1 hi
    obtain ⟨o, ho⟩ := (hspan ⟨i, value, length⟩).1 hmatch
    exact ⟨o, by rw [ho]⟩
  induction h with
  | done passed =>
    refine ⟨by simp, by simp, fun i hi hfound => ?_⟩
    obtain ⟨o, rfl⟩ := hbegins i hfound
    exact absurd (passed o) (Nat.not_lt.2 hi)
  | next first reached leftmost rest ih =>
    refine ⟨?_, List.pairwise_cons.2 ⟨fun s hs => (ih.occurs s hs).1, ih.disjoint⟩, ?_⟩
    · intro s hs
      rcases List.mem_cons.1 hs with rfl | hs
      · exact ⟨reached, (hspan _).2 ⟨first, rfl⟩⟩
      · have := ih.occurs s hs
        exact ⟨by omega, this.2⟩
    · intro i hi hfound
      rcases Nat.lt_or_ge i ((span first).start + (span first).length) with hlt | hge
      · obtain ⟨o, rfl⟩ := hbegins i hfound
        exact ⟨_, List.mem_cons_self, leftmost o hi, hlt⟩
      · obtain ⟨s, hs, hcover⟩ := ih.covers i hge hfound
        exact ⟨s, List.mem_cons_of_mem _ hs, hcover⟩

theorem scan_eq_iff_scanned (proper : matcher.Proper)
    (hspan : ∀ s : Span β, matcher (text.drop s.start) = some (s.value, s.length) ↔ ∃ o, span o = s)
    (values : List β) : scan matcher text = values ↔
      ∃ found : List O, ScannedFrom span 0 found ∧ values = found.map fun o => (span o).value := by
  rw [scan_eq_iff proper]
  constructor
  · rintro ⟨spans, hspans, rfl⟩
    obtain ⟨found, rfl⟩ : spans ∈ Set.range (List.map span) := by
      rw [Set.range_list_map]
      exact fun s hs => (hspan s).1 (hspans.occurs s hs).2
    exact ⟨found, scannedFrom_of_selects hspan hspans, by rw [List.map_map]; rfl⟩
  · rintro ⟨found, hfound, rfl⟩
    exact ⟨_, selects_of_scannedFrom hspan hfound, by rw [List.map_map]; rfl⟩

end Family

end Matcher

end CodeAtlas.Text
