import CodeAtlas.Proofs.Text.Cut
import Mathlib.Data.List.Infix
import Mathlib.Data.List.Nodup
import Mathlib.Data.List.Perm.Subperm
import Mathlib.Order.Bounds.Defs

/-! Counting words in a text. The count goes from the left over places that do not overlap. Where no
two of the words can overlap it is the number of all places; where none lies within another one it
is still the largest number of places that keep apart. -/
namespace CodeAtlas.Text

def PrefixFree (words : List (List Char)) : Prop :=
  ∀ v ∈ words, ∀ w ∈ words, v <+: w → v = w

def InfixFree (words : List (List Char)) : Prop :=
  ∀ v ∈ words, ∀ w ∈ words, v <:+: w → v = w

/-- A word can begin inside of no word: what is left behind the first characters of a word neither
begins with one nor is the beginning of one. -/
def OverlapFree (words : List (List Char)) : Prop :=
  ∀ v ∈ words, ∀ k < v.length, 0 < k → ∀ w ∈ words, ¬v.drop k <+: w ∧ ¬w <+: v.drop k

instance (words : List (List Char)) : Decidable (PrefixFree words) :=
  inferInstanceAs (Decidable (∀ v ∈ words, ∀ w ∈ words, v <+: w → v = w))

instance (words : List (List Char)) : Decidable (InfixFree words) :=
  inferInstanceAs (Decidable (∀ v ∈ words, ∀ w ∈ words, v <:+: w → v = w))

instance (words : List (List Char)) : Decidable (OverlapFree words) :=
  inferInstanceAs (Decidable (∀ v ∈ words, ∀ k < v.length, 0 < k →
    ∀ w ∈ words, ¬v.drop k <+: w ∧ ¬w <+: v.drop k))

variable {words : List (List Char)} {text : List Char}

theorem InfixFree.prefixFree (h : InfixFree words) : PrefixFree words :=
  fun v hv w hw hpre => h v hv w hw hpre.isInfix

theorem PrefixFree.eq_of_prefix (h : PrefixFree words) {v w : List Char} (hv : v ∈ words)
    (hw : w ∈ words) (hvtext : v <+: text) (hwtext : w <+: text) : v = w := by
  rcases List.prefix_or_prefix_of_prefix hvtext hwtext with hpre | hpre
  · exact h v hv w hw hpre
  · exact (h w hw v hv hpre).symm

theorem exists_of_wordAt {word : List Char} {length : Nat}
    (h : wordAt words text = some (word, length)) :
    word ∈ words ∧ word <+: text ∧ word.length = length := by
  obtain ⟨found, hfound, heq⟩ := Option.map_eq_some_iff.1 h
  obtain ⟨rfl, rfl⟩ := Prod.mk.inj heq
  have hpre : found.isPrefixOf text = true :=
    List.find?_some (p := fun word : List Char => word.isPrefixOf text) hfound
  exact ⟨List.mem_of_find?_eq_some hfound, List.isPrefixOf_iff_prefix.1 hpre, rfl⟩

theorem wordAt_ne_none_iff : wordAt words text ≠ none ↔ ∃ word ∈ words, word <+: text := by
  simp [wordAt]

theorem PrefixFree.wordAt_eq (h : PrefixFree words) {word : List Char} (hmem : word ∈ words)
    (hpre : word <+: text) : wordAt words text = some (word, word.length) := by
  obtain ⟨⟨found, length⟩, hfound⟩ :=
    Option.ne_none_iff_exists'.1 (wordAt_ne_none_iff.2 ⟨word, hmem, hpre⟩)
  obtain ⟨hfoundMem, hfoundPre, rfl⟩ := exists_of_wordAt hfound
  obtain rfl := h.eq_of_prefix hmem hfoundMem hpre hfoundPre
  exact hfound

theorem wordAt_proper (hne : [] ∉ words) : Matcher.Proper (wordAt words) where
  nil := by
    by_contra hfound
    obtain ⟨word, hmem, hpre⟩ := wordAt_ne_none_iff.1 hfound
    exact hne (List.prefix_nil.1 hpre ▸ hmem)
  pos := fun h => by
    obtain ⟨hmem, -, rfl⟩ := exists_of_wordAt h
    exact List.length_pos_iff.2 fun hnil => hne (hnil ▸ hmem)

private theorem PrefixFree.wordAt_local (h : PrefixFree words) : Matcher.Local (wordAt words) where
  within := fun hfound => by
    obtain ⟨-, hpre, rfl⟩ := exists_of_wordAt hfound
    exact hpre.length_le
  kept := fun {text} rest hfound => by
    obtain ⟨word, hmem, hpre⟩ := wordAt_ne_none_iff.1 hfound
    exact wordAt_ne_none_iff.2 ⟨word, hmem, hpre.trans (List.prefix_append text rest)⟩
  cut := fun {text rest word length} hfound hlength => by
    obtain ⟨hmem, hpre, rfl⟩ := exists_of_wordAt hfound
    exact h.wordAt_eq hmem
      (List.prefix_of_prefix_length_le hpre (List.prefix_append text rest) hlength)

structure WordPlace where
  start : Nat
  word : List Char
deriving DecidableEq, Inhabited

namespace WordPlace

def stop (p : WordPlace) : Nat := p.start + p.word.length

def StandsIn (p : WordPlace) (words : List (List Char)) (text : List Char) : Prop :=
  p.word ∈ words ∧ p.word <+: text.drop p.start

def Apart (p q : WordPlace) : Prop := p.stop ≤ q.start ∨ q.stop ≤ p.start

theorem StandsIn.start_lt_stop {p : WordPlace} (h : p.StandsIn words text) (hne : [] ∉ words) :
    p.start < p.stop := by
  have hpos : 0 < p.word.length := List.length_pos_iff.2 fun hnil => hne (hnil ▸ h.1)
  rw [stop]
  omega

theorem StandsIn.start_lt_length {p : WordPlace} (h : p.StandsIn words text) (hne : [] ∉ words) :
    p.start < text.length := by
  have hlt := h.start_lt_stop hne
  have hle := h.2.length_le
  rw [List.length_drop] at hle
  rw [stop] at hlt
  omega

theorem StandsIn.append {p : WordPlace} (h : p.StandsIn words text) (hne : [] ∉ words)
    (rest : List Char) : p.StandsIn words (text ++ rest) := by
  refine ⟨h.1, ?_⟩
  rw [List.drop_append_of_le_length (Nat.le_of_lt (h.start_lt_length hne))]
  exact h.2.trans (List.prefix_append _ _)

theorem StandsIn.shift {p : WordPlace} (h : p.StandsIn words text) (before : List Char) :
    StandsIn ⟨before.length + p.start, p.word⟩ words (before ++ text) := by
  refine ⟨h.1, ?_⟩
  rw [← List.drop_drop, List.drop_left]
  exact h.2

theorem StandsIn.drop {p : WordPlace} (h : p.StandsIn words text) (k : Nat) :
    p.word.drop k <+: text.drop (p.start + k) := by
  rw [← List.drop_drop]
  exact h.2.drop k

theorem StandsIn.isInfix {p q : WordPlace} (hp : p.StandsIn words text)
    (hq : q.StandsIn words text) (hstart : q.start ≤ p.start) (hstop : p.stop ≤ q.stop) :
    p.word <:+: q.word := by
  have hrest := hq.drop (p.start - q.start)
  rw [Nat.add_sub_cancel' hstart] at hrest
  have hlength : p.word.length ≤ (q.word.drop (p.start - q.start)).length := by
    rw [List.length_drop]
    rw [stop, stop] at hstop
    omega
  exact (List.prefix_of_prefix_length_le hp.2 hrest hlength).isInfix.trans
    (List.drop_suffix _ _).isInfix

theorem StandsIn.stop_le {p q : WordPlace} (hp : p.StandsIn words text)
    (hq : q.StandsIn words text) (hfree : InfixFree words) (hstart : q.start ≤ p.start) :
    q.stop ≤ p.stop := by
  by_contra hlt
  have hword := hfree p.word hp.1 q.word hq.1 (hp.isInfix hq hstart (by omega))
  rw [stop, stop, hword] at hlt
  omega

end WordPlace

/-- All places where one of the words stands, whether they overlap or not. -/
def places (words : List (List Char)) (text : List Char) : List WordPlace :=
  (List.range text.length).flatMap fun start =>
    (words.filter fun word => word.isPrefixOf (text.drop start)).map (WordPlace.mk start)

private theorem mem_places_iff (hne : [] ∉ words) {p : WordPlace} :
    p ∈ places words text ↔ p.StandsIn words text := by
  simp only [places, List.mem_flatMap, List.mem_range, List.mem_map, List.mem_filter,
    List.isPrefixOf_iff_prefix]
  constructor
  · rintro ⟨start, -, word, hword, rfl⟩
    exact hword
  · intro h
    exact ⟨p.start, h.start_lt_length hne, p.word, h, rfl⟩

private theorem nodup_places (hnodup : words.Nodup) : (places words text).Nodup := by
  refine List.nodup_flatMap.2 ⟨fun start _ => ?_, ?_⟩
  · exact (hnodup.filter _).map fun v w h => (WordPlace.mk.inj h).2
  · refine List.nodup_range.imp fun {i j} hij => ?_
    simp only [Function.onFun, List.disjoint_left, List.mem_map]
    rintro _ ⟨v, -, rfl⟩ ⟨w, -, heq⟩
    exact hij (WordPlace.mk.inj heq).1.symm

/-- The places that the count goes through: each begins behind the one before it, and wherever a
word begins one of them lies. -/
structure Counted (words : List (List Char)) (text : List Char) (counted : List WordPlace) :
    Prop where
  stands : ∀ p ∈ counted, p.StandsIn words text
  ordered : counted.Pairwise fun p q => p.stop ≤ q.start
  covers : ∀ p : WordPlace, p.StandsIn words text →
    ∃ q ∈ counted, q.start ≤ p.start ∧ p.start < q.stop

theorem exists_counted (hne : [] ∉ words) (text : List Char) :
    ∃ counted, Counted words text counted ∧ counted.length = countWords words text := by
  obtain ⟨spans, hspans, hscan⟩ := (Matcher.scan_eq_iff (wordAt_proper hne) _).1
    (rfl : scan (wordAt words) text = _)
  refine ⟨spans.map fun s => ⟨s.start, s.value⟩, ⟨?_, ?_, fun p hp => ?_⟩, ?_⟩
  · intro p hp
    obtain ⟨s, hs, rfl⟩ := List.mem_map.1 hp
    obtain ⟨hmem, hpre, -⟩ := exists_of_wordAt (hspans.occurs s hs).2
    exact ⟨hmem, hpre⟩
  · rw [List.pairwise_map]
    refine hspans.disjoint.imp_of_mem fun {s t} hs _ hst => ?_
    obtain ⟨-, -, hlength⟩ := exists_of_wordAt (hspans.occurs s hs).2
    rw [WordPlace.stop, hlength]
    exact hst
  · obtain ⟨s, hs, hle, hlt⟩ :=
      hspans.covers p.start (Nat.zero_le _) (wordAt_ne_none_iff.2 ⟨p.word, hp.1, hp.2⟩)
    obtain ⟨-, -, hlength⟩ := exists_of_wordAt (hspans.occurs s hs).2
    refine ⟨_, List.mem_map_of_mem hs, hle, ?_⟩
    rw [WordPlace.stop, hlength]
    exact hlt
  · rw [countWords, hscan, List.length_map, List.length_map]

theorem Counted.nodup {counted : List WordPlace} (h : Counted words text counted)
    (hne : [] ∉ words) : counted.Nodup :=
  h.ordered.imp_of_mem fun {p q} hp _ hpq heq => by
    have := (h.stands p hp).start_lt_stop hne
    subst heq
    omega

theorem countWords_eq_length_places (hne : [] ∉ words) (hnodup : words.Nodup)
    (hfree : PrefixFree words) (hoverlap : OverlapFree words) (text : List Char) :
    countWords words text = (places words text).length := by
  obtain ⟨counted, hcounted, hlength⟩ := exists_counted hne text
  have hmem : ∀ p, p ∈ counted ↔ p ∈ places words text := fun p => by
    rw [mem_places_iff hne]
    refine ⟨hcounted.stands p, fun hp => ?_⟩
    obtain ⟨q, hq, hle, hlt⟩ := hcounted.covers p hp
    have hstands := hcounted.stands q hq
    obtain ⟨k, hk⟩ := Nat.exists_eq_add_of_le hle
    have hrest := hstands.drop k
    rw [← hk] at hrest
    have hstart : k = 0 := by
      by_contra hpos
      rw [WordPlace.stop] at hlt
      have hclear := hoverlap q.word hstands.1 k (by omega) (by omega) p.word hp.1
      rcases List.prefix_or_prefix_of_prefix hrest hp.2 with hpre | hpre
      · exact hclear.1 hpre
      · exact hclear.2 hpre
    subst hstart
    have hword := hfree.eq_of_prefix hp.1 hstands.1 hp.2 hrest
    cases p
    cases q
    simp only at hk hword
    rw [hk, hword]
    exact hq
  rw [← hlength]
  exact (List.perm_ext_iff_of_nodup (hcounted.nodup hne) (nodup_places hnodup)).2 hmem |>.length_eq

/-- So many places in a text that no two of them have a character in common. -/
def HoldsApart (words : List (List Char)) (text : List Char) (n : Nat) : Prop :=
  ∃ chosen : List WordPlace, (∀ p ∈ chosen, p.StandsIn words text) ∧
    chosen.Pairwise WordPlace.Apart ∧ chosen.length = n

private theorem Counted.holdsApart {counted : List WordPlace} (h : Counted words text counted) :
    HoldsApart words text counted.length :=
  ⟨counted, h.stands, h.ordered.imp .inl, rfl⟩

theorem Counted.length_le {counted chosen : List WordPlace} (h : Counted words text counted)
    (hfree : InfixFree words) (hstands : ∀ p ∈ chosen, p.StandsIn words text)
    (hapart : chosen.Pairwise WordPlace.Apart) : chosen.length ≤ counted.length := by
  choose! cover hmem hle hlt using fun p hp => h.covers p (hstands p hp)
  have hdistinct : (chosen.map cover).Nodup := by
    rw [List.Nodup, List.pairwise_map]
    refine hapart.imp_of_mem fun {p q} hp hq hpq heq => ?_
    have hcover := h.stands _ (hmem p hp)
    have hstop := (hstands p hp).stop_le hcover hfree (hle p hp)
    have hstop' := (hstands q hq).stop_le (heq ▸ hcover) hfree (hle q hq)
    have hbegins := hlt p hp
    have hbegins' := hlt q hq
    rw [← heq] at hstop' hbegins'
    rcases hpq with hpq | hpq <;> omega
  have hsubset : chosen.map cover ⊆ counted := by
    intro q hq
    obtain ⟨p, hp, rfl⟩ := List.mem_map.1 hq
    exact hmem p hp
  rw [← List.length_map (f := cover)]
  exact (List.subperm_of_subset hdistinct hsubset).length_le

theorem isGreatest_countWords (hne : [] ∉ words) (hfree : InfixFree words) (text : List Char) :
    IsGreatest {n | HoldsApart words text n} (countWords words text) := by
  obtain ⟨counted, hcounted, hlength⟩ := exists_counted hne text
  rw [← hlength]
  refine ⟨hcounted.holdsApart, ?_⟩
  rintro n ⟨chosen, hstands, hapart, rfl⟩
  exact hcounted.length_le hfree hstands hapart

theorem countWords_le_of_isInfix (hne : [] ∉ words) (hfree : InfixFree words)
    {part : List Char} (h : part <:+: text) : countWords words part ≤ countWords words text := by
  obtain ⟨before, rest, rfl⟩ := h
  obtain ⟨chosen, hstands, hapart, hlength⟩ := (isGreatest_countWords hne hfree part).1
  refine (isGreatest_countWords hne hfree (before ++ part ++ rest)).2
    ⟨chosen.map fun p => ⟨before.length + p.start, p.word⟩, ?_, ?_, ?_⟩
  · rw [List.forall_mem_map]
    exact fun p hp => ((hstands p hp).shift before).append hne rest
  · rw [List.pairwise_map]
    refine hapart.imp fun {p q} hpq => ?_
    simp only [WordPlace.Apart, WordPlace.stop] at hpq ⊢
    omega
  · rw [List.length_map, hlength]

theorem countWords_eq_length_spansFrom (words : List (List Char)) (position : Nat)
    (text : List Char) :
    countWords words text = (spansFrom (wordAt words) position 0 text).length := by
  rw [countWords, scan, ← Matcher.map_value_spansFrom (wordAt words) position, List.length_map]

theorem countWords_append_cons (hne : [] ∉ words) (hfree : PrefixFree words) {sep : Char}
    (hsep : ∀ word ∈ words, sep ∉ word) (a b : List Char) :
    countWords words (a ++ sep :: b) = countWords words a + countWords words b := by
  have hselects := (Matcher.selects_iff (wordAt_proper hne) _).2
    (rfl : spansFrom (wordAt words) 0 0 (a ++ sep :: b) = _)
  have hcut : ∀ s ∈ spansFrom (wordAt words) 0 0 (a ++ sep :: b), s.start < 0 + a.length →
      s.start + s.length ≤ 0 + a.length := fun s hs hlt => by
    rw [Nat.zero_add] at hlt ⊢
    obtain ⟨hmem, hpre, hlength⟩ := exists_of_wordAt (hselects.occurs s hs).2
    rw [List.drop_append_of_le_length (Nat.le_of_lt hlt)] at hpre
    have hle := (prefix_of_prefix_append_cons (hsep _ hmem) hpre).length_le
    rw [List.length_drop] at hle
    omega
  have hnone : wordAt words (sep :: b) = none := by
    by_contra hfound
    obtain ⟨word, hmem, hpre⟩ := wordAt_ne_none_iff.1 hfound
    have hnil := prefix_of_prefix_append_cons (l := []) (hsep word hmem) hpre
    exact hne (List.prefix_nil.1 hnil ▸ hmem)
  rw [countWords_eq_length_spansFrom words 0, hfree.wordAt_local.spansFrom_append
    (Nat.zero_le _) hcut, Matcher.spansFrom_cons_of_eq_none hnone, List.length_append,
    ← countWords_eq_length_spansFrom, ← countWords_eq_length_spansFrom]

end CodeAtlas.Text
