import CodeAtlas.Table
import Mathlib.Algebra.BigOperators.Group.List.Lemmas
import Mathlib.Algebra.BigOperators.Ring.Finset

/-! Tables as maps: what is found under a key, whatever order the keys are in. A histogram of a list
of keys holds each key once, with the number of its occurrences. -/
namespace CodeAtlas

namespace Table

variable {α : Type} {t u : Table α} {key : String} {value : α}

theorem get?_eq_some_iff : t.get? key = some value ↔ (key, value) ∈ t.entries := by
  rw [get?, Option.map_eq_some_iff]
  constructor
  · rintro ⟨entry, hfound, rfl⟩
    obtain rfl : entry.1 = key := by simpa using List.find?_some hfound
    exact List.mem_of_find?_eq_some hfound
  · intro hmem
    cases hfound : t.entries.find? (fun entry => entry.1 = key) with
    | none => exact absurd (List.find?_eq_none.1 hfound _ hmem) (by simp)
    | some entry =>
      have hkey : entry.1 = key := by simpa using List.find?_some hfound
      have heq := List.inj_on_of_nodup_map t.nodup (List.mem_of_find?_eq_some hfound) hmem hkey
      exact ⟨entry, rfl, congrArg Prod.snd heq⟩

theorem get?_eq_none_iff : t.get? key = none ↔ key ∉ t.keys := by
  rw [Option.eq_none_iff_forall_ne_some, keys]
  simp [get?_eq_some_iff]

theorem mem_keys_iff : key ∈ t.keys ↔ ∃ value, t.get? key = some value := by
  rw [← Option.ne_none_iff_exists', Ne, get?_eq_none_iff, not_not]

theorem sum_map_get? (measure : α → Nat) {keys : List String} (hkeys : keys.Nodup)
    (h : ∀ key ∈ t.keys, key ∈ keys) :
    (keys.map fun key => ((t.get? key).map measure).getD 0).sum = (t.values.map measure).sum := by
  have hown : t.keys.Nodup := t.nodup
  have hvalues : t.values.map measure =
      t.keys.map fun key => ((t.get? key).map measure).getD 0 := by
    rw [values, Table.keys, List.map_map, List.map_map]
    refine List.map_congr_left fun entry hentry => ?_
    simp only [Function.comp_apply, get?_eq_some_iff.2 hentry, Option.map_some, Option.getD_some]
  rw [hvalues, ← List.sum_toFinset _ hkeys, ← List.sum_toFinset _ hown]
  refine (Finset.sum_subset (fun key hkey => ?_) fun key _ hnot => ?_).symm
  · exact List.mem_toFinset.2 (h key (List.mem_toFinset.1 hkey))
  · rw [get?_eq_none_iff.2 fun hmem => hnot (List.mem_toFinset.2 hmem)]
    rfl

def SameMap (t u : Table α) : Prop := ∀ key, t.get? key = u.get? key

theorem nodup_entries (t : Table α) : t.entries.Nodup := t.nodup.of_map Prod.fst

theorem SameMap.perm (h : t.SameMap u) : t.entries.Perm u.entries := by
  rw [List.perm_ext_iff_of_nodup t.nodup_entries u.nodup_entries]
  rintro ⟨key, value⟩
  rw [← get?_eq_some_iff, ← get?_eq_some_iff, h key]

private theorem sameMap_of_perm (h : t.entries.Perm u.entries) : t.SameMap u := by
  intro key
  ext value
  rw [get?_eq_some_iff, get?_eq_some_iff, h.mem_iff]

end Table

namespace Histogram

def ofKeys (keys : List String) : Histogram := keys.foldl bump ∅

variable {h : Histogram} {key : String} {keys keys' : List String}

private theorem getD_bump (h : Histogram) (first key : String) :
    (h.bump first).getD key 0 = h.getD key 0 + if first = key then 1 else 0 := by
  unfold bump
  by_cases hkey : first = key
  · subst hkey
    rw [Table.getD, Table.get?_insert_self, Option.getD_some, if_pos rfl]
  · rw [Table.getD, Table.get?_insert_of_ne (Ne.symm hkey), if_neg hkey, Int.add_zero, Table.getD]

private theorem getD_foldl_bump (keys : List String) (h : Histogram) (key : String) :
    (keys.foldl bump h).getD key 0 = h.getD key 0 + keys.count key := by
  induction keys generalizing h with
  | nil => simp
  | cons first rest ih =>
    rw [List.foldl_cons, ih, getD_bump, List.count_cons]
    by_cases hkey : first = key
    · simp only [hkey, if_true, beq_self_eq_true]
      omega
    · simp [hkey]

private theorem mem_keys_foldl_bump :
    key ∈ (keys.foldl bump h).keys ↔ key ∈ h.keys ∨ key ∈ keys := by
  induction keys generalizing h with
  | nil => simp
  | cons first rest ih =>
    rw [List.foldl_cons, ih, bump, Table.mem_keys_insert, List.mem_cons, or_assoc, or_left_comm]

@[simp] theorem getD_ofKeys (keys : List String) (key : String) :
    (ofKeys keys).getD key 0 = keys.count key := by
  have hempty : (∅ : Histogram).getD key 0 = 0 := rfl
  rw [ofKeys, getD_foldl_bump, hempty, Int.zero_add]

theorem mem_keys_ofKeys : key ∈ (ofKeys keys).keys ↔ key ∈ keys := by
  rw [ofKeys, mem_keys_foldl_bump, or_iff_right]
  exact List.not_mem_nil

theorem entries_ofKeys_perm (keys : List String) : (ofKeys keys).entries.Perm
    (keys.dedup.map fun key => (key, (keys.count key : Int))) := by
  have hnodup : (keys.dedup.map fun key => (key, (keys.count key : Int))).Nodup :=
    (List.nodup_dedup keys).map fun _ _ heq => (Prod.mk.inj heq).1
  rw [List.perm_ext_iff_of_nodup (Table.nodup_entries _) hnodup]
  rintro ⟨key, count⟩
  rw [← Table.get?_eq_some_iff]
  have hcount := getD_ofKeys keys key
  rw [Table.getD] at hcount
  constructor
  · intro hget
    have hmem := mem_keys_ofKeys.1 (Table.mem_keys_iff.2 ⟨count, hget⟩)
    rw [hget, Option.getD_some] at hcount
    exact List.mem_map.2 ⟨key, List.mem_dedup.2 hmem, by rw [hcount]⟩
  · intro hmem
    obtain ⟨own, hown, heq⟩ := List.mem_map.1 hmem
    obtain ⟨rfl, rfl⟩ := Prod.mk.inj heq
    obtain ⟨value, hvalue⟩ := Table.mem_keys_iff.1 (mem_keys_ofKeys.2 (List.mem_dedup.1 hown))
    rw [hvalue, Option.getD_some] at hcount
    rw [hvalue, hcount]

theorem sameMap_ofKeys_of_perm (hperm : keys.Perm keys') :
    (ofKeys keys).SameMap (ofKeys keys') := by
  have hcount : (fun key => (key, (keys.count key : Int))) =
      fun key => (key, (keys'.count key : Int)) := by
    funext key
    rw [hperm.count_eq]
  refine Table.sameMap_of_perm ((entries_ofKeys_perm keys).trans ?_)
  rw [hcount]
  exact (hperm.dedup.map _).trans (entries_ofKeys_perm keys').symm

theorem keys_bump (h : Histogram) (key : String) :
    (h.bump key).keys = if key ∈ h.keys then h.keys else h.keys ++ [key] := by
  unfold bump
  split
  · next hmem => exact Table.keys_insert_of_mem hmem
  · next hnew => exact Table.keys_insert_of_not_mem hnew

private theorem keys_foldl_bump (keys : List String) (h : Histogram) :
    (keys.foldl bump h).keys = h.keys ++ (ofKeys keys).keys.filter fun key => key ∉ h.keys := by
  induction keys using List.reverseRecOn with
  | nil => exact (List.append_nil _).symm
  | append_singleton keys last ih =>
    have hkeys : (ofKeys (keys ++ [last])).keys = ((ofKeys keys).bump last).keys := by
      rw [ofKeys, List.foldl_append]
      rfl
    rw [List.foldl_append, List.foldl_cons, List.foldl_nil, hkeys, keys_bump, keys_bump, ih]
    by_cases hlast : last ∈ (ofKeys keys).keys
    · simp [hlast]
    · by_cases hold : last ∈ h.keys <;> simp [hlast, hold]

/-- The counts of a histogram are those of two others added up, and its keys are those of the first
and then the other keys of the second. -/
structure IsSum (whole first second : Histogram) : Prop where
  counts : ∀ key, whole.getD key 0 = first.getD key 0 + second.getD key 0
  keys : whole.keys = first.keys ++ second.keys.filter fun key => key ∉ first.keys

theorem isSum_ofKeys_append (keys keys' : List String) :
    (ofKeys (keys ++ keys')).IsSum (ofKeys keys) (ofKeys keys') where
  counts := fun key => by
    rw [getD_ofKeys, getD_ofKeys, getD_ofKeys, List.count_append, Nat.cast_add]
  keys := by
    have hjoined : ofKeys (keys ++ keys') = keys'.foldl bump (ofKeys keys) := List.foldl_append
    rw [hjoined, keys_foldl_bump]

theorem one_le_of_mem_values_ofKeys {count : Int} (h : count ∈ (ofKeys keys).values) :
    1 ≤ count := by
  obtain ⟨entry, hentry, rfl⟩ := List.mem_map.1 h
  obtain ⟨key, hkey, rfl⟩ := List.mem_map.1 ((entries_ofKeys_perm keys).mem_iff.1 hentry)
  have hpos : 0 < keys.count key := List.count_pos_iff.2 (List.mem_dedup.1 hkey)
  simp only
  omega

/-- The counts of the keys that pass a test. -/
def sumWhere (h : Histogram) (p : String → Bool) : Int :=
  ((h.entries.filter fun entry => p entry.1).map Prod.snd).sum

theorem sumWhere_ofKeys (keys : List String) (p : String → Bool) :
    (ofKeys keys).sumWhere p = keys.countP p := by
  have hperm := ((entries_ofKeys_perm keys).filter fun entry => p entry.1).map Prod.snd
  rw [sumWhere, hperm.sum_eq, List.filter_map, List.map_map,
    ← List.sum_map_count_dedup_filter_eq_countP p keys, Nat.cast_list_sum, List.map_map]
  rfl

end Histogram

end CodeAtlas
