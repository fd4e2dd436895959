/-!
Tables from texts to values that remember the order in which their keys came. Main facts: writing
a key makes it readable, leaves the others alone, and keeps the place of a key that was there.
-/
namespace CodeAtlas

variable {α : Type}

namespace Table

/-- Writes a value: in the place of the key, or at the end if it is new. -/
def write (key : String) (value : α) : List (String × α) → List (String × α)
  | [] => [(key, value)]
  | entry :: rest => if entry.1 = key then (key, value) :: rest else entry :: write key value rest

theorem mem_keys_write {key other : String} {value : α} {entries : List (String × α)} :
    other ∈ (write key value entries).map Prod.fst ↔
      other = key ∨ other ∈ entries.map Prod.fst := by
  induction entries with
  | nil => simp [write]
  | cons entry rest ih =>
    by_cases h : entry.1 = key
    · simp [write, h]
    · simp only [write, h, if_false, List.map_cons, List.mem_cons, ih]
      constructor
      · rintro (rfl | rfl | hr) <;> simp_all
      · rintro (rfl | rfl | hr) <;> simp_all

theorem nodup_write {key : String} {value : α} {entries : List (String × α)}
    (h : (entries.map Prod.fst).Nodup) : ((write key value entries).map Prod.fst).Nodup := by
  induction entries with
  | nil => simp [write]
  | cons entry rest ih =>
    simp only [List.map_cons, List.nodup_cons] at h
    by_cases hk : entry.1 = key
    · subst hk
      simpa [write] using h
    · simp only [write, hk, if_false, List.map_cons, List.nodup_cons]
      refine ⟨fun hm => ?_, ih h.2⟩
      rcases mem_keys_write.1 hm with h' | h'
      · exact hk h'
      · exact h.1 h'

end Table

/-- A table from texts to values, in the order in which the keys were first written. -/
structure Table (α : Type) where
  entries : List (String × α)
  nodup : (entries.map Prod.fst).Nodup

namespace Table

def empty : Table α := ⟨[], by simp⟩

instance : EmptyCollection (Table α) := ⟨empty⟩

def keys (t : Table α) : List String := t.entries.map Prod.fst

def values (t : Table α) : List α := t.entries.map Prod.snd

def get? (t : Table α) (key : String) : Option α :=
  (t.entries.find? fun entry => entry.1 = key).map Prod.snd

def getD (t : Table α) (key : String) (default : α) : α := (t.get? key).getD default

def insert (t : Table α) (key : String) (value : α) : Table α :=
  ⟨write key value t.entries, nodup_write t.nodup⟩

def ofList (pairs : List (String × α)) : Table α :=
  pairs.foldl (fun t pair => t.insert pair.1 pair.2) ∅

theorem mem_keys_insert {t : Table α} {key other : String} {value : α} :
    other ∈ (t.insert key value).keys ↔ other = key ∨ other ∈ t.keys := mem_keys_write

theorem get?_insert_self (t : Table α) (key : String) (value : α) :
    (t.insert key value).get? key = some value := by
  unfold get? insert
  simp only
  generalize t.entries = entries
  induction entries with
  | nil => simp [write]
  | cons entry rest ih =>
    by_cases h : entry.1 = key <;> simp_all [write]

theorem get?_insert_of_ne {t : Table α} {key other : String} {value : α} (h : other ≠ key) :
    (t.insert key value).get? other = t.get? other := by
  unfold get? insert
  simp only
  generalize t.entries = entries
  induction entries with
  | nil => simp [write, Ne.symm h]
  | cons entry rest ih =>
    by_cases hk : entry.1 = key
    · subst hk
      simp [write, Ne.symm h]
    · by_cases ho : entry.1 = other <;> simp_all [write]

theorem keys_insert_of_mem {t : Table α} {key : String} {value : α} (h : key ∈ t.keys) :
    (t.insert key value).keys = t.keys := by
  unfold keys insert at *
  simp only at *
  generalize t.entries = entries at *
  induction entries with
  | nil => simp at h
  | cons entry rest ih =>
    by_cases hk : entry.1 = key
    · simp [write, hk]
    · have hr : key ∈ rest.map Prod.fst := by simpa [Ne.symm hk] using h
      simp [write, hk, ih hr]

theorem keys_insert_of_not_mem {t : Table α} {key : String} {value : α} (h : key ∉ t.keys) :
    (t.insert key value).keys = t.keys ++ [key] := by
  unfold keys insert at *
  simp only at *
  generalize t.entries = entries at *
  induction entries with
  | nil => simp [write]
  | cons entry rest ih =>
    have hk : entry.1 ≠ key := fun e => h (by simp [e])
    have hr : key ∉ rest.map Prod.fst := fun hm => h (by simp at hm ⊢; exact .inr hm)
    simp [write, hk, ih hr]

end Table

abbrev Histogram := Table Int

def Histogram.bump (h : Histogram) (key : String) : Histogram := h.insert key (h.getD key 0 + 1)

end CodeAtlas
