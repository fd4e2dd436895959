import CodeAtlas.Forest.Selection
import CodeAtlas.Proofs.Forest.RoundTrip

/-! The part of a forest that answers a search. It holds the files that pass, with the directories
above them and with nothing else, where they stood before; so searching it again with another query
is searching for both at once. -/
namespace CodeAtlas

theorem Entry.isFile_eq (e : Entry) : e.isFile = !e.isDirectory := by
  rw [Entry.isFile, Entry.isDirectory]
  cases e.kind <;> rfl

namespace Forest

mutual

/-- What is left of a tree: a file if it passes the test, a directory if something below it is
left. -/
def keptTree (p : Entry → Bool) : Tree → Option Tree
  | .node e children =>
    if e.isDirectory then
      if kept p children = [] then none else some (.node e (kept p children))
    else if p e then some (.node e children) else none

/-- What is left of a forest. -/
def kept (p : Entry → Bool) : Forest → Forest
  | [] => []
  | t :: ts => (keptTree p t).toList ++ kept p ts

end

mutual

private theorem selectTree_eq (q : Query) (t : Tree) : selectTree q t = keptTree q.accepts t := by
  cases t with
  | node e children =>
    rw [selectTree, keptTree, select_eq q children]
    cases kept q.accepts children <;> rfl

theorem select_eq (q : Query) (forest : Forest) : select q forest = kept q.accepts forest := by
  cases forest with
  | nil => rw [select, kept]
  | cons t ts =>
    rw [select, kept, selectTree_eq q t, select_eq q ts]
    cases keptTree q.accepts t <;> rfl

end

section Node

variable {p : Entry → Bool} {e : Entry} {children : Forest}

theorem keptTree_directory (hdirectory : e.isDirectory = true) :
    keptTree p (.node e children) =
      if kept p children = [] then none else some (.node e (kept p children)) := by
  rw [keptTree, if_pos hdirectory]

theorem keptTree_file (hfile : e.isDirectory = false) :
    keptTree p (.node e children) = if p e then some (.node e children) else none := by
  rw [keptTree, hfile, if_neg Bool.false_ne_true]

end Node

variable {p : Entry → Bool}

theorem keptTree_eq_some_iff {t left : Tree} : keptTree p t = some left ↔
    (t.entry.isDirectory = true ∧ kept p t.children ≠ [] ∧
      left = .node t.entry (kept p t.children)) ∨
    (t.entry.isDirectory = false ∧ p t.entry = true ∧ left = t) := by
  obtain ⟨e, children⟩ := t
  rw [Tree.entry, Tree.children]
  cases hdirectory : e.isDirectory with
  | true =>
    rw [keptTree_directory hdirectory, Option.ite_none_left_eq_some, Option.some_inj,
      eq_comm (b := left)]
    simp
  | false =>
    rw [keptTree_file hdirectory, Option.ite_none_right_eq_some, Option.some_inj,
      eq_comm (b := left)]
    simp

theorem kept_eq_filterMap (p : Entry → Bool) (forest : Forest) :
    kept p forest = forest.filterMap (keptTree p) := by
  induction forest with
  | nil => rw [kept, List.filterMap_nil]
  | cons t ts ih =>
    rw [kept, ih]
    cases h : keptTree p t with
    | none => rw [List.filterMap_cons_none h, Option.toList_none, List.nil_append]
    | some left => rw [List.filterMap_cons_some h, Option.toList_some, List.singleton_append]

theorem entry_of_keptTree {t left : Tree} (h : keptTree p t = some left) :
    left.entry = t.entry := by
  rcases keptTree_eq_some_iff.1 h with ⟨-, -, rfl⟩ | ⟨-, -, rfl⟩ <;> rfl

mutual

def filesOfTree : Tree → List Entry
  | .node e children => if e.isDirectory then filesOf children else [e]

/-- The files of a forest with directories only above them. -/
def filesOf : Forest → List Entry
  | [] => []
  | t :: ts => filesOfTree t ++ filesOf ts

end

theorem filesOf_append (forest others : Forest) :
    filesOf (forest ++ others) = filesOf forest ++ filesOf others := by
  induction forest with
  | nil => rw [List.nil_append, filesOf, List.nil_append]
  | cons t ts ih => rw [List.cons_append, filesOf, filesOf, ih, List.append_assoc]

theorem filesOf_singleton (t : Tree) : filesOf [t] = filesOfTree t := by
  rw [filesOf, filesOf, List.append_nil]

mutual

theorem filesOf_keptTree (p : Entry → Bool) (t : Tree) :
    filesOf (keptTree p t).toList = (filesOfTree t).filter p := by
  cases t with
  | node e children =>
    have ih := filesOf_kept p children
    cases hdirectory : e.isDirectory with
    | true =>
      rw [keptTree_directory hdirectory, filesOfTree, if_pos hdirectory, ← ih]
      split
      · next hnone => rw [hnone, Option.toList_none]
      · rw [Option.toList_some, filesOf_singleton, filesOfTree, if_pos hdirectory]
    | false =>
      rw [keptTree_file hdirectory, filesOfTree, hdirectory, if_neg Bool.false_ne_true,
        List.filter_singleton]
      cases p e with
      | true => simp [filesOf, filesOfTree, hdirectory]
      | false => simp [filesOf]

theorem filesOf_kept (p : Entry → Bool) (forest : Forest) :
    filesOf (kept p forest) = (filesOf forest).filter p := by
  cases forest with
  | nil => rw [kept, filesOf, List.filter_nil]
  | cons t ts =>
    rw [kept, filesOf_append, filesOf_keptTree p t, filesOf_kept p ts, filesOf,
      List.filter_append]

end

mutual

theorem filesOf_ne_nil_of_keptTree {left : Tree} (p : Entry → Bool) (t : Tree)
    (h : keptTree p t = some left) : filesOfTree left ≠ [] := by
  cases t with
  | node e children =>
    rcases keptTree_eq_some_iff.1 h with ⟨hdirectory, hne, rfl⟩ | ⟨hfile, -, rfl⟩
    · rw [filesOfTree, if_pos hdirectory]
      exact filesOf_kept_ne_nil p children hne
    · rw [filesOfTree, show e.isDirectory = false from hfile]
      exact List.cons_ne_nil _ _

theorem filesOf_kept_ne_nil (p : Entry → Bool) (forest : Forest) (h : kept p forest ≠ []) :
    filesOf (kept p forest) ≠ [] := by
  cases forest with
  | nil => exact absurd (by rw [kept]) h
  | cons t ts =>
    rw [kept] at h ⊢
    rw [filesOf_append, Ne, List.append_eq_nil_iff, not_and_or]
    cases hleft : keptTree p t with
    | some left =>
      rw [Option.toList_some, filesOf_singleton]
      exact .inl (filesOf_ne_nil_of_keptTree p t hleft)
    | none =>
      rw [hleft, Option.toList_none, List.nil_append] at h
      exact .inr (filesOf_kept_ne_nil p ts h)

end

private theorem exists_keptTree_iff {t : Tree} :
    (∃ left, keptTree p t = some left) ↔ ∃ e ∈ filesOfTree t, p e = true := by
  have hfiles := filesOf_keptTree p t
  constructor
  · rintro ⟨left, hleft⟩
    rw [hleft, Option.toList_some, filesOf_singleton] at hfiles
    obtain ⟨e, he⟩ := List.exists_mem_of_ne_nil _ (filesOf_ne_nil_of_keptTree p t hleft)
    rw [hfiles, List.mem_filter] at he
    exact ⟨e, he⟩
  · rintro ⟨e, he, hpass⟩
    rw [← Option.ne_none_iff_exists']
    intro hnone
    rw [hnone, Option.toList_none, filesOf] at hfiles
    have hmem := List.mem_filter.2 ⟨he, hpass⟩
    rw [← hfiles] at hmem
    cases hmem

private theorem kept_append (p : Entry → Bool) (forest others : Forest) :
    kept p (forest ++ others) = kept p forest ++ kept p others := by
  rw [kept_eq_filterMap, kept_eq_filterMap, kept_eq_filterMap, List.filterMap_append]

private theorem kept_toList (p : Entry → Bool) (left : Option Tree) :
    kept p left.toList = (left.bind (keptTree p)).toList := by
  cases left with
  | none => rw [Option.toList_none, kept, Option.bind_none, Option.toList_none]
  | some t => rw [Option.toList_some, kept, kept, List.append_nil, Option.bind_some]

mutual

private theorem keptTree_bind (p q : Entry → Bool) (t : Tree) :
    (keptTree q t).bind (keptTree p) = keptTree (fun e => q e && p e) t := by
  cases t with
  | node e children =>
    have ih := kept_kept p q children
    cases hdirectory : e.isDirectory with
    | true =>
      rw [keptTree_directory hdirectory, keptTree_directory hdirectory, ← ih]
      split
      · next hnone => rw [hnone, Option.bind_none, kept, if_pos rfl]
      · rw [Option.bind_some, keptTree_directory hdirectory]
    | false =>
      rw [keptTree_file hdirectory, keptTree_file hdirectory]
      cases q e with
      | true => rw [if_pos rfl, Option.bind_some, keptTree_file hdirectory, Bool.true_and]
      | false => rfl

theorem kept_kept (p q : Entry → Bool) (forest : Forest) :
    kept p (kept q forest) = kept (fun e => q e && p e) forest := by
  cases forest with
  | nil => rw [kept, kept, kept]
  | cons t ts =>
    rw [kept, kept_append, kept_toList, keptTree_bind p q t, kept_kept p q ts, kept]

end

private theorem select_select_self (q : Query) (forest : Forest) :
    select q (select q forest) = select q forest := by
  simp only [select_eq, kept_kept, Bool.and_self]

private theorem select_comm (q r : Query) (forest : Forest) :
    select q (select r forest) = select r (select q forest) := by
  simp only [select_eq, kept_kept, Bool.and_comm]

private theorem Query.accepts_eq (search extension : Option String) (e : Entry) :
    Query.accepts { search, extension } e =
      (Query.accepts { search } e && Query.accepts { extension } e) := by
  simp only [Query.accepts, Bool.and_true, Bool.true_and]

private theorem select_extension_select_search (search extension : Option String)
    (forest : Forest) :
    select { extension } (select { search } forest) = select { search, extension } forest := by
  simp only [select_eq, kept_kept, ← Query.accepts_eq]

def FilesAreLeaves (forest : Forest) : Prop :=
  ∀ t ∈ nodesOf forest, t.entry.isDirectory = false → t.children = []

namespace FilesAreLeaves

variable {t : Tree} {ts forest : Forest}

theorem head (h : FilesAreLeaves (t :: ts)) : FilesAreLeaves [t] := by
  intro u hu
  rw [nodesOf, nodesOf, List.append_nil] at hu
  refine h u ?_
  rw [nodesOf]
  exact List.mem_append_left _ hu

theorem tail (h : FilesAreLeaves (t :: ts)) : FilesAreLeaves ts := by
  intro u hu
  refine h u ?_
  rw [nodesOf]
  exact List.mem_append_right _ hu

theorem children (h : FilesAreLeaves forest) (ht : t ∈ nodesOf forest) :
    FilesAreLeaves t.children :=
  fun u hu => h u (mem_nodesOf_of_mem_children ht hu)

theorem below (h : FilesAreLeaves [t]) : FilesAreLeaves t.children :=
  h.children (mem_nodesOf_of_mem (List.mem_singleton_self t))

theorem children_eq_nil (h : FilesAreLeaves [t]) (hfile : t.entry.isDirectory = false) :
    t.children = [] :=
  h t (mem_nodesOf_of_mem (List.mem_singleton_self t)) hfile

end FilesAreLeaves

mutual

private theorem filesOfTree_eq (t : Tree) (h : FilesAreLeaves [t]) :
    filesOfTree t = (entriesOfTree t).filter Entry.isFile := by
  cases t with
  | node e children =>
    rw [filesOfTree, entriesOfTree]
    cases hdirectory : e.isDirectory with
    | true =>
      rw [if_pos rfl, List.filter_cons_of_neg (by simp [Entry.isFile_eq, hdirectory])]
      exact filesOf_eq children h.below
    | false =>
      rw [List.filter_cons_of_pos (by simp [Entry.isFile_eq, hdirectory]),
        show children = [] from h.children_eq_nil hdirectory]
      rfl

theorem filesOf_eq (forest : Forest) (h : FilesAreLeaves forest) :
    filesOf forest = (entriesOf forest).filter Entry.isFile := by
  cases forest with
  | nil => rfl
  | cons t ts =>
    rw [filesOf, entriesOf, filesOfTree_eq t h.head, filesOf_eq ts h.tail, List.filter_append]

end

mutual

private theorem nodesOf_keptTree (p : Entry → Bool) (t : Tree) (h : FilesAreLeaves [t]) :
    nodesOf (keptTree p t).toList = (nodesOfTree t).filterMap (keptTree p) := by
  cases t with
  | node e children =>
    have ih := nodesOf_kept p children h.below
    rw [nodesOfTree]
    cases hdirectory : e.isDirectory with
    | true =>
      by_cases hnone : kept p children = []
      · have hleft : keptTree p (.node e children) = none := by
          rw [keptTree_directory hdirectory, if_pos hnone]
        rw [List.filterMap_cons_none hleft, ← ih, hleft, hnone, Option.toList_none]
      · have hleft : keptTree p (.node e children) = some (.node e (kept p children)) := by
          rw [keptTree_directory hdirectory, if_neg hnone]
        rw [List.filterMap_cons_some hleft, ← ih, hleft, Option.toList_some, nodesOf, nodesOf,
          List.append_nil, nodesOfTree]
    | false =>
      obtain rfl : children = [] := h.children_eq_nil hdirectory
      rw [keptTree_file hdirectory, nodesOf]
      cases hpass : p e with
      | true =>
        have hleft : keptTree p (.node e []) = some (.node e []) := by
          rw [keptTree_file hdirectory, if_pos hpass]
        rw [List.filterMap_cons_some hleft]
        rfl
      | false =>
        have hleft : keptTree p (.node e []) = none := by
          rw [keptTree_file hdirectory, if_neg (by simp [hpass])]
        rw [List.filterMap_cons_none hleft]
        rfl

theorem nodesOf_kept (p : Entry → Bool) (forest : Forest) (h : FilesAreLeaves forest) :
    nodesOf (kept p forest) = (nodesOf forest).filterMap (keptTree p) := by
  cases forest with
  | nil => rw [kept, nodesOf, List.filterMap_nil]
  | cons t ts =>
    rw [kept, nodesOf_append, nodesOf_keptTree p t h.head, nodesOf_kept p ts h.tail, nodesOf,
      List.filterMap_append]

end

namespace WellPlaced

variable {forest : Forest} {t : Tree} {d e : Entry}

theorem filesAreLeaves (h : WellPlaced forest) : FilesAreLeaves forest := h.children_of_file

theorem mem_entriesOf_kept_iff (h : WellPlaced forest) (ht : t ∈ nodesOf forest) :
    t.entry ∈ entriesOf (kept p forest) ↔ ∃ left, keptTree p t = some left := by
  rw [← map_entry_nodesOf, nodesOf_kept p forest h.filesAreLeaves, List.mem_map]
  simp only [List.mem_filterMap]
  constructor
  · rintro ⟨left, ⟨u, hu, hleft⟩, hentry⟩
    have hpath := congrArg Entry.path ((entry_of_keptTree hleft).symm.trans hentry)
    rw [← h.node_eq hu ht hpath]
    exact ⟨left, hleft⟩
  · rintro ⟨left, hleft⟩
    exact ⟨left, ⟨t, ht, hleft⟩, entry_of_keptTree hleft⟩

private theorem directory_mem_entriesOf_kept_iff (h : WellPlaced forest) (ht : t ∈ nodesOf forest)
    (hdirectory : t.entry.isDirectory = true) : t.entry ∈ entriesOf (kept p forest) ↔
      ∃ e ∈ entriesOf t.children, e.isFile = true ∧ p e = true := by
  rw [h.mem_entriesOf_kept_iff ht, exists_keptTree_iff]
  have hfiles : filesOfTree t = (entriesOf t.children).filter Entry.isFile := by
    rw [← filesOf_eq t.children (h.filesAreLeaves.children ht)]
    obtain ⟨e, children⟩ := t
    rw [filesOfTree, if_pos (show e.isDirectory = true from hdirectory), Tree.children]
  simp only [hfiles, List.mem_filter, and_assoc]

private theorem isChild_kept_iff (h : WellPlaced forest) : (kept p forest).IsChild d e ↔
    forest.IsChild d e ∧ e ∈ entriesOf (kept p forest) := by
  constructor
  · rintro ⟨left, hleft, rfl, he⟩
    refine ⟨?_, (children_sublist_entriesOf hleft).subset he⟩
    rw [nodesOf_kept p forest h.filesAreLeaves] at hleft
    obtain ⟨t, ht, hleft⟩ := List.mem_filterMap.1 hleft
    refine ⟨t, ht, (entry_of_keptTree hleft).symm, ?_⟩
    rcases keptTree_eq_some_iff.1 hleft with ⟨-, -, rfl⟩ | ⟨-, -, rfl⟩
    · obtain ⟨c', hc', rfl⟩ := List.mem_map.1 he
      rw [Tree.children, kept_eq_filterMap] at hc'
      obtain ⟨c, hc, hc'⟩ := List.mem_filterMap.1 hc'
      exact List.mem_map.2 ⟨c, hc, (entry_of_keptTree hc').symm⟩
    · exact he
  · rintro ⟨⟨t, ht, rfl, he⟩, hmem⟩
    obtain ⟨c, hc, rfl⟩ := List.mem_map.1 he
    obtain ⟨c', hc'⟩ := (h.mem_entriesOf_kept_iff (child_mem_nodesOf forest ht hc)).1 hmem
    have hbelow : c' ∈ kept p t.children := by
      rw [kept_eq_filterMap]
      exact List.mem_filterMap.2 ⟨c, hc, hc'⟩
    have hleft : keptTree p t = some (.node t.entry (kept p t.children)) :=
      keptTree_eq_some_iff.2 (.inl ⟨h.isDirectory_of_child ht hc, List.ne_nil_of_mem hbelow, rfl⟩)
    refine ⟨.node t.entry (kept p t.children), ?_, rfl, ?_⟩
    · rw [nodesOf_kept p forest h.filesAreLeaves]
      exact List.mem_filterMap.2 ⟨t, ht, hleft⟩
    · exact List.mem_map.2 ⟨c', hbelow, entry_of_keptTree hc'⟩

end WellPlaced

theorem FilesAreLeaves.kept {forest : Forest} (h : FilesAreLeaves forest) :
    FilesAreLeaves (kept p forest) := by
  intro left hleft hfile
  rw [nodesOf_kept p forest h] at hleft
  obtain ⟨t, ht, hleft⟩ := List.mem_filterMap.1 hleft
  rcases keptTree_eq_some_iff.1 hleft with ⟨hdirectory, -, rfl⟩ | ⟨-, -, rfl⟩
  · rw [Tree.entry, hdirectory] at hfile
    cases hfile
  · exact h left ht hfile

/-- Of a forest made of entries with distinct paths, a query leaves the files that it accepts, in
their order, and the directories with such a file below them, none of them empty, each entry below
the same directory as before. Queries can be put in any order, twice, and for name and extension
one by one. -/
theorem selection_of_entries {entries : List Entry} (hnodup : (entries.map Entry.path).Nodup) :
    (∀ q, (entriesOf (select q (ofEntries entries))).filter Entry.isFile =
      (entriesOf (ofEntries entries)).filter fun e => e.isFile && q.accepts e) ∧
    (∀ q, ∀ t ∈ nodesOf (ofEntries entries), t.entry.isDirectory = true →
      (t.entry ∈ entriesOf (select q (ofEntries entries)) ↔
        ∃ e ∈ entriesOf t.children, e.isFile = true ∧ q.accepts e = true)) ∧
    (∀ q, ∀ t ∈ nodesOf (select q (ofEntries entries)), t.entry.isDirectory = true →
      t.children ≠ []) ∧
    (∀ q, ∀ e ∈ entriesOf (select q (ofEntries entries)), ∀ d,
      (select q (ofEntries entries)).IsChild d e ↔ (ofEntries entries).IsChild d e) ∧
    (∀ q, select q (select q (ofEntries entries)) = select q (ofEntries entries)) ∧
    (∀ q r, select q (select r (ofEntries entries)) = select r (select q (ofEntries entries))) ∧
    ∀ search extension, select { extension } (select { search } (ofEntries entries)) =
      select { search, extension } (ofEntries entries) := by
  have hplaced := wellPlaced_ofEntries hnodup
  have hleaves := hplaced.filesAreLeaves
  refine ⟨fun q => ?_, fun q t ht hdirectory => ?_, fun q left hleft hdirectory => ?_,
    fun q e he d => ?_, fun q => select_select_self q _, fun q r => select_comm q r _,
    fun search extension => select_extension_select_search search extension _⟩
  · rw [select_eq, ← filesOf_eq _ hleaves.kept, filesOf_kept, filesOf_eq _ hleaves,
      List.filter_filter]
    exact List.filter_congr fun e _ => Bool.and_comm ..
  · rw [select_eq]
    exact hplaced.directory_mem_entriesOf_kept_iff ht hdirectory
  · rw [select_eq, nodesOf_kept _ _ hleaves] at hleft
    obtain ⟨t, ht, hleft⟩ := List.mem_filterMap.1 hleft
    rw [entry_of_keptTree hleft] at hdirectory
    rcases keptTree_eq_some_iff.1 hleft with ⟨-, hne, rfl⟩ | ⟨hfile, -, -⟩
    · exact hne
    · rw [hdirectory] at hfile
      cases hfile
  · rw [select_eq] at he ⊢
    rw [hplaced.isChild_kept_iff, and_iff_left he]

/-- A folder with an empty one and another below it, and a file whose folder is missing. -/
def searched : List Entry := [
  { path := "proj", name := "proj", kind := .directory },
  { path := "proj/src", name := "src", kind := .directory },
  { path := "proj/src/b.ts", name := "b.ts", extension := some ".ts" },
  { path := "proj/src/A.ts", name := "A.ts", extension := some ".ts" },
  { path := "proj/docs", name := "docs", kind := .directory },
  { path := "proj/a.md", name := "a.md", extension := some ".md" },
  { path := "other/a.ts", name := "a.ts", extension := some ".ts" }]

theorem searched_for_name : (searched.map Entry.path).Nodup ∧
    (entriesOf (select { search := some "A." } (ofEntries searched))).map Entry.path =
      ["proj", "proj/src", "proj/src/A.ts", "proj/a.md", "other/a.ts"] ∧
    select { extension := some ".ts" } (select { search := some "A." } (ofEntries searched)) =
      select { search := some "A.", extension := some ".ts" } (ofEntries searched) := by
  have hnodup : (searched.map Entry.path).Nodup := by decide
  exact ⟨hnodup, by decide +kernel,
    (selection_of_entries hnodup).2.2.2.2.2.2 (some "A.") (some ".ts")⟩

end Forest

end CodeAtlas
