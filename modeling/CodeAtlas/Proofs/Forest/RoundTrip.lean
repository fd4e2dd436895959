import CodeAtlas.Proofs.Forest.Growth
import CodeAtlas.Proofs.Forest.Nesting
import CodeAtlas.Proofs.Path

/-! Nesting and listing undo each other: a list of entries with distinct paths comes back in another
order, and a forest whose nodes stand where their paths say comes back as it is. -/
namespace CodeAtlas.Forest

/-- A forest in which every node stands where its path says. -/
structure WellPlaced (forest : Forest) : Prop where
  distinct : ((entriesOf forest).map Entry.path).Nodup
  child_path : ∀ t ∈ nodesOf forest, ∀ c ∈ t.children, ∃ segment : String,
    '/' ∉ segment.toList ∧ c.entry.path = t.entry.path ++ "/" ++ segment
  children_of_file : ∀ t ∈ nodesOf forest, t.entry.isDirectory = false → t.children = []
  not_below : ∀ root ∈ forest, ∀ d ∈ entriesOf forest, d.isDirectory = true →
    Path.parent? root.entry.path ≠ some d.path

variable {forest : Forest}

theorem entry_mem_entriesOf {t : Tree} (ht : t ∈ nodesOf forest) :
    t.entry ∈ entriesOf forest := by
  rw [← map_entry_nodesOf]
  exact List.mem_map_of_mem ht

structure Lists (entries : List Entry) (forest : Forest) : Prop where
  perm : entries.Perm (entriesOf forest)
  roots : (forest.map Tree.entry).Sublist entries
  siblings : ∀ t ∈ nodesOf forest, (t.children.map Tree.entry).Sublist entries

variable {entries : List Entry}

namespace Lists

theorem entry_mem (h : Lists entries forest) {t : Tree} (ht : t ∈ nodesOf forest) :
    t.entry ∈ entries := h.perm.mem_iff.2 (entry_mem_entriesOf ht)

theorem mem_iff (h : Lists entries forest) {e : Entry} : e ∈ entries ↔
    (∃ root ∈ forest, root.entry = e) ∨ ∃ t ∈ nodesOf forest, ∃ c ∈ t.children, c.entry = e :=
  h.perm.mem_iff.trans mem_entriesOf_iff

theorem distinct (h : Lists entries forest) (hplaced : WellPlaced forest) :
    (entries.map Entry.path).Nodup := (h.perm.map Entry.path).nodup_iff.2 hplaced.distinct

theorem nodup (h : Lists entries forest) (hplaced : WellPlaced forest) : entries.Nodup :=
  (h.distinct hplaced).of_map Entry.path

end Lists

private theorem lists_entriesOf (forest : Forest) : Lists (entriesOf forest) forest where
  perm := .refl _
  roots := map_entry_sublist_entriesOf forest
  siblings := fun _ ht => children_sublist_entriesOf ht

namespace WellPlaced

theorem parent?_child (h : WellPlaced forest) {t c : Tree} (ht : t ∈ nodesOf forest)
    (hc : c ∈ t.children) : Path.parent? c.entry.path = some t.entry.path :=
  Path.parent?_eq_some_iff.2 (h.child_path t ht c hc)

theorem isDirectory_of_child (h : WellPlaced forest) {t c : Tree} (ht : t ∈ nodesOf forest)
    (hc : c ∈ t.children) : t.entry.isDirectory = true := by
  cases hdirectory : t.entry.isDirectory with
  | true => rfl
  | false =>
    rw [h.children_of_file t ht hdirectory] at hc
    cases hc

theorem node_eq (h : WellPlaced forest) {t u : Tree} (ht : t ∈ nodesOf forest)
    (hu : u ∈ nodesOf forest) (hpath : t.entry.path = u.entry.path) : t = u := by
  have hnodup : ((nodesOf forest).map fun t => t.entry.path).Nodup := by
    have hdistinct := h.distinct
    rw [← map_entry_nodesOf, List.map_map] at hdistinct
    exact hdistinct
  exact List.inj_on_of_nodup_map hnodup ht hu hpath

private theorem filter_isRoot (h : WellPlaced forest) (hlist : Lists entries forest) :
    entries.filter (isRoot entries) = forest.map Tree.entry := by
  rw [← filter_mem_eq_of_sublist hlist.roots (hlist.nodup h)]
  refine List.filter_congr fun e he => ?_
  cases hroot : isRoot entries e with
  | true =>
    rcases hlist.mem_iff.1 he with ⟨root, hmem, rfl⟩ | ⟨t, ht, c, hc, rfl⟩
    · exact (decide_eq_true (List.mem_map_of_mem hmem)).symm
    · rw [(isRoot_eq_false_iff (hlist.distinct h)).2 ⟨t.entry, hlist.entry_mem ht,
        h.isDirectory_of_child ht hc, h.parent?_child ht hc⟩] at hroot
      cases hroot
  | false =>
    obtain ⟨d, hd, hdirectory, hparent⟩ := (isRoot_eq_false_iff (hlist.distinct h)).1 hroot
    refine (decide_eq_false fun hmem => ?_).symm
    obtain ⟨root, hroot', rfl⟩ := List.mem_map.1 hmem
    exact h.not_below root hroot' d (hlist.perm.subset hd) hdirectory hparent

private theorem below_eq (h : WellPlaced forest) (hlist : Lists entries forest) {t : Tree}
    (ht : t ∈ nodesOf forest) (hdirectory : t.entry.isDirectory = true) :
    below entries t.entry.path = t.children.map Tree.entry := by
  rw [← filter_mem_eq_of_sublist (hlist.siblings t ht) (hlist.nodup h), below]
  refine List.filter_congr fun e he => ?_
  rw [Bool.eq_iff_iff, beq_iff_eq, decide_eq_true_eq, List.mem_map]
  constructor
  · intro hparent
    rcases hlist.mem_iff.1 he with ⟨root, hmem, rfl⟩ | ⟨u, hu, c, hc, rfl⟩
    · exact absurd hparent (h.not_below root hmem t.entry (entry_mem_entriesOf ht) hdirectory)
    · have hpath := Option.some.inj ((h.parent?_child hu hc).symm.trans hparent)
      obtain rfl := h.node_eq hu ht hpath
      exact ⟨c, hc, rfl⟩
  · rintro ⟨c, hc, rfl⟩
    exact h.parent?_child ht hc

theorem subtree_entry (h : WellPlaced forest) (hlist : Lists entries forest) (t : Tree)
    (ht : t ∈ nodesOf forest) : subtree entries t.entry = t := by
  rw [subtree_eq (hlist.distinct h) (hlist.entry_mem ht)]
  cases hdirectory : t.entry.isDirectory with
  | true =>
    have hchildren : (t.children.map Tree.entry).map (subtree entries) = t.children := by
      rw [List.map_map]
      refine (List.map_congr_left fun c hc => ?_).trans (List.map_id _)
      exact h.subtree_entry hlist c (child_mem_nodesOf forest ht hc)
    rw [if_pos rfl, h.below_eq hlist ht hdirectory, hchildren]
    cases t
    rfl
  | false =>
    have hchildren := h.children_of_file t ht hdirectory
    cases t with
    | node e children => rw [if_neg (by simp), show children = [] from hchildren, Tree.entry]
termination_by t
decreasing_by
  cases t with
  | node e children =>
    have := List.sizeOf_lt_of_mem (show c ∈ children from hc)
    simp only [Tree.node.sizeOf_spec]
    omega

theorem ofEntries_eq (h : WellPlaced forest) (hlist : Lists entries forest) :
    ofEntries entries = forest := by
  rw [ofEntries, h.filter_isRoot hlist, List.map_map]
  refine (List.map_congr_left fun t ht => ?_).trans (List.map_id _)
  exact h.subtree_entry hlist t (mem_nodesOf_of_mem ht)

private theorem ofEntries_entriesOf (h : WellPlaced forest) :
    ofEntries (entriesOf forest) = forest :=
  h.ofEntries_eq (lists_entriesOf forest)

end WellPlaced

theorem wellPlaced_ofEntries {entries : List Entry} (hnodup : (entries.map Entry.path).Nodup) :
    WellPlaced (ofEntries entries) where
  distinct := ((entriesOf_ofEntries_perm hnodup).map Entry.path).nodup_iff.2 hnodup
  child_path := fun t ht c hc => by
    have hchild := (mem_children_iff hnodup ht).1 (List.mem_map_of_mem hc)
    exact Path.parent?_eq_some_iff.1 hchild.2.2
  children_of_file := fun t ht hfile => by
    have hchildren := children_of_mem_nodesOf hnodup ht
    rw [hfile, if_neg Bool.false_ne_true] at hchildren
    exact List.map_eq_nil_iff.1 hchildren
  not_below := fun root hroot d hd hdirectory hparent => by
    have hroots := List.mem_map_of_mem (f := Tree.entry) hroot
    rw [roots_ofEntries hnodup, List.mem_filter] at hroots
    have hfalse := (isRoot_eq_false_iff hnodup).2
      ⟨d, (entriesOf_ofEntries_perm hnodup).subset hd, hdirectory, hparent⟩
    rw [hroots.2] at hfalse
    cases hfalse

/-- The pass over a list of entries builds their forest, and the stack lists a forest. Listing the
forest of entries with distinct paths gives them back in some order; an entry stands below its
directory if that is listed and is a root otherwise, and neither roots nor siblings change their
order. Nesting what a well placed forest lists gives the forest back. -/
theorem nesting_and_listing :
    (∀ entries : List Entry, (entries.map Entry.path).Nodup →
      (entriesOf (ofEntries entries)).Perm entries ∧
      (ofEntries entries).map Tree.entry = entries.filter (fun e =>
        !entries.any fun d => d.isDirectory && Path.parent? e.path == some d.path) ∧
      ∀ t ∈ nodesOf (ofEntries entries), t.children.map Tree.entry =
        if t.entry.isDirectory then
          entries.filter fun e => Path.parent? e.path == some t.entry.path
        else []) ∧
    (∀ forest : Forest, WellPlaced forest → ofEntries (entriesOf forest) = forest) ∧
    (∀ entries : List Entry, grow entries = ofEntries entries) ∧
    ∀ forest : Forest, walk [] forest = entriesOf forest := by
  refine ⟨fun entries hnodup => ⟨entriesOf_ofEntries_perm hnodup, ?_,
    fun t ht => children_of_mem_nodesOf hnodup ht⟩, fun forest h => h.ofEntries_entriesOf,
    grow_eq_ofEntries, walk_eq []⟩
  rw [roots_ofEntries hnodup]
  exact List.filter_congr fun e _ => isRoot_eq hnodup e

/-- A file listed before its directory, an entry below that file, and one without a parent. -/
def scattered : List Entry :=
  [⟨"a/b", "b", .file, none, 0, none, none⟩, ⟨"a", "a", .directory, none, 0, none, none⟩,
    ⟨"a/b/c", "c", .file, none, 0, none, none⟩, ⟨"x/y", "y", .file, none, 0, none, none⟩]

theorem scattered_nested :
    (scattered.map Entry.path).Nodup ∧
    (walk [] (grow scattered)).Perm scattered ∧
    ((grow scattered).map Tree.entry).map Entry.path = ["a", "a/b/c", "x/y"] ∧
    WellPlaced (grow scattered) ∧ grow (walk [] (grow scattered)) = grow scattered := by
  have hnodup : (scattered.map Entry.path).Nodup := by decide
  obtain ⟨hnested, hlisted, hgrow, hwalk⟩ := nesting_and_listing
  obtain ⟨hperm, hroots, -⟩ := hnested scattered hnodup
  have hplaced : WellPlaced (ofEntries scattered) := wellPlaced_ofEntries hnodup
  simp only [hgrow, hwalk]
  refine ⟨hnodup, hperm, ?_, hplaced, hlisted _ hplaced⟩
  rw [hroots]
  decide +kernel

end CodeAtlas.Forest
