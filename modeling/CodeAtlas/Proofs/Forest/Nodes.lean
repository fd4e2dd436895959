import CodeAtlas.Forest
import Mathlib.Data.List.Nodup

/-! The nodes of a forest. Each entry of a forest is the entry of one node; it is that of a root, or
that of a child of another node. -/
namespace CodeAtlas.Forest

mutual

def nodesOfTree : Tree → List Tree
  | .node e children => .node e children :: nodesOf children

/-- The nodes of a forest, each before those below it. -/
def nodesOf : Forest → List Tree
  | [] => []
  | t :: ts => nodesOfTree t ++ nodesOf ts

end

theorem nodesOfTree_eq (t : Tree) : nodesOfTree t = t :: nodesOf t.children := by
  cases t with
  | node e children => rw [nodesOfTree, Tree.children]

theorem entriesOfTree_eq (t : Tree) : entriesOfTree t = t.entry :: entriesOf t.children := by
  cases t with
  | node e children => rw [entriesOfTree, Tree.entry, Tree.children]

theorem nodesOf_append (forest others : Forest) :
    nodesOf (forest ++ others) = nodesOf forest ++ nodesOf others := by
  induction forest with
  | nil => rw [List.nil_append, nodesOf, List.nil_append]
  | cons t ts ih => rw [List.cons_append, nodesOf, nodesOf, ih, List.append_assoc]

theorem mem_nodesOf_iff {t : Tree} {forest : Forest} :
    t ∈ nodesOf forest ↔ ∃ root ∈ forest, t ∈ nodesOfTree root := by
  induction forest with
  | nil => simp [nodesOf]
  | cons root roots ih => simp [nodesOf, ih]

theorem mem_nodesOf_of_mem {t : Tree} {forest : Forest} (h : t ∈ forest) : t ∈ nodesOf forest :=
  mem_nodesOf_iff.2 ⟨t, h, by rw [nodesOfTree_eq]; exact List.mem_cons_self⟩

mutual

theorem map_entry_nodesOfTree (t : Tree) : (nodesOfTree t).map Tree.entry = entriesOfTree t := by
  cases t with
  | node e children =>
    rw [nodesOfTree, entriesOfTree, List.map_cons, map_entry_nodesOf children, Tree.entry]

theorem map_entry_nodesOf (forest : Forest) :
    (nodesOf forest).map Tree.entry = entriesOf forest := by
  cases forest with
  | nil => rfl
  | cons t ts =>
    rw [nodesOf, entriesOf, List.map_append, map_entry_nodesOfTree t, map_entry_nodesOf ts]

end

mutual

private theorem sublist_nodesOfTree {t : Tree} (root : Tree) (ht : t ∈ nodesOfTree root) :
    (nodesOfTree t).Sublist (nodesOfTree root) := by
  cases root with
  | node e children =>
    rw [nodesOfTree] at ht
    rcases List.mem_cons.1 ht with rfl | ht
    · exact List.Sublist.refl _
    · rw [nodesOfTree.eq_def (.node e children)]
      exact (sublist_nodesOf children ht).cons _

theorem sublist_nodesOf {t : Tree} (forest : Forest) (ht : t ∈ nodesOf forest) :
    (nodesOfTree t).Sublist (nodesOf forest) := by
  cases forest with
  | nil => cases ht
  | cons root roots =>
    rw [nodesOf] at ht
    rw [nodesOf]
    rcases List.mem_append.1 ht with ht | ht
    · exact (sublist_nodesOfTree root ht).trans (List.sublist_append_left _ _)
    · exact (sublist_nodesOf roots ht).trans (List.sublist_append_right _ _)

end

theorem mem_nodesOf_of_mem_children {t u : Tree} {forest : Forest} (ht : t ∈ nodesOf forest)
    (hu : u ∈ nodesOf t.children) : u ∈ nodesOf forest := by
  refine (sublist_nodesOf forest ht).subset ?_
  rw [nodesOfTree_eq]
  exact List.mem_cons_of_mem t hu

theorem child_mem_nodesOf {t c : Tree} (forest : Forest) (ht : t ∈ nodesOf forest)
    (hc : c ∈ t.children) : c ∈ nodesOf forest :=
  mem_nodesOf_of_mem_children ht (mem_nodesOf_of_mem hc)

private theorem sublist_entriesOf {t : Tree} (forest : Forest) (ht : t ∈ nodesOf forest) :
    (entriesOfTree t).Sublist (entriesOf forest) := by
  rw [← map_entry_nodesOfTree, ← map_entry_nodesOf]
  exact (sublist_nodesOf forest ht).map Tree.entry

theorem map_entry_sublist_entriesOf (forest : Forest) :
    (forest.map Tree.entry).Sublist (entriesOf forest) := by
  induction forest with
  | nil => exact List.Sublist.refl _
  | cons t ts ih =>
    rw [List.map_cons, entriesOf, entriesOfTree_eq, List.cons_append]
    exact (ih.trans (List.sublist_append_right _ _)).cons_cons t.entry

theorem children_sublist_entriesOf {t : Tree} {forest : Forest} (ht : t ∈ nodesOf forest) :
    (t.children.map Tree.entry).Sublist (entriesOf forest) := by
  have htree := sublist_entriesOf forest ht
  rw [entriesOfTree_eq] at htree
  exact ((map_entry_sublist_entriesOf t.children).cons t.entry).trans htree

def childEntries (nodes : List Tree) : List Entry :=
  nodes.flatMap fun t => t.children.map Tree.entry

mutual

private theorem count_entriesOfTree (e : Entry) (t : Tree) :
    (entriesOfTree t).count e = [t.entry].count e + (childEntries (nodesOfTree t)).count e := by
  cases t with
  | node first children =>
    have ih := count_entriesOf e children
    rw [entriesOfTree, nodesOfTree, List.count_cons, ih]
    simp only [childEntries, List.flatMap_cons, List.count_append, Tree.children, Tree.entry,
      List.count_cons, List.count_nil]
    omega

theorem count_entriesOf (e : Entry) (forest : Forest) : (entriesOf forest).count e =
    (forest.map Tree.entry).count e + (childEntries (nodesOf forest)).count e := by
  cases forest with
  | nil => rfl
  | cons t ts =>
    have htree := count_entriesOfTree e t
    have hrest := count_entriesOf e ts
    rw [entriesOf, nodesOf, List.count_append, htree, hrest, List.map_cons]
    simp only [childEntries, List.flatMap_append, List.count_append, List.count_cons,
      List.count_nil]
    omega

end

theorem mem_childEntries_iff {e : Entry} {nodes : List Tree} :
    e ∈ childEntries nodes ↔ ∃ t ∈ nodes, e ∈ t.children.map Tree.entry :=
  List.mem_flatMap

theorem mem_entriesOf_iff {e : Entry} {forest : Forest} : e ∈ entriesOf forest ↔
    (∃ root ∈ forest, root.entry = e) ∨
      ∃ t ∈ nodesOf forest, ∃ c ∈ t.children, c.entry = e := by
  rw [← List.count_pos_iff, count_entriesOf, Nat.add_pos_iff_pos_or_pos, List.count_pos_iff,
    List.count_pos_iff, mem_childEntries_iff]
  simp only [List.mem_map]

theorem filter_mem_eq_of_sublist {s l : List Entry} (hsub : s.Sublist l) (hnodup : l.Nodup) :
    l.filter (decide <| · ∈ s) = s := by
  induction hsub with
  | slnil => rfl
  | cons a hsub ih =>
    rename_i s l
    have ha := (List.nodup_cons.1 hnodup).1
    rw [List.filter_cons_of_neg, ih (List.nodup_cons.1 hnodup).2]
    rw [decide_eq_true_eq]
    exact fun hmem => ha (hsub.subset hmem)
  | cons_cons a hsub ih =>
    rename_i s l
    have ha := (List.nodup_cons.1 hnodup).1
    rw [List.filter_cons_of_pos (by simp)]
    refine congrArg (a :: ·) (Eq.trans (List.filter_congr fun b hb => ?_)
      (ih (List.nodup_cons.1 hnodup).2))
    rw [decide_eq_decide, List.mem_cons]
    exact ⟨fun h => h.resolve_left fun heq => ha (heq ▸ hb), .inr⟩

end CodeAtlas.Forest
