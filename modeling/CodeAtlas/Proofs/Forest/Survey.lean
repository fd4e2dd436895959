import CodeAtlas.Proofs.Forest.RoundTrip
import CodeAtlas.Proofs.Text.Segment

/-! Forests listed level by level: all children of a node come before what is below them. A forest
of nested trees is made again from such a list. -/
namespace CodeAtlas.Forest

mutual

def surveyOfTree : Tree → List Entry
  | .node _ children => children.map Tree.entry ++ surveyOf children

def surveyOf : Forest → List Entry
  | [] => []
  | t :: ts => surveyOfTree t ++ surveyOf ts

end

theorem surveyOf_eq_flatMap (forest : Forest) : surveyOf forest = forest.flatMap surveyOfTree := by
  induction forest with
  | nil => rfl
  | cons t ts ih => rw [surveyOf, List.flatMap_cons, ih]

theorem entriesOf_eq_flatMap (forest : Forest) :
    entriesOf forest = forest.flatMap entriesOfTree := by
  induction forest with
  | nil => rfl
  | cons t ts ih => rw [entriesOf, List.flatMap_cons, ih]

mutual

private theorem survey_perm_entriesOfTree (t : Tree) :
    (t.entry :: surveyOfTree t).Perm (entriesOfTree t) := by
  cases t with
  | node e children =>
    rw [surveyOfTree, entriesOfTree, Tree.entry]
    exact (survey_perm_entriesOf children).cons e

theorem survey_perm_entriesOf (forest : Forest) :
    (forest.map Tree.entry ++ surveyOf forest).Perm (entriesOf forest) := by
  cases forest with
  | nil => exact .refl _
  | cons t ts =>
    have htree := survey_perm_entriesOfTree t
    have hrest := survey_perm_entriesOf ts
    rw [surveyOf, entriesOf, List.map_cons, List.cons_append]
    refine List.Perm.trans (.cons _ ?_) (htree.append hrest)
    exact List.perm_append_comm_assoc _ _ _

end

mutual

private theorem sublist_surveyOfTree {t : Tree} (root : Tree) (ht : t ∈ nodesOfTree root) :
    (t.children.map Tree.entry).Sublist (surveyOfTree root) := by
  cases root with
  | node e children =>
    rw [surveyOfTree]
    rw [nodesOfTree] at ht
    rcases List.mem_cons.1 ht with rfl | ht
    · exact List.sublist_append_left _ _
    · exact (sublist_surveyOf children ht).trans (List.sublist_append_right _ _)

theorem sublist_surveyOf {t : Tree} (forest : Forest) (ht : t ∈ nodesOf forest) :
    (t.children.map Tree.entry).Sublist (surveyOf forest) := by
  cases forest with
  | nil => cases ht
  | cons root roots =>
    rw [nodesOf] at ht
    rw [surveyOf]
    rcases List.mem_append.1 ht with ht | ht
    · exact (sublist_surveyOfTree root ht).trans (List.sublist_append_left _ _)
    · exact (sublist_surveyOf roots ht).trans (List.sublist_append_right _ _)

end

private theorem lists_survey (forest : Forest) :
    Lists (forest.map Tree.entry ++ surveyOf forest) forest where
  perm := survey_perm_entriesOf forest
  roots := List.sublist_append_left _ _
  siblings := fun _ ht => (sublist_surveyOf forest ht).trans (List.sublist_append_right _ _)

/-- Every child's path is that of its parent and one more segment, which tells it from its siblings;
files have no children. -/
inductive Nested : Tree → Prop
  | node {e : Entry} {children : Forest}
      (path : ∀ c ∈ children, ∃ segment : String,
        '/' ∉ segment.toList ∧ c.entry.path = e.path ++ "/" ++ segment)
      (distinct : (children.map fun c => c.entry.path).Nodup)
      (file : e.isDirectory = false → children = [])
      (nested : ∀ c ∈ children, Nested c) : Nested (.node e children)

/-- A path that is another one or continues it after a slash. -/
def Continues (path above : String) : Prop := path = above ∨ ∃ rest, path = above ++ "/" ++ rest

theorem Continues.trans {path middle above : String} (h : Continues path middle)
    (h' : Continues middle above) : Continues path above := by
  rcases h with rfl | ⟨rest, rfl⟩
  · exact h'
  · rcases h' with rfl | ⟨rest', rfl⟩
    · exact .inr ⟨rest, rfl⟩
    · exact .inr ⟨rest' ++ "/" ++ rest, by simp only [String.append_assoc]⟩

theorem Continues.ne {path above segment : String}
    (h : Continues path (above ++ "/" ++ segment)) : path ≠ above := by
  have hlength : above.length < path.length := by
    rcases h with rfl | ⟨rest, rfl⟩
    · simp only [String.length_append, show "/".length = 1 from rfl]
      omega
    · simp only [String.length_append, show "/".length = 1 from rfl]
      omega
  exact fun heq => Nat.lt_irrefl _ (heq ▸ hlength)

theorem Continues.takeWhile {path above segment : String} (hsegment : '/' ∉ segment.toList)
    (h : Continues path (above ++ "/" ++ segment)) :
    (path.toList.drop (above.toList.length + 1)).takeWhile (· != '/') = segment.toList := by
  rcases h with rfl | ⟨rest, rfl⟩
  · have htext : (above ++ "/" ++ segment).toList =
        above.toList ++ ['/'] ++ segment.toList := by simp
    rw [htext, List.drop_left' (by simp)]
    exact List.takeWhile_eq_self_iff.2 fun c hc => bne_iff_ne.2 fun heq => hsegment (heq ▸ hc)
  · have htext : (above ++ "/" ++ segment ++ "/" ++ rest).toList =
        (above.toList ++ ['/']) ++ (segment.toList ++ '/' :: rest.toList) := by simp
    rw [htext, List.drop_left' (by simp), Text.takeWhile_ne_append_cons hsegment]

private theorem segment_eq_of_continues {above first second path : String}
    (hfirst : '/' ∉ first.toList) (hsecond : '/' ∉ second.toList)
    (h : Continues path (above ++ "/" ++ first)) (h' : Continues path (above ++ "/" ++ second)) :
    first = second :=
  String.toList_injective ((h.takeWhile hfirst).symm.trans (h'.takeWhile hsecond))

namespace Nested

theorem continues {t : Tree} (h : Nested t) :
    ∀ e ∈ entriesOfTree t, Continues e.path t.entry.path := by
  induction h with
  | @node e children path distinct file nested ih =>
    intro e' he'
    rw [entriesOfTree, entriesOf_eq_flatMap] at he'
    rcases List.mem_cons.1 he' with rfl | hbelow
    · exact .inl rfl
    · obtain ⟨c, hc, he'⟩ := List.mem_flatMap.1 hbelow
      obtain ⟨segment, -, hpath⟩ := path c hc
      exact (ih c hc e' he').trans (.inr ⟨segment, hpath⟩)

private theorem distinct_paths {t : Tree} (h : Nested t) :
    ((entriesOfTree t).map Entry.path).Nodup := by
  induction h with
  | @node e children path distinct file nested ih =>
    rw [entriesOfTree, entriesOf_eq_flatMap, List.map_cons, List.nodup_cons, List.map_flatMap,
      List.nodup_flatMap]
    refine ⟨fun hmem => ?_, fun c hc => ih c hc, ?_⟩
    · obtain ⟨c, hc, hpath⟩ := List.mem_flatMap.1 hmem
      obtain ⟨e', he', heq⟩ := List.mem_map.1 hpath
      obtain ⟨segment, -, hc'⟩ := path c hc
      have hbelow := (nested c hc).continues e' he'
      rw [hc'] at hbelow
      exact hbelow.ne heq
    · -- An entry below two children would continue the paths of both.
      rw [List.Nodup, List.pairwise_map] at distinct
      refine distinct.imp_of_mem fun {c c'} hc hc' hne p hp hp' => hne ?_
      obtain ⟨e₁, he₁, rfl⟩ := List.mem_map.1 hp
      obtain ⟨e₂, he₂, heq⟩ := List.mem_map.1 hp'
      obtain ⟨segment, hsegment, hpath⟩ := path c hc
      obtain ⟨segment', hsegment', hpath'⟩ := path c' hc'
      have h₁ := (nested c hc).continues e₁ he₁
      have h₂ := (nested c' hc').continues e₂ he₂
      rw [hpath] at h₁
      rw [heq, hpath'] at h₂
      rw [hpath, hpath', segment_eq_of_continues hsegment hsegment' h₁ h₂]

theorem of_mem_nodesOfTree {t u : Tree} (h : Nested t) (hu : u ∈ nodesOfTree t) : Nested u := by
  induction h with
  | @node e children path distinct file nested ih =>
    rw [nodesOfTree] at hu
    rcases List.mem_cons.1 hu with rfl | hbelow
    · exact .node path distinct file nested
    · obtain ⟨c, hc, hu⟩ := mem_nodesOf_iff.1 hbelow
      exact ih c hc hu

private theorem wellPlaced {t : Tree} (h : Nested t) (hroot : '/' ∉ t.entry.path.toList) :
    WellPlaced [t] where
  distinct := by
    rw [entriesOf, entriesOf, List.append_nil]
    exact h.distinct_paths
  child_path := fun u hu c hc => by
    rw [nodesOf, nodesOf, List.append_nil] at hu
    cases h.of_mem_nodesOfTree hu with
    | node path => exact path c hc
  children_of_file := fun u hu hfile => by
    rw [nodesOf, nodesOf, List.append_nil] at hu
    cases h.of_mem_nodesOfTree hu with
    | node path distinct file => exact file hfile
  not_below := fun root hmem d hd hdirectory hparent => by
    cases List.mem_singleton.1 hmem
    obtain ⟨segment, -, hpath⟩ := Path.parent?_eq_some_iff.1 hparent
    exact hroot (by simp [hpath])

theorem ofEntries_survey {t : Tree} (h : Nested t) (hroot : '/' ∉ t.entry.path.toList) :
    ofEntries (t.entry :: surveyOfTree t) = [t] := by
  have hlist := lists_survey [t]
  rw [surveyOf, surveyOf, List.append_nil] at hlist
  exact (h.wellPlaced hroot).ofEntries_eq hlist

end Nested

end CodeAtlas.Forest
