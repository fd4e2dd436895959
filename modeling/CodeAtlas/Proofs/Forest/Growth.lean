import CodeAtlas.Forest.Growth
import CodeAtlas.Proofs.Forest.Nodes
import Mathlib.Data.List.Induction

/-! The pass over a list of entries builds their forest, and the stack lists a forest in its order.
Of every list, also of one in which paths are repeated, the pass has put among the roots the entries
so far that are roots, and below each path the other entries so far of that parent path. -/
namespace CodeAtlas.Forest

theorem get?_index (entries : List Entry) (path : String) :
    (index entries).get? path = latest? entries path := by
  unfold index Table.ofList latest?
  induction entries using List.reverseRecOn with
  | nil => rfl
  | append_singleton entries e ih =>
    rw [List.map_append, List.foldl_append, List.map_singleton, List.foldl_cons, List.foldl_nil,
      List.reverse_append, List.reverse_singleton, List.singleton_append]
    by_cases hpath : e.path = path
    · subst hpath
      rw [Table.get?_insert_self, List.find?_cons_of_pos (by simp)]
    · rw [Table.get?_insert_of_ne (Ne.symm hpath), ih,
        List.find?_cons_of_neg (by simpa using hpath)]

namespace Growth

variable {bound : Nat}

private theorem add_cases (entries : List Entry) (g : Growth bound)
    (e : { e : Entry // e.path.length ≤ bound }) :
    (isRoot entries e = true ∧ g.add (index entries) e = g.addRoot e) ∨
      ∃ path, ∃ hfits : Path.parent? e.1.path = some path ∧ e.1.path.length ≤ bound,
        isRoot entries e = false ∧ g.add (index entries) e = g.addBelow path e hfits := by
  unfold add
  split
  · next hparent => exact .inl ⟨by rw [isRoot, hparent]; rfl, rfl⟩
  · next path hparent =>
    rw [get?_index]
    cases hlatest : latest? entries path with
    | none => exact .inl ⟨by simp [isRoot, hparent, hlatest], rfl⟩
    | some parent =>
      have hroot : isRoot entries e = !parent.isDirectory := by simp [isRoot, hparent, hlatest]
      dsimp only
      split
      · next hdirectory =>
        exact .inr ⟨path, ⟨hparent, e.2⟩, by rw [hroot, hdirectory]; rfl, rfl⟩
      · next hfile => exact .inl ⟨by simp [hroot, hfile], rfl⟩

private theorem below_addBelow (g : Growth bound) (path : String) (e : Entry)
    (hfits : Path.parent? e.path = some path ∧ e.path.length ≤ bound) (other : String) :
    (g.addBelow path e hfits).below other =
      g.below other ++ if Path.parent? e.path == some other then [e] else [] := by
  rw [hfits.1]
  by_cases hother : other = path
  · subst hother
    simp [addBelow]
  · simp [addBelow, hother, Ne.symm hother]

private theorem foldl_add (entries : List Entry)
    (passed : List { e : Entry // e.path.length ≤ bound }) :
    let grown := passed.foldl (add (index entries)) (bare bound)
    grown.roots = (passed.map Subtype.val).filter (isRoot entries) ∧
      ∀ path, grown.below path = (passed.map Subtype.val).filter fun e =>
        !isRoot entries e && Path.parent? e.path == some path := by
  induction passed using List.reverseRecOn with
  | nil => exact ⟨rfl, fun _ => rfl⟩
  | append_singleton passed e ih =>
    obtain ⟨hroots, hbelow⟩ := ih
    simp only [List.foldl_append, List.foldl_cons, List.foldl_nil, List.map_append,
      List.map_singleton, List.filter_append]
    rcases add_cases entries (passed.foldl (add (index entries)) (bare bound)) e with
      ⟨hroot, hadd⟩ | ⟨path, hfits, hroot, hadd⟩
    · rw [hadd]
      refine ⟨?_, fun other => ?_⟩
      · simp [addRoot, hroots, hroot]
      · simp [addRoot, hbelow, hroot]
    · rw [hadd]
      refine ⟨?_, fun other => ?_⟩
      · simp [addBelow, hroots, hroot]
      · rw [below_addBelow, hbelow]
        simp [List.filter_cons, hroot]

end Growth

private theorem exists_latest?_of_mem {entries : List Entry} {e : Entry} (he : e ∈ entries) :
    ∃ shown, latest? entries e.path = some shown := by
  refine Option.isSome_iff_exists.1 ?_
  rw [latest?, List.find?_isSome]
  exact ⟨e, List.mem_reverse.2 he, beq_self_eq_true _⟩

private theorem filter_not_isRoot {entries : List Entry} {path : String} {shown : Entry}
    (hshown : latest? entries path = some shown) :
    (entries.filter fun e => !isRoot entries e && Path.parent? e.path == some path) =
      if shown.isDirectory then below entries path else [] := by
  have hroot {e : Entry} (hparent : Path.parent? e.path = some path) :
      isRoot entries e = !shown.isDirectory := by
    rw [isRoot, hparent, Option.bind_some, hshown]
  cases hdirectory : shown.isDirectory with
  | true =>
    refine List.filter_congr fun e _ => ?_
    cases hparent : Path.parent? e.path == some path with
    | false => exact Bool.and_false _
    | true => rw [hroot (beq_iff_eq.1 hparent), hdirectory]; rfl
  | false =>
    refine List.filter_eq_nil_iff.2 fun e _ hkept => ?_
    obtain ⟨hnot, hparent⟩ := Bool.and_eq_true_iff.1 hkept
    rw [hroot (beq_iff_eq.1 hparent), hdirectory] at hnot
    cases hnot

theorem tree_eq_subtree {bound : Nat} {entries : List Entry} {g : Growth bound}
    (hbelow : ∀ path, g.below path =
      entries.filter fun e => !isRoot entries e && Path.parent? e.path == some path)
    {e : Entry} (he : e ∈ entries) : g.tree (index entries) e = subtree entries e := by
  obtain ⟨shown, hshown⟩ := exists_latest?_of_mem he
  have hchildren : g.below e.path = if shown.isDirectory then below entries e.path else [] :=
    (hbelow e.path).trans (filter_not_isRoot hshown)
  rw [Growth.tree, subtree, get?_index, hshown, Option.getD_some]
  simp only [List.attach_map_val, hchildren]
  refine congrArg (Tree.node shown) ?_
  split
  · refine List.map_congr_left fun child hchild => ?_
    obtain ⟨hlisted, hparent⟩ := List.mem_filter.1 hchild
    exact tree_eq_subtree hbelow hlisted
  · rfl
termination_by longest entries - e.path.length
decreasing_by
  have hlonger := Path.length_lt_of_parent? (beq_iff_eq.1 hparent)
  have hle := length_le_longest hlisted
  omega

theorem grow_eq_ofEntries (entries : List Entry) : grow entries = ofEntries entries := by
  have hgrown := Growth.foldl_add entries
    (entries.attachWith (·.path.length ≤ longest entries) fun _ he => length_le_longest he)
  simp only [List.attachWith_map_subtype_val] at hgrown
  rw [grow, ofEntries, hgrown.1]
  exact List.map_congr_left fun e he =>
    tree_eq_subtree hgrown.2 (List.mem_filter.1 he).1

theorem walk_eq (listed : List Entry) (stack : Forest) :
    walk listed stack = listed ++ entriesOf stack := by
  fun_induction walk listed stack with
  | case1 => rw [entriesOf, List.append_nil]
  | case2 listed e children stack ih =>
    rw [ih, entriesOf_append, entriesOf, entriesOfTree]
    simp

end CodeAtlas.Forest
