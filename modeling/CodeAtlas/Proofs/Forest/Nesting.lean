import CodeAtlas.Proofs.Forest.Nodes

/-! The forest of entries with distinct paths: the roots and the children of each node are filtered
out of the list, and no entry is lost or doubled. The last is shown from the roots downwards, since
a parent path is shorter than the path. -/
namespace CodeAtlas.Forest

variable {entries : List Entry}

theorem latest?_eq_some_iff (hnodup : (entries.map Entry.path).Nodup) {path : String}
    {e : Entry} : latest? entries path = some e ↔ e ∈ entries ∧ e.path = path := by
  have hsound : ∀ {d : Entry}, latest? entries path = some d → d ∈ entries ∧ d.path = path :=
    fun {d} h => by
      have hpath := List.find?_some h
      exact ⟨List.mem_reverse.1 (List.mem_of_find?_eq_some h), by simpa using hpath⟩
  refine ⟨hsound, fun ⟨he, hpath⟩ => ?_⟩
  cases h : latest? entries path with
  | none =>
    have := List.find?_eq_none.1 h e (List.mem_reverse.2 he)
    simp [hpath] at this
  | some d =>
    obtain ⟨hd, hpath'⟩ := hsound h
    rw [List.inj_on_of_nodup_map hnodup hd he (hpath'.trans hpath.symm)]

theorem isRoot_eq_false_iff (hnodup : (entries.map Entry.path).Nodup) {e : Entry} :
    isRoot entries e = false ↔
      ∃ d ∈ entries, d.isDirectory = true ∧ Path.parent? e.path = some d.path := by
  unfold isRoot
  cases hparent : Path.parent? e.path with
  | none => simp
  | some path =>
    rw [Option.bind_some]
    cases hlatest : latest? entries path with
    | none =>
      constructor
      · intro h
        cases h
      · rintro ⟨d, hd, -, hpath⟩
        rw [(latest?_eq_some_iff hnodup).2 ⟨hd, (Option.some.inj hpath).symm⟩] at hlatest
        cases hlatest
    | some d =>
      obtain ⟨hd, rfl⟩ := (latest?_eq_some_iff hnodup).1 hlatest
      rw [Bool.not_eq_false']
      constructor
      · intro hdirectory
        exact ⟨d, hd, hdirectory, rfl⟩
      · rintro ⟨d', hd', hdirectory, hpath⟩
        obtain rfl := List.inj_on_of_nodup_map hnodup hd hd' (Option.some.inj hpath)
        exact hdirectory

theorem isRoot_eq (hnodup : (entries.map Entry.path).Nodup) (e : Entry) : isRoot entries e =
    !entries.any fun d => d.isDirectory && Path.parent? e.path == some d.path := by
  have hfalse := isRoot_eq_false_iff hnodup (e := e)
  cases hany : entries.any fun d => d.isDirectory && Path.parent? e.path == some d.path with
  | true =>
    rw [List.any_eq_true] at hany
    simp only [Bool.and_eq_true, beq_iff_eq] at hany
    exact hfalse.2 hany
  | false =>
    cases hroot : isRoot entries e with
    | true => rfl
    | false =>
      obtain ⟨d, hd, hdirectory, hparent⟩ := hfalse.1 hroot
      have hd' := List.any_eq_false.1 hany d hd
      simp [hdirectory, hparent] at hd'

theorem subtree_eq (hnodup : (entries.map Entry.path).Nodup) {e : Entry} (he : e ∈ entries) :
    subtree entries e = .node e
      (if e.isDirectory then (below entries e.path).map (subtree entries) else []) := by
  rw [subtree, (latest?_eq_some_iff hnodup).2 ⟨he, rfl⟩]
  simp only [Option.getD_some, List.attach_map_val]

theorem entry_subtree (hnodup : (entries.map Entry.path).Nodup) {e : Entry} (he : e ∈ entries) :
    (subtree entries e).entry = e := by
  rw [subtree_eq hnodup he, Tree.entry]

theorem mem_of_mem_below {e : Entry} {path : String} (h : e ∈ below entries path) :
    e ∈ entries :=
  (List.mem_filter.1 h).1

theorem map_entry_subtree (hnodup : (entries.map Entry.path).Nodup) {some : List Entry}
    (hsome : ∀ e ∈ some, e ∈ entries) :
    (some.map (subtree entries)).map Tree.entry = some := by
  rw [List.map_map]
  refine (List.map_congr_left fun e he => ?_).trans (List.map_id some)
  exact entry_subtree hnodup (hsome e he)

theorem mem_nodesOfTree_subtree (hnodup : (entries.map Entry.path).Nodup) {e : Entry} {t : Tree}
    (he : e ∈ entries) (ht : t ∈ nodesOfTree (subtree entries e)) :
    ∃ d ∈ entries, t = subtree entries d := by
  rw [nodesOfTree_eq] at ht
  rcases List.mem_cons.1 ht with rfl | ht
  · exact ⟨e, he, rfl⟩
  · rw [subtree_eq hnodup he, Tree.children] at ht
    split at ht
    · obtain ⟨root, hroot, ht⟩ := mem_nodesOf_iff.1 ht
      obtain ⟨child, hchild, rfl⟩ := List.mem_map.1 hroot
      exact mem_nodesOfTree_subtree hnodup (mem_of_mem_below hchild) ht
    · cases ht
termination_by longest entries - e.path.length
decreasing_by
  have hparent := Path.length_lt_of_parent? (beq_iff_eq.1 (List.mem_filter.1 hchild).2)
  have hle := length_le_longest (mem_of_mem_below hchild)
  omega

theorem mem_nodesOf_ofEntries (hnodup : (entries.map Entry.path).Nodup) {t : Tree}
    (ht : t ∈ nodesOf (ofEntries entries)) : ∃ e ∈ entries, t = subtree entries e := by
  obtain ⟨root, hroot, ht⟩ := mem_nodesOf_iff.1 ht
  obtain ⟨e, he, rfl⟩ := List.mem_map.1 hroot
  exact mem_nodesOfTree_subtree hnodup (List.mem_filter.1 he).1 ht

theorem roots_ofEntries (hnodup : (entries.map Entry.path).Nodup) :
    (ofEntries entries).map Tree.entry = entries.filter (isRoot entries) :=
  map_entry_subtree hnodup fun _ he => (List.mem_filter.1 he).1

theorem children_of_mem_nodesOf (hnodup : (entries.map Entry.path).Nodup) {t : Tree}
    (ht : t ∈ nodesOf (ofEntries entries)) : t.children.map Tree.entry =
      if t.entry.isDirectory then below entries t.entry.path else [] := by
  obtain ⟨e, he, rfl⟩ := mem_nodesOf_ofEntries hnodup ht
  rw [entry_subtree hnodup he, subtree_eq hnodup he, Tree.children]
  split
  · exact map_entry_subtree hnodup fun _ h => mem_of_mem_below h
  · rfl

theorem entry_mem_of_mem_nodesOf (hnodup : (entries.map Entry.path).Nodup) {t : Tree}
    (ht : t ∈ nodesOf (ofEntries entries)) : t.entry ∈ entries := by
  obtain ⟨e, he, rfl⟩ := mem_nodesOf_ofEntries hnodup ht
  rwa [entry_subtree hnodup he]

theorem mem_children_iff (hnodup : (entries.map Entry.path).Nodup) {t : Tree} {e : Entry}
    (ht : t ∈ nodesOf (ofEntries entries)) : e ∈ t.children.map Tree.entry ↔
      t.entry.isDirectory = true ∧ e ∈ entries ∧ Path.parent? e.path = some t.entry.path := by
  rw [children_of_mem_nodesOf hnodup ht]
  cases t.entry.isDirectory with
  | false => simp
  | true => simp [below]

private theorem count_childEntries {nodes : List Tree} {d e : Entry}
    (h : ∀ t ∈ nodes, (t.children.map Tree.entry).count e = [t.entry].count d) :
    (childEntries nodes).count e = (nodes.map Tree.entry).count d := by
  induction nodes with
  | nil => rfl
  | cons t ts ih =>
    have htail := ih fun t' ht' => h t' (List.mem_cons_of_mem _ ht')
    have hhead := h t List.mem_cons_self
    rw [childEntries] at htail ⊢
    rw [List.flatMap_cons, List.count_append, hhead, htail]
    exact List.count_append.symm

theorem count_entriesOf_ofEntries (hnodup : (entries.map Entry.path).Nodup) {e : Entry}
    (he : e ∈ entries) : (entriesOf (ofEntries entries)).count e = 1 := by
  have hentries : entries.Nodup := hnodup.of_map Entry.path
  have hsublist : ∀ t ∈ nodesOf (ofEntries entries), (t.children.map Tree.entry).Nodup :=
    fun t ht => by
      rw [children_of_mem_nodesOf hnodup ht]
      split
      · exact hentries.filter _
      · exact List.nodup_nil
  rw [count_entriesOf, roots_ofEntries hnodup]
  cases hroot : isRoot entries e with
  | true =>
    rw [List.count_filter hroot, List.count_eq_one_of_mem hentries he]
    have hzero : (childEntries (nodesOf (ofEntries entries))).count e = 0 := by
      refine List.count_eq_zero.2 fun hmem => ?_
      obtain ⟨t, ht, hmem⟩ := mem_childEntries_iff.1 hmem
      obtain ⟨hdirectory, -, hparent⟩ := (mem_children_iff hnodup ht).1 hmem
      rw [(isRoot_eq_false_iff hnodup).2
        ⟨t.entry, entry_mem_of_mem_nodesOf hnodup ht, hdirectory, hparent⟩] at hroot
      cases hroot
    rw [hzero]
  | false =>
    obtain ⟨d, hd, hdirectory, hparent⟩ := (isRoot_eq_false_iff hnodup).1 hroot
    have hroots : (entries.filter (isRoot entries)).count e = 0 := by
      refine List.count_eq_zero.2 fun hmem => ?_
      rw [(List.mem_filter.1 hmem).2] at hroot
      cases hroot
    have hchildren : ∀ t ∈ nodesOf (ofEntries entries),
        (t.children.map Tree.entry).count e = [t.entry].count d := fun t ht => by
      by_cases heq : t.entry = d
      · rw [heq, List.count_singleton_self]
        exact List.count_eq_one_of_mem (hsublist t ht)
          ((mem_children_iff hnodup ht).2 ⟨heq ▸ hdirectory, he, heq ▸ hparent⟩)
      · rw [List.count_eq_zero.2 fun hmem => heq (List.mem_singleton.1 hmem).symm]
        refine List.count_eq_zero.2 fun hmem => heq ?_
        obtain ⟨-, -, hparent'⟩ := (mem_children_iff hnodup ht).1 hmem
        exact List.inj_on_of_nodup_map hnodup (entry_mem_of_mem_nodesOf hnodup ht) hd
          (Option.some.inj (hparent'.symm.trans hparent))
    rw [hroots, Nat.zero_add, count_childEntries hchildren, map_entry_nodesOf]
    exact count_entriesOf_ofEntries hnodup hd
termination_by e.path.length
decreasing_by exact Path.length_lt_of_parent? hparent

theorem entriesOf_ofEntries_perm (hnodup : (entries.map Entry.path).Nodup) :
    (entriesOf (ofEntries entries)).Perm entries := by
  rw [List.perm_iff_count]
  intro e
  by_cases he : e ∈ entries
  · rw [count_entriesOf_ofEntries hnodup he,
      List.count_eq_one_of_mem (hnodup.of_map Entry.path) he]
  · rw [List.count_eq_zero.2 he, List.count_eq_zero]
    rw [← map_entry_nodesOf]
    intro hmem
    obtain ⟨t, ht, rfl⟩ := List.mem_map.1 hmem
    exact he (entry_mem_of_mem_nodesOf hnodup ht)

/-- Whether the second entry stands right below the first one. -/
def IsChild (forest : Forest) (d e : Entry) : Prop :=
  ∃ t ∈ nodesOf forest, t.entry = d ∧ e ∈ t.children.map Tree.entry

theorem isChild_ofEntries_iff (hnodup : (entries.map Entry.path).Nodup) {d e : Entry} :
    (ofEntries entries).IsChild d e ↔ d ∈ entries ∧ d.isDirectory = true ∧ e ∈ entries ∧
      Path.parent? e.path = some d.path := by
  constructor
  · rintro ⟨t, ht, rfl, hchild⟩
    exact ⟨entry_mem_of_mem_nodesOf hnodup ht, (mem_children_iff hnodup ht).1 hchild⟩
  · rintro ⟨hd, hchild⟩
    have hlisted : d ∈ entriesOf (ofEntries entries) :=
      (entriesOf_ofEntries_perm hnodup).mem_iff.2 hd
    rw [← map_entry_nodesOf] at hlisted
    obtain ⟨t, ht, rfl⟩ := List.mem_map.1 hlisted
    exact ⟨t, ht, rfl, (mem_children_iff hnodup ht).2 hchild⟩

end CodeAtlas.Forest
