import CodeAtlas.Disk.Canonical

/-! Places and what lies there. The place that a path is resolved to leads to itself: no name on the
way is empty or made of dots, and on the way to everything there are directories and no links. -/
namespace CodeAtlas.Disk

def Ordinary (name : String) : Prop := name ≠ "" ∧ name ≠ "." ∧ name ≠ ".."

instance (name : String) : Decidable (Ordinary name) := inferInstanceAs (Decidable (_ ∧ _ ∧ _))

def Straight (place : Place) : Prop := ∀ name ∈ place, Ordinary name

theorem straight_nil : Straight [] := fun _ h => by cases h

variable {d : Disk} {place : Place} {name : String} {node : DiskNode}

theorem Straight.concat (h : Straight place) (hname : Ordinary name) :
    Straight (place ++ [name]) := by
  intro x hx
  rcases List.mem_append.1 hx with hx | hx
  · exact h x hx
  · exact List.mem_singleton.1 hx ▸ hname

theorem Straight.dropLast (h : Straight place) : Straight place.dropLast :=
  fun x hx => h x ((List.dropLast_sublist place).subset hx)

private theorem find?_of_mem {nodes : List DiskNode} (hdistinct : (nodes.map DiskNode.name).Nodup)
    (h : node ∈ nodes) : find? nodes node.name = some node := by
  induction nodes with
  | nil => cases h
  | cons first rest ih =>
    obtain ⟨hfirst, hrest⟩ := List.nodup_cons.1 hdistinct
    rcases List.mem_cons.1 h with rfl | h
    · exact List.find?_cons_of_pos (beq_self_eq_true _)
    · have hne : first.name ≠ node.name := fun heq => hfirst (heq ▸ List.mem_map_of_mem h)
      exact (List.find?_cons_of_neg (by simpa using hne)).trans (ih hrest h)

def inside? (node : Option DiskNode) (name : String) : Option DiskNode :=
  match node with
  | some (.directory _ children) => find? children name
  | _ => none

private theorem nodeIn_concat (nodes : List DiskNode) (first : String) (rest : Place) :
    nodeIn nodes (first :: rest ++ [name]) = inside? (nodeIn nodes (first :: rest)) name := by
  induction rest generalizing nodes first with
  | nil =>
    rw [List.cons_append, List.nil_append, nodeIn, nodeIn]
    · cases find? nodes first with
      | none => rfl
      | some node => cases node <;> rfl
    · exact List.cons_ne_nil _ _
  | cons second rest ih =>
    rw [List.cons_append, nodeIn, nodeIn]
    · cases find? nodes first with
      | none => rfl
      | some node =>
        cases node with
        | directory folder children => exact ih children second
        | _ => rfl
    · exact List.cons_ne_nil _ _
    · exact List.cons_ne_nil _ _

theorem node?_concat : d.node? (place ++ [name]) = inside? (d.node? place) name := by
  cases place with
  | nil => rfl
  | cons first rest => exact nodeIn_concat d.top first rest

theorem node?_of_mem {folder : String} {children : List DiskNode}
    (h : d.node? place = some (.directory folder children))
    (hdistinct : (children.map DiskNode.name).Nodup) (hnode : node ∈ children) :
    d.node? (place ++ [node.name]) = some node := by
  rw [node?_concat, h]
  exact find?_of_mem hdistinct hnode

theorem exists_directory_of_concat (h : d.node? (place ++ [name]) = some node) :
    ∃ folder children, d.node? place = some (.directory folder children) := by
  rw [node?_concat] at h
  cases hplace : d.node? place with
  | none => rw [hplace] at h; cases h
  | some above =>
    cases above with
    | directory folder children => exact ⟨folder, children, rfl⟩
    | _ => rw [hplace] at h; cases h

theorem exists_directory_of_append {rest : Place} (hrest : rest ≠ [])
    (h : d.node? (place ++ rest) = some node) :
    ∃ folder children, d.node? place = some (.directory folder children) := by
  induction rest generalizing place with
  | nil => exact absurd rfl hrest
  | cons next rest ih =>
    rw [List.append_cons] at h
    cases rest with
    | nil =>
      rw [List.append_nil] at h
      exact exists_directory_of_concat h
    | cons second rest =>
      obtain ⟨folder, children, hnext⟩ := ih (List.cons_ne_nil _ _) h
      exact exists_directory_of_concat hnext

theorem name_of_node?_concat (h : d.node? (place ++ [name]) = some node) : node.name = name := by
  obtain ⟨folder, children, hplace⟩ := exists_directory_of_concat h
  rw [node?_concat, hplace] at h
  have hfound : children.find? (·.name == name) = some node := h
  have hname := List.find?_some hfound
  exact beq_iff_eq.1 hname

private theorem walk_append {links : Nat} {rest : Place} (hrest : Straight rest)
    (h : d.node? (place ++ rest) = some node) (hlink : ∀ name target, node ≠ .link name target) :
    d.walk false links place rest = .ok (place ++ rest) := by
  induction rest generalizing place with
  | nil => rw [walk, List.append_nil]
  | cons next rest ih =>
    obtain ⟨hempty, hdot, hup⟩ := hrest next List.mem_cons_self
    rw [walk, if_neg hup, if_neg (by simp [hempty, hdot]), Bool.false_and,
      if_neg Bool.false_ne_true]
    have hsplit : place ++ next :: rest = place ++ [next] ++ rest := List.append_cons ..
    rw [hsplit] at h ⊢
    cases rest with
    | nil =>
      rw [List.append_nil] at h ⊢
      rw [h]
      cases node with
      | file name bytes => rfl
      | blocked name => rfl
      | link name target => exact absurd rfl (hlink name target)
      | directory name children => exact walk.eq_1 ..
    | cons second rest =>
      obtain ⟨folder, children, hnext⟩ := exists_directory_of_append (List.cons_ne_nil _ _) h
      rw [hnext]
      exact ih (fun x hx => hrest x (List.mem_cons_of_mem _ hx)) h

theorem stat_of_node? (hplace : Straight place) (h : d.node? place = some node)
    (hlink : ∀ name target, node ≠ .link name target) : d.stat place = .ok node := by
  have hfollow : d.walk false linkLimit [] place = .ok ([] ++ place) := walk_append hplace h hlink
  rw [stat, follow, hfollow, List.nil_append]
  simp only [h, Option.map_some, Option.getD_some]

private theorem straight_of_canonicalFrom {links : Nat} {known : Known} {base : Place}
    {stages : List Stage} (hbase : Straight base)
    (hknown : ∀ link real, (link, some real) ∈ known → Straight real)
    (h : d.canonicalFrom links known base stages = .ok place) : Straight place := by
  fun_induction canonicalFrom d links known base stages with
  | case1 => exact Except.ok.inj h ▸ hbase
  | case2 links known base link rest ih =>
    refine ih hbase (fun link' real hmem => ?_) h
    rcases List.mem_cons.1 hmem with heq | hmem
    · exact Option.some.inj (Prod.mk.inj heq).2 ▸ hbase
    · exact hknown link' real hmem
  | case3 links known base text rest hstay ih => exact ih hbase hknown h
  | case4 links known base rest hstay ih => exact ih hbase.dropLast hknown h
  | case5 links known base text rest hstay hup next name target hlink real hlookup ih =>
    obtain ⟨before, after, hsplit, -⟩ := List.lookup_eq_some_iff.1 hlookup
    refine ih (hknown next real ?_) hknown h
    rw [hsplit]
    exact List.mem_append_right _ List.mem_cons_self
  | case6 => cases h
  | case7 => cases h
  | case8 known base text rest hstay hup next name target hlink hlookup links fromRoot ih =>
    refine ih ?_ (fun link' real hmem => ?_) (by simpa using h)
    · split
      · exact straight_nil
      · exact hbase
    · rcases List.mem_cons.1 hmem with heq | hmem
      · cases (Prod.mk.inj heq).2
      · exact hknown link' real hmem
  | case9 links known base text rest hstay hup next hlink ih =>
    refine ih (hbase.concat ⟨fun heq => ?_, fun heq => ?_, hup⟩) hknown h
    · exact hstay (by simp [heq])
    · exact hstay (by simp [heq])

theorem straight_of_resolve {path : String} (h : d.resolve path = .ok place) : Straight place :=
  straight_of_canonicalFrom straight_nil (fun _ _ hmem => by cases hmem) h

end CodeAtlas.Disk
