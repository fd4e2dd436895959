import CodeAtlas.Disk.Listing
import CodeAtlas.Proofs.Disk.Place
import CodeAtlas.Proofs.Forest.Survey

/-! What a project shows of a directory: the tree below it, without the directories whose names are
ignored and without the files that are not read. In every directory the other directories come
first and then the files, both sorted by their names. -/
namespace CodeAtlas.DiskNode

/-- A tree of files and directories whose names are names of something, each once in a directory.
The root of a disk has no name and is none. -/
inductive Plain : DiskNode → Prop
  | file {name : String} {bytes : List UInt8} (ordinary : Disk.Ordinary name)
      (slash : '/' ∉ name.toList) : Plain (.file name bytes)
  | directory {name : String} {children : List DiskNode} (ordinary : Disk.Ordinary name)
      (slash : '/' ∉ name.toList) (distinct : (children.map DiskNode.name).Nodup)
      (plain : ∀ n ∈ children, Plain n) : Plain (.directory name children)

section Plain

variable {node : DiskNode}

theorem Plain.ordinary (h : Plain node) : Disk.Ordinary node.name := by
  cases h with
  | file ordinary => exact ordinary
  | directory ordinary => exact ordinary

theorem Plain.slash (h : Plain node) : '/' ∉ node.name.toList := by
  cases h with
  | file _ slash => exact slash
  | directory _ slash => exact slash

theorem Plain.not_link (h : Plain node) (name target : String) : node ≠ .link name target := by
  rintro rfl
  cases h

mutual

instance decidablePlain : (node : DiskNode) → Decidable node.Plain
  | .file name _ => decidable_of_iff (Disk.Ordinary name ∧ '/' ∉ name.toList)
      ⟨fun h => .file h.1 h.2, fun h => ⟨h.ordinary, h.slash⟩⟩
  | .directory name children =>
    have := decidablePlainAll children
    decidable_of_iff (Disk.Ordinary name ∧ '/' ∉ name.toList ∧
        (children.map DiskNode.name).Nodup ∧ ∀ n ∈ children, n.Plain)
      ⟨fun h => .directory h.1 h.2.1 h.2.2.1 h.2.2.2, fun h => by
        cases h with
        | directory ordinary slash distinct plain => exact ⟨ordinary, slash, distinct, plain⟩⟩
  | .blocked _ => isFalse nofun
  | .link _ _ => isFalse nofun

def decidablePlainAll : (nodes : List DiskNode) → Decidable (∀ n ∈ nodes, n.Plain)
  | [] => isTrue fun _ h => by cases h
  | node :: rest =>
    have := decidablePlain node
    have := decidablePlainAll rest
    decidable_of_iff (node.Plain ∧ ∀ n ∈ rest, n.Plain) List.forall_mem_cons.symm

end

end Plain

def isKeptFolder (ignored : List String) : DiskNode → Bool
  | .directory name _ => !ignored.contains name
  | _ => false

def isReadFile : DiskNode → Bool
  | .file name _ => Language.isAnalyzable name
  | _ => false

def sorted (nodes : List DiskNode) : List DiskNode := nodes.mergeSort fun a b => a.name ≤ b.name

def arranged (ignored : List String) (nodes : List DiskNode) : List DiskNode :=
  (sorted nodes).filter (isKeptFolder ignored) ++ (sorted nodes).filter isReadFile

mutual

/-- The tree as it is shown. -/
def pruned (ignored : List String) : DiskNode → DiskNode
  | .directory name children => .directory name (arranged ignored (prunedAll ignored children))
  | node => node

def prunedAll (ignored : List String) : List DiskNode → List DiskNode
  | [] => []
  | node :: rest => pruned ignored node :: prunedAll ignored rest

end

def text? : DiskNode → Option String
  | .file _ bytes => some (String.ofList (Text.unifyNewlines (Text.decodeFrom none bytes)))
  | _ => none

def entry (stamp : Option String) (path : String) (node : DiskNode) : Entry where
  path := path
  name := node.name
  kind := if node.isDirectory then .directory else .file
  extension := some (Path.extension node.name)
  size := Disk.sizeOf node
  content := node.text?
  lastModified := stamp

mutual

/-- The tree as entries, in paths that begin with the given text. -/
def tree (stamp : Option String) (above : String) : DiskNode → Tree
  | .directory name children =>
    .node ((directory name children).entry stamp (above ++ name))
      (trees stamp (above ++ name ++ "/") children)
  | node => .node (node.entry stamp (above ++ node.name)) []

def trees (stamp : Option String) (above : String) : List DiskNode → Forest
  | [] => []
  | node :: rest => tree stamp above node :: trees stamp above rest

end

variable {ignored : List String} {stamp : Option String} {above : String} {node : DiskNode}

private theorem prunedAll_eq_map (nodes : List DiskNode) :
    prunedAll ignored nodes = nodes.map (pruned ignored) := by
  induction nodes with
  | nil => rfl
  | cons node rest ih => rw [prunedAll, ih, List.map_cons]

theorem trees_eq_map (nodes : List DiskNode) :
    trees stamp above nodes = nodes.map (tree stamp above) := by
  induction nodes with
  | nil => rfl
  | cons node rest ih => rw [trees, ih, List.map_cons]

@[simp] theorem name_pruned (ignored : List String) (node : DiskNode) :
    (node.pruned ignored).name = node.name := by cases node <;> rfl

@[simp] theorem isKeptFolder_pruned (ignored ignored' : List String) (node : DiskNode) :
    (node.pruned ignored).isKeptFolder ignored' = node.isKeptFolder ignored' := by
  cases node <;> rfl

@[simp] theorem isReadFile_pruned (ignored : List String) (node : DiskNode) :
    (node.pruned ignored).isReadFile = node.isReadFile := by cases node <;> rfl

@[simp] theorem entry_pruned (ignored : List String) (path : String) (node : DiskNode) :
    (node.pruned ignored).entry stamp path = node.entry stamp path := by cases node <;> rfl

@[simp] theorem entry_tree (node : DiskNode) :
    (node.tree stamp above).entry = node.entry stamp (above ++ node.name) := by
  cases node <;> rfl

theorem isDirectory_of_isKeptFolder (h : node.isKeptFolder ignored = true) :
    node.isDirectory = true := by
  cases node with
  | directory name children => rfl
  | _ => cases h

theorem mem_sorted_iff {nodes : List DiskNode} : node ∈ sorted nodes ↔ node ∈ nodes :=
  (List.mergeSort_perm nodes _).mem_iff

theorem mergeSort_map_name (nodes : List DiskNode) :
    (nodes.map DiskNode.name).mergeSort = (sorted nodes).map DiskNode.name :=
  (List.map_mergeSort (f := DiskNode.name) fun _ _ _ _ => rfl).symm

private theorem sorted_map_pruned (nodes : List DiskNode) :
    sorted (nodes.map (pruned ignored)) = (sorted nodes).map (pruned ignored) := by
  refine (List.map_mergeSort fun a _ b _ => ?_).symm
  simp only [name_pruned]

private theorem arranged_map_pruned (nodes : List DiskNode) :
    arranged ignored (nodes.map (pruned ignored)) =
      (arranged ignored nodes).map (pruned ignored) := by
  rw [arranged, arranged, sorted_map_pruned, List.map_append, List.filter_map, List.filter_map]
  simp only [Function.comp_def, isKeptFolder_pruned, isReadFile_pruned]

theorem pruned_directory (name : String) (children : List DiskNode) :
    (directory name children).pruned ignored =
      .directory name ((arranged ignored children).map (pruned ignored)) := by
  rw [pruned, prunedAll_eq_map, arranged_map_pruned]

private theorem mem_of_mem_arranged {nodes : List DiskNode} (h : node ∈ arranged ignored nodes) :
    node ∈ nodes := by
  rcases List.mem_append.1 h with h | h
  · exact mem_sorted_iff.1 (List.mem_filter.1 h).1
  · exact mem_sorted_iff.1 (List.mem_filter.1 h).1

theorem nodup_filter_append_filter {nodes : List DiskNode} {p q : DiskNode → Bool}
    (h : (nodes.map DiskNode.name).Nodup) (hpq : ∀ n, p n = true → q n = false) :
    (((sorted nodes).filter p ++ (sorted nodes).filter q).map DiskNode.name).Nodup := by
  have hsorted : ((sorted nodes).map DiskNode.name).Nodup :=
    ((List.mergeSort_perm nodes _).map DiskNode.name).nodup_iff.2 h
  rw [List.map_append, List.nodup_append]
  refine ⟨(List.filter_sublist.map _).nodup hsorted, (List.filter_sublist.map _).nodup hsorted,
    fun a ha b hb heq => ?_⟩
  obtain ⟨first, hfirst, rfl⟩ := List.mem_map.1 ha
  obtain ⟨second, hsecond, rfl⟩ := List.mem_map.1 hb
  obtain ⟨hfirst, hp⟩ := List.mem_filter.1 hfirst
  obtain ⟨hsecond, hq⟩ := List.mem_filter.1 hsecond
  obtain rfl := List.inj_on_of_nodup_map hsorted hfirst hsecond heq
  exact Bool.false_ne_true ((hpq _ hp).symm.trans hq)

private theorem nodup_arranged {nodes : List DiskNode} (h : (nodes.map DiskNode.name).Nodup) :
    ((arranged ignored nodes).map DiskNode.name).Nodup :=
  nodup_filter_append_filter h fun n hkept => by
    cases n with
    | directory name children => rfl
    | _ => cases hkept

theorem Plain.pruned (h : Plain node) : Plain (node.pruned ignored) := by
  induction h with
  | file ordinary slash => exact .file ordinary slash
  | @directory name children ordinary slash distinct plain ih =>
    rw [pruned_directory]
    refine .directory ordinary slash ?_ fun n hn => ?_
    · rw [List.map_map]
      simpa only [Function.comp_def, name_pruned] using nodup_arranged distinct
    · obtain ⟨child, hchild, rfl⟩ := List.mem_map.1 hn
      exact ih child (mem_of_mem_arranged hchild)

theorem Plain.nested (h : Plain node) : Forest.Nested (node.tree stamp above) := by
  induction h generalizing above with
  | file ordinary slash =>
    exact .node (fun c hc => by cases hc) List.nodup_nil (fun _ => rfl) fun c hc => by cases hc
  | @directory name children ordinary slash distinct plain ih =>
    rw [tree, trees_eq_map]
    refine .node (fun c hc => ?_) ?_ (fun hfile => by cases hfile) fun c hc => ?_
    · obtain ⟨child, hchild, rfl⟩ := List.mem_map.1 hc
      exact ⟨child.name, (plain child hchild).slash, by rw [entry_tree]; rfl⟩
    · have hinjective : Function.Injective (above ++ name ++ "/" ++ ·) := fun a b hab => by
        simpa using hab
      simpa only [List.map_map, Function.comp_def, entry_tree, entry] using
        distinct.map hinjective
    · obtain ⟨child, hchild, rfl⟩ := List.mem_map.1 hc
      exact ih child hchild

end CodeAtlas.DiskNode
