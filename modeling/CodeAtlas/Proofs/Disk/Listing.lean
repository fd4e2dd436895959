import CodeAtlas.Project
import CodeAtlas.Proofs.Disk.Pruned

/-! From the disk to the forest and nothing lost on the way: the candidates of a listed directory,
read and nested by their paths, make up the tree below it as it is shown. -/
namespace CodeAtlas.Disk

variable {d : Disk} {ignored : List String} {base : Nat} {place : Place} {above name : String}
  {node : DiskNode} {children : List DiskNode}

inductive Gathers (d : Disk) (base : Nat) : List Place → List Entry → Prop
  | nil : Gathers d base [] []
  | selected {place places node entry entries} (stat : d.stat place = .ok node)
      (selected : (d.candidate base place node).isSelected = true)
      (read : (d.candidate base place node).read = .ok entry)
      (rest : Gathers d base places entries) : Gathers d base (place :: places) (entry :: entries)
  | passed {place places node entries} (stat : d.stat place = .ok node)
      (passed : (d.candidate base place node).isSelected = false)
      (rest : Gathers d base places entries) : Gathers d base (place :: places) entries

theorem Gathers.append {places places' : List Place} {entries entries' : List Entry}
    (h : d.Gathers base places entries) (h' : d.Gathers base places' entries') :
    d.Gathers base (places ++ places') (entries ++ entries') := by
  induction h with
  | nil => exact h'
  | selected stat selected read rest ih => exact .selected stat selected read ih
  | passed stat passed rest ih => exact .passed stat passed ih

theorem Gathers.flatMap {β : Type} {l : List β} {f : β → List Place} {g : β → List Entry}
    (h : ∀ x ∈ l, d.Gathers base (f x) (g x)) : d.Gathers base (l.flatMap f) (l.flatMap g) := by
  induction l with
  | nil => exact .nil
  | cons x rest ih =>
    rw [List.flatMap_cons, List.flatMap_cons]
    exact (h x List.mem_cons_self).append (ih fun y hy => h y (List.mem_cons_of_mem _ hy))

private theorem Gathers.map_filter {β : Type} {l : List β} {shown : β → Bool} {f : β → Place}
    {g : β → Entry} (hshown : ∀ x ∈ l, shown x = true → d.Gathers base [f x] [g x])
    (hpassed : ∀ x ∈ l, shown x = false → d.Gathers base [f x] []) :
    d.Gathers base (l.map f) ((l.filter shown).map g) := by
  induction l with
  | nil => exact .nil
  | cons x rest ih =>
    have hrest := ih (fun y hy => hshown y (List.mem_cons_of_mem _ hy))
      fun y hy => hpassed y (List.mem_cons_of_mem _ hy)
    cases hx : shown x with
    | true =>
      rw [List.filter_cons_of_pos hx]
      exact (hshown x List.mem_cons_self hx).append hrest
    | false =>
      rw [List.filter_cons_of_neg (by simp [hx])]
      exact (hpassed x List.mem_cons_self hx).append hrest

theorem Gathers.read {places : List Place} {entries : List Entry}
    (h : d.Gathers base places entries) : ∃ candidates,
      d.candidatesOf base places = ⟨candidates, [], none⟩ ∧
      Reading.collect (candidates.filter Candidate.isSelected) = .ok entries := by
  induction h with
  | nil => exact ⟨[], rfl, rfl⟩
  | @selected place places node entry entries stat selected read rest ih =>
    obtain ⟨candidates, hlisted, hcollect⟩ := ih
    refine ⟨d.candidate base place node :: candidates,
      by simp only [candidatesOf, stat, hlisted], ?_⟩
    rw [List.filter_cons_of_pos selected, Reading.collect, read, hcollect]
    rfl
  | @passed place places node entries stat passed rest ih =>
    obtain ⟨candidates, hlisted, hcollect⟩ := ih
    refine ⟨d.candidate base place node :: candidates,
      by simp only [candidatesOf, stat, hlisted], ?_⟩
    rwa [List.filter_cons_of_neg (by simp [passed])]

def listed (ignored : List String) (nodes : List DiskNode) : List DiskNode :=
  (DiskNode.sorted nodes).filter (DiskNode.isKeptFolder ignored) ++
    (DiskNode.sorted nodes).filter (!·.isDirectory)

theorem mem_of_mem_listed {nodes : List DiskNode} (h : node ∈ listed ignored nodes) :
    node ∈ nodes := by
  rcases List.mem_append.1 h with h | h
  · exact DiskNode.mem_sorted_iff.1 (List.mem_filter.1 h).1
  · exact DiskNode.mem_sorted_iff.1 (List.mem_filter.1 h).1

private theorem filter_listed (nodes : List DiskNode) :
    (listed ignored nodes).filter (fun node => node.isDirectory || node.isReadFile) =
      DiskNode.arranged ignored nodes := by
  rw [listed, List.filter_append, List.filter_filter, List.filter_filter, DiskNode.arranged]
  congr 1
  · exact List.filter_congr fun node _ => by
      cases node <;> simp [DiskNode.isKeptFolder, DiskNode.isDirectory]
  · exact List.filter_congr fun node _ => by
      cases node <;> simp [DiskNode.isReadFile, DiskNode.isDirectory]

theorem filter_map_name {nodes : List DiskNode} {p : String → Bool} {q : DiskNode → Bool}
    (h : ∀ node ∈ nodes, p node.name = q node) :
    (nodes.map DiskNode.name).filter p = (nodes.filter q).map DiskNode.name := by
  rw [List.filter_map]
  exact congrArg _ (List.filter_congr h)

theorem lookup_nested {nodes : List DiskNode} (hdistinct : (nodes.map DiskNode.name).Nodup)
    (hnode : node ∈ nodes) (hdirectory : node.isDirectory = true) :
    (d.nested ignored place nodes).lookup node.name =
      some (d.placesBelow ignored (place ++ [node.name]) node) := by
  induction nodes with
  | nil => cases hnode
  | cons first rest ih =>
    obtain ⟨hfirst, hrest⟩ := List.nodup_cons.1 hdistinct
    rcases List.mem_cons.1 hnode with rfl | hmem
    · cases node with
      | directory name children =>
        rw [nested, DiskNode.name, List.lookup_cons_self, Disk.placesBelow]
        simp only [List.append_assoc, List.cons_append, List.nil_append]
      | _ => cases hdirectory
    · have hne : node.name ≠ first.name := fun heq => hfirst (heq ▸ List.mem_map_of_mem hmem)
      cases first with
      | directory name children =>
        have hbeq : (node.name == name) = false := beq_eq_false_iff_ne.2 hne
        rw [nested, List.lookup_cons, hbeq]
        exact ih hrest hmem
      | _ =>
        rw [nested]
        · exact ih hrest hmem
        · rintro name children ⟨⟩

private theorem intercalate_concat {sep last : String} {texts : List String} (h : texts ≠ []) :
    Text.intercalate sep (texts ++ [last]) = Text.intercalate sep texts ++ sep ++ last := by
  induction texts with
  | nil => exact absurd rfl h
  | cons text rest ih =>
    cases rest with
    | nil => rfl
    | cons next rest =>
      rw [List.cons_append, List.cons_append, Text.intercalate, ← List.cons_append,
        ih (List.cons_ne_nil _ _), Text.intercalate]
      simp only [String.append_assoc]

/-- A plain tree that lies at a place. Its path is its name after the given text. -/
structure Lies (d : Disk) (base : Nat) (place : Place) (above : String) (node : DiskNode) :
    Prop where
  plain : node.Plain
  straight : Straight place
  here : d.node? place = some node
  base_lt : base < place.length
  opens : Path.Opens above
  path : Text.intercalate "/" (place.drop base) = above ++ node.name

namespace Lies

theorem child (h : d.Lies base place above (.directory name children)) (hnode : node ∈ children) :
    d.Lies base (place ++ [node.name]) (above ++ name ++ "/") node := by
  cases h.plain with
  | directory ordinary slash distinct plain =>
    refine ⟨plain node hnode, h.straight.concat (plain node hnode).ordinary,
      node?_of_mem h.here distinct hnode, ?_, Path.opens_append_slash _, ?_⟩
    · have := h.base_lt
      rw [List.length_append]
      omega
    · have hbelow : place.drop base ≠ [] := fun heq =>
        Nat.not_le_of_lt h.base_lt (List.drop_eq_nil_iff.1 heq)
      rw [List.drop_append_of_le_length (Nat.le_of_lt h.base_lt), intercalate_concat hbelow, h.path]
      rfl

theorem stat (h : d.Lies base place above node) : d.stat place = .ok node :=
  stat_of_node? h.straight h.here h.plain.not_link

theorem isDirectory (h : d.Lies base place above node) :
    d.isDirectory place = node.isDirectory := by
  rw [Disk.isDirectory, h.stat]

theorem read (h : d.Lies base place above node) :
    (d.candidate base place node).read = .ok (node.entry d.stamp (above ++ node.name)) := by
  have hname := Path.fileName_append h.opens h.plain.slash h.plain.ordinary.1
  have hextension := Path.extension_append h.opens h.plain.slash h.plain.ordinary.1
  have hentry (size : Int) (content : Option String) :
      (d.candidate base place node).toEntry size content =
        { node.entry d.stamp (above ++ node.name) with size, content } := by
    simp only [Candidate.toEntry, candidate, h.path, hname, hextension, DiskNode.entry]
  cases h.plain with
  | file => exact congrArg Except.ok (hentry _ _)
  | directory => exact congrArg Except.ok (hentry _ _)

theorem isSelected (h : d.Lies base place above node) :
    (d.candidate base place node).isSelected = (node.isDirectory || node.isReadFile) := by
  have hextension := Path.extension_append h.opens h.plain.slash h.plain.ordinary.1
  rw [Candidate.isSelected]
  cases h.plain with
  | file =>
    simp only [candidate, h.path, Language.isAnalyzable, hextension]
    rfl
  | directory => exact (Bool.true_or _).trans (Bool.true_or _).symm

theorem gathers_self (h : d.Lies base place above node)
    (hselected : (node.isDirectory || node.isReadFile) = true) :
    d.Gathers base [place] [node.entry d.stamp (above ++ node.name)] :=
  .selected h.stat (h.isSelected.trans hselected) h.read .nil

private theorem passes_self (h : d.Lies base place above node)
    (hselected : (node.isDirectory || node.isReadFile) = false) : d.Gathers base [place] [] :=
  .passed h.stat (h.isSelected.trans hselected) .nil

theorem namesIn (h : d.Lies base place above (.directory name children)) :
    d.namesIn ignored place children =
      (((DiskNode.sorted children).filter (DiskNode.isKeptFolder ignored)).map DiskNode.name,
        ((DiskNode.sorted children).filter (!·.isDirectory)).map DiskNode.name) := by
  have hdirectory : ∀ child ∈ DiskNode.sorted children,
      d.isDirectory (place ++ [child.name]) = child.isDirectory := fun child hchild =>
    (h.child (DiskNode.mem_sorted_iff.1 hchild)).isDirectory
  have hfolders : ((DiskNode.sorted children).filter DiskNode.isDirectory).filter
      (fun child => !ignored.contains child.name) =
      (DiskNode.sorted children).filter (DiskNode.isKeptFolder ignored) := by
    rw [List.filter_filter]
    exact List.filter_congr fun child _ => by
      cases child <;> simp [DiskNode.isKeptFolder, DiskNode.isDirectory, DiskNode.name]
  rw [Disk.namesIn, DiskNode.mergeSort_map_name, filter_map_name hdirectory,
    filter_map_name (q := fun child => !ignored.contains child.name) fun _ _ => rfl, hfolders,
    filter_map_name (q := fun child => !child.isDirectory) fun child hchild => by
      rw [hdirectory child hchild]]

theorem placesBelow (h : d.Lies base place above (.directory name children)) :
    d.placesBelow ignored place (.directory name children) =
      (listed ignored children).map (fun child => place ++ [child.name]) ++
      ((DiskNode.sorted children).filter (DiskNode.isKeptFolder ignored)).flatMap fun child =>
        d.placesBelow ignored (place ++ [child.name]) child := by
  have hdistinct : (children.map DiskNode.name).Nodup := by
    cases h.plain with
    | directory ordinary slash distinct plain => exact distinct
  rw [Disk.placesBelow, h.namesIn]
  simp only [← List.map_append, List.map_map, List.flatMap_map]
  refine congrArg _ (List.flatMap_congr fun child hchild => ?_)
  obtain ⟨hmem, hkept⟩ := List.mem_filter.1 hchild
  have hdirectory := DiskNode.isDirectory_of_isKeptFolder hkept
  rw [lookup_nested hdistinct (DiskNode.mem_sorted_iff.1 hmem) hdirectory]
  rfl

private theorem gathers_listed (h : d.Lies base place above (.directory name children)) :
    d.Gathers base ((listed ignored children).map fun child => place ++ [child.name])
      ((DiskNode.arranged ignored children).map fun child =>
        child.entry d.stamp (above ++ name ++ "/" ++ child.name)) := by
  rw [← filter_listed]
  exact .map_filter (fun child hchild => (h.child (mem_of_mem_listed hchild)).gathers_self)
    fun child hchild => (h.child (mem_of_mem_listed hchild)).passes_self

theorem gathers_placesBelow (ignored : List String) (h : d.Lies base place above node) :
    d.Gathers base (d.placesBelow ignored place node)
      (Forest.surveyOfTree ((node.pruned ignored).tree d.stamp above)) := by
  have hplain := h.plain
  induction hplain generalizing place above with
  | file ordinary slash => exact .nil
  | @directory name children ordinary slash distinct plain ih =>
    rw [h.placesBelow, DiskNode.pruned_directory, DiskNode.tree, DiskNode.trees_eq_map,
      Forest.surveyOfTree, Forest.surveyOf_eq_flatMap]
    -- The entries of the directory come first; the rest is below its folders, by induction.
    refine .append ?_ ?_
    · simpa only [List.map_map, Function.comp_def, DiskNode.entry_tree, DiskNode.entry_pruned,
        DiskNode.name_pruned] using h.gathers_listed
    · have hfiles : ((DiskNode.sorted children).filter DiskNode.isReadFile).flatMap
          (fun child => Forest.surveyOfTree
            ((child.pruned ignored).tree d.stamp (above ++ name ++ "/"))) = [] :=
        List.flatMap_eq_nil_iff.2 fun child hchild => by
          cases child with
          | file name bytes => rfl
          | _ => cases (List.mem_filter.1 hchild).2
      rw [List.flatMap_map, List.flatMap_map, DiskNode.arranged, List.flatMap_append, hfiles,
        List.append_nil]
      refine .flatMap fun child hchild => ?_
      have hmem := DiskNode.mem_sorted_iff.1 (List.mem_filter.1 hchild).1
      exact ih child hmem (h.child hmem)

end Lies

theorem lies_of_resolve {path : String} (hresolve : d.resolve path = .ok place)
    (hnode : d.node? place = some node) (hplain : node.Plain) :
    d.Lies (place.length - 1) place "" node := by
  rcases List.eq_nil_or_concat place with rfl | ⟨parent, last, rfl⟩
  · -- What lies at the root of the disk has no name.
    cases hnode
    exact absurd rfl hplain.ordinary.1
  · rw [List.concat_eq_append] at hresolve hnode ⊢
    have hlast : (parent ++ [last]).length - 1 = parent.length := by
      rw [List.length_append, List.length_singleton, Nat.add_sub_cancel]
    refine ⟨hplain, straight_of_resolve hresolve, hnode, ?_, Path.opens_empty, ?_⟩
    · rw [hlast, List.length_append]
      exact Nat.lt_succ_self _
    · rw [hlast, List.drop_left, String.empty_append]
      exact (name_of_node?_concat hnode).symm

private theorem list_of_resolve (ignored : List String) {path : String}
    (hnull : '\x00' ∉ path.toList) (hresolve : d.resolve path = .ok place)
    (hnode : d.node? place = some node) (hdirectory : node.isDirectory = true)
    (hplain : node.Plain) :
    let first := d.candidate (place.length - 1) place node
    let shown := (node.pruned ignored).tree d.stamp ""
    first.path = node.name ∧ ∃ rest, d.list ignored path = ⟨first :: rest, [], none⟩ ∧
      Reading.collect ((first :: rest).filter Candidate.isSelected) =
        .ok (shown.entry :: Forest.surveyOfTree shown) := by
  intro first shown
  have hlies := lies_of_resolve hresolve hnode hplain
  have hselected : first.isSelected = true := by rw [hlies.isSelected, hdirectory, Bool.true_or]
  obtain ⟨rest, hlisted, hcollect⟩ := (hlies.gathers_placesBelow ignored).read
  have hcanonical : d.canonical path = place := by rw [canonical, hresolve]
  refine ⟨hlies.path.trans String.empty_append, rest, ?_, ?_⟩
  · rw [list, hcanonical, if_neg (by simpa using hnull), hlies.stat]
    simp only [hlisted]
    rfl
  · rw [List.filter_cons_of_pos hselected, Reading.collect, hlies.read, hcollect,
      DiskNode.entry_tree, DiskNode.entry_pruned, DiskNode.name_pruned]
    rfl

private theorem projectName_cons {first : Candidate} {rest : List Candidate}
    (hdirectory : first.isDirectory = true) (hslash : '/' ∉ first.path.toList) :
    Candidate.projectName (first :: rest) = first.path := by
  rw [Candidate.projectName, Path.segments_of_not_mem hslash, hdirectory]
  rfl

/-- Listing a directory of plain files and directories, reading what is listed and nesting it by its
paths gives one tree, the directory as it is shown, and the project has the directory's name. -/
theorem forest_of_listing {d : Disk} {ignored : List String} {path : String} {root : Place}
    {node : DiskNode} {own : Option Int} {fallback : Int} {limit : Nat}
    (hnull : '\x00' ∉ path.toList) (hresolve : d.resolve path = .ok root)
    (hnode : d.node? root = some node) (hdirectory : node.isDirectory = true)
    (hplain : node.Plain) (hlimit : Project.limitOf own fallback = .ok limit) :
    let listing := d.list ignored path
    listing.error = none ∧ listing.skipped = [] ∧
    Candidate.projectName listing.candidates = node.name ∧
    ∃ entries, (Project.read listing.candidates own fallback).2 = .ok entries ∧
      Forest.ofEntries entries = [(node.pruned ignored).tree d.stamp ""] := by
  intro listing
  obtain ⟨hpath, rest, hlist, hcollect⟩ :=
    list_of_resolve ignored hnull hresolve hnode hdirectory hplain
  have hlisting : listing = _ := hlist
  refine ⟨by rw [hlisting], by rw [hlisting], ?_, _, ?_, hplain.pruned.nested.ofEntries_survey ?_⟩
  · rw [hlisting, ← hpath]
    exact projectName_cons hdirectory (hpath ▸ hplain.slash)
  · rw [hlisting, Project.read, hlimit]
    exact congrArg (Except.mapError ProjectError.ofEntryError) hcollect
  · rw [DiskNode.entry_tree, DiskNode.name_pruned]
    exact fun hmem => hplain.slash (String.empty_append (s := node.name) ▸ hmem)

/-- A directory with a file that is read, one that is not, and two subdirectories. -/
def app : DiskNode :=
  .directory "app" [.file "main.ts" [0x78, 0x0d, 0x0a], .directory "lib" [.file "a.py" []],
    .file "logo.png" [], .directory "dist" [.file "main.js" []]]

theorem forest_of_app :
    let disk : Disk := ⟨[app], none, []⟩
    disk.resolve "/app" = .ok ["app"] ∧ app.Plain ∧
    ∃ entries, (Project.read (disk.list ["dist"] "/app").candidates none 32).2 = .ok entries ∧
      Forest.ofEntries entries = [(app.pruned ["dist"]).tree none ""] := by
  intro disk
  have hresolve : disk.resolve "/app" = .ok ["app"] := by cbv
  have hplain : app.Plain := by decide
  exact ⟨hresolve, hplain, (forest_of_listing (by decide) hresolve rfl rfl hplain rfl).2.2.2⟩

end CodeAtlas.Disk
