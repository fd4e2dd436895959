import CodeAtlas.Proofs.Disk.Listing
import Mathlib

/-! What the listing of a directory makes of the links below it. A link is listed as what it leads
to and never entered. A link that leads to nothing is left out, but one that cannot be followed at
all, because links go in a circle or a file is in the way, ends the listing. -/
namespace CodeAtlas

/-- A tree in whose directories each entry has a name of its own, one that leads to it. -/
inductive DiskNode.Proper : DiskNode → Prop
  | leaf {node : DiskNode} (h : node.isDirectory = false) : Proper node
  | directory {name : String} {children : List DiskNode}
      (ordinary : ∀ n ∈ children, Disk.Ordinary n.name)
      (distinct : (children.map DiskNode.name).Nodup)
      (proper : ∀ n ∈ children, Proper n) : Proper (.directory name children)

namespace DiskNode

theorem Plain.proper {node : DiskNode} (h : Plain node) : Proper node := by
  induction h with
  | file => exact .leaf rfl
  | directory ordinary slash distinct plain ih =>
    exact .directory (fun n hn => (plain n hn).ordinary) distinct ih

mutual

instance decidableProper : (node : DiskNode) → Decidable node.Proper
  | .directory name children =>
    have := decidableProperAll children
    decidable_of_iff ((∀ n ∈ children, Disk.Ordinary n.name) ∧
        (children.map DiskNode.name).Nodup ∧ ∀ n ∈ children, n.Proper)
      ⟨fun h => .directory h.1 h.2.1 h.2.2, fun h => by
        cases h with
        | leaf h => cases h
        | directory ordinary distinct proper => exact ⟨ordinary, distinct, proper⟩⟩
  | .file .. | .blocked _ | .link .. => isTrue (.leaf rfl)

def decidableProperAll : (nodes : List DiskNode) → Decidable (∀ n ∈ nodes, n.Proper)
  | [] => isTrue fun _ h => by cases h
  | node :: rest =>
    have := decidableProper node
    have := decidableProperAll rest
    decidable_of_iff (node.Proper ∧ ∀ n ∈ rest, n.Proper) List.forall_mem_cons.symm

end

end DiskNode

namespace Disk

/-- Whether an entry of a directory is listed: everything is but what leads to a directory and has
an ignored name. -/
def Kept (d : Disk) (ignored : List String) (place : Place) (child : DiskNode) : Prop :=
  d.isDirectory (place ++ [child.name]) = true → child.name ∉ ignored

/-- The places below a directory that are looked at, each with what lies there: the entries of the
directory that are kept, and what is below the directories among them. -/
inductive Below (d : Disk) (ignored : List String) : Place → DiskNode → Place → DiskNode → Prop
  | entry {place name children child} (mem : child ∈ children) (kept : d.Kept ignored place child) :
      Below d ignored place (.directory name children) (place ++ [child.name]) child
  | within {place name children child p raw} (mem : child ∈ children)
      (kept : d.Kept ignored place child)
      (below : Below d ignored (place ++ [child.name]) child p raw) :
      Below d ignored place (.directory name children) p raw

variable {d : Disk} {ignored : List String} {base : Nat} {place p : Place} {name target : String}
  {node raw entry : DiskNode} {children : List DiskNode}

theorem Below.isDirectory (h : d.Below ignored place node p raw) : node.isDirectory = true := by
  cases h <;> rfl

theorem Below.exists_rest (h : d.Below ignored place node p raw) :
    ∃ name rest, p = place ++ name :: rest := by
  induction h with
  | entry => exact ⟨_, [], rfl⟩
  | within mem kept below ih =>
    obtain ⟨name, rest, rfl⟩ := ih
    exact ⟨_, name :: rest, List.append_cons .. |>.symm⟩

structure Holds (d : Disk) (place : Place) (node : DiskNode) : Prop where
  proper : node.Proper
  straight : Straight place
  here : d.node? place = some node

namespace Holds

theorem ordinary (h : d.Holds place (.directory name children)) (hentry : entry ∈ children) :
    Ordinary entry.name := by
  cases h.proper with
  | leaf h => cases h
  | directory ordinary distinct proper => exact ordinary entry hentry

theorem distinct (h : d.Holds place (.directory name children)) :
    (children.map DiskNode.name).Nodup := by
  cases h.proper with
  | leaf h => cases h
  | directory ordinary distinct proper => exact distinct

theorem child (h : d.Holds place (.directory name children)) (hentry : entry ∈ children) :
    d.Holds (place ++ [entry.name]) entry := by
  refine ⟨?_, h.straight.concat (h.ordinary hentry), node?_of_mem h.here h.distinct hentry⟩
  cases h.proper with
  | leaf h => cases h
  | directory ordinary distinct proper => exact proper entry hentry

theorem below (h : d.Holds place node) (hbelow : d.Below ignored place node p raw) :
    d.Holds p raw := by
  induction hbelow with
  | entry mem kept => exact h.child mem
  | within mem kept below ih => exact ih (h.child mem)

theorem stat (h : d.Holds place node) (hlink : ∀ name target, node ≠ .link name target) :
    d.stat place = .ok node := stat_of_node? h.straight h.here hlink

theorem isDirectory (h : d.Holds place node) (hdirectory : node.isDirectory = true) :
    d.isDirectory place = true := by
  rw [Disk.isDirectory, h.stat fun name target heq => by cases heq ▸ hdirectory]
  exact hdirectory

end Holds

private theorem map_fst_nested (nodes : List DiskNode) :
    (d.nested ignored place nodes).map Prod.fst =
    (nodes.filter DiskNode.isDirectory).map DiskNode.name := by
  induction nodes with
  | nil => rw [nested, List.map_nil, List.filter_nil, List.map_nil]
  | cons first rest ih =>
    cases first with
    | directory name children =>
      rw [nested, List.map_cons, ih]
      rfl
    | _ =>
      rw [nested]
      · exact ih
      · rintro name children ⟨⟩

private theorem getD_lookup_nested {nodes : List DiskNode}
    (hdistinct : (nodes.map DiskNode.name).Nodup) (hnode : node ∈ nodes) :
    ((d.nested ignored place nodes).lookup node.name).getD [] =
      d.placesBelow ignored (place ++ [node.name]) node := by
  cases hdirectory : node.isDirectory with
  | true => rw [lookup_nested hdistinct hnode hdirectory, Option.getD_some]
  | false =>
    have hnone : (d.nested ignored place nodes).lookup node.name = none := by
      refine List.lookup_eq_none_iff.2 fun inside hinside => ?_
      have hname := List.mem_map_of_mem (f := Prod.fst) hinside
      rw [map_fst_nested] at hname
      obtain ⟨other, hother, hname⟩ := List.mem_map.1 hname
      obtain ⟨hmem, hother⟩ := List.mem_filter.1 hother
      refine bne_iff_ne.2 fun heq => ?_
      rw [List.inj_on_of_nodup_map hdistinct hmem hnode (hname.trans heq.symm)] at hother
      exact Bool.false_ne_true (hdirectory.symm.trans hother)
    rw [hnone, Option.getD_none]
    cases node with
    | directory name children => cases hdirectory
    | _ => rfl

def isFolder (d : Disk) (ignored : List String) (place : Place) (entry : DiskNode) : Bool :=
  d.isDirectory (place ++ [entry.name]) && !ignored.contains entry.name

/-- The entries of a directory in the order of its listing. -/
def entriesOf (d : Disk) (ignored : List String) (place : Place) (children : List DiskNode) :
    List DiskNode :=
  (DiskNode.sorted children).filter (d.isFolder ignored place) ++
    (DiskNode.sorted children).filter fun entry => !d.isDirectory (place ++ [entry.name])

private theorem namesIn_eq (children : List DiskNode) : d.namesIn ignored place children =
    (((DiskNode.sorted children).filter (d.isFolder ignored place)).map DiskNode.name,
      ((DiskNode.sorted children).filter fun entry =>
        !d.isDirectory (place ++ [entry.name])).map DiskNode.name) := by
  have hfolders : ((DiskNode.sorted children).filter fun entry =>
      d.isDirectory (place ++ [entry.name])).filter (fun entry => !ignored.contains entry.name) =
      (DiskNode.sorted children).filter (d.isFolder ignored place) := by
    rw [List.filter_filter]
    exact List.filter_congr fun entry _ => Bool.and_comm ..
  rw [namesIn, DiskNode.mergeSort_map_name, filter_map_name fun _ _ => rfl,
    filter_map_name fun _ _ => rfl, filter_map_name fun _ _ => rfl, hfolders]

theorem Holds.placesBelow (h : d.Holds place (.directory name children)) :
    d.placesBelow ignored place (.directory name children) =
      (d.entriesOf ignored place children).map (fun entry => place ++ [entry.name]) ++
      ((DiskNode.sorted children).filter (d.isFolder ignored place)).flatMap fun entry =>
        d.placesBelow ignored (place ++ [entry.name]) entry := by
  rw [Disk.placesBelow, namesIn_eq]
  simp only [← List.map_append, List.map_map, List.flatMap_map]
  refine congrArg _ (List.flatMap_congr fun entry hentry => ?_)
  have hmem := DiskNode.mem_sorted_iff.1 (List.mem_filter.1 hentry).1
  exact getD_lookup_nested h.distinct hmem

theorem mem_entriesOf_iff : entry ∈ d.entriesOf ignored place children ↔
    entry ∈ children ∧ d.Kept ignored place entry := by
  rw [entriesOf, List.mem_append, List.mem_filter, List.mem_filter, ← and_or_left,
    DiskNode.mem_sorted_iff, isFolder, Kept]
  cases d.isDirectory (place ++ [entry.name]) <;> simp

private theorem kept_of_isFolder (h : d.isFolder ignored place entry = true) :
    d.Kept ignored place entry := fun _ hmem => by
  have hnot := (Bool.and_eq_true_iff.1 h).2
  rw [List.contains_iff_mem.2 hmem] at hnot
  cases hnot

theorem Holds.mem_placesBelow_iff (h : d.Holds place node) :
    p ∈ d.placesBelow ignored place node ↔ ∃ raw, d.Below ignored place node p raw := by
  have hproper := h.proper
  induction hproper generalizing place with
  | @leaf node hleaf =>
    refine iff_of_false ?_ fun ⟨raw, hbelow⟩ => by
      rw [hbelow.isDirectory] at hleaf
      cases hleaf
    cases node with
    | directory name children => cases hleaf
    | _ => exact List.not_mem_nil
  | @directory name children ordinary distinct proper ih =>
    rw [h.placesBelow, List.mem_append, List.mem_map, List.mem_flatMap]
    constructor
    · rintro (⟨entry, hentry, rfl⟩ | ⟨entry, hentry, hp⟩)
      · obtain ⟨hmem, hkept⟩ := mem_entriesOf_iff.1 hentry
        exact ⟨entry, .entry hmem hkept⟩
      · obtain ⟨hsorted, hfolder⟩ := List.mem_filter.1 hentry
        have hmem := DiskNode.mem_sorted_iff.1 hsorted
        obtain ⟨raw, hbelow⟩ := (ih entry hmem (h.child hmem)).1 hp
        exact ⟨raw, .within hmem (kept_of_isFolder hfolder) hbelow⟩
    · rintro ⟨raw, hbelow⟩
      cases hbelow with
      | entry hmem hkept => exact .inl ⟨raw, mem_entriesOf_iff.2 ⟨hmem, hkept⟩, rfl⟩
      | @within _ _ _ entry _ _ hmem hkept hbelow =>
        have hdirectory := (h.child hmem).isDirectory hbelow.isDirectory
        have hfolder : d.isFolder ignored place entry = true := by
          rw [isFolder, hdirectory, Bool.true_and]
          simpa using hkept hdirectory
        exact .inr ⟨entry, List.mem_filter.2 ⟨DiskNode.mem_sorted_iff.2 hmem, hfolder⟩,
          (ih entry hmem (h.child hmem)).2 ⟨raw, hbelow⟩⟩

private theorem nodup_map_name_entriesOf (d : Disk) (ignored : List String) (place : Place)
    (hdistinct : (children.map DiskNode.name).Nodup) :
    ((d.entriesOf ignored place children).map DiskNode.name).Nodup :=
  DiskNode.nodup_filter_append_filter hdistinct fun n hfolder => by
    rw [(Bool.and_eq_true_iff.1 hfolder).1, Bool.not_true]

private theorem Holds.nodup_placesBelow (h : d.Holds place node) :
    (d.placesBelow ignored place node).Nodup := by
  have hproper := h.proper
  induction hproper generalizing place with
  | @leaf node hleaf =>
    cases node with
    | directory name children => cases hleaf
    | _ => exact List.nodup_nil
  | @directory name children ordinary distinct proper ih =>
    have hbelow {entry p}
        (hentry : entry ∈ (DiskNode.sorted children).filter (d.isFolder ignored place))
        (hp : p ∈ d.placesBelow ignored (place ++ [entry.name]) entry) :
        ∃ name rest, p = place ++ entry.name :: name :: rest := by
      have hmem := DiskNode.mem_sorted_iff.1 (List.mem_filter.1 hentry).1
      obtain ⟨raw, hraw⟩ := (h.child hmem).mem_placesBelow_iff.1 hp
      obtain ⟨name, rest, rfl⟩ := hraw.exists_rest
      exact ⟨name, rest, (List.append_cons ..).symm⟩
    have hnames := nodup_map_name_entriesOf d ignored place distinct
    rw [h.placesBelow, List.nodup_append]
    refine ⟨?_, List.nodup_flatMap.2 ⟨fun entry hentry => ?_, ?_⟩, ?_⟩
    · have hinjective : Function.Injective fun name : String => place ++ [name] := fun a b hab => by
        simpa using hab
      simpa only [List.map_map, Function.comp_def] using hnames.map hinjective
    · have hmem := DiskNode.mem_sorted_iff.1 (List.mem_filter.1 hentry).1
      exact ih entry hmem (h.child hmem)
    · rw [entriesOf, List.map_append] at hnames
      have hfolders := List.pairwise_map.1 (List.nodup_append.1 hnames).1
      refine hfolders.imp_of_mem fun ha hb hne => ?_
      intro p hpa hpb
      obtain ⟨_, _, rfl⟩ := hbelow ha hpa
      obtain ⟨_, _, heq⟩ := hbelow hb hpb
      exact hne (List.cons.inj (List.append_cancel_left heq)).1
    · intro p hp q hq heq
      obtain ⟨entry, -, rfl⟩ := List.mem_map.1 hp
      obtain ⟨folder, hfolder, hq⟩ := List.mem_flatMap.1 hq
      obtain ⟨_, _, rfl⟩ := hbelow hfolder hq
      cases (List.cons.inj (List.append_cancel_left heq)).2

/-- What goes wrong on the way from a place. -/
def problem? (d : Disk) (place : Place) : Option DiskProblem :=
  match d.stat place with
  | .ok _ => none
  | .error problem => some problem

/-- What is listed of a place: the candidate for what it leads to. -/
def candidate? (d : Disk) (base : Nat) (place : Place) : Option Candidate :=
  match d.stat place with
  | .ok node => some (d.candidate base place node)
  | .error _ => none

theorem problem?_eq_some_iff {problem : DiskProblem} :
    d.problem? place = some problem ↔ d.stat place = .error problem := by
  rw [problem?]
  cases d.stat place <;> simp

private theorem walk_error {links : Nat} {names : List String} {problem : DiskProblem}
    (h : d.walk false links place names = .error problem) :
    problem ∈ [.missing, .notDirectory, .tooManyLinks, .nameTooLong] := by
  fun_induction walk d false links place names <;> simp_all

private theorem problem_mem {problem : DiskProblem} (h : d.problem? place = some problem) :
    problem ∈ [.missing, .notDirectory, .tooManyLinks, .nameTooLong] := by
  rw [problem?_eq_some_iff, stat] at h
  cases hfollow : d.follow place with
  | error own =>
    rw [hfollow] at h
    exact Except.error.inj h ▸ walk_error hfollow
  | ok real =>
    rw [hfollow] at h
    cases hnode : d.node? real with
    | none =>
      simp only [hnode, Option.map_none, Option.getD_none, Except.error.injEq] at h
      exact h ▸ List.mem_cons_self
    | some node => simp [hnode] at h

private theorem candidatesOf_of_missing {places : List Place}
    (h : ∀ place ∈ places, ∀ problem, d.problem? place = some problem → problem = .missing) :
    d.candidatesOf base places = ⟨places.filterMap (d.candidate? base),
      (places.filter fun place => d.problem? place = some .missing).map absolute, none⟩ := by
  induction places with
  | nil => rfl
  | cons place rest ih =>
    have hrest := ih fun p hp => h p (List.mem_cons_of_mem _ hp)
    have hplace := h place List.mem_cons_self
    cases hstat : d.stat place with
    | ok node =>
      have hproblem : d.problem? place = none := by rw [problem?, hstat]
      have hcandidate : d.candidate? base place = some (d.candidate base place node) := by
        rw [candidate?, hstat]
      rw [List.filterMap_cons_some hcandidate, List.filter_cons_of_neg (by simp [hproblem])]
      simp only [candidatesOf, hstat, hrest]
    | error problem =>
      obtain rfl := hplace problem (problem?_eq_some_iff.2 hstat)
      have hcandidate : d.candidate? base place = none := by rw [candidate?, hstat]
      rw [List.filterMap_cons_none hcandidate,
        List.filter_cons_of_pos (by simpa using problem?_eq_some_iff.2 hstat)]
      simp only [candidatesOf, hstat, hrest, List.map_cons]

private theorem exists_error_candidatesOf (base : Nat) {places : List Place}
    (h : ∃ place ∈ places, ∃ problem, d.problem? place = some problem ∧ problem ≠ .missing) :
    ∃ place ∈ places, ∃ problem, d.problem? place = some problem ∧ problem ≠ .missing ∧
      (d.candidatesOf base places).error = some (.unusable ⟨problem, absolute place⟩) := by
  induction places with
  | nil =>
    obtain ⟨place, hplace, -⟩ := h
    cases hplace
  | cons first rest ih =>
    have later (hlater : ∃ place ∈ rest, ∃ problem,
        d.problem? place = some problem ∧ problem ≠ .missing)
        (herror : (d.candidatesOf base (first :: rest)).error =
          (d.candidatesOf base rest).error) : ∃ place ∈ first :: rest, ∃ problem,
        d.problem? place = some problem ∧ problem ≠ .missing ∧
        (d.candidatesOf base (first :: rest)).error =
          some (.unusable ⟨problem, absolute place⟩) := by
      obtain ⟨place, hplace, problem, hproblem, hne, hended⟩ := ih hlater
      exact ⟨place, List.mem_cons_of_mem _ hplace, problem, hproblem, hne, herror.trans hended⟩
    obtain ⟨place, hplace, problem, hproblem, hne⟩ := h
    cases hstat : d.stat first with
    | ok node =>
      refine later ?_ (by simp only [candidatesOf, hstat])
      rcases List.mem_cons.1 hplace with rfl | hplace
      · rw [problem?_eq_some_iff, hstat] at hproblem
        cases hproblem
      · exact ⟨place, hplace, problem, hproblem, hne⟩
    | error own =>
      by_cases hmissing : own = .missing
      · subst hmissing
        refine later ?_ (by simp only [candidatesOf, hstat])
        rcases List.mem_cons.1 hplace with rfl | hplace
        · rw [problem?_eq_some_iff, hstat] at hproblem
          exact absurd (Except.error.inj hproblem).symm hne
        · exact ⟨place, hplace, problem, hproblem, hne⟩
      · refine ⟨first, List.mem_cons_self, own, problem?_eq_some_iff.2 hstat, hmissing, ?_⟩
        cases own with
        | missing => exact absurd rfl hmissing
        | _ => simp only [candidatesOf, hstat]

private theorem Holds.not_below_link (h : d.Holds place node)
    (hlink : d.Below ignored place node p (.link name target)) {rest : Place} (hrest : rest ≠ []) :
    ¬d.Below ignored place node (p ++ rest) raw := fun hbelow => by
  obtain ⟨folder, children, hfolder⟩ :=
    exists_directory_of_append hrest (h.below hbelow).here
  have hhere := (h.below hlink).here
  rw [hfolder] at hhere
  cases hhere

theorem holds_of_resolve {path : String} (hresolve : d.resolve path = .ok place)
    (hnode : d.node? place = some node) (hproper : node.Proper) : d.Holds place node :=
  ⟨hproper, straight_of_resolve hresolve, hnode⟩

theorem Holds.list {path : String} (h : d.Holds place node) (hnull : '\x00' ∉ path.toList)
    (hresolve : d.resolve path = .ok place) (hdirectory : node.isDirectory = true) :
    let base := place.length - 1
    let below := d.candidatesOf base (d.placesBelow ignored place node)
    d.list ignored path =
      { below with candidates := d.candidate base place node :: below.candidates } := by
  intro base below
  have hcanonical : d.canonical path = place := by rw [canonical, hresolve]
  have hstat := h.stat fun name target heq => by cases heq ▸ hdirectory
  rw [Disk.list, hcanonical, if_neg (by simpa using hnull), hstat]

/-- A directory with links below it is listed, each place below it once, unless some link cannot be
followed for another reason than that nothing is there. Links that lead nowhere are left out. -/
theorem list_with_links (ignored : List String) {path : String} (hnull : '\x00' ∉ path.toList)
    (hresolve : d.resolve path = .ok place) (hnode : d.node? place = some node)
    (hdirectory : node.isDirectory = true) (hproper : node.Proper) :
    let listing := d.list ignored path
    let base := place.length - 1
    let places := d.placesBelow ignored place node
    places.Nodup ∧ (∀ p, p ∈ places ↔ ∃ raw, d.Below ignored place node p raw) ∧
    (∀ p name target, d.Below ignored place node p (.link name target) →
      ∀ rest, rest ≠ [] → p ++ rest ∉ places) ∧
    (∀ p raw, d.Below ignored place node p raw → (∀ name target, raw ≠ .link name target) →
      d.stat p = .ok raw) ∧
    (listing.error = none ↔
      ∀ p ∈ places, ∀ problem, d.problem? p = some problem → problem = .missing) ∧
    (listing.error = none →
      listing.candidates = d.candidate base place node :: places.filterMap (d.candidate? base) ∧
      listing.skipped = (places.filter fun p => d.problem? p = some .missing).map absolute) ∧
    ∀ error, listing.error = some error → ∃ p ∈ places, ∃ problem,
      d.problem? p = some problem ∧ problem ∈ [.notDirectory, .tooManyLinks, .nameTooLong] ∧
      error = .unusable ⟨problem, absolute p⟩ := by
  intro listing base places
  have hholds := holds_of_resolve hresolve hnode hproper
  have hlist : listing = _ := hholds.list hnull hresolve hdirectory
  have hmem p : p ∈ places ↔ ∃ raw, d.Below ignored place node p raw := hholds.mem_placesBelow_iff
  refine ⟨hholds.nodup_placesBelow, hmem, fun p name target hlink rest hrest hlisted => ?_,
    fun p raw hbelow => (hholds.below hbelow).stat, ?_⟩
  · obtain ⟨raw, hbelow⟩ := (hmem _).1 hlisted
    exact hholds.not_below_link hlink hrest hbelow
  · by_cases hmissing : ∀ p ∈ places, ∀ problem, d.problem? p = some problem → problem = .missing
    · rw [hlist, candidatesOf_of_missing hmissing]
      exact ⟨iff_of_true rfl hmissing, fun _ => ⟨rfl, rfl⟩, fun error h => by cases h⟩
    · obtain ⟨p, hp, problem, hproblem, hne, hended⟩ :=
        exists_error_candidatesOf base (by simpa using hmissing)
      have herror : listing.error = some (.unusable ⟨problem, absolute p⟩) := by rw [hlist, hended]
      have hnone : listing.error ≠ none := by rw [herror]; exact Option.some_ne_none _
      have hkind := (List.mem_cons.1 (problem_mem hproblem)).resolve_left hne
      refine ⟨iff_of_false hnone hmissing, fun h => absurd h hnone, fun error h => ?_⟩
      exact ⟨p, hp, problem, hproblem, hkind, Option.some.inj (h.symm.trans herror)⟩

/-- A directory with a link to nothing and links to its directories. -/
def linked : DiskNode :=
  .directory "app" [.link "gone" "nowhere", .directory "lib" [.file "a.py" [], .link "up" ".."],
    .link "old" "lib"]

/-- The links to directories are listed, and what is in these is listed once. -/
theorem list_of_linked :
    let disk : Disk := ⟨[linked], none, []⟩
    let listing := disk.list [] "/app"
    disk.resolve "/app" = .ok ["app"] ∧ linked.Proper ∧ listing.error = none ∧
    listing.skipped = ["/app/gone"] ∧ listing.candidates.map Candidate.path =
      ["app", "app/lib", "app/old", "app/lib/up", "app/lib/a.py"] := by
  intro disk listing
  have hresolve : disk.resolve "/app" = .ok ["app"] := by cbv
  have hproper : linked.Proper := by decide
  obtain ⟨-, -, -, -, hnone, hlisted, -⟩ :=
    list_with_links [] (by decide) hresolve rfl rfl hproper
  have hplaces : disk.placesBelow [] ["app"] linked = [["app", "lib"], ["app", "old"],
      ["app", "gone"], ["app", "lib", "up"], ["app", "lib", "a.py"]] := by cbv
  have hproblems : (disk.placesBelow [] ["app"] linked).filterMap disk.problem? = [.missing] := by
    rw [hplaces]
    cbv
  have herror := hnone.2 fun p hp problem hproblem => List.mem_singleton.1
    (hproblems ▸ List.mem_filterMap.2 ⟨p, hp, hproblem⟩)
  obtain ⟨hcandidates, hskipped⟩ := hlisted herror
  rw [hplaces] at hcandidates hskipped
  refine ⟨hresolve, hproper, herror, hskipped.trans (by cbv), ?_⟩
  exact (congrArg (List.map Candidate.path) hcandidates).trans (by cbv)

/-- A directory with a file and a link that leads to itself. -/
def circular : DiskNode := .directory "app" [.file "a.py" [], .link "loop" "loop"]

theorem list_of_circular :
    let disk : Disk := ⟨[circular], none, []⟩
    disk.resolve "/app" = .ok ["app"] ∧ circular.Proper ∧
    (disk.list [] "/app").error = some (.unusable ⟨.tooManyLinks, "/app/loop"⟩) := by
  intro disk
  exact ⟨by cbv, by decide, by cbv⟩

end Disk

end CodeAtlas
