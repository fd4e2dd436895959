import CodeAtlas.Proofs.Edge.Nesting
import Mathlib.Data.List.Induction

/-! Dependency edges. A unit collects its targets dependency by dependency, and one that an earlier
dependency has found is not found again; so each target belongs to the first dependency that fits
it, and the edges stand in the order of their sources, of these dependencies and of their targets. -/
namespace CodeAtlas

namespace SourceUnit

private theorem fits_iff {dependency : String} {u : SourceUnit} : fits dependency u = true ↔
    dependency = u.name ∨ dependency.toList <:+: u.path.toList ∨
      (u.name ≠ "" ∧ u.name.toList <:+: dependency.toList) := by
  rw [fits, Bool.or_eq_true, Bool.or_eq_true, Bool.and_eq_true, beq_iff_eq, bne_iff_ne,
    Text.contains, Text.contains, Text.occursIn_iff, Text.occursIn_iff, or_assoc, eq_comm]

/-- The position of the first dependency that fits a unit, or the number of dependencies if none
does. -/
def firstFit (dependencies : List String) (u : SourceUnit) : Nat :=
  dependencies.findIdx (fits · u)

variable {dependencies : List String} {u : SourceUnit}

private theorem firstFit_lt_iff : firstFit dependencies u < dependencies.length ↔
    ∃ dependency ∈ dependencies, fits dependency u = true :=
  List.findIdx_lt_length

theorem firstFit_concat_of_lt (dependency : String)
    (h : firstFit dependencies u < dependencies.length) :
    firstFit (dependencies ++ [dependency]) u = firstFit dependencies u := by
  rw [firstFit, List.findIdx_append]
  exact if_pos h

theorem firstFit_concat_of_not_lt (dependency : String)
    (h : ¬ firstFit dependencies u < dependencies.length) :
    firstFit (dependencies ++ [dependency]) u =
      (if fits dependency u then 0 else 1) + dependencies.length := by
  rw [firstFit, List.findIdx_append, List.findIdx_singleton]
  exact if_neg h

end SourceUnit

namespace Edge

open SourceUnit

variable {units : List SourceUnit}

def isAdded (source : Nat) (dependency : String) (found : List (SourceUnit × Nat))
    (c : SourceUnit × Nat) : Bool :=
  c.2 != source && !found.any (·.1.id == c.1.id) && fits dependency c.1

private theorem foldl_isAdded {candidates found : List (SourceUnit × Nat)} {source : Nat}
    {dependency : String} (hids : (candidates.map (·.1.id)).Nodup) :
    candidates.foldl (fun found c => if isAdded source dependency found c then found ++ [c]
      else found) found = found ++ candidates.filter (isAdded source dependency found) := by
  induction candidates generalizing found with
  | nil => exact (List.append_nil found).symm
  | cons c cs ih =>
    rw [List.map_cons, List.nodup_cons] at hids
    rw [List.foldl_cons, ih hids.2]
    cases hc : isAdded source dependency found c with
    | true =>
      -- The other candidates have other ids, so the new one does not count for them.
      rw [if_pos rfl, List.filter_cons_of_pos hc, List.append_assoc, List.singleton_append]
      refine congrArg (found ++ c :: ·) (List.filter_congr fun d hd => ?_)
      have hne : (c.1.id == d.1.id) = false :=
        beq_eq_false_iff_ne.2 fun heq => hids.1 (List.mem_map.2 ⟨d, hd, heq.symm⟩)
      rw [isAdded, isAdded, List.any_append, List.any_cons, List.any_nil, hne, Bool.or_false,
        Bool.or_false]
    | false => rw [if_neg Bool.false_ne_true, List.filter_cons_of_neg (by rw [hc]; simp)]

theorem nodup_map_id_zipIdx (hids : (units.map SourceUnit.id).Nodup) :
    (units.zipIdx.map (·.1.id)).Nodup := by
  have hmap : units.zipIdx.map (·.1.id) = (units.zipIdx.map Prod.fst).map SourceUnit.id := by
    rw [List.map_map]
    rfl
  rwa [hmap, List.zipIdx_map_fst]

private theorem addTargets_eq (hids : (units.map SourceUnit.id).Nodup) (source : Nat)
    (dependency : String) (found : List (SourceUnit × Nat)) :
    addTargets units source dependency found =
      found ++ units.zipIdx.filter (isAdded source dependency found) :=
  foldl_isAdded (nodup_map_id_zipIdx hids)

def firstFitted (units : List SourceUnit) (source : Nat) (dependencies : List String) (k : Nat) :
    List (SourceUnit × Nat) :=
  units.zipIdx.filter fun c => c.2 != source && firstFit dependencies c.1 == k

theorem mem_firstFitted_iff {source k : Nat} {dependencies : List String}
    {c : SourceUnit × Nat} : c ∈ firstFitted units source dependencies k ↔
      c ∈ units.zipIdx ∧ c.2 ≠ source ∧ firstFit dependencies c.1 = k := by
  rw [firstFitted, List.mem_filter, Bool.and_eq_true, bne_iff_ne, beq_iff_eq]

private theorem any_id_flatMap_firstFitted (hids : (units.map SourceUnit.id).Nodup) {source : Nat}
    {dependencies : List String} {c : SourceUnit × Nat} (hc : c ∈ units.zipIdx)
    (hsource : c.2 ≠ source) :
    ((List.range dependencies.length).flatMap (firstFitted units source dependencies)).any
        (·.1.id == c.1.id) = decide (firstFit dependencies c.1 < dependencies.length) := by
  rw [Bool.eq_iff_iff, List.any_eq_true, decide_eq_true_iff]
  simp only [List.mem_flatMap, List.mem_range, mem_firstFitted_iff, beq_iff_eq]
  constructor
  · rintro ⟨d, ⟨k, hk, hd, -, rfl⟩, hid⟩
    rwa [← List.inj_on_of_nodup_map (nodup_map_id_zipIdx hids) hd hc hid]
  · exact fun h => ⟨c, ⟨_, h, hc, hsource, rfl⟩, rfl⟩

private theorem firstFitted_concat {source k : Nat} {dependencies : List String}
    (dependency : String) (hk : k < dependencies.length) :
    firstFitted units source (dependencies ++ [dependency]) k =
      firstFitted units source dependencies k := by
  refine List.filter_congr fun c _ => congrArg (c.2 != source && ·) ?_
  by_cases hfit : firstFit dependencies c.1 < dependencies.length
  · rw [firstFit_concat_of_lt dependency hfit]
  · rw [firstFit_concat_of_not_lt dependency hfit, Bool.eq_iff_iff, beq_iff_eq, beq_iff_eq]
    omega

private theorem filter_isAdded (hids : (units.map SourceUnit.id).Nodup) (source : Nat)
    (dependencies : List String) (dependency : String) :
    units.zipIdx.filter (isAdded source dependency
        ((List.range dependencies.length).flatMap (firstFitted units source dependencies))) =
      firstFitted units source (dependencies ++ [dependency]) dependencies.length := by
  refine List.filter_congr fun c hc => ?_
  rw [isAdded, Bool.and_assoc]
  by_cases hsource : c.2 = source
  · rw [bne_eq_false_iff_eq.2 hsource, Bool.false_and, Bool.false_and]
  · rw [any_id_flatMap_firstFitted hids hc hsource]
    refine congrArg (c.2 != source && ·) ?_
    by_cases hfit : firstFit dependencies c.1 < dependencies.length
    · rw [firstFit_concat_of_lt dependency hfit, decide_eq_true hfit, Bool.not_true,
        Bool.false_and, beq_eq_false_iff_ne.2 (Nat.ne_of_lt hfit)]
    · rw [firstFit_concat_of_not_lt dependency hfit, decide_eq_false hfit]
      cases fits dependency c.1 <;> simp

theorem targetsOf_eq (hids : (units.map SourceUnit.id).Nodup) (source : Nat)
    (dependencies : List String) : targetsOf units source dependencies =
      (List.range dependencies.length).flatMap (firstFitted units source dependencies) := by
  induction dependencies using List.reverseRecOn with
  | nil => rfl
  | append_singleton dependencies dependency ih =>
    have hearlier : ∀ k ∈ List.range dependencies.length,
        firstFitted units source (dependencies ++ [dependency]) k =
          firstFitted units source dependencies k :=
      fun k hk => firstFitted_concat dependency (List.mem_range.1 hk)
    rw [targetsOf, List.foldl_append, List.foldl_cons, List.foldl_nil, ← targetsOf,
      addTargets_eq hids, ih, filter_isAdded hids, List.length_append, List.length_singleton,
      List.range_succ, List.flatMap_append, List.flatMap_singleton, List.flatMap_congr hearlier]

theorem mem_targetsOf_iff (hids : (units.map SourceUnit.id).Nodup) {source : Nat}
    {dependencies : List String} {c : SourceUnit × Nat} :
    c ∈ targetsOf units source dependencies ↔ units[c.2]? = some c.1 ∧ c.2 ≠ source ∧
      ∃ dependency ∈ dependencies, fits dependency c.1 = true := by
  rw [targetsOf_eq hids, ← firstFit_lt_iff, ← List.mem_zipIdx_iff_getElem?]
  simp only [List.mem_flatMap, List.mem_range, mem_firstFitted_iff]
  constructor
  · rintro ⟨k, hk, hc, hsource, rfl⟩
    exact ⟨hc, hsource, hk⟩
  · rintro ⟨hc, hsource, hk⟩
    exact ⟨_, hk, hc, hsource, rfl⟩

private theorem pairwise_targetsOf (hids : (units.map SourceUnit.id).Nodup) (source : Nat)
    (dependencies : List String) :
    (targetsOf units source dependencies).Pairwise fun c d =>
      firstFit dependencies c.1 < firstFit dependencies d.1 ∨
        firstFit dependencies c.1 = firstFit dependencies d.1 ∧ c.2 < d.2 := by
  rw [targetsOf_eq hids, List.pairwise_flatMap]
  constructor
  · intro k _
    refine (pairwise_snd_zipIdx.filter _).imp_of_mem fun {c d} hc hd hlt => .inr ⟨?_, hlt⟩
    exact (mem_firstFitted_iff.1 hc).2.2.trans (mem_firstFitted_iff.1 hd).2.2.symm
  · refine List.pairwise_lt_range.imp fun {j k} hlt c hc d hd => .inl ?_
    rwa [(mem_firstFitted_iff.1 hc).2.2, (mem_firstFitted_iff.1 hd).2.2]

def rank (units : List SourceUnit) (e : Edge) : Nat :=
  match units[e.source]?, units[e.target]? with
  | some u, some v => firstFit u.dependencies v
  | _, _ => 0

/-- The order of dependency edges: by their sources, then by the first dependencies that fit their
targets, then by their targets. -/
def Precedes (units : List SourceUnit) (e f : Edge) : Prop :=
  e.source < f.source ∨ e.source = f.source ∧
    (rank units e < rank units f ∨ rank units e = rank units f ∧ e.target < f.target)

private theorem mem_dependencyEdges_iff (hids : (units.map SourceUnit.id).Nodup) {e : Edge} :
    e ∈ dependencyEdges units ↔ e.kind = .dependency ∧ e.source ≠ e.target ∧
      ∃ u v, units[e.source]? = some u ∧ units[e.target]? = some v ∧
        ∃ dependency ∈ u.dependencies, fits dependency v = true := by
  simp only [dependencyEdges, List.mem_flatMap, List.mem_map, mem_targetsOf_iff hids,
    List.mem_zipIdx_iff_getElem?]
  constructor
  · rintro ⟨⟨u, n⟩, hu, ⟨v, m⟩, ⟨hv, hne, hfits⟩, rfl⟩
    exact ⟨rfl, Ne.symm hne, u, v, hu, hv, hfits⟩
  · obtain ⟨n, m, kind⟩ := e
    rintro ⟨rfl, hne, u, v, hu, hv, hfits⟩
    exact ⟨(u, n), hu, (v, m), ⟨hv, Ne.symm hne, hfits⟩, rfl⟩

theorem rank_eq {u : SourceUnit} {n : Nat} {c : SourceUnit × Nat} (hu : units[n]? = some u)
    (hc : units[c.2]? = some c.1) (kind : EdgeKind) :
    rank units ⟨n, c.2, kind⟩ = firstFit u.dependencies c.1 := by
  rw [rank, hu, hc]

theorem pairwise_dependencyEdges (hids : (units.map SourceUnit.id).Nodup) :
    (dependencyEdges units).Pairwise (Precedes units) := by
  rw [dependencyEdges, List.pairwise_flatMap]
  constructor
  · rintro ⟨u, n⟩ hu
    rw [List.mem_zipIdx_iff_getElem?] at hu
    refine List.pairwise_map.2 ((pairwise_targetsOf hids n u.dependencies).imp_of_mem ?_)
    intro c d hc hd hlt
    refine .inr ⟨rfl, ?_⟩
    rwa [rank_eq hu ((mem_targetsOf_iff hids).1 hc).1, rank_eq hu ((mem_targetsOf_iff hids).1 hd).1]
  · refine pairwise_snd_zipIdx.imp fun {c d} hlt e he f hf => .inl ?_
    obtain ⟨-, -, rfl⟩ := List.mem_map.1 he
    obtain ⟨-, -, rfl⟩ := List.mem_map.1 hf
    exact hlt

private theorem not_precedes_self (e : Edge) : ¬ Precedes units e e := by
  rintro (h | ⟨-, h | ⟨-, h⟩⟩) <;> exact Nat.lt_irrefl _ h

private theorem addTargets_subset (source : Nat) (dependency : String)
    {found : List (SourceUnit × Nat)} (h : found ⊆ units.zipIdx) :
    addTargets units source dependency found ⊆ units.zipIdx := by
  refine List.foldlRecOn (motive := (· ⊆ units.zipIdx)) units.zipIdx _ h
    fun found hfound candidate hcandidate => ?_
  split
  · exact List.append_subset.2 ⟨hfound, List.cons_subset.2 ⟨hcandidate, List.nil_subset _⟩⟩
  · exact hfound

private theorem targetsOf_subset (source : Nat) (dependencies : List String) :
    targetsOf units source dependencies ⊆ units.zipIdx :=
  List.foldlRecOn (motive := (· ⊆ units.zipIdx)) dependencies _ (List.nil_subset _)
    fun _ hfound dependency _ => addTargets_subset source dependency hfound

theorem ends_lt_of_mem_ofUnits {mode : ViewMode} {e : Edge} (he : e ∈ ofUnits units mode) :
    e.source < units.length ∧ e.target < units.length := by
  have hlt {c : SourceUnit × Nat} (hc : c ∈ units.zipIdx) : c.2 < units.length :=
    (List.getElem?_eq_some_iff.1 (List.mem_zipIdx_iff_getElem?.1 hc)).1
  rw [ofUnits, List.mem_append] at he
  rcases he with hnesting | hdependency
  · split at hnesting
    · obtain ⟨-, v, parent, hv, -, hsource⟩ := mem_nestingEdges_iff.1 hnesting
      exact ⟨(List.findIdx?_eq_some_iff_getElem.1 hsource).1, (List.getElem?_eq_some_iff.1 hv).1⟩
    · cases hnesting
  · split at hdependency
    · obtain ⟨⟨u, n⟩, hu, hedge⟩ := List.mem_flatMap.1 hdependency
      obtain ⟨target, htarget, rfl⟩ := List.mem_map.1 hedge
      exact ⟨hlt hu, hlt (targetsOf_subset n u.dependencies htarget)⟩
    · cases hdependency

/-- Among units with distinct ids, a dependency edge leads from one unit to another exactly if a
dependency of the first is the name of the second, is part of its path or has its name as a part.
No edge is there twice, and the edges stand in their order. -/
theorem edges_of_dependencies (hids : (units.map SourceUnit.id).Nodup) :
    (∀ source target kind, ⟨source, target, kind⟩ ∈ dependencyEdges units ↔
      kind = .dependency ∧ source ≠ target ∧
        ∃ u v, units[source]? = some u ∧ units[target]? = some v ∧
          ∃ dependency ∈ u.dependencies, dependency = v.name ∨
            dependency.toList <:+: v.path.toList ∨
            (v.name ≠ "" ∧ v.name.toList <:+: dependency.toList)) ∧
    (dependencyEdges units).Nodup ∧ (dependencyEdges units).Pairwise (Precedes units) := by
  refine ⟨fun source target kind => ?_, ?_, pairwise_dependencyEdges hids⟩
  · rw [mem_dependencyEdges_iff hids]
    simp only [fits_iff]
  · refine (pairwise_dependencyEdges hids).imp fun {e f} h => ?_
    rintro rfl
    exact not_precedes_self e h

/-- A unit whose first dependency fits the last unit and whose second one fits the unit in between,
and another with two dependencies that fit the same unit. -/
def fittedTwice : List SourceUnit := [
  { id := "ui/Form.tsx", name := "Form.tsx", path := "ui/Form.tsx",
    dependencies := ["ui/", "./Style.ts", "../ui/Form.tsx"] },
  { id := "Style.ts", name := "Style.ts", path := "Style.ts", dependencies := ["Style.ts"] },
  { id := "ui/Icon.tsx", name := "Icon.tsx", path := "ui/Icon.tsx",
    dependencies := ["./Form.tsx", "Form"] }]

theorem fittedTwice_edges : (fittedTwice.map SourceUnit.id).Nodup ∧
    dependencyEdges fittedTwice =
      [⟨0, 2, .dependency⟩, ⟨0, 1, .dependency⟩, ⟨2, 0, .dependency⟩] ∧
    (dependencyEdges fittedTwice).Pairwise (Precedes fittedTwice) := by
  have hids : (fittedTwice.map SourceUnit.id).Nodup := by decide
  exact ⟨hids, by decide +kernel, (edges_of_dependencies hids).2.2⟩

end Edge

end CodeAtlas
