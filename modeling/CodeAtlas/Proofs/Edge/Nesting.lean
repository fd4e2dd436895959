import CodeAtlas.Edge
import CodeAtlas.Proofs.Path
import Mathlib.Data.List.Nodup
import Mathlib.Logic.Relation

/-! Nesting edges. A unit is nested in the one that has its parent path, and the path of what is
nested continues the path of what it is nested in; so nothing is nested in itself, and what can be
reached from a unit is among its children. Children are reached unless a path between is missing. -/
namespace CodeAtlas

namespace SourceUnit

theorem parentPath?_eq_some_iff {u : SourceUnit} {parent : String} :
    u.parentPath? = some parent ↔ Path.parent? u.path = some parent ∧ parent ≠ "" := by
  rw [parentPath?, Option.filter_eq_some_iff, bne_iff_ne]

private theorem isPrefixOf_iff {u v : SourceUnit} :
    (u.path.toList ++ ['/']).isPrefixOf v.path.toList = true ↔
      ∃ rest, v.path = u.path ++ "/" ++ rest := by
  rw [List.isPrefixOf_iff_prefix]
  constructor
  · rintro ⟨rest, hrest⟩
    refine ⟨String.ofList rest, String.toList_injective ?_⟩
    simp [← hrest]
  · rintro ⟨rest, hrest⟩
    exact ⟨rest.toList, by simp [hrest]⟩

variable {units : List SourceUnit} {u v : SourceUnit}

theorem id_mem_childIds_iff (hids : (units.map SourceUnit.id).Nodup) (hv : v ∈ units) :
    v.id ∈ childIds units u ↔ ∃ rest, v.path = u.path ++ "/" ++ rest := by
  rw [childIds, List.mem_map]
  simp only [List.mem_filter, isPrefixOf_iff]
  constructor
  · rintro ⟨w, ⟨hw, hrest⟩, hid⟩
    rwa [← List.inj_on_of_nodup_map hids hw hv hid]
  · exact fun hrest => ⟨v, ⟨hv, hrest⟩, rfl⟩

end SourceUnit

namespace Edge

open SourceUnit

variable {units : List SourceUnit} {s t : Nat} {u v : SourceUnit}

theorem pairwise_snd_zipIdx : units.zipIdx.Pairwise fun c d => c.2 < d.2 := by
  have hrange : (units.zipIdx.map Prod.snd).Pairwise (· < ·) := by
    rw [List.zipIdx_map_snd]
    exact List.pairwise_lt_range'
  exact List.pairwise_map.1 hrange

theorem mem_nestingEdges_iff {e : Edge} : e ∈ nestingEdges units ↔ e.kind = .nesting ∧
    ∃ v parent, units[e.target]? = some v ∧ v.parentPath? = some parent ∧
      units.findIdx? (·.path == parent) = some e.source := by
  simp only [nestingEdges, List.mem_filterMap, List.mem_zipIdx_iff_getElem?, Option.bind_eq_bind,
    Option.bind_eq_some_iff, pure, Option.some.injEq]
  constructor
  · rintro ⟨⟨v, n⟩, hv, parent, hparent, source, hsource, rfl⟩
    exact ⟨rfl, v, parent, hv, hparent, hsource⟩
  · obtain ⟨source, n, kind⟩ := e
    rintro ⟨rfl, v, parent, hv, hparent, hsource⟩
    exact ⟨(v, n), hv, parent, hparent, source, hsource, rfl⟩

private theorem pairwise_target_nestingEdges :
    (nestingEdges units).Pairwise fun e f => e.target < f.target := by
  refine List.pairwise_filterMap.2 (pairwise_snd_zipIdx.imp fun {c d} hlt e he f hf => ?_)
  simp only [Option.bind_eq_bind, Option.bind_eq_some_iff, pure, Option.some.injEq] at he hf
  obtain ⟨-, -, -, -, rfl⟩ := he
  obtain ⟨-, -, -, -, rfl⟩ := hf
  exact hlt

/-- Whether a nesting edge leads from one position to another. -/
def Nests (units : List SourceUnit) (s t : Nat) : Prop := ⟨s, t, .nesting⟩ ∈ nestingEdges units

theorem Nests.exists_units (h : Nests units s t) : ∃ u v, units[s]? = some u ∧
    units[t]? = some v ∧ Path.parent? v.path = some u.path := by
  obtain ⟨-, v, parent, hv, hparent, hsource⟩ := mem_nestingEdges_iff.1 h
  obtain ⟨hs, hpath, -⟩ := List.findIdx?_eq_some_iff_getElem.1 hsource
  rw [beq_iff_eq] at hpath
  exact ⟨units[s], v, List.getElem?_eq_getElem hs, hv,
    hpath ▸ (parentPath?_eq_some_iff.1 hparent).1⟩

private theorem position_eq (hpaths : (units.map SourceUnit.path).Nodup) (hu : units[s]? = some u)
    (hv : units[t]? = some v) (hpath : u.path = v.path) : s = t := by
  have hs : (units.map SourceUnit.path)[s]? = some u.path := by rw [List.getElem?_map, hu]; rfl
  have ht : (units.map SourceUnit.path)[t]? = some v.path := by rw [List.getElem?_map, hv]; rfl
  obtain ⟨hlt, -⟩ := List.getElem?_eq_some_iff.1 hs
  exact (List.getElem?_inj hlt hpaths).1 (hs.trans (hpath ▸ ht.symm))

theorem nests_of_parent? (hpaths : (units.map SourceUnit.path).Nodup) (hu : units[s]? = some u)
    (hv : units[t]? = some v) (hparent : Path.parent? v.path = some u.path) (hne : u.path ≠ "") :
    Nests units s t := by
  obtain ⟨hs, rfl⟩ := List.getElem?_eq_some_iff.1 hu
  have hsource : units.findIdx? (·.path == units[s].path) = some s := by
    refine List.findIdx?_eq_some_iff_getElem.2 ⟨hs, beq_self_eq_true _, fun j hj => ?_⟩
    rw [beq_iff_eq]
    have hj' : units[j]? = some units[j] := List.getElem?_eq_getElem (hj.trans hs)
    exact fun hpath => Nat.ne_of_lt hj (position_eq hpaths hj' hu hpath)
  exact mem_nestingEdges_iff.2
    ⟨rfl, v, _, hv, parentPath?_eq_some_iff.2 ⟨hparent, hne⟩, hsource⟩

theorem exists_rest_of_reached (h : Relation.TransGen (Nests units) s t) :
    ∃ u v, units[s]? = some u ∧ units[t]? = some v ∧ ∃ rest, v.path = u.path ++ "/" ++ rest := by
  induction h with
  | single h =>
    obtain ⟨u, v, hu, hv, hparent⟩ := h.exists_units
    obtain ⟨segment, -, hpath⟩ := Path.parent?_eq_some_iff.1 hparent
    exact ⟨u, v, hu, hv, segment, hpath⟩
  | tail _ h ih =>
    obtain ⟨u, v, hu, hv, rest, hrest⟩ := ih
    obtain ⟨v', w, hv', hw, hparent⟩ := h.exists_units
    obtain ⟨segment, -, hpath⟩ := Path.parent?_eq_some_iff.1 hparent
    obtain rfl := Option.some.inj (hv.symm.trans hv')
    refine ⟨u, w, hu, hw, rest ++ "/" ++ segment, ?_⟩
    simp only [hpath, hrest, String.append_assoc]

private theorem not_reached_self (n : Nat) : ¬ Relation.TransGen (Nests units) n n := by
  intro h
  obtain ⟨u, v, hu, hv, rest, hrest⟩ := exists_rest_of_reached h
  obtain rfl := Option.some.inj (hu.symm.trans hv)
  have hlength := congrArg String.length hrest
  simp only [String.length_append, show "/".length = 1 from rfl] at hlength
  omega

private theorem reached_of_between (hpaths : (units.map SourceUnit.path).Nodup) {rest : String}
    (hu : units[s]? = some u) (hv : units[t]? = some v) (hne : u.path ≠ "")
    (hrest : v.path = u.path ++ "/" ++ rest)
    (hbetween : ∀ n, Path.depth u.path < n → n < Path.depth v.path →
      ∃ w ∈ units, w.path = Path.upTo v.path n) :
    Relation.TransGen (Nests units) s t := by
  have hpos := Path.depth_pos u.path
  have hdepth : Path.depth u.path < Path.depth v.path := by
    rw [hrest]
    exact Path.depth_lt_depth_below u.path rest
  have hreached : ∀ n, Path.depth u.path ≤ n → n < Path.depth v.path →
      ∃ (j : Nat) (w : SourceUnit), units[j]? = some w ∧ w.path = Path.upTo v.path n ∧
        w.path ≠ "" ∧ Relation.ReflTransGen (Nests units) s j := by
    intro n hlower
    induction n, hlower using Nat.le_induction with
    | base =>
      intro _
      have habove : u.path = Path.upTo v.path (Path.depth u.path) := by
        rw [hrest, Path.upTo_depth_below]
      exact ⟨s, u, hu, habove, hne, .refl⟩
    | succ n hlower ih =>
      intro hupper
      obtain ⟨i, x, hx, hxpath, hxne, hreach⟩ := ih (Nat.lt_of_succ_lt hupper)
      obtain ⟨w, hw, hwpath⟩ := hbetween (n + 1) (Nat.lt_succ_of_le hlower) hupper
      obtain ⟨j, hj⟩ := List.mem_iff_getElem?.1 hw
      have hparent : Path.parent? w.path = some x.path := by
        rw [hwpath, hxpath]
        exact Path.parent?_upTo (by omega) (by omega)
      exact ⟨j, w, hj, hwpath, Path.ne_empty_of_parent? hparent,
        hreach.tail (nests_of_parent? hpaths hx hj hparent hxne)⟩
  obtain ⟨i, x, hx, hxpath, hxne, hreach⟩ := hreached (Path.depth v.path - 1) (by omega) (by omega)
  have hparent : Path.parent? v.path = some x.path :=
    Path.parent?_eq_some_iff_upTo.2 ⟨by omega, hxpath⟩
  exact Relation.TransGen.tail' hreach (nests_of_parent? hpaths hx hv hparent hxne)

/-- Among units with distinct ids and paths, each is the target of one nesting edge at most, which
comes from the unit whose path lacks the last segment, and no edges lead round in a circle. What
can be reached from a unit is among its children; a child of a unit with a path can be reached if
every path between the two is that of a unit. -/
theorem nesting_and_children (hids : (units.map SourceUnit.id).Nodup)
    (hpaths : (units.map SourceUnit.path).Nodup) :
    ((nestingEdges units).map Edge.target).Nodup ∧
    (∀ e ∈ nestingEdges units, e.kind = .nesting ∧
      ∃ u v, units[e.source]? = some u ∧ units[e.target]? = some v ∧
        1 < Path.depth v.path ∧ u.path = Path.upTo v.path (Path.depth v.path - 1)) ∧
    (∀ n, ¬ Relation.TransGen (Nests units) n n) ∧
    ∀ s t u v, units[s]? = some u → units[t]? = some v →
      (Relation.TransGen (Nests units) s t → v.id ∈ childIds units u) ∧
      (v.id ∈ childIds units u → u.path ≠ "" →
        (∀ n, Path.depth u.path < n → n < Path.depth v.path →
          ∃ w ∈ units, w.path = Path.upTo v.path n) →
        Relation.TransGen (Nests units) s t) := by
  refine ⟨?_, fun e he => ?_, not_reached_self, fun s t u v hu hv => ⟨fun h => ?_, ?_⟩⟩
  · refine List.pairwise_map.2 (pairwise_target_nestingEdges.imp fun hlt => Nat.ne_of_lt hlt)
  · have hkind := (mem_nestingEdges_iff.1 he).1
    obtain ⟨source, target, kind⟩ := e
    obtain rfl : kind = .nesting := hkind
    obtain ⟨u, v, hu, hv, hparent⟩ := Nests.exists_units he
    exact ⟨rfl, u, v, hu, hv, Path.parent?_eq_some_iff_upTo.1 hparent⟩
  · obtain ⟨u', v', hu', hv', hrest⟩ := exists_rest_of_reached h
    obtain rfl := Option.some.inj (hu.symm.trans hu')
    obtain rfl := Option.some.inj (hv.symm.trans hv')
    exact (id_mem_childIds_iff hids (List.mem_of_getElem? hv)).2 hrest
  · intro hchild hne hbetween
    obtain ⟨rest, hrest⟩ := (id_mem_childIds_iff hids (List.mem_of_getElem? hv)).1 hchild
    exact reached_of_between hpaths hu hv hne hrest hbetween

/-- Four units one below the other, two of which an empty segment lies between, and two others. -/
def emptySegment : List SourceUnit :=
  ["src//x/y.ts", "src/", "src", "src//x", "/src", "other/src.ts"].map fun path =>
    { id := path, name := Path.fileName path, path := path }

theorem emptySegment_reached : (emptySegment.map SourceUnit.id).Nodup ∧
    (emptySegment.map SourceUnit.path).Nodup ∧
    nestingEdges emptySegment = [⟨3, 0, .nesting⟩, ⟨2, 1, .nesting⟩, ⟨1, 3, .nesting⟩] ∧
    Relation.TransGen (Nests emptySegment) 2 0 := by
  have hids : (emptySegment.map SourceUnit.id).Nodup := by decide
  have hpaths : (emptySegment.map SourceUnit.path).Nodup := by decide
  have hbetween : ∀ n < 4, 1 < n →
      ∃ w ∈ emptySegment, w.path = Path.upTo "src//x/y.ts" n := by decide +kernel
  refine ⟨hids, hpaths, by decide +kernel, ?_⟩
  exact ((nesting_and_children hids hpaths).2.2.2 2 0 _ _ rfl rfl).2 (by decide +kernel)
    (by decide) fun n hlower hupper => hbetween n hupper hlower

end Edge

end CodeAtlas
