import CodeAtlas.Proofs.Text.Segment
import CodeAtlas.Path

/-! A path with a parent is the parent, a slash and one segment, and what follows the last slash
decides on its file name and its extension. The first segments of a path are a path again, and each
of these is the parent of the next. -/
namespace CodeAtlas

namespace Text

theorem splitAtLast_eq_none_iff {mark : Char} {s : List Char} :
    splitAtLast mark s = none ↔ mark ∉ s := by
  induction s with
  | nil => simp [splitAtLast]
  | cons c cs ih =>
    rw [splitAtLast, List.mem_cons, not_or]
    cases h : splitAtLast mark cs with
    | some cut =>
      have hmem : mark ∈ cs := Decidable.not_not.1 fun hmem => by
        rw [ih.2 hmem] at h
        cases h
      simp [hmem]
    | none =>
      have hmem := ih.1 h
      by_cases hc : c = mark
      · simp [hc]
      · simp [hc, Ne.symm hc, hmem]

theorem splitAtLast_append_cons {mark : Char} {before rest : List Char} (h : mark ∉ rest) :
    splitAtLast mark (before ++ mark :: rest) = some (before, mark :: rest) := by
  induction before with
  | nil =>
    rw [List.nil_append, splitAtLast, splitAtLast_eq_none_iff.2 h]
    exact if_pos rfl
  | cons c cs ih =>
    rw [List.cons_append, splitAtLast, ih]

private theorem splitAtLast_eq_some_iff {mark : Char} {s before after : List Char} :
    splitAtLast mark s = some (before, after) ↔
      ∃ rest, mark ∉ rest ∧ after = mark :: rest ∧ s = before ++ after := by
  constructor
  · intro h
    induction s generalizing before after with
    | nil => simp [splitAtLast] at h
    | cons c cs ih =>
      rw [splitAtLast] at h
      cases hcut : splitAtLast mark cs with
      | some cut =>
        obtain ⟨before', after'⟩ := cut
        rw [hcut] at h
        obtain ⟨rfl, rfl⟩ := Prod.mk.inj (Option.some.inj h)
        obtain ⟨rest, hrest, rfl, rfl⟩ := ih hcut
        exact ⟨rest, hrest, rfl, rfl⟩
      | none =>
        rw [hcut] at h
        obtain ⟨rfl, hpair⟩ := Option.ite_none_right_eq_some.1 h
        obtain ⟨rfl, rfl⟩ := Prod.mk.inj (Option.some.inj hpair)
        exact ⟨cs, splitAtLast_eq_none_iff.1 hcut, rfl, rfl⟩
  · rintro ⟨rest, hrest, rfl, rfl⟩
    exact splitAtLast_append_cons hrest

end Text

namespace Path

theorem parent?_eq_some_iff {path parent : String} : parent? path = some parent ↔
    ∃ segment : String, '/' ∉ segment.toList ∧ path = parent ++ "/" ++ segment := by
  rw [parent?, Option.map_eq_some_iff]
  constructor
  · rintro ⟨⟨before, after⟩, hcut, rfl⟩
    obtain ⟨rest, hrest, rfl, hpath⟩ := Text.splitAtLast_eq_some_iff.1 hcut
    refine ⟨String.ofList rest, by simpa using hrest, ?_⟩
    apply String.toList_injective
    simp [hpath]
  · rintro ⟨segment, hsegment, rfl⟩
    refine ⟨(parent.toList, '/' :: segment.toList), ?_, String.ofList_toList⟩
    have htext : (parent ++ "/" ++ segment).toList = parent.toList ++ '/' :: segment.toList := by
      simp
    rw [htext]
    exact Text.splitAtLast_append_cons hsegment

theorem ne_empty_of_parent? {path parent : String} (h : parent? path = some parent) :
    path ≠ "" := by
  rintro rfl
  exact Nat.not_lt_zero _ (length_lt_of_parent? h)

private theorem fileName_eq_empty_iff {path : String} : fileName path = "" ↔ path = "" := by
  constructor
  · intro h
    simp only [fileName] at h
    split at h
    · exact h
    · contradiction
  · rintro rfl
    rfl

theorem baseName_eq_empty_iff {path : String} : baseName path = "" ↔ path = "" := by
  refine Iff.trans ?_ fileName_eq_empty_iff
  simp only [baseName]
  split
  · next c cs after hcut =>
    constructor
    · intro h
      have hlist : c :: cs = [] := by simpa using congrArg String.toList h
      cases hlist
    · intro h
      rw [h] at hcut
      cases hcut
  · exact Iff.rfl

def Opens (above : String) : Prop := above = "" ∨ ∃ parent, above = parent ++ "/"

theorem opens_empty : Opens "" := .inl rfl

theorem opens_append_slash (parent : String) : Opens (parent ++ "/") := .inr ⟨parent, rfl⟩

section Segment

variable {above name : String} (habove : Opens above) (hslash : '/' ∉ name.toList)

include hslash

theorem segments_of_not_mem : segments name = [name] := by
  have hone : (Text.splitOn '/' name.toList).length = 1 := by
    rw [Text.length_splitOn, List.count_eq_zero.2 hslash]
  obtain ⟨piece, hpiece⟩ := List.length_eq_one_iff.1 hone
  have hjoin := Text.joinWith_splitOn '/' name.toList
  rw [hpiece, Text.joinWith] at hjoin
  rw [segments, hpiece, hjoin, List.map_singleton, String.ofList_toList]

include habove

private theorem lastSegment_append : lastSegment (above ++ name) = name := by
  rcases habove with rfl | ⟨parent, rfl⟩
  · rw [String.empty_append, lastSegment, Text.splitAtLast_eq_none_iff.2 hslash]
  · have htext : (parent ++ "/" ++ name).toList = parent.toList ++ '/' :: name.toList := by simp
    rw [lastSegment, htext, Text.splitAtLast_append_cons hslash]
    exact String.ofList_toList

theorem fileName_append (hname : name ≠ "") : fileName (above ++ name) = name := by
  rw [fileName, lastSegment_append habove hslash]
  exact if_neg hname

theorem extension_append (hname : name ≠ "") : extension (above ++ name) = extension name := by
  have hself : fileName name = name := by
    have hempty := fileName_append opens_empty hslash hname
    rwa [String.empty_append] at hempty
  rw [extension, extension, fileName_append habove hslash hname, hself]

end Segment

/-- The path of the first segments of a path. -/
def upTo (path : String) (n : Nat) : String :=
  String.ofList (Text.joinWith '/' ((Text.splitOn '/' path.toList).take n))

theorem depth_eq (path : String) : depth path = (Text.splitOn '/' path.toList).length :=
  List.length_map ..

theorem depth_pos (path : String) : 0 < depth path := by
  rw [depth_eq]
  exact List.length_pos_iff.2 (Text.splitOn_ne_nil '/' path.toList)

private theorem upTo_depth (path : String) : upTo path (depth path) = path := by
  rw [upTo, depth_eq, List.take_length, Text.joinWith_splitOn, String.ofList_toList]

theorem splitOn_below (above rest : String) :
    Text.splitOn '/' (above ++ "/" ++ rest).toList =
      Text.splitOn '/' above.toList ++ Text.splitOn '/' rest.toList := by
  rw [← Text.splitOn_append]
  simp

theorem depth_lt_depth_below (above rest : String) : depth above < depth (above ++ "/" ++ rest) := by
  have hrest := depth_pos rest
  rw [depth_eq] at hrest
  rw [depth_eq, depth_eq, splitOn_below, List.length_append]
  omega

theorem upTo_depth_below (above rest : String) :
    upTo (above ++ "/" ++ rest) (depth above) = above := by
  rw [upTo, splitOn_below, depth_eq, List.take_left, Text.joinWith_splitOn, String.ofList_toList]

theorem parent?_upTo {path : String} {n : Nat} (hpos : 0 < n) (h : n < depth path) :
    parent? (upTo path (n + 1)) = some (upTo path n) := by
  rw [depth_eq] at h
  have hne : (Text.splitOn '/' path.toList).take n ≠ [] :=
    List.ne_nil_of_length_pos (by rw [List.length_take]; omega)
  refine parent?_eq_some_iff.2 ⟨String.ofList (Text.splitOn '/' path.toList)[n], ?_, ?_⟩
  · rw [String.toList_ofList]
    exact Text.not_mem_of_mem_splitOn (List.getElem_mem h)
  · apply String.toList_injective
    rw [upTo, List.take_succ_eq_append_getElem h, Text.joinWith_concat hne]
    simp [upTo]

theorem parent?_eq_some_iff_upTo {path parent : String} :
    parent? path = some parent ↔ 1 < depth path ∧ parent = upTo path (depth path - 1) := by
  constructor
  · intro h
    obtain ⟨segment, hsegment, rfl⟩ := parent?_eq_some_iff.1 h
    have hdepth : depth (parent ++ "/" ++ segment) = depth parent + 1 := by
      rw [depth_eq, depth_eq, splitOn_below, List.length_append, ← depth_eq segment, depth,
        segments_of_not_mem hsegment, List.length_singleton]
    have hpos := depth_pos parent
    refine ⟨by omega, ?_⟩
    rw [hdepth, Nat.add_sub_cancel, upTo_depth_below]
  · rintro ⟨hdepth, rfl⟩
    have hparent : parent? (upTo path (depth path - 1 + 1)) = some (upTo path (depth path - 1)) :=
      parent?_upTo (by omega) (by omega)
    rwa [Nat.sub_add_cancel (by omega), upTo_depth] at hparent

end Path

end CodeAtlas
