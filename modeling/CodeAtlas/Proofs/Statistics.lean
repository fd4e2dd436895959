import CodeAtlas.Proofs.Table
import CodeAtlas.Statistics

/-! Statistics in closed form: totals are sums over the files, and histograms count the extension,
the language and the role of each file. None of it depends on the order of the files, and neither
does the summary, since what it lists is sorted. -/
namespace CodeAtlas.Statistics

def typeOf (e : Entry) : String := e.extension.getD ""

def languageOf (e : Entry) : String := Language.nameOf (typeOf e)

def roleOf (e : Entry) : Role := Role.ofFile e.path (e.content.getD "")

def linesOf (e : Entry) : Int := (e.content.map fun text => (Text.lineCount text : Int)).getD 0

def hasContent (e : Entry) : Bool := e.content.isSome

private theorem foldl_countFile (files : List Entry) (s : Statistics) :
    files.foldl countFile s =
      { s with
        totalFiles := s.totalFiles + files.length
        totalLines := s.totalLines + (files.map linesOf).sum
        totalSize := s.totalSize + (files.map Entry.size).sum
        fileTypes := (files.map typeOf).foldl Histogram.bump s.fileTypes
        languages := ((files.filter hasContent).map languageOf).foldl Histogram.bump s.languages
        roles := (files.map fun e => (roleOf e).name).foldl Histogram.bump s.roles } := by
  induction files generalizing s with
  | nil => simp
  | cons e rest ih =>
    have hlanguages : (((e :: rest).filter hasContent).map languageOf).foldl Histogram.bump
        s.languages = ((rest.filter hasContent).map languageOf).foldl Histogram.bump
          (if e.content.isSome then s.languages.bump (languageOf e) else s.languages) := by
      cases hcontent : e.content.isSome with
      | true =>
        have hkept : hasContent e = true := hcontent
        rw [List.filter_cons_of_pos hkept]
        rfl
      | false =>
        rw [List.filter_cons_of_neg (by simp [hasContent, hcontent])]
        rfl
    rw [List.foldl_cons, ih, hlanguages]
    simp only [countFile, List.length_cons, List.map_cons, List.sum_cons, List.foldl_cons,
      Nat.cast_add, Nat.cast_one, Int.add_assoc, Int.add_comm 1, linesOf, languageOf, typeOf,
      roleOf]

theorem ofEntries_eq (entries : List Entry) (records : Table Linkage) :
    let files := entries.filter Entry.isFile
    ofEntries entries records =
      { totalFiles := files.length
        totalLines := (files.map linesOf).sum
        totalSize := (files.map Entry.size).sum
        fileTypes := .ofKeys (files.map typeOf)
        languages := .ofKeys ((files.filter hasContent).map languageOf)
        roles := .ofKeys (files.map fun e => (roleOf e).name)
        dependencies := dependencyCount records
        components := ((files.map fun e => (roleOf e).name).count Role.component.name : Nat)
        services := ((files.map fun e => (roleOf e).name).count Role.service.name : Nat)
        pages := ((files.map fun e => (roleOf e).name).count Role.page.name : Nat) } := by
  simp only [ofEntries, foldl_countFile, Int.zero_add, ← Histogram.getD_ofKeys]
  rfl

structure Same (s t : Statistics) : Prop where
  totalFiles : s.totalFiles = t.totalFiles
  totalLines : s.totalLines = t.totalLines
  totalSize : s.totalSize = t.totalSize
  fileTypes : s.fileTypes.SameMap t.fileTypes
  languages : s.languages.SameMap t.languages
  roles : s.roles.SameMap t.roles
  dependencies : s.dependencies = t.dependencies
  components : s.components = t.components
  services : s.services = t.services
  pages : s.pages = t.pages

private theorem dependencyCount_of_sameMap {records records' : Table Linkage}
    (h : records.SameMap records') : dependencyCount records = dependencyCount records' := by
  have hperm := (h.perm.map Prod.snd).flatMap_right Linkage.dependencies
  rw [dependencyCount, dependencyCount]
  exact congrArg Nat.cast hperm.length_eq

theorem same_of_perm {entries entries' : List Entry} {records records' : Table Linkage}
    (hperm : entries.Perm entries') (hrecords : records.SameMap records') :
    (ofEntries entries records).Same (ofEntries entries' records') := by
  have hfiles := hperm.filter Entry.isFile
  have hroles := hfiles.map fun e => (roleOf e).name
  rw [ofEntries_eq, ofEntries_eq]
  exact {
    totalFiles := congrArg Nat.cast hfiles.length_eq
    totalLines := (hfiles.map linesOf).sum_eq
    totalSize := (hfiles.map Entry.size).sum_eq
    fileTypes := Histogram.sameMap_ofKeys_of_perm (hfiles.map typeOf)
    languages := Histogram.sameMap_ofKeys_of_perm ((hfiles.filter hasContent).map languageOf)
    roles := Histogram.sameMap_ofKeys_of_perm hroles
    dependencies := dependencyCount_of_sameMap hrecords
    components := congrArg Nat.cast (hroles.count_eq _)
    services := congrArg Nat.cast (hroles.count_eq _)
    pages := congrArg Nat.cast (hroles.count_eq _) }

theorem mergeSort_eq_of_sameMap {t u : Histogram} {before : String × Int → String × Int → Bool}
    (htrans : ∀ a b c, before a b = true → before b c = true → before a c = true)
    (htotal : ∀ a b, (before a b || before b a) = true)
    (hkey : ∀ a b, before a b = true → before b a = true → a.1 = b.1) (h : t.SameMap u) :
    t.entries.mergeSort before = u.entries.mergeSort before := by
  have hperm : (t.entries.mergeSort before).Perm (u.entries.mergeSort before) :=
    ((List.mergeSort_perm _ _).trans h.perm).trans (List.mergeSort_perm _ _).symm
  refine hperm.eq_of_pairwise (fun a b ha hb hab hba => ?_)
    (List.pairwise_mergeSort htrans htotal _) (List.pairwise_mergeSort htrans htotal _)
  have ha' : a ∈ t.entries := (List.mergeSort_perm _ _).mem_iff.1 ha
  have hb' : b ∈ t.entries := h.perm.mem_iff.2 ((List.mergeSort_perm _ _).mem_iff.1 hb)
  exact List.inj_on_of_nodup_map t.nodup ha' hb' (hkey a b hab hba)

theorem countBefore_iff {a b : String × Int} :
    countBefore a b = true ↔ b.2 < a.2 ∨ a.2 = b.2 ∧ a.1 ≤ b.1 := by
  simp [countBefore]

private theorem mergeSort_countBefore {t u : Histogram} (h : t.SameMap u) :
    t.entries.mergeSort countBefore = u.entries.mergeSort countBefore := by
  refine mergeSort_eq_of_sameMap (fun a b c hab hbc => ?_) (fun a b => ?_)
    (fun a b hab hba => ?_) h
  · rw [countBefore_iff] at hab hbc ⊢
    rcases hab with hab | ⟨hab, hkey⟩
    · exact .inl (by omega)
    · rcases hbc with hbc | ⟨hbc, hkey'⟩
      · exact .inl (by omega)
      · exact .inr ⟨hab.trans hbc, String.le_trans hkey hkey'⟩
  · rw [Bool.or_eq_true, countBefore_iff, countBefore_iff]
    rcases Int.lt_trichotomy a.2 b.2 with hless | heq | hmore
    · exact .inr (.inl hless)
    · rcases String.le_total a.1 b.1 with hkey | hkey
      · exact .inl (.inr ⟨heq, hkey⟩)
      · exact .inr (.inr ⟨heq.symm, hkey⟩)
    · exact .inl (.inl hmore)
  · rw [countBefore_iff] at hab hba
    rcases hab with hab | ⟨heq, hkey⟩
    · omega
    · rcases hba with hba | ⟨-, hkey'⟩
      · omega
      · exact String.le_antisymm hkey hkey'

private theorem mergeSort_keys {t u : Histogram} (h : t.SameMap u) :
    t.entries.mergeSort (fun a b => decide (a.1 ≤ b.1)) =
      u.entries.mergeSort fun a b => decide (a.1 ≤ b.1) := by
  refine mergeSort_eq_of_sameMap (fun a b c hab hbc => ?_) (fun a b => ?_)
    (fun a b hab hba => ?_) h
  · exact decide_eq_true (String.le_trans (of_decide_eq_true hab) (of_decide_eq_true hbc))
  · simpa using String.le_total a.1 b.1
  · exact String.le_antisymm (of_decide_eq_true hab) (of_decide_eq_true hba)

theorem Same.summary_eq {s t : Statistics} (h : s.Same t) (name : String) :
    summary name s = summary name t := by
  have hlanguages : s.languages.entries.isEmpty = t.languages.entries.isEmpty :=
    h.languages.perm.isEmpty_eq
  have hroles : s.roles.entries.isEmpty = t.roles.entries.isEmpty := h.roles.perm.isEmpty_eq
  simp only [summary, h.totalFiles, h.totalLines, h.totalSize, h.dependencies, hlanguages, hroles,
    mergeSort_countBefore h.languages, mergeSort_keys h.roles]

end CodeAtlas.Statistics
