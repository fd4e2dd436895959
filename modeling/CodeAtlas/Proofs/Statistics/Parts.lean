import CodeAtlas.Proofs.Analysis.Counts

/-! The statistics of a project from those of its parts. Whatever is counted over two lists of
entries is counted over one and over the other, and every histogram adds up to the number of the
entries that it was asked about. -/
namespace CodeAtlas.Statistics

variable {entries first second : List Entry} {records : Table Linkage}

/-- Statistics that add up from those of two parts of one project. The dependencies are those of the
project, whichever part is looked at. -/
structure IsSum (whole first second : Statistics) : Prop where
  totalFiles : whole.totalFiles = first.totalFiles + second.totalFiles
  totalLines : whole.totalLines = first.totalLines + second.totalLines
  totalSize : whole.totalSize = first.totalSize + second.totalSize
  fileTypes : whole.fileTypes.IsSum first.fileTypes second.fileTypes
  languages : whole.languages.IsSum first.languages second.languages
  roles : whole.roles.IsSum first.roles second.roles
  dependencies : whole.dependencies = first.dependencies ∧ whole.dependencies = second.dependencies
  components : whole.components = first.components + second.components
  services : whole.services = first.services + second.services
  pages : whole.pages = first.pages + second.pages

private theorem isSum_ofEntries_append (first second : List Entry) (records : Table Linkage) :
    (ofEntries (first ++ second) records).IsSum (ofEntries first records)
      (ofEntries second records) := by
  simp only [ofEntries_eq, List.filter_append, List.map_append]
  constructor
  case totalFiles => simp
  case totalLines => simp
  case totalSize => simp
  case fileTypes => exact Histogram.isSum_ofKeys_append _ _
  case languages => exact Histogram.isSum_ofKeys_append _ _
  case roles => exact Histogram.isSum_ofKeys_append _ _
  case dependencies => exact ⟨rfl, rfl⟩
  case components => simp
  case services => simp
  case pages => simp

private theorem ofEntries_filter_not_isDirectory (entries : List Entry) (records : Table Linkage) :
    ofEntries (entries.filter fun e => !e.isDirectory) records = ofEntries entries records := by
  have hfiles : (entries.filter fun e => !e.isDirectory).filter Entry.isFile =
      entries.filter Entry.isFile := by
    rw [List.filter_filter]
    apply List.filter_congr
    intro e _
    cases hkind : e.kind <;> simp [Entry.isFile, Entry.isDirectory, hkind]
  rw [ofEntries, ofEntries, hfiles]

private theorem sum_values_languages : (ofEntries entries records).languages.values.sum =
    entries.countP fun e => e.isFile && e.content.isSome := by
  rw [ofEntries_eq, Histogram.sum_values_ofKeys, List.length_map, ← List.countP_eq_length_filter,
    List.countP_filter]
  apply congrArg Nat.cast
  apply List.countP_congr
  intro e _
  rw [hasContent, Bool.and_comm]

private theorem countP_role_add_le (files : List Entry) :
    (files.countP fun e => roleOf e = .component) + (files.countP fun e => roleOf e = .service) +
      (files.countP fun e => roleOf e = .page) ≤ files.length := by
  induction files with
  | nil => simp
  | cons e rest ih =>
    simp only [List.countP_cons, List.length_cons]
    cases roleOf e <;> simp <;> omega

/-- Statistics add up over the parts of a project: totals and counts are sums, and each histogram
has the keys of the first part and then the others of the second. Directories count for nothing.
Each file has one type and one role, each file with content one language, no key is listed that was
not counted, and no file is counted as a component, a service and a page at once. -/
theorem sums_over_parts (records : Table Linkage) :
    (∀ first second : List Entry, (ofEntries (first ++ second) records).IsSum
      (ofEntries first records) (ofEntries second records)) ∧
    (∀ entries : List Entry,
      ofEntries (entries.filter fun e => !e.isDirectory) records = ofEntries entries records) ∧
    ∀ entries : List Entry, let statistics := ofEntries entries records
      statistics.fileTypes.values.sum = statistics.totalFiles ∧
      statistics.roles.values.sum = statistics.totalFiles ∧
      statistics.languages.values.sum = (entries.countP fun e => e.isFile && e.content.isSome) ∧
      (∀ count ∈ statistics.fileTypes.values ++ statistics.languages.values ++
        statistics.roles.values, 1 ≤ count) ∧
      statistics.components + statistics.services + statistics.pages ≤ statistics.totalFiles := by
  refine ⟨fun first second => isSum_ofEntries_append first second records,
    fun entries => ofEntries_filter_not_isDirectory entries records, fun entries => ?_⟩
  intro statistics
  have hfiles : statistics.totalFiles = (entries.filter Entry.isFile).length := by
    simp only [statistics, ofEntries_eq]
  refine ⟨?types, ?roles, sum_values_languages, ?counted, ?parts⟩
  case types =>
    rw [hfiles]
    simp only [statistics, ofEntries_eq, Histogram.sum_values_ofKeys, List.length_map]
  case roles =>
    rw [hfiles]
    simp only [statistics, ofEntries_eq, Histogram.sum_values_ofKeys, List.length_map]
  case counted =>
    intro count hcount
    simp only [statistics, ofEntries_eq, List.mem_append] at hcount
    obtain (htypes | hlanguages) | hroles := hcount
    · exact Histogram.one_le_of_mem_values_ofKeys htypes
    · exact Histogram.one_le_of_mem_values_ofKeys hlanguages
    · exact Histogram.one_le_of_mem_values_ofKeys hroles
  case parts =>
    have hparts := countP_role_add_le (entries.filter Entry.isFile)
    have hcount (role : Role) : statistics.roles.getD role.name 0 =
        (entries.filter Entry.isFile).countP fun e => roleOf e = role := getD_roles role
    have hcomponents : statistics.components = _ := hcount .component
    have hservices : statistics.services = _ := hcount .service
    have hpages : statistics.pages = _ := hcount .page
    rw [hcomponents, hservices, hpages, hfiles]
    exact_mod_cast hparts

end CodeAtlas.Statistics
