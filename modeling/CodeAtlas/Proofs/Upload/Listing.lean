import CodeAtlas.Proofs.Disk.Links
import CodeAtlas.Proofs.Text.LineEnds
import CodeAtlas.Proofs.Upload.Units

/-! A directory against an upload of its files. The analyses are about the same files at the same
paths. Text from a disk has unified line ends and uploaded text has not, and this is the only thing
that can set the analyses apart. -/
namespace CodeAtlas

/-- An entry with unified line ends. -/
def Entry.unified (e : Entry) : Entry :=
  { e with content := e.content.map fun text => String.ofList (Text.unifyNewlines text.toList) }

private theorem Entry.unified_eq_self {e : Entry} (h : ∀ text ∈ e.content, '\r' ∉ text.toList) :
    e.unified = e := by
  obtain ⟨path, name, kind, extension, size, content, lastModified⟩ := e
  cases content with
  | none => rfl
  | some text =>
    simp only [unified, Option.map_some, Text.unifyNewlines_of_not_mem (h text rfl),
      String.ofList_toList]

namespace Upload

private theorem pathOf_eq_self {name tail : String} (hname : name ≠ "") (hslash : '/' ∉ name.toList)
    (hbackslash : '\\' ∉ (name ++ tail).toList) : pathOf (name ++ tail) = name ++ tail := by
  have hsame : (name ++ tail).toList.map (fun c => if c = '\\' then '/' else c) =
      (name ++ tail).toList := by
    refine (List.map_congr_left fun c hc => if_neg ?_).trans (List.map_id' _)
    rintro rfl
    exact hbackslash hc
  have hfront : (name ++ tail).toList.dropWhile (· == '/') = (name ++ tail).toList := by
    rw [String.toList_append]
    cases htext : name.toList with
    | nil => exact absurd (String.toList_eq_nil_iff.1 htext) hname
    | cons c cs =>
      refine List.dropWhile_cons_of_neg fun hc => hslash ?_
      rw [htext, beq_iff_eq.1 hc]
      exact List.mem_cons_self
  rw [pathOf, hsame, hfront, String.ofList_toList]

private theorem unified_entry {u : Upload} (h : 13 ∉ u.bytes) : u.entry.unified = u.entry := by
  refine Entry.unified_eq_self fun text htext => ?_
  rw [entry] at htext
  split at htext
  · cases htext
  · obtain rfl : Text.decodeUtf8 u.bytes = text := Option.some.inj htext
    rw [Text.decodeUtf8, String.toList_ofList]
    exact Text.not_mem_decodeFrom h

end Upload

namespace Disk

variable {d : Disk} {ignored : List String} {base : Nat} {place : Place} {node : DiskNode}
  {mediaType : Place → String} {places : List Place}

def bytesAt (d : Disk) (place : Place) : List UInt8 :=
  match d.stat place with
  | .ok (.file _ bytes) => bytes
  | _ => []

def uploadAt (d : Disk) (mediaType : Place → String) (base : Nat) (place : Place) : Upload where
  fileName := some (Text.intercalate "/" (place.drop base))
  bytes := d.bytesAt place
  size := some (d.bytesAt place).length
  mediaType := some (mediaType place)

/-- The parts that places are uploaded as; directories are not. -/
def uploadsOf (d : Disk) (mediaType : Place → String) (base : Nat) (places : List Place) :
    List Upload :=
  (places.filter fun place => !d.isDirectory place).map (d.uploadAt mediaType base)

theorem isDirectory_uploadAt (hmedia : mediaType place ≠ "") :
    (d.uploadAt mediaType base place).toCandidate.isDirectory = false :=
  Bool.and_eq_false_iff.2 (.inr (beq_eq_false_iff_ne.2 hmedia))

theorem isSelected_uploadAt (hmedia : mediaType place ≠ "") (hnode : node.isDirectory = false)
    (hpath : (d.uploadAt mediaType base place).path = (d.candidate base place node).path) :
    (d.uploadAt mediaType base place).toCandidate.isSelected =
      (d.candidate base place node).isSelected := by
  have hself : (d.candidate base place node).isDirectory = false := hnode
  have hread : (d.uploadAt mediaType base place).toCandidate.path =
    (d.candidate base place node).path := hpath
  rw [Candidate.isSelected, Candidate.isSelected, isDirectory_uploadAt hmedia, hself, hread]

private theorem unified_uploadAt {entry : Entry} (hmedia : mediaType place ≠ "")
    (hstat : d.stat place = .ok node) (hnode : node.isDirectory = false)
    (hpath : (d.uploadAt mediaType base place).path = (d.candidate base place node).path)
    (hread : (d.candidate base place node).read = .ok entry) :
    (d.uploadAt mediaType base place).entry.unified = Analysis.undated entry := by
  have hread' : (d.uploadAt mediaType base place).toCandidate.path =
    (d.candidate base place node).path := hpath
  cases node with
  | directory name children => cases hnode
  | file name bytes =>
    have hat : d.bytesAt place = bytes := by rw [bytesAt, hstat]
    have hbytes : (d.uploadAt mediaType base place).bytes = bytes := hat
    have hsize : (d.uploadAt mediaType base place).size = some (bytes.length : Int) :=
      congrArg (fun bytes : List UInt8 => some (bytes.length : Int)) hat
    obtain rfl : _ = entry := Except.ok.inj hread
    rw [Upload.entry, isDirectory_uploadAt hmedia, if_neg Bool.false_ne_true, hbytes, hsize]
    simp only [Entry.unified, Candidate.toEntry, isDirectory_uploadAt hmedia, hread',
      Option.map_some, Text.decodeUtf8, String.toList_ofList]
    rfl
  | _ => cases hread

theorem uploadsOf_cons_directory (hdirectory : d.isDirectory place = true) :
    d.uploadsOf mediaType base (place :: places) = d.uploadsOf mediaType base places := by
  rw [uploadsOf, List.filter_cons_of_neg (by simp [hdirectory])]
  rfl

theorem uploadsOf_cons (hfile : d.isDirectory place = false) :
    d.uploadsOf mediaType base (place :: places) =
      d.uploadAt mediaType base place :: d.uploadsOf mediaType base places := by
  rw [uploadsOf, List.filter_cons_of_pos (by simp [hfile])]
  rfl

def KeepsNames (uploads : List Upload) : Prop :=
  ∀ u ∈ uploads, u.isNamed = true ∧ u.path = u.fileName.getD ""

theorem Gathers.uploads {entries : List Entry} (h : d.Gathers base places entries)
    (hmedia : ∀ place, mediaType place ≠ "")
    (hnames : KeepsNames (d.uploadsOf mediaType base places)) :
    (Upload.selected (d.uploadsOf mediaType base places)).map (·.entry.unified) =
      Analysis.essentials entries := by
  induction h with
  | nil => rfl
  | @selected place places node entry entries stat selected read rest ih =>
    have hdirectory : d.isDirectory place = node.isDirectory := by rw [isDirectory, stat]
    have hfile : entry.isFile = !node.isDirectory := Candidate.isFile_of_read read
    cases hnode : node.isDirectory with
    | true =>
      rw [uploadsOf_cons_directory (hdirectory.trans hnode)] at hnames ⊢
      rw [Analysis.essentials, List.filter_cons_of_neg (by simp [hfile, hnode])]
      exact ih hnames
    | false =>
      rw [uploadsOf_cons (hdirectory.trans hnode)] at hnames ⊢
      obtain ⟨⟨hnamed, hpath⟩, hlater⟩ := List.forall_mem_cons.1 hnames
      have hshown := isSelected_uploadAt (hmedia place) hnode hpath
      rw [Analysis.essentials, List.filter_cons_of_pos (by simp [hfile, hnode]), List.map_cons,
        ← unified_uploadAt (hmedia place) stat hnode hpath read, Upload.selected,
        List.filter_cons_of_pos (by rw [hnamed, hshown, selected]; rfl), List.map_cons]
      exact congrArg _ (ih hlater)
  | @passed place places node entries stat passed rest ih =>
    have hdirectory : d.isDirectory place = node.isDirectory := by rw [isDirectory, stat]
    have hnode : node.isDirectory = false := (Bool.or_eq_false_iff.1 passed).1
    rw [uploadsOf_cons (hdirectory.trans hnode)] at hnames ⊢
    obtain ⟨⟨hnamed, hpath⟩, hlater⟩ := List.forall_mem_cons.1 hnames
    have hshown := isSelected_uploadAt (hmedia place) hnode hpath
    rw [Upload.selected, List.filter_cons_of_neg (by rw [hnamed, hshown, passed]; simp)]
    exact ih hlater

private theorem Gathers.fileNames (mediaType : Place → String) {entries : List Entry}
    (h : d.Gathers base places entries) :
    (d.uploadsOf mediaType base places).map (·.fileName.getD "") =
      ((d.candidatesOf base places).candidates.filter fun c => !c.isDirectory).map
        Candidate.path := by
  have hstep {place places node} (stat : d.stat place = .ok node)
      (ih : (d.uploadsOf mediaType base places).map (·.fileName.getD "") =
        ((d.candidatesOf base places).candidates.filter fun c => !c.isDirectory).map
          Candidate.path) :
      (d.uploadsOf mediaType base (place :: places)).map (·.fileName.getD "") =
        ((d.candidatesOf base (place :: places)).candidates.filter fun c => !c.isDirectory).map
          Candidate.path := by
    have hdirectory : d.isDirectory place = node.isDirectory := by rw [isDirectory, stat]
    have hself : (d.candidate base place node).isDirectory = node.isDirectory := rfl
    simp only [candidatesOf, stat]
    cases hnode : node.isDirectory with
    | true =>
      rw [uploadsOf_cons_directory (hdirectory.trans hnode), ih,
        List.filter_cons_of_neg (by simp [hself, hnode])]
    | false =>
      rw [uploadsOf_cons (hdirectory.trans hnode), List.filter_cons_of_pos (by simp [hself, hnode]),
        List.map_cons, List.map_cons, ih]
      rfl
  induction h with
  | nil => rfl
  | selected stat selected read rest ih => exact hstep stat ih
  | passed stat passed rest ih => exact hstep stat ih

private theorem exists_path_of_below {last : String} {raw : DiskNode} {p : Place}
    (h : d.Below ignored (place ++ [last]) node p raw) :
    ∃ tail, Text.intercalate "/" (p.drop place.length) = last ++ tail := by
  obtain ⟨name, rest, rfl⟩ := h.exists_rest
  rw [List.append_assoc, List.drop_left, List.singleton_append, Text.intercalate,
    String.append_assoc]
  exact ⟨_, rfl⟩

private theorem Lies.keepsNames {last above : String}
    (h : d.Lies place.length (place ++ [last]) above node)
    (hbackslash : ∀ u ∈ d.uploadsOf mediaType place.length
      (d.placesBelow ignored (place ++ [last]) node), '\\' ∉ (u.fileName.getD "").toList) :
    KeepsNames (d.uploadsOf mediaType place.length
      (d.placesBelow ignored (place ++ [last]) node)) := by
  intro u hu
  have hkept := hbackslash u hu
  obtain ⟨p, hp, rfl⟩ := List.mem_map.1 hu
  have hholds : d.Holds (place ++ [last]) node := ⟨h.plain.proper, h.straight, h.here⟩
  obtain ⟨raw, hbelow⟩ := hholds.mem_placesBelow_iff.1 (List.mem_filter.1 hp).1
  obtain ⟨tail, htail⟩ := exists_path_of_below hbelow
  have hlast : node.name = last := name_of_node?_concat h.here
  have hname : last ≠ "" := hlast ▸ h.plain.ordinary.1
  have hslash : '/' ∉ last.toList := hlast ▸ h.plain.slash
  have hfileName : (d.uploadAt mediaType place.length p).fileName.getD "" = last ++ tail := htail
  rw [hfileName] at hkept
  rw [Upload.isNamed, Upload.path, hfileName, Upload.pathOf_eq_self hname hslash hkept]
  refine ⟨bne_iff_ne.2 fun hempty => hname ?_, rfl⟩
  exact (String.append_eq_empty_iff.1 hempty).1

section Listing

variable {path : String} (hresolve : d.resolve path = .ok place)
  (hnode : d.node? place = some node) (hplain : node.Plain)

include hresolve hnode hplain

private theorem keepsNames_of_resolve
    (hbackslash : ∀ u ∈ d.uploadsOf mediaType (place.length - 1) (d.placesBelow ignored place node),
      '\\' ∉ (u.fileName.getD "").toList) :
    KeepsNames (d.uploadsOf mediaType (place.length - 1) (d.placesBelow ignored place node)) := by
  have hlies := lies_of_resolve hresolve hnode hplain
  rcases List.eq_nil_or_concat place with rfl | ⟨parent, last, rfl⟩
  · cases hlies.base_lt
  · have hlength : (parent ++ [last]).length - 1 = parent.length := by
      rw [List.length_append, List.length_singleton, Nat.add_sub_cancel]
    rw [List.concat_eq_append, hlength] at hlies hbackslash ⊢
    exact hlies.keepsNames hbackslash

private theorem exists_gathers_list (ignored : List String) (hnull : '\x00' ∉ path.toList)
    (hdirectory : node.isDirectory = true) :
    d.list ignored path =
      d.candidatesOf (place.length - 1) (place :: d.placesBelow ignored place node) ∧
    ∃ entries, d.Gathers (place.length - 1) (place :: d.placesBelow ignored place node)
      entries := by
  have hlies := lies_of_resolve hresolve hnode hplain
  have hholds := holds_of_resolve hresolve hnode hplain.proper
  constructor
  · simp only [hholds.list hnull hresolve hdirectory, candidatesOf, hlies.stat]
  · exact ⟨_, (hlies.gathers_self (by rw [hdirectory, Bool.true_or])).append
      (hlies.gathers_placesBelow ignored)⟩

end Listing

/-- The analysis of a plain directory is that of an upload of its files, in the order of the listing
and under the same paths, with the line ends unified. It is the analysis of the upload as it is if
there are no carriage returns in it. -/
theorem uploads_of_listing (ignored : List String) {path : String} {name name' : Option String}
    {limit limit' : Nat}
    (hnull : '\x00' ∉ path.toList) (hresolve : d.resolve path = .ok place)
    (hnode : d.node? place = some node) (hdirectory : node.isDirectory = true)
    (hplain : node.Plain)
    (hbackslash : ∀ c ∈ (d.list ignored path).candidates, '\\' ∉ c.path.toList)
    (hmedia : ∀ place, mediaType place ≠ "") :
    let listing := d.list ignored path
    let uploads := d.uploadsOf mediaType (place.length - 1) (d.placesBelow ignored place node)
    uploads.map Upload.path =
      (listing.candidates.filter fun c => !c.isDirectory).map Candidate.path ∧
    ∃ fromDisk fromForm unified,
      (Project.analyze listing.candidates name .lexical limit).2 = .ok fromDisk ∧
      (Project.analyze (Upload.candidates uploads) name' .lexical limit').2 = .ok fromForm ∧
      Analysis.ofEntries fromForm.name ((Upload.selected uploads).map (·.entry.unified)) .lexical =
        .ok unified ∧
      fromDisk.Agrees unified ∧ ((∀ u ∈ uploads, 13 ∉ u.bytes) → fromDisk.Agrees fromForm) := by
  intro listing uploads
  obtain ⟨hlisting, entries, hgathers⟩ :=
    exists_gathers_list hresolve hnode hplain ignored hnull hdirectory
  have hroot : d.isDirectory place = true :=
    (holds_of_resolve hresolve hnode hplain.proper).isDirectory hdirectory
  -- The directory itself is no part of the upload.
  have huploads : d.uploadsOf mediaType (place.length - 1)
      (place :: d.placesBelow ignored place node) = uploads := uploadsOf_cons_directory hroot
  have hfileNames := hgathers.fileNames mediaType
  rw [huploads, ← hlisting] at hfileNames
  have hkeeps : KeepsNames uploads := by
    refine keepsNames_of_resolve hresolve hnode hplain fun u hu => ?_
    have hfileName : u.fileName.getD "" ∈ uploads.map (·.fileName.getD "") :=
      List.mem_map_of_mem hu
    rw [hfileNames] at hfileName
    obtain ⟨c, hc, hpath⟩ := List.mem_map.1 hfileName
    exact hpath ▸ hbackslash c (List.mem_filter.1 hc).1
  have hpaths : uploads.map Upload.path = uploads.map (·.fileName.getD "") :=
    List.map_congr_left fun u hu => (hkeeps u hu).2
  have hread : (listing.candidates.filter Candidate.isSelected).map Candidate.read =
      entries.map .ok := by
    obtain ⟨candidates, hcandidates, hcollect⟩ := hgathers.read
    rw [show listing = _ from hlisting, hcandidates]
    exact Reading.collect_eq_ok_iff.1 hcollect
  have hessentials : Analysis.essentials ((Upload.selected uploads).map (·.entry.unified)) =
      Analysis.essentials entries := by
    have hunified := hgathers.uploads hmedia (huploads ▸ hkeeps)
    rw [huploads] at hunified
    rw [hunified, Analysis.essentials_essentials]
  obtain ⟨fromDisk, hfromDisk, hdisk⟩ := Project.exists_analyze_lexical hread name limit
  obtain ⟨fromForm, hfromForm, hform⟩ :=
    Project.exists_analyze_lexical (Upload.map_read_candidates uploads) name' limit'
  obtain ⟨unified, hunified⟩ := Analysis.exists_ofEntries_lexical fromForm.name
    ((Upload.selected uploads).map (·.entry.unified))
  refine ⟨hpaths.trans hfileNames, fromDisk, fromForm, unified, hfromDisk, hfromForm, hunified,
    Analysis.agrees_of_essentials hessentials.symm hdisk hunified, fun hreturns => ?_⟩
  have hsame : (Upload.selected uploads).map (·.entry.unified) =
      (Upload.selected uploads).map Upload.entry :=
    List.map_congr_left fun u hu => Upload.unified_entry (hreturns u (List.mem_filter.1 hu).1)
  rw [hsame] at hessentials
  exact Analysis.agrees_of_essentials hessentials.symm hdisk hform

/-- Two files without carriage returns. -/
def tidy : DiskNode :=
  .directory "app" [.file "b.ts" [0x78], .directory "lib" [.file "a.py" [0x79, 0x0a]]]

theorem uploads_of_tidy :
    let disk : Disk := ⟨[tidy], none, []⟩
    let uploads := disk.uploadsOf (fun _ => "text/plain") 0 (disk.placesBelow [] ["app"] tidy)
    uploads.map Upload.path = ["app/b.ts", "app/lib/a.py"] ∧ ∃ fromDisk fromForm,
      (Project.analyze (disk.list [] "/app").candidates none .lexical 6).2 = .ok fromDisk ∧
      (Project.analyze (Upload.candidates uploads) none .lexical 6).2 = .ok fromForm ∧
      fromDisk.Agrees fromForm := by
  intro disk uploads
  have hpaths : (disk.list [] "/app").candidates.map Candidate.path =
      ["app", "app/lib", "app/b.ts", "app/lib/a.py"] := by cbv
  have hbackslash : ∀ c ∈ (disk.list [] "/app").candidates, '\\' ∉ c.path.toList := by
    have hall : ∀ path ∈ ["app", "app/lib", "app/b.ts", "app/lib/a.py"], '\\' ∉ path.toList := by
      decide
    exact fun c hc => hall c.path (hpaths ▸ List.mem_map_of_mem hc)
  have huploads : uploads = [⟨some "app/b.ts", [0x78], some 1, some "text/plain"⟩,
      ⟨some "app/lib/a.py", [0x79, 0x0a], some 2, some "text/plain"⟩] := by
    unfold uploads
    cbv
  have hreturns : ∀ u ∈ uploads, 13 ∉ u.bytes := by
    rw [huploads]
    decide
  obtain ⟨-, fromDisk, fromForm, -, hdisk, hform, -, -, hagree⟩ :=
    uploads_of_listing [] (by decide) (by cbv) rfl rfl (by decide) hbackslash
      fun _ => (by decide : "text/plain" ≠ "")
  refine ⟨?_, fromDisk, fromForm, hdisk, hform, hagree hreturns⟩
  rw [huploads]
  decide

/-- A file with an import that goes over a carriage return. -/
def returning : DiskNode :=
  .directory "app" [.file "main.ts" [0x69, 0x6d, 0x70, 0x6f, 0x72, 0x74, 0x20, 0x7b, 0x0d, 0x61,
    0x7d, 0x20, 0x66, 0x72, 0x6f, 0x6d, 0x20, 0x27, 0x62, 0x27]]

theorem uploads_of_returning :
    let disk : Disk := ⟨[returning], none, []⟩
    let uploads := disk.uploadsOf (fun _ => "text/plain") 0 (disk.placesBelow [] ["app"] returning)
    ∃ fromDisk fromForm,
      (Project.analyze (disk.list [] "/app").candidates none .lexical 6).2 = .ok fromDisk ∧
      (Project.analyze (Upload.candidates uploads) none .lexical 6).2 = .ok fromForm ∧
      fromDisk.statistics.dependencies = 0 ∧ fromForm.statistics.dependencies = 1 := by
  intro disk uploads
  let bytes : List UInt8 := [0x69, 0x6d, 0x70, 0x6f, 0x72, 0x74, 0x20, 0x7b, 0x0d, 0x61, 0x7d,
    0x20, 0x66, 0x72, 0x6f, 0x6d, 0x20, 0x27, 0x62, 0x27]
  have hcandidates : (disk.list [] "/app").candidates = [disk.candidate 0 ["app"] returning,
      disk.candidate 0 ["app", "main.ts"] (.file "main.ts" bytes)] := by cbv
  have huploads : uploads = [⟨some "app/main.ts", bytes, some 20, some "text/plain"⟩] := by
    unfold uploads
    cbv
  have hdisk : (Project.analyze (disk.list [] "/app").candidates none .lexical 6).2.toOption.map
      (·.statistics.dependencies) = some 0 := by
    rw [hcandidates]
    decide +kernel
  have hform : (Project.analyze (Upload.candidates uploads) none .lexical 6).2.toOption.map
      (·.statistics.dependencies) = some 1 := by
    rw [huploads]
    decide +kernel
  obtain ⟨fromDisk, hfromDisk, hnone⟩ := exists_ok_of_map_toOption hdisk
  obtain ⟨fromForm, hfromForm, hone⟩ := exists_ok_of_map_toOption hform
  exact ⟨fromDisk, fromForm, hfromDisk, hfromForm, hnone, hone⟩

end Disk

end CodeAtlas
