import CodeAtlas.Analysis.Document
import CodeAtlas.CommandLine.Command
import CodeAtlas.Disk.Edit
import CodeAtlas.Disk.Listing
import CodeAtlas.Journal
import CodeAtlas.Project
import CodeAtlas.Random.Twister
import CodeAtlas.Svg.Drawing

/-!
Carrying out a command line on a disk. Nothing is printed or written here: a report says what is to
be printed, what the journal holds, and what the disk looks like afterwards.
-/
namespace CodeAtlas.CommandLine

inductive Crash where
  | disk (error : DiskError)
  | listing (error : Disk.ListingError)
  | project (error : ProjectError)
  | diagram (error : DiagramError)
  | drawing (error : Svg.DrawingError)
  | deepDocument
  /-- The value of `--mode` is needed and was taken away; the next two are alike. -/
  | noViewMode
  | noTickLimit
  | noOutput

def Crash.message : Crash → String
  | disk e => e.message
  | listing e => e.message
  | project e => e.message
  | diagram e => e.message
  | drawing e => e.message
  | deepDocument => "Error serializing to JSON: ValueError: Maximum serialization depth exceeded"
  | noViewMode => "[] is not a valid ViewMode"
  | noTickLimit => "'list' object cannot be interpreted as an integer"
  | noOutput => "expected str, bytes or os.PathLike object, not list"

inductive Ending where
  | done
  | stopped (stop : Stop)
  | misconfigured (error : SettingsError)
  | notDirectory (path : String)
  | unreadable
  | crashed (crash : Crash)

structure Serving where
  app : String
  host : Option String
  port : Option Int
  reload : Bool

structure Written where
  path : String
  text : String

structure Report where
  ending : Ending
  output : String := ""
  journal : List JournalLine := []
  disk : Disk
  serving : Option Serving := none
  written : Option Written := none

/-- What goes on while a command is carried out: the journal so far and the disk. -/
structure Work where
  journal : List JournalLine := []
  disk : Disk

namespace Work

def note (w : Work) (journal level message : String) : Work :=
  { w with journal := w.journal ++ [⟨journal, level, message⟩] }

def stop (w : Work) (ending : Ending) : Report := { ending, journal := w.journal, disk := w.disk }

end Work

def analyzeDirectory (settings : Settings) (w : Work) (path : String) :
    Except Report (Work × Analysis) :=
  let root := w.disk.rooted path
  if !w.disk.isDirectory (w.disk.placeOf path) then .error (w.stop (.notDirectory root)) else
  let listing := w.disk.list settings.ignoreDirs root
  let w := listing.skipped.foldl
    (fun w path => w.note "archmap.sources" "WARNING" ("Skipping unreadable entry " ++ path)) w
  match listing.error with
  | some e => .error (w.stop (.crashed (.listing e)))
  | none =>
    let candidates := listing.candidates
    let w := w.note "archmap.sources" "DEBUG" ("Scanned " ++ toString candidates.length ++
      " entries under " ++ w.disk.canonicalPath root)
    let skipped := Project.skippedCount candidates
    let w := if skipped = 0 then w else
      w.note "archmap.pipeline" "DEBUG" ("Skipping " ++ toString skipped ++ " unsupported files")
    match (Project.analyze candidates none .lexical settings.maxConcurrentReads).2 with
    | .error (.read failure) =>
      .error ((w.note "archmap.cli" "ERROR" failure.message).stop .unreadable)
    | .error e => .error (w.stop (.crashed (.project e)))
    | .ok a =>
      .ok (w.note "archmap.pipeline" "INFO" ("Analyzed " ++ a.name ++ ": " ++
        toString a.statistics.totalFiles ++ " files, " ++ toString a.architecture.length ++
        " architecture nodes, " ++ toString a.dependencies.entries.length ++
        " dependency records"), a)

def runAnalyze (settings : Settings) (w : Work) (o : AnalyzeOptions) : Except Report Report := do
  let (w, a) ← analyzeDirectory settings w o.path
  match if o.summary then some (a.statistics.summary a.name) else a.document? with
  | some text => return { w.stop .done with output := text ++ "\n" }
  | none => .error (w.stop (.crashed .deepDocument))

def runRender (settings : Settings) (w : Work) (o : RenderOptions) : Except Report Report := do
  let (w, a) ← analyzeDirectory settings w o.path
  let crash {β : Type} (w : Work) (c : Crash) : Except Report β := .error (w.stop (.crashed c))
  let some mode := o.mode | crash w .noViewMode
  match Diagram.create settings.diagramOptions a.architecture o.width o.height mode
      (Twister.ofSeed 0) with
  | .error e => crash w (.diagram e)
  | .ok d =>
    let w := w.note "archmap.diagram" "DEBUG" ("Diagram rebuilt: " ++ toString d.source.length ++
      " nodes, " ++ toString d.edges.length ++ " links (" ++ d.mode.name ++ ")")
    let some maxTicks := o.maxTicks | crash w .noTickLimit
    match d.settle (d.limitOf (some maxTicks)) with
    | (_, .error e) => crash w (.diagram e)
    | (d, .ok _) =>
      let some output := o.output | crash w .noOutput
      match Svg.draw d.scene with
      | .error e => crash w (.drawing e)
      | .ok text =>
        match w.disk.writeFile output text.toUTF8.toList with
        | .error e => crash w (.disk e)
        | .ok disk =>
          let w := { w with disk }.note "archmap.cli" "INFO" ("Wrote " ++
            toString d.source.length ++ " nodes and " ++ toString d.edges.length ++ " links to " ++
            output)
          return { w.stop .done with written := some ⟨output, text⟩ }

def runServe (w : Work) (o : ServeOptions) : Report :=
  { w.stop .done with serving := some ⟨"web.app:app", o.host, o.port, o.reload⟩ }

def runCommand (settings : Settings) (w : Work) (command : Command) : Report :=
  let report := match command with
    | .analyze o => runAnalyze settings w o
    | .render o => runRender settings w o
    | .serve o => .ok (runServe w o)
  match report with
  | .ok r => r
  | .error r => r

/-- Carries out a command line; a journal file gets the given name. The journal of the report holds
the lines that are written at the level in force. -/
def run (settings : Settings) (journalFile : String) (disk : Disk) (words : List String) :
    Report :=
  let w : Work := { disk }
  match parse settings words with
  | .error stop => w.stop (.stopped stop)
  | .ok ⟨_, none⟩ => w.stop (.stopped .usage)
  | .ok ⟨verbose, some command⟩ =>
    match settings.validate with
    | .error e => w.stop (.misconfigured e)
    | .ok _ =>
      let level : Journal.Level := .named (if verbose then "DEBUG" else settings.logLevel)
      match ({} : Journal).setup level true settings.logDir disk
          (Journal.openDirectory journalFile) with
      | (_, _, .error (.directory e)) => w.stop (.crashed (.disk e))
      | (_, _, .error _) => w.stop (.stopped .usage)
      | (journal, disk, .ok _) =>
        let report := runCommand settings { disk } command
        { report with journal := report.journal.filter (JournalLine.reaches journal.level) }

end CodeAtlas.CommandLine
