import CodeAtlas.CommandLine.Run

/-!
The command line program. The names of the files to look at come on standard input, one a line, as
paths below the working directory; a name that ends in a slash stands for a directory.
-/
namespace CodeAtlas

def settingNames : List String := [
  "ARCHMAP_LOG_LEVEL", "ARCHMAP_LOG_DIR", "ARCHMAP_MAX_CONCURRENT_READS", "ARCHMAP_IGNORE_DIRS",
  "ARCHMAP_CANVAS_WIDTH", "ARCHMAP_CANVAS_HEIGHT", "ARCHMAP_LINK_DISTANCE",
  "ARCHMAP_CHARGE_STRENGTH", "ARCHMAP_COLLIDE_RADIUS", "ARCHMAP_TICK_INTERVAL",
  "ARCHMAP_MAX_TICKS"]

def readEnvironment : IO Environment :=
  settingNames.filterMapM fun name => do
    return (← IO.getEnv name).map fun value => (name, value)

partial def readDisk (input : IO.FS.Stream) (disk : Disk) : IO Disk := do
  let line ← input.getLine
  if line.isEmpty then return disk
  let path := Text.strip line
  if path.isEmpty then readDisk input disk
  else if path.endsWith "/" then readDisk input (disk.putDirectory path)
  else
    let bytes ← IO.FS.readBinFile path
    readDisk input (disk.putFile path bytes.toList)

def conclude (ending : CommandLine.Ending) : UInt32 × String :=
  match ending with
  | .done => (0, "")
  | .stopped .help => (0, "usage: analyze PATH | render PATH | serve\n")
  | .stopped .usage => (2, "usage: analyze PATH | render PATH | serve\n")
  | .misconfigured e => (2, "Configuration error: " ++ e.message ++ "\n")
  | .notDirectory path => (1, "Not a directory: " ++ path ++ "\n")
  | .unreadable => (1, "")
  | .crashed c => (1, c.message ++ "\n")

end CodeAtlas

open CodeAtlas in
def main (words : List String) : IO UInt32 := do
  match Settings.ofEnvironment (← readEnvironment) with
  | .error e =>
    IO.eprintln e.message
    return 1
  | .ok settings =>
    let disk ← readDisk (← IO.getStdin) ⟨[.directory "work" []], none, ["work"]⟩
    let report := CommandLine.run settings "archmap.log" disk words
    for line in report.journal do
      IO.eprint (line.render (toString (← IO.monoMsNow)))
    IO.print report.output
    if let some file := report.written then
      IO.FS.writeFile file.path file.text
    if let some s := report.serving then
      IO.eprintln ("to be served: " ++ s.app ++ " at " ++ s.host.getD "" ++ ":" ++
        ((s.port.map toString).getD ""))
    let (code, text) := conclude report.ending
    IO.eprint text
    return code
