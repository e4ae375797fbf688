import LiveState.Program
import LiveState.Storage.Image

/-!
# The command line

Runs the program on the words of its command line: reads its environment and the files on the way
to its settings, does what it plans, and writes back the directories and databases it has made.
-/

namespace LiveState.Program

def surroundings : IO Surroundings := do
  let home ← IO.getEnv "HOME"
  let configHome ← IO.getEnv "XDG_CONFIG_HOME"
  let settingsFile ← IO.getEnv "SEEK_SETTINGS"
  let logFilter ← IO.getEnv "RUST_LOG"
  return ⟨⟨home.getD "", configHome, settingsFile⟩, logFilter⟩

def writtenPath (l : Location) : String := "/" ++ "/".intercalate l

def nodeAt (l : Location) : IO (Option Node) := do
  try
    let found ← IO.FS.realPath (writtenPath l)
    if ← found.isDir then return some .directory
    return some (.ofBytes (← IO.FS.readBinFile found))
  catch _ => return none

/-- The files on the way to a path. -/
def filesAround (path : String) : IO FileTree := do
  let cwd := Location.parts (← IO.FS.realPath ".").toString
  let mut files := FileTree.empty cwd
  for l in Location.passed (Location.origin cwd path) (Location.parts path) do
    if let some node ← nodeAt l then files := files.put l node
  return files

/-- Write back what a run may have changed. -/
def writeBack (files : FileTree) : IO Unit := do
  for ((_, l), node) in files.nodes.entries do
    match node with
    | .directory => IO.FS.createDirAll (writtenPath l)
    | .database table => IO.FS.writeBinFile (writtenPath l) (Node.tableBytes table)
    | .file _ | .foreignDatabase => pure ()

def report (result : Result) : IO UInt32 := do
  for line in result.log do IO.eprintln line
  let output ← IO.getStdout
  output.write result.output
  output.flush
  return UInt32.ofNat result.exitCode

end LiveState.Program

open LiveState.Program in
def main (args : List String) : IO UInt32 := do
  match plan args (← surroundings) with
  | .error result => report result
  | .ok p =>
    let (result, files) := p.execute (← filesAround p.config.settingsPath)
    writeBack files
    report result
