import JsonExpect.CommandLine.Run
import JsonExpect.Selector.Library
import JsonExpect.Yaml.Library
import Std.Time.DateTime

/-!
# The program

Runs the case files of a folder: takes a picture of the files that the arguments name, does what the
arguments ask for with the libraries of selectors and documents, and shows and writes what comes of
it.
-/

namespace JsonExpect.CommandLine

/-- How the program is called. -/
def usage : String :=
  "usage: jsonexpect [-h] [-r RULES] [-o REPORT] [-p PATTERN] [-q] [-v] cases"

/-- The options, one a line. -/
def optionHelp : String :=
  "\n".intercalate ["Validate folders of expected/actual JSON cases", "",
    "  cases                  folder containing case JSON files",
    "  -h, --help             show this help",
    "  -r, --rules RULES      YAML rule file applied to every case",
    "  -o, --report REPORT    JSON report file to write",
    "  -p, --pattern PATTERN  pattern of the names of case files",
    "  -q, --quiet            show nothing",
    "  -v, --verbose          tell more"]

/-- At least `width` decimal digits. -/
def padded (width : Nat) (n : Int) : String :=
  let ds := toString n.toNat
  "".pushn '0' (width - ds.length) ++ ds

/-- A point in time, in microseconds since 1970, by date and time of day. -/
def timestampText (microseconds : Int) : String :=
  let seconds := microseconds / 1000000
  let date := Std.Time.PlainDate.ofEpochDay (.ofInt (seconds / 86400))
  let fraction := microseconds % 1000000
  padded 4 date.year.toInt ++ "-" ++ padded 2 date.month.val ++ "-" ++ padded 2 date.day.val ++
    "T" ++ padded 2 (seconds / 3600 % 24) ++ ":" ++ padded 2 (seconds / 60 % 60) ++ ":" ++
    padded 2 (seconds % 60) ++ (if fraction = 0 then "" else "." ++ padded 6 fraction) ++ "Z"

/-- The file at a path as an entry of a tree, if it can be read. -/
def pictureFile (path : TreePath) : IO FileTree := do
  try
    let bytes ← IO.FS.readBinFile path.text
    return { files := [(path.target, String.fromUTF8? bytes)] }
  catch _ => return {}

/-- A folder and what is in it, so many levels down. -/
def pictureFolder (depth : Nat) (path : TreePath) : IO FileTree := do
  let here := (← IO.currentDir) / path.text
  if ← here.isDir then
    match depth with
    | 0 => return { folders := [path.target] }
    | depth + 1 =>
      let mut tree : FileTree := { folders := [path.target] }
      for entry in ← here.readDir do
        let inner ← pictureFolder depth (path.child entry.fileName)
        tree := { files := tree.files ++ inner.files, folders := tree.folders ++ inner.folders }
      return tree
  else pictureFile path

/-- What is met on the way along a path. -/
def pictureWay (path : TreePath) : IO FileTree := do
  let here ← IO.currentDir
  let mut tree : FileTree := {}
  for count in [0:path.parts.length] do
    let start : TreePath := { path with parts := path.parts.take count }
    if ← (here / start.text).isDir then
      tree := { tree with folders := start.target :: tree.folders }
    else
      tree := { tree with files := (← pictureFile start).files ++ tree.files }
  return tree

/-- How many levels of a folder a pattern reaches down. -/
def depthOf (pattern : String) : Nat :=
  let parts := (TreePath.ofText pattern).parts
  if "**" ∈ parts then 255 else parts.length

/-- What a run can see of the files. -/
def picture (a : Arguments) : IO FileTree := do
  let folder := TreePath.ofText a.cases
  let others := ((givenPath a.rules).toList ++ (givenPath a.report).toList).map TreePath.ofText
  let cases ← pictureFolder (depthOf (a.pattern.getD "")) folder
  let shown ← others.mapM (pictureFolder 0)
  let ways ← (folder :: others).mapM pictureWay
  let trees := cases :: shown ++ ways
  return { files := trees.flatMap (·.files), folders := trees.flatMap (·.folders) }

/-- Shows what a run has shown and writes the report that it has written. -/
def deliver (done : Transcript) : IO Unit := do
  IO.print done.output
  IO.eprint done.errors
  if let some (path, report) := done.report then
    let now ← Std.Time.Timestamp.now
    IO.FS.writeFile path
      (report.fileText (timestampText (now.toNanosecondsSinceUnixEpoch.toInt / 1000)))

/-- Runs cases, shows what happens and writes the report. -/
def perform (a : Arguments) : IO UInt32 := do
  match (a.run Selector.library Yaml.library isWhole (← picture a)).run {} with
  | .error e done =>
    deliver done
    IO.eprintln e.message
    return 1
  | .ok exitCode done =>
    deliver done
    return exitCode.toUInt32

end JsonExpect.CommandLine

open JsonExpect.CommandLine in
def main (arguments : List String) : IO UInt32 := do
  match Request.ofArguments arguments with
  | .run a => perform a
  | .help =>
    IO.println (usage ++ "\n\n" ++ optionHelp)
    return 0
  | .mistake =>
    IO.eprintln usage
    return 2
