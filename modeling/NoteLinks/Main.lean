/-
# The program

The program takes from the disk what its command may look at, runs the command on
the tree that this makes, and writes the files that have changed. Everything it
decides is decided by the command; here is only the way to the disk and back.
-/
import NoteLinks.Command.Run
import Std.Time

namespace NoteLinks.Main

/-- The path of a place on the disk. -/
def diskPath (place : Place) : String := String.ofList ('/' :: Text.join ['/'] place)

/-- The tree with something put under a name, unless it has something there. -/
def add (t : Tree) (dir : Place) (name : Text) (e : Entry) : Tree :=
  if (t.find? (dir ++ [name])).isSome then t
  else if h : t.HasRoom dir name then t.put dir name e h
  else t

/-- The bytes of a file on the disk. A file that cannot be read holds no text. -/
def readDisk (place : Place) : IO ByteArray := do
  try IO.FS.readBinFile (diskPath place) catch _ => return ⟨#[0xFF]⟩

/-- The tree with what stands under a name on the disk, if anything. -/
def fetch (t : Tree) (dir : Place) (name : Text) : IO Tree := do
  let path := (← IO.currentDir) / diskPath (dir ++ [name])
  if ← path.isDir then return add t dir name .directory
  else if ← path.pathExists then return add t dir name (.file (← readDisk (dir ++ [name])))
  else return t

/-- The tree with everything below a directory on the disk. -/
partial def fetchBelow (t : Tree) (dir : Place) : IO Tree := do
  let path := (← IO.currentDir) / diskPath dir
  let found ← try path.readDir catch _ => pure #[]
  found.foldlM (fun t entry => do
    let name := entry.fileName.toList
    let t ← fetch t dir name
    if t.isDirectory (dir ++ [name]) then fetchBelow t (dir ++ [name]) else return t) t

/-- The tree with what stands on the way that segments lead from a place, and the
place at its end. -/
def fetchWay (t : Tree) (place : Place) : List Text → IO (Tree × Place)
  | [] => return (t, place)
  | segment :: rest => do
    if segment.isEmpty || segment == ['.'] then fetchWay t place rest
    else if segment == ['.', '.'] then fetchWay t place.dropLast rest
    else fetchWay (← fetch t place segment) (place ++ [segment]) rest

/-- The tree with what a path leads to, and with everything below it. -/
def fetchPath (here : Place) (t : Tree) (path : Text) : IO Tree := do
  let (t, place) ← fetchWay t (Tree.start here path) (Path.segments path)
  if t.isDirectory place then fetchBelow t place else return t

/-- The tree with what a path leads to, but nothing below it. -/
def fetchFile (here : Place) (t : Tree) (path : Text) : IO Tree := do
  return (← fetchWay t (Tree.start here path) (Path.segments path)).1

/-- The vault that a command works on, and the other paths that it names. -/
def pathsOf : Command → Option Text × List Text
  | .analyze vault output => (some vault, [output])
  | .suggest vault analysis output _ => (some vault, [analysis, output])
  | .apply vault suggestions _ => (some vault, [suggestions])
  | .run vault analysis suggestions _ _ => (some vault, [analysis, suggestions])
  | .review suggestions _ _ => (none, [suggestions])

/-- The part of the disk that a command line is about. -/
def fetchFor (ctx : Command.Context) (args : List Text) : IO Tree := do
  let (t, _) ← fetchWay Tree.empty [] ctx.here
  match Command.ofLine? args with
  | some (.command settings command) =>
    let (vault, paths) := pathsOf command
    let t ← (settings.toList ++ ctx.settingsPath.toList ++ paths).foldlM (fetchFile ctx.here) t
    vault.toList.foldlM (fetchPath ctx.here) t
  | _ => return t

/-- Writes the files that differ between two trees. -/
def store (before after : Tree) : IO Unit :=
  after.entries.entries.forM fun (place, e) => do
    match e with
    | .file bytes =>
      if before.find? place ≠ some e then IO.FS.writeBinFile (diskPath place) bytes
    | .directory => pure ()

/-- Prints what is said when a command line makes no sense, or a command fails. -/
def complain : Command.Ending → IO Unit
  | .done => pure ()
  | .misused => IO.eprintln "error: the command line is not understood"
  | .failed f => do
    let lines := f.messages.map String.ofList
    IO.eprintln ("Error: " ++ lines.headD "")
    if 1 < lines.length then
      IO.eprintln "\nCaused by:"
      (lines.drop 1).forM fun line => IO.eprintln ("    " ++ line)

end NoteLinks.Main

open NoteLinks in
/-- Carries out a command line. -/
def main (args : List String) : IO UInt32 := do
  let here := (Path.segments (← IO.currentDir).toString.toList).filter (!·.isEmpty)
  let settingsPath := (← IO.getEnv "VLB_CONFIG").map String.toList
  let stamp := (← Std.Time.PlainDateTime.now).format "uuuuMMdd_HHmmss"
  let ctx : Command.Context := { here, settingsPath, stamp := stamp.toList }
  let args := args.map String.toList
  let tree ← Main.fetchFor ctx args
  let (session, ending) := Command.execute ctx args { tree }
  Main.store tree session.tree
  IO.print (String.ofList session.printed)
  Main.complain ending
  return ending.exitCode.toUInt32
