import SigningProxy.Program.Startup

/-!
# The command line

What the start of the program looks at on disk is the file of its settings and the directories
around it. They are looked at before the start, and what has come to them by the start is put on
disk after it. A program that serves goes on until its input ends.
-/

namespace SigningProxy

/-- A file can be read to its end, and a directory only opened. -/
def nodeOf (handle : IO.FS.Handle) : IO Node := do
  try return .file (← handle.readBinToEnd).toList
  catch _ => return .directory []

/-- What is on disk at a path. -/
def onDisk (path : String) : IO (Option Node) := do
  try return some (← nodeOf (← IO.FS.Handle.mk path .read))
  catch _ => return none

/-- What is on disk along a path. -/
def lookAt (path : String) : IO FileTree := do
  let mut files := FileTree.empty
  for index in Path.places path do
    let segment := Path.upTo path index
    match ← onDisk segment with
    | some (.directory _) => files := (files.makeDirectories segment).2
    | some (.file bytes) => files := ((files.write segment bytes).toOption).getD files
    | none => pure ()
  return files

/-- Put a file on disk that was not there before, with the directories around it. -/
def putOnDisk (before after : FileTree) (path : String) : IO Unit := do
  match before.read path, after.read path with
  | .error _, .ok bytes =>
    match (Path.parent? path).filter (!·.isEmpty) with
    | some parent => IO.FS.createDirAll parent
    | none => pure ()
    IO.FS.writeBinFile path ⟨bytes.toArray⟩
  | _, _ => pure ()

end SigningProxy

open SigningProxy in
def main (arguments : List String) : IO UInt32 := do
  let path := match CommandLine.read arguments with
    | .ok options => options.settingsPath
    | .error _ => ""
  let before ← lookAt path
  let started := start .isolated before arguments
  putOnDisk before started.files path
  IO.print started.output
  IO.eprint started.errors
  match started.fate with
  | .ended code => return code.toUInt32
  | .serving .. =>
    let _ ← (← IO.getStdin).readToEnd
    IO.eprint (Server.stopped.line ++ "\n")
    return 0
