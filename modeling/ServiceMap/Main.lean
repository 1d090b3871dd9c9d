import ServiceMap.Cli.Run

/-!
# The program

The program as a command: it loads the files that its command line names, runs, and then shows and writes what the run
came to. All of the program's behaviour is in `Cli.run`.
-/

namespace ServiceMap.Cli

/-- What stands under a path on disk, nothing if it cannot be read. -/
def loadEntry (path : String) : IO (Option FileEntry) := do
  try
    let bytes ← IO.FS.readBinFile path
    return some (.file bytes.toList)
  catch
    | .inappropriateType .. => return some .directory
    | _ => return none

/-- The files with what stands on disk under a path and under the directories on the way to it. -/
def loadPath (files : Files) (name : String) : IO Files := do
  let mut files := files
  let mut path : List String := if name.startsWith "/" then [topPart] else []
  for part in Files.splitPath name do
    if part = backPart then path := Files.back path
    else if part != "" && part != "." then
      path := path ++ [part]
      match ← loadEntry (Files.pathName path) with
      | some entry => files := ⟨files.entries.insert path entry⟩
      | none => pure ()
  return files

partial def readAll (stream : IO.FS.Stream) (bytes : ByteArray) : IO ByteArray := do
  let piece ← stream.read 8192
  if piece.isEmpty then return bytes else readAll stream (bytes ++ piece)

def store (changed : List (List String × List UInt8)) : IO Unit :=
  for (path, bytes) in changed do
    IO.FS.writeBinFile (Files.pathName path) ⟨bytes.toArray⟩

end ServiceMap.Cli

open ServiceMap ServiceMap.Cli in
def main (words : List String) : IO UInt32 := do
  let mut files : Files := {}
  let mut standardInput : StandardInput := {}
  match Request.ofLine words with
  | .run command =>
    for name in command.output.toList ++ command.inputs do
      if name != "-" then files ← loadPath files name
    if command.inputs.contains "-" then standardInput := ⟨(← readAll (← IO.getStdin) .empty).toList⟩
  | _ => pure ()
  let outcome := run words files standardInput
  for warning in outcome.warnings do
    IO.eprintln ("Warning: " ++ warning.message)
  IO.eprint outcome.errors
  IO.print outcome.output
  store (outcome.files.changedSince files)
  match outcome.ending with
  | .exit code => return UInt32.ofNat code
  | .failure e =>
    IO.eprintln e.message
    return 1
