import ServiceMap.Failure
import ServiceMap.Table

/-!
# Files

The files that a run of the program can see, by their path: from the working directory, or from the top if the path
begins with a slash. A path in a command may be written in several ways: empty parts and single dots do not count, and two
dots lead back. Every part of a path but the last one has to be a directory.

There are always some directories: the working directory, those above it, and the top. The null device is always there,
too: it holds nothing, and what is written to it is gone.
-/

namespace ServiceMap

/-- What stands under a path. -/
inductive FileEntry where
  | file (bytes : List UInt8)
  | directory
deriving Repr, DecidableEq

def topPart : String := "/"

def backPart : String := ".."

def nullDevice : List String := [topPart, "dev", "null"]

/-- Files and directories by the parts of their paths. -/
structure Files where
  entries : Table (List String) FileEntry := .empty
deriving Repr, DecidableEq

namespace Files

def splitPath (path : String) : List String := path.splitOn "/"

/-- The path leads to the working directory or to a directory above it. -/
def isAbove (parts : List String) : Bool := parts.all (· = backPart)

/-- What stands under the parts of a path: an entry, or a directory that other paths lead through. -/
def entry? (files : Files) (parts : List String) : Option FileEntry :=
  if parts = nullDevice then some (.file [])
  else if isAbove parts || parts.isPrefixOf nullDevice then some .directory
  else match files.entries.get? parts with
    | some e => some e
    | none =>
      if files.entries.keys.any fun key => parts.isPrefixOf key && key.length > parts.length then some .directory
      else none

def maxPart : Nat := 255

def maxPath : Nat := 4095

/-- The directory that two dots in a directory lead to. Nothing is above the top. -/
def back (directory : List String) : List String :=
  if directory = [topPart] then directory
  else if isAbove directory then directory ++ [backPart]
  else directory.dropLast

/-- Follows the parts of a path from a directory. The result is the path without detours; what stands under its last part
is not looked at. A file that may be new must not have a slash behind its name. -/
def follow (files : Files) (name : String) (mayBeNew : Bool) :
    (directory : List String) → List String → Except Failure (List String)
  | directory, [] => .ok directory
  | directory, part :: rest =>
    if part = "" || part = "." then follow files name mayBeNew directory rest
    else if part = backPart then follow files name mayBeNew (back directory) rest
    else if mayBeNew && !rest.isEmpty && rest.all (· = "") then .error (.isDirectory name)
    else if part.utf8ByteSize > maxPart then .error (.nameTooLong name)
    else
      let path := directory ++ [part]
      if rest.isEmpty then .ok path
      else match files.entry? path with
        | some .directory => follow files name mayBeNew path rest
        | some (.file _) => .error (.notDirectory name)
        | none => .error (.noSuchFile name)

def resolve (files : Files) (name : String) (mayBeNew : Bool) : Except Failure (List String) :=
  if name.toList.contains '\x00' then .error .nullInName
  else if name.utf8ByteSize > maxPath then .error (.nameTooLong name)
  else if name.isEmpty then .error (.noSuchFile name)
  else files.follow name mayBeNew (if name.startsWith "/" then [topPart] else []) (splitPath name)

def read (files : Files) (name : String) : Except Failure (List UInt8) := do
  match files.entry? (← files.resolve name false) with
  | some (.file bytes) => return bytes
  | some .directory => .error (.isDirectory name)
  | none => .error (.noSuchFile name)

/-- The files after one of them was written, be it new or not. -/
def write (files : Files) (name : String) (bytes : List UInt8) : Except Failure Files := do
  let path ← files.resolve name true
  match files.entry? path with
  | some .directory => .error (.isDirectory name)
  | _ => return if path = nullDevice then files else ⟨files.entries.insert path (.file bytes)⟩

/-- The files that are not as they were before, by their paths. -/
def changedSince (files before : Files) : List (List String × List UInt8) :=
  files.entries.entries.filterMap fun (path, entry) =>
    match entry with
    | .file bytes => if before.entries.get? path = some entry then none else some (path, bytes)
    | .directory => none

/-- The path is that of a file in the working directory or below it. -/
def isInside (path : List String) : Bool := path.head? != some topPart && path.head? != some backPart

def pathName (path : List String) : String :=
  match path with
  | first :: rest => if first = topPart then topPart ++ "/".intercalate rest else "/".intercalate path
  | [] => "."

end Files

end ServiceMap
