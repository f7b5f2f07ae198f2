import ContainerTasks.FileFault

/-!
# The working directory

Files are named by paths that begin at the working directory, which holds files and no other
directory. Of what lies beyond it only the null device is known: nothing else is found there, and
any file can be made.

## Main definitions

* `WorkingDirectory`
* `WorkingDirectory.read`, `WorkingDirectory.create`
-/

namespace ContainerTasks

/-- The files of a directory, by name. -/
structure WorkingDirectory where
  files : List (String × List UInt8)

namespace WorkingDirectory

/-- What a path leads to. -/
inductive Place where
  | directory
  | file (name : String) (content : List UInt8)
  /-- No file, but one could be made there. -/
  | nothing (name : String)
  /-- A directory above. -/
  | above
  /-- No file, but one could be made there, outside of the directory. -/
  | nothingAbove

/-- How many bytes a name may have. -/
def longestName : Nat := 255

/-- How many bytes a path may have. -/
def longestPath : Nat := 4095

/-- Takes one part of a path. -/
def step (d : WorkingDirectory) (place : Place) (part : String) : Except FileFault Place :=
  match place with
  | .file .. => .error .notDirectory
  | .nothing _ | .nothingAbove => .error .notFound
  | .directory =>
    if part = "" ∨ part = "." then .ok .directory
    else if part = ".." then .ok .above
    else if longestName < part.utf8ByteSize then .error .nameTooLong
    else
      match d.files.lookup part with
      | some content => .ok (.file part content)
      | none => .ok (.nothing part)
  | .above =>
    if part = "" ∨ part = "." ∨ part = ".." then .ok .above
    else if longestName < part.utf8ByteSize then .error .nameTooLong
    else .ok .nothingAbove

/-- What the parts of a path lead to. -/
def locate (d : WorkingDirectory) (parts : List String) : Except FileFault Place :=
  parts.foldlM d.step (if parts.length ≠ 1 ∧ parts.head? = some "" then .above else .directory)

/-- The parts of a path, between its slashes. -/
def parts (path : String) : Except FileFault (List String) :=
  if path.toList.contains '\x00' then .error .nulInName
  else if path = "" then .error .notFound
  else if longestPath < path.utf8ByteSize then .error .nameTooLong
  else .ok (path.splitToList (· = '/'))

/-- Whether the parts of a path are those of the device that is empty and swallows everything. -/
def isNullDevice (parts : List String) : Bool :=
  parts.head? = some "" && parts.getLast? = some "null" &&
    parts.filter (fun part => part ≠ "" && part ≠ ".") = ["dev", "null"]

/-- The content of a file. -/
def read (d : WorkingDirectory) (path : String) : Except FileFault (List UInt8) := do
  let parts ← parts path
  if isNullDevice parts then return []
  match ← d.locate parts with
  | .file _ content => return content
  | .nothing _ | .nothingAbove => throw .notFound
  | .directory | .above => throw .isDirectory

/-- The name of the file that is made, or emptied, when a path is written to, if it is one of the
directory. With a slash at its end a path can only mean a directory. -/
def create (d : WorkingDirectory) (path : String) : Except FileFault (Option String) := do
  let parts ← parts path
  if isNullDevice parts then return none
  let slashes := (parts.reverse.takeWhile (· = "")).length
  match parts.reverse.drop slashes with
  | [] => throw .isDirectory
  | last :: before =>
    -- the last part is only looked at where a file could be
    let place ← d.locate (before.reverse ++ [""])
    if last = "." ∨ last = ".." ∨ 0 < slashes then throw .isDirectory
    match ← d.step place last with
    | .file name _ | .nothing name => return some name
    | .nothingAbove => return none
    | .directory | .above => throw .isDirectory

end WorkingDirectory

end ContainerTasks
