/-! # Files

A command sees files through a function from paths to contents. `Directory.read` is such a function
for a directory that is held in memory.
-/

namespace OpcodeRegistry

/-- Why a file gives no text. -/
inductive FileFault where
  | notFound
  /-- The path goes through a regular file. -/
  | notADirectory
  | isADirectory
  | nameTooLong
  | nulInName
  | notUtf8
deriving DecidableEq, Repr

/-- The reason in words. -/
def FileFault.message : FileFault → String
  | notFound => "No such file or directory (os error 2)"
  | notADirectory => "Not a directory (os error 20)"
  | isADirectory => "Is a directory (os error 21)"
  | nameTooLong => "File name too long (os error 36)"
  | nulInName => "file name contained an unexpected NUL byte"
  | notUtf8 => "stream did not contain valid UTF-8"

/-- The contents of the file at a path. -/
abbrev FileReader := String → Except FileFault ByteArray

/-- A directory of regular files, by name. -/
structure Directory where
  files : List (String × ByteArray)

namespace Directory

/-- The names that a relative path goes through. A slash more or less makes no other path, and
neither does a step to the directory one is in. -/
def steps (path : String) : List String :=
  (path.splitOn "/").filter fun step => step ≠ "" ∧ step ≠ "."

/-- Whether a path can only mean a directory, by the way it ends. -/
def endsInDirectory (path : String) : Bool :=
  match (path.splitOn "/").getLast? with
  | some step => step = "" ∨ step = "."
  | none => false

/-- Whether a path starts at the root of the file system instead of the directory. -/
def startsAtRoot (path : String) : Bool :=
  path.startsWith "/"

/-- The largest number of bytes of a path. -/
def longestPath : Nat := 4095

/-- The largest number of bytes of a name in a path. -/
def longestName : Nat := 255

/-- The contents of the file of a name in the directory itself. -/
def file? (dir : Directory) (name : String) : Option ByteArray :=
  dir.files.lookup name

/-- What a path of the given steps comes to above the directory, where there are directories but
nothing to be found in them. -/
def readAbove : List String → Except FileFault ByteArray
  | [] => .error .isADirectory
  | name :: further =>
    if name = ".." then readAbove further
    else if longestName < name.utf8ByteSize then .error .nameTooLong
    else .error .notFound

/-- What a path of the given steps comes to in the directory. `named` says that the path ends with a
name, so that it can mean a file. -/
def readSteps (dir : Directory) (named : Bool) : List String → Except FileFault ByteArray
  | [] => .error .isADirectory
  | name :: further =>
    match dir.file? name with
    | some contents => if further.isEmpty ∧ named then .ok contents else .error .notADirectory
    | none => readAbove (name :: further)

/-- The file at a path. Only what is in the directory itself is a file. -/
def read (dir : Directory) : FileReader := fun path =>
  if '\x00' ∈ path.toList then .error .nulInName
  else if path.isEmpty then .error .notFound
  else if longestPath < path.utf8ByteSize then .error .nameTooLong
  else if startsAtRoot path then readAbove (steps path)
  else dir.readSteps (!endsInDirectory path) (steps path)

end Directory

end OpcodeRegistry
