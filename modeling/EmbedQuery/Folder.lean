/-!
# Files by path

A folder held in memory: what the command line needs of a file system, so that it can run without
one. A path is a list of names; an empty name and `.` stay where they are and `..` goes up, but only
a directory lets a path go on. Nothing is known of what lies outside the folder.
-/

namespace EmbedQuery

/-- Why a file could not be read. -/
inductive ReadFailure
  | notFound
  | notDirectory
  | isDirectory
  /-- The bytes are not UTF-8. -/
  | notText
  /-- Whatever else the system says. -/
  | other (message : String)
deriving DecidableEq, Repr

/-- The text of the failure, as the system words it. -/
def ReadFailure.message : ReadFailure → String
  | notFound => "No such file or directory (os error 2)"
  | notDirectory => "Not a directory (os error 20)"
  | isDirectory => "Is a directory (os error 21)"
  | notText => "stream did not contain valid UTF-8"
  | other message => message

/-- Files and directories by the names that lead to them. -/
structure Folder where
  files : List (List String × ByteArray) := []
  directories : List (List String) := []

namespace Folder

/-- A place that a path can lead to. -/
inductive Place
  /-- A directory, by the names that lead to it. -/
  | directory (names : List String)
  /-- A file with its bytes. -/
  | file (bytes : ByteArray)
  /-- A directory outside the folder. -/
  | outside

/-- Whether the names lead to a directory: the folder itself, one listed, or one that holds a
file. -/
def isDirectory (f : Folder) (names : List String) : Bool :=
  names.isEmpty || f.directories.contains names ||
    f.files.any fun (path, _) => names.isPrefixOf path && names.length < path.length

/-- The place that one more name leads to. -/
def step (f : Folder) (place : Place) (name : String) : Except ReadFailure Place :=
  match place with
  | .file _ => .error .notDirectory
  | .outside => if name = "" ∨ name = "." ∨ name = ".." then .ok .outside else .error .notFound
  | .directory names =>
    if name = "" ∨ name = "." then .ok place
    else if name = ".." then
      .ok (if names.isEmpty then .outside else .directory names.dropLast)
    else
      let path := names ++ [name]
      match f.files.find? (·.1 == path) with
      | some (_, bytes) => .ok (.file bytes)
      | none => if f.isDirectory path then .ok (.directory path) else .error .notFound

/-- The place that a path leads to. -/
def locate (f : Folder) (path : String) : Except ReadFailure Place :=
  if path.isEmpty then .error .notFound
  else
    let start := if path.startsWith "/" then Place.outside else .directory []
    (path.splitOn "/").foldlM f.step start

/-- The text of bytes in UTF-8. -/
def decode (bytes : ByteArray) : Except ReadFailure String :=
  match String.fromUTF8? bytes with
  | some text => .ok text
  | none => .error .notText

/-- The text of the file that a path leads to. -/
def read (f : Folder) (path : String) : Except ReadFailure String :=
  match f.locate path with
  | .ok (.file bytes) => decode bytes
  | .ok (.directory _) | .ok .outside => .error .isDirectory
  | .error failure => .error failure

end Folder

end EmbedQuery
