/-!
# Files

What the program asks of a file system: whether there is something at a path, and the text of a
file. A file tree is a file system held in memory, with paths relative to a directory in it. Of the
directories above that one and of the topmost one it knows no more than that they are there.
-/

namespace MidiPanel

/-- Why a file cannot be read or written. -/
inductive FileError where
  | notFound
  | permissionDenied
  | notDirectory
  | isDirectory
  | nameTooLong
  | nulInName
  | notText
  deriving DecidableEq

/-- The wording of a file error. -/
def FileError.message : FileError → String
  | .notFound => "No such file or directory (os error 2)"
  | .permissionDenied => "Permission denied (os error 13)"
  | .notDirectory => "Not a directory (os error 20)"
  | .isDirectory => "Is a directory (os error 21)"
  | .nameTooLong => "File name too long (os error 36)"
  | .nulInName => "file name contained an unexpected NUL byte"
  | .notText => "stream did not contain valid UTF-8"

/-- A file system as far as the program reads it. -/
structure Files where
  isThere : String → Bool
  read : String → Except FileError String

/-- What stands at a path. -/
inductive FileEntry where
  | file (bytes : ByteArray)
  | directory

/-- Entries by the names on their way from the directory that paths begin in; later entries hide
earlier ones. Two dots at the beginning lead to a directory above, a slash to the topmost one. -/
structure FileTree where
  entries : List (List String × FileEntry)

namespace FileTree

def empty : FileTree := ⟨[]⟩

/-- Puts an entry at a place, with directories on the way to it. -/
def insert (t : FileTree) (names : List String) (entry : FileEntry) : FileTree :=
  let parents := (List.range names.length).map fun n => (names.take n, FileEntry.directory)
  ⟨(names, entry) :: parents ++ t.entries⟩

/-- The place of a directory that is there whatever the entries are. -/
def isStanding (place : List String) : Bool := place = ["/"] || place.all (· = "..")

/-- The entry at a place. -/
def at? (t : FileTree) (place : List String) : Option FileEntry :=
  if isStanding place then some .directory else t.entries.lookup place

/-- The directory that a place is in; the topmost directory is in itself. -/
def parent (place : List String) : List String :=
  if place = ["/"] then place
  else if isStanding place then ".." :: place
  else place.dropLast

/-- Follows the parts of a path from a place on; only directories lead on. -/
def walk (t : FileTree) (place : List String) : List String → Except FileError (List String)
  | [] => .ok place
  | part :: parts =>
    match t.at? place with
    | none => .error .notFound
    | some (.file _) => .error .notDirectory
    | some .directory =>
      if part = "" ∨ part = "." then walk t place parts
      else if part = ".." then walk t (parent place) parts
      else if 255 < part.utf8ByteSize then .error .nameTooLong
      else walk t (place ++ [part]) parts

/-- The directory that a path begins in. -/
def start (path : String) : Except FileError (List String) :=
  if path.contains '\x00' then .error .nulInName
  else if path.isEmpty then .error .notFound
  else if 4095 < path.utf8ByteSize then .error .nameTooLong
  else .ok (if path.startsWith "/" then ["/"] else [])

/-- The place that a path leads to, whether or not there is an entry. -/
def resolve (t : FileTree) (path : String) : Except FileError (List String) := do
  t.walk (← start path) (path.splitOn "/")

/-- The entry that a path leads to. -/
def find (t : FileTree) (path : String) : Except FileError FileEntry := do
  match t.at? (← t.resolve path) with
  | some entry => .ok entry
  | none => .error .notFound

/-- The text of the file that a path leads to. -/
def read (t : FileTree) (path : String) : Except FileError String := do
  match ← t.find path with
  | .directory => .error .isDirectory
  | .file bytes =>
    match String.fromUTF8? bytes with
    | some text => .ok text
    | none => .error .notText

/-- Writes a file; the directory that it stands in must be there. A path that ends in a slash or in
dots can only be a directory's. -/
def write (t : FileTree) (path text : String) : Except FileError FileTree := do
  let parts := (path.splitOn "/").filter (· ≠ "")
  let place ← t.walk (← start path) parts.dropLast
  match t.at? place with
  | none => .error .notFound
  | some (.file _) => .error .notDirectory
  | some .directory =>
    let name := parts.getLast?.getD ""
    if path.endsWith "/" || name = "." || name = ".." then .error .isDirectory
    else if 255 < name.utf8ByteSize then .error .nameTooLong
    else match t.at? (place ++ [name]) with
      | some .directory => .error .isDirectory
      | _ => .ok ⟨(place ++ [name], .file text.toUTF8) :: t.entries⟩

/-- The tree as a file system. -/
def files (t : FileTree) : Files where
  isThere path := (t.find path).isOk
  read := t.read

end FileTree
end MidiPanel
