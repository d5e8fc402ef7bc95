import Fexpr.Text.Decimal
import Fexpr.Text.Quotation

/-!
# File trees

What a command finds under the paths it is given. A place is the list of the names that lead to it
from the root; there is a file, or a folder, or nothing. A path is walked name by name, from the
root or from the folder where the command runs, and whatever the walk passes must be a folder.

Nothing links to another place, so a walk down and up again ends where it began.
-/

namespace Fexpr

/-- Why the system refuses a path: its number for the reason, and the reason in words. -/
structure FileFault where
  number : Nat
  reason : String
deriving DecidableEq, Repr

namespace FileFault

def missing : FileFault := ⟨2, "No such file or directory"⟩
def denied : FileFault := ⟨13, "Permission denied"⟩
def fileExists : FileFault := ⟨17, "File exists"⟩
def notDirectory : FileFault := ⟨20, "Not a directory"⟩
def isDirectory : FileFault := ⟨21, "Is a directory"⟩
def nameTooLong : FileFault := ⟨36, "File name too long"⟩

/-- The fault of a path, in words. -/
def text (f : FileFault) (path : String) : String :=
  "[Errno " ++ Text.natString f.number ++ "] " ++ f.reason ++ ": " ++ Text.quote path

end FileFault

/-- Why a path cannot be used. -/
inductive PathFault where
  /-- The path holds a null character, so it cannot even be handed to the system. -/
  | nullCharacter
  | system (fault : FileFault)
  /-- Too many folders are missing one in another. -/
  | tooDeep
deriving DecidableEq, Repr

/-- What is said of a path with a null character. -/
def nullCharacterText : String := "embedded null byte"

/-- The names that lead to a place from the root. -/
abbrev Place := List String

namespace Place

/-- Where a name leads from a folder: an empty name or a dot stays, two dots go up. -/
def next (place : Place) (name : String) : Place :=
  if name = "" || name = "." then place
  else if name = ".." then place.dropLast
  else place ++ [name]

/-- How many bytes a place is long as a path from the root. -/
def byteCount (place : Place) : Nat :=
  place.foldl (fun count name => count + 1 + name.utf8ByteSize) 0

end Place

/-- The files and the folders that there are. -/
structure FileTree where
  /-- The files, each with what it holds. -/
  files : List (Place × ByteArray)
  /-- The folders, but for those on the way to others or to files. -/
  folders : List Place
  /-- The folder where the command runs. -/
  here : Place

namespace FileTree

/-- The folders that every system has. -/
def systemFolders : List Place :=
  ["bin", "boot", "dev", "etc", "home", "lib", "media", "mnt", "opt", "proc", "root", "run",
    "sbin", "srv", "sys", "tmp", "usr", "var"].map ([·])
  ++ ["bin", "include", "lib", "local", "sbin", "share", "src"].map (["usr", ·])
  ++ ["cache", "lib", "local", "log", "mail", "opt", "spool", "tmp"].map (["var", ·])

/-- The file that is always empty, whatever is written to it. -/
def nullDevice : Place := ["dev", "null"]

/-- Whether a path starts at the root. -/
def isAbsolute (path : String) : Bool :=
  path.startsWith "/"

/-- The names along a path. -/
def names (path : String) : List String :=
  path.splitOn "/"

/-- The tree with the given files below a folder where a command runs. -/
def ofFiles (here : Place) (files : List (String × ByteArray)) : FileTree where
  files := (nullDevice, .empty) :: files.map fun (path, bytes) =>
    ((names path).foldl Place.next here, bytes)
  folders := systemFolders
  here := here

/-- What the file at a place holds. -/
def content? (t : FileTree) (place : Place) : Option ByteArray :=
  (t.files.find? (·.1 == place)).map (·.2)

/-- Whether there is a folder at a place. -/
def isFolder (t : FileTree) (place : Place) : Bool :=
  (t.here :: t.folders).any place.isPrefixOf
    || t.files.any fun (p, _) => place.isPrefixOf p && place != p

/-- Where a path starts. -/
def origin (t : FileTree) (path : String) : Place :=
  if isAbsolute path then [] else t.here

/-! ## Limits -/

/-- How many bytes a name may have. -/
def nameLimit : Nat := 255

/-- How many bytes a path may have. -/
def pathLimit : Nat := 4095

/-- Whether a text has a null character. -/
def hasNull (text : String) : Bool :=
  text.toList.contains '\x00'

/-- What stands against a further step to a name: the place is no folder, or the name is no
name. -/
def stepFault? (t : FileTree) (place : Place) (name : String) : Option PathFault :=
  if hasNull name then some .nullCharacter
  else if !t.isFolder place then some (.system .notDirectory)
  else if nameLimit < name.utf8ByteSize then some (.system .nameTooLong)
  else none

/-! ## Reading -/

/-- Walks on by one name. -/
def enter (t : FileTree) (place : Place) (name : String) : Except PathFault Place :=
  match t.stepFault? place name with
  | some fault => .error fault
  | none =>
    let next := place.next name
    if t.isFolder next || (t.content? next).isSome then .ok next else .error (.system .missing)

/-- The place that a path leads to. -/
def locate (t : FileTree) (path : String) : Except PathFault Place :=
  if hasNull path then .error .nullCharacter
  else if path.isEmpty then .error (.system .missing)
  else if pathLimit < path.utf8ByteSize then .error (.system .nameTooLong)
  else (names path).foldlM t.enter (t.origin path)

/-- The bytes of the file that a path leads to. -/
def read (t : FileTree) (path : String) : Except PathFault ByteArray := do
  let place ← t.locate path
  match t.content? place with
  | some bytes => return bytes
  | none => throw (.system .isDirectory)

/-! ## Writing -/

/-- A path, given by its names from the last one back. -/
def pathOfReversed (names : List String) : String :=
  "/".intercalate names.reverse

/-- The place of what is above the last name of a path, if it is there: what the other names lead
to, from the last one back. Without another name it is where the path starts. -/
def placeAbove? (t : FileTree) (origin : Place) (above : List String) : Option Place :=
  match above.dropWhile (· == "") with
  | [] => some origin
  | above => (t.locate (pathOfReversed above)).toOption

/-- Makes the folder at the end of a path, which goes on by a name from a place, unless something is
there. -/
def makeFolder (t : FileTree) (path : String) (place : Place) (name : String) :
    Except PathFault (FileTree × Place) :=
  if hasNull path then .error .nullCharacter
  else if pathLimit < path.utf8ByteSize then .error (.system .nameTooLong)
  else match t.stepFault? place name with
    | some fault => .error fault
    | none =>
      let next := place.next name
      if t.isFolder next || (t.content? next).isSome then .ok (t, next)
      else .ok ({ t with folders := next :: t.folders }, next)

/-- Makes the folders that are missing along a path, which is given by its names from the last one
back, and tells where it ends. At most `room` of them may be missing one in another.

A dot is no folder of its own: what is missing there has been made when its turn comes. -/
def makeFolders (origin : Place) :
    Nat → FileTree → List String → Except PathFault (FileTree × Place)
  | _, t, [] => .ok (t, origin)
  | room, t, "" :: above => makeFolders origin room t above
  | room, t, name :: above =>
    let path := pathOfReversed (name :: above)
    match t.placeAbove? origin above, room with
    | some place, _ => t.makeFolder path place name
    | none, 0 => .error .tooDeep
    | none, room + 1 => do
      let (t, place) ← makeFolders origin room t above
      if name = "." then return (t, place) else t.makeFolder path place name

/-- How many folders may be missing one in another. -/
def makeLimit : Nat := 980

/-- The tree after writing at the end of the file at a place, which is made if there is none. -/
def append (t : FileTree) (place : Place) (text : String) : FileTree :=
  if place = nullDevice then t
  else match t.content? place with
    | some _ =>
      { t with
        files := t.files.map fun (p, old) =>
          if p == place then (p, old ++ text.toUTF8) else (p, old) }
    | none => { t with files := t.files ++ [(place, text.toUTF8)] }

/-- What stands against opening a file for writing: its folder must be there, and it must be none
itself. -/
def openFault? (t : FileTree) (place : Place) : Option PathFault :=
  if place.any hasNull then some .nullCharacter
  else if pathLimit < place.byteCount then some (.system .nameTooLong)
  else match place.dropLast.foldlM t.enter [] with
    | .error fault => some fault
    | .ok folder =>
      if t.isFolder place then some (.system .isDirectory)
      else t.stepFault? folder (place.getLast?.getD "")

/-- Opens a file for writing at its end: makes the folders above it that are missing, and the file
if there is none. Where the file is depends on the names of the path alone. -/
def openEnd (t : FileTree) (path : String) : Except PathFault (FileTree × Place) := do
  let above := (names path).reverse.drop 1
  let (t, folder) ← makeFolders (t.origin path) makeLimit t above
  if !t.isFolder folder && (above.dropWhile (· == "")).head? != some "." then
    throw (.system .fileExists)
  let place := (names path).foldl Place.next (t.origin path)
  match t.openFault? place with
  | some fault => throw fault
  | none => return (t.append place "", place)

/-- The path to a place from the folder where the command runs, if it is below that. -/
def pathBelow? (t : FileTree) (place : Place) : Option String :=
  if t.here.isPrefixOf place then some ("/".intercalate (place.drop t.here.length)) else none

end FileTree
end Fexpr
