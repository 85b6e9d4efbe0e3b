import DevfilePush.SortedMap

/-!
# Files

A directory with all that is in it, and what is found at a path. Every part of a path but the last has
to be a directory; `.` is where one is and `..` one directory up. Of the directories around the tree
nothing is known but that they are there: one may go up to them, and finds nothing else in them.

## Main definitions

* `FileTree`, `FileTree.write`, `FileTree.makeDirectory`
* `FileTree.find`: what is at a path, or why nothing can be.
-/

namespace DevfilePush

/-- What a name in a directory stands for. -/
inductive FileEntry where
  | file (content : ByteArray)
  | directory

/-- Why a path leads nowhere. -/
inductive PathFault where
  | notFound
  | notDirectory
  | isDirectory
  | nameTooLong
  /-- The path holds a zero character. -/
  | zeroCharacter
  deriving DecidableEq, Repr

/-- The fault in words. -/
def PathFault.message : PathFault → String
  | notFound => "No such file or directory (os error 2)"
  | notDirectory => "Not a directory (os error 20)"
  | isDirectory => "Is a directory (os error 21)"
  | nameTooLong => "File name too long (os error 36)"
  | zeroCharacter => "file name contained an unexpected NUL byte"

/-- All entries below a directory, by the names that lead to them. -/
structure FileTree where
  entries : List (List String × FileEntry)

namespace FileTree

/-- An empty directory. -/
def empty : FileTree := ⟨[]⟩

/-- What names lead to; no names lead to the directory itself. -/
def entry? (t : FileTree) (names : List String) : Option FileEntry :=
  if names.isEmpty then some .directory else t.entries.lookup names

/-- The names of a path without those that stay where one is. -/
def namesOf (path : String) : List String :=
  (path.splitOn "/").filter fun name => name ≠ "" && name ≠ "."

/-- Where a name leads from a directory of the tree. -/
def below (here : List String) (name : String) : List String :=
  if name = ".." then here.dropLast else here ++ [name]

/-- Puts an entry where names lead, instead of what was there. -/
def put (t : FileTree) (names : List String) (entry : FileEntry) : FileTree :=
  ⟨(names, entry) :: t.entries.filter (·.1 ≠ names)⟩

/-- Makes the directories that a list of names leads through, as far as they are missing; with the
place of the last. -/
def makeDirectories (t : FileTree) (here : List String) : List String → FileTree × List String
  | [] => (t, here)
  | name :: rest =>
    let here := below here name
    let t := match t.entry? here with
      | some _ => t
      | none => t.put here .directory
    makeDirectories t here rest

/-- Makes a directory and those above it. -/
def makeDirectory (t : FileTree) (path : String) : FileTree :=
  (t.makeDirectories [] (namesOf path)).1

/-- Writes a file and makes the directories above it. -/
def write (t : FileTree) (path : String) (content : ByteArray) : FileTree :=
  let names := namesOf path
  let (t, here) := t.makeDirectories [] names.dropLast
  match names.getLast? with
  | some name => t.put (below here name) (.file content)
  | none => t

/-- Follows names from a directory around the tree. -/
def followAround : List String → Except PathFault FileEntry
  | [] => .ok .directory
  | name :: rest =>
    if 255 < name.utf8ByteSize then .error .nameTooLong
    else if name = "" || name = "." || name = ".." then followAround rest
    else .error .notFound

/-- Follows names from a directory of the tree. -/
def follow (t : FileTree) (here : List String) : List String → Except PathFault FileEntry
  | [] => match t.entry? here with
    | some entry => .ok entry
    | none => .error .notFound
  | name :: rest =>
    match t.entry? here with
    | none => .error .notFound
    | some (.file _) => .error .notDirectory
    | some .directory =>
      if 255 < name.utf8ByteSize then .error .nameTooLong
      else if name = "" || name = "." then follow t here rest
      else if name = ".." && here.isEmpty then followAround rest
      else follow t (below here name) rest

/-- What is at a path. -/
def find (t : FileTree) (path : String) : Except PathFault FileEntry :=
  if path.contains '\x00' then .error .zeroCharacter
  else if path = "" then .error .notFound
  else if 4095 < path.utf8ByteSize then .error .nameTooLong
  else if path.startsWith "/" then followAround (path.splitOn "/")
  else t.follow [] (path.splitOn "/")

end FileTree

/-- A path below another; an absolute one stands for itself. -/
def joinPath (base path : String) : String :=
  if path.startsWith "/" then path
  else if base = "" || base.endsWith "/" then base ++ path
  else base ++ "/" ++ path

end DevfilePush
