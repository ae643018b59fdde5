import Redline.Files.Path

/-! A tree of files as a value, with paths resolved the way a POSIX system resolves them. -/

namespace Redline

inductive FileEntry (β : Type) where
  | directory
  | file (bytes : ByteArray)
  | program (run : β)

/-- Entries by the names on their paths from the root. The directories on the way to an entry
need no entries of their own. -/
structure FileTree (β : Type) where
  entries : List (List String × FileEntry β)
  current : List String := []

namespace FileTree

variable {β : Type}

def maxName : Nat := 255

def maxPath : Nat := 4095

def names (path : String) : List String :=
  go path.toList
where
  go : List Char → List String
    | [] => [""]
    | c :: rest =>
      match go rest with
      | [] => [c.toString]
      | name :: more => if c = '/' then "" :: name :: more else (c.toString ++ name) :: more

def entry? (tree : FileTree β) (here : List String) : Option (FileEntry β) :=
  match tree.entries.find? fun entry => entry.1 = here with
  | some (_, found) => some found
  | none =>
    if here.isPrefixOf tree.current ∨ tree.entries.any (fun entry => here.isPrefixOf entry.1) then
      some .directory
    else none

def isDirectory (tree : FileTree β) (here : List String) : Bool :=
  match tree.entry? here with
  | some .directory => true
  | _ => false

/-- Walks along names from where it stands. Every name needs a directory to be looked up in,
the empty one and `.` too. -/
def walk (tree : FileTree β) (here : List String) : List String → Except PathError (List String)
  | [] => .ok here
  | name :: rest =>
    if !tree.isDirectory here then .error .notDirectory
    else if name = "" ∨ name = "." then tree.walk here rest
    else if name = ".." then tree.walk here.dropLast rest
    else if name.utf8ByteSize > maxName then .error .nameTooLong
    else if (tree.entry? (here ++ [name])).isNone then .error .notFound
    else tree.walk (here ++ [name]) rest

def steps (tree : FileTree β) (path : String) : Except PathError (List String × List String) := do
  if path.contains '\x00' then throw .nul
  if path.isEmpty then throw .notFound
  if path.utf8ByteSize > maxPath then throw .nameTooLong
  return (if path.startsWith "/" then [] else tree.current, names path)

def find (tree : FileTree β) (path : String) : Except PathError (FileEntry β) := do
  let (start, names) ← tree.steps path
  let here ← tree.walk start names
  match tree.entry? here with
  | some entry => return entry
  | none => throw .notFound

/-- Why no new file can be made at a path, if none can: what comes before its last name does not
lead to a directory, or the path is none. -/
def refusal (tree : FileTree β) (path : String) : Option PathError :=
  let attempt : Except PathError Unit := do
    let (start, names) ← tree.steps path
    let here ← tree.walk start names.dropLast
    if !tree.isDirectory here then throw .notDirectory
    if (names.getLastD "").utf8ByteSize > maxName then throw .nameTooLong
  match attempt with
  | .ok () => none
  | .error error => some error

def read (tree : FileTree β) (path : String) : Except PathError ByteArray := do
  match ← tree.find path with
  | .file bytes => return bytes
  | .program _ => throw .denied
  | .directory => throw .isDirectory

end FileTree

end Redline
