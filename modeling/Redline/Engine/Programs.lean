import Redline.Engine.External
import Redline.Files.Tree

/-! Programs as functions of what they are started with, the standard `diff` among them, and a
host that finds them in a tree of files. -/

namespace Redline

abbrev Program := Launch → Ending × ByteArray

namespace Program

def exits (status : Int) : Program := fun _ => (.exited status, .empty)

def fileText (launch : Launch) (path : String) : Option String := do
  let file ← launch.files.find? fun file => joinPath launch.path file.1 = path
  String.fromUTF8? file.2

/-- The standard program `diff`, asked for a unified diff of two files. Files that hold a NUL are
no text to it, and that is trouble unless they are the same. -/
def diff : Program := fun launch =>
  match launch.arguments with
  | [_, old, new] =>
    match fileText launch old, fileText launch new with
    | some before, some after =>
      if before = after then (.exited 0, .empty)
      else if before.contains '\x00' ∨ after.contains '\x00' then
        (.exited 2, s!"Binary files {old} and {new} differ\n".toUTF8)
      else (.exited 1, (LineDiff.compare .newlines Engine.context old new before after).toUTF8)
    | _, _ => (.exited 2, .empty)
  | _ => (.exited 2, .empty)

end Program

namespace Host

def searchPath : List String :=
  ["/usr/local/sbin", "/usr/local/bin", "/usr/sbin", "/usr/bin", "/sbin", "/bin"]

def programAt (tree : FileTree Program) (path : String) : Except PathError Program := do
  match ← tree.find path with
  | .program run => return run
  | _ => throw .denied

/-- The program of a name. One with a slash is a path. Others are looked for in every directory,
where an entry that may not be run is passed over, but remembered, and so is a missing one. -/
def findProgram (tree : FileTree Program) (name : String) : Except PathError Program :=
  if name.contains '/' then programAt tree name
  else if name.isEmpty then .error .notFound
  else searchPath.foldr search (fun failure => .error failure) .notFound
where
  search (directory : String) (next : PathError → Except PathError Program) (failure : PathError) :
      Except PathError Program :=
    match programAt tree (joinPath directory name) with
    | .ok program => .ok program
    | .error .denied => next .denied
    | .error .notFound | .error .notDirectory => next failure
    | .error error => .error error

def ofTree (tree : FileTree Program) (temporary : String) : Host where
  temporary := temporary
  refuses path step :=
    match step with
    | .creating => (tree.refusal path).map PathError.message
    | .writing | .closing => none
  start launch :=
    if launch.program.contains '\x00' then .error "nul byte found in provided data"
    else match findProgram tree launch.program with
      | .ok program => .ok (program launch)
      | .error error => .error error.message

def standard : Host :=
  let tree : FileTree Program :=
    { entries := [(["tmp"], .directory), (["usr", "bin", "diff"], .program Program.diff)] }
  ofTree tree "/tmp"

end Host

end Redline
