/-! Paths, and why one leads to no file. -/

namespace Redline

inductive PathError where
  | notFound
  | denied
  | notDirectory
  | isDirectory
  | nameTooLong
  | nul
  deriving DecidableEq, Repr

def PathError.message : PathError → String
  | .notFound => "No such file or directory (os error 2)"
  | .denied => "Permission denied (os error 13)"
  | .notDirectory => "Not a directory (os error 20)"
  | .isDirectory => "Is a directory (os error 21)"
  | .nameTooLong => "File name too long (os error 36)"
  | .nul => "file name contained an unexpected NUL byte"

/-- A path below a directory, or the path itself when it starts at the root. A slash comes in
between where there is none. -/
def joinPath (directory path : String) : String :=
  if path.startsWith "/" then path
  else if directory.isEmpty || directory.endsWith "/" then directory ++ path
  else directory ++ "/" ++ path

end Redline
