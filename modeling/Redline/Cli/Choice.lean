import Redline.Engine.Basic

/-! What there is to choose from on the command line: engines, and shells to complete for. -/

namespace Redline

inductive Differ where
  | system
  | builtin
  deriving DecidableEq, Repr

inductive Shell where
  | bash
  | elvish
  | fish
  | powershell
  | zsh
  deriving DecidableEq, Repr

namespace Differ

def all : List Differ := [.system, .builtin]

def name : Differ → String
  | .system => "system"
  | .builtin => "builtin"

def about : Differ → String
  | .system => "The system `diff` program"
  | .builtin => "The in-process differ"

def ofName? (name : String) : Option Differ :=
  all.find? fun differ => differ.name = name

end Differ

namespace Shell

def all : List Shell := [.bash, .elvish, .fish, .powershell, .zsh]

def name : Shell → String
  | .bash => "bash"
  | .elvish => "elvish"
  | .fish => "fish"
  | .powershell => "powershell"
  | .zsh => "zsh"

def ofName? (name : String) : Option Shell :=
  all.find? fun shell => shell.name = name

end Shell

end Redline
