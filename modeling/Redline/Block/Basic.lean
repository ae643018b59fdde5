import Redline.Text.Blank

/-! Blocks of marked lines. A directive governs the lines below it up to the next directive:
`apply` takes what is marked as added, `reject` takes back what is marked as removed. -/

namespace Redline

abbrev Line := List Char

inductive Directive where
  | apply
  | reject
  deriving DecidableEq, Repr

namespace Directive

def word : Directive → Line
  | .apply => ['a', 'p', 'p', 'l', 'y']
  | .reject => ['r', 'e', 'j', 'e', 'c', 't']

def ofLine? (line : Line) : Option Directive :=
  let content := Text.trim line
  if content = apply.word then some .apply
  else if content = reject.word then some .reject
  else none

theorem ofLine?_eq_some_iff {line : Line} {directive : Directive} :
    ofLine? line = some directive ↔ Text.trim line = directive.word := by
  cases directive <;> simp only [ofLine?] <;> grind [word]

end Directive

inductive Marker where
  | added
  | removed
  | context
  | unmarked
  deriving DecidableEq, Repr

/-- The marker of a line, and what is left of the line after it. Only one character is taken,
so `+-x` adds `-x`, and an unmarked line is left whole. -/
def Marker.ofLine : Line → Marker × Line
  | '+' :: content => (.added, content)
  | '-' :: content => (.removed, content)
  | ' ' :: content => (.context, content)
  | line => (.unmarked, line)

structure Block where
  directive : Option Directive
  lines : List Line
  deriving DecidableEq, Repr

namespace Block

def resolveLine (directive : Option Directive) (line : Line) : Option Line :=
  match directive, Marker.ofLine line with
  | none, _ => some line
  | _, (.unmarked, _) => some line
  | some .apply, (.removed, _) => none
  | some .reject, (.added, _) => none
  | some _, (_, content) => some content

def resolve (block : Block) : List Line :=
  block.lines.filterMap (resolveLine block.directive)

def isData (line : Line) : Bool :=
  (Directive.ofLine? line).isNone

/-- Cuts lines into blocks, one for every directive and one for the lines above the first. -/
def ofLines : List Line → List Block
  | [] => []
  | first :: rest =>
    let block : Block := match Directive.ofLine? first with
      | some directive => ⟨some directive, rest.takeWhile isData⟩
      | none => ⟨none, first :: rest.takeWhile isData⟩
    block :: ofLines (rest.dropWhile isData)
termination_by lines => lines.length
decreasing_by
  have := (List.dropWhile_sublist isData (l := rest)).length_le
  simp only [List.length_cons]
  omega

@[simp] theorem ofLines_nil : ofLines [] = [] := by simp [ofLines]

@[simp] theorem resolveLine_none (line : Line) : resolveLine none line = some line := by
  simp [resolveLine]

end Block

end Redline
