import Redline.Error
import Redline.LineDiff.Compare
import Redline.LineDiff.Header

/-! Engines compare two texts; what they say is shown without the header. -/

namespace Redline

abbrev Engine := String → String → Except DiffError String

namespace Engine

/-- How many lines of context an engine is asked for. Changes further apart than twice as many come
in hunks of their own. -/
def context : Nat := 10000000

def builtin : Engine := fun before after =>
  .ok (LineDiff.compare .anyEnding context "input" "result" before after)

def shown (raw : String) : String :=
  String.ofList (LineDiff.stripHeader raw.toList)

def render (engine : Engine) (before after : String) : Except DiffError String :=
  (engine before after).map shown

end Engine

end Redline
