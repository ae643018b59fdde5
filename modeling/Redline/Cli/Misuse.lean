import Redline.Cli.Flag
import Redline.Text.Printable

/-! How a command line can be wrong. -/

namespace Redline

inductive Misuse where
  | unexpected (argument : String)
  | valueMissing (flag : Flag)
  | valueRefused (flag : Flag) (value : String)
  | valueUnexpected (flag : Flag) (value : String)
  | repeated (flag : Flag)
  | notAlone (flag : Flag)
  deriving DecidableEq, Repr

/-- What is wrong. Of what was typed only that is shown which prints. -/
def Misuse.message : Misuse → String
  | .unexpected argument => s!"unexpected argument '{Text.printable argument}' found"
  | .valueMissing flag => s!"a value is required for '{flag.label}' but none was supplied"
  | .valueRefused flag value => s!"invalid value '{Text.printable value}' for '{flag.label}'"
  | .valueUnexpected flag value =>
    s!"unexpected value '{Text.printable value}' for '{flag.label}' found; no more were expected"
  | .repeated flag => s!"the argument '{flag.label}' cannot be used multiple times"
  | .notAlone flag =>
    s!"the argument '{flag.label}' cannot be used with one or more of the other specified arguments"

end Redline
