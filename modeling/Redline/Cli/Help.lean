import Redline.Cli.Flag
import Redline.Tool

/-! What a tool says about its command line. -/

namespace Redline

namespace Flag

def defaultRemark (flag : Flag) : List String :=
  (flag.default?.map fun value => "[default: " ++ value ++ "]").toList

def choicesRemark (flag : Flag) : List String :=
  (flag.choices?.map fun values => "[possible values: " ++ ", ".intercalate values ++ "]").toList

def entry (flag : Flag) : String :=
  match flag.letter? with
  | some letter => "-" ++ letter.toString ++ ", " ++ flag.label
  | none => "    " ++ flag.label

def purpose (detailed : Bool) (flag : Flag) : String :=
  match flag, detailed with
  | .help, true => flag.about ++ " (see a summary with '-h')"
  | .help, false => flag.about ++ " (see more with '--help')"
  | _, _ => flag.about

end Flag

def padded (width : Nat) (text : String) : String :=
  text.pushn ' ' (width - text.length)

def widest (texts : List String) : Nat :=
  texts.foldl (fun width text => max width text.length) 0

namespace Flag

def line (flag : Flag) : String :=
  let width := widest (all.map entry)
  let remarks := flag.defaultRemark ++ flag.choicesRemark
  "  " ++ padded width flag.entry ++ "  " ++ " ".intercalate (flag.purpose false :: remarks)

def meaningLines (flag : Flag) : List String :=
  let width := widest (flag.meanings.map Prod.fst) + 1
  flag.meanings.map fun meaning => "- " ++ padded width (meaning.1 ++ ":") ++ " " ++ meaning.2

def inset : String := "          "

/-- A flag with everything there is to say about it below, in paragraphs. Only the line before the
list of values is empty; the others between paragraphs are set in. -/
def details (flag : Flag) : String :=
  let meanings := flag.meaningLines
  let purpose := [flag.purpose true] ++ flag.details?.toList
  let values := if meanings.isEmpty then [] else "" :: ("Possible values:" :: meanings).map (inset ++ ·)
  let remarks := flag.defaultRemark ++ if meanings.isEmpty then flag.choicesRemark else []
  let apart := if remarks.isEmpty then [] else [inset]
  "\n".intercalate (["  " ++ flag.entry] ++
    (purpose.map (inset ++ ·)).intersperse inset ++ values ++ apart ++ remarks.map (inset ++ ·))

end Flag

namespace Tool

def usage (tool : Tool) : String :=
  "Usage: " ++ tool.name ++ " [OPTIONS]"

def help (tool : Tool) (detailed : Bool) : String :=
  let flags :=
    if detailed then "\n\n".intercalate (Flag.all.map Flag.details)
    else "\n".intercalate (Flag.all.map Flag.line)
  tool.about ++ "\n\n" ++ tool.usage ++ "\n\nOptions:\n" ++ flags ++ "\n"

def release (tool : Tool) : String :=
  tool.name ++ " " ++ version

end Tool

end Redline
