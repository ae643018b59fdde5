import Redline.Cli.Help

/-! The manual page of a tool. -/

namespace Redline

namespace Manual

/-- A character in the text of a page. A hyphen that is typed is not one that breaks a word, and a
quote is not one that begins a request. -/
def escapedChar (c : Char) : String :=
  if c = '-' then "\\-" else if c = '\\' then "\\\\" else if c = '\'' then "\\*(Aq" else c.toString

def escaped (text : String) : String :=
  String.join (text.toList.map escapedChar)

def bold (text : String) : String :=
  "\\fB" ++ escaped text ++ "\\fR"

def slanted (text : String) : String :=
  "\\fI" ++ escaped text ++ "\\fR"

def quoteLines : List String :=
  [".ie \\n(.g .ds Aq \\(aq", ".el .ds Aq '"]

def part (heading : String) (lines : List String) : List String :=
  (".SH " ++ heading) :: lines

def flagForms (flag : Flag) : String :=
  let letter := flag.letter?.toList.map fun letter => bold ("-" ++ letter.toString)
  let value := flag.valueName?.toList.map fun value => slanted ("<" ++ value ++ ">")
  " ".intercalate
    (", ".intercalate (letter ++ [bold flag.typed]) :: value ++ flag.defaultRemark.map escaped)

def valueItem (flag : Flag) (value : String) : List String :=
  let meaning := match flag.meanings.find? fun entry => entry.1 = value with
    | some (_, text) => ": " ++ text
    | none => ""
  [".IP \\(bu 2", escaped (value ++ meaning)]

def flagValues (flag : Flag) : List String :=
  match flag.choices? with
  | none => []
  | some values =>
    [".br", "", ".br", slanted "Possible values:", ".RS 14"] ++ values.flatMap (valueItem flag) ++
      [".RE"]

def flagEntry (flag : Flag) : List String :=
  let details := flag.details?.toList.flatMap fun text => ["", escaped text]
  [".TP", flagForms flag, escaped (flag.purpose true)] ++ details ++ flagValues flag

def flagSynopsis (flag : Flag) : String :=
  let letter := flag.letter?.toList.map fun letter => bold ("-" ++ letter.toString)
  "[" ++ "|".intercalate (letter ++ [bold flag.typed]) ++ "] "

end Manual

open Manual in
def Tool.manual (tool : Tool) : String :=
  let title := ".TH " ++ tool.name ++ " 1  \"" ++ tool.release ++ "\" "
  let lines :=
    quoteLines ++ [title] ++
    part "NAME" [escaped (tool.name ++ " - " ++ tool.about)] ++
    part "SYNOPSIS" [bold tool.name ++ " " ++ String.join (Flag.all.map flagSynopsis)] ++
    part "DESCRIPTION" [escaped tool.about] ++
    part "OPTIONS" (Flag.all.flatMap flagEntry) ++
    part "VERSION" ["v" ++ version]
  "\n".intercalate lines ++ "\n"

end Redline
