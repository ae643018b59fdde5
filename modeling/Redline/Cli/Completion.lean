import Redline.Cli.Help

/-! Scripts that make a shell complete the flags of a tool and their values. -/

namespace Redline

namespace Completion

def replacing (written : Char → Option String) (text : String) : String :=
  String.join (text.toList.map fun c => (written c).getD c.toString)

def forms (flag : Flag) : List String :=
  flag.letter?.toList.map (fun letter => "-" ++ letter.toString) ++ [flag.typed]

def purpose (flag : Flag) : String :=
  flag.purpose false

def meaning (flag : Flag) (value : String) : String :=
  ((flag.meanings.find? fun entry => entry.1 = value).map Prod.snd).getD ""

def script (lines : List String) : String :=
  "\n".intercalate lines ++ "\n"

def bashValues (flag : Flag) : String :=
  match flag.choices? with
  | some values => "$(compgen -W \"" ++ " ".intercalate values ++ "\" -- \"$\x7bcur\x7d\")"
  | none => "$(compgen -f \"$\x7bcur\x7d\")"

def bashCase (flag : Flag) : List String :=
  ["                " ++ flag.typed ++ ")",
   "                    COMPREPLY=(" ++ bashValues flag ++ ")",
   "                    return 0",
   "                    ;;"]

def bash (name : String) : String :=
  let letters := Flag.all.flatMap fun flag => (forms flag).dropLast
  let words := " ".intercalate (letters ++ Flag.all.map Flag.typed)
  script <|
    ["_" ++ name ++ "() \x7b",
     "    local i cur prev opts cmd",
     "    COMPREPLY=()",
     "    if [[ \"$\x7bBASH_VERSINFO[0]\x7d\" -ge 4 ]]; then",
     "        cur=\"$2\"",
     "    else",
     "        cur=\"$\x7bCOMP_WORDS[COMP_CWORD]\x7d\"",
     "    fi",
     "    prev=\"$3\"",
     "    cmd=\"\"",
     "    opts=\"\"",
     "",
     "    for i in \"$\x7bCOMP_WORDS[@]:0:COMP_CWORD\x7d\"",
     "    do",
     "        case \"$\x7bcmd\x7d,$\x7bi\x7d\" in",
     "            \",$1\")",
     "                cmd=\"" ++ name ++ "\"",
     "                ;;",
     "            *)",
     "                ;;",
     "        esac",
     "    done",
     "",
     "    case \"$\x7bcmd\x7d\" in",
     "        " ++ name ++ ")",
     "            opts=\"" ++ words ++ "\"",
     "            if [[ $\x7bcur\x7d == -* || $\x7bCOMP_CWORD\x7d -eq 1 ]] ; then",
     "                COMPREPLY=( $(compgen -W \"$\x7bopts\x7d\" -- \"$\x7bcur\x7d\") )",
     "                return 0",
     "            fi",
     "            case \"$\x7bprev\x7d\" in"] ++
    (Flag.all.filter Flag.takesValue).flatMap bashCase ++
    ["                *)",
     "                    COMPREPLY=()",
     "                    ;;",
     "            esac",
     "            COMPREPLY=( $(compgen -W \"$\x7bopts\x7d\" -- \"$\x7bcur\x7d\") )",
     "            return 0",
     "            ;;",
     "    esac",
     "\x7d",
     "",
     "if [[ \"$\x7bBASH_VERSINFO[0]\x7d\" -eq 4 && \"$\x7bBASH_VERSINFO[1]\x7d\" -ge 4 || " ++
       "\"$\x7bBASH_VERSINFO[0]\x7d\" -gt 4 ]]; then",
     "    complete -F _" ++ name ++ " -o nosort -o bashdefault -o default " ++ name,
     "else",
     "    complete -F _" ++ name ++ " -o bashdefault -o default " ++ name,
     "fi"]

def doubledQuotes : String → String :=
  replacing fun c => if c = '\'' then some "''" else none

def elvishLines (flag : Flag) : List String :=
  (forms flag).map fun form =>
    "            cand " ++ form ++ " '" ++ doubledQuotes (purpose flag) ++ "'"

def elvish (name : String) : String :=
  script <|
    ["",
     "use builtin;",
     "use str;",
     "",
     "set edit:completion:arg-completer[" ++ name ++ "] = \x7b|@words|",
     "    fn spaces \x7b|n|",
     "        builtin:repeat $n ' ' | str:join ''",
     "    \x7d",
     "    fn cand \x7b|text desc|",
     "        edit:complex-candidate $text &display=$text' '(spaces (- 14 (wcswidth $text)))$desc",
     "    \x7d",
     "    var command = '" ++ name ++ "'",
     "    for word $words[1..-1] \x7b",
     "        if (str:has-prefix $word '-') \x7b",
     "            break",
     "        \x7d",
     "        set command = $command';'$word",
     "    \x7d",
     "    var completions = [",
     "        &'" ++ name ++ "'= \x7b"] ++
    Flag.all.flatMap elvishLines ++
    ["        \x7d",
     "    ]",
     "    $completions[$command]",
     "\x7d"]

def fishText : String → String :=
  replacing fun c => if c = '\\' then some "\\\\" else if c = '\'' then some "\\'" else none

def fishLine (name : String) (flag : Flag) : String :=
  let letter := flag.letter?.toList.map fun letter => "-s " ++ letter.toString
  let choice (value : String) : String := value ++ "\\t'" ++ fishText (meaning flag value) ++ "'"
  let values := match flag.choices? with
    | some values => ["-r", "-f", "-a", "\"" ++ "\n".intercalate (values.map choice) ++ "\""]
    | none => if flag.takesValue then ["-r"] else []
  " ".intercalate (["complete", "-c", name] ++ letter ++
    ["-l", flag.name, "-d", "'" ++ fishText (purpose flag) ++ "'"] ++ values)

def fish (name : String) : String :=
  script (Flag.all.map (fishLine name))

/-- A result of PowerShell for every form of a flag. A blank tells a capital letter from the small
one. -/
def powershellLines (flag : Flag) : List String :=
  let room (form : String) : String :=
    if flag.letter?.any Char.isUpper && form ≠ flag.typed then " " else ""
  (forms flag).map fun form =>
    "            [CompletionResult]::new('" ++ form ++ "', '" ++ form ++ room form ++
      "', [CompletionResultType]::ParameterName, '" ++ doubledQuotes (purpose flag) ++ "')"

def powershell (name : String) : String :=
  script <|
    ["",
     "using namespace System.Management.Automation",
     "using namespace System.Management.Automation.Language",
     "",
     "Register-ArgumentCompleter -Native -CommandName '" ++ name ++ "' -ScriptBlock \x7b",
     "    param($wordToComplete, $commandAst, $cursorPosition)",
     "",
     "    $commandElements = $commandAst.CommandElements",
     "    $command = @(",
     "        '" ++ name ++ "'",
     "        for ($i = 1; $i -lt $commandElements.Count; $i++) \x7b",
     "            $element = $commandElements[$i]",
     "            if ($element -isnot [StringConstantExpressionAst] -or",
     "                $element.StringConstantType -ne [StringConstantType]::BareWord -or",
     "                $element.Value.StartsWith('-') -or",
     "                $element.Value -eq $wordToComplete) \x7b",
     "                break",
     "        \x7d",
     "        $element.Value",
     "    \x7d) -join ';'",
     "",
     "    $completions = @(switch ($command) \x7b",
     "        '" ++ name ++ "' \x7b"] ++
    Flag.all.flatMap powershellLines ++
    ["            break",
     "        \x7d",
     "    \x7d)",
     "",
     "    $completions.Where\x7b $_.CompletionText -like \"$wordToComplete*\" \x7d |",
     "        Sort-Object -Property ListItemText",
     "\x7d"]

def zshText : String → String :=
  replacing fun c =>
    if c = '\'' then some "'\\''"
    else if ['\\', '[', ']', ':', '$', '`'].contains c then some ("\\" ++ c.toString)
    else none

def zshValues (flag : Flag) : String :=
  match flag.choices? with
  | none => "_default"
  | some values =>
    let choice (value : String) : String :=
      value ++ "\\:\"" ++ zshText (meaning flag value) ++ "\""
    if flag.meanings.isEmpty then "(" ++ " ".intercalate values ++ ")"
    else "((" ++ "\n".intercalate (values.map choice) ++ "))"

def zshLines (flag : Flag) : List String :=
  let value := match flag.valueName? with
    | some name => ":" ++ name ++ ":" ++ zshValues flag
    | none => ""
  let equals := if flag.takesValue then "=" else ""
  (forms flag).map fun form =>
    "'" ++ form ++ equals ++ "[" ++ zshText (purpose flag) ++ "]" ++ value ++ "' \\"

def zsh (name : String) : String :=
  script <|
    ["#compdef " ++ name,
     "",
     "autoload -U is-at-least",
     "",
     "_" ++ name ++ "() \x7b",
     "    typeset -A opt_args",
     "    typeset -a _arguments_options",
     "    local ret=1",
     "",
     "    if is-at-least 5.2; then",
     "        _arguments_options=(-s -S -C)",
     "    else",
     "        _arguments_options=(-s -C)",
     "    fi",
     "",
     "    local context curcontext=\"$curcontext\" state line",
     "    _arguments \"$\x7b_arguments_options[@]\x7d\" : \\"] ++
    Flag.all.flatMap zshLines ++
    ["&& ret=0",
     "\x7d",
     "",
     "(( $+functions[_" ++ name ++ "_commands] )) ||",
     "_" ++ name ++ "_commands() \x7b",
     "    local commands; commands=()",
     "    _describe -t commands '" ++ name ++ " commands' commands \"$@\"",
     "\x7d",
     "",
     "if [ \"$funcstack[1]\" = \"_" ++ name ++ "\" ]; then",
     "    _" ++ name ++ " \"$@\"",
     "else",
     "    compdef _" ++ name ++ " " ++ name,
     "fi"]

end Completion

def Tool.completion (tool : Tool) : Shell → String
  | .bash => Completion.bash tool.name
  | .elvish => Completion.elvish tool.name
  | .fish => Completion.fish tool.name
  | .powershell => Completion.powershell tool.name
  | .zsh => Completion.zsh tool.name

end Redline
