/-! What can go wrong, and how it is said. -/

namespace Redline

inductive DiffError where
  | tempFileFailed (step cause : String)
  | notStarted (program cause : String)
  | failed (program : String) (status : Int)
  | noStatus (program : String)
  | notText (cause : String)
  deriving DecidableEq, Repr

def DiffError.message : DiffError → String
  | .tempFileFailed step cause => s!"{step} failed: {cause}"
  | .notStarted program cause => s!"Failed to run {program}: {cause}"
  | .failed program status => s!"{program} failed with exit status {status}"
  | .noStatus program => s!"Failed to get exit status of {program}"
  | .notText cause => s!"Invalid UTF-8 in diff output: {cause}"

inductive CompletionError where
  | blankKey
  | notEncoded (cause : String)
  | notSent (cause : String)
  | notRead (cause : String)
  | notParsed (cause : String)
  | noChoices
  deriving DecidableEq, Repr

def CompletionError.message : CompletionError → String
  | .blankKey => "Blank API key is forbidden"
  | .notEncoded cause => s!"marshalling JSON: {cause}"
  | .notSent cause => s!"sending request: {cause}"
  | .notRead cause => s!"reading response body: {cause}"
  | .notParsed cause => s!"parsing response: {cause}"
  | .noChoices => "no choices in response"

inductive SettingsError where
  | inputFailed (cause : String)
  | noHome
  | keyFileFailed (path cause : String)
  | missingKey
  | missingMessage
  deriving DecidableEq, Repr

def SettingsError.message : SettingsError → String
  | .inputFailed cause => s!"Failed to read message from standard input: {cause}"
  | .noHome => "Could not determine home directory"
  | .keyFileFailed path cause => s!"Failed to read API key from {path}: {cause}"
  | .missingKey => "API key is required"
  | .missingMessage => "Message is required"

inductive Failure where
  | output (cause : String)
  | settings (error : SettingsError)
  | completion (error : CompletionError)
  | diff (error : DiffError)
  deriving DecidableEq, Repr

/-- A failure is said as its cause says it. -/
def Failure.message : Failure → String
  | .output cause => s!"Failed to write output: {cause}"
  | .settings error => error.message
  | .completion error => error.message
  | .diff error => error.message

end Redline
