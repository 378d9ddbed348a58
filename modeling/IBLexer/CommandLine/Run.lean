import IBLexer.CommandLine.Request
import IBLexer.Fault.Diagnostic
import IBLexer.Source.SourceFile
import IBLexer.Token.Listing

/-! One run of the program, given its arguments and a way to read files. Faults in the
source go to the standard output, like the listing; every other failure goes to the
standard error. The lines that a run logs on request are left out, and so are an output that
cannot be written and a path that is not text. -/
namespace IBLexer.CommandLine

structure Outcome where
  status : Nat
  stdout : String
  stderr : String
deriving DecidableEq, Repr

def loadFailure (path : String) (error : LoadError) : Outcome :=
  ⟨1, "", Paint.red "Error" ++ ": " ++ path ++ ": " ++ error.message ++ "\n"⟩

def scan (source : SourceFile) (recover : Bool) : List Token × List Fault :=
  if recover then source.tokenizeRecovering
  else
    match source.tokenize with
    | .ok tokens => (tokens, [])
    | .error fault => ([], [fault])

/-- Tokens are listed only when there is no fault to report. -/
def Options.run (options : Options) (read : String → Except ReadError Bytes) : Outcome :=
  match SourceFile.load read options.file with
  | .error error => loadFailure options.file error
  | .ok source =>
    let (tokens, faults) := scan source options.recover
    if faults.isEmpty then
      ⟨0, if options.printTokens then Listing.render source.name tokens else "", ""⟩
    else ⟨1, String.join (faults.map Fault.report), ""⟩

def answer (read : String → Except ReadError Bytes) : Except UsageError Request → Outcome
  | .error error => ⟨1, "", error.message⟩
  | .ok (.help program) => ⟨0, helpText program ++ "\n", ""⟩
  | .ok (.version program) => ⟨0, titleLine program ++ "\n", ""⟩
  | .ok (.run options) => options.run read

def run (read : String → Except ReadError Bytes) (arguments : List String) : Outcome :=
  answer read (parse arguments)

end IBLexer.CommandLine
