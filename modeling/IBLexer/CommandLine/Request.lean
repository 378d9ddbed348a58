import IBLexer.CommandLine.Similarity
import IBLexer.Source.Path

/-! The command line takes flags and at most one file, in any order. Help and version are
answered where they stand, so only the arguments before them can be wrong; repeated flags
are noticed last. -/
namespace IBLexer.CommandLine

inductive Flag where
  | help | recover | tokens | version
deriving DecidableEq, Repr

namespace Flag

def all : List Flag := [help, recover, tokens, version]

def name : Flag → String
  | help => "help"
  | recover => "recover"
  | tokens => "tokens"
  | version => "version"

def ofName? (name : String) : Option Flag := all.find? fun flag => flag.name == name

def ofLetter? : Char → Option Flag
  | 'h' => some help
  | 'V' => some version
  | _ => none

end Flag

structure Options where
  file : String
  printTokens : Bool
  recover : Bool
deriving DecidableEq, Repr

inductive Request where
  | help (program : String)
  | version (program : String)
  | run (options : Options)
deriving DecidableEq, Repr

inductive UsageError where
  | unknown (argument : String) (meant? : Option Flag) (program : String) (used : List Flag)
  | repeated (flag : Flag) (program : String) (used : List Flag)
deriving DecidableEq, Repr

def programName : String := "iblang"

def title (program : String) : String :=
  let letters := program.toList
  if letters.contains ' ' then String.ofList (letters.map fun c => if c = ' ' then '-' else c)
  else programName

def titleLine (program : String) : String := title program ++ " 0.1.0"

def defaultPath : String := "./example.ib"

def usage (program : String) (used : List Flag) : String :=
  if used.isEmpty then program ++ " [FLAGS] [FILE]"
  else
    let shown := Flag.all.filter used.contains
    String.intercalate " " (program :: shown.map fun flag => "--" ++ flag.name)

def helpText (program : String) : String :=
  String.intercalate "\n"
    [titleLine program,
     "IBlang contributors",
     "Lexical front end for the IBlang experimental language",
     "",
     "USAGE:",
     "    " ++ usage program [],
     "",
     "FLAGS:",
     "    -h, --help       Prints help information",
     "        --recover    Report every lexical error instead of stopping at the first",
     "        --tokens     Print the token stream",
     "    -V, --version    Prints version information",
     "",
     "ARGS:",
     "    <FILE>    Source file to tokenize (defaults to ./example.ib)"]

namespace UsageError

def suggestion (flag : Flag) : String :=
  "\n\tDid you mean \x1b[32m--\x1b[0m\x1b[32m" ++ flag.name ++ "\x1b[0m?"

def reason : UsageError → String
  | unknown argument meant? _ _ =>
    s!"Found argument '{argument}' which wasn't expected, or isn't valid in this context" ++
      (meant?.map suggestion).getD ""
  | repeated flag _ _ =>
    s!"The argument '--{flag.name}' was provided more than once, but cannot be used multiple times"

def usageLine : UsageError → String
  | unknown _ meant? program used => usage program (used ++ meant?.toList)
  | repeated _ program used => usage program used

def message (error : UsageError) : String :=
  "error: " ++ error.reason ++ "\n\nUSAGE:\n    " ++ error.usageLine ++
    "\n\nFor more information try --help\n"

end UsageError

/-- What has been read of the arguments. After `--` no argument is a flag. -/
structure Progress where
  program : String
  used : List Flag
  file? : Option String
  flagsEnded : Bool
deriving DecidableEq, Repr

inductive Ending where
  | answer (request : Request)
  | failure (error : UsageError)
deriving DecidableEq, Repr

namespace Progress

def start (program? : Option String) : Progress :=
  ⟨(program?.bind Path.fileName?).getD programName, [], none, false⟩

def fail {α : Type} (progress : Progress) (argument : String) (meant? : Option Flag) :
    Except Ending α :=
  .error (.failure (.unknown argument meant? progress.program progress.used))

def takeFlag (progress : Progress) : Flag → Except Ending Progress
  | .help => .error (.answer (.help progress.program))
  | .version => .error (.answer (.version progress.program))
  | flag => .ok { progress with used := progress.used ++ [flag] }

def takeFile (progress : Progress) (argument : String) : Except Ending Progress :=
  if progress.file?.isSome then progress.fail argument none
  else .ok { progress with file? := some argument }

/-- A long flag may be written with more than two dashes and with a value, which is ignored. -/
def longName (argument : List Char) : List Char :=
  (argument.dropWhile (· == '-')).takeWhile (· != '=')

/-- Flags are compared with a mistaken one in the order in which they are declared. -/
def candidates : List Flag := [.tokens, .recover, .help, .version]

def takeLong (progress : Progress) (name : String) : Except Ending Progress :=
  match Flag.ofName? name with
  | some flag => progress.takeFlag flag
  | none => progress.fail ("--" ++ name) (Similarity.suggest? Flag.name name candidates)

def takeShort (progress : Progress) (letter : Char) : Except Ending Progress :=
  match Flag.ofLetter? letter with
  | some flag => progress.takeFlag flag
  | none => progress.fail (String.ofList ['-', letter]) none

/-- A dash by itself is a file, and so is the empty argument. -/
def step (progress : Progress) (argument : String) : Except Ending Progress :=
  if progress.flagsEnded then progress.takeFile argument
  else
    match argument.toList with
    | ['-', '-'] => .ok { progress with flagsEnded := true }
    | '-' :: '-' :: name => progress.takeLong (String.ofList (longName name))
    | '-' :: letter :: _ => progress.takeShort letter
    | _ => progress.takeFile argument

def finish (progress : Progress) : Except UsageError Request :=
  match Flag.all.find? fun flag => 1 < progress.used.count flag with
  | some flag => .error (.repeated flag progress.program progress.used)
  | none => .ok (.run
      { file := progress.file?.getD defaultPath
        printTokens := progress.used.contains .tokens
        recover := progress.used.contains .recover })

end Progress

/-- The first argument is the path by which the program was called. -/
def parse (arguments : List String) : Except UsageError Request :=
  match arguments.tail.foldlM Progress.step (Progress.start arguments.head?) with
  | .ok progress => progress.finish
  | .error (.answer request) => .ok request
  | .error (.failure error) => .error error

end IBLexer.CommandLine
