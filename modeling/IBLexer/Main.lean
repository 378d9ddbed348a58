import IBLexer.CommandLine.Run

/-! The program itself: it reads the one file that its arguments name and prints what the
run answers. -/
namespace IBLexer.CommandLine

/-- Some system calls report the number of an error negated. -/
def refusal (code : UInt32) (reason : String) : ReadError :=
  match min code (0 - code) with
  | 2 => .notFound
  | 20 => .notADirectory
  | 21 => .isADirectory
  | 36 => .nameTooLong
  | number => .refused reason.capitalize number.toNat

def readFailure : IO.Error → ReadError
  | .noFileOrDirectory _ code reason
  | .inappropriateType _ code reason
  | .invalidArgument _ code reason
  | .permissionDenied _ code reason => refusal code reason
  | error => .refused error.toString 0

def readFile (path : String) : IO (Except ReadError Bytes) := do
  try
    let bytes ← IO.FS.readBinFile path
    return .ok bytes.toList
  catch error =>
    return .error (readFailure error)

end IBLexer.CommandLine

open IBLexer CommandLine in
def main (arguments : List String) : IO UInt32 := do
  let called := (← IO.appPath).toString :: arguments
  let contents ←
    match parse called with
    | .ok (.run options) => readFile options.file
    | _ => pure (.ok [])
  let outcome := run (fun _ => contents) called
  IO.print outcome.stdout
  IO.eprint outcome.stderr
  return outcome.status.toUInt32
