import IBLexer.Text.Position

/-! What can be wrong with a source text, and where. A fault quotes its line as far as it
was read, which is all that a diagnostic shows of the source. -/
namespace IBLexer

inductive Fault.Cause where
  /-- A slash that is not followed by a second one. -/
  | malformedComment
  | unterminatedLiteral (delimiter : Char)
  | unhandledCharacter (character : Char)
deriving DecidableEq, Repr

structure Fault where
  cause : Fault.Cause
  position : Position
  file : String
  lineText : String
deriving DecidableEq, Repr

namespace Fault.Cause

def name : Cause → String
  | malformedComment => "MalformedComment"
  | unterminatedLiteral _ => "UnterminatedLiteral"
  | unhandledCharacter _ => "UnhandledCharacter"

def message : Cause → String
  | malformedComment => "Malformed comment"
  | unterminatedLiteral delimiter =>
    "Unterminated literal, missing closing " ++ delimiter.toString
  | unhandledCharacter _ => "Unhandled rune! "

def tip? : Cause → Option String
  | malformedComment => some "Line comments start with `//`"
  | unterminatedLiteral delimiter =>
    some ("Add a closing `" ++ delimiter.toString ++ "` before the end of the line")
  | unhandledCharacter _ => none

end Fault.Cause
end IBLexer
