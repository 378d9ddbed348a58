import IBLexer.Scan.Stream
import IBLexer.Source.FileTree
import IBLexer.Text.Utf8

/-! A source file is a text with the name that diagnostics call it by. Its bytes must be
UTF-8 and are taken as they are: no byte order mark is dropped and no line end changed. -/
namespace IBLexer

structure SourceFile where
  name : String
  contents : String
deriving DecidableEq, Repr

inductive LoadError where
  | unreadable (error : ReadError)
  | invalidText (defect : Utf8.Defect)
deriving DecidableEq, Repr

def LoadError.message : LoadError → String
  | unreadable error => error.message
  | invalidText defect => defect.message

namespace SourceFile

def ofBytes (name : String) (bytes : Bytes) : Except LoadError SourceFile :=
  match Utf8.decode bytes with
  | .ok contents => .ok ⟨name, contents⟩
  | .error defect => .error (.invalidText defect)

/-- A loaded file is named by the last name of its path, or by the whole path without one. -/
def load (read : String → Except ReadError Bytes) (path : String) :
    Except LoadError SourceFile :=
  match read path with
  | .ok bytes => ofBytes ((Path.fileName? path).getD path) bytes
  | .error error => .error (.unreadable error)

def cursor (source : SourceFile) : Cursor := Cursor.ofText source.name source.contents

def tokenize (source : SourceFile) : Except Fault (List Token) :=
  IBLexer.tokenize source.contents (some source.name)

def tokenizeRecovering (source : SourceFile) : List Token × List Fault :=
  IBLexer.tokenizeRecovering source.contents (some source.name)

end SourceFile
end IBLexer
