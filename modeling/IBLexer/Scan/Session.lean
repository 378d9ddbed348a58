import IBLexer.Scan.Scanner

/-! Scripts of operations, as a caller may run them in any order. A reading session holds a
cursor and one saved copy of it; a scanning session is a scanner on its own. -/
namespace IBLexer

namespace Reading

inductive Operation where
  | peek | advance | skip | save | restore
deriving DecidableEq, Repr

/-- Before anything is saved, the saved cursor is the fresh one. -/
structure Session where
  cursor : Cursor
  saved : Cursor
deriving DecidableEq, Repr

namespace Session

def ofCursor (cursor : Cursor) : Session := ⟨cursor, cursor⟩

def apply (session : Session) : Operation → Option (List Char) × Session
  | .peek =>
    let (c, cursor) := session.cursor.peek
    (some [c], { session with cursor })
  | .advance =>
    let (c, cursor) := session.cursor.advance
    (some [c], { session with cursor })
  | .skip => (some session.cursor.line, { session with cursor := session.cursor.skipLine })
  | .save => (none, { session with saved := session.cursor })
  | .restore => (none, { session with cursor := session.saved })

end Session
end Reading

namespace Scanning

inductive Operation where
  | next | take | resync
  | push (token : Token)
deriving DecidableEq, Repr

def apply (scanner : Scanner) : Operation → Option (Except Fault (Option Token)) × Scanner
  | .next =>
    let (answer, moved) := scanner.next
    (some answer, moved)
  | .take =>
    let (answer, moved) := scanner.take
    (some answer, moved)
  | .resync => (none, scanner.resync)
  | .push token => (none, scanner.push token)

end Scanning
end IBLexer
