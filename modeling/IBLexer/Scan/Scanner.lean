import IBLexer.Scan.Progress

/-! A scanner is a cursor together with the tokens kept so far. Scanning and keeping are
separate operations, so that a caller decides what becomes of each token and each fault. -/
namespace IBLexer

structure Scanner where
  cursor : Cursor
  kept : Array Token
deriving DecidableEq, Repr

namespace Scanner

def ofCursor (cursor : Cursor) : Scanner := ⟨cursor, #[]⟩

def file (scanner : Scanner) : String := scanner.cursor.file

/-- A line end right after a line end is dropped, so blank lines leave no trace. -/
def push (scanner : Scanner) (token : Token) : Scanner :=
  if token.isEndOfLine && scanner.kept.back?.any Token.isEndOfLine then scanner
  else { scanner with kept := scanner.kept.push token }

def next (scanner : Scanner) : Except Fault (Option Token) × Scanner :=
  let step := scanner.cursor.next
  (step.1, { scanner with cursor := step.2 })

def take (scanner : Scanner) : Except Fault (Option Token) × Scanner :=
  match scanner.next with
  | (.ok (some token), moved) => (.ok (some token), moved.push token)
  | answer => answer

def resync (scanner : Scanner) : Scanner :=
  { scanner with cursor := scanner.cursor.skipLine }

def finish (scanner : Scanner) : List Token :=
  (scanner.kept.push (Token.endOfFile scanner.cursor.position)).toList

@[simp] theorem cursor_push (scanner : Scanner) (token : Token) :
    (scanner.push token).cursor = scanner.cursor := by
  unfold push
  split <;> rfl

@[simp] theorem cursor_resync (scanner : Scanner) :
    scanner.resync.cursor = scanner.cursor.skipLine := rfl

@[simp] theorem kept_resync (scanner : Scanner) : scanner.resync.kept = scanner.kept := rfl

@[simp] theorem kept_next (scanner : Scanner) : scanner.next.2.kept = scanner.kept := rfl

theorem length_rest_next_ok_lt {scanner moved : Scanner} {answer : Option Token}
    (hnext : scanner.next = (.ok answer, moved))
    (hend : ∀ token, answer = some token → token.isEndOfFile = false) :
    moved.cursor.rest.length < scanner.cursor.rest.length := by
  have hanswer : scanner.cursor.next.1 = .ok answer := congrArg Prod.fst hnext
  have hmoved : scanner.cursor.next.2 = moved.cursor :=
    congrArg (fun step => step.2.cursor) hnext
  rw [← hmoved]
  apply Cursor.length_rest_next_lt
  · intro heof
    rw [hanswer] at heof
    have hmark := hend _ (Except.ok.inj heof)
    contradiction
  · intro c hfault
    rw [hanswer] at hfault
    contradiction

theorem length_rest_resync_lt {scanner moved : Scanner} {fault : Fault}
    (hnext : scanner.next = (.error fault, moved)) :
    moved.resync.cursor.rest.length < scanner.cursor.rest.length := by
  have herror : scanner.cursor.next.1 = .error fault := congrArg Prod.fst hnext
  have hmoved : scanner.cursor.next.2 = moved.cursor :=
    congrArg (fun step => step.2.cursor) hnext
  rw [cursor_resync, ← hmoved]
  exact Cursor.length_rest_skipLine_next_lt herror

end Scanner
end IBLexer
