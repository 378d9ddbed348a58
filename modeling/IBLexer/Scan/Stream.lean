import IBLexer.Scan.Scanner

/-! Two policies drive a scanner to the end of its text. The strict one stops at the first
fault; the recovering one notes the fault, gives up the rest of that line and goes on. -/
namespace IBLexer

namespace Scanner

def strict (scanner : Scanner) : Except Fault (List Token) :=
  match _ : scanner.next with
  | (.error fault, _) => .error fault
  | (.ok none, moved) => moved.strict
  | (.ok (some token), moved) =>
    if _ : token.isEndOfFile then .ok moved.finish else (moved.push token).strict
termination_by scanner.cursor.rest.length
decreasing_by
  · exact length_rest_next_ok_lt ‹_› (by simp)
  · rw [cursor_push]
    exact length_rest_next_ok_lt ‹_› (by simpa using ‹¬token.isEndOfFile = true›)

def recovering (scanner : Scanner) (faults : Array Fault) : List Token × List Fault :=
  match _ : scanner.next with
  | (.error fault, moved) => moved.resync.recovering (faults.push fault)
  | (.ok none, moved) => moved.recovering faults
  | (.ok (some token), moved) =>
    if _ : token.isEndOfFile then (moved.finish, faults.toList)
    else (moved.push token).recovering faults
termination_by scanner.cursor.rest.length
decreasing_by
  · exact length_rest_resync_lt ‹_›
  · exact length_rest_next_ok_lt ‹_› (by simp)
  · rw [cursor_push]
    exact length_rest_next_ok_lt ‹_› (by simpa using ‹¬token.isEndOfFile = true›)

theorem strict_of_error {scanner moved : Scanner} {fault : Fault}
    (hnext : scanner.next = (.error fault, moved)) : scanner.strict = .error fault := by
  rw [strict]
  split <;> simp_all

theorem strict_of_none {scanner moved : Scanner} (hnext : scanner.next = (.ok none, moved)) :
    scanner.strict = moved.strict := by
  rw [strict]
  split <;> simp_all

theorem strict_of_token {scanner moved : Scanner} {token : Token}
    (hnext : scanner.next = (.ok (some token), moved)) (hend : token.isEndOfFile = false) :
    scanner.strict = (moved.push token).strict := by
  rw [strict]
  split <;> simp_all

theorem strict_of_end {scanner moved : Scanner} {token : Token}
    (hnext : scanner.next = (.ok (some token), moved)) (hend : token.isEndOfFile = true) :
    scanner.strict = .ok moved.finish := by
  rw [strict]
  split <;> simp_all

theorem recovering_of_error {scanner moved : Scanner} {fault : Fault}
    (hnext : scanner.next = (.error fault, moved)) (faults : Array Fault) :
    scanner.recovering faults = moved.resync.recovering (faults.push fault) := by
  rw [recovering]
  split <;> simp_all

theorem recovering_of_none {scanner moved : Scanner} (hnext : scanner.next = (.ok none, moved))
    (faults : Array Fault) : scanner.recovering faults = moved.recovering faults := by
  rw [recovering]
  split <;> simp_all

theorem recovering_of_token {scanner moved : Scanner} {token : Token}
    (hnext : scanner.next = (.ok (some token), moved)) (hend : token.isEndOfFile = false)
    (faults : Array Fault) :
    scanner.recovering faults = (moved.push token).recovering faults := by
  rw [recovering]
  split <;> simp_all

theorem recovering_of_end {scanner moved : Scanner} {token : Token}
    (hnext : scanner.next = (.ok (some token), moved)) (hend : token.isEndOfFile = true)
    (faults : Array Fault) :
    scanner.recovering faults = (moved.finish, faults.toList) := by
  rw [recovering]
  split <;> simp_all

end Scanner

def defaultFile : String := "shell"

def tokenize (source : String) (file? : Option String) : Except Fault (List Token) :=
  (Scanner.ofCursor (Cursor.ofText (file?.getD defaultFile) source)).strict

def tokenizeRecovering (source : String) (file? : Option String) : List Token × List Fault :=
  (Scanner.ofCursor (Cursor.ofText (file?.getD defaultFile) source)).recovering #[]

end IBLexer
