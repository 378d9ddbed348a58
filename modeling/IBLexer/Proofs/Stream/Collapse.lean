import IBLexer.Scan.Scanner

/-! Line ends that directly follow a line end are dropped from a stream. Dropping them piece
by piece or once at the end comes to the same, since only the last token of what was kept
matters for what comes next. -/
namespace IBLexer

/-- Drops each line end that directly follows a line end; `ended` tells whether the first
token of the list follows one. -/
def collapseAfter (ended : Bool) : List Token → List Token
  | [] => []
  | token :: tokens =>
    if ended && token.isEndOfLine then collapseAfter true tokens
    else token :: collapseAfter token.isEndOfLine tokens

def collapse (tokens : List Token) : List Token := collapseAfter false tokens

def endsLine (ended : Bool) (tokens : List Token) : Bool :=
  tokens.foldl (fun _ token => token.isEndOfLine) ended

theorem collapseAfter_append (ended : Bool) (tokens more : List Token) :
    collapseAfter ended (tokens ++ more) =
      collapseAfter ended tokens ++ collapseAfter (endsLine ended tokens) more := by
  induction tokens generalizing ended with
  | nil => rfl
  | cons token tokens ih =>
    simp only [List.cons_append, collapseAfter, endsLine, List.foldl_cons]
    split
    · next hdrop =>
      rw [Bool.and_eq_true] at hdrop
      rw [ih, endsLine, hdrop.2]
    · rw [ih, endsLine, List.cons_append]

theorem endsLine_collapseAfter (ended : Bool) (tokens : List Token) :
    endsLine ended (collapseAfter ended tokens) = endsLine ended tokens := by
  induction tokens generalizing ended with
  | nil => rfl
  | cons token tokens ih =>
    simp only [collapseAfter]
    split
    · next hdrop =>
      rw [Bool.and_eq_true] at hdrop
      rw [hdrop.1, ih, endsLine, endsLine, List.foldl_cons, hdrop.2]
    · exact ih token.isEndOfLine

/-- What was collapsed behind any token can be collapsed again behind a line end. -/
theorem collapseAfter_collapseAfter {ended before : Bool} (hended : before = true → ended = true)
    (tokens : List Token) :
    collapseAfter ended (collapseAfter before tokens) = collapseAfter ended tokens := by
  induction tokens generalizing ended before with
  | nil => rfl
  | cons token tokens ih =>
    cases hend : token.isEndOfLine with
    | false => simp [collapseAfter, hend, ih id]
    | true =>
      cases before with
      | true => simp [collapseAfter, hend, hended rfl, ih id]
      | false => cases ended <;> simp [collapseAfter, hend, ih id]

theorem collapseAfter_collapseAfter_append (ended : Bool) (tokens more : List Token) :
    collapseAfter ended (collapseAfter ended tokens ++ more) =
      collapseAfter ended (tokens ++ more) := by
  rw [collapseAfter_append, collapseAfter_append, collapseAfter_collapseAfter id,
    endsLine_collapseAfter]

theorem collapseAfter_append_collapse (ended : Bool) (tokens more : List Token) :
    collapseAfter ended (tokens ++ collapse more) = collapseAfter ended (tokens ++ more) := by
  rw [collapseAfter_append, collapseAfter_append, collapse,
    collapseAfter_collapseAfter Bool.noConfusion]

theorem collapseAfter_append_endOfFile (ended : Bool) (tokens : List Token) (position : Position) :
    collapseAfter ended (tokens ++ [.endOfFile position]) =
      collapseAfter ended tokens ++ [.endOfFile position] := by
  rw [collapseAfter_append]
  cases endsLine ended tokens <;> rfl

theorem collapseAfter_sublist (ended : Bool) (tokens : List Token) :
    (collapseAfter ended tokens).Sublist tokens := by
  induction tokens generalizing ended with
  | nil => exact .slnil
  | cons token tokens ih =>
    rw [collapseAfter]
    split
    · exact (ih true).cons token
    · exact (ih token.isEndOfLine).cons_cons token

theorem collapseAfter_map {change : Token → Token}
    (hchange : ∀ token, (change token).isEndOfLine = token.isEndOfLine) (ended : Bool)
    (tokens : List Token) :
    collapseAfter ended (tokens.map change) = (collapseAfter ended tokens).map change := by
  induction tokens generalizing ended with
  | nil => rfl
  | cons token tokens ih =>
    simp only [List.map_cons, collapseAfter, hchange, ih]
    split <;> rfl

namespace Scanner

def ended (scanner : Scanner) : Bool := scanner.kept.back?.any Token.isEndOfLine

theorem toList_kept_push (scanner : Scanner) (token : Token) :
    (scanner.push token).kept.toList =
      scanner.kept.toList ++ collapseAfter scanner.ended [token] := by
  simp only [push, ended, collapseAfter, Bool.and_comm]
  split <;> simp_all

theorem ended_push (scanner : Scanner) (token : Token) :
    (scanner.push token).ended = token.isEndOfLine := by
  simp only [push, ended]
  split
  · next hdrop =>
    rw [Bool.and_eq_true] at hdrop
    rw [hdrop.1, hdrop.2]
  · simp

def pushAll (scanner : Scanner) (tokens : List Token) : Scanner := tokens.foldl push scanner

theorem toList_kept_pushAll (scanner : Scanner) (tokens : List Token) :
    (scanner.pushAll tokens).kept.toList =
      scanner.kept.toList ++ collapseAfter scanner.ended tokens := by
  induction tokens generalizing scanner with
  | nil => exact (List.append_nil _).symm
  | cons token tokens ih =>
    have hsplit := collapseAfter_append scanner.ended [token] tokens
    rw [pushAll, List.foldl_cons, ← pushAll, ih, toList_kept_push, ended_push, List.append_assoc]
    exact congrArg (scanner.kept.toList ++ ·) hsplit.symm

theorem ended_pushAll (scanner : Scanner) (tokens : List Token) :
    (scanner.pushAll tokens).ended = endsLine scanner.ended tokens := by
  induction tokens generalizing scanner with
  | nil => rfl
  | cons token tokens ih =>
    rw [pushAll, List.foldl_cons, ← pushAll, ih, ended_push]
    rfl

end Scanner
end IBLexer
