import IBLexer.Fault.Basic
import IBLexer.Scan.Cursor
import IBLexer.Token.Basic
import IBLexer.Unicode.Blank

/-! One step of scanning. The next character alone decides which lexical rule applies, and
the rules are tried in a fixed order: a slash always opens a comment although it is also
an operator. A step may end without a token, since blanks and comments carry none. -/
namespace IBLexer

theorem isBlank_of_isLineBreak {c : Char} (h : isLineBreak c = true) :
    Unicode.isBlank c = true := by
  rcases isLineBreak_iff.mp h with rfl | rfl <;> decide

def Token.Value.ofWord (word : List Char) : Token.Value :=
  match Keyword.ofWord? word with
  | some found => .keyword found
  | none =>
    if word.map Char.toLower = "true".toList then .literal (.bool true)
    else if word.map Char.toLower = "false".toList then .literal (.bool false)
    else .identifier (String.ofList word)

namespace Cursor

abbrev Step := Except Fault (Option Token) × Cursor

/-- Quotes the line up to and including the character under the cursor, if it has one. -/
def fault (cursor : Cursor) (cause : Fault.Cause) : Fault :=
  ⟨cause, cursor.position, cursor.file, extendLine cursor.lineText (cursor.line.take 1)⟩

def token (cursor : Cursor) (value : Token.Value) (text : List Char) : Token :=
  ⟨value, String.ofList text, cursor.position⟩

def blanks (cursor : Cursor) : Step :=
  let stop := cursor.skipWhile fun c => Unicode.isBlank c && c != '\n'
  if stop.rest.head? = some '\n' then
    (.ok (some (Token.endOfLine stop.position)), stop.consume 1)
  else (.ok none, stop)

def endOfText (cursor : Cursor) : Step :=
  (.ok (some (Token.endOfFile cursor.position)), cursor.look)

/-- At the end of a line stands a line break or the end of the text, and the step that
skipped the line answers for what stands there. -/
def lineEnd (cursor : Cursor) : Step :=
  if cursor.rest = [] then cursor.endOfText else cursor.blanks

def comment (cursor : Cursor) : Step :=
  let slash := (cursor.consume 1).look
  if slash.rest.head? = some '/' then slash.skipLine.lineEnd
  else (.error (slash.fault .malformedComment), slash)

/-- A literal must close on its own line. The fault stands at the opening delimiter but
quotes everything that was read in search of the closing one. -/
def quoted (cursor : Cursor) (delimiter : Char) : Step :=
  let opened := cursor.consume 1
  let inside := opened.run fun c => c != delimiter && !isLineBreak c
  let stop := (opened.consume inside.length).look
  if stop.rest.head? = some delimiter then
    let text := delimiter :: (inside ++ [delimiter])
    let literal :=
      if delimiter = '"' then Literal.string (String.ofList text)
      else Literal.character (String.ofList text)
    (.ok (some (cursor.token (.literal literal) text)), stop.consume 1)
  else
    (.error ⟨.unterminatedLiteral delimiter, cursor.position, cursor.file, stop.lineText⟩, stop)

def number (cursor : Cursor) : Step :=
  let digits := cursor.run Char.isDigit
  (.ok (some (cursor.token (.literal (.integer (String.ofList digits))) digits)),
    cursor.skipWhile Char.isDigit)

def word (cursor : Cursor) : Step :=
  let text := cursor.run isWordPart
  (.ok (some (cursor.token (Token.Value.ofWord text) text)), cursor.skipWhile isWordPart)

def symbol (cursor : Cursor) (value : Token.Value) (c : Char) : Step :=
  (.ok (some (cursor.token value [c])), cursor.consume 1)

/-- The rule that the character `c` under the cursor begins. An unhandled character is not
consumed, so that a repeated step fails alike. -/
def element (cursor : Cursor) (c : Char) : Step :=
  if Unicode.isBlank c then cursor.blanks
  else if c = '/' then cursor.comment
  else if isDelimiter c then cursor.quoted c
  else if c.isDigit then cursor.number
  else if isWordStart c then cursor.word
  else if c ∈ operators then cursor.symbol (.operator c) c
  else if c ∈ brackets then cursor.symbol (.bracket c) c
  else (.error (cursor.fault (.unhandledCharacter c)), cursor)

def next (cursor : Cursor) : Step :=
  match cursor.rest with
  | [] => cursor.endOfText
  | c :: _ => cursor.element c

theorem next_of_rest_nil {cursor : Cursor} (hrest : cursor.rest = []) :
    cursor.next = cursor.endOfText := by
  simp [next, hrest]

theorem next_of_rest_cons {cursor : Cursor} {c : Char} {text : List Char}
    (hrest : cursor.rest = c :: text) : cursor.next = cursor.element c := by
  simp [next, hrest]

theorem next_skipLine (cursor : Cursor) : cursor.skipLine.next = cursor.skipLine.lineEnd := by
  cases hrest : cursor.skipLine.rest with
  | nil => rw [next_of_rest_nil hrest, lineEnd, if_pos hrest]
  | cons c text =>
    have hstop : isLineBreak c = true := by
      have hhead := List.head?_dropWhile_not (fun c => !isLineBreak c) cursor.rest
      rw [← rest_skipWhile, show cursor.skipWhile (fun c => !isLineBreak c) = cursor.skipLine
        from rfl, hrest] at hhead
      simpa using hhead
    rw [next_of_rest_cons hrest, lineEnd, if_neg (by simp [hrest]), element,
      if_pos (isBlank_of_isLineBreak hstop)]

end Cursor
end IBLexer
