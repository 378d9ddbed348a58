import IBLexer.Text.CharClass
import IBLexer.Text.Position

/-! A cursor stands between two characters of a text. It knows what is left, the position of
the next character, and the text of the line so far. All movement is `consume`, so a cursor
is determined by how much it has consumed; `exhausted` alone also depends on who looked. A run
of characters is taken at once, which comes to the same as peeking and advancing over it. -/
namespace IBLexer

structure Cursor where
  file : String
  rest : List Char
  position : Position
  lineText : String
  exhausted : Bool
deriving DecidableEq, Repr

/-- A line feed clears the line; it never becomes part of a line's text. -/
def extendLine (line : String) (run : List Char) : String :=
  run.foldl (fun line c => if c = '\n' then "" else line.push c) line

@[simp] theorem extendLine_nil (line : String) : extendLine line [] = line := rfl

theorem extendLine_append (line : String) (run more : List Char) :
    extendLine line (run ++ more) = extendLine (extendLine line run) more := by
  simp [extendLine]

namespace Cursor

/-- A read past the end answers a blank, which can begin no token. -/
def sentinel : Char := ' '

def ofText (file : String) (text : String) : Cursor :=
  ⟨file, text.toList, .start, "", false⟩

def consume (cursor : Cursor) (count : Nat) : Cursor :=
  let run := cursor.rest.take count
  { cursor with
    rest := cursor.rest.drop count
    position := cursor.position.after run
    lineText := extendLine cursor.lineText run }

def look (cursor : Cursor) : Cursor :=
  { cursor with exhausted := cursor.exhausted || cursor.rest.isEmpty }

def peek (cursor : Cursor) : Char × Cursor :=
  (cursor.rest.headD sentinel, cursor.look)

def advance (cursor : Cursor) : Char × Cursor :=
  match cursor.rest with
  | [] => (sentinel, cursor.look)
  | c :: _ => (c, cursor.consume 1)

def run (cursor : Cursor) (accept : Char → Bool) : List Char := cursor.rest.takeWhile accept

/-- The run ends by looking at the character that stops it. -/
def skipWhile (cursor : Cursor) (accept : Char → Bool) : Cursor :=
  (cursor.consume (cursor.run accept).length).look

def line (cursor : Cursor) : List Char := cursor.run fun c => !isLineBreak c

def skipLine (cursor : Cursor) : Cursor := cursor.skipWhile fun c => !isLineBreak c

@[simp] theorem rest_ofText (file text : String) : (ofText file text).rest = text.toList := rfl

@[simp] theorem file_consume (cursor : Cursor) (count : Nat) :
    (cursor.consume count).file = cursor.file := rfl

@[simp] theorem rest_consume (cursor : Cursor) (count : Nat) :
    (cursor.consume count).rest = cursor.rest.drop count := rfl

@[simp] theorem position_consume (cursor : Cursor) (count : Nat) :
    (cursor.consume count).position = cursor.position.after (cursor.rest.take count) := rfl

@[simp] theorem lineText_consume (cursor : Cursor) (count : Nat) :
    (cursor.consume count).lineText = extendLine cursor.lineText (cursor.rest.take count) := rfl

@[simp] theorem exhausted_consume (cursor : Cursor) (count : Nat) :
    (cursor.consume count).exhausted = cursor.exhausted := rfl

@[simp] theorem file_look (cursor : Cursor) : cursor.look.file = cursor.file := rfl

@[simp] theorem rest_look (cursor : Cursor) : cursor.look.rest = cursor.rest := rfl

@[simp] theorem position_look (cursor : Cursor) : cursor.look.position = cursor.position := rfl

@[simp] theorem lineText_look (cursor : Cursor) : cursor.look.lineText = cursor.lineText := rfl

theorem consume_consume (cursor : Cursor) (m n : Nat) :
    (cursor.consume m).consume n = cursor.consume (m + n) := by
  simp only [consume, List.drop_drop, List.take_add, Position.after_append, extendLine_append]

theorem rest_skipWhile (cursor : Cursor) (accept : Char → Bool) :
    (cursor.skipWhile accept).rest = cursor.rest.dropWhile accept := by
  have h := List.takeWhile_append_dropWhile (p := accept) (l := cursor.rest)
  calc (cursor.skipWhile accept).rest
      = cursor.rest.drop (cursor.rest.takeWhile accept).length := rfl
    _ = (cursor.rest.takeWhile accept ++ cursor.rest.dropWhile accept).drop
          (cursor.rest.takeWhile accept).length := by rw [h]
    _ = cursor.rest.dropWhile accept := List.drop_left

end Cursor
end IBLexer
