import IBLexer.Proofs.Grammar.Rule
import IBLexer.Proofs.Text.Place

/-! A text is made of lexical elements and of flaws, which are stretches that begin no
element and reach to the end of their line. Whether a piece fits in a text depends on its
own characters and on the one character that comes after it. -/
namespace IBLexer

/-- No character of the class comes next. -/
def Stops (accept : Char → Bool) (rest : List Char) : Prop :=
  ∀ c ∈ rest.head?, accept c = false

theorem takeWhile_of_stops {accept : Char → Bool} {run rest : List Char}
    (hrun : ∀ c ∈ run, accept c = true) (hstop : Stops accept rest) :
    (run ++ rest).takeWhile accept = run := by
  have hnone : rest.takeWhile accept = [] := by
    cases rest with
    | nil => rfl
    | cons c text => simp [hstop c rfl]
  rw [List.takeWhile_append_of_pos hrun, hnone, List.append_nil]

theorem dropWhile_of_stops {accept : Char → Bool} {run rest : List Char}
    (hrun : ∀ c ∈ run, accept c = true) (hstop : Stops accept rest) :
    (run ++ rest).dropWhile accept = rest := by
  rw [List.dropWhile_append_of_pos hrun]
  cases rest with
  | nil => rfl
  | cons c text => simp [hstop c rfl]

theorem stops_dropWhile (accept : Char → Bool) (text : List Char) :
    Stops accept (text.dropWhile accept) := by
  intro c hc
  have hhead := List.head?_dropWhile_not accept text
  rw [hc] at hhead
  simpa using hhead

def inLine (c : Char) : Bool := !isLineBreak c

theorem inLine_of_not_isBlank {c : Char} (hc : Unicode.isBlank c = false) : inLine c = true := by
  rw [inLine, Bool.not_eq_true', Bool.eq_false_iff]
  intro hbreak
  rw [isBlank_of_isLineBreak hbreak] at hc
  contradiction

theorem ne_break_of_inLine {c : Char} (hc : inLine c = true) : c ≠ '\n' ∧ c ≠ '\r' := by
  constructor <;> rintro rfl <;> exact absurd hc (by decide)

theorem break_of_not_inLine {c : Char} (hc : inLine c = false) : c = '\n' ∨ c = '\r' := by
  rw [inLine, Bool.not_eq_false'] at hc
  exact isLineBreak_iff.mp hc

theorem notMem_feed_of_inLine {text : List Char} (hline : ∀ c ∈ text, inLine c = true) :
    '\n' ∉ text :=
  fun hmem => (ne_break_of_inLine (hline '\n' hmem)).1 rfl

theorem Token.Value.kind_ofWord (letters : List Char) :
    (ofWord letters).kind ≠ .endOfLine ∧ (ofWord letters).kind ≠ .endOfFile := by
  unfold ofWord
  split
  · simp [kind]
  · split_ifs <;> simp [kind]

/-- The lexical elements. A literal holds what stands between its delimiters and a comment
what follows its slashes. -/
inductive Element where
  | blank (c : Char)
  | comment (text : List Char)
  | literal (delimiter : Char) (inside : List Char)
  | number (digits : List Char)
  | word (letters : List Char)
  | operator (symbol : Char)
  | bracket (symbol : Char)
deriving DecidableEq, Repr

namespace Element

def text : Element → List Char
  | blank c | operator c | bracket c => [c]
  | comment text => '/' :: '/' :: text
  | literal delimiter inside => delimiter :: (inside ++ [delimiter])
  | number run | word run => run

/-- The shape of an element that stands before `rest`. Comments, numbers and words are as
long as they can be. -/
def Fits (rest : List Char) : Element → Prop
  | blank c => Unicode.isBlank c = true
  | comment text => (∀ c ∈ text, inLine c = true) ∧ Stops inLine rest
  | literal delimiter inside =>
    isDelimiter delimiter = true ∧ ∀ c ∈ inside, c ≠ delimiter ∧ inLine c = true
  | number digits =>
    digits ≠ [] ∧ (∀ c ∈ digits, c.isDigit = true) ∧ Stops Char.isDigit rest
  | word letters =>
    (∃ first ∈ letters.head?, isWordStart first = true) ∧
      (∀ c ∈ letters, isWordPart c = true) ∧ Stops isWordPart rest
  | operator symbol => symbol ∈ ['.', ',', '+', '-', '*', '%', '|', '&', '<', '>', '=']
  | bracket symbol => symbol ∈ ['{', '}', '(', ')', '[', ']']

def isTrivia : Element → Bool
  | blank _ | comment _ => true
  | _ => false

def token? (position : Position) : Element → Option Token
  | blank c => if c = '\n' then some (.endOfLine position) else none
  | comment _ => none
  | literal delimiter inside =>
    let text := String.ofList (literal delimiter inside).text
    some ⟨.literal (if delimiter = '"' then .string text else .character text), text, position⟩
  | number digits => some ⟨.literal (.integer (String.ofList digits)), String.ofList digits, position⟩
  | word letters => some ⟨.ofWord letters, String.ofList letters, position⟩
  | operator symbol => some ⟨.operator symbol, String.ofList [symbol], position⟩
  | bracket symbol => some ⟨.bracket symbol, String.ofList [symbol], position⟩

theorem token?_marks {element : Element} {position : Position} {token : Token}
    (htoken : token ∈ element.token? position) : token.position = position ∧
      token.isEndOfLine = element.isTrivia ∧ token.isEndOfFile = false := by
  cases element with
  | blank c =>
    simp only [token?] at htoken
    split at htoken
    · cases htoken
      exact ⟨rfl, rfl, rfl⟩
    · contradiction
  | comment _ => contradiction
  | word letters =>
    cases htoken
    have hkind := Token.Value.kind_ofWord letters
    exact ⟨rfl, beq_false_of_ne hkind.1, beq_false_of_ne hkind.2⟩
  | literal _ _ | number _ | operator _ | bracket _ =>
    cases htoken
    exact ⟨rfl, rfl, rfl⟩

theorem exists_token {element : Element} (htrivia : element.isTrivia = false)
    (position : Position) : ∃ token, element.token? position = some token := by
  cases element with
  | blank _ | comment _ => contradiction
  | literal _ _ | number _ | word _ | operator _ | bracket _ => exact ⟨_, rfl⟩

end Element

/-- A flaw holds what follows its first character up to the end of the line. -/
inductive Flaw where
  | stray (c : Char) (more : List Char)
  | slash (more : List Char)
  | unclosed (delimiter : Char) (more : List Char)
deriving DecidableEq, Repr

namespace Flaw

def text : Flaw → List Char
  | stray c more | unclosed c more => c :: more
  | slash more => '/' :: more

def Begins : Flaw → Prop
  | stray c _ => Rule.ofChar c = .stray
  | slash more => more.head? ≠ some '/'
  | unclosed delimiter more => isDelimiter delimiter = true ∧ delimiter ∉ more

def Fits (rest : List Char) (flaw : Flaw) : Prop :=
  flaw.Begins ∧ (∀ c ∈ flaw.text, inLine c = true) ∧ Stops inLine rest

/-- The fault is noted where the first character stands, or behind a slash. The line is
quoted as far as it was read to find the fault. -/
def fault (place : Place) : Flaw → Fault
  | stray c _ => ⟨.unhandledCharacter c, place.position, place.file, (place.after [c]).line⟩
  | slash more =>
    ⟨.malformedComment, (place.after ['/']).position, place.file,
      (place.after ('/' :: more.take 1)).line⟩
  | unclosed delimiter more =>
    ⟨.unterminatedLiteral delimiter, place.position, place.file,
      (place.after (delimiter :: more)).line⟩

end Flaw

inductive Piece where
  | sound (element : Element)
  | flawed (flaw : Flaw)
deriving DecidableEq, Repr

namespace Piece

def text : Piece → List Char
  | sound element => element.text
  | flawed flaw => flaw.text

def Fits (rest : List Char) : Piece → Prop
  | sound element => element.Fits rest
  | flawed flaw => flaw.Fits rest

def token? (place : Place) : Piece → Option Token
  | sound element => element.token? place.position
  | flawed _ => none

def fault? (place : Place) : Piece → Option Fault
  | sound _ => none
  | flawed flaw => some (flaw.fault place)

end Piece
end IBLexer
