import IBLexer.Unicode.Alphabetic
import IBLexer.Unicode.Numeric

/-! The classes of characters that the lexical rules tell apart. Words may be written in
any script; operators, brackets and delimiters are ASCII. -/
namespace IBLexer

def isLineBreak (c : Char) : Bool := c == '\n' || c == '\r'

def isDelimiter (c : Char) : Bool := c == '"' || c == '\''

def isWordStart (c : Char) : Bool := Unicode.isAlphabetic c || c == '_'

def isWordPart (c : Char) : Bool := Unicode.isAlphabetic c || Unicode.isNumeric c || c == '_'

def operators : List Char := ['.', ',', '+', '-', '*', '/', '%', '|', '&', '<', '>', '=']

def brackets : List Char := ['{', '}', '(', ')', '[', ']']

theorem isLineBreak_iff {c : Char} : isLineBreak c = true ↔ c = '\n' ∨ c = '\r' := by
  rw [isLineBreak, Bool.or_eq_true, beq_iff_eq, beq_iff_eq]

theorem isDelimiter_iff {c : Char} : isDelimiter c = true ↔ c = '"' ∨ c = '\'' := by
  rw [isDelimiter, Bool.or_eq_true, beq_iff_eq, beq_iff_eq]

/-- The slash opens comments only, so eleven operators are left. -/
theorem mem_operators_and_ne_slash_iff {c : Char} : c ∈ operators ∧ c ≠ '/' ↔
    c ∈ ['.', ',', '+', '-', '*', '%', '|', '&', '<', '>', '='] := by
  have hrest : ['.', ',', '+', '-', '*', '%', '|', '&', '<', '>', '='] =
      operators.filter (· != '/') := by decide
  rw [hrest, List.mem_filter, bne_iff_ne]

theorem mem_brackets_iff {c : Char} : c ∈ brackets ↔ c ∈ ['{', '}', '(', ')', '[', ']'] :=
  Iff.rfl

theorem isWordPart_of_isWordStart {c : Char} (h : isWordStart c = true) : isWordPart c = true := by
  simp only [isWordStart, isWordPart, Bool.or_eq_true] at *
  rcases h with h | h
  · exact Or.inl (Or.inl h)
  · exact Or.inr h

end IBLexer
