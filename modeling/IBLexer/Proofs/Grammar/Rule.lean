import IBLexer.Scan.Step
import Mathlib.Tactic.SplitIfs

/-! The classes of characters that open the lexical rules do not overlap, save that a slash
is also an operator. So one character decides the rule, and the order in which the rules are
tried matters for the slash alone. -/
namespace IBLexer

namespace Unicode

theorem inRanges_eq_false_of_disjoint {ranges others : List (Nat × Nat)} {c : Char}
    (hdisjoint : ∀ range ∈ ranges, ∀ other ∈ others, range.2 < other.1 ∨ other.2 < range.1)
    (hc : inRanges ranges c = true) : inRanges others c = false := by
  rw [Bool.eq_false_iff]
  intro hother
  obtain ⟨range, hrange, hlow, hhigh⟩ := inRanges_iff.mp hc
  obtain ⟨other, hmem, hlow', hhigh'⟩ := inRanges_iff.mp hother
  rcases hdisjoint range hrange other hmem with h | h <;> omega

theorem isAlphabetic_of_isBlank {c : Char} (hc : isBlank c = true) : isAlphabetic c = false :=
  inRanges_eq_false_of_disjoint (by decide +kernel) hc

theorem isNumeric_of_isBlank {c : Char} (hc : isBlank c = true) : isNumeric c = false :=
  inRanges_eq_false_of_disjoint (by decide +kernel) hc

theorem isAlphabetic_of_isDigit {c : Char} (hc : c.isDigit = true) : isAlphabetic c = false := by
  have hdigit : inRanges [(0x30, 0x39)] c = true := by
    simp only [Char.isDigit, Bool.and_eq_true, decide_eq_true_eq] at hc
    exact inRanges_iff.mpr ⟨_, .head _, hc⟩
  exact inRanges_eq_false_of_disjoint (by decide +kernel) hdigit

end Unicode

inductive Rule where
  | blank | slash | literal | number | word | operator | bracket | stray
deriving DecidableEq, Repr

namespace Rule

/-- The rule that a character opens. -/
def ofChar (c : Char) : Rule :=
  if Unicode.isBlank c then .blank
  else if c = '/' then .slash
  else if isDelimiter c then .literal
  else if c.isDigit then .number
  else if isWordStart c then .word
  else if c ∈ operators then .operator
  else if c ∈ brackets then .bracket
  else .stray

theorem ofChar_of_isBlank {c : Char} (hc : Unicode.isBlank c = true) : ofChar c = .blank :=
  if_pos hc

theorem ofChar_slash : ofChar '/' = .slash := by decide +kernel

theorem ofChar_of_isDelimiter {c : Char} (hc : isDelimiter c = true) : ofChar c = .literal := by
  rcases isDelimiter_iff.mp hc with rfl | rfl <;> decide +kernel

theorem ofChar_of_mem_operators {c : Char} (hc : c ∈ operators ∧ c ≠ '/') :
    ofChar c = .operator := by
  have hall : operators.all (fun c => c == '/' || ofChar c == .operator) = true := by
    decide +kernel
  have hrule := List.all_eq_true.mp hall c hc.1
  rw [Bool.or_eq_true, beq_iff_eq, beq_iff_eq] at hrule
  exact hrule.resolve_left hc.2

theorem ofChar_of_mem_brackets {c : Char} (hc : c ∈ brackets) : ofChar c = .bracket := by
  have hall : brackets.all (ofChar · == .bracket) = true := by decide +kernel
  exact beq_iff_eq.mp (List.all_eq_true.mp hall c hc)

theorem ofChar_of_isDigit {c : Char} (hc : c.isDigit = true) : ofChar c = .number := by
  have hall : ∀ n < 128, (Char.ofNat n).isDigit = true → ofChar (Char.ofNat n) = .number := by
    decide +kernel
  have hascii : c.toNat < 128 := by
    simp only [Char.isDigit, Bool.and_eq_true, decide_eq_true_eq] at hc
    exact Nat.lt_of_le_of_lt hc.2 (by decide)
  simpa using hall c.toNat hascii (by simpa using hc)

theorem not_isWordPart_of_isBlank {c : Char} (hc : Unicode.isBlank c = true) :
    isWordPart c = false := by
  have hscore : c ≠ '_' := by
    rintro rfl
    exact absurd hc (by decide)
  simp [isWordPart, Unicode.isAlphabetic_of_isBlank hc, Unicode.isNumeric_of_isBlank hc, hscore]

theorem ofChar_of_isWordStart {c : Char} (hc : isWordStart c = true) : ofChar c = .word := by
  have hblank : Unicode.isBlank c = false := by
    rw [Bool.eq_false_iff]
    intro hblank
    have hpart := not_isWordPart_of_isBlank hblank
    rw [isWordPart_of_isWordStart hc] at hpart
    contradiction
  have hslash : c ≠ '/' := by
    rintro rfl
    exact absurd hc (by decide +kernel)
  have hquote : isDelimiter c = false := by
    rw [Bool.eq_false_iff]
    intro hquote
    rcases isDelimiter_iff.mp hquote with rfl | rfl <;> exact absurd hc (by decide +kernel)
  have hdigit : c.isDigit = false := by
    rw [Bool.eq_false_iff]
    intro hdigit
    have hscore : c ≠ '_' := by
      rintro rfl
      exact absurd hdigit (by decide)
    simp [isWordStart, Unicode.isAlphabetic_of_isDigit hdigit, hscore] at hc
  simp [ofChar, hblank, hslash, hquote, hdigit, hc]

def step (cursor : Cursor) (c : Char) : Rule → Cursor.Step
  | blank => cursor.blanks
  | slash => cursor.comment
  | literal => cursor.quoted c
  | number => cursor.number
  | word => cursor.word
  | operator => cursor.symbol (.operator c) c
  | bracket => cursor.symbol (.bracket c) c
  | stray => (.error (cursor.fault (.unhandledCharacter c)), cursor)

theorem next_eq_step {cursor : Cursor} {c : Char} {text : List Char}
    (hrest : cursor.rest = c :: text) : cursor.next = (ofChar c).step cursor c := by
  rw [Cursor.next_of_rest_cons hrest]
  unfold Cursor.element ofChar
  split_ifs <;> rfl

end Rule
end IBLexer
