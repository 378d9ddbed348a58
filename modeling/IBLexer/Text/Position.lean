/-! Positions count lines and columns from one, in 32-bit words. A position moves over one
character at a time, so where a text ends is a fold over its characters. -/
namespace IBLexer

structure Position where
  line : UInt32
  column : UInt32
deriving DecidableEq, Repr

namespace Position

def start : Position := ⟨1, 1⟩

/-- Only the line feed opens a line; every other character, a carriage return or a
tab included, takes one column. Both counters wrap around at 2^32. -/
def advance (position : Position) (c : Char) : Position :=
  if c = '\n' then ⟨position.line + 1, 1⟩ else ⟨position.line, position.column + 1⟩

def after (position : Position) (text : List Char) : Position := text.foldl advance position

@[simp] theorem after_nil (position : Position) : position.after [] = position := rfl

@[simp] theorem after_cons (position : Position) (c : Char) (text : List Char) :
    position.after (c :: text) = (position.advance c).after text := rfl

theorem after_append (position : Position) (text more : List Char) :
    position.after (text ++ more) = (position.after text).after more := by
  simp [after]

instance : Ord Position where
  compare p q := (compare p.line q.line).then (compare p.column q.column)

instance : LT Position := ltOfOrd

theorem lt_iff {p q : Position} :
    p < q ↔ p.line < q.line ∨ p.line = q.line ∧ p.column < q.column := by
  change (compare p.line q.line).then (compare p.column q.column) = .lt ↔ _
  rw [Ordering.then_eq_lt, Std.compare_eq_lt, Std.compare_eq_lt, Std.compare_eq_iff_eq]

instance : ToString Position where
  toString position := s!"{position.line}:{position.column}"

def locate (position : Position) (file : String) : String := s!"./{file}:{position}"

end Position
end IBLexer
