import IBLexer.Scan.Cursor
import Mathlib.Algebra.Group.Nat.Defs

/-! Reading moves a position by counting: the line grows by the line feeds that are read,
and without a line feed the column grows by the characters. A text shorter than the range
of a counter therefore never leads back to where it began. -/
namespace IBLexer

namespace Position

theorem not_lt_of_lt {p q : Position} (hlt : p < q) : ¬q < p := by
  simp only [lt_iff, UInt32.lt_iff_toNat_lt, ← UInt32.toNat_inj] at *
  omega

theorem ofNat_ne_zero {n : Nat} (hpos : 0 < n) (hlt : n < 2 ^ 32) :
    UInt32.ofNat n ≠ 0 := by
  intro hzero
  have hnat := congrArg UInt32.toNat hzero
  rw [UInt32.toNat_ofNat_of_lt' hlt] at hnat
  exact absurd hnat (Nat.ne_of_gt hpos)

theorem line_after (position : Position) (text : List Char) :
    (position.after text).line = position.line + UInt32.ofNat (text.count '\n') := by
  induction text generalizing position with
  | nil => simp
  | cons c text ih =>
    rw [after_cons, ih, advance]
    by_cases hfeed : c = '\n'
    · subst hfeed
      rw [if_pos rfl, List.count_cons_self, UInt32.ofNat_add, UInt32.add_assoc,
        UInt32.add_comm 1]
      rfl
    · rw [if_neg hfeed, List.count_cons_of_ne hfeed]

theorem after_of_notMem {text : List Char} (hline : '\n' ∉ text) (position : Position) :
    position.after text = ⟨position.line, position.column + UInt32.ofNat text.length⟩ := by
  induction text generalizing position with
  | nil => simp
  | cons c text ih =>
    rw [List.mem_cons, not_or] at hline
    rw [after_cons, ih hline.2, advance, if_neg (Ne.symm hline.1), List.length_cons,
      UInt32.ofNat_add, UInt32.add_assoc, UInt32.add_comm 1]
    rfl

theorem after_ne_self {text : List Char} (hne : text ≠ []) (hlt : text.length < 2 ^ 32)
    (position : Position) : position.after text ≠ position := by
  intro hsame
  by_cases hline : '\n' ∈ text
  · have hle := List.count_le_length (a := '\n') (l := text)
    have hstay := (line_after position text).symm.trans (congrArg line hsame)
    apply ofNat_ne_zero (List.count_pos_iff.mpr hline) (Nat.lt_of_le_of_lt hle hlt)
    simpa using hstay
  · have hstay := congrArg column ((after_of_notMem hline position).symm.trans hsame)
    apply ofNat_ne_zero (List.length_pos_iff.mpr hne) hlt
    simpa using hstay

theorem toNat_line_after_start {text : List Char} (hlt : text.length + 1 < 2 ^ 32) :
    (start.after text).line.toNat = 1 + text.count '\n' := by
  have hle := List.count_le_length (a := '\n') (l := text)
  have hcount : text.count '\n' < 2 ^ 32 := by omega
  have hline : 1 + text.count '\n' < 2 ^ 32 := by omega
  rw [line_after, UInt32.toNat_add, UInt32.toNat_ofNat_of_lt' hcount]
  exact Nat.mod_eq_of_lt hline

def down (lines : Nat) (position : Position) : Position :=
  ⟨position.line + UInt32.ofNat lines, position.column⟩

theorem after_down (position : Position) (lines : Nat) (text : List Char) :
    (position.down lines).after text = (position.after text).down lines := by
  induction text generalizing position with
  | nil => rfl
  | cons c text ih =>
    rw [after_cons, after_cons, ← ih]
    congr 1
    simp only [advance, down]
    split
    · rw [UInt32.add_assoc, UInt32.add_assoc, UInt32.add_comm 1]
    · rfl

end Position

/-- Where reading stands: in which file, at which position, and behind which part of the
line. -/
structure Place where
  file : String
  position : Position
  line : String
deriving DecidableEq, Repr

namespace Place

def start (file : String) : Place := ⟨file, .start, ""⟩

def after (place : Place) (text : List Char) : Place :=
  ⟨place.file, place.position.after text, extendLine place.line text⟩

@[simp] theorem position_after (place : Place) (text : List Char) :
    (place.after text).position = place.position.after text := rfl

@[simp] theorem after_nil (place : Place) : place.after [] = place := rfl

theorem after_append (place : Place) (text more : List Char) :
    place.after (text ++ more) = (place.after text).after more := by
  simp only [after, Position.after_append, extendLine_append]

end Place

def Cursor.place (cursor : Cursor) : Place := ⟨cursor.file, cursor.position, cursor.lineText⟩

end IBLexer
