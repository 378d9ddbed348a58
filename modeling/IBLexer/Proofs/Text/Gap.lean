import IBLexer.Proofs.Text.Line
import IBLexer.Unicode.Blank

/-! The way from one position to a later one, written with line feeds and blanks. Between two
places of a text there always is one, and it has line feeds only if the text between has. -/
namespace IBLexer

theorem one_add_ofNat_pred {n : UInt32} (hpos : 0 < n.toNat) :
    1 + UInt32.ofNat (n.toNat - 1) = n := by
  have hlt := n.toNat_lt
  have hpred : n.toNat - 1 < 2 ^ 32 := by omega
  have hone : (1 : UInt32).toNat = 1 := rfl
  rw [← UInt32.toNat_inj, UInt32.toNat_add, UInt32.toNat_ofNat_of_lt' hpred, hone]
  omega

namespace Position

def feedsTo (pen position : Position) : List Char :=
  List.replicate (position.line.toNat - pen.line.toNat) '\n'

def blanksTo (pen position : Position) : List Char :=
  List.replicate (position.column.toNat - pen.column.toNat) ' '

/-- What leads a pen to a position: first down, then to the right. -/
def gap (pen position : Position) : List Char :=
  let feeds := pen.feedsTo position
  feeds ++ (pen.after feeds).blanksTo position

def gap? (pen position : Position) : Option (List Char) :=
  if pen.after (pen.gap position) = position then some (pen.gap position) else none

theorem after_replicate_feed (position : Position) (count : Nat) :
    position.after (List.replicate (count + 1) '\n') =
      ⟨position.line + UInt32.ofNat (count + 1), 1⟩ := by
  have hline := line_after position (List.replicate (count + 1) '\n')
  rw [List.count_replicate_self] at hline
  rw [← hline, List.replicate_succ', after_append]
  rfl

theorem after_replicate_blank (position : Position) (count : Nat) :
    position.after (List.replicate count ' ') =
      ⟨position.line, position.column + UInt32.ofNat count⟩ := by
  have hline : '\n' ∉ List.replicate count ' ' :=
    fun hmem => absurd (List.eq_of_mem_replicate hmem) (by decide)
  rw [after_of_notMem hline, List.length_replicate]

end Position

/-- The gap takes a pen over a text: it consists of blanks, has a line feed only where the text
has one, and is empty only for no text. -/
structure Bridges (pen : Position) (skipped gap : List Char) : Prop where
  gap?_eq : pen.gap? (pen.after skipped) = some gap
  after_eq : pen.after gap = pen.after skipped
  blank : ∀ c ∈ gap, Unicode.isBlank c = true
  feed : '\n' ∈ gap → '\n' ∈ skipped
  ne_nil : skipped ≠ [] → gap ≠ []

theorem feedsTo_after {drawn skipped : List Char} (hlt : (drawn ++ skipped).length + 1 < 2 ^ 32) :
    (Position.start.after drawn).feedsTo ((Position.start.after drawn).after skipped) =
      List.replicate (skipped.count '\n') '\n' := by
  have hdrawn : drawn.length + 1 < 2 ^ 32 := by
    rw [List.length_append] at hlt
    omega
  have hcount : drawn.count '\n' + skipped.count '\n' = (drawn ++ skipped).count '\n' :=
    List.count_append.symm
  rw [Position.feedsTo, ← Position.after_append, Position.toNat_line_after_start hlt,
    Position.toNat_line_after_start hdrawn, ← hcount]
  congr 1
  omega

/-- The pen reaches the end of the text: on the same line by blanks alone, on a later line by
blanks from its first column. -/
theorem after_gap {drawn skipped : List Char} (hlt : (drawn ++ skipped).length + 1 < 2 ^ 32) :
    (Position.start.after drawn).after
        ((Position.start.after drawn).gap ((Position.start.after drawn).after skipped)) =
      (Position.start.after drawn).after skipped := by
  rw [Position.gap, feedsTo_after hlt, Position.after_append]
  cases hcount : skipped.count '\n' with
  | zero =>
    have hline : '\n' ∉ skipped := List.count_eq_zero.mp hcount
    have hcolumn := Position.toNat_column_after_append hline hlt
    rw [Position.after_append] at hcolumn
    rw [List.replicate_zero, Position.after_nil, Position.blanksTo, hcolumn,
      Nat.add_sub_cancel_left, Position.after_replicate_blank, Position.after_of_notMem hline]
  | succ count =>
    have hline := Position.line_after (Position.start.after drawn) skipped
    have hcolumn := Position.toNat_column_after_start hlt
    rw [Position.after_append] at hcolumn
    have hpos : 0 < ((Position.start.after drawn).after skipped).column.toNat := by omega
    rw [Position.after_replicate_feed, Position.blanksTo, Position.after_replicate_blank, ← hcount,
      ← hline]
    exact congrArg (Position.mk _) (one_add_ofNat_pred hpos)

theorem exists_bridge {drawn skipped : List Char} (hlt : (drawn ++ skipped).length + 1 < 2 ^ 32) :
    ∃ gap, Bridges (Position.start.after drawn) skipped gap := by
  have hafter := after_gap hlt
  have hfeeds := feedsTo_after hlt
  refine ⟨_, if_pos hafter, hafter, ?_, ?_, ?_⟩
  · intro c hc
    rcases List.mem_append.mp hc with hfeed | hblank
    · rw [List.eq_of_mem_replicate hfeed]
      decide
    · rw [List.eq_of_mem_replicate hblank]
      decide
  · intro hc
    rcases List.mem_append.mp hc with hfeed | hblank
    · rw [hfeeds] at hfeed
      exact List.count_pos_iff.mp (Nat.pos_of_ne_zero (List.mem_replicate.mp hfeed).1)
    · exact absurd (List.eq_of_mem_replicate hblank) (by decide)
  · intro hne hnil
    rw [hnil] at hafter
    refine Position.after_ne_self hne ?_ _ hafter.symm
    rw [List.length_append] at hlt
    omega

end IBLexer
