import IBLexer.Proofs.Stream.Passage
import IBLexer.Scan.Session

/-! Scripts of operations lead a cursor through its text. Whatever a script does to a cursor
is to consume and to look, so what these two keep is kept by every script. -/
namespace IBLexer

namespace Cursor

/-- The end of the text is noticed nowhere else. -/
def MarksEnd (cursor : Cursor) : Prop := cursor.exhausted = true → cursor.rest = []

/-- The moved cursor was consumed and looked at from the first one. -/
inductive Moves (cursor : Cursor) : Cursor → Prop where
  | stay : cursor.Moves cursor
  | consume {moved : Cursor} (count : Nat) : cursor.Moves moved → cursor.Moves (moved.consume count)
  | look {moved : Cursor} : cursor.Moves moved → cursor.Moves moved.look

theorem passes_nil (cursor : Cursor) : cursor.Passes [] cursor := ⟨rfl, rfl⟩

theorem passes_take (cursor : Cursor) (count : Nat) :
    cursor.Passes (cursor.rest.take count) (cursor.consume count) :=
  ⟨(List.take_append_drop count cursor.rest).symm, rfl⟩

theorem marksEnd_ofText (file text : String) : (ofText file text).MarksEnd := by
  intro hexhausted
  contradiction

theorem MarksEnd.consume {cursor : Cursor} (hmarks : cursor.MarksEnd) (count : Nat) :
    (cursor.consume count).MarksEnd := by
  intro hexhausted
  rw [rest_consume, hmarks hexhausted, List.drop_nil]

theorem MarksEnd.look {cursor : Cursor} (hmarks : cursor.MarksEnd) : cursor.look.MarksEnd := by
  intro hexhausted
  rcases Bool.or_eq_true_iff.mp hexhausted with hbefore | hempty
  · exact hmarks hbefore
  · exact List.isEmpty_iff.mp hempty

theorem MarksEnd.exhausted_look {cursor : Cursor} (hmarks : cursor.MarksEnd) :
    cursor.look.exhausted = cursor.rest.isEmpty := by
  cases hrest : cursor.rest with
  | nil => simp [Cursor.look, hrest]
  | cons c text =>
    have hbefore : cursor.exhausted = false := by
      rw [Bool.eq_false_iff]
      intro hexhausted
      rw [hmarks hexhausted] at hrest
      contradiction
    simp [Cursor.look, hrest, hbefore]

namespace Moves

variable {cursor moved last : Cursor}

theorem trans (hmoves : cursor.Moves moved) (hnext : moved.Moves last) : cursor.Moves last := by
  induction hnext with
  | stay => exact hmoves
  | consume count _ ih => exact ih.consume count
  | look _ ih => exact ih.look

theorem exists_passes (hmoves : cursor.Moves moved) : ∃ text, cursor.Passes text moved := by
  induction hmoves with
  | stay => exact ⟨[], cursor.passes_nil⟩
  | consume count _ ih =>
    obtain ⟨text, hpass⟩ := ih
    exact ⟨_, hpass.trans (passes_take _ count)⟩
  | look _ ih =>
    obtain ⟨text, hpass⟩ := ih
    exact ⟨text, hpass.look⟩

theorem marksEnd (hmoves : cursor.Moves moved) (hmarks : cursor.MarksEnd) : moved.MarksEnd := by
  induction hmoves with
  | stay => exact hmarks
  | consume count _ ih => exact ih.consume count
  | look _ ih => exact ih.look

end Moves

theorem inLine_of_mem_line {cursor : Cursor} {c : Char} (hc : c ∈ cursor.line) : inLine c = true :=
  List.mem_takeWhile_imp hc

theorem passes_skipLine (cursor : Cursor) : cursor.Passes cursor.line cursor.skipLine :=
  (passes_consume List.takeWhile_append_dropWhile.symm).look

theorem stops_skipLine (cursor : Cursor) : Stops inLine cursor.skipLine.rest := by
  rw [skipLine, rest_skipWhile]
  exact stops_dropWhile inLine cursor.rest

theorem line_position_skipLine (cursor : Cursor) :
    cursor.skipLine.position.line = cursor.position.line := by
  rw [cursor.passes_skipLine.position]
  rw [Position.after_of_notMem (notMem_feed_of_inLine fun c => inLine_of_mem_line)]

theorem moves_skipWhile (cursor : Cursor) (accept : Char → Bool) :
    cursor.Moves (cursor.skipWhile accept) :=
  (Moves.stay.consume _).look

theorem moves_skipLine (cursor : Cursor) : cursor.Moves cursor.skipLine :=
  cursor.moves_skipWhile _

theorem moves_advance (cursor : Cursor) : cursor.Moves cursor.advance.2 := by
  unfold advance
  split
  · exact Moves.stay.look
  · exact Moves.stay.consume 1

theorem moves_blanks (cursor : Cursor) : cursor.Moves cursor.blanks.2 := by
  unfold blanks
  dsimp only
  split
  · exact (cursor.moves_skipWhile _).consume 1
  · exact cursor.moves_skipWhile _

theorem moves_lineEnd (cursor : Cursor) : cursor.Moves cursor.lineEnd.2 := by
  unfold lineEnd
  split
  · exact Moves.stay.look
  · exact cursor.moves_blanks

theorem moves_comment (cursor : Cursor) : cursor.Moves cursor.comment.2 := by
  have hslash : cursor.Moves (cursor.consume 1).look := (Moves.stay.consume 1).look
  unfold comment
  dsimp only
  split
  · exact (hslash.trans (moves_skipLine _)).trans (moves_lineEnd _)
  · exact hslash

theorem moves_quoted (cursor : Cursor) (delimiter : Char) :
    cursor.Moves (cursor.quoted delimiter).2 := by
  unfold quoted
  dsimp only
  split
  · exact ((Moves.stay.consume 1).consume _).look.consume 1
  · exact ((Moves.stay.consume 1).consume _).look

theorem moves_next (cursor : Cursor) : cursor.Moves cursor.next.2 := by
  cases hrest : cursor.rest with
  | nil =>
    rw [next_of_rest_nil hrest]
    exact Moves.stay.look
  | cons c text =>
    rw [Rule.next_eq_step hrest]
    cases Rule.ofChar c with
    | blank => exact cursor.moves_blanks
    | slash => exact cursor.moves_comment
    | literal => exact cursor.moves_quoted c
    | number | word => exact cursor.moves_skipWhile _
    | operator | bracket => exact Moves.stay.consume 1
    | stray => exact Moves.stay

end Cursor

namespace Reading.Session

def run (session : Session) (operations : List Operation) : Session :=
  operations.foldl (fun session operation => (session.apply operation).2) session

structure Began (origin : Cursor) (session : Session) : Prop where
  cursor : origin.Moves session.cursor
  saved : origin.Moves session.saved

theorem Began.apply {origin : Cursor} {session : Session} (hbegan : session.Began origin)
    (operation : Operation) : (session.apply operation).2.Began origin := by
  cases operation with
  | peek => exact ⟨hbegan.cursor.look, hbegan.saved⟩
  | advance => exact ⟨hbegan.cursor.trans (Cursor.moves_advance _), hbegan.saved⟩
  | skip => exact ⟨hbegan.cursor.trans (Cursor.moves_skipLine _), hbegan.saved⟩
  | save => exact ⟨hbegan.cursor, hbegan.cursor⟩
  | restore => exact ⟨hbegan.saved, hbegan.saved⟩

theorem Began.run {origin : Cursor} {session : Session} (hbegan : session.Began origin)
    (operations : List Operation) : (session.run operations).Began origin := by
  induction operations generalizing session with
  | nil => exact hbegan
  | cons operation operations ih => exact ih (hbegan.apply operation)

theorem moves_run (origin : Cursor) (operations : List Operation) :
    origin.Moves ((ofCursor origin).run operations).cursor := by
  have hbegan : (ofCursor origin).Began origin := ⟨.stay, .stay⟩
  exact (hbegan.run operations).cursor

end Reading.Session

namespace Scanning

def run (scanner : Scanner) (operations : List Operation) : Scanner :=
  operations.foldl (fun scanner operation => (apply scanner operation).2) scanner

theorem cursor_take (scanner : Scanner) : scanner.take.2.cursor = scanner.next.2.cursor := by
  unfold Scanner.take
  split
  · next hnext => rw [Scanner.cursor_push, hnext]
  · rfl

theorem moves_apply (scanner : Scanner) (operation : Operation) :
    scanner.cursor.Moves (apply scanner operation).2.cursor := by
  cases operation with
  | next => exact scanner.cursor.moves_next
  | take =>
    change scanner.cursor.Moves scanner.take.2.cursor
    rw [cursor_take]
    exact scanner.cursor.moves_next
  | resync => exact scanner.cursor.moves_skipLine
  | push token =>
    change scanner.cursor.Moves (scanner.push token).cursor
    rw [Scanner.cursor_push]
    exact .stay

theorem moves_run (scanner : Scanner) (operations : List Operation) :
    scanner.cursor.Moves (run scanner operations).cursor := by
  induction operations generalizing scanner with
  | nil => exact .stay
  | cons operation operations ih => exact (moves_apply scanner operation).trans (ih _)

end Scanning

/-- The scanner that one script makes out of a cursor to which another one has led. -/
def reached (file source : String) (reads : List Reading.Operation)
    (operations : List Scanning.Operation) : Scanner :=
  Scanning.run (.ofCursor ((Reading.Session.ofCursor (.ofText file source)).run reads).cursor)
    operations

theorem marksEnd_reached (file source : String) (reads : List Reading.Operation)
    (operations : List Scanning.Operation) :
    (reached file source reads operations).cursor.MarksEnd := by
  have hreads := Reading.Session.moves_run (.ofText file source) reads
  apply (hreads.trans (Scanning.moves_run (.ofCursor _) operations)).marksEnd
  exact Cursor.marksEnd_ofText file source

end IBLexer
