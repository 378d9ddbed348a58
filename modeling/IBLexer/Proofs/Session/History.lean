import IBLexer.Proofs.Session.Loop
import IBLexer.Proofs.Text.Line

/-! What a cursor shows is determined by what was read since it was fresh. A saved cursor keeps
the history that it had, and restoring it brings that history back. Only the mark of the end
depends on more than the number of characters read: on whether the end was met in reading. -/
namespace IBLexer

/-- The cursor stands behind the first `count` characters of the text, and no counter has
overflowed on the way. -/
structure Cursor.StandsAt (cursor : Cursor) (file : String) (text : List Char) (count : Nat) :
    Prop where
  count_le : count ≤ text.length
  file_eq : cursor.file = file
  rest_eq : cursor.rest = text.drop count
  line_eq : cursor.position.line.toNat = 1 + (text.take count).count '\n'
  column_eq : cursor.position.column.toNat = 1 + (lastLine (text.take count)).length
  lineText_eq : cursor.lineText.toList = lastLine (text.take count)

theorem Cursor.Passes.standsAt {file source : String} {front : List Char} {cursor : Cursor}
    (hpass : (ofText file source).Passes front cursor) (hlength : source.length ≤ 2 ^ 32 - 2) :
    cursor.StandsAt file source.toList front.length := by
  have htext : source.toList = front ++ cursor.rest := hpass.rest
  have hplace : cursor.place = (Place.start file).after front := hpass.place
  have hall := length_toList_lt hlength
  have htake : source.toList.take front.length = front := by rw [htext, List.take_left]
  have hposition : cursor.position = Position.start.after front := congrArg Place.position hplace
  rw [htext, List.length_append] at hall
  have hlt : front.length + 1 < 2 ^ 32 := by omega
  constructor
  · rw [htext, List.length_append]
    exact Nat.le_add_right _ _
  · exact hpass.file
  · rw [htext, List.drop_left]
  · rw [htake, hposition, Position.toNat_line_after_start hlt]
  · rw [htake, hposition, Position.toNat_column_after_start hlt, Nat.add_comm]
  · rw [htake, hpass.lineText]
    exact Place.toList_line_after_start file front

namespace Reading

structure Event where
  operation : Operation
  left : List Char
  answer : List Char
deriving DecidableEq, Repr

namespace Event

/-- The characters that were consumed. An advance at the end of the text answers a character
without consuming any. -/
def text (event : Event) : List Char :=
  match event.operation with
  | .advance => if event.left.isEmpty then [] else event.answer
  | .skip => event.answer
  | .peek | .save | .restore => []

def meetsEnd (event : Event) : Bool :=
  match event.operation with
  | .peek | .advance => event.left.isEmpty
  | .skip => event.answer.length == event.left.length
  | .save | .restore => false

end Event

def Session.event? (session : Session) (operation : Operation) : Option Event :=
  (session.apply operation).1.map fun answer => ⟨operation, session.cursor.rest, answer⟩

structure Record where
  session : Session
  history : List Event
  saved : List Event
deriving DecidableEq, Repr

namespace Record

def ofCursor (cursor : Cursor) : Record := ⟨.ofCursor cursor, [], []⟩

def apply (record : Record) (operation : Operation) : Record :=
  let session := (record.session.apply operation).2
  match operation with
  | .save => ⟨session, record.history, record.history⟩
  | .restore => ⟨session, record.saved, record.saved⟩
  | .peek | .advance | .skip =>
    ⟨session, record.history ++ (record.session.event? operation).toList, record.saved⟩

def run (record : Record) (operations : List Operation) : Record := operations.foldl apply record

theorem session_apply (record : Record) (operation : Operation) :
    (record.apply operation).session = (record.session.apply operation).2 := by
  cases operation <;> rfl

theorem session_run (record : Record) (operations : List Operation) :
    (record.run operations).session = record.session.run operations := by
  induction operations generalizing record with
  | nil => rfl
  | cons operation operations ih =>
    exact (ih (record.apply operation)).trans (by rw [session_apply]; rfl)

end Record

structure Describes (origin : Cursor) (history : List Event) (cursor : Cursor) : Prop where
  passes : origin.Passes (history.flatMap Event.text) cursor
  exhausted_eq : cursor.exhausted = history.any Event.meetsEnd

namespace Describes

variable {origin cursor moved : Cursor} {history : List Event}

theorem nil (hfresh : origin.exhausted = false) : Describes origin [] origin :=
  ⟨origin.passes_nil, hfresh⟩

theorem concat (hdescribes : Describes origin history cursor) {event : Event}
    (hpass : cursor.Passes event.text moved)
    (hexhausted : moved.exhausted = (cursor.exhausted || event.meetsEnd)) :
    Describes origin (history ++ [event]) moved := by
  constructor
  · rw [List.flatMap_append, List.flatMap_singleton]
    exact hdescribes.passes.trans hpass
  · rw [hexhausted, hdescribes.exhausted_eq, List.any_append, List.any_cons, List.any_nil,
      Bool.or_false]

theorem peek (hdescribes : Describes origin history cursor) :
    Describes origin (history ++ [⟨.peek, cursor.rest, [cursor.peek.1]⟩]) cursor.peek.2 :=
  hdescribes.concat cursor.passes_nil.look rfl

theorem advance (hdescribes : Describes origin history cursor) :
    Describes origin (history ++ [⟨.advance, cursor.rest, [cursor.advance.1]⟩])
      cursor.advance.2 := by
  apply hdescribes.concat
  · cases hrest : cursor.rest with
    | nil => simpa [Event.text, Cursor.advance, hrest] using cursor.passes_nil.look
    | cons c text =>
      have hpass : cursor.Passes [c] (cursor.consume 1) := Cursor.passes_consume hrest
      simpa [Event.text, Cursor.advance, hrest] using hpass
  · cases hrest : cursor.rest with
    | nil => simp [Event.meetsEnd, Cursor.advance, Cursor.look, hrest]
    | cons c text => simp [Event.meetsEnd, Cursor.advance, hrest]

theorem skip (hdescribes : Describes origin history cursor) :
    Describes origin (history ++ [⟨.skip, cursor.rest, cursor.line⟩]) cursor.skipLine := by
  have hle : cursor.line.length ≤ cursor.rest.length := (List.takeWhile_prefix _).length_le
  apply hdescribes.concat
  · exact cursor.passes_skipLine
  · -- All that was left was skipped if nothing is left behind the line.
    have hall : (cursor.rest.drop cursor.line.length).isEmpty =
        (cursor.line.length == cursor.rest.length) := by
      rw [Bool.eq_iff_iff, List.isEmpty_iff, List.drop_eq_nil_iff, beq_iff_eq]
      omega
    exact congrArg (cursor.exhausted || ·) hall

end Describes

structure Record.Sound (origin : Cursor) (record : Record) : Prop where
  cursor : Describes origin record.history record.session.cursor
  saved : Describes origin record.saved record.session.saved

theorem Record.Sound.apply {origin : Cursor} {record : Record} (hsound : record.Sound origin)
    (operation : Operation) : (record.apply operation).Sound origin := by
  cases operation with
  | peek => exact ⟨hsound.cursor.peek, hsound.saved⟩
  | advance => exact ⟨hsound.cursor.advance, hsound.saved⟩
  | skip => exact ⟨hsound.cursor.skip, hsound.saved⟩
  | save => exact ⟨hsound.cursor, hsound.cursor⟩
  | restore => exact ⟨hsound.saved, hsound.saved⟩

theorem Record.Sound.run {origin : Cursor} {record : Record} (hsound : record.Sound origin)
    (operations : List Operation) : (record.run operations).Sound origin := by
  induction operations generalizing record with
  | nil => exact hsound
  | cons operation operations ih => exact ih (hsound.apply operation)

/-- What the reading operations answer behind the first `count` characters of the text, and
what they change. Past the end they answer a blank, and a skip is a loop of peeks and
advances. -/
structure Session.AnswersAt (session : Session) (file : String) (text : List Char) (count : Nat) :
    Prop where
  peek : session.apply .peek = (some [text.getD count ' '],
    { session with cursor :=
      { session.cursor with exhausted := session.cursor.exhausted || count == text.length } })
  advance : ∀ c ∈ text[count]?, ∃ cursor,
    session.apply .advance = (some [c], { session with cursor }) ∧
      cursor.StandsAt file text (count + 1)
  advance_end : count = text.length →
    session.apply .advance = (some [' '],
      { session with cursor := { session.cursor with exhausted := true } })
  skip : ∃ run cursor, session.apply .skip = (some run, { session with cursor }) ∧
    session.cursor.ReadsWhile
      (fun c looked => !looked.exhausted && !(c == '\n' || c == '\r')) run cursor ∧
    (∀ c ∈ run, c ≠ '\n' ∧ c ≠ '\r') ∧
    (∀ c ∈ text[count + run.length]?, c = '\n' ∨ c = '\r') ∧
    text.drop count = run ++ text.drop (count + run.length) ∧
    cursor.StandsAt file text (count + run.length) ∧
    cursor.position.line = session.cursor.position.line ∧
    ((session.apply .skip).2.apply .skip).1 = some []

namespace Session

variable {session : Session} {file source : String} {front : List Char}

theorem answersAt_of_passes (hpass : (Cursor.ofText file source).Passes front session.cursor)
    (hmarks : session.cursor.MarksEnd) (hlength : source.length ≤ 2 ^ 32 - 2) :
    session.AnswersAt file source.toList front.length := by
  have htext : source.toList = front ++ session.cursor.rest := hpass.rest
  have hdrop : source.toList.drop front.length = session.cursor.rest := by
    rw [htext, List.drop_left]
  have hget : source.toList[front.length]? = session.cursor.rest.head? := by
    rw [← hdrop, List.head?_drop]
  constructor
  case peek =>
    have hfirst : session.cursor.rest.headD ' ' = source.toList.getD front.length ' ' := by
      rw [List.getD_eq_getElem?_getD, hget, List.headD_eq_head?_getD]
    have hempty : session.cursor.rest.isEmpty = (front.length == source.toList.length) := by
      rw [htext, List.length_append, Bool.eq_iff_iff, List.isEmpty_iff, beq_iff_eq,
        ← List.length_eq_zero_iff]
      omega
    rw [← hfirst, ← hempty]
    rfl
  case advance =>
    intro c hc
    rw [hget] at hc
    obtain ⟨text, hrest⟩ := List.head?_eq_some_iff.mp hc
    have hread : session.cursor.Passes [c] (session.cursor.consume 1) :=
      Cursor.passes_consume hrest
    have hstands := (hpass.trans hread).standsAt hlength
    rw [List.length_append] at hstands
    exact ⟨_, by simp [apply, Cursor.advance, hrest], hstands⟩
  case advance_end =>
    intro hend
    have hnil : session.cursor.rest = [] := by
      rw [← hdrop, hend, List.drop_length]
    simp [apply, Cursor.advance, Cursor.look, Cursor.sentinel, hnil]
  case skip =>
    have hskip := session.cursor.passes_skipLine
    have hstop := session.cursor.stops_skipLine
    have hstands := (hpass.trans hskip).standsAt hlength
    rw [List.length_append] at hstands
    refine ⟨_, _, rfl, (Cursor.readsWhile_skipLine_iff hmarks).mpr ⟨rfl, rfl⟩,
      fun c hc => ne_break_of_inLine (Cursor.inLine_of_mem_line hc), ?_, ?_, hstands,
      session.cursor.line_position_skipLine, ?_⟩
    · intro c hc
      rw [← List.head?_drop, ← hstands.rest_eq] at hc
      exact break_of_not_inLine (hstop c hc)
    · rw [hdrop, ← hstands.rest_eq]
      exact hskip.rest
    · exact congrArg some (Cursor.run_eq rfl (by simp) hstop)

end Session

/-- The history of a cursor determines it. The characters read make up the front part of the
text behind which the cursor stands, that part tells everything but the mark of the end, and
the end is marked when some operation of the history met it. -/
theorem history_determines_cursor {source : String} (hlength : source.length ≤ 2 ^ 32 - 2)
    (file : String) (operations : List Operation) :
    let record := (Record.ofCursor (.ofText file source)).run operations
    let cursor := record.session.cursor
    record.session = (Session.ofCursor (.ofText file source)).run operations ∧
      ∃ count, record.history.flatMap Event.text = source.toList.take count ∧
        cursor.StandsAt file source.toList count ∧
        (cursor.exhausted = true ↔ ∃ event ∈ record.history, event.meetsEnd = true) ∧
        (cursor.exhausted = true → count = source.length) ∧
        record.session.AnswersAt file source.toList count := by
  intro record cursor
  have hsession : record.session = (Session.ofCursor (.ofText file source)).run operations :=
    Record.session_run _ operations
  have hfresh : (Record.ofCursor (.ofText file source)).Sound (.ofText file source) :=
    ⟨.nil rfl, .nil rfl⟩
  have hdescribes := (hfresh.run operations).cursor
  have htext : source.toList = record.history.flatMap Event.text ++ cursor.rest :=
    hdescribes.passes.rest
  have hmarks : cursor.MarksEnd := by
    have hmoves := Session.moves_run (.ofText file source) operations
    rw [← hsession] at hmoves
    exact hmoves.marksEnd (Cursor.marksEnd_ofText file source)
  refine ⟨hsession, _, ?_, hdescribes.passes.standsAt hlength, ?_, ?_,
    Session.answersAt_of_passes hdescribes.passes hmarks hlength⟩
  · rw [htext, List.take_left]
  · rw [hdescribes.exhausted_eq, List.any_eq_true]
  · intro hexhausted
    rw [← String.length_toList, htext, hmarks hexhausted, List.append_nil]

/-- Behind a word, a blank is read again after the end was met and the cursor restored. -/
theorem history_determines_cursor_restored :
    let source := "a \nb"
    let operations : List Operation :=
      [.advance, .save, .skip, .advance, .advance, .advance, .restore, .advance, .peek]
    let record := (Record.ofCursor (.ofText "a.ib" source)).run operations
    source.length ≤ 2 ^ 32 - 2 ∧
      record.history.map Event.text = [['a'], [' '], []] ∧
      record.session.cursor.StandsAt "a.ib" source.toList 2 ∧
      record.session.AnswersAt "a.ib" source.toList 2 := by
  intro source operations record
  have hlength : source.length ≤ 2 ^ 32 - 2 := by decide
  have hhistory : record.history.map Event.text = [['a'], [' '], []] := by decide +kernel
  obtain ⟨-, count, htext, hstands, -, -, hanswers⟩ :=
    history_determines_cursor hlength "a.ib" operations
  have hcount : count = 2 := by
    have hread : record.history.flatMap Event.text = source.toList.take count := htext
    have hlengths := congrArg List.length hread
    rw [List.flatMap_def, hhistory, List.length_take, Nat.min_eq_left hstands.count_le] at hlengths
    exact hlengths.symm
  exact ⟨hlength, hhistory, hcount ▸ hstands, hcount ▸ hanswers⟩

end Reading
end IBLexer
