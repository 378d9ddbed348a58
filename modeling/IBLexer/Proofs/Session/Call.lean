import IBLexer.Proofs.Session.Failure

/-! Steps as calls. A comment calls for a further step at the end of its line, and this is the one
place where a step does so: the further step finds a line break or the end of the text, neither of
which begins a comment. A call is paid for by a character that its step leaves behind, except
where the end of the text is met; there a scanner stays whatever is done. -/
namespace IBLexer

def Fault.ofAnswer : Except Fault (Option Token) → List Fault
  | .ok _ => []
  | .error fault => [fault]

namespace Cursor

def namesEnd : Except Fault (Option Token) → Bool
  | .ok (some token) => token.isEndOfFile
  | .ok none | .error _ => false

def seen? (cursor : Cursor) : Option Char :=
  if cursor.peek.2.exhausted then none else some cursor.peek.1

def opened (cursor : Cursor) : Cursor := (cursor.consume 1).look

/-- A step as a number of calls. A call answers on its own, except that the call that finds a
comment answers what the call at the end of the line does. -/
inductive Answers : Nat → Cursor → Step → Prop where
  | endOfText {cursor : Cursor} : cursor.seen? = none → Answers 1 cursor cursor.endOfText
  | element {cursor : Cursor} {c : Char} : cursor.seen? = some c → c ≠ '/' →
    Answers 1 cursor (cursor.element c)
  | slash {cursor : Cursor} : cursor.seen? = some '/' → cursor.opened.seen? ≠ some '/' →
    Answers 1 cursor (.error (cursor.opened.fault .malformedComment), cursor.opened)
  | comment {cursor : Cursor} {calls : Nat} {step : Step} : cursor.seen? = some '/' →
    cursor.opened.seen? = some '/' → Answers calls cursor.opened.skipLine step →
    Answers (calls + 1) cursor step

theorem MarksEnd.seen?_eq {cursor : Cursor} (hmarks : cursor.MarksEnd) :
    cursor.seen? = cursor.rest.head? := by
  have hlook : cursor.peek.2.exhausted = cursor.rest.isEmpty := hmarks.exhausted_look
  rw [seen?, hlook]
  cases hrest : cursor.rest with
  | nil => rfl
  | cons c text => simp [peek, hrest]

theorem MarksEnd.opened {cursor : Cursor} (hmarks : cursor.MarksEnd) : cursor.opened.MarksEnd :=
  (hmarks.consume 1).look

theorem MarksEnd.skipLine {cursor : Cursor} (hmarks : cursor.MarksEnd) :
    cursor.skipLine.MarksEnd :=
  cursor.moves_skipLine.marksEnd hmarks

theorem MarksEnd.exists_rest {cursor : Cursor} (hmarks : cursor.MarksEnd) {c : Char}
    (hseen : cursor.seen? = some c) : ∃ text, cursor.rest = c :: text := by
  rw [hmarks.seen?_eq] at hseen
  exact List.head?_eq_some_iff.mp hseen

theorem MarksEnd.rest_eq_nil {cursor : Cursor} (hmarks : cursor.MarksEnd)
    (hseen : cursor.seen? = none) : cursor.rest = [] := by
  rw [hmarks.seen?_eq] at hseen
  exact List.head?_eq_none_iff.mp hseen

theorem MarksEnd.seen?_skipLine_ne {cursor : Cursor} (hmarks : cursor.MarksEnd) :
    cursor.skipLine.seen? ≠ some '/' := by
  rw [hmarks.skipLine.seen?_eq]
  intro hslash
  have hbreak := cursor.stops_skipLine '/' hslash
  contradiction

theorem next_of_slash {cursor : Cursor} (hmarks : cursor.MarksEnd)
    (hseen : cursor.seen? = some '/') : cursor.next =
      if cursor.opened.seen? = some '/' then cursor.opened.skipLine.next
      else (.error (cursor.opened.fault .malformedComment), cursor.opened) := by
  obtain ⟨text, hrest⟩ := hmarks.exists_rest hseen
  rw [Rule.next_eq_step hrest, Rule.ofChar_slash, hmarks.opened.seen?_eq, next_skipLine]
  rfl

theorem Answers.eq_next {cursor : Cursor} {calls : Nat} {step : Step}
    (hanswers : Answers calls cursor step) (hmarks : cursor.MarksEnd) : step = cursor.next := by
  induction hanswers with
  | endOfText hseen => rw [next_of_rest_nil (hmarks.rest_eq_nil hseen)]
  | element hseen _ =>
    obtain ⟨text, hrest⟩ := hmarks.exists_rest hseen
    rw [next_of_rest_cons hrest]
  | slash hseen hsecond => rw [next_of_slash hmarks hseen, if_neg hsecond]
  | comment hseen hsecond _ ih =>
    rw [next_of_slash hmarks hseen, if_pos hsecond]
    exact ih hmarks.opened.skipLine

theorem Answers.calls_eq_one {cursor : Cursor} {calls : Nat} {step : Step}
    (hanswers : Answers calls cursor step) (hseen : cursor.seen? ≠ some '/') : calls = 1 := by
  cases hanswers with
  | endOfText | element => rfl
  | slash hslash => contradiction
  | comment hslash => contradiction

theorem Answers.calls_le_two {cursor : Cursor} {calls : Nat} {step : Step}
    (hanswers : Answers calls cursor step) (hmarks : cursor.MarksEnd) : calls ≤ 2 := by
  cases hanswers with
  | endOfText | element | slash => decide
  | comment _ _ hinner =>
    have hone := hinner.calls_eq_one hmarks.opened.seen?_skipLine_ne
    omega

theorem answers_next_of_ne_slash {cursor : Cursor} (hmarks : cursor.MarksEnd)
    (hne : cursor.seen? ≠ some '/') : Answers 1 cursor cursor.next := by
  cases hseen : cursor.seen? with
  | none =>
    rw [next_of_rest_nil (hmarks.rest_eq_nil hseen)]
    exact .endOfText hseen
  | some c =>
    obtain ⟨text, hrest⟩ := hmarks.exists_rest hseen
    rw [next_of_rest_cons hrest]
    apply Answers.element hseen
    rintro rfl
    exact hne hseen

theorem exists_answers_next {cursor : Cursor} (hmarks : cursor.MarksEnd) :
    ∃ calls, Answers calls cursor cursor.next := by
  by_cases hseen : cursor.seen? = some '/'
  · rw [next_of_slash hmarks hseen]
    split
    · next hsecond =>
      have hinner := hmarks.opened.skipLine
      have hne := hmarks.opened.seen?_skipLine_ne
      exact ⟨2, .comment hseen hsecond (answers_next_of_ne_slash hinner hne)⟩
    · next hsecond => exact ⟨1, .slash hseen hsecond⟩
  · exact ⟨1, answers_next_of_ne_slash hmarks hseen⟩

structure AtEnd (cursor : Cursor) : Prop where
  rest : cursor.rest = []
  exhausted : cursor.exhausted = true

namespace AtEnd

variable {cursor : Cursor}

theorem look_eq (hend : cursor.AtEnd) : cursor.look = cursor := by
  unfold look
  rw [hend.exhausted, Bool.true_or, ← hend.exhausted]

theorem skipLine_eq (hend : cursor.AtEnd) : cursor.skipLine = cursor := by
  have hstop : Stops inLine cursor.rest := by
    rw [hend.rest]
    intro c hc
    contradiction
  exact (skipWhile_of_stops hstop).trans hend.look_eq

theorem next_eq (hend : cursor.AtEnd) :
    cursor.next = (.ok (some (.endOfFile cursor.position)), cursor) := by
  rw [next_of_rest_nil hend.rest, endOfText, hend.look_eq]

end AtEnd

theorem namesEnd_next {cursor : Cursor} {c : Char} {text : List Char}
    (hrest : cursor.rest = c :: text) (hslash : c ≠ '/') : namesEnd cursor.next.1 = false := by
  rw [Rule.next_eq_step hrest]
  cases hrule : Rule.ofChar c with
  | blank =>
    rw [Rule.step, blanks]
    split <;> rfl
  | slash => exact absurd (Rule.eq_slash_of_ofChar hrule) hslash
  | literal =>
    rw [Rule.step, quoted]
    split <;> rfl
  | word =>
    have hkind := (Token.Value.kind_ofWord (cursor.run isWordPart)).2
    exact beq_false_of_ne hkind
  | number | operator | bracket | stray => rfl

/-- Only a call that finds nothing more to read answers with the end of the text. -/
theorem Answers.atEnd {cursor : Cursor} {calls : Nat} {step : Step}
    (hanswers : Answers calls cursor step) (hmarks : cursor.MarksEnd)
    (hend : namesEnd step.1 = true) :
    step.2.AtEnd ∧ step.1 = .ok (some (.endOfFile step.2.position)) := by
  induction hanswers with
  | @endOfText cursor hseen =>
    have hrest := hmarks.rest_eq_nil hseen
    have hexhausted : cursor.look.exhausted = true := by
      rw [hmarks.exhausted_look, hrest, List.isEmpty_nil]
    exact ⟨⟨hrest, hexhausted⟩, rfl⟩
  | element hseen hslash =>
    obtain ⟨text, hrest⟩ := hmarks.exists_rest hseen
    rw [← next_of_rest_cons hrest, namesEnd_next hrest hslash] at hend
    contradiction
  | slash => contradiction
  | comment _ _ _ ih => exact ih hmarks.opened.skipLine hend

theorem exists_passes_next {cursor : Cursor} (hend : namesEnd cursor.next.1 = false)
    (hhandled : ∀ fault ∈ Fault.ofAnswer cursor.next.1, ∀ c, fault.cause ≠ .unhandledCharacter c) :
    ∃ text ≠ [], cursor.Passes text cursor.next.2 := by
  obtain ⟨text, hpass⟩ := cursor.moves_next.exists_passes
  refine ⟨text, ?_, hpass⟩
  rintro rfl
  have hlt : cursor.next.2.rest.length < cursor.rest.length := by
    apply length_rest_next_lt
    · intro heof
      rw [heof] at hend
      contradiction
    · intro c hfault
      rw [hfault] at hhandled
      exact hhandled _ (List.mem_singleton_self _) c rfl
  rw [hpass.rest] at hlt
  exact Nat.lt_irrefl _ hlt

/-- From where a caller goes on: a step that failed has cost the rest of its line. -/
def Step.resumed : Step → Cursor
  | (.ok _, moved) => moved
  | (.error _, moved) => moved.skipLine

theorem length_rest_next_le (cursor : Cursor) :
    cursor.next.2.rest.length ≤ cursor.rest.length := by
  obtain ⟨text, hpass⟩ := cursor.moves_next.exists_passes
  rw [hpass.rest, List.length_append]
  exact Nat.le_add_left _ _

/-- A step pays for its call with a character that it leaves behind. Only the one that meets the end
of the text need not. -/
theorem length_rest_resumed_next (cursor : Cursor) :
    1 + cursor.next.resumed.rest.length ≤ cursor.rest.length + (namesEnd cursor.next.1).toNat := by
  have hle := cursor.length_rest_next_le
  have hlt := @length_rest_next_lt cursor
  have hfailed := @length_rest_skipLine_next_lt cursor
  rcases hnext : cursor.next with ⟨fault | token?, moved⟩
  · rw [hnext] at hfailed
    have hshorter : moved.skipLine.rest.length < cursor.rest.length := hfailed rfl
    simp only [Step.resumed, namesEnd, Bool.toNat_false]
    omega
  · rw [hnext] at hle hlt
    change moved.rest.length ≤ cursor.rest.length at hle
    by_cases hend : namesEnd (.ok token?) = true
    · simp only [Step.resumed, hend, Bool.toNat_true]
      omega
    · have hshorter : moved.rest.length < cursor.rest.length := by
        apply hlt
        · rintro ⟨⟩
          exact hend rfl
        · simp
      simp only [Step.resumed, hend, Bool.toNat_false]
      omega

theorem Answers.calls_le {cursor : Cursor} {calls : Nat} {step : Step}
    (hanswers : Answers calls cursor step) (hmarks : cursor.MarksEnd) :
    calls + step.resumed.rest.length ≤ cursor.rest.length + (namesEnd step.1).toNat := by
  have hnext := hanswers.eq_next hmarks
  induction hanswers with
  | endOfText | element | slash =>
    rw [hnext]
    exact length_rest_resumed_next _
  | @comment cursor _ _ hseen _ hinner ih =>
    have hinnerMarks := hmarks.opened.skipLine
    have hpaid := ih hinnerMarks (hinner.eq_next hinnerMarks)
    obtain ⟨text, hrest⟩ := hmarks.exists_rest hseen
    have hslash := length_rest_consume_succ_lt (hrest ▸ List.cons_ne_nil '/' text) 0
    have hskip := length_rest_skipWhile_le cursor.opened fun c => !isLineBreak c
    have hline : cursor.opened.skipLine.rest.length < cursor.rest.length :=
      Nat.lt_of_le_of_lt hskip hslash
    omega

theorem Answers.calls_pos {cursor : Cursor} {calls : Nat} {step : Step}
    (hanswers : Answers calls cursor step) : 0 < calls := by
  cases hanswers <;> omega

theorem Answers.marksEnd {cursor : Cursor} {calls : Nat} {step : Step}
    (hanswers : Answers calls cursor step) (hmarks : cursor.MarksEnd) :
    step.resumed.MarksEnd := by
  have hmoved : step.2.MarksEnd := by
    rw [hanswers.eq_next hmarks]
    exact cursor.moves_next.marksEnd hmarks
  obtain ⟨fault | token?, moved⟩ := step
  · exact hmoved.skipLine
  · exact hmoved

end Cursor

theorem Scanning.cursor_apply_of_atEnd {scanner : Scanner} (hend : scanner.cursor.AtEnd)
    (operation : Operation) : (apply scanner operation).2.cursor = scanner.cursor := by
  have hnext : scanner.next.2.cursor = scanner.cursor := congrArg Prod.snd hend.next_eq
  cases operation with
  | next => exact hnext
  | take => exact (cursor_take scanner).trans hnext
  | resync => exact hend.skipLine_eq
  | push token => exact Scanner.cursor_push scanner token

theorem Scanning.cursor_run_of_atEnd {scanner : Scanner} (hend : scanner.cursor.AtEnd)
    (operations : List Operation) : (run scanner operations).cursor = scanner.cursor := by
  induction operations generalizing scanner with
  | nil => rfl
  | cons operation operations ih =>
    have hstep := cursor_apply_of_atEnd hend operation
    have hrest := ih (hstep.symm ▸ hend)
    exact hrest.trans hstep

end IBLexer
