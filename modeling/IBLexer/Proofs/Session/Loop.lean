import IBLexer.Proofs.Session.Movement

/-! A run of characters is read one by one: a loop peeks, asks whether to go on, and advances
over what it saw. The loops for numbers and words never ask for the end of the text. They stop
there because the blank that answers a read past the end is no digit and no part of a word. -/
namespace IBLexer.Cursor

/-- What a reading loop collects and where it leaves the cursor. Its test sees the character
that the peek answered and the cursor that has looked. -/
inductive ReadsWhile (goesOn : Char → Cursor → Bool) : Cursor → List Char → Cursor → Prop where
  | stop {cursor : Cursor} : goesOn cursor.peek.1 cursor.peek.2 = false →
    cursor.ReadsWhile goesOn [] cursor.peek.2
  | turn {cursor stop : Cursor} {run : List Char} : goesOn cursor.peek.1 cursor.peek.2 = true →
    cursor.peek.2.advance.2.ReadsWhile goesOn run stop →
    cursor.ReadsWhile goesOn (cursor.peek.2.advance.1 :: run) stop

/-- However far the cursor has moved, the test asks whether a next character is accepted. -/
def Tests (cursor : Cursor) (goesOn : Char → Cursor → Bool) (accept : Char → Bool) : Prop :=
  ∀ moved, cursor.Moves moved →
    goesOn moved.peek.1 moved.peek.2 = moved.rest.head?.any accept

variable {cursor stop : Cursor} {goesOn : Char → Cursor → Bool} {accept : Char → Bool}
  {run : List Char}

theorem tests_of_sentinel (cursor : Cursor) (hend : accept sentinel = false) :
    cursor.Tests (fun c _ => accept c) accept := by
  intro moved _
  cases hrest : moved.rest with
  | nil => simpa [peek, hrest] using hend
  | cons c text => simp [peek, hrest]

theorem tests_of_marksEnd (hmarks : cursor.MarksEnd) :
    cursor.Tests (fun c looked => !looked.exhausted && accept c) accept := by
  intro moved hmoves
  have hlooked : moved.look.exhausted = moved.rest.isEmpty :=
    (hmoves.marksEnd hmarks).exhausted_look
  cases hrest : moved.rest with
  | nil => simp [peek, hlooked, hrest]
  | cons c text => simp [peek, hlooked, hrest]

theorem Tests.turn (htests : cursor.Tests goesOn accept) :
    cursor.peek.2.advance.2.Tests goesOn accept := by
  intro moved hmoves
  have hturn : cursor.Moves cursor.peek.2.advance.2 := Moves.stay.look.trans (moves_advance _)
  exact htests moved (hturn.trans hmoves)

theorem run_eq_nil_of_stop (hstop : cursor.rest.head?.any accept = false) :
    cursor.run accept = [] := by
  cases hrest : cursor.rest with
  | nil => simp [Cursor.run, hrest]
  | cons c text =>
    have hc : accept c = false := by simpa [hrest] using hstop
    simp [Cursor.run, hrest, hc]

theorem skipWhile_of_stop (hstop : cursor.rest.head?.any accept = false) :
    cursor.skipWhile accept = cursor.peek.2 := by
  rw [skipWhile, run_eq_nil_of_stop hstop]
  rfl

theorem peek_advance_of_rest_cons {c : Char} {text : List Char} (hrest : cursor.rest = c :: text) :
    cursor.peek.2.advance = (c, cursor.consume 1) := by
  have hlook : cursor.peek.2 = cursor := look_of_rest_ne_nil (by simp [hrest])
  rw [hlook]
  simp [advance, hrest]

theorem exists_rest_of_turn (hturn : cursor.rest.head?.any accept = true) :
    ∃ c text, cursor.rest = c :: text ∧ accept c = true := by
  cases hrest : cursor.rest with
  | nil =>
    rw [hrest] at hturn
    contradiction
  | cons c text =>
    rw [hrest] at hturn
    exact ⟨c, text, rfl, hturn⟩

theorem run_of_turn (hturn : cursor.rest.head?.any accept = true) :
    cursor.run accept = cursor.peek.2.advance.1 :: cursor.peek.2.advance.2.run accept := by
  obtain ⟨c, text, hrest, hc⟩ := exists_rest_of_turn hturn
  rw [peek_advance_of_rest_cons hrest, Cursor.run, Cursor.run, rest_consume, hrest]
  exact List.takeWhile_cons_of_pos hc

theorem skipWhile_of_turn (hturn : cursor.rest.head?.any accept = true) :
    cursor.skipWhile accept = cursor.peek.2.advance.2.skipWhile accept := by
  have hrun := run_of_turn hturn
  obtain ⟨c, text, hrest, -⟩ := exists_rest_of_turn hturn
  rw [peek_advance_of_rest_cons hrest] at hrun ⊢
  rw [skipWhile, skipWhile, hrun, consume_consume, List.length_cons, Nat.add_comm]

theorem readsWhile_of_stop (htests : cursor.Tests goesOn accept)
    (hstop : cursor.rest.head?.any accept = false) :
    cursor.ReadsWhile goesOn (cursor.run accept) (cursor.skipWhile accept) := by
  rw [run_eq_nil_of_stop hstop, skipWhile_of_stop hstop]
  exact .stop ((htests cursor .stay).trans hstop)

theorem readsWhile_iff (htests : cursor.Tests goesOn accept) :
    cursor.ReadsWhile goesOn run stop ↔
      run = cursor.run accept ∧ stop = cursor.skipWhile accept := by
  constructor
  · intro hreads
    induction hreads with
    | @stop cursor hgoes =>
      rw [htests cursor .stay] at hgoes
      exact ⟨(run_eq_nil_of_stop hgoes).symm, (skipWhile_of_stop hgoes).symm⟩
    | @turn cursor stop run hgoes _ ih =>
      rw [htests cursor .stay] at hgoes
      obtain ⟨rfl, rfl⟩ := ih htests.turn
      exact ⟨(run_of_turn hgoes).symm, (skipWhile_of_turn hgoes).symm⟩
  · rintro ⟨rfl, rfl⟩
    generalize hrest : cursor.rest = rest
    induction rest generalizing cursor with
    | nil => exact readsWhile_of_stop htests (by rw [hrest]; rfl)
    | cons c text ih =>
      cases haccept : cursor.rest.head?.any accept with
      | false => exact readsWhile_of_stop htests haccept
      | true =>
        have hnext : cursor.peek.2.advance.2.rest = text := by
          rw [peek_advance_of_rest_cons hrest, rest_consume, hrest, List.drop_one, List.tail_cons]
        rw [run_of_turn haccept, skipWhile_of_turn haccept]
        exact .turn ((htests cursor .stay).trans haccept) (ih htests.turn hnext)

theorem readsWhile_skipLine_iff (hmarks : cursor.MarksEnd) :
    cursor.ReadsWhile (fun c looked => !looked.exhausted && !(c == '\n' || c == '\r')) run stop ↔
      run = cursor.line ∧ stop = cursor.skipLine :=
  readsWhile_iff (tests_of_marksEnd hmarks)

theorem exists_readsWhile_number (cursor : Cursor) : ∃ digits stop,
    cursor.ReadsWhile (fun c _ => c.isDigit) digits stop ∧ cursor.number =
      (.ok (some (cursor.token (.literal (.integer (String.ofList digits))) digits)), stop) := by
  -- The blank that is read past the end is no digit, so the test need not ask for the end.
  have htests : cursor.Tests (fun c _ => c.isDigit) Char.isDigit :=
    cursor.tests_of_sentinel (by decide)
  exact ⟨_, _, (readsWhile_iff htests).mpr ⟨rfl, rfl⟩, rfl⟩

theorem exists_readsWhile_word (cursor : Cursor) : ∃ letters stop,
    cursor.ReadsWhile (fun c _ => isWordPart c) letters stop ∧
      cursor.word = (.ok (some (cursor.token (Token.Value.ofWord letters) letters)), stop) := by
  have htests : cursor.Tests (fun c _ => isWordPart c) isWordPart :=
    cursor.tests_of_sentinel (by decide +kernel)
  exact ⟨_, _, (readsWhile_iff htests).mpr ⟨rfl, rfl⟩, rfl⟩

theorem exists_readsWhile_quoted (hmarks : cursor.MarksEnd) {delimiter : Char} {text : List Char}
    (hrest : cursor.rest = delimiter :: text) : ∃ inside stop,
      cursor.advance.2.ReadsWhile
        (fun c looked => !looked.exhausted && (c != delimiter && !isLineBreak c)) inside stop ∧
      cursor.quoted delimiter =
        if stop.rest.head? = some delimiter then
          (.ok ((Element.literal delimiter inside).token? cursor.position), stop.advance.2)
        else
          (.error ⟨.unterminatedLiteral delimiter, cursor.position, cursor.file, stop.lineText⟩,
            stop) := by
  have hopened : cursor.advance.2 = cursor.consume 1 := by simp [advance, hrest]
  have htests : (cursor.consume 1).Tests
      (fun c looked => !looked.exhausted && (c != delimiter && !isLineBreak c))
      fun c => c != delimiter && !isLineBreak c :=
    tests_of_marksEnd (hmarks.consume 1)
  rw [hopened]
  refine ⟨_, _, (readsWhile_iff htests).mpr ⟨rfl, rfl⟩, ite_congr rfl ?_ fun _ => rfl⟩
  intro hclose
  obtain ⟨rest, hstop⟩ := List.head?_eq_some_iff.mp hclose
  rw [advance, hstop]
  rfl

/-- One turn of the loop over blanks. Only the line feed is kept, and it ends the loop. -/
theorem blanks_turn (hmarks : cursor.MarksEnd) : cursor.blanks =
    if cursor.peek.2.exhausted || !Unicode.isBlank cursor.peek.1 then (.ok none, cursor.peek.2)
    else if cursor.peek.2.advance.1 = '\n' then
      (.ok (some (Token.endOfLine cursor.peek.2.position)), cursor.peek.2.advance.2)
    else cursor.peek.2.advance.2.blanks := by
  have hlooked : cursor.peek.2.exhausted = cursor.rest.isEmpty := hmarks.exhausted_look
  rw [hlooked]
  cases hrest : cursor.rest with
  | nil =>
    have hstop : cursor.rest.head?.any (fun c => Unicode.isBlank c && c != '\n') = false := by
      rw [hrest]
      rfl
    rw [blanks, skipWhile_of_stop hstop]
    simp [peek, hrest]
  | cons c text =>
    have hpeek : cursor.peek.1 = c := by rw [peek, hrest]; rfl
    have hlook : cursor.peek.2 = cursor := look_of_rest_ne_nil (by simp [hrest])
    have hfirst : cursor.rest.head? = some c := by rw [hrest]; rfl
    rw [hpeek, peek_advance_of_rest_cons hrest]
    cases hloop : Unicode.isBlank c && c != '\n' with
    | true =>
      have hturn : cursor.rest.head?.any (fun c => Unicode.isBlank c && c != '\n') = true := by
        rw [hfirst]
        exact hloop
      rw [Bool.and_eq_true, bne_iff_ne] at hloop
      rw [blanks, skipWhile_of_turn hturn, peek_advance_of_rest_cons hrest]
      simp [hloop, blanks]
    | false =>
      have hstop : cursor.rest.head?.any (fun c => Unicode.isBlank c && c != '\n') = false := by
        rw [hfirst]
        exact hloop
      rw [blanks, skipWhile_of_stop hstop, hlook, hfirst]
      by_cases hfeed : c = '\n'
      · subst hfeed
        rfl
      · have hblank : Unicode.isBlank c = false := by simpa [hfeed] using hloop
        simp [hfeed, hblank]

end IBLexer.Cursor
