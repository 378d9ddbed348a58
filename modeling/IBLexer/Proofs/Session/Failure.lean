import IBLexer.Proofs.Session.Movement

/-! What a failed step leaves behind. It reads no line break and keeps what was kept; how far it
reads is decided by its cause. Once the rest of the line is skipped, the cursor stands where no
rule but that of the blanks can begin, so the next step cannot fail. -/
namespace IBLexer

/-- The answer names neither an element nor a fault: only a line end, the end of the text, or
nothing. -/
def Uneventful (answer : Except Fault (Option Token)) : Prop :=
  answer = .ok none ∨ (∃ position, answer = .ok (some (.endOfLine position))) ∨
    ∃ position, answer = .ok (some (.endOfFile position))

def Fault.Cause.reads (text : List Char) : Fault.Cause → List Char
  | .unhandledCharacter _ => []
  | .malformedComment => ['/']
  | .unterminatedLiteral delimiter => delimiter :: text.tail.takeWhile inLine

theorem Uneventful.ne_error {answer : Except Fault (Option Token)} (hanswer : Uneventful answer)
    (fault : Fault) : answer ≠ .error fault := by
  rcases hanswer with rfl | ⟨_, rfl⟩ | ⟨_, rfl⟩ <;> simp

theorem exists_run (accept : Char → Bool) (text : List Char) : ∃ run rest,
    text = run ++ rest ∧ (∀ c ∈ run, accept c = true) ∧ Stops accept rest :=
  ⟨text.takeWhile accept, text.dropWhile accept, List.takeWhile_append_dropWhile.symm,
    fun _ hc => List.mem_takeWhile_imp hc, stops_dropWhile accept text⟩

namespace Rule

theorem eq_slash_of_ofChar {c : Char} (hrule : ofChar c = .slash) : c = '/' := by
  unfold ofChar at hrule
  split_ifs at hrule
  assumption

theorem isDelimiter_of_ofChar {c : Char} (hrule : ofChar c = .literal) : isDelimiter c = true := by
  unfold ofChar at hrule
  split_ifs at hrule
  assumption

end Rule

namespace Cursor

theorem uneventful_blanks (cursor : Cursor) : Uneventful cursor.blanks.1 := by
  unfold blanks
  dsimp only
  split
  · exact .inr (.inl ⟨_, rfl⟩)
  · exact .inl rfl

theorem uneventful_lineEnd (cursor : Cursor) : Uneventful cursor.lineEnd.1 := by
  unfold lineEnd
  split
  · exact .inr (.inr ⟨_, rfl⟩)
  · exact cursor.uneventful_blanks

/-- How a step can fail, and where it leaves the cursor. -/
inductive Fails (cursor : Cursor) : Fault.Cause → Cursor → Prop where
  | stray {c : Char} {text : List Char} : cursor.rest = c :: text → Rule.ofChar c = .stray →
    cursor.Fails (.unhandledCharacter c) cursor
  | slash {text : List Char} {moved : Cursor} : cursor.rest = '/' :: text →
    text.head? ≠ some '/' → cursor.Passes ['/'] moved → cursor.Fails .malformedComment moved
  | unclosed {delimiter : Char} {text : List Char} {moved : Cursor} :
    cursor.rest = delimiter :: text → isDelimiter delimiter = true →
    cursor.Passes (delimiter :: text.takeWhile inLine) moved →
    cursor.Fails (.unterminatedLiteral delimiter) moved

theorem fails_of_comment {cursor moved : Cursor} {fault : Fault} {text : List Char}
    (hrest : cursor.rest = '/' :: text) (hcomment : cursor.comment = (.error fault, moved)) :
    cursor.Fails fault.cause moved := by
  have hslash : cursor.Passes ['/'] (cursor.consume 1).look := (passes_consume hrest).look
  have htext : (cursor.consume 1).look.rest = text := hslash.rest_eq hrest
  rw [comment] at hcomment
  split at hcomment
  · next hsecond =>
    have hanswer := uneventful_lineEnd (cursor.consume 1).look.skipLine
    rw [hcomment] at hanswer
    exact absurd rfl (hanswer.ne_error fault)
  · next hsecond =>
    cases hcomment
    exact .slash hrest (htext ▸ hsecond) hslash

theorem fails_of_quoted {cursor moved : Cursor} {delimiter : Char} {fault : Fault}
    {text : List Char} (hrest : cursor.rest = delimiter :: text)
    (hquote : isDelimiter delimiter = true)
    (hquoted : cursor.quoted delimiter = (.error fault, moved)) :
    cursor.Fails fault.cause moved := by
  obtain ⟨inside, rest, rfl, hinside, hstop⟩ := exists_run (inLiteral delimiter) text
  obtain ⟨stop, hpass, hanswer⟩ := quoted_eq hrest hinside hstop
  rw [hanswer] at hquoted
  split at hquoted
  · cases hquoted
  · next hopen =>
    cases hquoted
    have hstopped : moved.rest = rest := hpass.rest_eq hrest
    -- The literal was not closed, so what stopped its inside is no delimiter but a break.
    have hbreak : Stops inLine rest := by
      intro c hc
      have hne : c ≠ delimiter := by
        rintro rfl
        exact hopen (hstopped ▸ hc)
      simpa [inLiteral, hne] using hstop c hc
    have hline : (inside ++ rest).takeWhile inLine = inside :=
      takeWhile_of_stops (fun c hc => (inLiteral_iff.mp (hinside c hc)).2) hbreak
    apply Fails.unclosed hrest hquote
    rw [hline]
    exact hpass

theorem fails_of_next {cursor moved : Cursor} {fault : Fault}
    (hnext : cursor.next = (.error fault, moved)) : cursor.Fails fault.cause moved := by
  cases hrest : cursor.rest with
  | nil =>
    rw [next_of_rest_nil hrest] at hnext
    cases hnext
  | cons c text =>
    rw [Rule.next_eq_step hrest] at hnext
    cases hrule : Rule.ofChar c with
    | blank =>
      rw [hrule] at hnext
      have hanswer := cursor.uneventful_blanks
      rw [show cursor.blanks = _ from hnext] at hanswer
      exact absurd rfl (hanswer.ne_error fault)
    | slash =>
      rw [hrule] at hnext
      rw [Rule.eq_slash_of_ofChar hrule] at hrest
      exact fails_of_comment hrest hnext
    | literal =>
      rw [hrule] at hnext
      exact fails_of_quoted hrest (Rule.isDelimiter_of_ofChar hrule) hnext
    | number | word | operator | bracket =>
      rw [hrule] at hnext
      cases hnext
    | stray =>
      rw [hrule] at hnext
      cases hnext
      exact .stray hrest hrule

namespace Fails

variable {cursor moved : Cursor} {cause : Fault.Cause}

theorem passes (hfails : cursor.Fails cause moved) :
    cursor.Passes (cause.reads cursor.rest) moved := by
  cases hfails with
  | stray => exact cursor.passes_nil
  | slash _ _ hpass => exact hpass
  | unclosed hrest _ hpass =>
    rw [hrest]
    exact hpass

theorem inLine_reads (hfails : cursor.Fails cause moved) :
    ∀ c ∈ cause.reads cursor.rest, inLine c = true := by
  cases hfails with
  | stray => exact List.forall_mem_nil _
  | slash => simp [Fault.Cause.reads, inLine, isLineBreak]
  | unclosed hrest hquote =>
    rintro c (_ | ⟨_, hc⟩)
    · exact inLine_of_isDelimiter hquote
    · exact List.mem_takeWhile_imp hc

theorem line_ne_nil (hfails : cursor.Fails cause moved) : cursor.line ≠ [] := by
  obtain ⟨c, text, hrest, hc⟩ : ∃ c text, cursor.rest = c :: text ∧ inLine c = true := by
    cases hfails with
    | stray hrest hrule =>
      have hblank := not_isBlank_of_ofChar (by rw [hrule]; decide)
      exact ⟨_, _, hrest, inLine_of_not_isBlank hblank⟩
    | slash hrest => exact ⟨_, _, hrest, by decide⟩
    | unclosed hrest hquote => exact ⟨_, _, hrest, inLine_of_isDelimiter hquote⟩
  have hline : cursor.line = (c :: text).takeWhile inLine := hrest ▸ rfl
  rw [hline, List.takeWhile_cons_of_pos hc]
  exact List.cons_ne_nil c _

theorem passes_line (hfails : cursor.Fails cause moved) :
    cursor.Passes cursor.line moved.skipLine := by
  have hboth := hfails.passes.trans moved.passes_skipLine
  have hline : cursor.line = cause.reads cursor.rest ++ moved.line := by
    apply run_eq hboth.rest _ moved.stops_skipLine
    intro c hc
    rcases List.mem_append.mp hc with hread | hskipped
    · exact hfails.inLine_reads c hread
    · exact inLine_of_mem_line hskipped
  rwa [hline]

end Fails

theorem uneventful_next_skipLine (cursor : Cursor) : Uneventful cursor.skipLine.next.1 := by
  rw [next_skipLine]
  exact cursor.skipLine.uneventful_lineEnd

theorem MarksEnd.exhausted_skipLine {cursor : Cursor} (hmarks : cursor.MarksEnd) :
    cursor.skipLine.exhausted = cursor.skipLine.rest.isEmpty :=
  (hmarks.consume _).exhausted_look

theorem eq_of_next_unhandled {cursor moved : Cursor} {fault : Fault} {c : Char}
    (hnext : cursor.next = (.error fault, moved)) (hcause : fault.cause = .unhandledCharacter c) :
    moved = cursor := by
  have hfails := fails_of_next hnext
  rw [hcause] at hfails
  cases hfails
  rfl

end Cursor

namespace Scanner

/-- What a step that fails makes of a scanner, and what resynchronizing then makes of it. -/
structure FailedStep (scanner : Scanner) (fault : Fault) (moved : Scanner) : Prop where
  kept : moved.kept = scanner.kept
  passes : scanner.cursor.Passes (fault.cause.reads scanner.cursor.rest) moved.cursor
  noBreak : ∀ c ∈ fault.cause.reads scanner.cursor.rest, c ≠ '\n' ∧ c ≠ '\r'
  repeats : ∀ c, fault.cause = .unhandledCharacter c → moved = scanner ∧
    ∀ count, (Scanning.run scanner (List.replicate count .next)).next = (.error fault, scanner)
  keptByResync : moved.resync.kept = scanner.kept
  sameLine : moved.resync.cursor.position.line = scanner.cursor.position.line
  passesLine : scanner.cursor.Passes scanner.cursor.line moved.resync.cursor
  standsAtBreak : ∀ c ∈ moved.resync.cursor.rest.head?, c = '\n' ∨ c = '\r'
  tellsEnd : moved.resync.cursor.exhausted = moved.resync.cursor.rest.isEmpty
  uneventful : Uneventful moved.resync.next.1

theorem run_replicate_next {scanner : Scanner} {fault : Fault}
    (hnext : scanner.next = (.error fault, scanner)) (count : Nat) :
    Scanning.run scanner (List.replicate count .next) = scanner := by
  induction count with
  | zero => rfl
  | succ count ih =>
    have hstep : (Scanning.apply scanner .next).2 = scanner := congrArg Prod.snd hnext
    rw [List.replicate_succ, Scanning.run, List.foldl_cons, hstep]
    exact ih

theorem cursor_next_eq {scanner moved : Scanner} {answer : Except Fault (Option Token)}
    (hnext : scanner.next = (answer, moved)) : scanner.cursor.next = (answer, moved.cursor) :=
  congrArg (fun step => (step.1, step.2.cursor)) hnext

theorem failedStep_of_next {scanner moved : Scanner} {fault : Fault}
    (hmarks : scanner.cursor.MarksEnd) (hnext : scanner.next = (.error fault, moved)) :
    scanner.FailedStep fault moved := by
  have hkept : moved.kept = scanner.kept := by rw [← scanner.kept_next, hnext]
  have hcursor := cursor_next_eq hnext
  have hfails := Cursor.fails_of_next hcursor
  have hmoved : moved.cursor.MarksEnd := by
    have hmoves := scanner.cursor.moves_next
    rw [hcursor] at hmoves
    exact hmoves.marksEnd hmarks
  constructor
  · exact hkept
  · exact hfails.passes
  · exact fun c hc => ne_break_of_inLine (hfails.inLine_reads c hc)
  · intro c hcause
    have hsame : moved = scanner :=
      congrArg₂ Scanner.mk (Cursor.eq_of_next_unhandled hcursor hcause) hkept
    rw [hsame] at hnext
    refine ⟨hsame, fun count => ?_⟩
    rw [run_replicate_next hnext count]
    exact hnext
  · exact hkept
  · rw [cursor_resync, moved.cursor.line_position_skipLine, hfails.passes.position]
    rw [Position.after_of_notMem (notMem_feed_of_inLine hfails.inLine_reads)]
  · exact hfails.passes_line
  · exact fun c hc => break_of_not_inLine (moved.cursor.stops_skipLine c hc)
  · exact hmoved.exhausted_skipLine
  · exact moved.cursor.uneventful_next_skipLine

end Scanner

/-- A step that fails, wherever scripts have led, stays within its line and keeps what was kept;
giving up the rest of the line leads to where no step fails. -/
theorem failed_step_stays_in_line (file source : String) (reads : List Reading.Operation)
    (operations : List Scanning.Operation) {fault : Fault} {moved : Scanner}
    (hnext : (reached file source reads operations).next = (.error fault, moved)) :
    (reached file source reads operations).FailedStep fault moved := by
  have hmarks := marksEnd_reached file source reads operations
  exact Scanner.failedStep_of_next hmarks hnext

/-- In the middle of a line, behind a kept word, a literal is not closed before the carriage
return. -/
theorem failed_step_stays_in_line_unclosed :
    let scanner := reached "a.ib" "1 x'y\r\nz" [.advance, .advance] [.take]
    let fault : Fault := ⟨.unterminatedLiteral '\'', ⟨1, 4⟩, "a.ib", "1 x'y"⟩
    let moved : Scanner := ⟨⟨"a.ib", "\r\nz".toList, ⟨1, 6⟩, "1 x'y", false⟩, scanner.kept⟩
    scanner.kept.size = 1 ∧ scanner.next = (.error fault, moved) ∧
      scanner.FailedStep fault moved := by
  intro scanner fault moved
  have hnext : scanner.next = (.error fault, moved) := by decide +kernel
  refine ⟨by decide +kernel, hnext, ?_⟩
  exact failed_step_stays_in_line "a.ib" _ [.advance, .advance] [.take] hnext

end IBLexer
