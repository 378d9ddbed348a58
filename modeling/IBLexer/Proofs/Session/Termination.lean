import IBLexer.Proofs.Session.Call
import IBLexer.Proofs.Stream.Run

/-! Every step ends, and so does every run. All calls of a run but the last are paid for by
characters of the text, so a policy makes at most one call more than the text has characters. -/
namespace IBLexer

inductive Policy where
  | strict | recovering
deriving DecidableEq, Repr

def Policy.isDone (policy : Policy) : Except Fault (Option Token) → Bool
  | .ok (some token) => token.isEndOfFile
  | .ok none => false
  | .error _ => policy == .strict

theorem Policy.namesEnd_of_not_isDone {policy : Policy} {answer : Except Fault (Option Token)}
    (hdone : policy.isDone answer = false) : Cursor.namesEnd answer = false := by
  rcases answer with fault | (_ | token)
  · rfl
  · rfl
  · exact hdone

namespace Scanner

def settle (scanner : Scanner) : Except Fault (Option Token) → Scanner
  | .ok (some token) => scanner.push token
  | .ok none => scanner
  | .error _ => scanner.resync

theorem cursor_settle (scanner : Scanner) (moved : Cursor) (answer : Except Fault (Option Token)) :
    ((scanner.moveTo moved).settle answer).cursor = Cursor.Step.resumed (answer, moved) := by
  rcases answer with fault | (_ | token)
  · rfl
  · rfl
  · exact cursor_push _ token

section Settled

variable {policy : Policy} {calls : Nat} {scanner : Scanner} {moved : Cursor}
  {answer : Except Fault (Option Token)}

theorem marksEnd_settle (hanswers : Cursor.Answers calls scanner.cursor (answer, moved))
    (hmarks : scanner.cursor.MarksEnd) :
    ((scanner.moveTo moved).settle answer).cursor.MarksEnd := by
  rw [cursor_settle]
  exact hanswers.marksEnd hmarks

theorem calls_settle_le (hanswers : Cursor.Answers calls scanner.cursor (answer, moved))
    (hmarks : scanner.cursor.MarksEnd) (hdone : policy.isDone answer = false) :
    calls + ((scanner.moveTo moved).settle answer).cursor.rest.length ≤
      scanner.cursor.rest.length := by
  have hpaid := hanswers.calls_le hmarks
  rw [Policy.namesEnd_of_not_isDone hdone] at hpaid
  rw [cursor_settle]
  exact hpaid

end Settled

/-- A whole run of a policy: how many calls it makes, which faults it meets, and the scanner that
it leaves. -/
inductive Ends (policy : Policy) : Nat → Scanner → List Fault → Scanner → Prop where
  | last {scanner : Scanner} {calls : Nat} {answer : Except Fault (Option Token)} {moved : Cursor} :
    Cursor.Answers calls scanner.cursor (answer, moved) → policy.isDone answer = true →
    Ends policy calls scanner (Fault.ofAnswer answer) (scanner.moveTo moved)
  | more {scanner final : Scanner} {calls further : Nat} {answer : Except Fault (Option Token)}
    {moved : Cursor} {met : List Fault} : Cursor.Answers calls scanner.cursor (answer, moved) →
    policy.isDone answer = false →
    Ends policy further ((scanner.moveTo moved).settle answer) met final →
    Ends policy (calls + further) scanner (Fault.ofAnswer answer ++ met) final

theorem exists_ends (policy : Policy) {scanner : Scanner} (hmarks : scanner.cursor.MarksEnd) :
    ∃ calls met final, Ends policy calls scanner met final := by
  induction hlength : scanner.cursor.rest.length using Nat.strongRecOn generalizing scanner with
  | ind length ih =>
    obtain ⟨calls, hanswers⟩ := Cursor.exists_answers_next hmarks
    generalize scanner.cursor.next = step at hanswers
    obtain ⟨answer, moved⟩ := step
    cases hdone : policy.isDone answer with
    | true => exact ⟨_, _, _, .last hanswers hdone⟩
    | false =>
      have hpos := hanswers.calls_pos
      have hpaid := calls_settle_le hanswers hmarks hdone
      have hsettled := marksEnd_settle hanswers hmarks
      obtain ⟨further, met, final, hends⟩ := ih _ (by omega) hsettled rfl
      exact ⟨_, _, _, .more hanswers hdone hends⟩

def outcome (final : Scanner) : List Fault → Except Fault (List Token)
  | [] => .ok final.finish
  | fault :: _ => .error fault

namespace Ends

variable {policy : Policy} {calls : Nat} {scanner final : Scanner} {met : List Fault}

theorem calls_le (hends : Ends policy calls scanner met final) (hmarks : scanner.cursor.MarksEnd) :
    calls ≤ scanner.cursor.rest.length + 1 := by
  induction hends with
  | @last _ _ answer _ hanswers _ =>
    have hpaid := hanswers.calls_le hmarks
    have hone := Bool.toNat_le (Cursor.namesEnd answer)
    change _ ≤ _ + (Cursor.namesEnd answer).toNat at hpaid
    omega
  | more hanswers hdone _ ih =>
    have hpaid := calls_settle_le hanswers hmarks hdone
    have hfurther := ih (marksEnd_settle hanswers hmarks)
    omega

theorem strict_eq (hends : Ends .strict calls scanner met final)
    (hmarks : scanner.cursor.MarksEnd) : scanner.strict = final.outcome met := by
  induction hends with
  | @last _ _ answer _ hanswers hdone =>
    have hnext := next_eq (hanswers.eq_next hmarks).symm
    rcases answer with fault | (_ | token)
    · exact strict_of_error hnext
    · contradiction
    · exact strict_of_end hnext hdone
  | @more _ _ _ _ answer _ _ hanswers hdone _ ih =>
    have hnext := next_eq (hanswers.eq_next hmarks).symm
    have hrest := ih (marksEnd_settle hanswers hmarks)
    rcases answer with fault | (_ | token)
    · contradiction
    · exact (strict_of_none hnext).trans hrest
    · exact (strict_of_token hnext hdone).trans hrest

theorem recovering_eq (hends : Ends .recovering calls scanner met final)
    (hmarks : scanner.cursor.MarksEnd) (before : Array Fault) :
    scanner.recovering before = (final.finish, before.toList ++ met) := by
  induction hends generalizing before with
  | @last _ _ answer _ hanswers hdone =>
    have hnext := next_eq (hanswers.eq_next hmarks).symm
    rcases answer with fault | (_ | token)
    · contradiction
    · contradiction
    · rw [recovering_of_end hnext hdone, Fault.ofAnswer, List.append_nil]
  | @more scanner final _ _ answer moved met hanswers hdone _ ih =>
    have hnext := next_eq (hanswers.eq_next hmarks).symm
    have hrest := ih (marksEnd_settle hanswers hmarks)
    rcases answer with fault | (_ | token)
    · calc scanner.recovering before
          = (scanner.moveTo moved).resync.recovering (before.push fault) :=
            recovering_of_error hnext before
        _ = (final.finish, (before.push fault).toList ++ met) := hrest _
        _ = (final.finish, before.toList ++ (fault :: met)) := by simp
    · exact (recovering_of_none hnext before).trans (hrest before)
    · exact (recovering_of_token hnext hdone before).trans (hrest before)

end Ends

/-- What every step makes sure of, besides its answer. -/
structure Progresses (scanner : Scanner) : Prop where
  answers : ∃ calls, Cursor.Answers calls scanner.cursor scanner.cursor.next
  answersOnce : ∀ calls step, Cursor.Answers calls scanner.cursor step →
    calls ≤ 2 ∧ step = scanner.cursor.next
  consumes : ∀ answer moved, scanner.next = (answer, moved) → Cursor.namesEnd answer = false →
    (∀ fault ∈ Fault.ofAnswer answer, ∀ c, fault.cause ≠ .unhandledCharacter c) →
    ∃ text ≠ [], scanner.cursor.Passes text moved.cursor
  consumesByResync : ∀ fault moved, scanner.next = (.error fault, moved) →
    ∃ text ≠ [], scanner.cursor.Passes text moved.resync.cursor
  staysAtEnd : ∀ answer moved, scanner.next = (answer, moved) → Cursor.namesEnd answer = true →
    moved.cursor.rest = [] ∧ answer = .ok (some (.endOfFile moved.cursor.position)) ∧
      ∀ operations, let later := Scanning.run moved operations
        later.next.1 = answer ∧ later.cursor = moved.cursor ∧ later.resync.cursor = moved.cursor
  /-- Behind a comment, the step begins anew where no comment and no fault can follow. -/
  endsComment : scanner.cursor.seen? = some '/' → scanner.cursor.opened.seen? = some '/' →
    let inner := scanner.cursor.opened.skipLine
    scanner.cursor.next = inner.next ∧ inner.seen? ≠ some '/' ∧ Uneventful inner.next.1

theorem progresses {scanner : Scanner} (hmarks : scanner.cursor.MarksEnd) :
    scanner.Progresses where
  answers := Cursor.exists_answers_next hmarks
  answersOnce calls step hanswers := ⟨hanswers.calls_le_two hmarks, hanswers.eq_next hmarks⟩
  consumes answer moved hnext hend hhandled := by
    have hcursor := cursor_next_eq hnext
    have hpass := @Cursor.exists_passes_next scanner.cursor
    rw [hcursor] at hpass
    exact hpass hend hhandled
  consumesByResync fault moved hnext := by
    have hfails := Cursor.fails_of_next (cursor_next_eq hnext)
    exact ⟨scanner.cursor.line, hfails.line_ne_nil, hfails.passes_line⟩
  staysAtEnd answer moved hnext hend := by
    obtain ⟨calls, hanswers⟩ := Cursor.exists_answers_next hmarks
    rw [cursor_next_eq hnext] at hanswers
    obtain ⟨hatEnd, hanswer⟩ := hanswers.atEnd hmarks hend
    refine ⟨hatEnd.rest, hanswer, fun operations => ?_⟩
    have hsame := Scanning.cursor_run_of_atEnd hatEnd operations
    refine ⟨?_, hsame, ?_⟩
    · rw [next, hsame, hatEnd.next_eq]
      exact hanswer.symm
    · rw [cursor_resync, hsame, hatEnd.skipLine_eq]
  endsComment hseen hsecond := by
    have hnext := Cursor.next_of_slash hmarks hseen
    rw [if_pos hsecond] at hnext
    exact ⟨hnext, hmarks.opened.seen?_skipLine_ne, Cursor.uneventful_next_skipLine _⟩

end Scanner

/-- Wherever scripts have led, a step ends and gets on; so either policy ends on every text, with
one call more at most than the text has characters. -/
theorem scanning_progresses_and_ends (source : String) :
    (∀ file reads operations, (reached file source reads operations).Progresses) ∧
      ∀ file? : Option String,
        let start := Scanner.ofCursor (.ofText (file?.getD defaultFile) source)
        (∀ policy, ∃ calls met final, Scanner.Ends policy calls start met final) ∧
        (∀ calls met final, Scanner.Ends .strict calls start met final →
          calls ≤ source.length + 1 ∧ tokenize source file? = final.outcome met) ∧
        (∀ calls met final, Scanner.Ends .recovering calls start met final →
          calls ≤ source.length + 1 ∧ tokenizeRecovering source file? = (final.finish, met)) := by
  refine ⟨fun file reads operations => ?_, fun file? => ?_⟩
  · exact Scanner.progresses (marksEnd_reached file source reads operations)
  · intro start
    have hmarks : start.cursor.MarksEnd := Cursor.marksEnd_ofText _ source
    refine ⟨fun policy => Scanner.exists_ends policy hmarks, ?_, ?_⟩
    · intro calls met final hends
      exact ⟨hends.calls_le hmarks, hends.strict_eq hmarks⟩
    · intro calls met final hends
      exact ⟨hends.calls_le hmarks, hends.recovering_eq hmarks #[]⟩

/-- The step that finds a comment at the end of a text answers with that end from then on. -/
theorem scanning_progresses_and_ends_comment :
    let scanner := reached "a.ib" "a //b" [.advance, .peek] [.next]
    let inner := scanner.cursor.opened.skipLine
    let answer : Except Fault (Option Token) := .ok (some (.endOfFile ⟨1, 6⟩))
    scanner.cursor.rest = "//b".toList ∧ scanner.next.1 = answer ∧
      inner.seen? ≠ some '/' ∧ Uneventful inner.next.1 ∧
      (∀ operations, (Scanning.run scanner.next.2 operations).next.1 = answer) ∧
      ∃ calls met final, calls ≤ 6 ∧
        Scanner.Ends .recovering calls (.ofCursor (.ofText "shell" "a //b")) met final ∧
        (final.finish, met) = ([⟨.identifier "a", "a", ⟨1, 1⟩⟩, .endOfFile ⟨1, 6⟩], []) := by
  intro scanner inner answer
  have hrest : scanner.cursor.rest = "//b".toList := by decide +kernel
  have hanswer : scanner.next.1 = answer := by decide +kernel
  obtain ⟨hprogresses, hends⟩ := scanning_progresses_and_ends "a //b"
  have hscanner := hprogresses "a.ib" [.advance, .peek] [.next]
  obtain ⟨-, hseen, huneventful⟩ := hscanner.endsComment (by decide +kernel) (by decide +kernel)
  obtain ⟨-, -, hlater⟩ := hscanner.staysAtEnd answer _ (Prod.ext hanswer rfl) (by decide)
  obtain ⟨hexists, -, hrecovering⟩ := hends none
  obtain ⟨calls, met, final, hrun⟩ := hexists .recovering
  obtain ⟨hcalls, hresult⟩ := hrecovering calls met final hrun
  refine ⟨hrest, hanswer, hseen, huneventful, fun operations => (hlater operations).1, ?_⟩
  refine ⟨calls, met, final, hcalls, hrun, hresult.symm.trans ?_⟩
  decide +kernel

end IBLexer
