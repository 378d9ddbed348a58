import IBLexer.Proofs.Session.Movement
import IBLexer.Proofs.Stream.Order

/-! A caller may scan, push and resynchronize in any order. What is pushed never comes back into
the scanning, and the scanning enters a stream only through the tokens that the caller pushes. So
every script comes apart into what it pushes and what it does to the cursor. -/
namespace IBLexer

def withPrevious (first? : Option Token) (tokens : List Token) : List (Option Token × Token) :=
  (first? :: tokens.map some).zip tokens

def isRepeated (pushed : Option Token × Token) : Bool :=
  pushed.1.any Token.isEndOfLine && pushed.2.isEndOfLine

/-- The pushed tokens without the repeated line ends; `first?` was pushed before all of them. -/
def unrepeated (first? : Option Token) (tokens : List Token) : List Token :=
  ((withPrevious first? tokens).filter fun pushed => !isRepeated pushed).map Prod.snd

theorem unrepeated_cons (first? : Option Token) (token : Token) (tokens : List Token) :
    unrepeated first? (token :: tokens) =
      if isRepeated (first?, token) then unrepeated (some token) tokens
      else token :: unrepeated (some token) tokens := by
  have hzip : withPrevious first? (token :: tokens) =
      (first?, token) :: withPrevious (some token) tokens := rfl
  rw [unrepeated, hzip, List.filter_cons]
  cases isRepeated (first?, token) <;> rfl

/-- The collapse looks at the last token that was pushed, be it kept or dropped. -/
theorem collapseAfter_eq_unrepeated (first? : Option Token) (tokens : List Token) :
    collapseAfter (first?.any Token.isEndOfLine) tokens = unrepeated first? tokens := by
  induction tokens generalizing first? with
  | nil => rfl
  | cons token tokens ih =>
    have hrest : collapseAfter token.isEndOfLine tokens = unrepeated (some token) tokens :=
      ih (some token)
    rw [collapseAfter, unrepeated_cons, isRepeated]
    split
    · next hrepeated =>
      have hend : token.isEndOfLine = true := ((Bool.and_eq_true ..).mp hrepeated).2
      rw [← hrest, hend]
    · rw [hrest]

example : unrepeated none [.endOfLine ⟨1, 1⟩, .endOfLine ⟨2, 1⟩, .endOfLine ⟨3, 1⟩,
    .endOfFile ⟨4, 1⟩, .endOfLine ⟨5, 1⟩] =
      [.endOfLine ⟨1, 1⟩, .endOfFile ⟨4, 1⟩, .endOfLine ⟨5, 1⟩] := by decide

theorem filter_collapseAfter (ended : Bool) (tokens : List Token) :
    (collapseAfter ended tokens).filter (fun token => !token.isEndOfLine) =
      tokens.filter fun token => !token.isEndOfLine := by
  induction tokens generalizing ended with
  | nil => rfl
  | cons token tokens ih =>
    rw [collapseAfter]
    split
    · next hdrop =>
      have hend : token.isEndOfLine = true := ((Bool.and_eq_true ..).mp hdrop).2
      rw [ih, List.filter_cons, hend]
      rfl
    · rw [List.filter_cons, List.filter_cons, ih]

namespace Scanning

/-- What an operation pushes: a step that is taken pushes the token that it answers. -/
def Operation.pushed (scanner : Scanner) : Operation → List Token
  | .push token => [token]
  | .take =>
    match scanner.next.1 with
    | .ok answer => answer.toList
    | .error _ => []
  | .next | .resync => []

def Operation.bare? : Operation → Option Operation
  | .push _ => none
  | .take => some .next
  | .next => some .next
  | .resync => some .resync

def pushes : Scanner → List Operation → List Token
  | _, [] => []
  | scanner, operation :: operations =>
    operation.pushed scanner ++ pushes (apply scanner operation).2 operations

def answers : Scanner → List Operation → List (Except Fault (Option Token))
  | _, [] => []
  | scanner, operation :: operations =>
    (apply scanner operation).1.toList ++ answers (apply scanner operation).2 operations

theorem run_cons (scanner : Scanner) (operation : Operation) (operations : List Operation) :
    run scanner (operation :: operations) = run (apply scanner operation).2 operations := rfl

section Keeping

variable (scanner : Scanner)

theorem take_eq_pushAll :
    scanner.take.2 = scanner.next.2.pushAll (Operation.pushed scanner .take) := by
  rw [Scanner.take, Operation.pushed]
  rcases scanner.next with ⟨fault | (_ | token), moved⟩ <;> rfl

theorem take_fst : scanner.take.1 = scanner.next.1 := by
  rw [Scanner.take]
  rcases scanner.next with ⟨fault | (_ | token), moved⟩ <;> rfl

theorem ended_next : scanner.next.2.ended = scanner.ended := rfl

theorem toList_kept_apply (operation : Operation) :
    (apply scanner operation).2.kept.toList =
      scanner.kept.toList ++ collapseAfter scanner.ended (operation.pushed scanner) := by
  cases operation with
  | next | resync => exact (List.append_nil _).symm
  | push token => exact scanner.toList_kept_push token
  | take =>
    change scanner.take.2.kept.toList = _
    rw [take_eq_pushAll, Scanner.toList_kept_pushAll, Scanner.kept_next, ended_next]

theorem ended_apply (operation : Operation) :
    (apply scanner operation).2.ended = endsLine scanner.ended (operation.pushed scanner) := by
  cases operation with
  | next | resync => rfl
  | push token => exact scanner.ended_push token
  | take =>
    change scanner.take.2.ended = _
    rw [take_eq_pushAll, Scanner.ended_pushAll, ended_next]

theorem toList_kept_run (operations : List Operation) :
    (run scanner operations).kept.toList =
      scanner.kept.toList ++ collapseAfter scanner.ended (pushes scanner operations) := by
  induction operations generalizing scanner with
  | nil => exact (List.append_nil _).symm
  | cons operation operations ih =>
    rw [run_cons, ih, toList_kept_apply, ended_apply, pushes, collapseAfter_append,
      List.append_assoc]

theorem finish_run (operations : List Operation) :
    (run scanner operations).finish = scanner.kept.toList ++
      collapseAfter scanner.ended (pushes scanner operations) ++
        [.endOfFile (run scanner operations).cursor.position] := by
  rw [Scanner.finish, Array.toList_push, toList_kept_run]

end Keeping

theorem run_bare {scanner other : Scanner} (hcursor : scanner.cursor = other.cursor)
    (operations : List Operation) :
    answers scanner operations = answers other (operations.filterMap Operation.bare?) ∧
      (run scanner operations).cursor = (run other (operations.filterMap Operation.bare?)).cursor := by
  induction operations generalizing scanner other with
  | nil => exact ⟨rfl, hcursor⟩
  | cons operation operations ih =>
    -- What was kept differs by now, but no step looks at it.
    have hanswer : scanner.next.1 = other.next.1 := by rw [Scanner.next, Scanner.next, hcursor]
    have hmoved : scanner.next.2.cursor = other.next.2.cursor := by
      rw [Scanner.next, Scanner.next, hcursor]
    cases operation with
    | next =>
      obtain ⟨hanswers, hlast⟩ := ih hmoved
      exact ⟨congrArg₂ List.cons hanswer hanswers, hlast⟩
    | take =>
      obtain ⟨hanswers, hlast⟩ := ih ((cursor_take scanner).trans hmoved)
      exact ⟨congrArg₂ List.cons ((take_fst scanner).trans hanswer) hanswers, hlast⟩
    | resync => exact ih (congrArg Cursor.skipLine hcursor)
    | push token => exact ih ((scanner.cursor_push token).trans hcursor)

end Scanning

/-- Any policy that a caller may build. Behind what a scanner has kept, a stream holds what was
pushed, in this order, without the line ends that were pushed right after a line end, and is closed
where the cursor then stands. The steps answer and move as if nothing was pushed. -/
theorem pushing_and_scanning_separate (scanner : Scanner) (operations : List Scanning.Operation) :
    let final := Scanning.run scanner operations
    let pushed := Scanning.pushes scanner operations
    let bare := operations.filterMap Scanning.Operation.bare?
    final.finish = scanner.kept.toList ++ unrepeated scanner.kept.back? pushed ++
        [.endOfFile final.cursor.position] ∧
      final.finish.filter (fun token => !token.isEndOfLine) =
        (scanner.kept.toList ++ pushed).filter (fun token => !token.isEndOfLine) ++
          [.endOfFile final.cursor.position] ∧
      Scanning.answers scanner operations = Scanning.answers scanner bare ∧
      final.cursor = (Scanning.run scanner bare).cursor ∧
      ∀ cursor, (Scanning.run (.ofCursor cursor) operations).finish.IsChain fun token next =>
        ¬(token.isEndOfLine = true ∧ next.isEndOfLine = true) := by
  intro final pushed bare
  have hfinish : final.finish = _ := Scanning.finish_run scanner operations
  obtain ⟨hanswers, hcursor⟩ := @Scanning.run_bare scanner scanner rfl operations
  refine ⟨?_, ?_, hanswers, hcursor, fun cursor => ?_⟩
  · rw [hfinish, Scanner.ended, collapseAfter_eq_unrepeated]
  · rw [hfinish, List.filter_append, List.filter_append, List.filter_append, filter_collapseAfter]
    rfl
  · rw [Scanning.finish_run, List.isChain_append]
    refine ⟨isChain_collapseAfter false _, List.isChain_singleton _, ?_⟩
    rintro token - last ⟨⟩ ⟨-, hend⟩
    contradiction

end IBLexer
