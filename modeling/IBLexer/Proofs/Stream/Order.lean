import IBLexer.Proofs.Stream.Span
import Mathlib.Data.List.Chain

/-! The shape of a stream: its tokens and its faults stand in the order of the text, no line
end follows a line end, and one mark closes the stream where the text ends. -/
namespace IBLexer

theorem not_isEndOfLine_head?_collapseAfter (tokens : List Token) :
    ∀ token ∈ (collapseAfter true tokens).head?, token.isEndOfLine = false := by
  induction tokens with
  | nil => simp [collapseAfter]
  | cons token tokens ih =>
    rw [collapseAfter, Bool.true_and]
    split
    · exact ih
    · next hkeep =>
      rintro _ ⟨⟩
      exact Bool.eq_false_iff.mpr hkeep

theorem isChain_collapseAfter (ended : Bool) (tokens : List Token) :
    (collapseAfter ended tokens).IsChain fun token next =>
      ¬(token.isEndOfLine = true ∧ next.isEndOfLine = true) := by
  induction tokens generalizing ended with
  | nil => exact .nil
  | cons token tokens ih =>
    rw [collapseAfter]
    split
    · exact ih true
    · rw [List.isChain_cons]
      refine ⟨?_, ih _⟩
      rintro next hnext ⟨htoken, hend⟩
      rw [htoken] at hnext
      rw [not_isEndOfLine_head?_collapseAfter tokens next hnext] at hend
      contradiction

namespace Flaw

def front : Flaw → List Char
  | stray _ _ | unclosed _ _ => []
  | slash _ => ['/']

def back : Flaw → List Char
  | stray c more | unclosed c more => c :: more
  | slash more => more

theorem front_append_back (flaw : Flaw) : flaw.front ++ flaw.back = flaw.text := by
  cases flaw <;> rfl

theorem position_fault (flaw : Flaw) (file : String) (before : List Char) :
    (flaw.fault ((Place.start file).after before)).position =
      Position.start.after (before ++ flaw.front) := by
  rw [Position.after_append]
  cases flaw <;> rfl

end Flaw

/-- A flaw ends with its line, so that no other flaw begins there. -/
theorem Flaw.Fits.ne_nil_of_flaw {flaw other : Flaw} {between after : List Char}
    (hfits : flaw.Fits (between ++ (other.text ++ after))) (hother : other.Fits after) :
    between ≠ [] := by
  rintro rfl
  obtain ⟨c, more, htext, -⟩ := Flaw.ofChar_first hother
  have hin := hother.2.1 c (by simp [htext])
  have hout := hfits.2.2 c (by simp [htext])
  rw [hin] at hout
  contradiction

theorem Tiling.pairwise_faultsFrom {pieces : List Piece} {text : List Char}
    (htiling : Tiling pieces text) (hlt : text.length + 1 < 2 ^ 32) (file : String) :
    (faultsFrom (.start file) pieces).Pairwise fun fault next => fault.position < next.position := by
  refine htiling.pairwise_faultsFrom_of fun flaw other before between after hoccurs hother => ?_
  have hbetween := Flaw.Fits.ne_nil_of_flaw hoccurs.fits hother
  have hreach : before ++ (flaw.text ++ between) ++ other.front =
      (before ++ flaw.front) ++ (flaw.back ++ (between ++ other.front)) := by
    simp only [← flaw.front_append_back, List.append_assoc]
  rw [Flaw.position_fault, Flaw.position_fault, hreach]
  apply Position.after_lt_after_append
  · simp [hbetween]
  · have hall := hoccurs.length_eq
    rw [← hreach]
    simp only [Piece.text, ← other.front_append_back, List.length_append] at hall ⊢
    omega

/-- A stream ends with its only end mark, which stands where the text ends. No two line ends
are neighbours, and the positions of tokens and of faults grow strictly. -/
theorem stream_in_order {source : String} {file? : Option String} {tokens : List Token}
    (htokens : HasTokens source file? tokens) (hlength : source.length ≤ 2 ^ 32 - 2) :
    (∃ body last, tokens = body ++ [.endOfFile last] ∧
      (∀ token ∈ body, token.isEndOfFile = false) ∧
      last.line.toNat = 1 + source.toList.count '\n' ∧
      last.column.toNat = 1 + (lastLine source.toList).length) ∧
    (tokens.IsChain fun token next => ¬(token.isEndOfLine = true ∧ next.isEndOfLine = true)) ∧
    (tokens.Pairwise fun token next => token.position < next.position) ∧
    (tokenizeRecovering source file?).2.Pairwise fun fault next =>
      fault.position < next.position := by
  obtain rfl := htokens.eq
  obtain ⟨pieces, htiling⟩ := Tiling.exists_of_text source.toList
  have hlt := length_toList_lt hlength
  refine ⟨?_, ?_, (pairwise_endsBefore hlength file?).imp fun hends => hends.lt, ?_⟩
  · rw [tokenizeRecovering_of_tiling htiling]
    refine ⟨_, _, rfl, fun token htoken => ?_, Position.toNat_line_after_start hlt, ?_⟩
    · exact (position_of_mem_tokensFrom ((collapseAfter_sublist false _).subset htoken)).2
    · rw [Position.toNat_column_after_start hlt, Nat.add_comm]
  · rw [tokenizeRecovering_of_tiling htiling, List.isChain_append]
    refine ⟨isChain_collapseAfter false _, List.isChain_singleton _, ?_⟩
    rintro token - last ⟨⟩ ⟨-, hend⟩
    contradiction
  · rw [tokenizeRecovering_of_tiling htiling]
    exact htiling.pairwise_faultsFrom hlt _

/-- Two lone slashes on one line, the first right before a carriage return, and a blank line. -/
theorem stream_in_order_slashes :
    let source := "/\r/\n\n#\n"
    HasTokens source none [.endOfLine ⟨1, 4⟩, .endOfFile ⟨4, 1⟩] ∧
      source.length ≤ 2 ^ 32 - 2 ∧
      ([.endOfLine ⟨1, 4⟩, .endOfFile ⟨4, 1⟩] : List Token).Pairwise
        (fun token next => token.position < next.position) ∧
      (tokenizeRecovering source none).2.map Fault.position = [⟨1, 2⟩, ⟨1, 4⟩, ⟨3, 1⟩] ∧
      (tokenizeRecovering source none).2.Pairwise
        fun fault next => fault.position < next.position := by
  intro source
  have htokens : HasTokens source none [.endOfLine ⟨1, 4⟩, .endOfFile ⟨4, 1⟩] :=
    Or.inr (by decide +kernel)
  have hlength : source.length ≤ 2 ^ 32 - 2 := by decide
  obtain ⟨-, -, hpositions, hfaults⟩ := stream_in_order htokens hlength
  exact ⟨htokens, hlength, hpositions, by decide +kernel, hfaults⟩

end IBLexer
