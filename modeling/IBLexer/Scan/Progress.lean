import IBLexer.Scan.Step

/-! A step that yields anything but the end of the text has consumed a character, and so has
a failed step once the rest of its line is skipped. Both policies end because of this. -/
namespace IBLexer.Cursor

theorem length_rest_skipWhile_le (cursor : Cursor) (accept : Char → Bool) :
    (cursor.skipWhile accept).rest.length ≤ cursor.rest.length := by
  rw [rest_skipWhile]
  exact (List.dropWhile_sublist accept).length_le

theorem length_rest_skipWhile_lt {cursor : Cursor} {accept : Char → Bool} {c : Char}
    {text : List Char} (hrest : cursor.rest = c :: text) (hc : accept c = true) :
    (cursor.skipWhile accept).rest.length < cursor.rest.length := by
  rw [rest_skipWhile, hrest, List.dropWhile_cons_of_pos hc]
  exact Nat.lt_succ_of_le (List.dropWhile_sublist accept).length_le

theorem length_rest_consume_le (cursor : Cursor) (count : Nat) :
    (cursor.consume count).rest.length ≤ cursor.rest.length := by
  rw [rest_consume, List.length_drop]
  exact Nat.sub_le _ _

theorem length_rest_consume_succ_lt {cursor : Cursor} (hrest : cursor.rest ≠ []) (count : Nat) :
    (cursor.consume (count + 1)).rest.length < cursor.rest.length := by
  have hpos := List.length_pos_iff.mpr hrest
  rw [rest_consume, List.length_drop]
  omega

theorem length_rest_blanks_le (cursor : Cursor) :
    cursor.blanks.2.rest.length ≤ cursor.rest.length := by
  have hskip := length_rest_skipWhile_le cursor fun c => Unicode.isBlank c && c != '\n'
  unfold blanks
  dsimp only
  split
  · exact Nat.le_trans (length_rest_consume_le _ 1) hskip
  · exact hskip

theorem length_rest_blanks_lt {cursor : Cursor} {c : Char} {text : List Char}
    (hrest : cursor.rest = c :: text) (hc : Unicode.isBlank c = true) :
    cursor.blanks.2.rest.length < cursor.rest.length := by
  have hskip := length_rest_skipWhile_le cursor fun c => Unicode.isBlank c && c != '\n'
  unfold blanks
  dsimp only
  split
  · next hhead =>
    have hne : (cursor.skipWhile fun c => Unicode.isBlank c && c != '\n').rest ≠ [] := by
      intro hnil
      simp [hnil] at hhead
    exact Nat.lt_of_lt_of_le (length_rest_consume_succ_lt hne 0) hskip
  · next hhead =>
    apply length_rest_skipWhile_lt hrest
    rw [rest_skipWhile, hrest, List.dropWhile_cons] at hhead
    by_cases hfeed : c = '\n'
    · simp [hfeed] at hhead
    · simp [hc, hfeed]

theorem length_rest_lineEnd_le (cursor : Cursor) :
    cursor.lineEnd.2.rest.length ≤ cursor.rest.length := by
  unfold lineEnd
  split
  · exact Nat.le_refl _
  · exact length_rest_blanks_le cursor

theorem length_rest_comment_lt {cursor : Cursor} (hrest : cursor.rest ≠ []) :
    cursor.comment.2.rest.length < cursor.rest.length := by
  have hslash := length_rest_consume_succ_lt hrest 0
  have hskip := length_rest_skipWhile_le (cursor.consume 1).look fun c => !isLineBreak c
  have hend := length_rest_lineEnd_le (cursor.consume 1).look.skipLine
  unfold comment
  dsimp only
  split
  · exact Nat.lt_of_le_of_lt (Nat.le_trans hend hskip) hslash
  · exact hslash

theorem length_rest_quoted_lt {cursor : Cursor} (hrest : cursor.rest ≠ []) (delimiter : Char) :
    (cursor.quoted delimiter).2.rest.length < cursor.rest.length := by
  have hopen := length_rest_consume_succ_lt hrest 0
  have hinside := fun count => length_rest_consume_le (cursor.consume 1) count
  unfold quoted
  dsimp only
  split
  · exact Nat.lt_of_le_of_lt (Nat.le_trans (length_rest_consume_le _ 1) (hinside _)) hopen
  · exact Nat.lt_of_le_of_lt (hinside _) hopen

theorem length_rest_element_lt {cursor : Cursor} {c : Char} {text : List Char}
    (hrest : cursor.rest = c :: text)
    (hfault : cursor.element c ≠ (.error (cursor.fault (.unhandledCharacter c)), cursor)) :
    (cursor.element c).2.rest.length < cursor.rest.length := by
  have hne : cursor.rest ≠ [] := by simp [hrest]
  unfold element
  split
  · next hc => exact length_rest_blanks_lt hrest hc
  split
  · exact length_rest_comment_lt hne
  split
  · exact length_rest_quoted_lt hne c
  split
  · next hc => exact length_rest_skipWhile_lt hrest hc
  split
  · next hc => exact length_rest_skipWhile_lt hrest (isWordPart_of_isWordStart hc)
  split
  · exact length_rest_consume_succ_lt hne 0
  split
  · exact length_rest_consume_succ_lt hne 0
  · exact absurd (by simp [element, *]) hfault

theorem length_rest_next_lt {cursor : Cursor}
    (hend : cursor.next.1 ≠ .ok (some (Token.endOfFile cursor.position)))
    (hfault : ∀ c, cursor.next.1 ≠ .error (cursor.fault (.unhandledCharacter c))) :
    cursor.next.2.rest.length < cursor.rest.length := by
  cases hrest : cursor.rest with
  | nil => exact absurd (by rw [next_of_rest_nil hrest]; rfl) hend
  | cons c text =>
    rw [next_of_rest_cons hrest, ← hrest]
    apply length_rest_element_lt hrest
    intro helement
    exact hfault c (by rw [next_of_rest_cons hrest, helement])

/-- Line breaks are blanks, so an unhandled character belongs to the line that is skipped. -/
theorem not_isLineBreak_of_element_error {cursor : Cursor} {c : Char} {fault : Fault}
    (herror : (cursor.element c).1 = .error fault) : isLineBreak c = false := by
  rw [Bool.eq_false_iff]
  intro hbreak
  unfold element blanks at herror
  rw [if_pos (isBlank_of_isLineBreak hbreak)] at herror
  dsimp only at herror
  split at herror <;> contradiction

theorem length_rest_skipLine_next_lt {cursor : Cursor} {fault : Fault}
    (herror : cursor.next.1 = .error fault) :
    cursor.next.2.skipLine.rest.length < cursor.rest.length := by
  cases hrest : cursor.rest with
  | nil =>
    rw [next_of_rest_nil hrest] at herror
    contradiction
  | cons c text =>
    rw [next_of_rest_cons hrest] at herror ⊢
    have hskip := length_rest_skipWhile_le (cursor.element c).2 fun c => !isLineBreak c
    by_cases hsame : cursor.element c = (.error (cursor.fault (.unhandledCharacter c)), cursor)
    · have hbreak := not_isLineBreak_of_element_error herror
      rw [hsame, ← hrest]
      exact length_rest_skipWhile_lt hrest (by simp [hbreak])
    · rw [← hrest]
      exact Nat.lt_of_le_of_lt hskip (length_rest_element_lt hrest hsame)

end IBLexer.Cursor
