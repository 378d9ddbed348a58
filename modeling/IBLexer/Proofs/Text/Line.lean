import IBLexer.Proofs.Text.Place
import Mathlib.Data.List.DropRight

/-! The lines of a text are what stands between its line feeds; a carriage return belongs to
its line like any other character. A position that was reached by reading names a line of the
text and tells how much of that line was read. -/
namespace IBLexer

def firstLine (text : List Char) : List Char := text.takeWhile (· != '\n')

def lastLine (text : List Char) : List Char := text.rtakeWhile (· != '\n')

theorem notMem_firstLine (text : List Char) : '\n' ∉ firstLine text :=
  fun hmem => absurd (List.mem_takeWhile_imp hmem) (by decide)

theorem notMem_lastLine (text : List Char) : '\n' ∉ lastLine text :=
  fun hmem => absurd (List.mem_rtakeWhile_imp hmem) (by decide)

theorem length_lastLine_le (text : List Char) : (lastLine text).length ≤ text.length :=
  (List.rtakeWhile_suffix _ text).length_le

theorem ne_feed_of_notMem {text : List Char} (hline : '\n' ∉ text) :
    ∀ c ∈ text, (c != '\n') = true := by
  intro c hc
  rw [bne_iff_ne]
  rintro rfl
  exact hline hc

theorem firstLine_append {text : List Char} (hline : '\n' ∉ text) (rest : List Char) :
    firstLine (text ++ rest) = text ++ firstLine rest :=
  List.takeWhile_append_of_pos (ne_feed_of_notMem hline)

theorem lastLine_append {text : List Char} (hline : '\n' ∉ text) (before : List Char) :
    lastLine (before ++ text) = lastLine before ++ text := by
  have hreverse : '\n' ∉ text.reverse := by rwa [List.mem_reverse]
  rw [lastLine, List.rtakeWhile, List.reverse_append,
    List.takeWhile_append_of_pos (ne_feed_of_notMem hreverse), List.reverse_append,
    List.reverse_reverse]
  rfl

theorem lastLine_append_feed (text : List Char) : lastLine (text ++ ['\n']) = [] :=
  List.rtakeWhile_concat_neg _ _ '\n' (by decide)

theorem eq_lastLine_or_append_feed (text : List Char) :
    text = lastLine text ∨ ∃ above, text = above ++ '\n' :: lastLine text := by
  induction text using List.reverseRecOn with
  | nil => exact Or.inl rfl
  | append_singleton text c ih =>
    by_cases hfeed : c = '\n'
    · subst hfeed
      exact Or.inr ⟨text, by rw [lastLine_append_feed]⟩
    · have hline : '\n' ∉ [c] := by simpa using Ne.symm hfeed
      rw [lastLine_append hline]
      rcases ih with hwhole | ⟨above, habove⟩
      · exact Or.inl (congrArg (· ++ [c]) hwhole)
      · refine Or.inr ⟨above, ?_⟩
        rw [← List.cons_append, ← List.append_assoc, ← habove]

theorem splitOn_append_feed (text rest : List Char) :
    (text ++ '\n' :: rest).splitOn '\n' = text.splitOn '\n' ++ rest.splitOn '\n' :=
  List.splitOnP_append_cons text rest rfl

theorem length_splitOn_feed (text : List Char) :
    (text.splitOn '\n').length = text.count '\n' + 1 := by
  induction text with
  | nil => rfl
  | cons c text ih =>
    rw [List.splitOn] at ih ⊢
    rw [List.splitOnP_cons_eq_if_modifyHead, List.count_cons]
    by_cases hfeed : c = '\n'
    · simp [hfeed, ih]
    · simp [hfeed, ih]

theorem head?_splitOn_feed (text : List Char) :
    (text.splitOn '\n')[0]? = some (firstLine text) := by
  by_cases hfeed : '\n' ∈ text
  · obtain ⟨run, rest, rfl, hrun⟩ := List.eq_append_cons_of_mem hfeed
    have hfirst : firstLine ('\n' :: rest) = [] := rfl
    rw [splitOn_append_feed, List.splitOn_eq_singleton hrun, firstLine_append hrun, hfirst,
      List.append_nil]
    rfl
  · have hfirst := firstLine_append hfeed []
    rw [List.append_nil] at hfirst
    rw [List.splitOn_eq_singleton hfeed, hfirst, firstLine, List.takeWhile_nil, List.append_nil]
    rfl

theorem getElem?_splitOn_feed (text rest : List Char) :
    ((text ++ rest).splitOn '\n')[text.count '\n']? = some (lastLine text ++ firstLine rest) := by
  have hlast := notMem_lastLine text
  have hhead := head?_splitOn_feed (lastLine text ++ rest)
  rw [firstLine_append hlast] at hhead
  rcases eq_lastLine_or_append_feed text with hwhole | ⟨above, habove⟩
  · rw [← hwhole] at hlast hhead ⊢
    rwa [List.count_eq_zero_of_not_mem hlast]
  · have hcount : text.count '\n' = (above.splitOn '\n').length := by
      rw [habove, List.count_append, List.count_cons_self, List.count_eq_zero_of_not_mem hlast,
        length_splitOn_feed]
    have htext : text ++ rest = above ++ '\n' :: (lastLine text ++ rest) := by
      rw [← List.cons_append, ← List.append_assoc, ← habove]
    rw [htext, splitOn_append_feed, hcount, List.getElem?_append_right (Nat.le_refl _),
      Nat.sub_self, hhead]

theorem toList_extendLine (text : List Char) : (extendLine "" text).toList = lastLine text := by
  induction text using List.reverseRecOn with
  | nil => rfl
  | append_singleton text c ih =>
    rw [extendLine_append]
    by_cases hfeed : c = '\n'
    · rw [hfeed, lastLine_append_feed]
      rfl
    · have hline : '\n' ∉ [c] := by simpa using Ne.symm hfeed
      rw [lastLine_append hline, ← ih]
      simp [extendLine, hfeed]

theorem Place.toList_line_after_start (file : String) (text : List Char) :
    ((start file).after text).line.toList = lastLine text :=
  toList_extendLine text

/-- In a text of this length no counter overflows, not even behind its end. -/
theorem length_toList_lt {source : String} (hlength : source.length ≤ 2 ^ 32 - 2) :
    source.toList.length + 1 < 2 ^ 32 := by
  rw [String.length_toList]
  omega

namespace Position

theorem toNat_column_after_start {text : List Char} (hlt : text.length + 1 < 2 ^ 32) :
    (start.after text).column.toNat = (lastLine text).length + 1 := by
  have hlast := notMem_lastLine text
  have hle := length_lastLine_le text
  have hlength : (lastLine text).length < 2 ^ 32 := by omega
  -- On the last line the column counts from one, whatever stands above.
  have hcolumn : (start.after text).column = 1 + UInt32.ofNat (lastLine text).length := by
    rcases eq_lastLine_or_append_feed text with hwhole | ⟨above, habove⟩
    · rw [← hwhole] at hlast ⊢
      rw [after_of_notMem hlast]
      rfl
    · have hafter : start.after text = ((start.after above).advance '\n').after (lastLine text) := by
        rw [← after_cons, ← after_append, ← habove]
      rw [hafter, after_of_notMem hlast]
      rfl
  have hone : (1 : UInt32).toNat = 1 := rfl
  rw [hcolumn, UInt32.toNat_add, UInt32.toNat_ofNat_of_lt' hlength, hone]
  omega

/-- The position stands on the line `left ++ right` of the text, between the two parts. -/
structure Divides (position : Position) (text left right : List Char) : Prop where
  line_pos : 0 < position.line.toNat
  line_eq : (text.splitOn '\n')[position.line.toNat - 1]? = some (left ++ right)
  column_eq : position.column.toNat = left.length + 1

theorem divides_after_start {before rest : List Char} (hlt : before.length + 1 < 2 ^ 32) :
    (start.after before).Divides (before ++ rest) (lastLine before) (firstLine rest) := by
  have hline := toNat_line_after_start hlt
  refine ⟨by omega, ?_, toNat_column_after_start hlt⟩
  rw [hline, Nat.add_sub_cancel_left]
  exact getElem?_splitOn_feed before rest

theorem toNat_column_after_append {before text : List Char} (hline : '\n' ∉ text)
    (hlt : (before ++ text).length + 1 < 2 ^ 32) :
    (start.after (before ++ text)).column.toNat =
      (start.after before).column.toNat + text.length := by
  have hbefore : before.length + 1 < 2 ^ 32 := by
    rw [List.length_append] at hlt
    omega
  rw [toNat_column_after_start hlt, toNat_column_after_start hbefore, lastLine_append hline,
    List.length_append]
  omega

theorem line_after_lt_line_after {before text : List Char} (hfeed : '\n' ∈ text)
    (hlt : (before ++ text).length + 1 < 2 ^ 32) :
    (start.after before).line < (start.after (before ++ text)).line := by
  have hbefore : before.length + 1 < 2 ^ 32 := by
    rw [List.length_append] at hlt
    omega
  have hcount := List.count_pos_iff.mpr hfeed
  rw [UInt32.lt_iff_toNat_lt, toNat_line_after_start hlt, toNat_line_after_start hbefore,
    List.count_append]
  omega

theorem line_after_append_of_notMem {before text : List Char} (hline : '\n' ∉ text) :
    (start.after (before ++ text)).line = (start.after before).line := by
  rw [after_append, after_of_notMem hline]

theorem after_lt_after_append {before text : List Char} (hne : text ≠ [])
    (hlt : (before ++ text).length + 1 < 2 ^ 32) :
    start.after before < start.after (before ++ text) := by
  rw [lt_iff]
  by_cases hline : '\n' ∈ text
  · exact Or.inl (line_after_lt_line_after hline hlt)
  · have hpos := List.length_pos_iff.mpr hne
    refine Or.inr ⟨(line_after_append_of_notMem hline).symm, ?_⟩
    rw [UInt32.lt_iff_toNat_lt, toNat_column_after_append hline hlt]
    omega

end Position
end IBLexer
