import IBLexer.Proofs.Stream.Order

/-! A fault tells the truth about its line: the cause is what stands at its position, and the
quoted text is the line as far as it was read, which is never less than up to that position. -/
namespace IBLexer

structure Stray (c : Char) : Prop where
  not_blank : Unicode.isBlank c = false
  not_slash : c ≠ '/'
  not_delimiter : isDelimiter c = false
  not_digit : c.isDigit = false
  not_alphabetic : Unicode.isAlphabetic c = false
  not_score : c ≠ '_'
  not_operator : c ∉ ['.', ',', '+', '-', '*', '%', '|', '&', '<', '>', '=']
  not_bracket : c ∉ ['{', '}', '(', ')', '[', ']']

theorem stray_of_ofChar {c : Char} (hrule : Rule.ofChar c = .stray) : Stray c := by
  unfold Rule.ofChar at hrule
  split_ifs at hrule with hblank hslash hquote hdigit hstart hoperator hbracket
  rw [isWordStart, Bool.or_eq_true, beq_iff_eq, not_or] at hstart
  refine ⟨Bool.eq_false_iff.mpr hblank, hslash, Bool.eq_false_iff.mpr hquote,
    Bool.eq_false_iff.mpr hdigit, Bool.eq_false_iff.mpr hstart.1, hstart.2, ?_, ?_⟩
  · exact fun hmem => hoperator (mem_operators_and_ne_slash_iff.mpr hmem).1
  · exact fun hmem => hbracket (mem_brackets_iff.mpr hmem)

/-- What the cause says of a line `left ++ right` with the fault noted between the two parts,
and how much of that line is quoted. -/
def Fault.Cause.Describes (left right quote : List Char) : Fault.Cause → Prop
  | unhandledCharacter c => right.head? = some c ∧ Stray c ∧ quote = left ++ [c]
  | malformedComment =>
    left.getLast? = some '/' ∧ right.head? ≠ some '/' ∧
      quote = if right.head? = some '\r' then left else left ++ right.take 1
  | unterminatedLiteral delimiter =>
    right.head? = some delimiter ∧ isDelimiter delimiter = true ∧
      delimiter ∉ right.tail.takeWhile (· != '\r') ∧ quote = left ++ right.takeWhile (· != '\r')

namespace Fault.Cause.Describes

variable {cause : Fault.Cause} {left right quote : List Char}

theorem left_prefix (hdescribes : cause.Describes left right quote) : left <+: quote := by
  cases cause with
  | unhandledCharacter c =>
    obtain ⟨-, -, rfl⟩ := hdescribes
    exact List.prefix_append left [c]
  | malformedComment =>
    obtain ⟨-, -, rfl⟩ := hdescribes
    split
    · exact List.prefix_rfl
    · exact List.prefix_append _ _
  | unterminatedLiteral delimiter =>
    obtain ⟨-, -, -, rfl⟩ := hdescribes
    exact List.prefix_append _ _

theorem quote_prefix (hdescribes : cause.Describes left right quote) : quote <+: left ++ right := by
  cases cause with
  | unhandledCharacter c =>
    obtain ⟨hhead, -, rfl⟩ := hdescribes
    obtain ⟨more, rfl⟩ := List.head?_eq_some_iff.mp hhead
    exact (List.prefix_append_right_inj left).mpr ⟨more, rfl⟩
  | malformedComment =>
    obtain ⟨-, -, rfl⟩ := hdescribes
    split
    · exact List.prefix_append left right
    · exact (List.prefix_append_right_inj left).mpr (List.take_prefix 1 right)
  | unterminatedLiteral delimiter =>
    obtain ⟨-, -, -, rfl⟩ := hdescribes
    exact (List.prefix_append_right_inj left).mpr (List.takeWhile_prefix _)

theorem getLast?_quote_ne (hdescribes : cause.Describes left right quote) :
    quote.getLast? ≠ some '\r' := by
  cases cause with
  | unhandledCharacter c =>
    obtain ⟨-, hstray, rfl⟩ := hdescribes
    rw [List.getLast?_concat, Option.some_inj.ne]
    rintro rfl
    exact absurd hstray.not_blank (by decide)
  | malformedComment =>
    obtain ⟨hslash, -, rfl⟩ := hdescribes
    split
    · rw [hslash]
      decide
    · next hreturn =>
      cases right with
      | nil =>
        rw [List.take_nil, List.append_nil, hslash]
        decide
      | cons c right =>
        rw [List.take_succ_cons, List.take_zero, List.getLast?_concat]
        exact hreturn
  | unterminatedLiteral delimiter =>
    obtain ⟨hhead, hquote, -, rfl⟩ := hdescribes
    obtain ⟨more, rfl⟩ := List.head?_eq_some_iff.mp hhead
    have hne : delimiter ≠ '\r' := (ne_break_of_inLine (inLine_of_isDelimiter hquote)).2
    have hread : (delimiter :: more).takeWhile (· != '\r') ≠ [] := by simp [hne]
    intro hlast
    rw [List.getLast?_append_of_ne_nil _ hread] at hlast
    exact absurd (List.mem_takeWhile_imp (List.mem_of_getLast? hlast)) (by decide)

theorem column_le {fault : Fault} {text : List Char}
    (hdescribes : cause.Describes left right fault.lineText.toList)
    (hdivides : fault.position.Divides text left right) :
    fault.position.column.toNat ≤ fault.lineText.length + 1 := by
  have hle := hdescribes.left_prefix.length_le
  rw [String.length_toList] at hle
  rw [hdivides.column_eq]
  omega

theorem notMem_feed_quote (hdescribes : cause.Describes left right quote)
    (hline : '\n' ∉ left ++ right) : '\n' ∉ quote :=
  fun hmem => hline (hdescribes.quote_prefix.subset hmem)

end Fault.Cause.Describes

theorem stops_firstLine {rest : List Char} (hstop : Stops inLine rest) :
    Stops (· != '\r') (firstLine rest) := by
  cases rest with
  | nil => simp [Stops, firstLine]
  | cons c rest =>
    rcases break_of_not_inLine (hstop c rfl) with rfl | rfl
    · simp [Stops, firstLine]
    · rintro _ ⟨⟩
      decide

theorem takeWhile_append_firstLine {run rest : List Char} (hrun : ∀ c ∈ run, inLine c = true)
    (hstop : Stops inLine rest) : (run ++ firstLine rest).takeWhile (· != '\r') = run :=
  takeWhile_of_stops (fun c hc => bne_iff_ne.mpr (ne_break_of_inLine (hrun c hc)).2)
    (stops_firstLine hstop)

namespace Flaw

variable {flaw : Flaw} {rest : List Char}

theorem Fits.inLine_back (hfits : flaw.Fits rest) : ∀ c ∈ flaw.back, inLine c = true := by
  intro c hc
  apply hfits.2.1
  rw [← front_append_back]
  exact List.mem_append_right _ hc

theorem Fits.describes (hfits : flaw.Fits rest) (file : String) (before : List Char) :
    (flaw.fault ((Place.start file).after before)).cause.Describes
      (lastLine (before ++ flaw.front)) (flaw.back ++ firstLine rest)
      (flaw.fault ((Place.start file).after before)).lineText.toList := by
  have hline : ∀ run : List Char, '\n' ∉ run →
      ((((Place.start file).after before).after run).line).toList = lastLine before ++ run := by
    intro run hrun
    rw [← Place.after_append, Place.toList_line_after_start, lastLine_append hrun]
  cases flaw with
  | stray c more =>
    have hquote := hline [c] (fun hmem => notMem_feed_of_inLine hfits.2.1 (List.mem_append_left more hmem))
    refine ⟨rfl, stray_of_ofChar hfits.1, ?_⟩
    rw [front, List.append_nil]
    exact hquote
  | slash more =>
    have hslash : '\n' ∉ ['/'] := by decide
    have hquote := hline ('/' :: more.take 1) (fun hmem => notMem_feed_of_inLine hfits.2.1
      (((List.prefix_cons_inj '/').mpr (List.take_prefix 1 more)).subset hmem))
    have hstop := stops_firstLine hfits.2.2
    rw [front, lastLine_append hslash]
    refine ⟨List.getLast?_concat, ?_, hquote.trans ?_⟩
    · cases more with
      | nil => exact fun hhead => absurd (hstop '/' hhead) (by decide)
      | cons c more => exact hfits.1
    · cases more with
      | nil =>
        cases hfirst : firstLine rest with
        | nil => simp [back]
        | cons c line =>
          have hreturn : c = '\r' := by simpa using hstop c (by rw [hfirst]; rfl)
          simp [back, hreturn]
      | cons c more =>
        have hin := hfits.inLine_back c (.head more)
        simp [back, (ne_break_of_inLine hin).2]
  | unclosed delimiter more =>
    have hquote := hline (delimiter :: more) (notMem_feed_of_inLine hfits.2.1)
    have hmore := fun c hc => hfits.inLine_back c (.tail delimiter hc)
    refine ⟨rfl, hfits.1.1, ?_, ?_⟩
    · change delimiter ∉ (more ++ firstLine rest).takeWhile (· != '\r')
      rw [takeWhile_append_firstLine hmore hfits.2.2]
      exact hfits.1.2
    · rw [takeWhile_append_firstLine hfits.inLine_back hfits.2.2, front, List.append_nil]
      exact hquote

end Flaw

theorem Piece.Occurs.divides {flaw : Flaw} {text before after : List Char}
    (hoccurs : (Piece.flawed flaw).Occurs text before after) (hlt : text.length + 1 < 2 ^ 32)
    (file : String) : (flaw.fault ((Place.start file).after before)).position.Divides text
      (lastLine (before ++ flaw.front)) (flaw.back ++ firstLine after) := by
  have htext : text = (before ++ flaw.front) ++ (flaw.back ++ after) := by
    rw [hoccurs.text_eq, Piece.text, ← Flaw.front_append_back]
    simp only [List.append_assoc]
  rw [Flaw.position_fault, ← firstLine_append (notMem_feed_of_inLine hoccurs.fits.inLine_back),
    htext]
  apply Position.divides_after_start
  rw [htext, List.length_append] at hlt
  omega

theorem exists_describes {source : String} {file? : Option String} {fault : Fault}
    (hfault : HasFault source file? fault) (hlength : source.length ≤ 2 ^ 32 - 2) :
    ∃ left right, fault.position.Divides source.toList left right ∧
      fault.cause.Describes left right fault.lineText.toList ∧ '\n' ∉ left ++ right := by
  obtain ⟨flaw, before, after, hoccurs, rfl⟩ := exists_occurs_of_mem_faults hfault.mem
  refine ⟨_, _, hoccurs.divides (length_toList_lt hlength) _, hoccurs.fits.describes _ before, ?_⟩
  have hback := notMem_feed_of_inLine hoccurs.fits.inLine_back
  rw [List.mem_append, List.mem_append, not_or, not_or]
  exact ⟨notMem_lastLine _, hback, notMem_firstLine after⟩

/-- Faults describe the source truthfully: at the position stands what the cause says, and the
quoted text is a front part of that line which reaches the position. -/
theorem faults_describe_lines {source : String} {file? : Option String} {fault : Fault}
    (hfault : HasFault source file? fault) (hlength : source.length ≤ 2 ^ 32 - 2) :
    ∃ left right, fault.position.Divides source.toList left right ∧
      fault.cause.Describes left right fault.lineText.toList ∧
      fault.lineText.toList <+: left ++ right ∧
      fault.position.column.toNat ≤ fault.lineText.length + 1 ∧
      '\n' ∉ fault.lineText.toList ∧ fault.lineText.toList.getLast? ≠ some '\r' := by
  obtain ⟨left, right, hdivides, hdescribes, hline⟩ := exists_describes hfault hlength
  exact ⟨left, right, hdivides, hdescribes, hdescribes.quote_prefix,
    hdescribes.column_le hdivides, hdescribes.notMem_feed_quote hline,
    hdescribes.getLast?_quote_ne⟩

/-- An unclosed literal between two carriage returns, with the other delimiter inside. -/
theorem faults_describe_lines_unclosed :
    let source := "\tx/\r'y \"\r?"
    let fault : Fault := ⟨.unterminatedLiteral '\'', ⟨1, 5⟩, "shell", "\tx/\r'y \""⟩
    HasFault source none fault ∧ source.length ≤ 2 ^ 32 - 2 ∧
      ∃ left right, fault.position.Divides source.toList left right ∧
        fault.cause.Describes left right "\tx/\r'y \"".toList := by
  intro source fault
  have hfault : HasFault source none fault := Or.inr (by decide +kernel)
  have hlength : source.length ≤ 2 ^ 32 - 2 := by decide
  obtain ⟨left, right, hdivides, hdescribes, -⟩ := faults_describe_lines hfault hlength
  exact ⟨hfault, hlength, left, right, hdivides, hdescribes⟩

end IBLexer
