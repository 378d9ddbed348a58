import IBLexer.Proofs.Grammar.Element
import Mathlib.Data.List.TakeWhile

/-! A text that is not empty begins with exactly one piece. Its first character decides the
rule, and how far the characters of one class reach decides the rest. -/
namespace IBLexer

theorem run_eq_of_stops {accept : Char → Bool} {run run' rest rest' : List Char}
    (hrun : ∀ c ∈ run, accept c = true) (hstop : Stops accept rest)
    (hrun' : ∀ c ∈ run', accept c = true) (hstop' : Stops accept rest')
    (htext : run ++ rest = run' ++ rest') : run = run' := by
  rw [← takeWhile_of_stops hrun hstop, htext, takeWhile_of_stops hrun' hstop']

def inLiteral (delimiter : Char) (c : Char) : Bool := c != delimiter && inLine c

theorem inLiteral_iff {delimiter c : Char} :
    inLiteral delimiter c = true ↔ c ≠ delimiter ∧ inLine c = true := by
  simp [inLiteral]

theorem stops_inLiteral_delimiter (delimiter : Char) (rest : List Char) :
    Stops (inLiteral delimiter) (delimiter :: rest) := by
  intro c hc
  cases hc
  simp [inLiteral]

theorem stops_inLiteral_of_inLine {delimiter : Char} {rest : List Char}
    (hstop : Stops inLine rest) : Stops (inLiteral delimiter) rest := by
  intro c hc
  simp [inLiteral, hstop c hc]

theorem inLine_of_isDelimiter {c : Char} (hc : isDelimiter c = true) : inLine c = true := by
  rcases isDelimiter_iff.mp hc with rfl | rfl <;> decide

def Element.rule : Element → Rule
  | blank _ => .blank
  | comment _ => .slash
  | literal _ _ => .literal
  | number _ => .number
  | word _ => .word
  | operator _ => .operator
  | bracket _ => .bracket

def Flaw.rule : Flaw → Rule
  | stray _ _ => .stray
  | slash _ => .slash
  | unclosed _ _ => .literal

def Piece.rule : Piece → Rule
  | sound element => element.rule
  | flawed flaw => flaw.rule

theorem Element.ofChar_first {element : Element} {rest : List Char} (hfits : element.Fits rest) :
    ∃ c more, element.text = c :: more ∧ Rule.ofChar c = element.rule := by
  cases element with
  | blank c => exact ⟨c, [], rfl, Rule.ofChar_of_isBlank hfits⟩
  | comment text => exact ⟨'/', _, rfl, Rule.ofChar_slash⟩
  | literal delimiter inside => exact ⟨delimiter, _, rfl, Rule.ofChar_of_isDelimiter hfits.1⟩
  | number digits =>
    obtain ⟨hne, hdigits, -⟩ := hfits
    obtain ⟨c, more, rfl⟩ := List.exists_cons_of_ne_nil hne
    exact ⟨c, more, rfl, Rule.ofChar_of_isDigit (hdigits c (.head _))⟩
  | word letters =>
    obtain ⟨⟨first, hfirst, hstart⟩, -⟩ := hfits
    obtain ⟨more, rfl⟩ := List.head?_eq_some_iff.mp hfirst
    exact ⟨first, more, rfl, Rule.ofChar_of_isWordStart hstart⟩
  | operator symbol =>
    have hoperator := mem_operators_and_ne_slash_iff.mpr hfits
    exact ⟨symbol, [], rfl, Rule.ofChar_of_mem_operators hoperator⟩
  | bracket symbol =>
    have hbracket := mem_brackets_iff.mpr hfits
    exact ⟨symbol, [], rfl, Rule.ofChar_of_mem_brackets hbracket⟩

theorem Flaw.ofChar_first {flaw : Flaw} {rest : List Char} (hfits : flaw.Fits rest) :
    ∃ c more, flaw.text = c :: more ∧ Rule.ofChar c = flaw.rule := by
  obtain ⟨hbegins, -⟩ := hfits
  cases flaw with
  | stray c more => exact ⟨c, more, rfl, hbegins⟩
  | slash more => exact ⟨'/', more, rfl, Rule.ofChar_slash⟩
  | unclosed delimiter more =>
    exact ⟨delimiter, more, rfl, Rule.ofChar_of_isDelimiter hbegins.1⟩

theorem Piece.ofChar_first {piece : Piece} {rest : List Char} (hfits : piece.Fits rest) :
    ∃ c more, piece.text = c :: more ∧ Rule.ofChar c = piece.rule := by
  cases piece with
  | sound element => exact Element.ofChar_first hfits
  | flawed flaw => exact Flaw.ofChar_first hfits

theorem Piece.text_ne_nil {piece : Piece} {rest : List Char} (hfits : piece.Fits rest) :
    piece.text ≠ [] := by
  obtain ⟨c, more, htext, -⟩ := ofChar_first hfits
  simp [htext]

theorem Piece.rule_eq {piece other : Piece} {rest rest' : List Char} (hfits : piece.Fits rest)
    (hfits' : other.Fits rest') (htext : piece.text ++ rest = other.text ++ rest') :
    piece.rule = other.rule := by
  obtain ⟨c, more, hpiece, hrule⟩ := ofChar_first hfits
  obtain ⟨c', more', hother, hrule'⟩ := ofChar_first hfits'
  rw [hpiece, hother, List.cons_append, List.cons_append] at htext
  rw [← hrule, ← hrule', (List.cons.inj htext).1]

theorem Element.eq_of_rule_eq {element other : Element} {rest rest' : List Char}
    (hfits : element.Fits rest) (hfits' : other.Fits rest') (hrule : element.rule = other.rule)
    (htext : element.text ++ rest = other.text ++ rest') : element = other := by
  cases element <;> cases other <;> try contradiction
  case blank.blank c c' => rw [(List.cons.inj htext).1]
  case comment.comment text text' =>
    have hbody := (List.cons.inj (List.cons.inj htext).2).2
    rw [run_eq_of_stops hfits.1 hfits.2 hfits'.1 hfits'.2 hbody]
  case literal.literal delimiter inside delimiter' inside' =>
    simp only [text, List.cons_append, List.append_assoc, List.nil_append,
      List.cons.injEq] at htext
    obtain ⟨rfl, hbody⟩ := htext
    have hinside := run_eq_of_stops (fun c hc => inLiteral_iff.mpr (hfits.2 c hc))
      (stops_inLiteral_delimiter delimiter rest)
      (fun c hc => inLiteral_iff.mpr (hfits'.2 c hc))
      (stops_inLiteral_delimiter delimiter rest') hbody
    rw [hinside]
  case number.number digits digits' =>
    rw [show digits = digits' from
      run_eq_of_stops hfits.2.1 hfits.2.2 hfits'.2.1 hfits'.2.2 htext]
  case word.word letters letters' =>
    rw [show letters = letters' from
      run_eq_of_stops hfits.2.1 hfits.2.2 hfits'.2.1 hfits'.2.2 htext]
  case operator.operator c c' => rw [(List.cons.inj htext).1]
  case bracket.bracket c c' => rw [(List.cons.inj htext).1]

theorem Flaw.eq_of_rule_eq {flaw other : Flaw} {rest rest' : List Char}
    (hfits : flaw.Fits rest) (hfits' : other.Fits rest') (hrule : flaw.rule = other.rule)
    (htext : flaw.text ++ rest = other.text ++ rest') : flaw = other := by
  have hregion := run_eq_of_stops hfits.2.1 hfits.2.2 hfits'.2.1 hfits'.2.2 htext
  cases flaw <;> cases other <;> first | contradiction | simp_all [text]

/-- A comment and a lone slash are told apart by the character after the slash, a literal
and an unclosed one by the delimiter that closes it. -/
theorem Element.append_ne_flaw {element : Element} {flaw : Flaw} {rest rest' : List Char}
    (hfits : element.Fits rest) (hfits' : flaw.Fits rest') (hrule : element.rule = flaw.rule) :
    element.text ++ rest ≠ flaw.text ++ rest' := by
  intro htext
  obtain ⟨hbegins, hregion, hstop⟩ := hfits'
  cases element <;> cases flaw <;> try contradiction
  case comment.slash text more =>
    have hmore : '/' :: (text ++ rest) = more ++ rest' := (List.cons.inj htext).2
    cases more with
    | nil => exact absurd (hstop '/' (by rw [← List.nil_append rest', ← hmore]; rfl)) (by decide)
    | cons c more => exact hbegins (congrArg some (List.cons.inj hmore).1.symm)
  case literal.unclosed delimiter inside delimiter' more =>
    simp only [text, Flaw.text, List.cons_append, List.append_assoc, List.nil_append,
      List.cons.injEq] at htext
    obtain ⟨rfl, hbody⟩ := htext
    have hmore : ∀ c ∈ more, inLiteral delimiter c = true := by
      intro c hc
      refine inLiteral_iff.mpr ⟨?_, hregion c (.tail _ hc)⟩
      rintro rfl
      exact hbegins.2 hc
    have hinside := run_eq_of_stops (fun c hc => inLiteral_iff.mpr (hfits.2 c hc))
      (stops_inLiteral_delimiter delimiter rest) hmore (stops_inLiteral_of_inLine hstop) hbody
    rw [hinside, List.append_cancel_left_eq] at hbody
    have hclosed := hstop delimiter (by rw [← hbody]; rfl)
    rw [inLine_of_isDelimiter hfits.1] at hclosed
    contradiction

theorem Piece.eq_of_append_eq {piece other : Piece} {rest rest' : List Char}
    (hfits : piece.Fits rest) (hfits' : other.Fits rest')
    (htext : piece.text ++ rest = other.text ++ rest') : piece = other := by
  have hrule := rule_eq hfits hfits' htext
  cases piece with
  | sound element =>
    cases other with
    | sound other => exact congrArg sound (Element.eq_of_rule_eq hfits hfits' hrule htext)
    | flawed flaw => exact absurd htext (Element.append_ne_flaw hfits hfits' hrule)
  | flawed flaw =>
    cases other with
    | sound element => exact absurd htext.symm (Element.append_ne_flaw hfits' hfits hrule.symm)
    | flawed other => exact congrArg flawed (Flaw.eq_of_rule_eq hfits hfits' hrule htext)

theorem exists_literal_or_unclosed {delimiter : Char} (hquote : isDelimiter delimiter = true)
    (text : List Char) : ∃ piece : Piece, ∃ rest,
      delimiter :: text = piece.text ++ rest ∧ piece.Fits rest := by
  have hsplit := List.takeWhile_append_dropWhile (p := inLiteral delimiter) (l := text)
  have hinside := fun c hc => inLiteral_iff.mp
    (List.mem_takeWhile_imp (p := inLiteral delimiter) (l := text) (x := c) hc)
  have hstop := stops_dropWhile (inLiteral delimiter) text
  generalize text.takeWhile (inLiteral delimiter) = inside at hsplit hinside
  generalize text.dropWhile (inLiteral delimiter) = rest at hsplit hstop
  subst hsplit
  by_cases hclose : rest.head? = some delimiter
  · obtain ⟨more, rfl⟩ := List.head?_eq_some_iff.mp hclose
    exact ⟨.sound (.literal delimiter inside), more, by simp [Piece.text, Element.text],
      hquote, hinside⟩
  · -- The run ended without the delimiter, so it ended with the line.
    have hline : Stops inLine rest := by
      intro c hc
      have hout := hstop c hc
      have hne : c ≠ delimiter := fun hsame => hclose (by rw [← hsame]; exact hc)
      simpa [inLiteral, hne] using hout
    refine ⟨.flawed (.unclosed delimiter inside), rest, rfl, ⟨hquote, ?_⟩, ?_, hline⟩
    · exact fun hmem => (hinside delimiter hmem).1 rfl
    · rintro c (_ | ⟨_, hc⟩)
      · exact inLine_of_isDelimiter hquote
      · exact (hinside c hc).2

theorem exists_comment_or_slash (text : List Char) : ∃ piece : Piece, ∃ rest,
    '/' :: text = piece.text ++ rest ∧ piece.Fits rest := by
  by_cases hslash : text.head? = some '/'
  · obtain ⟨more, rfl⟩ := List.head?_eq_some_iff.mp hslash
    refine ⟨.sound (.comment (more.takeWhile inLine)), more.dropWhile inLine, ?_, ?_,
      stops_dropWhile inLine more⟩
    · simp [Piece.text, Element.text]
    · exact fun c hc => List.mem_takeWhile_imp hc
  · refine ⟨.flawed (.slash (text.takeWhile inLine)), text.dropWhile inLine, ?_, ?_, ?_,
      stops_dropWhile inLine text⟩
    · simp [Piece.text, Flaw.text]
    · intro hhead
      cases text with
      | nil => contradiction
      | cons c more =>
        by_cases hc : inLine c = true
        · simp_all
        · simp [hc] at hhead
    · rintro c (_ | ⟨_, hc⟩)
      · decide
      · exact List.mem_takeWhile_imp hc

theorem exists_piece (c : Char) (text : List Char) : ∃ piece : Piece, ∃ rest,
    c :: text = piece.text ++ rest ∧ piece.Fits rest := by
  by_cases hblank : Unicode.isBlank c = true
  · exact ⟨.sound (.blank c), text, rfl, hblank⟩
  by_cases hslash : c = '/'
  · rw [hslash]
    exact exists_comment_or_slash text
  by_cases hquote : isDelimiter c = true
  · exact exists_literal_or_unclosed hquote text
  by_cases hdigit : c.isDigit = true
  · refine ⟨.sound (.number (c :: text.takeWhile Char.isDigit)), text.dropWhile Char.isDigit,
      by simp [Piece.text, Element.text], by simp, ?_, stops_dropWhile Char.isDigit text⟩
    rintro d (_ | ⟨_, hd⟩)
    · exact hdigit
    · exact List.mem_takeWhile_imp hd
  by_cases hstart : isWordStart c = true
  · refine ⟨.sound (.word (c :: text.takeWhile isWordPart)), text.dropWhile isWordPart,
      by simp [Piece.text, Element.text], ⟨c, rfl, hstart⟩, ?_, stops_dropWhile isWordPart text⟩
    rintro d (_ | ⟨_, hd⟩)
    · exact isWordPart_of_isWordStart hstart
    · exact List.mem_takeWhile_imp hd
  by_cases hoperator : c ∈ operators
  · exact ⟨.sound (.operator c), text, rfl, mem_operators_and_ne_slash_iff.mp ⟨hoperator, hslash⟩⟩
  by_cases hbracket : c ∈ brackets
  · exact ⟨.sound (.bracket c), text, rfl, mem_brackets_iff.mp hbracket⟩
  refine ⟨.flawed (.stray c (text.takeWhile inLine)), text.dropWhile inLine,
    by simp [Piece.text, Flaw.text], ?_, ?_, stops_dropWhile inLine text⟩
  · simp [Flaw.Begins, Rule.ofChar, hblank, hslash, hquote, hdigit, hstart, hoperator, hbracket]
  · rintro d (_ | ⟨_, hd⟩)
    · exact inLine_of_not_isBlank (by simpa using hblank)
    · exact List.mem_takeWhile_imp hd

theorem not_isBlank_of_ofChar {c : Char} (hrule : Rule.ofChar c ≠ .blank) :
    Unicode.isBlank c = false := by
  rw [Bool.eq_false_iff]
  exact fun hblank => hrule (Rule.ofChar_of_isBlank hblank)

theorem Element.inLine_text {element : Element} {rest : List Char} (hfits : element.Fits rest)
    (hblank : element.rule ≠ .blank) : ∀ c ∈ element.text, inLine c = true := by
  cases element with
  | blank _ => contradiction
  | comment text =>
    rintro c (_ | ⟨_, _ | ⟨_, hc⟩⟩)
    · decide
    · decide
    · exact hfits.1 c hc
  | literal delimiter inside =>
    intro c hc
    simp only [text, List.mem_cons, List.mem_append, List.not_mem_nil, or_false] at hc
    rcases hc with rfl | hc | rfl
    · exact inLine_of_isDelimiter hfits.1
    · exact (hfits.2 c hc).2
    · exact inLine_of_isDelimiter hfits.1
  | number digits =>
    intro c hc
    apply inLine_of_not_isBlank
    apply not_isBlank_of_ofChar
    rw [Rule.ofChar_of_isDigit (hfits.2.1 c hc)]
    decide
  | word letters =>
    intro c hc
    apply inLine_of_not_isBlank
    rw [Bool.eq_false_iff]
    intro hblank
    have hpart := Rule.not_isWordPart_of_isBlank hblank
    rw [hfits.2.1 c hc] at hpart
    contradiction
  | operator symbol =>
    rintro c (_ | ⟨_, ⟨⟩⟩)
    apply inLine_of_not_isBlank
    apply not_isBlank_of_ofChar
    rw [Rule.ofChar_of_mem_operators (mem_operators_and_ne_slash_iff.mpr hfits)]
    decide
  | bracket symbol =>
    rintro c (_ | ⟨_, ⟨⟩⟩)
    apply inLine_of_not_isBlank
    apply not_isBlank_of_ofChar
    rw [Rule.ofChar_of_mem_brackets (mem_brackets_iff.mpr hfits)]
    decide

theorem Piece.eq_blank_of_mem {piece : Piece} {rest : List Char} (hfits : piece.Fits rest)
    {c : Char} (hmem : c ∈ piece.text) (hbreak : inLine c = false) : piece = .sound (.blank c) := by
  cases piece with
  | flawed flaw =>
    have hin := hfits.2.1 c hmem
    rw [hbreak] at hin
    contradiction
  | sound element =>
    by_cases hblank : element.rule = .blank
    · cases element with
      | blank _ => rw [List.mem_singleton.mp hmem]
      | comment _ | literal _ _ | number _ | word _ | operator _ | bracket _ => contradiction
    · have hin := Element.inLine_text hfits hblank c hmem
      rw [hbreak] at hin
      contradiction

end IBLexer
