import IBLexer.Proofs.Grammar.Tiling

/-! What one step does at each piece. Cursors are compared by what is left to read and by
their place: whether the end of the text was noticed has no influence on a later step. -/
namespace IBLexer.Cursor

/-- The moved cursor stands right behind the text, wherever it looked. -/
structure Passes (cursor : Cursor) (text : List Char) (moved : Cursor) : Prop where
  rest : cursor.rest = text ++ moved.rest
  place : moved.place = cursor.place.after text

theorem passes_consume {cursor : Cursor} {text rest : List Char}
    (hrest : cursor.rest = text ++ rest) : cursor.Passes text (cursor.consume text.length) := by
  constructor
  · rw [rest_consume, hrest, List.drop_left]
  · simp only [place, Place.after, file_consume, position_consume, lineText_consume, hrest,
      List.take_left]

theorem Passes.trans {cursor moved last : Cursor} {text more : List Char}
    (hfirst : cursor.Passes text moved) (hnext : moved.Passes more last) :
    cursor.Passes (text ++ more) last :=
  ⟨by rw [hfirst.rest, hnext.rest, List.append_assoc],
    by rw [hnext.place, hfirst.place, Place.after_append]⟩

theorem Passes.rest_eq {cursor moved : Cursor} {text rest : List Char}
    (hpass : cursor.Passes text moved) (hrest : cursor.rest = text ++ rest) :
    moved.rest = rest :=
  List.append_cancel_left (hpass.rest.symm.trans hrest)

theorem Passes.look {cursor moved : Cursor} {text : List Char} (hpass : cursor.Passes text moved) :
    cursor.Passes text moved.look :=
  ⟨hpass.rest, hpass.place⟩

theorem Passes.position {cursor moved : Cursor} {text : List Char}
    (hpass : cursor.Passes text moved) : moved.position = cursor.position.after text :=
  congrArg Place.position hpass.place

theorem Passes.lineText {cursor moved : Cursor} {text : List Char}
    (hpass : cursor.Passes text moved) : moved.lineText = (cursor.place.after text).line :=
  congrArg Place.line hpass.place

theorem Passes.file {cursor moved : Cursor} {text : List Char}
    (hpass : cursor.Passes text moved) : moved.file = cursor.file :=
  congrArg Place.file hpass.place

theorem run_eq {cursor : Cursor} {accept : Char → Bool} {run rest : List Char}
    (hrest : cursor.rest = run ++ rest) (hrun : ∀ c ∈ run, accept c = true)
    (hstop : Stops accept rest) : cursor.run accept = run := by
  rw [Cursor.run, hrest, takeWhile_of_stops hrun hstop]

theorem passes_skipWhile {cursor : Cursor} {accept : Char → Bool} {run rest : List Char}
    (hrest : cursor.rest = run ++ rest) (hrun : ∀ c ∈ run, accept c = true)
    (hstop : Stops accept rest) : cursor.Passes run (cursor.skipWhile accept) := by
  rw [skipWhile, run_eq hrest hrun hstop]
  exact (passes_consume hrest).look

theorem look_of_rest_ne_nil {cursor : Cursor} (hrest : cursor.rest ≠ []) :
    cursor.look = cursor := by
  have hmore : cursor.rest.isEmpty = false := List.isEmpty_eq_false_iff.mpr hrest
  rw [look, hmore, Bool.or_false]

theorem next_eq_step_of_piece {cursor : Cursor} {piece : Piece} {rest : List Char}
    (hrest : cursor.rest = piece.text ++ rest) (hfits : piece.Fits rest) :
    ∃ c more, piece.text = c :: more ∧ cursor.next = piece.rule.step cursor c := by
  obtain ⟨c, more, htext, hrule⟩ := Piece.ofChar_first hfits
  rw [htext, List.cons_append] at hrest
  exact ⟨c, more, htext, hrule ▸ Rule.next_eq_step hrest⟩

theorem quoted_eq {cursor : Cursor} {delimiter : Char} {inside rest : List Char}
    (hrest : cursor.rest = delimiter :: (inside ++ rest))
    (hinside : ∀ c ∈ inside, inLiteral delimiter c = true) (hstop : Stops (inLiteral delimiter) rest) :
    ∃ stop : Cursor, cursor.Passes (delimiter :: inside) stop ∧ cursor.quoted delimiter =
      if stop.rest.head? = some delimiter then
        (.ok ((Element.literal delimiter inside).token? cursor.position), stop.consume 1)
      else (.error ((Flaw.unclosed delimiter inside).fault cursor.place), stop) := by
  have hopen : cursor.Passes [delimiter] (cursor.consume 1) := passes_consume hrest
  have hopened : (cursor.consume 1).rest = inside ++ rest := hopen.rest_eq hrest
  have hrun : ((cursor.consume 1).run fun c => c != delimiter && !isLineBreak c) = inside :=
    run_eq hopened hinside hstop
  have hpass : cursor.Passes (delimiter :: inside) _ := hopen.trans (passes_consume hopened).look
  refine ⟨_, hpass, ?_⟩
  simp only [quoted, hrun, Flaw.fault, ← hpass.lineText]
  rfl

theorem next_of_element {cursor : Cursor} {element : Element} {rest : List Char}
    (hrest : cursor.rest = element.text ++ rest) (hfits : element.Fits rest)
    (htrivia : element.isTrivia = false) : ∃ moved, cursor.Passes element.text moved ∧
      cursor.next = (.ok (element.token? cursor.position), moved) := by
  obtain ⟨c, more, htext, hnext⟩ := @next_eq_step_of_piece cursor (.sound element) rest hrest hfits
  rw [hnext]
  cases element with
  | blank _ | comment _ => contradiction
  | literal delimiter inside =>
    obtain rfl : delimiter = c := (List.cons.inj htext).1
    have hquote : cursor.rest = delimiter :: (inside ++ delimiter :: rest) := by
      rw [hrest]
      simp [Element.text]
    obtain ⟨stop, hpass, hquoted⟩ := quoted_eq hquote
      (fun c hc => inLiteral_iff.mpr (hfits.2 c hc)) (stops_inLiteral_delimiter delimiter rest)
    have hclose : stop.rest = [delimiter] ++ rest := hpass.rest_eq hquote
    refine ⟨stop.consume 1, hpass.trans (passes_consume hclose), ?_⟩
    exact hquoted.trans (if_pos (by rw [hclose]; rfl))
  | number digits =>
    refine ⟨_, passes_skipWhile hrest hfits.2.1 hfits.2.2, ?_⟩
    simp only [Piece.rule, Element.rule, Rule.step, number, run_eq hrest hfits.2.1 hfits.2.2]
    rfl
  | word letters =>
    refine ⟨_, passes_skipWhile hrest hfits.2.1 hfits.2.2, ?_⟩
    simp only [Piece.rule, Element.rule, Rule.step, word, run_eq hrest hfits.2.1 hfits.2.2]
    rfl
  | operator symbol | bracket symbol =>
    obtain rfl : symbol = c := (List.cons.inj htext).1
    exact ⟨_, passes_consume hrest, rfl⟩

theorem skipWhile_cons {cursor : Cursor} {c : Char} {text : List Char} (accept : Char → Bool)
    (hrest : cursor.rest = c :: text) (hc : accept c = true) :
    cursor.skipWhile accept = (cursor.consume 1).skipWhile accept := by
  simp only [skipWhile, Cursor.run, rest_consume, hrest, List.drop_succ_cons, List.drop_zero,
    List.takeWhile_cons_of_pos hc, List.length_cons, consume_consume]
  rw [Nat.add_comm]

theorem skipWhile_of_stops {cursor : Cursor} {accept : Char → Bool}
    (hstop : Stops accept cursor.rest) : cursor.skipWhile accept = cursor.look := by
  have hrun : cursor.run accept = [] := run_eq rfl (by simp) hstop
  rw [skipWhile, hrun]
  rfl

theorem next_of_isBlank {cursor : Cursor} {c : Char} {rest : List Char}
    (hrest : cursor.rest = c :: rest) (hblank : Unicode.isBlank c = true) :
    cursor.next = cursor.blanks := by
  rw [Rule.next_eq_step hrest, Rule.ofChar_of_isBlank hblank, Rule.step]

theorem next_feed {cursor : Cursor} {rest : List Char} (hrest : cursor.rest = '\n' :: rest) :
    cursor.next = (.ok (some (.endOfLine cursor.position)), cursor.consume 1) := by
  have hskip : (cursor.skipWhile fun c => Unicode.isBlank c && c != '\n') = cursor := by
    rw [skipWhile_of_stops, look_of_rest_ne_nil (by simp [hrest])]
    intro c hc
    rw [hrest] at hc
    cases hc
    simp
  rw [next_of_isBlank hrest (by decide)]
  simp only [blanks, hskip, hrest, List.head?_cons, if_true]

/-- A blank other than the line feed is passed either by the step that passes the blanks
after it or by a step of its own. -/
theorem next_blank {cursor : Cursor} {c : Char} {rest : List Char}
    (hrest : cursor.rest = c :: rest) (hblank : Unicode.isBlank c = true) (hfeed : c ≠ '\n') :
    ∃ moved, cursor.Passes [c] moved ∧
      (cursor.next = moved.next ∨ cursor.next = (.ok none, moved)) := by
  have hpass : cursor.Passes [c] (cursor.consume 1).look := (passes_consume hrest).look
  have hmoved : (cursor.consume 1).look.rest = rest := hpass.rest_eq hrest
  have hskip := skipWhile_cons (fun c => Unicode.isBlank c && c != '\n') hrest
    (by simp [hblank, hfeed])
  refine ⟨_, hpass, ?_⟩
  rw [next_of_isBlank hrest hblank]
  by_cases hstop : Stops Unicode.isBlank rest
  · right
    have hstay : Stops (fun c => Unicode.isBlank c && c != '\n') (cursor.consume 1).rest := by
      intro d hd
      simp [hstop d (by rwa [← hmoved])]
    have hhead : rest.head? ≠ some '\n' := fun hhead => absurd (hstop '\n' hhead) (by decide)
    simp only [blanks, hskip, skipWhile_of_stops hstay, hmoved, if_neg hhead]
  · left
    obtain ⟨d, hd, hblank'⟩ : ∃ d ∈ rest.head?, Unicode.isBlank d = true := by
      simpa [Stops] using hstop
    obtain ⟨more, hmore⟩ := List.head?_eq_some_iff.mp hd
    have hne : (cursor.consume 1).rest ≠ [] := by
      rw [← rest_look, hmoved, hmore]
      exact List.cons_ne_nil d more
    rw [look_of_rest_ne_nil hne] at hmoved ⊢
    rw [next_of_isBlank (hmoved.trans hmore) hblank']
    simp only [blanks, hskip]

theorem next_comment {cursor : Cursor} {text rest : List Char}
    (hrest : cursor.rest = '/' :: '/' :: (text ++ rest)) (htext : ∀ c ∈ text, inLine c = true)
    (hstop : Stops inLine rest) :
    ∃ moved, cursor.Passes ('/' :: '/' :: text) moved ∧ cursor.next = moved.next := by
  have hslash : cursor.Passes ['/'] (cursor.consume 1).look := (passes_consume hrest).look
  have hmoved : (cursor.consume 1).look.rest = ('/' :: text) ++ rest := hslash.rest_eq hrest
  refine ⟨_, hslash.trans (passes_skipWhile hmoved ?_ hstop), ?_⟩
  · rintro c (_ | ⟨_, hc⟩)
    · decide
    · exact htext c hc
  · rw [Rule.next_eq_step hrest, Rule.ofChar_slash, Rule.step, comment, hmoved]
    exact (next_skipLine _).symm

theorem next_of_flaw {cursor : Cursor} {flaw : Flaw} {rest : List Char}
    (hrest : cursor.rest = flaw.text ++ rest) (hfits : flaw.Fits rest) :
    ∃ moved, cursor.Passes flaw.text moved.skipLine ∧
      cursor.next = (.error (flaw.fault cursor.place), moved) := by
  obtain ⟨c, more, htext, hnext⟩ := @next_eq_step_of_piece cursor (.flawed flaw) rest hrest hfits
  obtain ⟨hbegins, hregion, hstop⟩ := hfits
  rw [hnext]
  cases flaw with
  | stray c' more' =>
    obtain rfl : c' = c := (List.cons.inj htext).1
    refine ⟨cursor, passes_skipWhile hrest hregion hstop, ?_⟩
    have hline : cursor.line = c' :: more' := run_eq hrest hregion hstop
    simp only [Piece.rule, Flaw.rule, Rule.step, fault, hline]
    rfl
  | slash more' =>
    have hopen : cursor.Passes ['/'] (cursor.consume 1) := passes_consume hrest
    have hslash := hopen.look
    have hmoved : (cursor.consume 1).look.rest = more' ++ rest := hslash.rest_eq hrest
    have hmore := fun c hc => hregion c (.tail _ hc)
    have hline : (cursor.consume 1).look.line = more' := run_eq hmoved hmore hstop
    have hhead : (more' ++ rest).head? ≠ some '/' := by
      cases more' with
      | nil => exact fun hhead => absurd (hstop '/' hhead) (by decide)
      | cons d _ => exact hbegins
    refine ⟨_, hslash.trans (passes_skipWhile hmoved hmore hstop), ?_⟩
    simp only [Piece.rule, Flaw.rule, Rule.step, comment, hmoved, if_neg hhead, fault, hline,
      hslash.position, hslash.file, hslash.lineText]
    rfl
  | unclosed delimiter more' =>
    obtain rfl : delimiter = c := (List.cons.inj htext).1
    have hmore : ∀ c ∈ more', inLiteral delimiter c = true := by
      intro c hc
      refine inLiteral_iff.mpr ⟨?_, hregion c (.tail _ hc)⟩
      rintro rfl
      exact hbegins.2 hc
    obtain ⟨stop, hpass, hquoted⟩ := quoted_eq hrest hmore (stops_inLiteral_of_inLine hstop)
    have hstopped : stop.rest = rest := hpass.rest_eq hrest
    have hhead : stop.rest.head? ≠ some delimiter := by
      rw [hstopped]
      intro hhead
      have hout := hstop delimiter hhead
      rw [inLine_of_isDelimiter hbegins.1] at hout
      contradiction
    have hskip : stop.skipLine = stop.look := skipWhile_of_stops (hstopped ▸ hstop)
    exact ⟨stop, hskip ▸ hpass.look, hquoted.trans (if_neg hhead)⟩

end IBLexer.Cursor
