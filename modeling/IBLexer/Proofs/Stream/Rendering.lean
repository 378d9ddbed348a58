import IBLexer.Proofs.Grammar.Runs
import IBLexer.Proofs.Stream.Span
import IBLexer.Proofs.Text.Gap

/-! A stream can be written down again from its lexemes and positions alone: line feeds and
blanks lead from one token to the next. The written text is scanned to the same stream, so
comments, other blanks and faulty text carry nothing that the stream depends on. -/
namespace IBLexer

/-- Writes each lexeme at its position, with no way back for the pen. -/
def render? (pen : Position) : List Token → Option (List Char)
  | [] => some []
  | token :: tokens =>
    match pen.gap? token.position with
    | none => none
    | some gap =>
      (render? (pen.after (gap ++ token.lexeme.toList)) tokens).map
        (gap ++ token.lexeme.toList ++ ·)

example : render? .start [⟨.identifier "a", "a", ⟨1, 3⟩⟩, .endOfLine ⟨1, 5⟩, .endOfFile ⟨3, 2⟩] =
    some "  a \n\n ".toList := by decide

example : render? .start [⟨.operator '-', "-", ⟨1, 2⟩⟩, ⟨.operator '>', ">", ⟨1, 2⟩⟩] = none := by
  decide

theorem render?_cons {pen : Position} {token : Token} {tokens : List Token} {gap text : List Char}
    (hgap : pen.gap? token.position = some gap)
    (hrest : render? (pen.after (gap ++ token.lexeme.toList)) tokens = some text) :
    render? pen (token :: tokens) = some (gap ++ (token.lexeme.toList ++ text)) := by
  simp only [render?, hgap, hrest, Option.map_some, List.append_assoc]

theorem render?_congr {tokens others : List Token}
    (hsame : tokens.map (fun token => (token.lexeme, token.position)) =
      others.map fun token => (token.lexeme, token.position)) (pen : Position) :
    render? pen tokens = render? pen others := by
  induction tokens generalizing others pen with
  | nil =>
    obtain rfl := List.map_eq_nil_iff.mp hsame.symm
    rfl
  | cons token tokens ih =>
    cases others with
    | nil => contradiction
    | cons other others =>
      rw [List.map_cons, List.map_cons, List.cons.injEq, Prod.mk.injEq] at hsame
      obtain ⟨⟨hlexeme, hposition⟩, hrest⟩ := hsame
      simp only [render?, hlexeme, hposition, ih hrest]

theorem collapseAfter_append_blanks {gap : List Char} {ended : Bool}
    (hended : '\n' ∈ gap → ended = true) (place : Place) (tokens : List Token) :
    collapseAfter ended (tokensFrom place ((gap.map Element.blank).map .sound) ++ tokens) =
      collapseAfter ended tokens := by
  induction gap generalizing place with
  | nil => rfl
  | cons c gap ih =>
    have hrest := ih (fun hmem => hended (.tail c hmem)) (place.after [c])
    rw [List.map_cons, List.map_cons, tokensFrom_cons]
    by_cases hfeed : c = '\n'
    · subst hfeed
      rw [hended (.head gap)] at hrest ⊢
      exact hrest
    · have hnone : (Piece.sound (.blank c)).token? place = none := if_neg hfeed
      rw [hnone]
      exact hrest

theorem stops_append_blanks {gap rest : List Char} (hblank : ∀ c ∈ gap, Unicode.isBlank c = true)
    {accept : Char → Bool} (haccept : accept ∈ [Char.isDigit, isWordPart])
    (hstop : gap = [] → Stops accept rest) : Stops accept (gap ++ rest) := by
  cases gap with
  | nil => exact hstop rfl
  | cons c gap =>
    have hc := hblank c (.head gap)
    rintro _ ⟨⟩
    simp only [List.mem_cons, List.not_mem_nil, or_false] at haccept
    rcases haccept with rfl | rfl
    · rw [Bool.eq_false_iff]
      intro hdigit
      have hrule := Rule.ofChar_of_isDigit hdigit
      rw [Rule.ofChar_of_isBlank hc] at hrule
      contradiction
    · exact Rule.not_isWordPart_of_isBlank hc

/-- The drawing is what the rest of a stream is rendered to from the pen on. It ends where the
stream ends and is scanned to the same tokens. -/
structure Redraws (pen : Position) (ended : Bool) (tokens : List Token) (last : Position)
    (drawing : List Char) (elements : List Element) : Prop where
  render?_eq : render? pen (tokens ++ [.endOfFile last]) = some drawing
  tiling : Tiling (elements.map .sound) drawing
  tokens_eq : ∀ place : Place, place.position = pen →
    collapseAfter ended (tokensFrom place (elements.map .sound)) = tokens
  after_eq : pen.after drawing = last

namespace Bridges

variable {pen last : Position} {skipped gap drawing : List Char} {ended : Bool}
  {element : Element} {elements : List Element} {token : Token} {tokens : List Token}

theorem redraws_nil (hbridge : Bridges pen skipped gap) (hended : '\n' ∈ skipped → ended = true) :
    Redraws pen ended [] (pen.after skipped) gap (gap.map .blank) where
  render?_eq := by
    have hlast := @render?_cons pen (.endOfFile (pen.after skipped)) [] gap [] hbridge.gap?_eq rfl
    have hempty : (Token.endOfFile (pen.after skipped)).lexeme.toList = [] := String.toList_empty
    rwa [hempty, List.append_nil, List.append_nil] at hlast
  tiling := Tiling.of_blanks hbridge.blank
  tokens_eq place _ := by
    have hcollapse := collapseAfter_append_blanks (hended ∘ hbridge.feed) place []
    rwa [List.append_nil] at hcollapse
  after_eq := hbridge.after_eq

theorem redraws_cons (hbridge : Bridges pen skipped gap) (hended : '\n' ∈ skipped → ended = true)
    (htoken : element.token? (pen.after skipped) = some token)
    (hkept : (ended && token.isEndOfLine) = false) (hfits : element.Fits drawing)
    (hrest : Redraws ((pen.after skipped).after element.text) token.isEndOfLine tokens last
      drawing elements) :
    Redraws pen ended (token :: tokens) last (gap ++ (element.text ++ drawing))
      (gap.map .blank ++ element :: elements) where
  render?_eq := by
    have hlexeme := Element.toList_lexeme htoken
    have hposition := (Element.token?_marks htoken).1
    rw [← hlexeme, List.cons_append]
    apply render?_cons
    · rw [hposition]
      exact hbridge.gap?_eq
    · rw [hlexeme, Position.after_append, hbridge.after_eq]
      exact hrest.render?_eq
  tiling := by
    rw [List.map_append, List.map_cons]
    exact Tiling.append_blanks hbridge.blank (.cons hfits hrest.tiling)
  tokens_eq place hplace := by
    have hgap := (Tiling.of_blanks hbridge.blank).flatMap_text
    have hhere : (place.after gap).position = pen.after skipped := by
      rw [Place.position_after, hplace, hbridge.after_eq]
    have hfound : (Piece.sound element).token? (place.after gap) = some token := by
      rw [Piece.token?, hhere, htoken]
    have hnext : ((place.after gap).after element.text).position =
        (pen.after skipped).after element.text := by
      rw [Place.position_after, hhere]
    rw [List.map_append, List.map_cons, tokensFrom_append, hgap,
      collapseAfter_append_blanks (hended ∘ hbridge.feed), tokensFrom_cons, hfound]
    change collapseAfter ended (token :: tokensFrom ((place.after gap).after element.text) _) = _
    rw [collapseAfter, hkept, hrest.tokens_eq _ hnext]
    rfl
  after_eq := by
    rw [Position.after_append, Position.after_append, hbridge.after_eq, hrest.after_eq]

end Bridges

/-- After a part of the text was skipped the rest of the stream can be drawn. Where nothing was
skipped, numbers and words stop at the drawing as they stop at the text. -/
def Redrawable (drawn skipped : List Char) (ended : Bool) (place : Place) (pieces : List Piece)
    (text : List Char) : Prop :=
  ∃ drawing elements,
    Redraws (Position.start.after drawn) ended (collapseAfter ended (tokensFrom place pieces))
      (place.position.after text) drawing elements ∧
    ∀ accept ∈ [Char.isDigit, isWordPart], (skipped = [] → Stops accept text) →
      Stops accept drawing

section Redrawable

variable {drawn skipped rest : List Char} {ended : Bool} {place : Place} {piece : Piece}
  {pieces : List Piece}

theorem redrawable_nil (hended : '\n' ∈ skipped → ended = true)
    (hplace : place.position = (Position.start.after drawn).after skipped)
    (hlt : (drawn ++ skipped).length + 1 < 2 ^ 32) :
    Redrawable drawn skipped ended place [] [] := by
  obtain ⟨gap, hbridge⟩ := exists_bridge hlt
  refine ⟨gap, gap.map .blank, ?_, fun accept haccept _ => ?_⟩
  · rw [Position.after_nil, hplace]
    exact hbridge.redraws_nil hended
  · have hstop := @stops_append_blanks gap [] hbridge.blank accept haccept (by simp [Stops])
    rwa [List.append_nil] at hstop

theorem redrawable_skip (hfits : piece.Fits rest)
    (hdrop : ∀ tokens, collapseAfter ended ((piece.token? place).toList ++ tokens) =
      collapseAfter ended tokens)
    (hrest : Redrawable drawn (skipped ++ piece.text) ended (place.after piece.text) pieces rest) :
    Redrawable drawn skipped ended place (piece :: pieces) (piece.text ++ rest) := by
  obtain ⟨drawing, elements, hredraws, hstops⟩ := hrest
  refine ⟨drawing, elements, ?_, fun accept haccept _ => hstops accept haccept fun hnil => ?_⟩
  · rw [tokensFrom_cons, hdrop, Position.after_append]
    exact hredraws
  · exact absurd (List.append_eq_nil_iff.mp hnil).2 (Piece.text_ne_nil hfits)

theorem redrawable_keep {element : Element} {token : Token}
    (hended : '\n' ∈ skipped → ended = true)
    (hplace : place.position = (Position.start.after drawn).after skipped)
    (hlt : (drawn ++ skipped).length + 1 < 2 ^ 32) (hfits : element.Fits rest)
    (htoken : element.token? place.position = some token)
    (hkept : (ended && token.isEndOfLine) = false)
    (hrest : Redrawable (drawn ++ (skipped ++ element.text)) [] token.isEndOfLine
      (place.after element.text) pieces rest) :
    Redrawable drawn skipped ended place (.sound element :: pieces) (element.text ++ rest) := by
  obtain ⟨drawing, elements, hredraws, hstops⟩ := hrest
  obtain ⟨gap, hbridge⟩ := exists_bridge hlt
  have hslash : element.rule ≠ .slash := by
    intro hrule
    cases element <;> contradiction
  have hfits' : element.Fits drawing := hfits.of_stops hslash fun accept haccept hstop =>
    hstops accept haccept fun _ => hstop
  refine ⟨gap ++ (element.text ++ drawing), gap.map .blank ++ element :: elements, ?_, ?_⟩
  · have hfound : (Piece.sound element).token? place = some token := htoken
    rw [tokensFrom_cons, hfound, Position.after_append]
    change Redraws _ _ (collapseAfter ended (token :: tokensFrom (place.after element.text) pieces))
      _ _ _
    rw [collapseAfter, hkept]
    rw [hplace] at htoken
    rw [Position.after_append, Position.after_append] at hredraws
    exact hbridge.redraws_cons hended htoken hkept hfits' hredraws
  · intro accept haccept hstop
    refine stops_append_blanks hbridge.blank haccept fun hgap => ?_
    have hskipped : skipped = [] := by
      by_contra hne
      exact hbridge.ne_nil hne hgap
    obtain ⟨c, more, htext, -⟩ := Element.ofChar_first hfits
    have hfirst := hstop hskipped
    rw [htext] at hfirst ⊢
    exact hfirst

theorem Piece.notMem_feed (hfits : piece.Fits rest) (hnone : piece.token? place = none) :
    '\n' ∉ piece.text := by
  intro hmem
  obtain rfl := eq_blank_of_mem hfits hmem (by decide)
  contradiction

end Redrawable

theorem Tiling.redrawable {pieces : List Piece} {text : List Char}
    (htiling : Tiling pieces text) {drawn skipped : List Char} {ended : Bool}
    (hended : '\n' ∈ skipped → ended = true) {place : Place}
    (hplace : place.position = (Position.start.after drawn).after skipped)
    (hlt : (drawn ++ (skipped ++ text)).length + 1 < 2 ^ 32) :
    Redrawable drawn skipped ended place pieces text := by
  -- The text is `drawn`, which the pen has passed, then `skipped`, then what is left to tile.
  -- A piece that leaves no token moves to `skipped`, a kept token moves both parts to `drawn`.
  induction htiling generalizing drawn skipped ended place with
  | nil => exact redrawable_nil hended hplace (by rwa [List.append_nil] at hlt)
  | @cons piece pieces rest hfits _ ih =>
    have hnext : (place.after piece.text).position =
        (Position.start.after drawn).after (skipped ++ piece.text) := by
      rw [Place.position_after, hplace, Position.after_append]
    simp only [List.length_append] at hlt
    have hskip : (drawn ++ ((skipped ++ piece.text) ++ rest)).length + 1 < 2 ^ 32 := by
      simp only [List.length_append]
      omega
    cases htoken : piece.token? place with
    | none =>
      refine redrawable_skip hfits (fun tokens => by rw [htoken]; rfl) (ih ?_ hnext hskip)
      intro hmem
      rcases List.mem_append.mp hmem with hskipped | hpiece
      · exact hended hskipped
      · exact absurd hpiece (Piece.notMem_feed hfits htoken)
    | some token =>
      by_cases hdrop : (ended && token.isEndOfLine) = true
      · have hend : ended = true := ((Bool.and_eq_true ..).mp hdrop).1
        refine redrawable_skip hfits (fun tokens => ?_) (ih (fun _ => hend) hnext hskip)
        rw [htoken]
        change collapseAfter ended (token :: tokens) = _
        rw [collapseAfter, if_pos hdrop, hend]
      · cases piece with
        | flawed _ => contradiction
        | sound element =>
          have hshort : (drawn ++ skipped).length + 1 < 2 ^ 32 := by
            rw [List.length_append]
            omega
          refine redrawable_keep hended hplace hshort hfits htoken (Bool.eq_false_iff.mpr hdrop)
            (ih (fun hmem => absurd hmem List.not_mem_nil) ?_ ?_)
          · rw [Position.after_nil, Position.after_append]
            exact hnext
          · simp only [List.length_append, List.length_nil, Piece.text] at hlt ⊢
            omega

theorem exists_render {source : String} (hlength : source.length ≤ 2 ^ 32 - 2)
    (file? : Option String) :
    ∃ text, render? .start (tokenizeRecovering source file?).1 = some text ∧
      ∀ other? : Option String,
        tokenize (String.ofList text) other? = .ok (tokenizeRecovering source file?).1 := by
  obtain ⟨pieces, htiling⟩ := Tiling.exists_of_text source.toList
  have hended : '\n' ∈ ([] : List Char) → false = true := fun hmem => absurd hmem List.not_mem_nil
  obtain ⟨text, elements, hredraws, -⟩ := @Tiling.redrawable _ _ htiling [] [] false hended
    (.start (file?.getD defaultFile)) rfl (length_toList_lt hlength)
  rw [tokenizeRecovering_of_tiling htiling]
  refine ⟨text, hredraws.render?_eq, fun other? => ?_⟩
  have hsound : Tiling (elements.map .sound) (String.ofList text).toList := by
    rw [String.toList_ofList]
    exact hredraws.tiling
  have hafter : Position.start.after text = Position.start.after source.toList := hredraws.after_eq
  have htokens := hredraws.tokens_eq (.start (other?.getD defaultFile)) rfl
  rw [tokenize_eq_ok_iff hsound, String.toList_ofList, hafter, collapse, collapse, htokens]
  exact ⟨faultsFrom_eq_nil_iff.mpr ⟨_, rfl⟩, rfl⟩

/-- A stream can be rendered, and the rendered text is scanned to the same stream. So lexemes
and positions determine it. -/
theorem tokenize_render {source : String} {file? : Option String} {tokens : List Token}
    (htokens : HasTokens source file? tokens) (hlength : source.length ≤ 2 ^ 32 - 2) :
    (∃ text, render? .start tokens = some text ∧
      ∀ other? : Option String, tokenize (String.ofList text) other? = .ok tokens) ∧
    ∀ (other : String) (other? : Option String) (others : List Token),
      HasTokens other other? others → other.length ≤ 2 ^ 32 - 2 →
      others.map (fun token => (token.lexeme, token.position)) =
        tokens.map (fun token => (token.lexeme, token.position)) → others = tokens := by
  obtain rfl := htokens.eq
  obtain ⟨text, hrender, hscan⟩ := exists_render hlength file?
  refine ⟨⟨text, hrender, hscan⟩, ?_⟩
  intro other other? others hothers hother hsame
  obtain rfl := hothers.eq
  obtain ⟨text', hrender', hscan'⟩ := exists_render hother other?
  rw [render?_congr hsame, hrender] at hrender'
  have htext : text = text' := Option.some.inj hrender'
  exact Except.ok.inj ((htext ▸ hscan' none).symm.trans (hscan none))

/-- A comment, blank lines, an unclosed literal and a blank at the end of the text; and another
text with the same lexemes at the same positions. -/
theorem tokenize_render_comment :
    let tokens : List Token := [⟨.identifier "a", "a", ⟨1, 1⟩⟩, .endOfLine ⟨1, 6⟩,
      ⟨.literal (.integer "1"), "1", ⟨4, 2⟩⟩, ⟨.operator '.', ".", ⟨4, 3⟩⟩, .endOfLine ⟨4, 4⟩,
      .endOfFile ⟨5, 2⟩]
    HasTokens "a// é\n \t\r\n'x\n 1.\n " none tokens ∧
      "a// é\n \t\r\n'x\n 1.\n ".length ≤ 2 ^ 32 - 2 ∧
      render? .start tokens = some "a    \n\n\n 1.\n ".toList ∧
      tokenize "a    \n\n\n 1.\n " none = .ok tokens ∧
      (tokenizeRecovering "a ?? \n//\n# \n 1.\n " none).1 = tokens := by
  intro tokens
  have htokens : HasTokens "a// é\n \t\r\n'x\n 1.\n " none tokens := Or.inr (by decide +kernel)
  have hlength : "a// é\n \t\r\n'x\n 1.\n ".length ≤ 2 ^ 32 - 2 := by decide
  have hdrawn : render? .start tokens = some "a    \n\n\n 1.\n ".toList := by decide +kernel
  obtain ⟨⟨text, hrender, hscan⟩, hdetermined⟩ := tokenize_render htokens hlength
  obtain rfl : text = "a    \n\n\n 1.\n ".toList := Option.some.inj (hrender.symm.trans hdrawn)
  have hagain := hscan none
  rw [String.ofList_toList] at hagain
  have hother := hdetermined "a ?? \n//\n# \n 1.\n " none _ (Or.inr rfl) (by decide)
    (by decide +kernel)
  exact ⟨htokens, hlength, hdrawn, hagain, hother⟩

end IBLexer
