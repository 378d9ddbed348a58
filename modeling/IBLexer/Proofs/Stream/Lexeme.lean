import IBLexer.Proofs.Stream.Span

/-! A lexeme says it all: scanned alone it is the same token again. What stood before and after it
in a text has decided where it begins and ends, but nothing else. -/
namespace IBLexer

theorem Element.Fits.alone {element : Element} {rest : List Char} (hfits : element.Fits rest) :
    element.Fits [] := by
  have hstops : StopsAs rest [] := by
    intro accept _ _ c hc
    contradiction
  exact hfits.of_stopsAs hstops

theorem Element.token?_at {element : Element} {position : Position} {token : Token}
    (htoken : element.token? position = some token) (other : Position) :
    element.token? other = some { token with position := other } := by
  cases element with
  | blank c =>
    rw [token?] at htoken ⊢
    split at htoken
    · next hfeed =>
      cases htoken
      exact if_pos hfeed
    · contradiction
  | comment _ => contradiction
  | literal _ _ | number _ | word _ | operator _ | bracket _ =>
    cases htoken
    rfl

theorem tokenize_text {element : Element} {rest : List Char} (hfits : element.Fits rest)
    {position : Position} {token : Token} (htoken : element.token? position = some token)
    (file? : Option String) :
    tokenize token.lexeme file? =
      .ok [{ token with position := .start }, .endOfFile (Position.start.after element.text)] := by
  have hlexeme := Element.toList_lexeme htoken
  have htiling : Tiling ([element].map .sound) token.lexeme.toList := by
    have hsingle : Tiling [.sound element] (element.text ++ []) := .cons hfits.alone .nil
    rwa [List.append_nil, ← hlexeme] at hsingle
  have hfound : (Piece.sound element).token? (.start (file?.getD defaultFile)) =
      some { token with position := .start } := Element.token?_at htoken .start
  rw [tokenize_eq_ok_iff htiling, hlexeme]
  refine ⟨faultsFrom_eq_nil_iff.mpr ⟨[element], rfl⟩, ?_⟩
  rw [List.map_singleton, tokensFrom_cons, hfound]
  rfl

theorem Position.after_lexeme {element : Element} {rest : List Char} (hfits : element.Fits rest)
    {position : Position} {token : Token} (htoken : element.token? position = some token)
    (hlt : token.lexeme.length + 1 < 2 ^ 32) :
    (token.isEndOfLine = true → start.after element.text = ⟨2, 1⟩) ∧
      (token.isEndOfLine = false → (start.after element.text).line = 1 ∧
        (start.after element.text).column.toNat = 1 + token.lexeme.length) := by
  have hmarks := (Element.token?_marks htoken).2.1
  constructor
  · intro hline
    obtain rfl := Element.eq_feed_of_token? htoken (hmarks ▸ hline)
    decide
  · intro hline
    have hin := Element.inLine_text hfits (Element.rule_ne_blank (hmarks ▸ hline))
    have hfeed := notMem_feed_of_inLine hin
    rw [← String.length_toList, Element.toList_lexeme htoken] at hlt ⊢
    exact ⟨@line_after_append_of_notMem [] _ hfeed, @toNat_column_after_append [] _ hfeed hlt⟩

theorem length_lexeme_le {source : String} {element : Element} {before after : List Char}
    (hoccurs : (Piece.sound element).Occurs source.toList before after) {position : Position}
    {token : Token} (htoken : element.token? position = some token) :
    token.lexeme.length ≤ source.length := by
  have hall := hoccurs.length_eq
  rw [← String.length_toList, Element.toList_lexeme htoken, ← String.length_toList]
  change before.length + element.text.length + after.length = _ at hall
  omega

/-- A token that does not mark the end is the only one of its lexeme, where the lexeme stands
alone. So tokens with one lexeme have one value, in whatever texts they stand. -/
theorem tokenize_lexeme {source : String} {file? : Option String} {token : Token}
    (hmem : token ∈ (tokenizeRecovering source file?).1) (hend : token.isEndOfFile = false)
    (hlength : source.length ≤ 2 ^ 32 - 2) :
    (∃ last : Position, (∀ other? : Option String, tokenize token.lexeme other? =
        .ok [{ token with position := .start }, .endOfFile last]) ∧
      (token.isEndOfLine = true → last = ⟨2, 1⟩) ∧
      (token.isEndOfLine = false →
        last.line = 1 ∧ last.column.toNat = 1 + token.lexeme.length)) ∧
    ∀ (other : String) (other? : Option String), ∀ same ∈ (tokenizeRecovering other other?).1,
      same.isEndOfFile = false → same.lexeme = token.lexeme → same.value = token.value := by
  obtain ⟨element, before, after, hoccurs, htoken⟩ := exists_occurs_of_mem_tokens hmem hend
  have hscan := tokenize_text hoccurs.fits htoken
  have hlt : token.lexeme.length + 1 < 2 ^ 32 := by
    have hle := length_lexeme_le hoccurs htoken
    omega
  refine ⟨⟨_, hscan, Position.after_lexeme hoccurs.fits htoken hlt⟩, ?_⟩
  intro other other? same hsame hmore hlexeme
  obtain ⟨element', before', after', hoccurs', htoken'⟩ := exists_occurs_of_mem_tokens hsame hmore
  have hagain := tokenize_text hoccurs'.fits htoken' none
  rw [hlexeme, hscan] at hagain
  have hfirst := (List.cons.inj (Except.ok.inj hagain)).1
  exact (congrArg Token.value hfirst).symm

/-- A literal that holds slashes stands between a word and a stray character, and another one in a
text of its own. -/
theorem tokenize_lexeme_literal :
    let source := "x\"//'\"#\n?"
    let literal : Token := ⟨.literal (.string "\"//'\""), "\"//'\"", ⟨1, 2⟩⟩
    let same : Token := { literal with position := ⟨2, 3⟩ }
    (tokenizeRecovering source none).1 =
        [⟨.identifier "x", "x", ⟨1, 1⟩⟩, literal, .endOfLine ⟨1, 8⟩, .endOfFile ⟨2, 2⟩] ∧
      source.length ≤ 2 ^ 32 - 2 ∧
      (∃ last : Position, tokenize "\"//'\"" none =
          .ok [⟨.literal (.string "\"//'\""), "\"//'\"", ⟨1, 1⟩⟩, .endOfFile last] ∧
        last.line = 1 ∧ last.column.toNat = 6) ∧
      tokenize "\n" none = .ok [.endOfLine ⟨1, 1⟩, .endOfFile ⟨2, 1⟩] ∧
      same ∈ (tokenizeRecovering "\n  \"//'\"" none).1 ∧ same.value = literal.value := by
  intro source literal same
  have htokens : (tokenizeRecovering source none).1 =
      [⟨.identifier "x", "x", ⟨1, 1⟩⟩, literal, .endOfLine ⟨1, 8⟩, .endOfFile ⟨2, 2⟩] := by
    decide +kernel
  have hlength : source.length ≤ 2 ^ 32 - 2 := by decide
  have hsame : same ∈ (tokenizeRecovering "\n  \"//'\"" none).1 := by decide +kernel
  have hliteral : literal ∈ (tokenizeRecovering source none).1 := by simp [htokens]
  have hfeed : Token.endOfLine ⟨1, 8⟩ ∈ (tokenizeRecovering source none).1 := by simp [htokens]
  obtain ⟨⟨last, hscan, -, hlast⟩, hvalue⟩ := tokenize_lexeme hliteral rfl hlength
  obtain ⟨⟨below, hscan', hbelow, -⟩, -⟩ := tokenize_lexeme hfeed rfl hlength
  obtain rfl := hbelow rfl
  have hcolumn : 1 + literal.lexeme.length = 6 := by decide
  exact ⟨htokens, hlength, ⟨last, hscan none, hcolumn ▸ hlast rfl⟩, hscan' none, hsame,
    hvalue _ none same hsame rfl rfl⟩

end IBLexer
