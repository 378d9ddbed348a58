import IBLexer.Proofs.Stream.Occurrence

/-! Every token covers a stretch of one line of the text, and a line end covers the line feed
behind its line. In a stream the stretches come one after the other and are disjoint. -/
namespace IBLexer

namespace Element

theorem rule_ne_blank {element : Element} (htrivia : element.isTrivia = false) :
    element.rule ≠ .blank := by
  intro hrule
  cases element <;> contradiction

theorem eq_feed_of_token? {element : Element} {position : Position} {token : Token}
    (htoken : element.token? position = some token) (htrivia : element.isTrivia = true) :
    element = .blank '\n' := by
  cases element with
  | blank c =>
    simp only [token?] at htoken
    split at htoken
    · next hfeed => rw [hfeed]
    · contradiction
  | comment _ => contradiction
  | literal _ _ | number _ | word _ | operator _ | bracket _ => contradiction

theorem toList_lexeme {element : Element} {position : Position} {token : Token}
    (htoken : element.token? position = some token) : token.lexeme.toList = element.text := by
  cases htrivia : element.isTrivia with
  | true =>
    obtain rfl := eq_feed_of_token? htoken htrivia
    cases htoken
    have hfeed : "\n".toList = ['\n'] := by decide
    exact hfeed
  | false =>
    cases element with
    | blank _ | comment _ => contradiction
    | literal _ _ | number _ | word _ | operator _ | bracket _ =>
      cases htoken
      exact String.toList_ofList

end Element

/-- The token begins before the position, and on the same line it also ends before it. -/
structure Token.EndsBefore (token : Token) (position : Position) : Prop where
  lt : token.position < position
  column_le : token.position.line = position.line →
    token.position.column.toNat + token.lexeme.length ≤ position.column.toNat

theorem Piece.Occurs.endsBefore {element : Element} {text before after : List Char}
    (hoccurs : (Piece.sound element).Occurs text before after) {token : Token}
    (htoken : element.token? (Position.start.after before) = some token) {between : List Char}
    (hlt : (before ++ (element.text ++ between)).length + 1 < 2 ^ 32) :
    token.EndsBefore (Position.start.after (before ++ (element.text ++ between))) := by
  have hposition := (Element.token?_marks htoken).1
  have hlexeme : token.lexeme.length = element.text.length := by
    rw [← Element.toList_lexeme htoken, String.length_toList]
  have hne : element.text ++ between ≠ [] :=
    List.append_ne_nil_of_left_ne_nil (Piece.text_ne_nil hoccurs.fits) between
  constructor
  · rw [hposition]
    exact Position.after_lt_after_append hne hlt
  · intro hsame
    rw [hposition] at hsame ⊢
    have hline : '\n' ∉ element.text ++ between := by
      intro hfeed
      have hbelow := Position.line_after_lt_line_after hfeed hlt
      rw [hsame] at hbelow
      exact UInt32.lt_irrefl _ hbelow
    rw [Position.toNat_column_after_append hline hlt, hlexeme, List.length_append]
    omega

theorem Tiling.pairwise_tokensFrom {pieces : List Piece} {text : List Char}
    (htiling : Tiling pieces text) (hlt : text.length + 1 < 2 ^ 32) (file : String) :
    (tokensFrom (.start file) pieces).Pairwise fun token next =>
      token.EndsBefore next.position := by
  refine htiling.pairwise_locate.filterMap _ ?_
  rintro ⟨here, first⟩ ⟨there, second⟩ ⟨before, between, after, rfl, rfl, hoccurs, -⟩
  intro token htoken next hnext
  cases first with
  | flawed _ => contradiction
  | sound element =>
    cases second with
    | flawed _ => contradiction
    | sound other =>
      have hplace : next.position = Position.start.after (before ++ (element.text ++ between)) :=
        (Element.token?_marks hnext).1
      rw [hplace]
      apply hoccurs.endsBefore htoken
      have hall := hoccurs.length_eq
      simp only [List.length_append, Piece.text] at hall ⊢
      omega

theorem Tiling.endsBefore_end {pieces : List Piece} {text : List Char}
    (htiling : Tiling pieces text) (hlt : text.length + 1 < 2 ^ 32) {file : String} {token : Token}
    (hmem : token ∈ tokensFrom (.start file) pieces) :
    token.EndsBefore (Position.start.after text) := by
  obtain ⟨element, before, after, hoccurs, htoken⟩ := htiling.exists_of_mem_tokensFrom hmem
  have htext : text = before ++ (element.text ++ after) := hoccurs.text_eq
  rw [htext] at hlt ⊢
  exact hoccurs.endsBefore htoken hlt

theorem pairwise_endsBefore {source : String} (hlength : source.length ≤ 2 ^ 32 - 2)
    (file? : Option String) :
    (tokenizeRecovering source file?).1.Pairwise fun token next =>
      token.EndsBefore next.position := by
  obtain ⟨pieces, htiling⟩ := Tiling.exists_of_text source.toList
  have hlt := length_toList_lt hlength
  have hkept := collapseAfter_sublist false (tokensFrom (.start (file?.getD defaultFile)) pieces)
  rw [tokenizeRecovering_of_tiling htiling, List.pairwise_append]
  refine ⟨(htiling.pairwise_tokensFrom hlt _).sublist hkept, List.pairwise_singleton _ _, ?_⟩
  intro token htoken last hlast
  rw [List.mem_singleton.mp hlast]
  exact htiling.endsBefore_end hlt (hkept.subset htoken)

/-- The token is a stretch of a single line, at the front of what is left of that line. -/
def Token.Covers (token : Token) (right : List Char) : Prop :=
  token.lexeme ≠ "" ∧ (∀ c ∈ token.lexeme.toList, c ≠ '\n' ∧ c ≠ '\r') ∧
    token.lexeme.toList <+: right

theorem Piece.Occurs.covers {element : Element} {text before after : List Char}
    (hoccurs : (Piece.sound element).Occurs text before after) {token : Token} {position : Position}
    (htoken : element.token? position = some token) (htrivia : element.isTrivia = false) :
    token.Covers (firstLine (element.text ++ after)) := by
  have hlexeme := Element.toList_lexeme htoken
  have hin := Element.inLine_text hoccurs.fits (Element.rule_ne_blank htrivia)
  refine ⟨?_, ?_, ?_⟩
  · rintro hempty
    rw [hempty] at hlexeme
    exact Piece.text_ne_nil hoccurs.fits hlexeme.symm
  · rw [hlexeme]
    exact fun c hc => ne_break_of_inLine (hin c hc)
  · rw [hlexeme, firstLine_append (notMem_feed_of_inLine hin)]
    exact List.prefix_append _ _

/-- Positions are accurate and spans are disjoint: a token is the part of its line that begins
at its column, a line end stands behind the whole of a line that is not the last, and on one
line each token ends before the next begins. -/
theorem tokens_cover_lines {source : String} {file? : Option String} {tokens : List Token}
    (htokens : HasTokens source file? tokens) (hlength : source.length ≤ 2 ^ 32 - 2) :
    (∀ token ∈ tokens, token.isEndOfFile = false →
      ∃ left right, token.position.Divides source.toList left right ∧
        (token.isEndOfLine = false → token.Covers right) ∧
        (token.isEndOfLine = true → right = [] ∧
          token.position.line.toNat < (source.toList.splitOn '\n').length)) ∧
    tokens.Pairwise fun token next => token.position.line = next.position.line →
      token.position.column.toNat + token.lexeme.length ≤ next.position.column.toNat := by
  obtain rfl := htokens.eq
  refine ⟨?_, (pairwise_endsBefore hlength file?).imp fun hends => hends.column_le⟩
  intro token hmem hend
  obtain ⟨element, before, after, hoccurs, htoken⟩ := exists_occurs_of_mem_tokens hmem hend
  obtain ⟨hposition, htrivia, -⟩ := Element.token?_marks htoken
  have htext : source.toList = before ++ (element.text ++ after) := hoccurs.text_eq
  have hlt : before.length + 1 < 2 ^ 32 := by
    have hall := hoccurs.length_eq
    have hsource := length_toList_lt hlength
    omega
  refine ⟨lastLine before, firstLine (element.text ++ after), ?_, ?_, ?_⟩
  · rw [hposition, htext]
    exact Position.divides_after_start hlt
  · intro hline
    exact hoccurs.covers htoken (htrivia ▸ hline)
  · intro hline
    obtain rfl := Element.eq_feed_of_token? htoken (htrivia ▸ hline)
    refine ⟨rfl, ?_⟩
    rw [hposition, Position.toNat_line_after_start hlt, length_splitOn_feed, htext,
      List.count_append]
    simp only [Element.text, List.singleton_append, List.count_cons_self]
    omega

/-- The carriage return belongs to the first line, so the line end stands behind it. -/
theorem tokens_cover_lines_carriage_return :
    let source := "é\r\n\n 'x' #"
    let literal : Token := ⟨.literal (.character "'x'"), "'x'", ⟨3, 2⟩⟩
    HasTokens source none
        [⟨.identifier "é", "é", ⟨1, 1⟩⟩, .endOfLine ⟨1, 3⟩, literal, .endOfFile ⟨3, 7⟩] ∧
      source.length ≤ 2 ^ 32 - 2 ∧
      (∃ left right, Position.Divides ⟨1, 3⟩ source.toList left right ∧ right = []) ∧
      ∃ left right, Position.Divides ⟨3, 2⟩ source.toList left right ∧ literal.Covers right := by
  intro source literal
  have htokens : HasTokens source none
      [⟨.identifier "é", "é", ⟨1, 1⟩⟩, .endOfLine ⟨1, 3⟩, literal, .endOfFile ⟨3, 7⟩] :=
    Or.inr (by decide +kernel)
  have hlength : source.length ≤ 2 ^ 32 - 2 := by decide
  obtain ⟨hcover, -⟩ := tokens_cover_lines htokens hlength
  obtain ⟨left, right, hdivides, -, hend⟩ := hcover (.endOfLine ⟨1, 3⟩) (by simp) rfl
  obtain ⟨left', right', hdivides', hcovers, -⟩ := hcover literal (by simp) rfl
  exact ⟨htokens, hlength, ⟨left, right, hdivides, (hend rfl).1⟩, left', right', hdivides',
    hcovers rfl⟩

end IBLexer
