import IBLexer.Proofs.Stream.Span

/-! What a token shows of itself. Its kind and its payload determine its value, since the first
character of a literal tells which form it has. A payload stays on one line and begins with no
space, so that it can be told from what stands around it. -/
namespace IBLexer

/-- The literal that is shown by the text. Only truth values begin with a letter. -/
def Literal.ofPayload (text : String) : Literal :=
  let first := text.toList.headD ' '
  if first = '"' then .string text
  else if first = '\'' then .character text
  else if first.isDigit then .integer text
  else .bool (text == "true")

def Token.Value.ofPayload? (payload : String) : Token.Kind → Option Token.Value
  | .keyword => (Keyword.all.find? fun keyword => keyword.name == payload).map .keyword
  | .identifier => some (.identifier payload)
  | .literal => some (.literal (.ofPayload payload))
  | .operator => payload.toList.head?.map .operator
  | .bracket => payload.toList.head?.map .bracket
  | .endOfLine => some .endOfLine
  | .endOfFile => some .endOfFile

theorem Keyword.find?_name (keyword : Keyword) :
    (all.find? fun other => other.name == keyword.name) = some keyword := by
  cases keyword <;> decide

namespace Token.Value

theorem ofPayload?_ofWord (letters : List Char) :
    ofPayload? (ofWord letters).payload (ofWord letters).kind = some (ofWord letters) := by
  unfold ofWord
  split
  · next keyword _ => exact congrArg (Option.map Token.Value.keyword) keyword.find?_name
  · split_ifs
    · decide
    · decide
    · rfl

end Token.Value

namespace Literal

variable {first : Char} {more : List Char}

theorem ofPayload_cons : ofPayload (String.ofList (first :: more)) =
    if first = '"' then .string (String.ofList (first :: more))
    else if first = '\'' then .character (String.ofList (first :: more))
    else if first.isDigit then .integer (String.ofList (first :: more))
    else .bool (String.ofList (first :: more) == "true") := by
  rw [ofPayload, String.toList_ofList]
  rfl

theorem ofPayload_of_isDelimiter (hquote : isDelimiter first = true) :
    ofPayload (String.ofList (first :: more)) =
      if first = '"' then .string (String.ofList (first :: more))
      else .character (String.ofList (first :: more)) := by
  rw [ofPayload_cons]
  rcases isDelimiter_iff.mp hquote with rfl | rfl <;> rfl

theorem ofPayload_of_isDigit (hdigit : first.isDigit = true) :
    ofPayload (String.ofList (first :: more)) = .integer (String.ofList (first :: more)) := by
  have hdouble : first ≠ '"' := by
    rintro rfl
    exact absurd hdigit (by decide)
  have hsingle : first ≠ '\'' := by
    rintro rfl
    exact absurd hdigit (by decide)
  rw [ofPayload_cons, if_neg hdouble, if_neg hsingle, if_pos hdigit]

end Literal

def IsEntry (text : List Char) : Prop := text.headD ' ' ≠ ' ' ∧ '\n' ∉ text

instance (text : List Char) : Decidable (IsEntry text) := inferInstanceAs (Decidable (_ ∧ _))

theorem Token.Kind.isEntry_name (kind : Kind) :
    IsEntry kind.name.toList ∧ ' ' ∉ kind.name.toList := by
  cases kind <;> decide

theorem Token.Kind.eq_of_name {kind other : Kind} (hname : kind.name.toList = other.name.toList) :
    kind = other := by
  revert hname
  cases kind <;> cases other <;> decide

theorem Token.Value.isEntry_ofWord {letters : List Char} (hletters : IsEntry letters) :
    IsEntry (ofWord letters).payload.toList := by
  unfold ofWord
  split
  · next keyword _ => cases keyword <;> decide
  · split_ifs
    · decide
    · decide
    · rwa [payload, String.toList_ofList]

namespace Element

variable {element : Element} {rest : List Char} {position : Position} {token : Token}

theorem ofPayload?_token? (hfits : element.Fits rest)
    (htoken : element.token? position = some token) :
    Token.Value.ofPayload? token.payload token.kind = some token.value := by
  cases element with
  | blank c =>
    rw [token?] at htoken
    split at htoken
    · cases htoken
      rfl
    · contradiction
  | comment _ => contradiction
  | literal delimiter inside =>
    have hliteral := @Literal.ofPayload_of_isDelimiter delimiter (inside ++ [delimiter]) hfits.1
    cases htoken
    by_cases hdouble : delimiter = '"'
    · subst hdouble
      exact congrArg (some ∘ Token.Value.literal) hliteral
    · simp only [hdouble, if_false] at hliteral ⊢
      exact congrArg (some ∘ Token.Value.literal) hliteral
  | number digits =>
    cases htoken
    obtain ⟨hne, hdigits, -⟩ := hfits
    obtain ⟨first, more, rfl⟩ := List.exists_cons_of_ne_nil hne
    have hliteral := @Literal.ofPayload_of_isDigit first more (hdigits first (.head _))
    exact congrArg (some ∘ Token.Value.literal) hliteral
  | word letters =>
    cases htoken
    exact Token.Value.ofPayload?_ofWord letters
  | operator symbol | bracket symbol =>
    cases htoken
    have hhead : symbol.toString.toList.head? = some symbol := by simp
    exact congrArg (Option.map _) hhead

theorem isEntry_text (hfits : element.Fits rest) (htrivia : element.isTrivia = false) :
    IsEntry element.text := by
  have hblank := rule_ne_blank htrivia
  obtain ⟨c, more, htext, hrule⟩ := ofChar_first hfits
  refine ⟨?_, notMem_feed_of_inLine (inLine_text hfits hblank)⟩
  rw [htext, List.headD_cons]
  rintro rfl
  have hspace : Unicode.isBlank ' ' = true := by decide
  exact hblank (hrule.symm.trans (Rule.ofChar_of_isBlank hspace))

theorem isEntry_payload (hfits : element.Fits rest)
    (htoken : element.token? position = some token) : IsEntry token.payload.toList := by
  cases htrivia : element.isTrivia with
  | true =>
    obtain rfl := eq_feed_of_token? htoken htrivia
    cases htoken
    have hword : IsEntry "EOL".toList := by decide
    exact hword
  | false =>
    have htext := isEntry_text hfits htrivia
    rw [← toList_lexeme htoken] at htext
    cases element with
    | blank _ | comment _ => contradiction
    | literal delimiter inside =>
      cases htoken
      by_cases hdouble : delimiter = '"' <;>
        simpa [Token.payload, Token.Value.payload, Literal.payload, hdouble] using htext
    | number digits =>
      cases htoken
      exact htext
    | word letters =>
      cases htoken
      rw [String.toList_ofList] at htext
      exact Token.Value.isEntry_ofWord htext
    | operator symbol | bracket symbol =>
      cases htoken
      simpa [Token.payload, Token.Value.payload] using htext

end Element

/-- What a listing shows of the token can be found in its row and gives back its value. -/
structure Token.Shown (token : Token) : Prop where
  isEntry : IsEntry token.payload.toList
  ofPayload? : Token.Value.ofPayload? token.payload token.kind = some token.value

theorem shown_of_mem_tokens {source : String} {file? : Option String} {token : Token}
    (hmem : token ∈ (tokenizeRecovering source file?).1) (hend : token.isEndOfFile = false) :
    token.Shown := by
  obtain ⟨element, before, after, hoccurs, htoken⟩ := exists_occurs_of_mem_tokens hmem hend
  exact ⟨Element.isEntry_payload hoccurs.fits htoken, Element.ofPayload?_token? hoccurs.fits htoken⟩

end IBLexer
