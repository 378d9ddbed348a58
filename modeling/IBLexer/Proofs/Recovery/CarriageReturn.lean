import IBLexer.Proofs.Stream.Span

/-! Carriage returns before line feeds leave no trace but the column of the line end. A line
break of either kind ends a number, a word, a comment, an open literal and a flaw alike, so the
pieces of the text stay what they are and where they are. -/
namespace IBLexer

/-- The text with a carriage return before each of its line feeds. -/
def withReturns (text : List Char) : List Char :=
  text.flatMap fun c => if c = '\n' then ['\r', '\n'] else [c]

def Token.behindReturn (token : Token) : Token :=
  if token.isEndOfLine then
    { token with position := ⟨token.position.line, token.position.column + 1⟩ }
  else token

@[simp] theorem Token.isEndOfLine_behindReturn (token : Token) :
    token.behindReturn.isEndOfLine = token.isEndOfLine := by
  unfold behindReturn
  split <;> rfl

theorem withReturns_append (text more : List Char) :
    withReturns (text ++ more) = withReturns text ++ withReturns more :=
  List.flatMap_append

theorem withReturns_of_notMem {text : List Char} (hline : '\n' ∉ text) :
    withReturns text = text := by
  induction text with
  | nil => rfl
  | cons c text ih =>
    rw [List.mem_cons, not_or] at hline
    rw [withReturns, List.flatMap_cons, if_neg (Ne.symm hline.1), ← withReturns, ih hline.2]
    rfl

theorem length_withReturns (text : List Char) :
    (withReturns text).length = text.length + text.count '\n' := by
  induction text with
  | nil => rfl
  | cons c text ih =>
    rw [withReturns, List.flatMap_cons, ← withReturns, List.length_append, ih, List.length_cons]
    by_cases hfeed : c = '\n'
    · rw [hfeed, if_pos rfl, List.count_cons_self, List.length_cons, List.length_singleton]
      omega
    · rw [if_neg hfeed, List.count_cons_of_ne hfeed, List.length_singleton]
      omega

theorem Place.after_return_feed (place : Place) :
    place.after ['\r', '\n'] = place.after ['\n'] := rfl

theorem Place.after_withReturns (place : Place) (text : List Char) :
    place.after (withReturns text) = place.after text := by
  induction text generalizing place with
  | nil => rfl
  | cons c text ih =>
    have hsplit : c :: text = [c] ++ text := rfl
    rw [hsplit, withReturns_append, after_append, after_append, ih]
    by_cases hfeed : c = '\n'
    · rw [hfeed]
      exact congrArg (after · text) place.after_return_feed
    · rw [withReturns_of_notMem (by simpa using Ne.symm hfeed)]

theorem stopsAs_withReturns (rest : List Char) : StopsAs rest (withReturns rest) := by
  have hreturn : ∀ accept ∈ [inLine, Char.isDigit, isWordPart], accept '\r' = false := by
    decide +kernel
  intro accept haccept hstop
  cases rest with
  | nil => exact hstop
  | cons c rest =>
    by_cases hfeed : c = '\n'
    · rw [hfeed]
      rintro _ ⟨⟩
      exact hreturn accept haccept
    · rw [withReturns, List.flatMap_cons, if_neg hfeed]
      rintro _ ⟨⟩
      exact hstop c rfl

namespace Piece

def withReturn (piece : Piece) : List Piece :=
  if piece = .sound (.blank '\n') then [.sound (.blank '\r'), .sound (.blank '\n')] else [piece]

variable {piece : Piece} {rest : List Char}

theorem withReturns_text (hfits : piece.Fits rest) (hother : piece ≠ .sound (.blank '\n')) :
    withReturns piece.text = piece.text :=
  withReturns_of_notMem fun hmem => hother (eq_blank_of_mem hfits hmem (by decide))

theorem flatMap_text_withReturn (hfits : piece.Fits rest) :
    piece.withReturn.flatMap text = withReturns piece.text := by
  by_cases hfeed : piece = .sound (.blank '\n')
  · rw [hfeed]
    rfl
  · rw [withReturn, if_neg hfeed, withReturns_text hfits hfeed]
    exact List.append_nil _

theorem Fits.tiling_withReturn (hfits : piece.Fits rest) {pieces : List Piece} {text : List Char}
    (hstops : StopsAs rest text) (htiling : Tiling pieces text) :
    Tiling (piece.withReturn ++ pieces) (withReturns piece.text ++ text) := by
  by_cases hfeed : piece = .sound (.blank '\n')
  · have hreturn : Unicode.isBlank '\r' = true := by decide
    have hblank : Unicode.isBlank '\n' = true := by decide
    rw [hfeed]
    exact .cons hreturn (.cons hblank htiling)
  · rw [withReturn, if_neg hfeed, withReturns_text hfits hfeed]
    exact .cons (hfits.of_stopsAs hstops) htiling

theorem token?_behindReturn (place : Place) (hother : piece ≠ .sound (.blank '\n')) :
    (piece.token? place).map Token.behindReturn = piece.token? place := by
  cases htoken : piece.token? place with
  | none => rfl
  | some token =>
    cases piece with
    | flawed _ => contradiction
    | sound element =>
      have hend : token.isEndOfLine = false := by
        rw [(Element.token?_marks htoken).2.1, Bool.eq_false_iff]
        intro htrivia
        exact hother (congrArg sound (Element.eq_feed_of_token? htoken htrivia))
      rw [Option.map_some, Token.behindReturn, hend]
      rfl

theorem tokensFrom_withReturn (place : Place) (piece : Piece) :
    tokensFrom place piece.withReturn = (piece.token? place).toList.map Token.behindReturn := by
  by_cases hfeed : piece = .sound (.blank '\n')
  · rw [hfeed]
    rfl
  · rw [withReturn, if_neg hfeed, tokensFrom_cons, tokensFrom_nil, List.append_nil,
      ← Option.toList_map, token?_behindReturn place hfeed]

theorem faultsFrom_withReturn (place : Place) (piece : Piece) :
    faultsFrom place piece.withReturn = (piece.fault? place).toList := by
  by_cases hfeed : piece = .sound (.blank '\n')
  · rw [hfeed]
    rfl
  · rw [withReturn, if_neg hfeed, faultsFrom_cons, faultsFrom_nil, List.append_nil]

end Piece

namespace Tiling

variable {pieces : List Piece} {text : List Char}

theorem withReturns (htiling : Tiling pieces text) :
    Tiling (pieces.flatMap Piece.withReturn) (IBLexer.withReturns text) := by
  induction htiling with
  | nil => exact .nil
  | cons hfits _ ih =>
    rw [List.flatMap_cons, withReturns_append]
    exact hfits.tiling_withReturn (stopsAs_withReturns _) ih

theorem tokensFrom_withReturns (htiling : Tiling pieces text) (place : Place) :
    tokensFrom place (pieces.flatMap Piece.withReturn) =
      (tokensFrom place pieces).map Token.behindReturn := by
  induction htiling generalizing place with
  | nil => rfl
  | cons hfits _ ih =>
    rw [List.flatMap_cons, tokensFrom_append, Piece.tokensFrom_withReturn,
      Piece.flatMap_text_withReturn hfits, Place.after_withReturns, ih, tokensFrom_cons,
      List.map_append]

theorem faultsFrom_withReturns (htiling : Tiling pieces text) (place : Place) :
    faultsFrom place (pieces.flatMap Piece.withReturn) = faultsFrom place pieces := by
  induction htiling generalizing place with
  | nil => rfl
  | cons hfits _ ih =>
    rw [List.flatMap_cons, faultsFrom_append, Piece.faultsFrom_withReturn,
      Piece.flatMap_text_withReturn hfits, Place.after_withReturns, ih, faultsFrom_cons]

end Tiling

theorem tokenizeRecovering_withReturns (source : String) (file? : Option String) :
    tokenizeRecovering (String.ofList (withReturns source.toList)) file? =
      ((tokenizeRecovering source file?).1.map Token.behindReturn,
        (tokenizeRecovering source file?).2) := by
  obtain ⟨pieces, htiling⟩ := Tiling.exists_of_text source.toList
  have hreturns := htiling.withReturns
  rw [← String.toList_ofList (l := withReturns source.toList)] at hreturns
  have hlast : Position.start.after (withReturns source.toList) =
      Position.start.after source.toList :=
    congrArg Place.position ((Place.start "").after_withReturns source.toList)
  rw [tokenizeRecovering_of_tiling hreturns, tokenizeRecovering_of_tiling htiling,
    htiling.tokensFrom_withReturns, htiling.faultsFrom_withReturns, String.toList_ofList, hlast,
    List.map_append]
  exact congrArg (· ++ _, _) (collapseAfter_map Token.isEndOfLine_behindReturn false _)

theorem tokenize_withReturns (source : String) (file? : Option String) :
    tokenize (String.ofList (withReturns source.toList)) file? =
      (tokenize source file?).map (List.map Token.behindReturn) := by
  have hrecovering := tokenizeRecovering_withReturns source file?
  cases hstrict : tokenize source file? with
  | ok tokens =>
    rw [tokenize, Scanner.strict_eq_ok_iff, ← tokenizeRecovering] at hstrict
    rw [hstrict] at hrecovering
    exact Scanner.strict_eq_ok_iff.mpr hrecovering
  | error fault =>
    rw [tokenize, Scanner.strict_eq_error_iff, ← tokenizeRecovering] at hstrict
    refine Scanner.strict_eq_error_iff.mpr ?_
    rw [← tokenizeRecovering, hrecovering]
    exact hstrict

theorem toNat_column_behindReturn {source : String} {file? : Option String} {token : Token}
    (hlength : source.length ≤ 2 ^ 32 - 2) (hmem : token ∈ (tokenizeRecovering source file?).1)
    (hend : token.isEndOfLine = true) :
    token.behindReturn.position.column.toNat = token.position.column.toNat + 1 := by
  have hmark : token.isEndOfFile = false := by
    rw [Token.isEndOfLine, beq_iff_eq] at hend
    rw [Token.isEndOfFile, hend]
    rfl
  obtain ⟨element, before, after, hoccurs, htoken⟩ := exists_occurs_of_mem_tokens hmem hmark
  have hposition := (Element.token?_marks htoken).1
  have hpos := List.length_pos_iff.mpr (Piece.text_ne_nil hoccurs.fits)
  have hall := hoccurs.length_eq
  rw [String.length_toList] at hall
  have hshort : before.length + 1 < 2 ^ 32 := by omega
  have hcolumn := Position.toNat_column_after_start hshort
  have hline := length_lastLine_le before
  rw [← hposition] at hcolumn
  have hone : (1 : UInt32).toNat = 1 := rfl
  rw [Token.behindReturn, if_pos hend, UInt32.toNat_add, hone]
  omega

/-- A text with a carriage return before each line feed has the same faults and the same tokens,
with each line end one column further. -/
theorem carriage_returns_transparent (source : String) (file? : Option String)
    (hlength : (String.ofList (withReturns source.toList)).length ≤ 2 ^ 32 - 2) :
    tokenizeRecovering (String.ofList (withReturns source.toList)) file? =
        ((tokenizeRecovering source file?).1.map Token.behindReturn,
          (tokenizeRecovering source file?).2) ∧
      tokenize (String.ofList (withReturns source.toList)) file? =
        (tokenize source file?).map (List.map Token.behindReturn) ∧
      ∀ token ∈ (tokenizeRecovering source file?).1, token.isEndOfLine = true →
        token.behindReturn.position.column.toNat = token.position.column.toNat + 1 := by
  refine ⟨tokenizeRecovering_withReturns source file?, tokenize_withReturns source file?, ?_⟩
  intro token hmem hend
  refine toNat_column_behindReturn ?_ hmem hend
  rw [String.length_ofList, length_withReturns, String.length_toList] at hlength
  omega

/-- A lone slash, an open literal and a comment at line ends, the last of them behind a carriage
return already. -/
theorem carriage_returns_transparent_ends :
    let source := "x /\n'y\r\n\n// z\r\n"
    let returned := "x /\r\n'y\r\r\n\r\n// z\r\r\n"
    returned.length ≤ 2 ^ 32 - 2 ∧
      (tokenizeRecovering returned none).2 = (tokenizeRecovering source none).2 ∧
      (tokenizeRecovering returned none).1 =
        [⟨.identifier "x", "x", ⟨1, 1⟩⟩, .endOfLine ⟨1, 5⟩, .endOfFile ⟨5, 1⟩] := by
  intro source returned
  have hreturned : String.ofList (withReturns source.toList) = returned := by decide
  have hlength : returned.length ≤ 2 ^ 32 - 2 := by decide
  obtain ⟨hrecovering, -⟩ := carriage_returns_transparent source none (hreturned ▸ hlength)
  rw [hreturned] at hrecovering
  refine ⟨hlength, by rw [hrecovering], ?_⟩
  rw [hrecovering]
  decide +kernel

end IBLexer
