import IBLexer.Proofs.Stream.Run

/-! No piece reaches over a line feed, so a text is scanned line by line: what stands on one
line has no influence on the tokens and the faults of the others. -/
namespace IBLexer

def Token.down (lines : Nat) (token : Token) : Token :=
  { token with position := token.position.down lines }

def Fault.down (lines : Nat) (fault : Fault) : Fault :=
  { fault with position := fault.position.down lines }

def Place.down (lines : Nat) (place : Place) : Place :=
  { place with position := place.position.down lines }

@[simp] theorem Token.isEndOfLine_down (token : Token) (lines : Nat) :
    (token.down lines).isEndOfLine = token.isEndOfLine := rfl

theorem Place.after_down (place : Place) (lines : Nat) (text : List Char) :
    (place.down lines).after text = (place.after text).down lines := by
  simp only [after, down, Position.after_down]

theorem collapse_map_down (lines : Nat) (tokens : List Token) :
    collapse (tokens.map (·.down lines)) = (collapse tokens).map (·.down lines) :=
  collapseAfter_map (fun token => token.isEndOfLine_down lines) false tokens

theorem Piece.token?_down (piece : Piece) (place : Place) (lines : Nat) :
    piece.token? (place.down lines) = (piece.token? place).map (·.down lines) := by
  cases piece with
  | flawed _ => rfl
  | sound element =>
    cases element with
    | blank c =>
      simp only [token?, Element.token?]
      split <;> rfl
    | comment _ | literal _ _ | number _ | word _ | operator _ | bracket _ => rfl

theorem Piece.fault?_down (piece : Piece) (place : Place) (lines : Nat) :
    piece.fault? (place.down lines) = (piece.fault? place).map (·.down lines) := by
  cases piece with
  | sound _ => rfl
  | flawed flaw =>
    cases flaw with
    | slash more => simp only [fault?, Flaw.fault, Place.after_down]; rfl
    | stray _ _ | unclosed _ _ => rfl

theorem locate_down (place : Place) (lines : Nat) (pieces : List Piece) :
    locate (place.down lines) pieces =
      (locate place pieces).map fun located => (located.1.down lines, located.2) := by
  induction pieces generalizing place with
  | nil => rfl
  | cons piece pieces ih => rw [locate, locate, List.map_cons, Place.after_down, ih]

theorem tokensFrom_down (place : Place) (lines : Nat) (pieces : List Piece) :
    tokensFrom (place.down lines) pieces = (tokensFrom place pieces).map (·.down lines) := by
  rw [tokensFrom, tokensFrom, locate_down, List.filterMap_map, List.map_filterMap]
  congr 1
  funext located
  exact located.2.token?_down located.1 lines

theorem faultsFrom_down (place : Place) (lines : Nat) (pieces : List Piece) :
    faultsFrom (place.down lines) pieces = (faultsFrom place pieces).map (·.down lines) := by
  rw [faultsFrom, faultsFrom, locate_down, List.filterMap_map, List.map_filterMap]
  congr 1
  funext located
  exact located.2.fault?_down located.1 lines

theorem stopsAs_feed (rest : List Char) : StopsAs [] ('\n' :: rest) := by
  have hall : ∀ accept ∈ [inLine, Char.isDigit, isWordPart], accept '\n' = false := by
    decide +kernel
  rintro accept haccept - _ ⟨⟩
  exact hall accept haccept

theorem Tiling.append_feed {pieces more : List Piece} {text rest : List Char}
    (htiling : Tiling pieces text) (hmore : Tiling more rest) :
    Tiling (pieces ++ .sound (.blank '\n') :: more) (text ++ '\n' :: rest) :=
  htiling.append (stopsAs_feed rest) (.cons (show Unicode.isBlank '\n' = true by decide) hmore)

theorem Place.after_feed (file : String) (text : List Char) :
    ((start file).after text).after ['\n'] = (start file).down (text.count '\n' + 1) := by
  simp only [after, start, down, Position.down, Position.after_cons, Position.after_nil,
    Position.advance, if_true, Position.line_after, Place.mk.injEq, Position.mk.injEq]
  refine ⟨trivial, ⟨?_, rfl⟩, rfl⟩
  rw [UInt32.ofNat_add, UInt32.add_assoc]
  rfl

theorem tokensFrom_feed (file : String) {pieces : List Piece} (more : List Piece)
    {text : List Char} (htiling : Tiling pieces text) :
    tokensFrom (.start file) (pieces ++ .sound (.blank '\n') :: more) =
      tokensFrom (.start file) pieces ++ .endOfLine (Position.start.after text) ::
        (tokensFrom (.start file) more).map (·.down (text.count '\n' + 1)) := by
  rw [tokensFrom_append, tokensFrom_cons, htiling.flatMap_text, ← tokensFrom_down,
    ← Place.after_feed]
  rfl

theorem faultsFrom_feed (file : String) {pieces : List Piece} (more : List Piece)
    {text : List Char} (htiling : Tiling pieces text) :
    faultsFrom (.start file) (pieces ++ .sound (.blank '\n') :: more) =
      faultsFrom (.start file) pieces ++
        (faultsFrom (.start file) more).map (·.down (text.count '\n' + 1)) := by
  rw [faultsFrom_append, faultsFrom_cons, htiling.flatMap_text, ← faultsFrom_down,
    ← Place.after_feed]
  rfl

theorem Position.after_append_feed (text rest : List Char) :
    start.after (text ++ '\n' :: rest) = (start.after rest).down (text.count '\n' + 1) := by
  have hplace := congrArg Place.position (Place.after_feed "" text)
  rw [after_append, after_cons, ← after_down]
  exact congrArg (fun position => after position rest) hplace

theorem collapse_append_endOfLine (tokens more : List Token) (position last : Position) :
    collapse (collapse tokens ++ .endOfLine position :: (collapse more ++ [.endOfFile last])) =
      collapse (tokens ++ .endOfLine position :: more) ++ [.endOfFile last] := by
  have hmore := collapseAfter_append_collapse false (tokens ++ [.endOfLine position]) more
  simp only [List.append_assoc, List.singleton_append] at hmore
  rw [collapse, collapse, collapseAfter_collapseAfter_append, ← List.cons_append,
    ← List.append_assoc, collapseAfter_append_endOfFile, hmore]
  rfl

theorem Position.toNat_line_down {front text : List Char} (hfront : front <+: text) {lines : Nat}
    (hlt : text.length + lines + 1 < 2 ^ 32) :
    ((start.after front).down lines).line.toNat = (start.after front).line.toNat + lines := by
  have hlength := hfront.length_le
  have hcount := List.count_le_length (a := '\n') (l := front)
  have hshort : front.length + 1 < 2 ^ 32 := by omega
  have hline := toNat_line_after_start hshort
  have hlines : lines < 2 ^ 32 := by omega
  rw [down, UInt32.toNat_add, UInt32.toNat_ofNat_of_lt' hlines, hline]
  exact Nat.mod_eq_of_lt (by omega)

/-- Line locality: what stands before a line feed and what stands after it are scanned as if
each were alone. -/
theorem tokenizeRecovering_append_feed (s t : String) (file? : Option String)
    (hlength : (s ++ "\n" ++ t).length ≤ 2 ^ 32 - 2) :
    let lines := s.toList.count '\n' + 1
    (tokenizeRecovering (s ++ "\n" ++ t) file?).2 =
        (tokenizeRecovering s file?).2 ++ (tokenizeRecovering t file?).2.map (·.down lines) ∧
      (tokenizeRecovering (s ++ "\n" ++ t) file?).1 =
        collapse ((tokenizeRecovering s file?).1.filter (fun token => !token.isEndOfFile) ++
          .endOfLine (Position.start.after s.toList) ::
            (tokenizeRecovering t file?).1.map (·.down lines)) ∧
      (∀ token ∈ (tokenizeRecovering t file?).1,
        (token.down lines).position.line.toNat = token.position.line.toNat + lines) ∧
      ∀ fault ∈ (tokenizeRecovering t file?).2,
        (fault.down lines).position.line.toNat = fault.position.line.toNat + lines := by
  intro lines
  have htext : (s ++ "\n" ++ t).toList = s.toList ++ '\n' :: t.toList := by simp
  obtain ⟨pieces, hpieces⟩ := Tiling.exists_of_text s.toList
  obtain ⟨more, hmore⟩ := Tiling.exists_of_text t.toList
  have hjoin := htext ▸ hpieces.append_feed hmore
  have hlt : t.toList.length + lines + 1 < 2 ^ 32 := by
    have hcount := List.count_le_length (a := '\n') (l := s.toList)
    rw [← String.length_toList, htext, List.length_append, List.length_cons] at hlength
    omega
  refine ⟨?_, ?_, fun token htoken => ?_, fun fault hfault => ?_⟩
  · rw [tokenizeRecovering_of_tiling hpieces, tokenizeRecovering_of_tiling hmore,
      tokenizeRecovering_of_tiling hjoin]
    exact faultsFrom_feed _ more hpieces
  · rw [tokenizeRecovering_of_tiling hpieces, tokenizeRecovering_of_tiling hmore,
      tokenizeRecovering_of_tiling hjoin, filter_collapse_tokensFrom,
      tokensFrom_feed _ more hpieces, htext, Position.after_append_feed, List.map_append,
      ← collapse_map_down]
    exact (collapse_append_endOfLine _ _ _ _).symm
  · obtain ⟨front, hfront, hposition⟩ := position_of_mem_tokens htoken
    rw [Token.down, hposition]
    exact Position.toNat_line_down hfront hlt
  · obtain ⟨front, hfront, hposition⟩ := position_of_mem_faults hfault
    rw [Fault.down, hposition]
    exact Position.toNat_line_down hfront hlt

/-- An unclosed literal before the line feed, and a lone slash two lines further down. -/
theorem tokenizeRecovering_append_feed_unclosed :
    ("a 'b" ++ "\n" ++ "\n/ c").length ≤ 2 ^ 32 - 2 ∧
      (tokenizeRecovering ("a 'b" ++ "\n" ++ "\n/ c") none).2 =
        (tokenizeRecovering "a 'b" none).2 ++
          (tokenizeRecovering "\n/ c" none).2.map (·.down 1) ∧
      (tokenizeRecovering ("a 'b" ++ "\n" ++ "\n/ c") none).1 =
        collapse ((tokenizeRecovering "a 'b" none).1.filter (fun token => !token.isEndOfFile) ++
          .endOfLine ⟨1, 5⟩ :: (tokenizeRecovering "\n/ c" none).1.map (·.down 1)) := by
  have hlength : ("a 'b" ++ "\n" ++ "\n/ c").length ≤ 2 ^ 32 - 2 := by decide
  have hlocal := tokenizeRecovering_append_feed "a 'b" "\n/ c" none hlength
  exact ⟨hlength, hlocal.1, hlocal.2.1⟩

end IBLexer
