import IBLexer.Proofs.Grammar.First

/-! Every text is tiled by pieces in exactly one way. The tiling says where each piece stands,
and so which tokens and which faults the text holds. -/
namespace IBLexer

/-- The pieces cover the text from end to end, and each fits what comes after it. -/
inductive Tiling : List Piece → List Char → Prop where
  | nil : Tiling [] []
  | cons {piece : Piece} {pieces : List Piece} {rest : List Char} :
    piece.Fits rest → Tiling pieces rest → Tiling (piece :: pieces) (piece.text ++ rest)

namespace Tiling

theorem flatMap_text {pieces : List Piece} {text : List Char} (htiling : Tiling pieces text) :
    pieces.flatMap Piece.text = text := by
  induction htiling with
  | nil => rfl
  | cons _ _ ih => rw [List.flatMap_cons, ih]

theorem exists_of_text (text : List Char) : ∃ pieces, Tiling pieces text := by
  match text with
  | [] => exact ⟨[], .nil⟩
  | c :: text =>
    obtain ⟨piece, rest, htext, hfits⟩ := exists_piece c text
    have hlt : rest.length < (c :: text).length := by
      have hpos := List.length_pos_iff.mpr (Piece.text_ne_nil hfits)
      rw [htext, List.length_append]
      omega
    obtain ⟨pieces, htiling⟩ := exists_of_text rest
    exact ⟨piece :: pieces, htext ▸ .cons hfits htiling⟩
termination_by text.length
decreasing_by exact hlt

theorem unique {pieces others : List Piece} {text : List Char} (htiling : Tiling pieces text)
    (hother : Tiling others text) : pieces = others := by
  induction htiling generalizing others with
  | nil =>
    generalize htext : ([] : List Char) = text at hother
    cases hother with
    | nil => rfl
    | cons hfits _ => exact absurd (List.append_eq_nil_iff.mp htext.symm).1 (Piece.text_ne_nil hfits)
  | @cons piece pieces rest hfits _ ih =>
    generalize htext : piece.text ++ rest = text at hother
    cases hother with
    | nil => exact absurd (List.append_eq_nil_iff.mp htext).1 (Piece.text_ne_nil hfits)
    | cons hfits' hother =>
      have hpiece := Piece.eq_of_append_eq hfits hfits' htext
      subst hpiece
      rw [List.append_cancel_left_eq] at htext
      subst htext
      rw [ih hother]

end Tiling

/-- Each class that stops at one text stops at the other. -/
def StopsAs (rest other : List Char) : Prop :=
  ∀ accept ∈ [inLine, Char.isDigit, isWordPart], Stops accept rest → Stops accept other

/-- Only a comment depends on more than where numbers and words stop. -/
theorem Element.Fits.of_stops {element : Element} {rest other : List Char}
    (hslash : element.rule ≠ .slash) (hstops : ∀ accept ∈ [Char.isDigit, isWordPart],
      Stops accept rest → Stops accept other) (hfits : element.Fits rest) : element.Fits other := by
  cases element with
  | comment _ => contradiction
  | number digits => exact ⟨hfits.1, hfits.2.1, hstops Char.isDigit (by simp) hfits.2.2⟩
  | word letters => exact ⟨hfits.1, hfits.2.1, hstops isWordPart (by simp) hfits.2.2⟩
  | blank _ | literal _ _ | operator _ | bracket _ => exact hfits

theorem Element.Fits.of_stopsAs {element : Element} {rest other : List Char}
    (hstops : StopsAs rest other) (hfits : element.Fits rest) : element.Fits other := by
  by_cases hslash : element.rule = .slash
  · cases element with
    | comment text => exact ⟨hfits.1, hstops inLine (by simp) hfits.2⟩
    | blank _ | literal _ _ | number _ | word _ | operator _ | bracket _ => contradiction
  · exact hfits.of_stops hslash fun accept haccept => hstops accept (.tail _ haccept)

theorem Piece.Fits.of_stopsAs {piece : Piece} {rest other : List Char}
    (hstops : StopsAs rest other) (hfits : piece.Fits rest) : piece.Fits other := by
  cases piece with
  | sound element => exact Element.Fits.of_stopsAs hstops hfits
  | flawed flaw => exact ⟨hfits.1, hfits.2.1, hstops inLine (by simp) hfits.2.2⟩

theorem Tiling.append {pieces more : List Piece} {text rest : List Char}
    (hstops : StopsAs [] rest) (htiling : Tiling pieces text) (hmore : Tiling more rest) :
    Tiling (pieces ++ more) (text ++ rest) := by
  induction htiling with
  | nil => exact hmore
  | @cons piece pieces after hfits _ ih =>
    rw [List.append_assoc]
    refine .cons (hfits.of_stopsAs fun accept haccept hstop => ?_) ih
    cases after with
    | nil => exact hstops accept haccept hstop
    | cons c after => exact hstop

theorem Tiling.append_blanks {gap : List Char} (hblank : ∀ c ∈ gap, Unicode.isBlank c = true)
    {pieces : List Piece} {rest : List Char} (htiling : Tiling pieces rest) :
    Tiling ((gap.map Element.blank).map .sound ++ pieces) (gap ++ rest) := by
  induction gap with
  | nil => exact htiling
  | cons c gap ih =>
    have hfits : (Piece.sound (.blank c)).Fits (gap ++ rest) := hblank c (.head gap)
    exact .cons hfits (ih fun c hc => hblank c (.tail _ hc))

theorem Tiling.of_blanks {gap : List Char} (hblank : ∀ c ∈ gap, Unicode.isBlank c = true) :
    Tiling ((gap.map Element.blank).map .sound) gap := by
  have htiling := Tiling.nil.append_blanks hblank
  rwa [List.append_nil, List.append_nil] at htiling

def locate : Place → List Piece → List (Place × Piece)
  | _, [] => []
  | place, piece :: pieces => (place, piece) :: locate (place.after piece.text) pieces

theorem locate_append (place : Place) (pieces more : List Piece) :
    locate place (pieces ++ more) =
      locate place pieces ++ locate (place.after (pieces.flatMap Piece.text)) more := by
  induction pieces generalizing place with
  | nil => rfl
  | cons piece pieces ih =>
    rw [List.cons_append, locate, ih, locate, List.flatMap_cons, Place.after_append,
      List.cons_append]

theorem exists_of_mem_locate {place : Place} {pieces : List Piece} {located : Place × Piece}
    (hmem : located ∈ locate place pieces) : ∃ before after,
      pieces = before ++ located.2 :: after ∧
        located.1 = place.after (before.flatMap Piece.text) := by
  induction pieces generalizing place with
  | nil => contradiction
  | cons piece pieces ih =>
    rcases List.mem_cons.mp hmem with rfl | hmem
    · exact ⟨[], pieces, rfl, rfl⟩
    · obtain ⟨before, after, rfl, hplace⟩ := ih hmem
      refine ⟨piece :: before, after, rfl, ?_⟩
      rw [hplace, List.flatMap_cons, Place.after_append]

def tokensFrom (place : Place) (pieces : List Piece) : List Token :=
  (locate place pieces).filterMap fun located => located.2.token? located.1

def faultsFrom (place : Place) (pieces : List Piece) : List Fault :=
  (locate place pieces).filterMap fun located => located.2.fault? located.1

@[simp] theorem tokensFrom_nil (place : Place) : tokensFrom place [] = [] := rfl

@[simp] theorem faultsFrom_nil (place : Place) : faultsFrom place [] = [] := rfl

theorem tokensFrom_append (place : Place) (pieces more : List Piece) :
    tokensFrom place (pieces ++ more) =
      tokensFrom place pieces ++ tokensFrom (place.after (pieces.flatMap Piece.text)) more := by
  rw [tokensFrom, locate_append, List.filterMap_append]
  rfl

theorem faultsFrom_append (place : Place) (pieces more : List Piece) :
    faultsFrom place (pieces ++ more) =
      faultsFrom place pieces ++ faultsFrom (place.after (pieces.flatMap Piece.text)) more := by
  rw [faultsFrom, locate_append, List.filterMap_append]
  rfl

theorem filterMap_locate_cons {α : Type} (found : Place × Piece → Option α) (place : Place)
    (piece : Piece) (pieces : List Piece) :
    (locate place (piece :: pieces)).filterMap found =
      (found (place, piece)).toList ++ (locate (place.after piece.text) pieces).filterMap found := by
  rw [locate, List.filterMap_cons]
  cases found (place, piece) <;> rfl

theorem tokensFrom_cons (place : Place) (piece : Piece) (pieces : List Piece) :
    tokensFrom place (piece :: pieces) =
      (piece.token? place).toList ++ tokensFrom (place.after piece.text) pieces :=
  filterMap_locate_cons _ place piece pieces

theorem faultsFrom_cons (place : Place) (piece : Piece) (pieces : List Piece) :
    faultsFrom place (piece :: pieces) =
      (piece.fault? place).toList ++ faultsFrom (place.after piece.text) pieces :=
  filterMap_locate_cons _ place piece pieces

theorem faultsFrom_eq_nil_iff {place : Place} {pieces : List Piece} :
    faultsFrom place pieces = [] ↔ ∃ elements : List Element, pieces = elements.map .sound := by
  induction pieces generalizing place with
  | nil => exact iff_of_true rfl ⟨[], rfl⟩
  | cons piece pieces ih =>
    rw [faultsFrom_cons, List.append_eq_nil_iff, ih]
    cases piece with
    | sound element =>
      constructor
      · rintro ⟨-, elements, rfl⟩
        exact ⟨element :: elements, rfl⟩
      · rintro ⟨_ | ⟨_, elements⟩, helements⟩
        · contradiction
        · exact ⟨rfl, elements, (List.cons.inj helements).2⟩
    | flawed flaw =>
      constructor
      · rintro ⟨hfault, -⟩
        contradiction
      · rintro ⟨_ | ⟨_, elements⟩, helements⟩
        · contradiction
        · exact absurd (List.cons.inj helements).1 (by simp)

theorem position_of_mem_tokensFrom {place : Place} {pieces : List Piece} {token : Token}
    (hmem : token ∈ tokensFrom place pieces) :
    (∃ front, front <+: pieces.flatMap Piece.text ∧ token.position = place.position.after front) ∧
      token.isEndOfFile = false := by
  obtain ⟨⟨here, piece⟩, hlocated, htoken⟩ := List.mem_filterMap.mp hmem
  obtain ⟨before, after, rfl, hplace⟩ := exists_of_mem_locate hlocated
  cases piece with
  | sound element =>
    obtain ⟨hposition, -, hend⟩ := Element.token?_marks htoken
    refine ⟨⟨before.flatMap Piece.text, ?_, ?_⟩, hend⟩
    · rw [List.flatMap_append]
      exact List.prefix_append _ _
    · rw [hposition]
      exact congrArg Place.position hplace
  | flawed _ => contradiction

theorem position_of_mem_faultsFrom {place : Place} {pieces : List Piece} {fault : Fault}
    (hmem : fault ∈ faultsFrom place pieces) :
    ∃ front, front <+: pieces.flatMap Piece.text ∧
      fault.position = place.position.after front := by
  obtain ⟨⟨here, piece⟩, hlocated, hfault⟩ := List.mem_filterMap.mp hmem
  obtain ⟨before, after, rfl, hplace⟩ := exists_of_mem_locate hlocated
  have hposition : here.position = place.position.after (before.flatMap Piece.text) :=
    congrArg Place.position hplace
  rw [List.flatMap_append, List.flatMap_cons]
  cases piece with
  | sound _ => contradiction
  | flawed flaw =>
    cases hfault
    cases flaw with
    | stray _ _ | unclosed _ _ => exact ⟨_, List.prefix_append _ _, hposition⟩
    | slash more =>
      refine ⟨before.flatMap Piece.text ++ ['/'], ?_, ?_⟩
      · rw [List.prefix_append_right_inj]
        exact ⟨_, rfl⟩
      · rw [Position.after_append, ← hposition]
        rfl

end IBLexer
