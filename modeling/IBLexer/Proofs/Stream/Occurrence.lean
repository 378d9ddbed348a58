import IBLexer.Proofs.Stream.Run
import IBLexer.Proofs.Text.Line

/-! Where the tokens and the faults of a run come from: each belongs to one piece of the text,
and what stands before that piece tells its position. -/
namespace IBLexer

/-- The piece stands in the text between `before` and `after`. -/
structure Piece.Occurs (piece : Piece) (text before after : List Char) : Prop where
  text_eq : text = before ++ (piece.text ++ after)
  fits : piece.Fits after

theorem Piece.Occurs.length_eq {piece : Piece} {text before after : List Char}
    (hoccurs : piece.Occurs text before after) :
    before.length + piece.text.length + after.length = text.length := by
  rw [hoccurs.text_eq, List.length_append, List.length_append, Nat.add_assoc]

namespace Tiling

theorem of_append {before after : List Piece} {text : List Char}
    (htiling : Tiling (before ++ after) text) : Tiling after (after.flatMap Piece.text) := by
  induction before generalizing text with
  | nil => exact htiling.flatMap_text ▸ htiling
  | cons piece before ih =>
    cases htiling with
    | cons _ hrest => exact ih hrest

theorem occurs {before after : List Piece} {piece : Piece} {text : List Char}
    (htiling : Tiling (before ++ piece :: after) text) :
    piece.Occurs text (before.flatMap Piece.text) (after.flatMap Piece.text) := by
  refine ⟨?_, ?_⟩
  · rw [← htiling.flatMap_text, List.flatMap_append, List.flatMap_cons]
  · generalize htext : (piece :: after).flatMap Piece.text = rest
    have hlast := htiling.of_append
    rw [htext] at hlast
    cases hlast with
    | cons hfits hrest => rwa [hrest.flatMap_text]

variable {pieces : List Piece} {text : List Char} {file : String}

theorem exists_of_mem_tokensFrom (htiling : Tiling pieces text) {token : Token}
    (hmem : token ∈ tokensFrom (.start file) pieces) : ∃ element before after,
      (Piece.sound element).Occurs text before after ∧
        element.token? (Position.start.after before) = some token := by
  obtain ⟨⟨here, piece⟩, hlocated, htoken⟩ := List.mem_filterMap.mp hmem
  obtain ⟨before, after, rfl, rfl⟩ := exists_of_mem_locate hlocated
  cases piece with
  | sound element => exact ⟨element, _, _, htiling.occurs, htoken⟩
  | flawed _ => contradiction

theorem exists_of_mem_faultsFrom (htiling : Tiling pieces text) {fault : Fault}
    (hmem : fault ∈ faultsFrom (.start file) pieces) : ∃ flaw before after,
      (Piece.flawed flaw).Occurs text before after ∧
        flaw.fault ((Place.start file).after before) = fault := by
  obtain ⟨⟨here, piece⟩, hlocated, hfault⟩ := List.mem_filterMap.mp hmem
  obtain ⟨before, after, rfl, rfl⟩ := exists_of_mem_locate hlocated
  cases piece with
  | sound _ => contradiction
  | flawed flaw => exact ⟨flaw, _, _, htiling.occurs, Option.some.inj hfault⟩

def Follows (file : String) (text : List Char) (first second : Place × Piece) : Prop :=
  ∃ before between after,
    first.1 = (Place.start file).after before ∧
      second.1 = (Place.start file).after (before ++ (first.2.text ++ between)) ∧
      first.2.Occurs text before (between ++ (second.2.text ++ after)) ∧
      second.2.Fits after

theorem pairwise_locate_of_append {before pieces : List Piece}
    (htiling : Tiling (before ++ pieces) text) :
    (locate ((Place.start file).after (before.flatMap Piece.text)) pieces).Pairwise
      (Follows file text) := by
  induction pieces generalizing before with
  | nil => exact .nil
  | cons piece pieces ih =>
    have hsplit : before ++ piece :: pieces = (before ++ [piece]) ++ pieces := by simp
    have hflat : (before ++ [piece]).flatMap Piece.text =
        before.flatMap Piece.text ++ piece.text := by simp
    have hrest := ih (hsplit ▸ htiling)
    rw [hflat, Place.after_append] at hrest
    refine .cons ?_ hrest
    rintro ⟨here, second⟩ hlocated
    obtain ⟨between, after, rfl, rfl⟩ := exists_of_mem_locate hlocated
    have hsecond : Tiling ((before ++ piece :: between) ++ second :: after) text := by
      rwa [List.append_assoc]
    refine ⟨before.flatMap Piece.text, between.flatMap Piece.text, after.flatMap Piece.text,
      rfl, ?_, ?_, hsecond.occurs.fits⟩
    · rw [← Place.after_append, ← Place.after_append]
    · have hfirst := htiling.occurs
      rwa [List.flatMap_append, List.flatMap_cons] at hfirst

theorem pairwise_locate (htiling : Tiling pieces text) :
    (locate (.start file) pieces).Pairwise (Follows file text) := by
  have hwhole : Tiling ([] ++ pieces) text := htiling
  exact pairwise_locate_of_append hwhole

/-- What holds of any flaw and one behind it holds of each fault and the later ones. -/
theorem pairwise_faultsFrom_of {related : Fault → Fault → Prop} (htiling : Tiling pieces text)
    (hrelated : ∀ (flaw other : Flaw) (before between after : List Char),
      (Piece.flawed flaw).Occurs text before (between ++ ((Piece.flawed other).text ++ after)) →
      (Piece.flawed other).Fits after →
      related (flaw.fault ((Place.start file).after before))
        (other.fault ((Place.start file).after (before ++ (flaw.text ++ between))))) :
    (faultsFrom (.start file) pieces).Pairwise related := by
  refine htiling.pairwise_locate.filterMap _ ?_
  rintro ⟨here, first⟩ ⟨there, second⟩ ⟨before, between, after, rfl, rfl, hoccurs, hsecond⟩
  intro fault hfault next hnext
  cases first with
  | sound _ => contradiction
  | flawed flaw =>
    cases second with
    | sound _ => contradiction
    | flawed other =>
      cases hfault
      cases hnext
      exact hrelated flaw other before between after hoccurs hsecond

end Tiling

theorem exists_occurs_of_mem_tokens {source : String} {file? : Option String} {token : Token}
    (hmem : token ∈ (tokenizeRecovering source file?).1) (hend : token.isEndOfFile = false) :
    ∃ element before after, (Piece.sound element).Occurs source.toList before after ∧
      element.token? (Position.start.after before) = some token := by
  obtain ⟨pieces, htiling⟩ := Tiling.exists_of_text source.toList
  rw [tokenizeRecovering_of_tiling htiling, List.mem_append, List.mem_singleton] at hmem
  rcases hmem with hmem | rfl
  · exact htiling.exists_of_mem_tokensFrom ((collapseAfter_sublist false _).subset hmem)
  · contradiction

theorem exists_occurs_of_mem_faults {source : String} {file? : Option String} {fault : Fault}
    (hmem : fault ∈ (tokenizeRecovering source file?).2) :
    ∃ flaw before after, (Piece.flawed flaw).Occurs source.toList before after ∧
      flaw.fault ((Place.start (file?.getD defaultFile)).after before) = fault := by
  obtain ⟨pieces, htiling⟩ := Tiling.exists_of_text source.toList
  rw [tokenizeRecovering_of_tiling htiling] at hmem
  exact htiling.exists_of_mem_faultsFrom hmem

end IBLexer
