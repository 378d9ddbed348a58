import IBLexer.Proofs.Grammar.Runs
import IBLexer.Proofs.Stream.Run

/-! The strict policy accepts exactly the texts that are tiled by lexical elements alone. A
text has at most one such tiling, and the tokens are read off it. -/
namespace IBLexer

namespace Element

def locate : Position → List Element → List (Position × Element)
  | _, [] => []
  | position, element :: elements =>
    (position, element) :: locate (position.after element.text) elements

/-- One token for each element that is no trivia, and one line end for each run of trivia
that holds a line feed, at the first of them. -/
def stream (position : Position) (elements : List Element) : List Token :=
  runMarks (fun located => located.2.isTrivia) (fun located => located.2.token? located.1)
    (locate position elements)

theorem marks_token? : Marks (fun located : Position × Element => located.2.isTrivia)
    fun located => located.2.token? located.1 where
  ofTrivia _ htrivia _ htoken := (token?_marks htoken).2.1.trans htrivia
  ofOther located htrivia := by
    obtain ⟨token, htoken⟩ := exists_token htrivia located.1
    exact ⟨token, htoken, (token?_marks htoken).2.1.trans htrivia⟩

end Element

theorem tokensFrom_map_sound (place : Place) (elements : List Element) :
    tokensFrom place (elements.map .sound) =
      (Element.locate place.position elements).filterMap
        fun located => located.2.token? located.1 := by
  induction elements generalizing place with
  | nil => rfl
  | cons element elements ih =>
    rw [List.map_cons, tokensFrom_cons, ih, Element.locate, List.filterMap_cons]
    cases htoken : element.token? place.position <;> simp [Piece.token?, Piece.text, htoken]

theorem collapse_tokensFrom_map_sound (place : Place) (elements : List Element) :
    collapse (tokensFrom place (elements.map .sound)) =
      Element.stream place.position elements := by
  rw [tokensFrom_map_sound, collapse_eq_runMarks Element.marks_token?]
  rfl

example : Element.stream .start [.blank ' ', .blank '\n', .comment "a".toList, .blank '\n',
    .operator '+'] = [.endOfLine ⟨1, 2⟩, ⟨.operator '+', "+", ⟨3, 1⟩⟩] := by decide

/-- The exact grammar: which texts are accepted, and with which tokens. -/
theorem tokenize_eq_ok_iff_tiling (source : String) (file? : Option String) :
    (∀ tokens, tokenize source file? = .ok tokens ↔
      ∃ elements : List Element, Tiling (elements.map .sound) source.toList ∧
        tokens = Element.stream .start elements ++
          [.endOfFile (Position.start.after source.toList)]) ∧
    ∀ elements others : List Element, Tiling (elements.map .sound) source.toList →
      Tiling (others.map .sound) source.toList → elements = others := by
  constructor
  · intro tokens
    obtain ⟨pieces, htiling⟩ := Tiling.exists_of_text source.toList
    rw [tokenize_eq_ok_iff htiling, faultsFrom_eq_nil_iff]
    constructor
    · rintro ⟨⟨elements, rfl⟩, rfl⟩
      exact ⟨elements, htiling, by rw [collapse_tokensFrom_map_sound]; rfl⟩
    · rintro ⟨elements, hsound, rfl⟩
      obtain rfl := htiling.unique hsound
      exact ⟨⟨elements, rfl⟩, by rw [collapse_tokensFrom_map_sound]; rfl⟩
  · intro elements others helements hothers
    have hinjective : Function.Injective Piece.sound := fun _ _ => Piece.sound.inj
    exact List.map_injective_iff.mpr hinjective (helements.unique hothers)

end IBLexer
