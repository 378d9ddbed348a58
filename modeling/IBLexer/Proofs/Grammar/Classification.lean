import IBLexer.Proofs.Stream.Passage
import IBLexer.Proofs.Text.LetterCase

/-! What becomes of a word. Keywords are looked up by the lowercase form of Unicode and the two
truth values by the case of ASCII letters; yet the two come to the same, save for the Kelvin sign
that may stand for the `k` of `break`. -/
namespace IBLexer

/-- As many characters as the spelling has, and each stands for its letter. -/
def Keyword.SpelledBy (keyword : Keyword) (word : List Char) : Prop :=
  List.Forall₂ Unicode.StandsFor word keyword.spelling.toList

instance (keyword : Keyword) (word : List Char) : Decidable (keyword.SpelledBy word) :=
  inferInstanceAs (Decidable (List.Forall₂ _ _ _))

def spellingOf (value : Bool) : List Char := (Literal.bool value).payload.toList

namespace Keyword

theorem isLower_spelling (keyword : Keyword) :
    ∀ letter ∈ keyword.spelling.toList, letter.isLower = true := by
  have hall : keyword.spelling.toList.all Char.isLower = true := by cases keyword <;> decide
  exact List.all_eq_true.mp hall

theorem find?_spelling_eq_some_iff {text : List Char} {keyword : Keyword} :
    (all.find? fun keyword => keyword.spelling.toList == text) = some keyword ↔
      keyword.spelling.toList = text := by
  constructor
  · intro hfind
    simpa using List.find?_some hfind
  · intro hspelling
    cases hfind : all.find? fun keyword => keyword.spelling.toList == text with
    | none =>
      have hother := List.find?_eq_none.mp hfind keyword (mem_all keyword)
      exact absurd (beq_iff_eq.mpr hspelling) hother
    | some found =>
      have hfound : found.spelling.toList = text := by simpa using List.find?_some hfind
      rw [spelling_injective (String.toList_inj.mp (hfound.trans hspelling.symm))]

theorem spelledBy_iff {keyword : Keyword} {word : List Char} :
    keyword.SpelledBy word ↔ Unicode.lowercaseText word = keyword.spelling.toList :=
  ((Unicode.lowercaseForm_lowercaseText word).eq_iff keyword.isLower_spelling).symm

/-- The lookup does not depend on how a capital sigma is lowered. -/
theorem find?_lowercaseForm {word lowered : List Char}
    (hform : Unicode.LowercaseForm word lowered) {keyword : Keyword} :
    (all.find? fun keyword => keyword.spelling.toList == lowered) = some keyword ↔
      keyword.SpelledBy word := by
  rw [find?_spelling_eq_some_iff, eq_comm]
  exact hform.eq_iff keyword.isLower_spelling

theorem ofWord?_eq_some_iff {word : List Char} {keyword : Keyword} :
    ofWord? word = some keyword ↔ keyword.SpelledBy word :=
  find?_lowercaseForm (Unicode.lowercaseForm_lowercaseText word)

theorem SpelledBy.unique {keyword other : Keyword} {word : List Char}
    (hspelled : keyword.SpelledBy word) (hother : other.SpelledBy word) : keyword = other := by
  rw [← ofWord?_eq_some_iff] at hspelled hother
  exact Option.some.inj (hspelled.symm.trans hother)

theorem SpelledBy.eq_break {keyword : Keyword} {word : List Char}
    (hspelled : keyword.SpelledBy word) (hkelvin : Unicode.kelvinSign ∈ word) :
    keyword = .break := by
  have hletter : 'k' ∈ keyword.spelling.toList := by
    rw [← spelledBy_iff.mp hspelled]
    exact List.mem_flatMap.mpr ⟨_, hkelvin, by simp [Unicode.lowercase_kelvinSign]⟩
  revert hletter
  cases keyword <;> decide

theorem SpelledBy.not_sameUpToCase {keyword : Keyword} {word : List Char}
    (hspelled : keyword.SpelledBy word) (value : Bool) :
    ¬SameUpToCase word (spellingOf value) := by
  intro hsame
  have hletters : ∀ letter ∈ spellingOf value, letter.isLower = true := by
    have hall : (spellingOf value).all Char.isLower = true := by cases value <;> decide
    exact List.all_eq_true.mp hall
  have hlower := ((Unicode.lowercaseForm_lowercaseText word).eq_iff hletters).mpr
    (Unicode.standsFor_of_sameUpToCase hsame)
  rw [spelledBy_iff.mp hspelled] at hlower
  revert hlower
  cases keyword <;> cases value <;> decide

end Keyword

namespace Token.Value

theorem ofWord_of_spelledBy {keyword : Keyword} {word : List Char}
    (hspelled : keyword.SpelledBy word) : ofWord word = .keyword keyword := by
  rw [ofWord, Keyword.ofWord?_eq_some_iff.mpr hspelled]

theorem ofWord?_eq_none {word : List Char} (hnone : ∀ keyword : Keyword, ¬keyword.SpelledBy word) :
    Keyword.ofWord? word = none := by
  cases hword : Keyword.ofWord? word with
  | none => rfl
  | some keyword => exact absurd (Keyword.ofWord?_eq_some_iff.mp hword) (hnone keyword)

theorem ofWord_of_sameUpToCase {value : Bool} {word : List Char}
    (hsame : SameUpToCase word (spellingOf value)) : ofWord word = .literal (.bool value) := by
  have hnone : Keyword.ofWord? word = none :=
    ofWord?_eq_none fun _ hspelled => hspelled.not_sameUpToCase value hsame
  have hlower : word.map Char.toLower = spellingOf value := by
    rw [hsame]
    cases value <;> decide
  rw [ofWord, hnone, hlower]
  cases value <;> rfl

theorem ofWord_of_neither {word : List Char} (hnone : ∀ keyword : Keyword, ¬keyword.SpelledBy word)
    (hother : ∀ value, ¬SameUpToCase word (spellingOf value)) :
    ofWord word = .identifier (String.ofList word) := by
  have htrue : word.map Char.toLower ≠ "true".toList := fun hsame => hother true hsame
  have hfalse : word.map Char.toLower ≠ "false".toList := fun hsame => hother false hsame
  rw [ofWord, ofWord?_eq_none hnone]
  exact (if_neg htrue).trans (if_neg hfalse)

/-- The rules that give a word its value. They exclude one another. -/
structure Classifies (value : Token.Value) (word : List Char) : Prop where
  keyword_iff : ∀ keyword, value = .keyword keyword ↔ keyword.SpelledBy word
  bool_iff : ∀ truth, value = .literal (.bool truth) ↔ SameUpToCase word (spellingOf truth)
  identifier_iff : ∀ name, value = .identifier name ↔ name = String.ofList word ∧
    (∀ keyword : Keyword, ¬keyword.SpelledBy word) ∧
    ∀ truth, ¬SameUpToCase word (spellingOf truth)

theorem classifies_ofWord (word : List Char) : (ofWord word).Classifies word := by
  -- The cases stand in the order of the lookup, and each rules out the two others.
  by_cases hspelled : ∃ keyword : Keyword, keyword.SpelledBy word
  · obtain ⟨found, hfound⟩ := hspelled
    rw [ofWord_of_spelledBy hfound]
    constructor
    · intro keyword
      rw [Value.keyword.injEq]
      exact ⟨fun hsame => hsame ▸ hfound, hfound.unique⟩
    · intro truth
      exact iff_of_false Value.noConfusion (hfound.not_sameUpToCase truth)
    · intro name
      exact iff_of_false Value.noConfusion fun hnone => hnone.2.1 found hfound
  have hnone := not_exists.mp hspelled
  by_cases hsame : ∃ truth, SameUpToCase word (spellingOf truth)
  · obtain ⟨found, hfound⟩ := hsame
    rw [ofWord_of_sameUpToCase hfound]
    constructor
    · intro keyword
      exact iff_of_false Value.noConfusion (hnone keyword)
    · intro truth
      refine ⟨fun hvalue => ?_, fun hsame => ?_⟩
      · cases hvalue
        exact hfound
      · rw [← ofWord_of_sameUpToCase hfound, ofWord_of_sameUpToCase hsame]
    · intro name
      exact iff_of_false Value.noConfusion fun hother => hother.2.2 found hfound
  · have hother := not_exists.mp hsame
    rw [ofWord_of_neither hnone hother]
    constructor
    · intro keyword
      exact iff_of_false Value.noConfusion (hnone keyword)
    · intro truth
      exact iff_of_false Value.noConfusion (hother truth)
    · intro name
      rw [Value.identifier.injEq, eq_comm]
      exact ⟨fun hname => ⟨hname, hnone, hother⟩, And.left⟩

end Token.Value

/-- A word that comes next is read whole and keeps its spelling. What it is depends on its letters
up to the case of ASCII, but for the Kelvin sign, which no keyword except `break` can hold. -/
theorem word_classified {cursor : Cursor} {word rest : List Char}
    (hrest : cursor.rest = word ++ rest) (hfits : (Element.word word).Fits rest) :
    (∃ value moved, cursor.next = (.ok (some ⟨value, String.ofList word, cursor.position⟩), moved) ∧
      cursor.Passes word moved ∧ value.Classifies word) ∧
    (∀ keyword other : Keyword, keyword.SpelledBy word → other.SpelledBy word → keyword = other) ∧
    (∀ keyword : Keyword, keyword.SpelledBy word →
      (∀ truth, ¬SameUpToCase word (spellingOf truth)) ∧
      (Unicode.kelvinSign ∈ word → keyword = .break)) ∧
    ∀ lowered, Unicode.LowercaseForm word lowered → ∀ keyword,
      (Keyword.all.find? fun found => found.spelling.toList == lowered) = some keyword ↔
        keyword.SpelledBy word := by
  obtain ⟨moved, hpass, hnext⟩ := @Cursor.next_of_element cursor (.word word) rest hrest hfits rfl
  refine ⟨⟨_, moved, hnext, hpass, Token.Value.classifies_ofWord word⟩, ?_, ?_, ?_⟩
  · exact fun _ _ => Keyword.SpelledBy.unique
  · exact fun _ hspelled => ⟨hspelled.not_sameUpToCase, hspelled.eq_break⟩
  · exact fun _ hform _ => Keyword.find?_lowercaseForm hform

/-- The Kelvin sign stands for the last letter, and the lexeme keeps it. -/
theorem word_classified_kelvin_sign :
    let cursor := Cursor.ofText "signs.ib" "bREA\u212A-1"
    let word := "bREA\u212A".toList
    cursor.rest = word ++ "-1".toList ∧ (Element.word word).Fits "-1".toList ∧
      Keyword.break.SpelledBy word ∧ Unicode.kelvinSign ∈ word ∧
      ∃ moved, cursor.next = (.ok (some ⟨.keyword .break, "bREA\u212A", ⟨1, 1⟩⟩), moved) ∧
        moved.rest = "-1".toList := by
  intro cursor word
  have hfits : (Element.word word).Fits "-1".toList := by
    have hletters : word.all isWordPart = true := by decide +kernel
    refine ⟨⟨'b', rfl, by decide +kernel⟩, List.all_eq_true.mp hletters, ?_⟩
    rintro c ⟨⟩
    decide +kernel
  have hspelled : Keyword.break.SpelledBy word := by decide +kernel
  obtain ⟨⟨value, moved, hnext, hpass, hvalue⟩, -⟩ := @word_classified cursor word _ rfl hfits
  obtain rfl := (hvalue.keyword_iff .break).mpr hspelled
  exact ⟨rfl, hfits, hspelled, by decide +kernel, moved, hnext, hpass.rest_eq rfl⟩

end IBLexer
