/-! The similarity of two words, between zero and one. Characters match when they are equal
and not too far apart; matches that go backwards count as transpositions; and the whole
common beginning, however long, moves the score towards one. -/
namespace IBLexer.Similarity

structure Matching where
  taken : List Nat
  last : Nat
  matched : Nat
  transposed : Nat

/-- Matches the character `c` at place `i` with the first free equal one within `range`. -/
def Matching.step (right : List Char) (range : Nat) (state : Matching) (item : Char × Nat) :
    Matching :=
  let (c, i) := item
  let partner := right.zipIdx.find? fun (d, j) =>
    d == c && i - range ≤ j && j ≤ i + range && !state.taken.contains j
  match partner with
  | none => state
  | some (_, j) =>
    { taken := j :: state.taken
      last := j
      matched := state.matched + 1
      transposed := if j < state.last then state.transposed + 1 else state.transposed }

def matchScore (left right : List Char) : Float :=
  if left = right then 1.0
  else if left = [] ∨ right = [] ∨ (left.length = 1 ∧ right.length = 1) then 0.0
  else
    let range := max left.length right.length / 2 - 1
    let found := left.zipIdx.foldl (Matching.step right range) ⟨[], 0, 0, 0⟩
    if found.matched = 0 then 0.0
    else
      let matched := found.matched.toFloat
      1.0 / 3.0 * (matched / left.length.toFloat + matched / right.length.toFloat +
        (matched - found.transposed.toFloat) / matched)

def commonStart (left right : List Char) : Nat :=
  ((left.zip right).takeWhile fun (c, d) => c == d).length

def similarity (left right : List Char) : Float :=
  let score := matchScore left right
  let raised := score + 0.1 * (commonStart left right).toFloat * (1.0 - score)
  if raised ≤ 1.0 then raised else 1.0

/-- The most similar of the candidates, the first of equals, if it is similar enough. -/
def suggest? {α : Type} (text : α → String) (word : String) (candidates : List α) : Option α :=
  let best := candidates.foldl (fun best candidate =>
    let score := similarity word.toList (text candidate).toList
    match best with
    | some (_, high) => if 0.8 < score && high < score then some (candidate, score) else best
    | none => if 0.8 < score then some (candidate, score) else none) none
  best.map Prod.fst

end IBLexer.Similarity
