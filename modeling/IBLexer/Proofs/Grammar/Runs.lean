import IBLexer.Proofs.Stream.Collapse
import Mathlib.Data.List.SplitBy

/-! A stream that was collapsed holds one line end for each run of trivia with a line feed.
The runs are the blocks of neighbouring trivia; every other item is a block of its own. -/
namespace IBLexer

section Runs

variable {α : Type} {trivia : α → Bool} {mark : α → Option Token}

def sameRun (trivia : α → Bool) (left right : α) : Bool := trivia left && trivia right

/-- The first mark of each run. -/
def runMarks (trivia : α → Bool) (mark : α → Option Token) (items : List α) : List Token :=
  (items.splitBy (sameRun trivia)).filterMap fun run => run.findSome? mark

/-- Trivia bear no marks but line ends, and all other items bear another mark. -/
structure Marks (trivia : α → Bool) (mark : α → Option Token) : Prop where
  ofTrivia : ∀ item, trivia item = true → ∀ token ∈ mark item, token.isEndOfLine = true
  ofOther : ∀ item, trivia item = false →
    ∃ token, mark item = some token ∧ token.isEndOfLine = false

theorem collapseAfter_of_isEndOfLine {tokens : List Token}
    (hends : ∀ token ∈ tokens, token.isEndOfLine = true) :
    collapseAfter true tokens = [] ∧ collapseAfter false tokens = tokens.head?.toList := by
  induction tokens with
  | nil => exact ⟨rfl, rfl⟩
  | cons token tokens ih =>
    have hend := hends token (.head _)
    have hrest := (ih fun token htoken => hends token (.tail _ htoken)).1
    simp [collapseAfter, hend, hrest]

theorem trivia_of_isChain {item : α} {run : List α}
    (hchain : (item :: run).IsChain fun left right => sameRun trivia left right = true)
    (hitem : trivia item = true) : ∀ other ∈ item :: run, trivia other = true := by
  induction run generalizing item with
  | nil => simpa using hitem
  | cons next run ih =>
    rw [List.isChain_cons_cons, sameRun, Bool.and_eq_true] at hchain
    rintro other (_ | ⟨_, hother⟩)
    · exact hitem
    · exact ih hchain.2 hchain.1.2 other hother

theorem eq_nil_of_isChain {item : α} {run : List α}
    (hchain : (item :: run).IsChain fun left right => sameRun trivia left right = true)
    (hitem : trivia item = false) : run = [] := by
  cases run with
  | nil => rfl
  | cons next run =>
    rw [List.isChain_cons_cons, sameRun, hitem] at hchain
    exact absurd hchain.1 (by simp)

theorem not_trivia_of_isChain {run : List α} {runs : List (List α)}
    (hsplit : (run :: runs).IsChain fun left right =>
      ∃ hleft hright, sameRun trivia (left.getLast hleft) (right.head hright) = false)
    (htrivia : ∀ item ∈ run, trivia item = true) :
    ∀ item ∈ runs.flatten.head?, trivia item = false := by
  cases runs with
  | nil => simp
  | cons next runs =>
    rw [List.isChain_cons_cons] at hsplit
    obtain ⟨⟨hleft, hright, hother⟩, -⟩ := hsplit
    rw [sameRun, htrivia _ (List.getLast_mem hleft), Bool.true_and] at hother
    obtain ⟨item, next, rfl⟩ := List.exists_cons_of_ne_nil hright
    rintro _ ⟨⟩
    exact hother

theorem collapseAfter_flatten (hmarks : Marks trivia mark) {runs : List (List α)}
    (hne : [] ∉ runs)
    (hchain : ∀ run ∈ runs, run.IsChain fun left right => sameRun trivia left right = true)
    (hsplit : runs.IsChain fun left right =>
      ∃ hleft hright, sameRun trivia (left.getLast hleft) (right.head hright) = false)
    (ended : Bool) (hended : ended = true → ∀ item ∈ runs.flatten.head?, trivia item = false) :
    collapseAfter ended (runs.flatten.filterMap mark) =
      runs.filterMap fun run => run.findSome? mark := by
  induction runs generalizing ended with
  | nil => rfl
  | cons run runs ih =>
    rw [List.mem_cons, not_or] at hne
    have hrest := ih hne.2 (fun run hrun => hchain run (.tail _ hrun)) hsplit.tail
    obtain ⟨item, more, rfl⟩ := List.exists_cons_of_ne_nil (Ne.symm hne.1)
    rw [List.flatten_cons, List.filterMap_append, collapseAfter_append]
    cases hitem : trivia item with
    | false =>
      obtain ⟨token, htoken, hother⟩ := hmarks.ofOther item hitem
      rw [eq_nil_of_isChain (hchain _ (.head _)) hitem, hrest]
      · simp [collapseAfter, htoken, hother]
      · simp [endsLine, htoken, hother]
    | true =>
      obtain rfl : ended = false := by
        rw [Bool.eq_false_iff]
        intro htrue
        rw [hended htrue item rfl] at hitem
        contradiction
      have htrivia := trivia_of_isChain (hchain _ (.head _)) hitem
      have hends : ∀ token ∈ (item :: more).filterMap mark, token.isEndOfLine = true := by
        intro token htoken
        obtain ⟨other, hother, hmark⟩ := List.mem_filterMap.mp htoken
        exact hmarks.ofTrivia other (htrivia other hother) token hmark
      rw [(collapseAfter_of_isEndOfLine hends).2, hrest _ fun _ =>
        not_trivia_of_isChain hsplit htrivia, List.head?_filterMap, List.filterMap_cons]
      cases List.findSome? mark (item :: more) <;> rfl

theorem collapse_eq_runMarks (hmarks : Marks trivia mark) (items : List α) :
    collapse (items.filterMap mark) = runMarks trivia mark items := by
  have hruns := (List.splitBy_eq_iff (r := sameRun trivia) (m := items)).mp rfl
  obtain ⟨hflatten, hne, hchain, hsplit⟩ := hruns
  have hcollapse := collapseAfter_flatten hmarks hne hchain hsplit false
    (fun hfalse => Bool.noConfusion hfalse)
  rwa [← hflatten] at hcollapse

end Runs
end IBLexer
