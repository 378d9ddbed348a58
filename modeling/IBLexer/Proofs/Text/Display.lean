import IBLexer.Text.Lines
import IBLexer.Text.Position

/-! What is on display. A number shows its digits, and a place the file and two numbers. A text that
is written line by line is shown in just these lines, as long as none of them ends in a carriage
return of its own. -/
namespace IBLexer

theorem toList_toString (n : UInt32) : (toString n).toList = Nat.toDigits 10 n.toNat :=
  Nat.toList_repr

theorem isDigit_of_mem_toString {n : UInt32} : ∀ c ∈ (toString n).toList, c.isDigit = true := by
  intro c hc
  rw [toList_toString] at hc
  exact Nat.isDigit_of_mem_toDigits (by decide) (by decide) hc

theorem toString_inj {n m : UInt32} (hsame : (toString n).toList = (toString m).toList) :
    n = m := by
  rw [toList_toString, toList_toString] at hsame
  have hvalue := congrArg (Nat.ofDigitChars 10 · 0) hsame
  simp only [Nat.ofDigitChars_ten_toDigits] at hvalue
  exact UInt32.toNat_inj.mp hvalue

theorem Position.toList_locate (position : Position) (file : String) :
    (position.locate file).toList = "./".toList ++ (file.toList ++ ':' ::
      ((toString position.line).toList ++ ':' :: (toString position.column).toList)) := by
  simp [locate, toString]

theorem Position.notMem_feed_locate {file : String} (hfile : '\n' ∉ file.toList)
    (position : Position) : '\n' ∉ (position.locate file).toList := by
  have hdigits (n : UInt32) : '\n' ∉ (toString n).toList :=
    fun hmem => absurd (isDigit_of_mem_toString _ hmem) (by decide)
  rw [toList_locate]
  simp [hfile, hdigits]

theorem displayLines_cons {c : Char} {text : List Char} (hfeed : c ≠ '\n')
    (hreturn : c = '\r' → text.head? ≠ some '\n') :
    displayLines (c :: text) =
      match displayLines text with
      | [] => [[c]]
      | line :: more => (c :: line) :: more := by
  rw [displayLines.eq_def]
  split
  · contradiction
  · next hcons => exact absurd (List.cons.inj hcons).1 hfeed
  · next hcons =>
    obtain ⟨rfl, rfl⟩ := List.cons.inj hcons
    exact absurd rfl (hreturn rfl)
  · next hcons =>
    cases hcons
    rfl

theorem displayLines_append_feed {line : List Char} (hline : '\n' ∉ line)
    (hlast : line.getLast? ≠ some '\r') (rest : List Char) :
    displayLines (line ++ '\n' :: rest) = line :: displayLines rest := by
  induction line with
  | nil => rfl
  | cons c line ih =>
    rw [List.mem_cons, not_or] at hline
    cases line with
    | nil =>
      have hreturn : c ≠ '\r' := by simpa using hlast
      rw [List.cons_append, displayLines_cons (Ne.symm hline.1) (absurd · hreturn), ih hline.2]
      simp
    | cons d line =>
      have hnext : d ≠ '\n' := fun hsame => hline.2 (by rw [hsame]; exact .head line)
      rw [List.getLast?_cons_cons] at hlast
      rw [List.cons_append, displayLines_cons (Ne.symm hline.1), ih hline.2 hlast]
      simp [hnext]

theorem displayLines_of_notMem {line : List Char} (hline : '\n' ∉ line) (hne : line ≠ []) :
    displayLines line = [line] := by
  induction line with
  | nil => contradiction
  | cons c line ih =>
    rw [List.mem_cons, not_or] at hline
    rw [displayLines_cons (Ne.symm hline.1)]
    · cases line with
      | nil => rfl
      | cons d line => rw [ih hline.2 (List.cons_ne_nil d line)]
    · rintro - hhead
      exact hline.2 (List.mem_of_head? hhead)

end IBLexer
