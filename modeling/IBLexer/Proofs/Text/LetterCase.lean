import IBLexer.Unicode.Lowercase
import Mathlib.Data.List.Forall2

/-! Which texts have a lowercase form in ASCII. Outside ASCII the Kelvin sign alone becomes an ASCII
letter and nothing else, so that these texts are the ASCII ones up to case, with Kelvin signs in
the place of some `k`. What the neighbours of a capital sigma make of it does not matter here. -/
namespace IBLexer

def SameUpToCase (text other : List Char) : Prop :=
  text.map Char.toLower = other.map Char.toLower

instance (text other : List Char) : Decidable (SameUpToCase text other) :=
  inferInstanceAs (Decidable (_ = _))

namespace Unicode

def kelvinSign : Char := '\u212A'

/-- The character may stand in the place of the letter. -/
def StandsFor (c letter : Char) : Prop :=
  c.toLower = letter.toLower ∨ c = kelvinSign ∧ letter = 'k'

instance (c letter : Char) : Decidable (StandsFor c letter) := inferInstanceAs (Decidable (_ ∨ _))

/-- What the full lowercase mapping may make of a text. Whether a capital sigma becomes a final one
is left open, since that depends on its neighbours. -/
inductive LowercaseForm : List Char → List Char → Prop where
  | nil : LowercaseForm [] []
  | cons {c : Char} {text lowered : List Char} : LowercaseForm text lowered →
    LowercaseForm (c :: text) (lowercase c ++ lowered)
  | finalSigma {text lowered : List Char} : LowercaseForm text lowered →
    LowercaseForm ('\u03A3' :: text) ('\u03C2' :: lowered)

theorem lowercaseForm_lowercaseText (text : List Char) :
    LowercaseForm text (lowercaseText text) := by
  induction text with
  | nil => exact .nil
  | cons c text ih => exact .cons ih

theorem ascii_of_isLower {letter : Char} (hletter : letter.isLower = true) :
    letter.toNat < 128 := by
  have hbounds : (decide (letter.val ≥ 'a'.val) && decide (letter.val ≤ 'z'.val)) = true := hletter
  have hle := of_decide_eq_true (Bool.and_eq_true_iff.mp hbounds).2
  exact Nat.lt_of_le_of_lt hle (by decide)

theorem toLower_of_isLower {letter : Char} (hletter : letter.isLower = true) :
    letter.toLower = letter := by
  have hall : ∀ n < 128, (Char.ofNat n).isLower = true →
      (Char.ofNat n).toLower = Char.ofNat n := by decide +kernel
  simpa using hall letter.toNat (ascii_of_isLower hletter) (by simpa using hletter)

theorem toLower_of_not_ascii {c : Char} (hc : 128 ≤ c.toNat) : c.toLower = c := by
  have hupper : ¬(c.val ≥ 'A'.val ∧ c.val ≤ 'Z'.val) := by
    rintro ⟨-, hle⟩
    have hlt : c.toNat < 128 := Nat.lt_of_le_of_lt hle (by decide)
    omega
  exact dif_neg hupper

theorem lowercase_kelvinSign : lowercase kelvinSign = ['k'] := by decide +kernel

theorem lowercase_dottedCapital : lowercase '\u0130' = ['i', '\u0307'] := rfl

theorem exists_lowercase_eq {c : Char} (hdotted : c ≠ '\u0130') : ∃ d, lowercase c = [d] := by
  rw [lowercase, if_neg hdotted]
  split
  · exact ⟨_, rfl⟩
  · exact ⟨_, rfl⟩

/-- A run of the table lies in ASCII, or is the Kelvin sign alone, or has its targets outside ASCII
and on one side of the surrogates. -/
theorem target_of_mem_caseRuns {run : CaseRun} (hmem : run ∈ caseRuns) :
    run.last < 128 ∨ run.first = kelvinSign.toNat ∧ run.last = kelvinSign.toNat ∨
      128 ≤ run.target ∧ (run.target + (run.last - run.first) < 0xD800 ∨
        0xDFFF < run.target ∧ run.target + (run.last - run.first) < 0x110000) := by
  have hall : caseRuns.all (fun run => decide (run.last < 128 ∨
      run.first = kelvinSign.toNat ∧ run.last = kelvinSign.toNat ∨
      128 ≤ run.target ∧ (run.target + (run.last - run.first) < 0xD800 ∨
        0xDFFF < run.target ∧ run.target + (run.last - run.first) < 0x110000))) = true := by
    decide +kernel
  exact of_decide_eq_true (List.all_eq_true.mp hall run hmem)

theorem not_ascii_of_covers {run : CaseRun} (hmem : run ∈ caseRuns) {n : Nat}
    (hcovers : run.covers n = true) (hn : 128 ≤ n) (hkelvin : n ≠ kelvinSign.toNat) :
    128 ≤ (Char.ofNat (run.map n)).toNat := by
  simp only [CaseRun.covers, Bool.and_eq_true, decide_eq_true_eq] at hcovers
  obtain ⟨⟨hfirst, hlast⟩, -⟩ := hcovers
  have htarget := target_of_mem_caseRuns hmem
  have hvalid : (run.map n).isValidChar := by
    unfold CaseRun.map Nat.isValidChar
    omega
  have hmap : (Char.ofNat (run.map n)).toNat = run.map n := by
    rw [Char.ofNat, dif_pos hvalid]
    rfl
  rw [hmap, CaseRun.map]
  omega

theorem exists_mem_lowercase {c : Char} (hc : 128 ≤ c.toNat) (hkelvin : c ≠ kelvinSign) :
    ∃ d ∈ lowercase c, 128 ≤ d.toNat := by
  by_cases hdotted : c = '\u0130'
  · subst hdotted
    exact ⟨'\u0307', by decide, by decide⟩
  rw [lowercase, if_neg hdotted]
  split
  · next run hrun =>
    have hne : c.toNat ≠ kelvinSign.toNat := fun hsame => hkelvin (Char.toNat_inj.mp hsame)
    have hcovers := List.find?_some hrun
    exact ⟨_, List.mem_singleton_self _,
      not_ascii_of_covers (List.mem_of_find?_eq_some hrun) hcovers hc hne⟩
  · exact ⟨c, List.mem_singleton_self c, hc⟩

theorem standsFor_iff {c letter : Char} (hletter : letter.isLower = true) :
    StandsFor c letter ↔ lowercase c = [letter] := by
  have hascii := ascii_of_isLower hletter
  rw [StandsFor, toLower_of_isLower hletter]
  by_cases hc : c.toNat < 128
  · have hkelvin : c ≠ kelvinSign := by
      rintro rfl
      exact absurd hc (by decide)
    rw [lowercase_of_ascii hc, List.singleton_inj]
    simp [hkelvin]
  · rw [toLower_of_not_ascii (Nat.le_of_not_lt hc)]
    have hne : c ≠ letter := by
      rintro rfl
      exact hc hascii
    by_cases hkelvin : c = kelvinSign
    · rw [hkelvin, lowercase_kelvinSign, List.singleton_inj, eq_comm (a := 'k')]
      simp [← hkelvin, hne]
    · refine iff_of_false (by simp [hne, hkelvin]) fun hlower => ?_
      obtain ⟨d, hd, hout⟩ := exists_mem_lowercase (Nat.le_of_not_lt hc) hkelvin
      rw [hlower, List.mem_singleton] at hd
      rw [hd] at hout
      omega

theorem LowercaseForm.eq_iff {text lowered : List Char} (hform : LowercaseForm text lowered)
    {letters : List Char} (hletters : ∀ letter ∈ letters, letter.isLower = true) :
    lowered = letters ↔ List.Forall₂ StandsFor text letters := by
  induction hform generalizing letters with
  | nil => rw [List.forall₂_nil_left_iff, eq_comm]
  | @cons c text lowered _ ih =>
    rw [List.forall₂_cons_left_iff]
    constructor
    · rintro rfl
      by_cases hdotted : c = '\u0130'
      · -- It leaves a combining dot behind, which is no letter.
        subst hdotted
        have hdot := hletters '\u0307' (by simp [lowercase_dottedCapital])
        exact absurd hdot (by decide)
      obtain ⟨letter, hlower⟩ := exists_lowercase_eq hdotted
      rw [hlower] at hletters ⊢
      refine ⟨letter, lowered, ?_, ?_, rfl⟩
      · exact (standsFor_iff (hletters letter (.head _))).mpr hlower
      · exact (ih fun other hother => hletters other (.tail _ hother)).mp rfl
    · rintro ⟨letter, rest, hstands, hrest, rfl⟩
      have hlower := (standsFor_iff (hletters letter (.head _))).mp hstands
      rw [hlower, (ih fun other hother => hletters other (.tail _ hother)).mpr hrest]
      rfl
  | @finalSigma text lowered _ _ =>
    refine iff_of_false ?_ ?_
    · rintro rfl
      exact absurd (hletters '\u03C2' (.head _)) (by decide)
    · intro hstands
      obtain ⟨letter, rest, hfirst, -, rfl⟩ := List.forall₂_cons_left_iff.mp hstands
      have hlower := (standsFor_iff (hletters letter (.head _))).mp hfirst
      obtain rfl : '\u03C3' = letter := (List.cons.inj hlower).1
      exact absurd (hletters '\u03C3' (.head _)) (by decide)

theorem standsFor_of_sameUpToCase {text letters : List Char} (hsame : SameUpToCase text letters) :
    List.Forall₂ StandsFor text letters := by
  have hequal : List.Forall₂ Eq (text.map Char.toLower) (letters.map Char.toLower) := by
    rwa [List.forall₂_eq_eq_eq]
  rw [List.forall₂_map_left_iff, List.forall₂_map_right_iff] at hequal
  exact hequal.imp fun _ _ => Or.inl

end Unicode
end IBLexer
