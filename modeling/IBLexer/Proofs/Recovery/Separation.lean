import IBLexer.Proofs.Stream.Order
import Mathlib.Data.List.Infix

/-! Recovery gives up a line as far as the next line break. A carriage return is one, although
the positions behind it stay on the same line. So a run may report something to the right of a
fault, but then a carriage return stands between the two. -/
namespace IBLexer

def Position.ReturnBetween (text : List Char) (position next : Position) : Prop :=
  ∃ before between after, text = before ++ (between ++ after) ∧
    position = start.after before ∧ next = start.after (before ++ between) ∧ '\r' ∈ between

/-- Behind a carriage return a line has only blanks. -/
def ReturnsTrail (text : List Char) : Prop :=
  ∀ rest ∈ text.tails, rest.head? = some '\r' → (firstLine rest).all Unicode.isBlank = true

instance (text : List Char) : Decidable (ReturnsTrail text) :=
  inferInstanceAs (Decidable (∀ rest ∈ text.tails, rest.head? = some '\r' →
    (firstLine rest).all Unicode.isBlank = true))

structure Position.Apart (text : List Char) (position next : Position) : Prop where
  returnBetween : position.line = next.line → ReturnBetween text position next
  line_ne : ReturnsTrail text → position.line ≠ next.line

/-- A fault is the last of what is reported of its line, save for the end of the line. -/
structure FaultsEndLines (tokens : List Token) (faults : List Fault) : Prop where
  line_ne : faults.Pairwise fun fault next => fault.position.line ≠ next.position.line
  column_le : ∀ fault ∈ faults, ∀ token ∈ tokens,
    token.isEndOfLine = false → token.isEndOfFile = false →
    fault.position.line = token.position.line → token.position.column ≤ fault.position.column

theorem Piece.not_isBlank_first {piece : Piece} {rest : List Char} (hfits : piece.Fits rest)
    (hrule : piece.rule ≠ .blank) :
    ∃ c more, piece.text = c :: more ∧ Unicode.isBlank c = false := by
  obtain ⟨c, more, htext, hfirst⟩ := ofChar_first hfits
  exact ⟨c, more, htext, not_isBlank_of_ofChar (hfirst ▸ hrule)⟩

theorem Flaw.Fits.return_mem {flaw : Flaw} {piece : Piece} {between after : List Char}
    (hfits : flaw.Fits (between ++ (piece.text ++ after))) (hpiece : piece.Fits after)
    (hrule : piece.rule ≠ .blank) (hline : '\n' ∉ between) : '\r' ∈ between := by
  cases between with
  | nil =>
    -- A flaw reaches to a line break, which begins no such piece.
    obtain ⟨c, more, htext, hblank⟩ := Piece.not_isBlank_first hpiece hrule
    have hout := hfits.2.2 c (by simp [htext])
    rw [inLine_of_not_isBlank hblank] at hout
    contradiction
  | cons c between =>
    rw [List.mem_cons, not_or] at hline
    have hbreak : c = '\n' ∨ c = '\r' := break_of_not_inLine (hfits.2.2 c rfl)
    rw [hbreak.resolve_left (Ne.symm hline.1)]
    exact .head between

theorem not_returnsTrail {piece : Piece} {before between after : List Char}
    (hpiece : piece.Fits after) (hrule : piece.rule ≠ .blank) (hreturn : '\r' ∈ between)
    (hline : '\n' ∉ between) : ¬ReturnsTrail (before ++ (between ++ (piece.text ++ after))) := by
  intro htrail
  obtain ⟨above, blanks, rfl⟩ := List.append_of_mem hreturn
  obtain ⟨c, more, htext, hblank⟩ := Piece.not_isBlank_first hpiece hrule
  have hbreak : c ≠ '\n' := (ne_break_of_inLine (inLine_of_not_isBlank hblank)).1
  have hfeed : '\n' ∉ '\r' :: (blanks ++ [c]) := by
    simp only [List.mem_append, List.mem_cons, not_or] at hline
    simp [hline.2.2, Ne.symm hbreak]
  have htail : '\r' :: (blanks ++ [c]) ++ (more ++ after) ∈
      (before ++ ((above ++ '\r' :: blanks) ++ (piece.text ++ after))).tails := by
    rw [List.mem_tails]
    exact ⟨before ++ above, by simp [htext]⟩
  have hall := List.all_eq_true.mp (htrail _ htail rfl) c
  rw [firstLine_append hfeed, hblank] at hall
  exact absurd (hall (by simp)) (by simp)

theorem Piece.Occurs.apart {flaw : Flaw} {piece : Piece}
    {text before between front after : List Char}
    (hoccurs : (Piece.flawed flaw).Occurs text before (between ++ (piece.text ++ after)))
    (hpiece : piece.Fits after) (hrule : piece.rule ≠ .blank) (hfront : front <+: piece.text)
    (hlt : text.length + 1 < 2 ^ 32) :
    Position.Apart text (Position.start.after (before ++ flaw.front))
      (Position.start.after (before ++ (flaw.text ++ between) ++ front)) := by
  obtain ⟨back, hback⟩ := hfront
  have hreach : before ++ (flaw.text ++ between) ++ front =
      (before ++ flaw.front) ++ (flaw.back ++ (between ++ front)) := by
    simp only [← flaw.front_append_back, List.append_assoc]
  have htext : text =
      (before ++ flaw.front) ++ ((flaw.back ++ (between ++ front)) ++ (back ++ after)) := by
    rw [hoccurs.text_eq, ← hback, Piece.text, ← flaw.front_append_back]
    simp only [List.append_assoc]
  have hreached :
      ((before ++ flaw.front) ++ (flaw.back ++ (between ++ front))).length + 1 < 2 ^ 32 := by
    have hall := congrArg List.length htext
    simp only [List.length_append] at hall ⊢
    omega
  rw [hreach]
  by_cases hfeed : '\n' ∈ between
  · have hbelow := Position.line_after_lt_line_after (by simp [hfeed]) hreached
    exact ⟨fun hsame => absurd hsame (UInt32.ne_of_lt hbelow), fun _ => UInt32.ne_of_lt hbelow⟩
  · have hreturn := Flaw.Fits.return_mem hoccurs.fits hpiece hrule hfeed
    refine ⟨fun _ => ⟨_, _, _, htext, rfl, rfl, by simp [hreturn]⟩, fun htrail => ?_⟩
    rw [hoccurs.text_eq, ← List.append_assoc] at htrail
    exact absurd htrail (not_returnsTrail hpiece hrule hreturn hfeed)

namespace Tiling

variable {pieces : List Piece} {text : List Char} {file : String}

theorem pairwise_apart (htiling : Tiling pieces text) (hlt : text.length + 1 < 2 ^ 32) :
    (faultsFrom (.start file) pieces).Pairwise fun fault next =>
      Position.Apart text fault.position next.position := by
  refine htiling.pairwise_faultsFrom_of fun flaw other before between after hoccurs hother => ?_
  have hrule : (Piece.flawed other).rule ≠ .blank := by
    cases other <;> simp [Piece.rule, Flaw.rule]
  rw [Flaw.position_fault, Flaw.position_fault]
  exact hoccurs.apart hother hrule ⟨other.back, other.front_append_back⟩ hlt

theorem follows_or_follows (htiling : Tiling pieces text) {first second : Place × Piece}
    (hfirst : first ∈ locate (.start file) pieces) (hsecond : second ∈ locate (.start file) pieces)
    (hne : first ≠ second) : Follows file text first second ∨ Follows file text second first := by
  have hpairs : (locate (.start file) pieces).Pairwise (Follows file text) :=
    htiling.pairwise_locate
  refine List.Pairwise.forall_of_forall_of_flip
    (R := fun x y => x ≠ y → Follows file text x y ∨ Follows file text y x)
    ?_ ?_ ?_ hfirst hsecond hne
  · exact fun _ _ hself => absurd rfl hself
  · exact hpairs.imp fun hfollows _ => Or.inl hfollows
  · exact hpairs.imp fun hfollows _ => Or.inr hfollows

theorem apart_of_lt (htiling : Tiling pieces text) (hlt : text.length + 1 < 2 ^ 32) {fault : Fault}
    (hfault : fault ∈ faultsFrom (.start file) pieces) {token : Token}
    (htoken : token ∈ tokensFrom (.start file) pieces) (hend : token.isEndOfLine = false)
    (hbehind : fault.position < token.position) :
    Position.Apart text fault.position token.position := by
  obtain ⟨⟨here, first⟩, hfirst, hfault⟩ := List.mem_filterMap.mp hfault
  obtain ⟨⟨there, second⟩, hsecond, htoken⟩ := List.mem_filterMap.mp htoken
  cases first with
  | sound _ => contradiction
  | flawed flaw =>
    cases second with
    | flawed _ => contradiction
    | sound element =>
      cases hfault
      obtain ⟨hposition, htrivia, -⟩ := Element.token?_marks htoken
      rw [hend] at htrivia
      rw [hposition] at hbehind ⊢
      rcases htiling.follows_or_follows hfirst hsecond (by simp) with
        ⟨before, between, after, rfl, rfl, hoccurs, hsound⟩ |
        ⟨before, between, after, rfl, rfl, hoccurs, hflawed⟩
      · have hrule : (Piece.sound element).rule ≠ .blank := Element.rule_ne_blank htrivia.symm
        have hapart := hoccurs.apart hsound hrule List.nil_prefix hlt
        rw [List.append_nil] at hapart
        rwa [Flaw.position_fault]
      · -- The token would come first, so its position would be the smaller one.
        rw [Flaw.position_fault, List.append_assoc] at hbehind
        refine absurd (Position.after_lt_after_append ?_ ?_) (Position.not_lt_of_lt hbehind)
        · simp [Piece.text_ne_nil hoccurs.fits]
        · have hall := hoccurs.length_eq
          simp only [Piece.text, ← flaw.front_append_back, List.length_append] at hall ⊢
          omega

end Tiling

/-- What a run reports to the right of a fault stands behind a carriage return. So where
carriage returns only trail their lines, a fault is the last that is reported of its line. -/
theorem recovery_resumes_behind_return {source : String} (hlength : source.length ≤ 2 ^ 32 - 2)
    (file? : Option String) :
    ((tokenizeRecovering source file?).2.Pairwise fun fault next =>
      fault.position.line = next.position.line →
        Position.ReturnBetween source.toList fault.position next.position) ∧
    (∀ fault ∈ (tokenizeRecovering source file?).2, ∀ token ∈ (tokenizeRecovering source file?).1,
      token.isEndOfLine = false → token.isEndOfFile = false →
      fault.position.line = token.position.line →
      fault.position.column < token.position.column →
        Position.ReturnBetween source.toList fault.position token.position) ∧
    (ReturnsTrail source.toList →
      FaultsEndLines (tokenizeRecovering source file?).1 (tokenizeRecovering source file?).2) := by
  obtain ⟨pieces, htiling⟩ := Tiling.exists_of_text source.toList
  have hlt := length_toList_lt hlength
  have htokens : ∀ fault ∈ (tokenizeRecovering source file?).2,
      ∀ token ∈ (tokenizeRecovering source file?).1,
      token.isEndOfLine = false → token.isEndOfFile = false →
      fault.position.line = token.position.line →
      fault.position.column < token.position.column →
        Position.Apart source.toList fault.position token.position := by
    rw [tokenizeRecovering_of_tiling htiling]
    intro fault hfault token htoken hline hfile hsame hright
    rw [List.mem_append, List.mem_singleton] at htoken
    rcases htoken with htoken | rfl
    · exact htiling.apart_of_lt hlt hfault ((collapseAfter_sublist false _).subset htoken) hline
        (Position.lt_iff.mpr (Or.inr ⟨hsame, hright⟩))
    · contradiction
  have hfaults : (tokenizeRecovering source file?).2.Pairwise fun fault next =>
      Position.Apart source.toList fault.position next.position := by
    rw [tokenizeRecovering_of_tiling htiling]
    exact htiling.pairwise_apart hlt
  refine ⟨hfaults.imp fun hapart => hapart.returnBetween, ?_, fun htrail => ⟨?_, ?_⟩⟩
  · intro fault hfault token htoken hline hfile hsame hright
    exact (htokens fault hfault token htoken hline hfile hsame hright).returnBetween hsame
  · exact hfaults.imp fun hapart => hapart.line_ne htrail
  · intro fault hfault token htoken hline hfile hsame
    rw [← UInt32.not_lt]
    intro hright
    exact (htokens fault hfault token htoken hline hfile hsame hright).line_ne htrail hsame

/-- Of two hashes and a word with returns between them, and of two lines that end in both
breaks. -/
theorem recovery_resumes_behind_return_hashes :
    let source := "#\r#\rx"
    let lines := "# x\r\n/ y\r\n"
    source.length ≤ 2 ^ 32 - 2 ∧ lines.length ≤ 2 ^ 32 - 2 ∧
      Position.ReturnBetween source.toList ⟨1, 3⟩ ⟨1, 5⟩ ∧
      ReturnsTrail lines.toList ∧
      (tokenizeRecovering lines none).2.map Fault.position = [⟨1, 1⟩, ⟨2, 2⟩] ∧
      FaultsEndLines (tokenizeRecovering lines none).1 (tokenizeRecovering lines none).2 := by
  intro source lines
  have hlength : source.length ≤ 2 ^ 32 - 2 := by decide
  have hlength' : lines.length ≤ 2 ^ 32 - 2 := by decide
  have htrail : ReturnsTrail lines.toList := by decide +kernel
  have hrun : tokenizeRecovering source none =
      ([⟨.identifier "x", "x", ⟨1, 5⟩⟩, .endOfFile ⟨1, 6⟩],
        [⟨.unhandledCharacter '#', ⟨1, 1⟩, "shell", "#"⟩,
          ⟨.unhandledCharacter '#', ⟨1, 3⟩, "shell", "#\r#"⟩]) := by
    decide +kernel
  obtain ⟨-, htokens, -⟩ := recovery_resumes_behind_return hlength none
  obtain ⟨-, -, hlines⟩ := recovery_resumes_behind_return hlength' none
  rw [hrun] at htokens
  exact ⟨hlength, hlength', htokens ⟨.unhandledCharacter '#', ⟨1, 3⟩, "shell", "#\r#"⟩ (by simp)
    ⟨.identifier "x", "x", ⟨1, 5⟩⟩ (by simp) rfl rfl rfl (by decide), htrail, by decide +kernel,
    hlines htrail⟩

/-- A carriage return inside a line brings a second fault and then a word on the line of the
first one. -/
theorem faults_share_line :
    let source := "#\r#\rx"
    let (tokens, faults) := tokenizeRecovering source none
    source.length ≤ 2 ^ 32 - 2 ∧
      (¬faults.Pairwise fun fault next => fault.position.line ≠ next.position.line) ∧
      ∃ fault ∈ faults, ∃ token ∈ tokens,
        token.isEndOfLine = false ∧ token.isEndOfFile = false ∧
          token.position.line = fault.position.line ∧
          fault.position.column < token.position.column := by
  decide +kernel

end IBLexer
