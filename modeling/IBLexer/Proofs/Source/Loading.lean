import IBLexer.Proofs.Text.Decoding
import IBLexer.Source.SourceFile

/-! Loading changes nothing in a text, and bytes that are no text are refused with the place where
their text ends. -/
namespace IBLexer.SourceFile

theorem ofBytes_eq_ok_iff {name : String} {bytes : Bytes} {source : SourceFile} :
    ofBytes name bytes = .ok source ↔ source.name = name ∧ bytes = Utf8.encode source.contents := by
  unfold ofBytes
  rw [← Utf8.decode_eq_ok_iff]
  cases Utf8.decode bytes with
  | error defect => simp
  | ok contents =>
    dsimp only
    constructor
    · rintro ⟨⟩
      exact ⟨rfl, rfl⟩
    · rintro ⟨rfl, hcontents⟩
      rw [Except.ok.inj hcontents]

theorem ofBytes_eq_error_iff {name : String} {bytes : Bytes} {error : LoadError} :
    ofBytes name bytes = .error error ↔
      ∃ defect, error = .invalidText defect ∧ Utf8.decode bytes = .error defect := by
  unfold ofBytes
  cases Utf8.decode bytes with
  | error defect => simp [eq_comm]
  | ok contents => simp

theorem message_of_halts {index : Nat} {bytes : Bytes} {defect : Utf8.Defect}
    (hhalts : Utf8.Halts index bytes defect) :
    (defect.message = s!"incomplete utf-8 byte sequence from index {index}" ↔
      Utf8.Unfinished bytes) ∧
    (¬Utf8.Unfinished bytes → ∃ length, IsGreatest (Utf8.faultyLengths bytes) length ∧
      defect.message = s!"invalid utf-8 sequence of {length} bytes from index {index}") := by
  cases hhalts with
  | incomplete hunfinished =>
    exact ⟨⟨fun _ => hunfinished, fun _ => rfl⟩, fun hnot => absurd hunfinished hnot⟩
  | invalid hgreatest =>
    have hnot := Utf8.not_unfinished_of_isGreatest hgreatest
    refine ⟨⟨fun hmessage => ?_, fun hunfinished => absurd hunfinished hnot⟩, fun _ => ?_⟩
    · exact absurd hmessage (Utf8.Defect.message_invalid_ne _ _ _)
    · exact ⟨_, hgreatest, rfl⟩

/-- The encoded texts are loaded, each as the text that it encodes. Other bytes are refused at the
end of the longest text that they begin with, and the message tells a character that their end
cuts off from bytes that begin no character. -/
theorem ofBytes_lossless_and_strict (name : String) (bytes : Bytes) :
    (∀ source, ofBytes name bytes = .ok source ↔
      source.name = name ∧ Utf8.encode source.contents = bytes) ∧
    ((∃ defect, ofBytes name bytes = .error (.invalidText defect)) ↔
      ∀ text, Utf8.encode text ≠ bytes) ∧
    ∀ defect, ofBytes name bytes = .error (.invalidText defect) →
      let message := (LoadError.invalidText defect).message
      let rest := bytes.drop defect.index
      IsGreatest (Utf8.textLengths bytes) defect.index ∧
      (message = s!"incomplete utf-8 byte sequence from index {defect.index}" ↔
        Utf8.Unfinished rest) ∧
      (¬Utf8.Unfinished rest → ∃ length, IsGreatest (Utf8.faultyLengths rest) length ∧
        message = s!"invalid utf-8 sequence of {length} bytes from index {defect.index}") := by
  refine ⟨fun source => ?_, ⟨?_, fun hnone => ?_⟩, fun defect herror => ?_⟩
  · rw [ofBytes_eq_ok_iff, eq_comm (a := bytes)]
  · rintro ⟨defect, herror⟩ text rfl
    have hload : ofBytes name (Utf8.encode text) = .ok ⟨name, text⟩ :=
      ofBytes_eq_ok_iff.mpr ⟨rfl, rfl⟩
    rw [hload] at herror
    contradiction
  · cases hload : ofBytes name bytes with
    | ok source => exact absurd (ofBytes_eq_ok_iff.mp hload).2.symm (hnone source.contents)
    | error error =>
      obtain ⟨defect, rfl, -⟩ := ofBytes_eq_error_iff.mp hload
      exact ⟨defect, rfl⟩
  · obtain ⟨found, hfound, hdecode⟩ := ofBytes_eq_error_iff.mp herror
    cases hfound
    obtain ⟨hgreatest, hhalts⟩ := Utf8.isGreatest_of_decode hdecode
    exact ⟨hgreatest, message_of_halts hhalts⟩

/-- Behind a byte order mark, a null character and a carriage return stands half of a surrogate
pair; a character of four bytes lacks its last. -/
theorem ofBytes_lossless_and_strict_surrogate :
    let surrogate : Bytes := [0xEF, 0xBB, 0xBF, 0x00, 0x0D, 0xED, 0xA0, 0x80]
    let short : Bytes := [0x78, 0xF0, 0x9F, 0x98]
    ofBytes "a.ib" surrogate = .error (.invalidText (.invalid 1 5)) ∧
      (∀ text, Utf8.encode text ≠ surrogate) ∧
      IsGreatest (Utf8.textLengths surrogate) 5 ∧ ¬Utf8.Unfinished [0xED, 0xA0, 0x80] ∧
      ofBytes "a.ib" short = .error (.invalidText (.incomplete 1)) ∧
      IsGreatest (Utf8.textLengths short) 1 ∧ Utf8.Unfinished [0xF0, 0x9F, 0x98] := by
  intro surrogate short
  have hsurrogate : ofBytes "a.ib" surrogate = .error (.invalidText (.invalid 1 5)) := rfl
  have hshort : ofBytes "a.ib" short = .error (.invalidText (.incomplete 1)) := rfl
  obtain ⟨-, hrefused, hdescribed⟩ := ofBytes_lossless_and_strict "a.ib" surrogate
  obtain ⟨hplace, hincomplete, -⟩ := hdescribed _ hsurrogate
  obtain ⟨hcut, hunfinished, -⟩ := (ofBytes_lossless_and_strict "a.ib" short).2.2 _ hshort
  refine ⟨hsurrogate, hrefused.mp ⟨_, hsurrogate⟩, hplace, ?_, hshort, hcut, hunfinished.mp rfl⟩
  exact fun hrest => Utf8.Defect.message_invalid_ne 1 5 5 (hincomplete.mpr hrest)

end IBLexer.SourceFile
