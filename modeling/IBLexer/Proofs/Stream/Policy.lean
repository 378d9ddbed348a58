import IBLexer.Scan.Stream

/-! The two policies take the same steps until the first fault. The strict one ends there
with the fault as its answer; the recovering one reports the same fault first. -/
namespace IBLexer

namespace Scanner

theorem recovering_append (scanner : Scanner) (before faults : Array Fault) :
    scanner.recovering (before ++ faults) =
      ((scanner.recovering faults).1, before.toList ++ (scanner.recovering faults).2) := by
  induction scanner, faults using recovering.induct with
  | case1 scanner faults fault moved hnext ih =>
    rw [recovering_of_error hnext, recovering_of_error hnext, Array.push_append, ih]
  | case2 scanner faults moved hnext ih =>
    rw [recovering_of_none hnext, recovering_of_none hnext, ih]
  | case3 scanner faults token moved hnext hend =>
    rw [recovering_of_end hnext hend, recovering_of_end hnext hend, Array.toList_append]
  | case4 scanner faults token moved hnext hend ih =>
    have hmore : token.isEndOfFile = false := by simpa using hend
    rw [recovering_of_token hnext hmore, recovering_of_token hnext hmore, ih]

theorem recovering_eq_append (scanner : Scanner) (faults : Array Fault) :
    scanner.recovering faults =
      ((scanner.recovering #[]).1, faults.toList ++ (scanner.recovering #[]).2) := by
  simpa using scanner.recovering_append faults #[]

theorem recovering_of_strict_ok {scanner : Scanner} {tokens : List Token}
    (hstrict : scanner.strict = .ok tokens) : scanner.recovering #[] = (tokens, []) := by
  induction scanner using strict.induct with
  | case1 scanner fault moved hnext =>
    rw [strict_of_error hnext] at hstrict
    contradiction
  | case2 scanner moved hnext ih =>
    rw [strict_of_none hnext] at hstrict
    rw [recovering_of_none hnext]
    exact ih hstrict
  | case3 scanner token moved hnext hend =>
    rw [strict_of_end hnext hend] at hstrict
    rw [recovering_of_end hnext hend, ← Except.ok.inj hstrict]
  | case4 scanner token moved hnext hend ih =>
    have hmore : token.isEndOfFile = false := by simpa using hend
    rw [strict_of_token hnext hmore] at hstrict
    rw [recovering_of_token hnext hmore]
    exact ih hstrict

theorem recovering_of_strict_error {scanner : Scanner} {fault : Fault}
    (hstrict : scanner.strict = .error fault) :
    (scanner.recovering #[]).2.head? = some fault := by
  induction scanner using strict.induct with
  | case1 scanner found moved hnext =>
    rw [strict_of_error hnext] at hstrict
    rw [recovering_of_error hnext, recovering_eq_append, ← Except.error.inj hstrict]
    rfl
  | case2 scanner moved hnext ih =>
    rw [strict_of_none hnext] at hstrict
    rw [recovering_of_none hnext]
    exact ih hstrict
  | case3 scanner token moved hnext hend =>
    rw [strict_of_end hnext hend] at hstrict
    contradiction
  | case4 scanner token moved hnext hend ih =>
    have hmore : token.isEndOfFile = false := by simpa using hend
    rw [strict_of_token hnext hmore] at hstrict
    rw [recovering_of_token hnext hmore]
    exact ih hstrict

theorem strict_eq_ok_iff {scanner : Scanner} {tokens : List Token} :
    scanner.strict = .ok tokens ↔ scanner.recovering #[] = (tokens, []) := by
  refine ⟨recovering_of_strict_ok, fun hrecovering => ?_⟩
  cases hstrict : scanner.strict with
  | ok found =>
    have hsame := (recovering_of_strict_ok hstrict).symm.trans hrecovering
    rw [(Prod.mk.inj hsame).1]
  | error fault =>
    have hfirst := recovering_of_strict_error hstrict
    rw [hrecovering] at hfirst
    contradiction

theorem strict_eq_error_iff {scanner : Scanner} {fault : Fault} :
    scanner.strict = .error fault ↔ (scanner.recovering #[]).2.head? = some fault := by
  refine ⟨recovering_of_strict_error, fun hfirst => ?_⟩
  cases hstrict : scanner.strict with
  | ok tokens =>
    rw [recovering_of_strict_ok hstrict] at hfirst
    contradiction
  | error found =>
    have hsame := (recovering_of_strict_error hstrict).symm.trans hfirst
    rw [Option.some.inj hsame]

end Scanner

/-- The tokens of a text under either policy. -/
def HasTokens (source : String) (file? : Option String) (tokens : List Token) : Prop :=
  tokenize source file? = .ok tokens ∨ (tokenizeRecovering source file?).1 = tokens

def HasFault (source : String) (file? : Option String) (fault : Fault) : Prop :=
  tokenize source file? = .error fault ∨ fault ∈ (tokenizeRecovering source file?).2

theorem HasTokens.eq {source : String} {file? : Option String} {tokens : List Token}
    (htokens : HasTokens source file? tokens) : (tokenizeRecovering source file?).1 = tokens := by
  rcases htokens with hstrict | hrecovering
  · exact congrArg Prod.fst (Scanner.strict_eq_ok_iff.mp hstrict)
  · exact hrecovering

theorem HasFault.mem {source : String} {file? : Option String} {fault : Fault}
    (hfault : HasFault source file? fault) : fault ∈ (tokenizeRecovering source file?).2 := by
  rcases hfault with hstrict | hrecovering
  · exact List.mem_of_head? (Scanner.strict_eq_error_iff.mp hstrict)
  · exact hrecovering

/-- Both policies accept the same texts with the same tokens, and a text that the strict
one refuses is refused for the fault that recovery meets first. -/
theorem tokenize_agrees_with_recovery (source : String) (file? : Option String) :
    (∀ tokens, tokenize source file? = .ok tokens ↔
      tokenizeRecovering source file? = (tokens, [])) ∧
    (∀ fault, tokenize source file? = .error fault ↔
      (tokenizeRecovering source file?).2.head? = some fault) :=
  ⟨fun _ => Scanner.strict_eq_ok_iff, fun _ => Scanner.strict_eq_error_iff⟩

end IBLexer
