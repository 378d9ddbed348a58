import IBLexer.CommandLine.Run
import IBLexer.Proofs.CommandLine.Arguments
import IBLexer.Proofs.Source.Loading
import IBLexer.Proofs.Stream.Policy

/-! What a file amounts to is settled before any flag is regarded; the flags choose only how much
of it is printed. So neither of them changes the exit status or the standard error. -/
namespace IBLexer.CommandLine

inductive Verdict where
  | unreadable (path : String) (error : LoadError)
  | accepted (name : String) (tokens : List Token)
  /-- The first fault, and those behind it that only recovery meets. -/
  | refused (first : Fault) (more : List Fault)
deriving DecidableEq, Repr

def verdict (read : String → Except ReadError Bytes) (path : String) : Verdict :=
  match SourceFile.load read path with
  | .error error => .unreadable path error
  | .ok source =>
    match source.tokenize with
    | .ok tokens => .accepted source.name tokens
    | .error fault => .refused fault source.tokenizeRecovering.2.tail

namespace Verdict

def outcome (printTokens recover : Bool) : Verdict → Outcome
  | unreadable path error => loadFailure path error
  | accepted name tokens => ⟨0, if printTokens then Listing.render name tokens else "", ""⟩
  | refused first more =>
    ⟨1, String.join ((first :: if recover then more else []).map Fault.report), ""⟩

theorem status_outcome_eq_zero_iff {verdict : Verdict} {printTokens recover : Bool} :
    (verdict.outcome printTokens recover).status = 0 ↔
      ∃ name tokens, verdict = accepted name tokens := by
  cases verdict <;> simp [outcome, loadFailure]

theorem outcome_recover (verdict : Verdict) (printTokens : Bool) :
    (verdict.outcome printTokens true).status = (verdict.outcome printTokens false).status ∧
      (verdict.outcome printTokens true).stderr = (verdict.outcome printTokens false).stderr ∧
      (verdict.outcome printTokens false).stdout.toList <+:
        (verdict.outcome printTokens true).stdout.toList ∧
      ((verdict.outcome printTokens false).status = 0 →
        (verdict.outcome printTokens true).stdout = (verdict.outcome printTokens false).stdout) := by
  cases verdict with
  | unreadable _ _ => exact ⟨rfl, rfl, List.prefix_rfl, fun _ => rfl⟩
  | accepted _ _ => exact ⟨rfl, rfl, List.prefix_rfl, fun _ => rfl⟩
  | refused first more =>
    refine ⟨rfl, rfl, ?_, fun hzero => absurd hzero Nat.one_ne_zero⟩
    simp only [outcome, if_true, Bool.false_eq_true, if_false, List.map_cons, List.map_nil,
      String.join_cons, String.toList_append]
    simp

theorem outcome_printTokens (verdict : Verdict) (recover : Bool) :
    (verdict.outcome true recover).status = (verdict.outcome false recover).status ∧
      (verdict.outcome true recover).stderr = (verdict.outcome false recover).stderr ∧
      ((verdict.outcome false recover).status ≠ 0 →
        (verdict.outcome true recover).stdout = (verdict.outcome false recover).stdout) ∧
      ((verdict.outcome false recover).status = 0 →
        (verdict.outcome false recover).stdout = "" ∧ ∃ name tokens,
          verdict = accepted name tokens ∧
            (verdict.outcome true recover).stdout = Listing.render name tokens) := by
  cases verdict with
  | unreadable _ _ => exact ⟨rfl, rfl, fun _ => rfl, fun hzero => absurd hzero Nat.one_ne_zero⟩
  | accepted name tokens =>
    exact ⟨rfl, rfl, fun hfailed => absurd rfl hfailed, fun _ => ⟨rfl, name, tokens, rfl, rfl⟩⟩
  | refused _ _ => exact ⟨rfl, rfl, fun _ => rfl, fun hzero => absurd hzero Nat.one_ne_zero⟩

end Verdict

theorem Options.run_eq_outcome (options : Options) (read : String → Except ReadError Bytes) :
    options.run read =
      (verdict read options.file).outcome options.printTokens options.recover := by
  unfold run verdict
  cases SourceFile.load read options.file with
  | error error => rfl
  | ok source =>
    dsimp only
    cases htokenize : source.tokenize with
    | ok tokens =>
      have hrecovering : source.tokenizeRecovering = (tokens, []) :=
        Scanner.strict_eq_ok_iff.mp htokenize
      have hscan : scan source options.recover = (tokens, []) := by
        rw [scan, hrecovering, htokenize, ite_self]
      rw [hscan]
      rfl
    | error fault =>
      -- Both ways to scan meet the same fault first.
      have hhead : source.tokenizeRecovering.2.head? = some fault :=
        Scanner.strict_eq_error_iff.mp htokenize
      obtain ⟨more, hfaults⟩ := List.head?_eq_some_iff.mp hhead
      have hscan : (scan source options.recover).2 =
          fault :: if options.recover then source.tokenizeRecovering.2.tail else [] := by
        rw [scan, htokenize, hfaults]
        split <;> simp_all
      dsimp only [Verdict.outcome]
      rw [hscan]
      rfl

def loadedName (path : String) : String := (Path.fileName? path).getD path

/-- The file can be read, its bytes are UTF-8, and its text has these tokens and no fault. -/
def Accepts (read : String → Except ReadError Bytes) (path : String) (tokens : List Token) : Prop :=
  ∃ contents, read path = .ok (Utf8.encode contents) ∧
    tokenize contents (some (loadedName path)) = .ok tokens

theorem Accepts.unique {read : String → Except ReadError Bytes} {path : String}
    {tokens others : List Token} (haccepts : Accepts read path tokens)
    (hothers : Accepts read path others) : tokens = others := by
  obtain ⟨contents, hread, htokens⟩ := haccepts
  obtain ⟨same, hsame, hothers⟩ := hothers
  obtain rfl : contents = same := Utf8.encode_injective (Except.ok.inj (hread.symm.trans hsame))
  exact Except.ok.inj (htokens.symm.trans hothers)

theorem load_eq_ok_iff {read : String → Except ReadError Bytes} {path : String}
    {source : SourceFile} : SourceFile.load read path = .ok source ↔
      source.name = loadedName path ∧ read path = .ok (Utf8.encode source.contents) := by
  unfold SourceFile.load
  cases read path with
  | error error => simp
  | ok bytes =>
    dsimp only
    rw [SourceFile.ofBytes_eq_ok_iff, Except.ok.injEq]
    rfl

theorem verdict_eq_accepted_iff {read : String → Except ReadError Bytes} {path name : String}
    {tokens : List Token} :
    verdict read path = .accepted name tokens ↔
      name = loadedName path ∧ Accepts read path tokens := by
  constructor
  · intro hverdict
    unfold verdict at hverdict
    split at hverdict
    · contradiction
    · next source hload =>
      split at hverdict
      · next htokens =>
        cases hverdict
        obtain ⟨hname, hread⟩ := load_eq_ok_iff.mp hload
        rw [SourceFile.tokenize, hname] at htokens
        exact ⟨hname, source.contents, hread, htokens⟩
      · contradiction
  · rintro ⟨rfl, contents, hread, htokens⟩
    have hload : SourceFile.load read path = .ok ⟨loadedName path, contents⟩ :=
      load_eq_ok_iff.mpr ⟨rfl, hread⟩
    have hsource : SourceFile.tokenize ⟨loadedName path, contents⟩ = .ok tokens := htokens
    rw [verdict, hload]
    dsimp only
    rw [hsource]

/-- All that the outcome of a run needs of a parser: it reads arguments as they are meant,
whatever their order. -/
def ReadsAsked (parser : List String → Except UsageError Request) : Prop :=
  ∀ arguments file? printTokens recover, Asks arguments file? printTokens recover →
    ∀ program, parser (program :: arguments) =
      .ok (.run ⟨file?.getD defaultPath, printTokens, recover⟩)

theorem readsAsked_parse : ReadsAsked parse := by
  intro arguments file? printTokens recover hasks program
  exact hasks.parse_eq program

namespace ReadsAsked

variable {parser : List String → Except UsageError Request} {file? : Option String}
  {printTokens recover : Bool}

theorem answer_eq_outcome (hparser : ReadsAsked parser) (read : String → Except ReadError Bytes)
    (program : String) {arguments : List String} (hasks : Asks arguments file? printTokens recover) :
    answer read (parser (program :: arguments)) =
      (verdict read (file?.getD defaultPath)).outcome printTokens recover := by
  rw [hparser arguments file? printTokens recover hasks program]
  exact Options.run_eq_outcome _ read

theorem answer_recover (hparser : ReadsAsked parser) (read : String → Except ReadError Bytes)
    (program : String) {stopping recovering : List String}
    (hstopping : Asks stopping file? printTokens false)
    (hrecovering : Asks recovering file? printTokens true) :
    let plain := answer read (parser (program :: stopping))
    let recovered := answer read (parser (program :: recovering))
    recovered.status = plain.status ∧ recovered.stderr = plain.stderr ∧
      plain.stdout.toList <+: recovered.stdout.toList ∧
      (plain.status = 0 → recovered.stdout = plain.stdout) := by
  rw [hparser.answer_eq_outcome read program hstopping,
    hparser.answer_eq_outcome read program hrecovering]
  exact Verdict.outcome_recover _ printTokens

theorem status_answer_eq_zero_iff (hparser : ReadsAsked parser)
    (read : String → Except ReadError Bytes) (program : String) {arguments : List String}
    (hasks : Asks arguments file? printTokens recover) :
    (answer read (parser (program :: arguments))).status = 0 ↔
      ∃ tokens, Accepts read (file?.getD defaultPath) tokens := by
  rw [hparser.answer_eq_outcome read program hasks, Verdict.status_outcome_eq_zero_iff]
  constructor
  · rintro ⟨name, tokens, hverdict⟩
    exact ⟨tokens, (verdict_eq_accepted_iff.mp hverdict).2⟩
  · rintro ⟨tokens, haccepts⟩
    exact ⟨_, tokens, verdict_eq_accepted_iff.mpr ⟨rfl, haccepts⟩⟩

theorem answer_printTokens (hparser : ReadsAsked parser) (read : String → Except ReadError Bytes)
    (program : String) {quiet listing : List String} (hquiet : Asks quiet file? false recover)
    (hlisting : Asks listing file? true recover) :
    let path := file?.getD defaultPath
    let plain := answer read (parser (program :: quiet))
    let listed := answer read (parser (program :: listing))
    listed.status = plain.status ∧ listed.stderr = plain.stderr ∧
      (plain.status ≠ 0 → listed.stdout = plain.stdout) ∧
      (plain.status = 0 → plain.stdout = "" ∧ ∃ tokens, Accepts read path tokens ∧
        listed.stdout = Listing.render (loadedName path) tokens) := by
  rw [hparser.answer_eq_outcome read program hquiet,
    hparser.answer_eq_outcome read program hlisting]
  obtain ⟨hstatus, hstderr, hfailed, hlisted⟩ :=
    Verdict.outcome_printTokens (verdict read (file?.getD defaultPath)) recover
  refine ⟨hstatus, hstderr, hfailed, fun hzero => ?_⟩
  obtain ⟨hempty, name, tokens, hverdict, hstdout⟩ := hlisted hzero
  obtain ⟨rfl, haccepts⟩ := verdict_eq_accepted_iff.mp hverdict
  exact ⟨hempty, tokens, haccepts, hstdout⟩

end ReadsAsked

/-- The flags decide how much is printed, and neither the exit status nor the errors: a run
succeeds exactly when its file is accepted, recovery only adds to the reports of a run that
fails, and the listing is printed by a run that succeeds. -/
theorem flags_keep_verdict (read : String → Except ReadError Bytes) (program : String)
    (file? : Option String) :
    let path := file?.getD defaultPath
    (∀ printTokens stopping recovering,
      Asks stopping file? printTokens false → Asks recovering file? printTokens true →
      let plain := run read (program :: stopping)
      let recovered := run read (program :: recovering)
      recovered.status = plain.status ∧ recovered.stderr = plain.stderr ∧
        plain.stdout.toList <+: recovered.stdout.toList ∧
        (plain.status = 0 → recovered.stdout = plain.stdout)) ∧
    (∀ printTokens recover arguments, Asks arguments file? printTokens recover →
      ((run read (program :: arguments)).status = 0 ↔ ∃ tokens, Accepts read path tokens)) ∧
    (∀ recover quiet listing, Asks quiet file? false recover → Asks listing file? true recover →
      let plain := run read (program :: quiet)
      let listed := run read (program :: listing)
      listed.status = plain.status ∧ listed.stderr = plain.stderr ∧
        (plain.status ≠ 0 → listed.stdout = plain.stdout) ∧
        (plain.status = 0 → plain.stdout = "" ∧ ∃ tokens, Accepts read path tokens ∧
          listed.stdout = Listing.render (loadedName path) tokens)) := by
  refine ⟨?_, ?_, ?_⟩
  · intro printTokens stopping recovering hstopping hrecovering
    exact readsAsked_parse.answer_recover read program hstopping hrecovering
  · intro printTokens recover arguments hasks
    exact readsAsked_parse.status_answer_eq_zero_iff read program hasks
  · intro recover quiet listing hquiet hlisting
    exact readsAsked_parse.answer_printTokens read program hquiet hlisting

/-- A file with two faults, and one that is accepted. -/
theorem flags_keep_verdict_files :
    let read : String → Except ReadError Bytes := fun path =>
      if path = "lib/a.ib" then .ok (Utf8.encode "#\n/ é")
      else if path = "b.ib" then .ok (Utf8.encode "é")
      else .error .notFound
    let stopping := ["--tokens", "lib/a.ib"]
    let recovering := ["lib/a.ib", "--recover", "--tokens"]
    let quiet := ["b.ib"]
    let listing := ["--tokens", "b.ib"]
    let tokens : List Token := [⟨.identifier "é", "é", ⟨1, 1⟩⟩, .endOfFile ⟨1, 2⟩]
    Asks stopping (some "lib/a.ib") true false ∧ Asks recovering (some "lib/a.ib") true true ∧
      (run read ("iblang" :: stopping)).status = 1 ∧
      (run read ("iblang" :: recovering)).status = 1 ∧
      (run read ("iblang" :: stopping)).stdout.toList <+:
        (run read ("iblang" :: recovering)).stdout.toList ∧
      Asks quiet (some "b.ib") false false ∧ Asks listing (some "b.ib") true false ∧
      (run read ("iblang" :: quiet)).status = 0 ∧ (run read ("iblang" :: listing)).status = 0 ∧
      (run read ("iblang" :: quiet)).stdout = "" ∧ Accepts read "b.ib" tokens ∧
      (run read ("iblang" :: listing)).stdout = Listing.render (loadedName "b.ib") tokens := by
  intro read stopping recovering quiet listing tokens
  have hstopping : Asks stopping (some "lib/a.ib") true false := ⟨by simp [isPath], by decide⟩
  have hrecovering : Asks recovering (some "lib/a.ib") true true := ⟨by simp [isPath], by decide⟩
  have hquiet : Asks quiet (some "b.ib") false false := ⟨by simp [isPath], by decide⟩
  have hlisting : Asks listing (some "b.ib") true false := ⟨by simp [isPath], by decide⟩
  have hone : (run read ("iblang" :: stopping)).status = 1 := by decide +kernel
  have hzero : (run read ("iblang" :: quiet)).status = 0 := by decide +kernel
  obtain ⟨hrecover, -, -⟩ := flags_keep_verdict read "iblang" (some "lib/a.ib")
  obtain ⟨hstatus, -, hprefix, -⟩ := hrecover true stopping recovering hstopping hrecovering
  obtain ⟨-, haccepts, hprints⟩ := flags_keep_verdict read "iblang" (some "b.ib")
  have hlisted : (run read ("iblang" :: listing)).status = 0 :=
    (haccepts true false listing hlisting).mpr ((haccepts false false quiet hquiet).mp hzero)
  obtain ⟨-, -, -, hstdout⟩ := hprints false quiet listing hquiet hlisting
  obtain ⟨hempty, scanned, hscanned, hrender⟩ := hstdout hzero
  have htokens : Accepts read "b.ib" tokens :=
    ⟨"é", rfl, Scanner.strict_eq_ok_iff.mpr (by decide +kernel)⟩
  rw [hscanned.unique htokens] at hrender
  exact ⟨hstopping, hrecovering, hone, hstatus.trans hone, hprefix, hquiet, hlisting, hzero,
    hlisted, hempty, htokens, hrender⟩

end IBLexer.CommandLine
