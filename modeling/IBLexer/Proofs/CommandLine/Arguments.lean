import IBLexer.CommandLine.Request

/-! The flags of a run and its file may be given in any order. Each flag and the file are noted
by themselves, and in the end only which flags were noted counts. -/
namespace IBLexer.CommandLine

namespace Flag

def spelling (flag : Flag) : String := "--" ++ flag.name

def ofSpelling? (argument : String) : Option Flag :=
  [tokens, recover].find? fun flag => flag.spelling == argument

theorem ofSpelling?_eq_some {argument : String} {flag : Flag}
    (hflag : ofSpelling? argument = some flag) :
    argument = flag.spelling ∧ (flag = tokens ∨ flag = recover) := by
  have hspelling := List.find?_some hflag
  have hmem := List.mem_of_find?_eq_some hflag
  exact ⟨(beq_iff_eq.mp hspelling).symm, by simpa using hmem⟩

end Flag

def flags (printTokens recover : Bool) : List Flag :=
  (if printTokens then [.tokens] else []) ++ if recover then [.recover] else []

theorem eq_of_mem_flags {printTokens recover : Bool} {flag : Flag}
    (hflag : flag ∈ flags printTokens recover) : flag = .tokens ∨ flag = .recover := by
  cases printTokens <;> cases recover <;> simp_all [flags]

def isPath (argument : String) : Bool := argument.toList.head? != some '-'

/-- The arguments name the file, if there is one, and the flags, in some order. -/
structure Asks (arguments : List String) (file? : Option String) (printTokens recover : Bool) :
    Prop where
  isPath : ∀ file ∈ file?, isPath file = true
  perm : arguments.Perm (file?.toList ++ (flags printTokens recover).map Flag.spelling)

namespace Progress

/-- No name of a flag begins with a dash or holds an equals sign, so it is read back whole. -/
theorem step_spelling {progress : Progress} (hopen : progress.flagsEnded = false) (flag : Flag) :
    progress.step flag.spelling = progress.takeFlag flag := by
  have hletters : flag.spelling.toList = '-' :: '-' :: flag.name.toList := by cases flag <;> decide
  have hne : flag.name.toList ≠ [] := by cases flag <;> decide
  have hlong : longName flag.name.toList = flag.name.toList := by cases flag <;> decide
  have hflag : Flag.ofName? flag.name = some flag := by cases flag <;> decide
  obtain ⟨c, more, hname⟩ := List.exists_cons_of_ne_nil hne
  simp only [step, hopen, Bool.false_eq_true, if_false, hletters, hname]
  rw [← hname, hlong, String.ofList_toList, takeLong, hflag]

theorem step_of_flag {progress : Progress} (hopen : progress.flagsEnded = false)
    {argument : String} {flag : Flag} (hflag : Flag.ofSpelling? argument = some flag) :
    progress.step argument = .ok { progress with used := progress.used ++ [flag] } := by
  obtain ⟨rfl, rfl | rfl⟩ := Flag.ofSpelling?_eq_some hflag
  · exact step_spelling hopen .tokens
  · exact step_spelling hopen .recover

theorem step_of_isPath {progress : Progress} (hnone : progress.file? = none)
    {argument : String} (hpath : isPath argument = true) :
    progress.step argument = .ok { progress with file? := some argument } := by
  have htake : progress.takeFile argument = .ok { progress with file? := some argument } := by
    rw [takeFile, hnone]
    rfl
  have hdash : ∀ more, argument.toList ≠ '-' :: more := by
    intro more hmore
    simp [isPath, hmore] at hpath
  unfold step
  split
  · exact htake
  · -- The first three patterns begin with a dash.
    split
    · exact absurd ‹_› (hdash _)
    · exact absurd ‹_› (hdash _)
    · exact absurd ‹_› (hdash _)
    · exact htake

def note (progress : Progress) (arguments : List String) : Progress :=
  { progress with
    used := progress.used ++ arguments.filterMap Flag.ofSpelling?
    file? := progress.file?.or (arguments.filter isPath).head? }

/-- As long as one file at most is named, the arguments are noted one by one. -/
theorem foldlM_step (progress : Progress) {arguments : List String}
    (hopen : progress.flagsEnded = false)
    (hknown : ∀ argument ∈ arguments, isPath argument = (Flag.ofSpelling? argument).isNone)
    (hone : progress.file?.toList.length + (arguments.filter isPath).length ≤ 1) :
    arguments.foldlM step progress = .ok (progress.note arguments) := by
  induction arguments generalizing progress with
  | nil => simp [note, pure, Except.pure]
  | cons argument arguments ih =>
    have hrest := fun other hother => hknown other (.tail argument hother)
    have hfirst := hknown argument (.head arguments)
    rw [List.foldlM_cons]
    cases hflag : Flag.ofSpelling? argument with
    | some flag =>
      rw [hflag, Option.isNone_some] at hfirst
      rw [List.filter_cons_of_neg (by simp [hfirst])] at hone
      rw [step_of_flag hopen hflag]
      refine (ih { progress with used := progress.used ++ [flag] } hopen hrest hone).trans ?_
      simp [note, hflag, hfirst]
    | none =>
      rw [hflag, Option.isNone_none] at hfirst
      rw [List.filter_cons_of_pos hfirst, List.length_cons] at hone
      have hempty : progress.file?.toList.length = 0 := by omega
      have hnone : progress.file? = none := by
        rwa [Option.length_toList_eq_zero_iff] at hempty
      rw [step_of_isPath hnone hfirst]
      refine (ih { progress with file? := some argument } hopen hrest ?_).trans ?_
      · change 1 + (arguments.filter isPath).length ≤ 1
        omega
      · simp [note, hflag, hfirst, hnone]

theorem finish_of_perm {progress : Progress} {printTokens recover : Bool}
    (hused : progress.used.Perm (flags printTokens recover)) :
    progress.finish = .ok (.run ⟨progress.file?.getD defaultPath, printTokens, recover⟩) := by
  have hcount : ∀ flag, progress.used.count flag ≤ 1 := by
    intro flag
    rw [hused.count_eq]
    cases printTokens <;> cases recover <;> cases flag <;> decide
  have hnone : Flag.all.find? (fun flag => decide (1 < progress.used.count flag)) = none := by
    rw [List.find?_eq_none]
    intro flag _
    simpa using hcount flag
  have htokens : progress.used.contains .tokens = printTokens := by
    rw [hused.contains_eq]
    cases printTokens <;> cases recover <;> rfl
  have hrecover : progress.used.contains .recover = recover := by
    rw [hused.contains_eq]
    cases printTokens <;> cases recover <;> rfl
  rw [finish, hnone, htokens, hrecover]

end Progress

theorem ofSpelling?_of_isPath {argument : String} (hpath : isPath argument = true) :
    Flag.ofSpelling? argument = none := by
  rw [Option.eq_none_iff_forall_not_mem]
  intro flag hflag
  obtain ⟨rfl, rfl | rfl⟩ := Flag.ofSpelling?_eq_some hflag
  · exact absurd hpath (by decide)
  · exact absurd hpath (by decide)

namespace Asks

variable {arguments : List String} {file? : Option String} {printTokens recover : Bool}

theorem isPath_eq (hasks : Asks arguments file? printTokens recover) :
    ∀ argument ∈ arguments,
      CommandLine.isPath argument = (Flag.ofSpelling? argument).isNone := by
  intro argument hmem
  rw [hasks.perm.mem_iff, List.mem_append, Option.mem_toList, List.mem_map] at hmem
  rcases hmem with hfile | ⟨flag, hflag, rfl⟩
  · have hpath := hasks.isPath argument hfile
    rw [hpath, ofSpelling?_of_isPath hpath, Option.isNone_none]
  · rcases eq_of_mem_flags hflag with rfl | rfl <;> decide

theorem filter_isPath (hasks : Asks arguments file? printTokens recover) :
    arguments.filter CommandLine.isPath = file?.toList := by
  have hflags : ((flags printTokens recover).map Flag.spelling).filter CommandLine.isPath = [] := by
    cases printTokens <;> cases recover <;> decide
  have hfile : file?.toList.filter CommandLine.isPath = file?.toList := by
    rw [List.filter_eq_self]
    intro file hfile
    exact hasks.isPath file (Option.mem_toList.mp hfile)
  have hperm := hasks.perm.filter CommandLine.isPath
  rw [List.filter_append, hflags, hfile, List.append_nil] at hperm
  cases file? with
  | none => exact hperm.eq_nil
  | some file => exact hperm.eq_singleton

theorem perm_flags (hasks : Asks arguments file? printTokens recover) :
    (arguments.filterMap Flag.ofSpelling?).Perm (flags printTokens recover) := by
  have hflags : ((flags printTokens recover).map Flag.spelling).filterMap Flag.ofSpelling? =
      flags printTokens recover := by
    cases printTokens <;> cases recover <;> decide
  have hfile : file?.toList.filterMap Flag.ofSpelling? = [] := by
    rw [List.filterMap_eq_nil_iff]
    intro file hfile
    exact ofSpelling?_of_isPath (hasks.isPath file (Option.mem_toList.mp hfile))
  have hperm := hasks.perm.filterMap Flag.ofSpelling?
  rwa [List.filterMap_append, hflags, hfile, List.nil_append] at hperm

theorem parse_eq (hasks : Asks arguments file? printTokens recover) (program : String) :
    parse (program :: arguments) =
      .ok (.run ⟨file?.getD defaultPath, printTokens, recover⟩) := by
  have hone : (0 : Nat) + (arguments.filter CommandLine.isPath).length ≤ 1 := by
    rw [hasks.filter_isPath]
    cases file? <;> simp
  have hfold := (Progress.start (some program)).foldlM_step rfl hasks.isPath_eq hone
  rw [parse, List.tail_cons, List.head?_cons, hfold]
  refine (Progress.finish_of_perm hasks.perm_flags).trans ?_
  have hnoted : ((Progress.start (some program)).note arguments).file? = file? := by
    rw [Progress.note, hasks.filter_isPath]
    cases file? <;> rfl
  rw [hnoted]

end Asks
end IBLexer.CommandLine
