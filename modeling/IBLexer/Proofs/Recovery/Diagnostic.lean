import IBLexer.Fault.Diagnostic
import IBLexer.Proofs.Recovery.Quotation
import IBLexer.Proofs.Text.Display

/-! A diagnostic is two lines, and its caret stands under the character that the fault names.
This rests on what is true of every fault of a run: its quoted text reaches the fault, stays on
one line, and does not end in a carriage return, which the display would swallow. -/
namespace IBLexer

theorem notMem_feed_toString_delimiter {delimiter : Char} (hquote : isDelimiter delimiter = true) :
    '\n' ∉ delimiter.toString.toList := by
  have hfeed := (ne_break_of_inLine (inLine_of_isDelimiter hquote)).1
  simpa using Ne.symm hfeed

namespace Fault

variable {fault : Fault}

theorem location_eq (fault : Fault) : fault.location = "./" ++ fault.file ++ ":" ++
    toString fault.position.line ++ ":" ++ toString fault.position.column ++ " " := by
  have hlocate : fault.location = "./" ++ fault.file ++ ":" ++
    (toString fault.position.line ++ ":" ++ toString fault.position.column) ++ " " := rfl
  simp only [hlocate, String.append_assoc]

theorem notMem_feed_location (hfile : '\n' ∉ fault.file.toList) :
    '\n' ∉ fault.location.toList := by
  have hplace := Position.notMem_feed_locate hfile fault.position
  rw [location, String.toList_append, List.mem_append, not_or]
  exact ⟨hplace, by decide⟩

def quotedLine (fault : Fault) : List Char := fault.location.toList ++ fault.lineText.toList

def caretLine (fault : Fault) : List Char :=
  fault.indicator ++ '^' :: ' ' :: fault.cause.message.toList

def lead (fault : Fault) : List Char :=
  (fault.lineText.toList.take (fault.position.column.toNat - 1)).map
    fun c => if c = '\t' then '\t' else ' '

theorem indicator_eq (fault : Fault) :
    fault.indicator = List.replicate fault.location.length ' ' ++ fault.lead := rfl

theorem toList_render (fault : Fault) :
    fault.render.toList = fault.quotedLine ++ '\n' :: fault.caretLine := by
  simp [render, quotedLine, caretLine]

theorem notMem_feed_indicator (fault : Fault) : '\n' ∉ fault.indicator := by
  rw [indicator_eq, List.mem_append, not_or]
  constructor
  · intro hmem
    exact absurd (List.eq_of_mem_replicate hmem) (by decide)
  · intro hmem
    obtain ⟨c, -, hc⟩ := List.mem_map.mp hmem
    split at hc <;> exact absurd hc (by decide)

/-- What is true of the faults of a run and makes their diagnostics two lines long. -/
structure Legible (fault : Fault) : Prop where
  file : '\n' ∉ fault.file.toList
  quote : '\n' ∉ fault.lineText.toList
  last : fault.lineText.toList.getLast? ≠ some '\r'
  reach : fault.position.column.toNat ≤ fault.lineText.length + 1
  message : '\n' ∉ fault.cause.message.toList

namespace Legible

theorem notMem_feed_quotedLine (hlegible : fault.Legible) : '\n' ∉ fault.quotedLine := by
  rw [quotedLine, List.mem_append, not_or]
  exact ⟨notMem_feed_location hlegible.file, hlegible.quote⟩

theorem notMem_feed_caretLine (hlegible : fault.Legible) : '\n' ∉ fault.caretLine := by
  have hindicator := fault.notMem_feed_indicator
  have hmessage := hlegible.message
  simp_all [caretLine]

theorem getLast?_quotedLine_ne (hlegible : fault.Legible) :
    fault.quotedLine.getLast? ≠ some '\r' := by
  by_cases hquote : fault.lineText.toList = []
  · rw [quotedLine, hquote, List.append_nil, location, String.toList_append]
    have hblank : " ".toList = [' '] := by decide
    rw [hblank, List.getLast?_concat]
    decide
  · rw [quotedLine, List.getLast?_append_of_ne_nil _ hquote]
    exact hlegible.last

theorem length_lead (hlegible : fault.Legible) :
    fault.lead.length = fault.position.column.toNat - 1 := by
  have hreach := hlegible.reach
  rw [lead, List.length_map, List.length_take, String.length_toList]
  omega

theorem displayLines_render (hlegible : fault.Legible) :
    displayLines fault.render.toList = [fault.quotedLine, fault.caretLine] := by
  have hne : fault.caretLine ≠ [] := by simp [caretLine]
  rw [toList_render, displayLines_append_feed hlegible.notMem_feed_quotedLine
    hlegible.getLast?_quotedLine_ne, displayLines_of_notMem hlegible.notMem_feed_caretLine hne]

end Legible

theorem getElem?_lead {j : Nat} (hj : j < fault.lead.length) :
    ∃ c, fault.lineText.toList[j]? = some c ∧
      fault.lead[j]? = some (if c = '\t' then '\t' else ' ') := by
  rw [lead, List.length_map, List.length_take] at hj
  have hquote : j < fault.lineText.toList.length := by omega
  refine ⟨fault.lineText.toList[j], List.getElem?_eq_getElem hquote, ?_⟩
  have htake : j < fault.position.column.toNat - 1 := by omega
  rw [lead, List.getElem?_map, List.getElem?_take_of_lt htake, List.getElem?_eq_getElem hquote]
  rfl

theorem Legible.report_eq (hlegible : fault.Legible) :
    fault.report = Paint.red (String.ofList fault.quotedLine) ++ "\n" ++
      (Paint.red (String.ofList fault.caretLine) ++ "\n") ++
        (fault.cause.tip?.map fun tip => Paint.yellow "help" ++ ": " ++ tip ++ "\n").getD "" := by
  have hlines := hlegible.displayLines_render
  rw [← String.toList_inj]
  simp [report, hlines]

namespace Cause.Describes

variable {cause : Cause} {left right quote : List Char}

theorem notMem_feed_message (hdescribes : cause.Describes left right quote) :
    '\n' ∉ cause.message.toList := by
  cases cause with
  | malformedComment =>
    have hwords : '\n' ∉ "Malformed comment".toList := by decide
    exact hwords
  | unhandledCharacter _ =>
    have hwords : '\n' ∉ "Unhandled rune! ".toList := by decide
    exact hwords
  | unterminatedLiteral delimiter =>
    have hwords : '\n' ∉ "Unterminated literal, missing closing ".toList := by decide
    have hquote := notMem_feed_toString_delimiter hdescribes.2.1
    change '\n' ∉ ("Unterminated literal, missing closing " ++ delimiter.toString).toList
    rw [String.toList_append, List.mem_append, not_or]
    exact ⟨hwords, hquote⟩

theorem exists_tip (hdescribes : cause.Describes left right quote)
    (hother : ¬∃ c, cause = .unhandledCharacter c) :
    ∃ tip, cause.tip? = some tip ∧ '\n' ∉ tip.toList := by
  cases cause with
  | malformedComment => exact ⟨_, rfl, by decide⟩
  | unhandledCharacter c => exact absurd ⟨c, rfl⟩ hother
  | unterminatedLiteral delimiter =>
    have hfront : '\n' ∉ "Add a closing `".toList := by decide
    have hback : '\n' ∉ "` before the end of the line".toList := by decide
    have hquote := notMem_feed_toString_delimiter hdescribes.2.1
    refine ⟨_, rfl, ?_⟩
    rw [String.toList_append, String.toList_append, List.mem_append, List.mem_append, not_or, not_or]
    exact ⟨⟨hfront, hquote⟩, hback⟩

end Cause.Describes
end Fault

theorem HasFault.file_eq {source : String} {file? : Option String} {fault : Fault}
    (hfault : HasFault source file? fault) : fault.file = file?.getD defaultFile := by
  obtain ⟨flaw, before, after, -, rfl⟩ := exists_occurs_of_mem_faults hfault.mem
  cases flaw <;> rfl

theorem HasFault.legible {source : String} {file? : Option String} {fault : Fault}
    (hfault : HasFault source file? fault) (hlength : source.length ≤ 2 ^ 32 - 2)
    (hfile : '\n' ∉ (file?.getD defaultFile).toList) : fault.Legible := by
  obtain ⟨left, right, hdivides, hdescribes, hline⟩ := exists_describes hfault hlength
  exact ⟨hfault.file_eq ▸ hfile, hdescribes.notMem_feed_quote hline,
    hdescribes.getLast?_quote_ne, hdescribes.column_le hdivides, hdescribes.notMem_feed_message⟩

/-- The diagnostic is the line `first` above the line `second`: the text that is quoted behind
the place, and a caret below the column of the fault, behind tabs where the quoted text has
tabs. -/
structure Fault.Draws (fault : Fault) (place : String) (first second lead : List Char) : Prop where
  render_eq : fault.render.toList = first ++ '\n' :: second
  first_line : '\n' ∉ first
  second_line : '\n' ∉ second
  first_eq : first = place.toList ++ fault.lineText.toList
  second_eq : second =
    List.replicate place.length ' ' ++ lead ++ '^' :: ' ' :: fault.cause.message.toList
  length_lead : lead.length + 1 = fault.position.column.toNat
  lead_eq : ∀ j < lead.length, ∃ c, fault.lineText.toList[j]? = some c ∧
    lead[j]? = some (if c = '\t' then '\t' else ' ')

theorem Fault.Legible.draws {fault : Fault} (hlegible : fault.Legible)
    (hcolumn : 0 < fault.position.column.toNat) :
    fault.Draws fault.location fault.quotedLine fault.caretLine fault.lead where
  render_eq := fault.toList_render
  first_line := hlegible.notMem_feed_quotedLine
  second_line := hlegible.notMem_feed_caretLine
  first_eq := rfl
  second_eq := rfl
  length_lead := by
    rw [hlegible.length_lead]
    omega
  lead_eq _ hj := getElem?_lead hj

theorem Fault.Draws.caret {fault : Fault} {place : String} {first second lead : List Char}
    (hdraws : fault.Draws place first second lead) {text left right : List Char}
    (hdivides : fault.position.Divides text left right)
    (hquote : fault.lineText.toList <+: left ++ right) :
    second[place.length + lead.length]? = some '^' ∧
      ∀ c, first[place.length + lead.length]? = some c → right.head? = some c := by
  have hlead : lead.length = left.length :=
    Nat.succ.inj (hdraws.length_lead.trans hdivides.column_eq)
  constructor
  · rw [hdraws.second_eq, List.getElem?_append_right] <;> simp
  · intro c hc
    obtain ⟨more, hmore⟩ := hquote
    rw [hdraws.first_eq, ← String.length_toList (s := place),
      List.getElem?_append_right (Nat.le_add_right _ _), Nat.add_sub_cancel_left, hlead] at hc
    have hline : (left ++ right)[left.length]? = some c := by
      rw [← hmore, List.getElem?_append_left (List.getElem?_eq_some_iff.mp hc).1, hc]
    rw [List.getElem?_append_right (Nat.le_refl _), Nat.sub_self] at hline
    rw [List.head?_eq_getElem?, hline]

/-- Diagnostics point at the right character: the caret of the second line stands under what the
position of the fault names, wherever the first line has a character there. A report shows both
lines whole, each in red, and a line of help for every fault but an unhandled character. -/
theorem diagnostic_points_at_fault {source : String} {file? : Option String} {fault : Fault}
    (hfault : HasFault source file? fault) (hlength : source.length ≤ 2 ^ 32 - 2)
    (hfile : '\n' ∉ (file?.getD defaultFile).toList) :
    let place := "./" ++ file?.getD defaultFile ++ ":" ++ toString fault.position.line ++ ":" ++
      toString fault.position.column ++ " "
    ∃ first second lead : List Char, fault.Draws place first second lead ∧
      (∃ left right, fault.position.Divides source.toList left right ∧
        second[place.length + lead.length]? = some '^' ∧
          ∀ c, first[place.length + lead.length]? = some c → right.head? = some c) ∧
      let lines := "\x1b[38;5;1m" ++ String.ofList first ++ "\x1b[39m" ++ "\n" ++
        ("\x1b[38;5;1m" ++ String.ofList second ++ "\x1b[39m" ++ "\n")
      ((∃ c, fault.cause = .unhandledCharacter c) → fault.report = lines) ∧
      ((¬∃ c, fault.cause = .unhandledCharacter c) →
        ∃ tip, fault.cause.tip? = some tip ∧ '\n' ∉ tip.toList ∧
          fault.report =
            lines ++ ("\x1b[38;5;3m" ++ "help" ++ "\x1b[39m" ++ ": " ++ tip ++ "\n")) := by
  intro place
  have hlegible := hfault.legible hlength hfile
  obtain ⟨left, right, hdivides, hdescribes, -⟩ := exists_describes hfault hlength
  have hplace : fault.location = place := by rw [fault.location_eq, hfault.file_eq]
  have hcolumn : 0 < fault.position.column.toNat := by
    rw [hdivides.column_eq]
    exact Nat.succ_pos _
  have hdraws := hplace ▸ hlegible.draws hcolumn
  have hreport := hlegible.report_eq
  rw [Paint.red_eq, Paint.red_eq] at hreport
  refine ⟨_, _, _, hdraws, ⟨left, right, hdivides, ?_⟩, ?_, ?_⟩
  · exact hdraws.caret hdivides hdescribes.quote_prefix
  · rintro ⟨c, hc⟩
    rw [hreport, hc]
    exact String.append_empty
  · intro hother
    obtain ⟨tip, htip, hfeed⟩ := hdescribes.exists_tip hother
    refine ⟨tip, htip, hfeed, ?_⟩
    rw [hreport, htip, ← Paint.yellow_eq]
    rfl

/-- A lone slash before a carriage return, where the caret stands behind the quoted text and
help is given, below an unhandled character, for which there is none. -/
theorem diagnostic_points_at_fault_slash :
    let source := "#\n\té /\ry"
    let stray : Fault := ⟨.unhandledCharacter '#', ⟨1, 1⟩, "ü.ib", "#"⟩
    let slash : Fault := ⟨.malformedComment, ⟨2, 5⟩, "ü.ib", "\té /"⟩
    HasFault source (some "ü.ib") stray ∧ HasFault source (some "ü.ib") slash ∧
      source.length ≤ 2 ^ 32 - 2 ∧ '\n' ∉ "ü.ib".toList ∧
      stray.render = "./ü.ib:1:1 #\n           ^ Unhandled rune! " ∧
      slash.render = "./ü.ib:2:5 \té /\n           \t   ^ Malformed comment" ∧
      (∃ first second lead, stray.Draws "./ü.ib:1:1 " first second lead ∧
        stray.report = "\x1b[38;5;1m" ++ String.ofList first ++ "\x1b[39m" ++ "\n" ++
          ("\x1b[38;5;1m" ++ String.ofList second ++ "\x1b[39m" ++ "\n") ∧
        stray.report = "\x1b[38;5;1m./ü.ib:1:1 #\x1b[39m\n" ++
          "\x1b[38;5;1m           ^ Unhandled rune! \x1b[39m\n") ∧
      ∃ first second lead tip, slash.Draws "./ü.ib:2:5 " first second lead ∧
        slash.report = "\x1b[38;5;1m" ++ String.ofList first ++ "\x1b[39m" ++ "\n" ++
          ("\x1b[38;5;1m" ++ String.ofList second ++ "\x1b[39m" ++ "\n") ++
          ("\x1b[38;5;3m" ++ "help" ++ "\x1b[39m" ++ ": " ++ tip ++ "\n") ∧
        slash.report = "\x1b[38;5;1m./ü.ib:2:5 \té /\x1b[39m\n" ++
          "\x1b[38;5;1m           \t   ^ Malformed comment\x1b[39m\n" ++
          "\x1b[38;5;3mhelp\x1b[39m: Line comments start with `//`\n" := by
  intro source stray slash
  have hstray : HasFault source (some "ü.ib") stray := Or.inr (by decide +kernel)
  have hslash : HasFault source (some "ü.ib") slash := Or.inr (by decide +kernel)
  have hlength : source.length ≤ 2 ^ 32 - 2 := by decide
  have hfile : '\n' ∉ "ü.ib".toList := by decide
  obtain ⟨first, second, lead, hdraws, -, hplain, -⟩ :=
    diagnostic_points_at_fault hstray hlength hfile
  obtain ⟨first', second', lead', hdraws', -, -, hhelp⟩ :=
    diagnostic_points_at_fault hslash hlength hfile
  obtain ⟨tip, -, -, hreport⟩ := hhelp (by simp [slash])
  have hplace : "./" ++ "ü.ib" ++ ":" ++ toString stray.position.line ++ ":" ++
      toString stray.position.column ++ " " = "./ü.ib:1:1 " := by decide +kernel
  have hplace' : "./" ++ "ü.ib" ++ ":" ++ toString slash.position.line ++ ":" ++
      toString slash.position.column ++ " " = "./ü.ib:2:5 " := by decide +kernel
  refine ⟨hstray, hslash, hlength, hfile, by decide +kernel, by decide +kernel,
    ⟨first, second, lead, hplace ▸ hdraws, hplain ⟨'#', rfl⟩, by decide +kernel⟩,
    first', second', lead', tip, hplace' ▸ hdraws', hreport, by decide +kernel⟩

end IBLexer
