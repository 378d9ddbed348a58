import IBLexer.Proofs.Session.Movement
import IBLexer.Proofs.Stream.Occurrence

/-! A scanner that begins in the middle of a text reads what is left as a text of its own. What
was read before, and how, shows only in where that text begins: its first line goes on from
there, in its columns and in what its faults quote. -/
namespace IBLexer

namespace Position

/-- A position of a text that begins at `origin`. Only on the first line do the columns go on
from there. -/
def behind (position origin : Position) : Position :=
  if position.line = 1 then ⟨origin.line, origin.column + (position.column - 1)⟩
  else ⟨origin.line + (position.line - 1), position.column⟩

structure CountsBehind (position origin : Position) : Prop where
  line_eq : (position.behind origin).line.toNat = origin.line.toNat + position.line.toNat - 1
  column_eq : (position.behind origin).column.toNat =
    if position.line = 1 then origin.column.toNat + position.column.toNat - 1
    else position.column.toNat

end Position

def Token.behind (token : Token) (place : Place) : Token :=
  { token with position := token.position.behind place.position }

/-- On the first line the quoted text begins with what was read of that line before. -/
def Fault.behind (fault : Fault) (place : Place) : Fault :=
  { fault with
    position := fault.position.behind place.position
    lineText := if fault.position.line = 1 then place.line ++ fault.lineText else fault.lineText }

@[simp] theorem Token.isEndOfLine_behind (token : Token) (place : Place) :
    (token.behind place).isEndOfLine = token.isEndOfLine := rfl

theorem extendLine_of_notMem {run : List Char} (hline : '\n' ∉ run) (line : String) :
    extendLine line run = line ++ String.ofList run := by
  induction run generalizing line with
  | nil => simp
  | cons c run ih =>
    rw [List.mem_cons, not_or] at hline
    have hpush : extendLine line (c :: run) = extendLine (line.push c) run := by
      simp [extendLine, Ne.symm hline.1]
    rw [hpush, ih hline.2]
    apply String.toList_inj.mp
    simp

namespace Place

def behind (here place : Place) : Place where
  file := here.file
  position := here.position.behind place.position
  line := if here.position.line = 1 then place.line ++ here.line else here.line

theorem after_feed_eq (place : Place) (above : List Char) {last : List Char} (hlast : '\n' ∉ last) :
    place.after (above ++ '\n' :: last) =
      ⟨place.file, ⟨place.position.line + UInt32.ofNat (above.count '\n' + 1),
        1 + UInt32.ofNat last.length⟩, String.ofList last⟩ := by
  have hfeed : (place.after above).after ['\n'] =
      ⟨place.file, ⟨(place.position.after above).line + 1, 1⟩, ""⟩ := rfl
  rw [List.append_cons, after_append, after_append, hfeed]
  simp only [after, Position.after_of_notMem hlast, extendLine_of_notMem hlast,
    Position.line_after, UInt32.ofNat_add, UInt32.add_assoc]
  simp

theorem after_of_notMem (place : Place) {text : List Char} (hline : '\n' ∉ text) :
    place.after text =
      ⟨place.file, ⟨place.position.line, place.position.column + UInt32.ofNat text.length⟩,
        place.line ++ String.ofList text⟩ := by
  simp only [after, Position.after_of_notMem hline, extendLine_of_notMem hline]

theorem behind_of_first {here : Place} (hfirst : here.position.line = 1) (place : Place) :
    here.behind place = ⟨here.file, ⟨place.position.line,
      place.position.column + (here.position.column - 1)⟩, place.line ++ here.line⟩ := by
  rw [behind, Position.behind, if_pos hfirst, if_pos hfirst]

theorem behind_of_later {here : Place} (hlater : here.position.line ≠ 1) (place : Place) :
    here.behind place = ⟨here.file, ⟨place.position.line + (here.position.line - 1),
      here.position.column⟩, here.line⟩ := by
  rw [behind, Position.behind, if_neg hlater, if_neg hlater]

/-- Behind any place a text is read as from a start, as long as its lines can be counted. -/
theorem after_eq_behind (place : Place) {text : List Char} (hlt : text.length + 1 < 2 ^ 32) :
    place.after text = ((start place.file).after text).behind place := by
  rcases eq_lastLine_or_append_feed text with hwhole | ⟨above, habove⟩
  · have hline : '\n' ∉ text := by
      rw [hwhole]
      exact notMem_lastLine text
    rw [after_of_notMem _ hline, after_of_notMem _ hline, behind_of_first rfl]
    simp [start, Position.start, UInt32.add_comm 1]
  · have hlast := notMem_lastLine text
    have hlater : ((start place.file).after text).position.line ≠ 1 := by
      have hlines := Position.toNat_line_after_start hlt
      have hcount : 0 < text.count '\n' := List.count_pos_iff.mpr (by rw [habove]; simp)
      intro hfirst
      rw [← UInt32.toNat_inj] at hfirst
      have hone : (1 : UInt32).toNat = 1 := rfl
      change (Position.start.after text).line.toNat = _ at hfirst
      omega
    rw [behind_of_later hlater, habove, after_feed_eq _ _ hlast, after_feed_eq _ _ hlast]
    simp [start, Position.start, UInt32.add_comm 1]

theorem after_behind_of_notMem (here place : Place) {run : List Char} (hline : '\n' ∉ run) :
    (here.behind place).after run = (here.after run).behind place := by
  have hsame : (here.after run).position.line = here.position.line := by
    rw [after_of_notMem _ hline]
  by_cases hfirst : here.position.line = 1
  · have hcolumn : here.position.column - 1 + UInt32.ofNat run.length =
        here.position.column + UInt32.ofNat run.length - 1 := by grind
    rw [behind_of_first hfirst, behind_of_first (hsame.trans hfirst), after_of_notMem _ hline,
      after_of_notMem _ hline]
    simp only [String.append_assoc, UInt32.add_assoc, hcolumn]
  · have hlater : (here.after run).position.line ≠ 1 := by rwa [hsame]
    rw [behind_of_later hfirst, behind_of_later hlater, after_of_notMem _ hline,
      after_of_notMem _ hline]

end Place

namespace Piece

theorem token?_behind (piece : Piece) (here place : Place) :
    piece.token? (here.behind place) = (piece.token? here).map (·.behind place) := by
  cases piece with
  | flawed _ => rfl
  | sound element =>
    cases element with
    | blank c =>
      simp only [token?, Element.token?]
      split <;> rfl
    | comment _ | literal _ _ | number _ | word _ | operator _ | bracket _ => rfl

end Piece

theorem Flaw.exists_fault_eq (flaw : Flaw) : ∃ cause front quote,
    front <+: flaw.text ∧ quote <+: flaw.text ∧ ∀ place : Place, flaw.fault place =
      ⟨cause, (place.after front).position, place.file, (place.after quote).line⟩ := by
  cases flaw with
  | stray c more => exact ⟨_, [], [c], List.nil_prefix, ⟨more, rfl⟩, fun _ => rfl⟩
  | slash more =>
    exact ⟨_, ['/'], '/' :: more.take 1, ⟨more, rfl⟩,
      (List.prefix_cons_inj '/').mpr (List.take_prefix 1 more), fun _ => rfl⟩
  | unclosed delimiter more =>
    exact ⟨_, [], delimiter :: more, List.nil_prefix, List.prefix_rfl, fun _ => rfl⟩

theorem Flaw.fault_behind {flaw : Flaw} {rest : List Char} (hfits : flaw.Fits rest)
    (here place : Place) : flaw.fault (here.behind place) = (flaw.fault here).behind place := by
  obtain ⟨cause, front, quote, hfront, hquote, hfault⟩ := flaw.exists_fault_eq
  have hline := notMem_feed_of_inLine hfits.2.1
  have hfront' : '\n' ∉ front := fun hmem => hline (hfront.subset hmem)
  have hquote' : '\n' ∉ quote := fun hmem => hline (hquote.subset hmem)
  have hsame : (here.after quote).position.line = (here.after front).position.line := by
    rw [Place.after_of_notMem _ hfront', Place.after_of_notMem _ hquote']
  rw [hfault, hfault, Place.after_behind_of_notMem _ _ hfront',
    Place.after_behind_of_notMem _ _ hquote']
  simp only [Place.behind, Fault.behind, hsame]

theorem locate_behind (place : Place) {before : List Char} {pieces : List Piece}
    (hlt : (before ++ pieces.flatMap Piece.text).length + 1 < 2 ^ 32) :
    locate (place.after before) pieces =
      (locate ((Place.start place.file).after before) pieces).map
        fun located => (located.1.behind place, located.2) := by
  induction pieces generalizing before with
  | nil => rfl
  | cons piece pieces ih =>
    rw [List.flatMap_cons, ← List.append_assoc] at hlt
    have hbefore : before.length + 1 < 2 ^ 32 := by
      rw [List.length_append, List.length_append] at hlt
      omega
    rw [locate, locate, List.map_cons, ← Place.after_append, ← Place.after_append, ih hlt,
      place.after_eq_behind hbefore]

namespace Tiling

variable {pieces : List Piece} {text : List Char}

theorem locate_behind (htiling : Tiling pieces text) (hlt : text.length + 1 < 2 ^ 32)
    (place : Place) : locate place pieces =
      (locate (.start place.file) pieces).map
        fun located => (located.1.behind place, located.2) := by
  have hall : ([] ++ pieces.flatMap Piece.text).length + 1 < 2 ^ 32 := by
    rw [List.nil_append, htiling.flatMap_text]
    exact hlt
  exact IBLexer.locate_behind place hall

theorem tokensFrom_behind (htiling : Tiling pieces text) (hlt : text.length + 1 < 2 ^ 32)
    (place : Place) :
    tokensFrom place pieces = (tokensFrom (.start place.file) pieces).map (·.behind place) := by
  rw [tokensFrom, tokensFrom, htiling.locate_behind hlt, List.filterMap_map, List.map_filterMap]
  congr 1
  funext located
  exact located.2.token?_behind located.1 place

theorem faultsFrom_behind (htiling : Tiling pieces text) (hlt : text.length + 1 < 2 ^ 32)
    (place : Place) :
    faultsFrom place pieces = (faultsFrom (.start place.file) pieces).map (·.behind place) := by
  rw [faultsFrom, faultsFrom, htiling.locate_behind hlt, List.filterMap_map, List.map_filterMap]
  apply List.filterMap_congr
  rintro ⟨here, piece⟩ hlocated
  obtain ⟨before, after, rfl, -⟩ := exists_of_mem_locate hlocated
  have hfits : piece.Fits (after.flatMap Piece.text) := htiling.occurs.fits
  cases piece with
  | sound _ => rfl
  | flawed flaw => exact congrArg some (Flaw.fault_behind hfits here place)

end Tiling

theorem collapse_map_behind (tokens : List Token) (place : Place) :
    collapse (tokens.map (·.behind place)) = (collapse tokens).map (·.behind place) :=
  collapseAfter_map (fun token => token.isEndOfLine_behind place) false tokens

theorem Cursor.recovering_ofCursor (cursor : Cursor) (hlt : cursor.rest.length + 1 < 2 ^ 32) :
    (Scanner.ofCursor cursor).recovering #[] =
      ((tokenizeRecovering (String.ofList cursor.rest) (some cursor.file)).1.map
          (·.behind cursor.place),
        (tokenizeRecovering (String.ofList cursor.rest) (some cursor.file)).2.map
          (·.behind cursor.place)) := by
  obtain ⟨pieces, htiling⟩ := Tiling.exists_of_text cursor.rest
  have hleft : Tiling pieces (String.ofList cursor.rest).toList := by
    rwa [String.toList_ofList]
  have hlast : (Token.endOfFile (Position.start.after cursor.rest)).behind cursor.place =
      .endOfFile (cursor.position.after cursor.rest) := by
    have hplace := cursor.place.after_eq_behind hlt
    exact congrArg Token.endOfFile (congrArg Place.position hplace).symm
  have hrun := Scanner.recovering_of_tiling htiling (.ofCursor cursor) rfl #[]
  rw [hrun, tokenizeRecovering_of_tiling hleft, String.toList_ofList, List.map_append,
    ← collapse_map_behind, List.map_singleton, hlast]
  exact Prod.ext
    (congrArg (collapse · ++ _) (htiling.tokensFrom_behind hlt cursor.place))
    (htiling.faultsFrom_behind hlt cursor.place)

theorem Position.countsBehind {read front : List Char}
    (hlt : (read ++ front).length + 1 < 2 ^ 32) :
    (start.after front).CountsBehind (start.after read) := by
  have hlength := hlt
  rw [List.length_append] at hlength
  have hread : read.length + 1 < 2 ^ 32 := by omega
  have hfront : front.length + 1 < 2 ^ 32 := by omega
  have hbehind : (start.after front).behind (start.after read) = start.after (read ++ front) := by
    have hplace := ((Place.start "").after read).after_eq_behind hfront
    rw [after_append]
    exact (congrArg Place.position hplace).symm
  constructor
  · rw [hbehind, toNat_line_after_start hlt, toNat_line_after_start hread,
      toNat_line_after_start hfront, List.count_append]
    omega
  · split
    · next hfirst =>
      have hlines := toNat_line_after_start hfront
      rw [hfirst] at hlines
      have hone : (1 : UInt32).toNat = 1 := rfl
      have hline : '\n' ∉ front := List.count_eq_zero.mp (by omega)
      have hwhole : lastLine front = front := lastLine_append hline []
      rw [hbehind, toNat_column_after_append hline hlt, toNat_column_after_start hfront, hwhole]
      omega
    · next hlater => rw [behind, if_neg hlater]

/-- Scanning depends only on what is left to read. Wherever a cursor was led in a text, what is
found from there is what is found in the rest alone; positions are counted on from where the
cursor stands, and the faults of its line quote what was read of that line before. -/
theorem recovering_from_within {source : String} (hlength : source.length ≤ 2 ^ 32 - 2)
    (file : String) (operations : List Reading.Operation) :
    let cursor := ((Reading.Session.ofCursor (.ofText file source)).run operations).cursor
    let rest := tokenizeRecovering (String.ofList cursor.rest) (some file)
    (Scanner.ofCursor cursor).recovering #[] =
        (rest.1.map (·.behind cursor.place), rest.2.map (·.behind cursor.place)) ∧
      (∀ token ∈ rest.1, token.position.CountsBehind cursor.position) ∧
      ∀ fault ∈ rest.2, fault.position.CountsBehind cursor.position := by
  intro cursor rest
  have hmoves : (Cursor.ofText file source).Moves cursor :=
    Reading.Session.moves_run _ operations
  obtain ⟨read, hpass⟩ := hmoves.exists_passes
  have hfile : cursor.file = file := hpass.file
  have hposition : cursor.position = Position.start.after read := hpass.position
  have hall := length_toList_lt hlength
  have htext : source.toList = read ++ cursor.rest := hpass.rest
  rw [htext] at hall
  -- Whatever is reported stands behind some front part of the rest.
  have hcounts : ∀ front, front <+: cursor.rest →
      (Position.start.after front).CountsBehind cursor.position := by
    intro front hfront
    have hle := hfront.length_le
    rw [hposition]
    apply Position.countsBehind
    rw [List.length_append] at hall ⊢
    omega
  refine ⟨?_, fun token htoken => ?_, fun fault hfault => ?_⟩
  · rw [List.length_append] at hall
    rw [cursor.recovering_ofCursor (by omega), hfile]
  · obtain ⟨front, hfront, hreached⟩ := position_of_mem_tokens htoken
    rw [String.toList_ofList] at hfront
    exact hreached ▸ hcounts front hfront
  · obtain ⟨front, hfront, hreached⟩ := position_of_mem_faults hfault
    rw [String.toList_ofList] at hfront
    exact hreached ▸ hcounts front hfront

/-- From inside an open literal, with a fault on its line and one on the next. -/
theorem recovering_from_within_literal :
    let source := "x 'é#\n/"
    let cursor := ((Reading.Session.ofCursor (.ofText "a.ib" source)).run
      [.advance, .advance, .peek, .advance]).cursor
    source.length ≤ 2 ^ 32 - 2 ∧ cursor.rest = "é#\n/".toList ∧
      (Scanner.ofCursor cursor).recovering #[] =
        ([⟨.identifier "é", "é", ⟨1, 4⟩⟩, .endOfLine ⟨1, 6⟩, .endOfFile ⟨2, 2⟩],
          [⟨.unhandledCharacter '#', ⟨1, 5⟩, "a.ib", "x 'é#"⟩,
            ⟨.malformedComment, ⟨2, 2⟩, "a.ib", "/"⟩]) := by
  intro source cursor
  have hlength : source.length ≤ 2 ^ 32 - 2 := by decide
  obtain ⟨hrun, -⟩ := recovering_from_within hlength "a.ib" [.advance, .advance, .peek, .advance]
  refine ⟨hlength, by decide +kernel, hrun.trans ?_⟩
  decide +kernel

end IBLexer
