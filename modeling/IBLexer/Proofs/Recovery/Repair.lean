import IBLexer.Proofs.Stream.Run

/-! Recovery is strict scanning of a repaired text, in which each faulty element and the rest
of its line are blanked. Blanks keep the place of everything after them, so the tokens that
recovery answers are those of the repaired text, at the same positions. -/
namespace IBLexer

/-- Where the faulty element begins. The fault of a lone slash stands behind the slash. -/
def Fault.start (fault : Fault) : Position :=
  match fault.cause with
  | .malformedComment => ⟨fault.position.line, fault.position.column - 1⟩
  | .unterminatedLiteral _ | .unhandledCharacter _ => fault.position

/-- Blanks the characters from the marked position up to the next line break; `here` is the
position of the text. -/
def blankLine (mark : Position) : Position → List Char → List Char
  | _, [] => []
  | here, c :: text =>
    if here = mark then
      ((c :: text).takeWhile inLine).map (fun _ => ' ') ++ (c :: text).dropWhile inLine
    else c :: blankLine mark (here.advance c) text

/-- The text with a blank for every character that the faults made recovery skip. -/
def repair (faults : List Fault) (text : List Char) : List Char :=
  faults.foldl (fun text fault => blankLine fault.start .start text) text

example : repair [⟨.malformedComment, ⟨1, 4⟩, "a", "a /b"⟩] "a /b\rc".toList =
    "a   \rc".toList := by decide

def Piece.repaired : Piece → List Element
  | sound element => [element]
  | flawed flaw => List.replicate flaw.text.length (.blank ' ')

theorem Flaw.start_fault (flaw : Flaw) (place : Place) :
    (flaw.fault place).start = place.position := by
  cases flaw with
  | stray _ _ | unclosed _ _ => rfl
  | slash more =>
    simp [fault, Fault.start, Place.after, Position.advance]

theorem Position.after_replicate {text : List Char} (hline : ∀ c ∈ text, inLine c = true)
    (position : Position) :
    position.after (List.replicate text.length ' ') = position.after text := by
  rw [after_of_notMem (notMem_feed_of_inLine hline), after_of_notMem, List.length_replicate]
  simp

theorem blankLine_after {region rest : List Char} (hne : region ≠ [])
    (hregion : ∀ c ∈ region, inLine c = true) (hstop : Stops inLine rest) {done : List Char}
    (hlt : done.length < 2 ^ 32) (here : Position) :
    blankLine (here.after done) here (done ++ (region ++ rest)) =
      done ++ (List.replicate region.length ' ' ++ rest) := by
  induction done generalizing here with
  | nil =>
    have htake := takeWhile_of_stops hregion hstop
    have hdrop := dropWhile_of_stops hregion hstop
    obtain ⟨c, more, rfl⟩ := List.exists_cons_of_ne_nil hne
    rw [List.cons_append] at htake hdrop
    rw [List.nil_append, List.nil_append, List.cons_append, blankLine, htake, hdrop,
      Position.after_nil, if_pos rfl, List.map_const']
  | cons c done ih =>
    have hother : here ≠ here.after (c :: done) :=
      (Position.after_ne_self (List.cons_ne_nil c done) hlt here).symm
    rw [List.cons_append, blankLine, if_neg hother, Position.after_cons,
      ih (Nat.lt_of_succ_lt hlt), List.cons_append]

namespace Piece

def repairedText (piece : Piece) : List Char := piece.repaired.flatMap Element.text

theorem repairedText_sound (element : Element) : (sound element).repairedText = element.text :=
  List.append_nil _

theorem repairedText_flawed (flaw : Flaw) :
    (flawed flaw).repairedText = List.replicate flaw.text.length ' ' := by
  rw [repairedText, repaired, List.flatMap_replicate]
  exact List.flatten_replicate_singleton

theorem length_repairedText (piece : Piece) : piece.repairedText.length = piece.text.length := by
  cases piece with
  | sound element => rw [repairedText_sound, text]
  | flawed flaw => rw [repairedText_flawed, List.length_replicate, text]

theorem after_repairedText {piece : Piece} {rest : List Char} (hfits : piece.Fits rest)
    (position : Position) : position.after piece.repairedText = position.after piece.text := by
  cases piece with
  | sound element => rw [repairedText_sound, text]
  | flawed flaw => rw [repairedText_flawed, Position.after_replicate hfits.2.1, text]

theorem repair_fault? {piece : Piece} {rest : List Char} (hfits : piece.Fits rest) {place : Place}
    {done : List Char} (hplace : place.position = Position.start.after done)
    (hlt : done.length < 2 ^ 32) :
    repair (piece.fault? place).toList (done ++ (piece.text ++ rest)) =
      done ++ (piece.repairedText ++ rest) := by
  cases piece with
  | sound element =>
    rw [repairedText_sound]
    rfl
  | flawed flaw =>
    have hne : flaw.text ≠ [] := @text_ne_nil (.flawed flaw) rest hfits
    have hblank := blankLine_after hne hfits.2.1 hfits.2.2 hlt .start
    rw [repairedText_flawed, ← hblank, ← hplace, ← flaw.start_fault place]
    rfl

end Piece

def repairedElements (pieces : List Piece) : List Element := pieces.flatMap Piece.repaired

theorem repair_append (faults more : List Fault) (text : List Char) :
    repair (faults ++ more) text = repair more (repair faults text) := List.foldl_append

theorem repair_faultsFrom {pieces : List Piece} {text : List Char} (htiling : Tiling pieces text)
    {place : Place} {done : List Char} (hplace : place.position = Position.start.after done)
    (hlt : done.length + text.length < 2 ^ 32) :
    repair (faultsFrom place pieces) (done ++ text) =
      done ++ pieces.flatMap Piece.repairedText := by
  induction htiling generalizing place done with
  | nil => rfl
  | @cons piece pieces rest hfits _ ih =>
    rw [List.length_append] at hlt
    have hnext : (place.after piece.text).position =
        Position.start.after (done ++ piece.repairedText) := by
      rw [Place.position_after, hplace, Position.after_append, Piece.after_repairedText hfits]
    rw [faultsFrom_cons, repair_append, Piece.repair_fault? hfits hplace (by omega),
      ← List.append_assoc, ih hnext, List.flatMap_cons, List.append_assoc]
    rw [List.length_append, Piece.length_repairedText]
    omega

/-- Where a class stops before a text it stops before the repaired text: a flaw begins
inside its line, and its blank belongs to no number and to no word. -/
theorem stopsAs_repaired {pieces : List Piece} {rest : List Char} (htiling : Tiling pieces rest) :
    StopsAs rest (pieces.flatMap Piece.repairedText) := by
  intro accept haccept hstop
  cases htiling with
  | nil => exact hstop
  | @cons piece pieces rest hfits _ =>
    obtain ⟨c, more, htext, -⟩ := Piece.ofChar_first hfits
    rw [htext] at hstop
    rw [List.flatMap_cons]
    cases piece with
    | sound element =>
      have hrepaired : (Piece.sound element).repairedText = c :: more :=
        (Piece.repairedText_sound element).trans htext
      rw [hrepaired]
      exact hstop
    | flawed flaw =>
      have hflaw : flaw.text = c :: more := htext
      rw [Piece.repairedText_flawed, hflaw, List.length_cons, List.replicate_succ]
      intro blank hblank
      cases hblank
      simp only [List.mem_cons, List.not_mem_nil, or_false] at haccept
      rcases haccept with rfl | rfl | rfl
      · have hin := hfits.2.1 c (by rw [hflaw]; exact .head more)
        rw [hstop c rfl] at hin
        contradiction
      · decide
      · exact Rule.not_isWordPart_of_isBlank (by decide)

theorem tiling_repaired {pieces : List Piece} {text : List Char}
    (htiling : Tiling pieces text) : Tiling ((repairedElements pieces).map .sound)
      (pieces.flatMap Piece.repairedText) := by
  induction htiling with
  | nil => exact .nil
  | @cons piece pieces rest hfits hpieces ih =>
    rw [repairedElements, List.flatMap_cons, List.map_append, List.flatMap_cons]
    cases piece with
    | sound element =>
      rw [Piece.repairedText_sound]
      exact .cons (hfits.of_stopsAs (stopsAs_repaired hpieces)) ih
    | flawed flaw =>
      have hblank : ∀ c ∈ List.replicate flaw.text.length ' ', Unicode.isBlank c = true := by
        intro c hc
        rw [List.eq_of_mem_replicate hc]
        decide
      have htiling := ih.append_blanks hblank
      rw [Piece.repairedText_flawed, Piece.repaired]
      rwa [List.map_replicate] at htiling

theorem after_repaired {pieces : List Piece} {text : List Char}
    (htiling : Tiling pieces text) (position : Position) :
    position.after (pieces.flatMap Piece.repairedText) = position.after text := by
  induction htiling generalizing position with
  | nil => rfl
  | @cons piece pieces rest hfits _ ih =>
    rw [List.flatMap_cons, Position.after_append, Position.after_append,
      Piece.after_repairedText hfits, ih]

theorem tokensFrom_replicate_blank (place : Place) (count : Nat) :
    tokensFrom place (List.replicate count (.sound (.blank ' '))) = [] := by
  induction count generalizing place with
  | zero => rfl
  | succ count ih =>
    rw [List.replicate_succ, tokensFrom_cons, ih]
    rfl

theorem Piece.tokensFrom_repaired (piece : Piece) {place place' : Place}
    (hplace : place'.position = place.position) :
    tokensFrom place' (piece.repaired.map .sound) = (piece.token? place).toList := by
  cases piece with
  | sound element =>
    rw [repaired, List.map_singleton, tokensFrom_cons, token?, token?, hplace]
    exact List.append_nil _
  | flawed flaw =>
    rw [repaired, List.map_replicate]
    exact tokensFrom_replicate_blank place' flaw.text.length

theorem tokensFrom_repairedElements {pieces : List Piece} {text : List Char}
    (htiling : Tiling pieces text) {place place' : Place}
    (hplace : place'.position = place.position) :
    tokensFrom place' ((repairedElements pieces).map .sound) = tokensFrom place pieces := by
  induction htiling generalizing place place' with
  | nil => rfl
  | @cons piece pieces rest hfits _ ih =>
    have htext : (piece.repaired.map Piece.sound).flatMap Piece.text = piece.repairedText :=
      List.flatMap_map Piece.sound Piece.text piece.repaired
    -- The two lines read differently, but tokens are told apart by their positions alone.
    have hnext : (place'.after piece.repairedText).position =
        (place.after piece.text).position := by
      rw [Place.position_after, Place.position_after, hplace, Piece.after_repairedText hfits]
    rw [repairedElements, List.flatMap_cons, List.map_append, tokensFrom_append,
      Piece.tokensFrom_repaired piece hplace, htext, tokensFrom_cons, ← repairedElements, ih hnext]

/-- Recovery keeps exactly what strict scanning finds in the repaired text. -/
theorem tokenize_repair (source : String) (file? : Option String)
    (hlength : source.length ≤ 2 ^ 32 - 2) :
    tokenize (String.ofList (repair (tokenizeRecovering source file?).2 source.toList)) file? =
      .ok (tokenizeRecovering source file?).1 := by
  obtain ⟨pieces, htiling⟩ := Tiling.exists_of_text source.toList
  have hrepair : repair (tokenizeRecovering source file?).2 source.toList =
      pieces.flatMap Piece.repairedText := by
    have hlt : ([] : List Char).length + source.toList.length < 2 ^ 32 := by
      rw [String.length_toList, List.length_nil]
      omega
    rw [tokenizeRecovering_of_tiling htiling]
    exact repair_faultsFrom htiling rfl hlt
  have hrepaired : Tiling ((repairedElements pieces).map .sound)
      (String.ofList (repair (tokenizeRecovering source file?).2 source.toList)).toList := by
    rw [String.toList_ofList, hrepair]
    exact tiling_repaired htiling
  rw [tokenize_eq_ok_iff hrepaired, tokensFrom_repairedElements htiling rfl, String.toList_ofList,
    hrepair, after_repaired htiling, tokenizeRecovering_of_tiling htiling]
  exact ⟨faultsFrom_eq_nil_iff.mpr ⟨_, rfl⟩, rfl⟩

/-- Three faults, the second behind a lone carriage return. -/
theorem tokenize_repair_unclosed :
    "x 'y\r#z\n/ w".length ≤ 2 ^ 32 - 2 ∧
      tokenize "x   \r  \n   " none = .ok (tokenizeRecovering "x 'y\r#z\n/ w" none).1 := by
  have hlength : "x 'y\r#z\n/ w".length ≤ 2 ^ 32 - 2 := by decide
  have hrepaired : String.ofList
      (repair (tokenizeRecovering "x 'y\r#z\n/ w" none).2 "x 'y\r#z\n/ w".toList) =
        "x   \r  \n   " := by
    decide +kernel
  have hstrict := tokenize_repair "x 'y\r#z\n/ w" none hlength
  rw [hrepaired] at hstrict
  exact ⟨hlength, hstrict⟩

end IBLexer
