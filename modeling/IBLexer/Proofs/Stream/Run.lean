import IBLexer.Proofs.Stream.Collapse
import IBLexer.Proofs.Stream.Passage
import IBLexer.Proofs.Stream.Policy

/-! A whole run of recovery, read off the tiling of the text: the tokens of the sound pieces
and the faults of the flawed ones, each at the place of its piece. -/
namespace IBLexer

namespace Scanner

def moveTo (scanner : Scanner) (cursor : Cursor) : Scanner := { scanner with cursor }

theorem next_eq {scanner : Scanner} {answer : Except Fault (Option Token)} {moved : Cursor}
    (hnext : scanner.cursor.next = (answer, moved)) :
    scanner.next = (answer, scanner.moveTo moved) := by
  rw [next, hnext]
  rfl

theorem next_moveTo {scanner : Scanner} {moved : Cursor}
    (hnext : scanner.cursor.next = moved.next) : scanner.next = (scanner.moveTo moved).next := by
  rw [next, next, hnext]
  rfl

theorem kept_push_moveTo (scanner : Scanner) (cursor : Cursor) (token : Token) :
    ((scanner.moveTo cursor).push token).kept = (scanner.push token).kept := by
  unfold push moveTo
  dsimp only
  split_ifs <;> rfl

theorem recovering_congr {scanner other : Scanner} (hnext : scanner.next = other.next)
    (faults : Array Fault) : scanner.recovering faults = other.recovering faults := by
  rcases hother : other.next with ⟨fault | (_ | token), moved⟩ <;> rw [hother] at hnext
  · rw [recovering_of_error hnext, recovering_of_error hother]
  · rw [recovering_of_none hnext, recovering_of_none hother]
  · cases hend : token.isEndOfFile with
    | true => rw [recovering_of_end hnext hend, recovering_of_end hother hend]
    | false => rw [recovering_of_token hnext hend, recovering_of_token hother hend]

/-- The moved scanner stands behind the piece and has been pushed its token. -/
structure Reads (scanner : Scanner) (piece : Piece) (moved : Scanner) : Prop where
  passes : scanner.cursor.Passes piece.text moved.cursor
  kept : moved.kept = (scanner.pushAll (piece.token? scanner.cursor.place).toList).kept

theorem recovering_of_element {scanner : Scanner} {element : Element} {rest : List Char}
    (hrest : scanner.cursor.rest = element.text ++ rest) (hfits : element.Fits rest) :
    ∃ moved : Scanner, scanner.Reads (.sound element) moved ∧
      ∀ faults, scanner.recovering faults = moved.recovering faults := by
  cases htrivia : element.isTrivia with
  | false =>
    obtain ⟨moved, hpass, hnext⟩ := Cursor.next_of_element hrest hfits htrivia
    obtain ⟨token, htoken⟩ := Element.exists_token htrivia scanner.cursor.position
    have hend := (Element.token?_marks htoken).2.2
    rw [htoken] at hnext
    refine ⟨(scanner.moveTo moved).push token, ⟨by rwa [cursor_push], ?_⟩,
      recovering_of_token (next_eq hnext) hend⟩
    have hpushed : (Piece.sound element).token? scanner.cursor.place = some token := htoken
    rw [hpushed]
    exact kept_push_moveTo scanner moved token
  | true =>
    cases element with
    | comment text =>
      obtain ⟨moved, hpass, hnext⟩ := Cursor.next_comment hrest hfits.1 hfits.2
      exact ⟨scanner.moveTo moved, ⟨hpass, rfl⟩,
        recovering_congr (next_moveTo hnext)⟩
    | blank c =>
      by_cases hfeed : c = '\n'
      · subst hfeed
        have hnext := next_eq (Cursor.next_feed hrest)
        refine ⟨(scanner.moveTo (scanner.cursor.consume 1)).push _,
          ⟨by rw [cursor_push]; exact Cursor.passes_consume hrest, ?_⟩,
          recovering_of_token hnext rfl⟩
        exact kept_push_moveTo scanner _ _
      · obtain ⟨moved, hpass, hnext⟩ := Cursor.next_blank hrest hfits hfeed
        refine ⟨scanner.moveTo moved, ⟨hpass, ?_⟩, ?_⟩
        · simp [Piece.token?, Element.token?, hfeed, pushAll, moveTo]
        · rcases hnext with hnext | hnext
          · exact recovering_congr (next_moveTo hnext)
          · exact recovering_of_none (next_eq hnext)
    | literal _ _ | number _ | word _ | operator _ | bracket _ => contradiction

theorem recovering_of_piece {scanner : Scanner} {piece : Piece} {rest : List Char}
    (hrest : scanner.cursor.rest = piece.text ++ rest) (hfits : piece.Fits rest) :
    ∃ moved : Scanner, scanner.Reads piece moved ∧ ∀ faults, scanner.recovering faults =
      moved.recovering (faults ++ (piece.fault? scanner.cursor.place).toArray) := by
  cases piece with
  | sound element =>
    obtain ⟨moved, hreads, hrun⟩ := recovering_of_element hrest hfits
    exact ⟨moved, hreads, fun faults => by simpa [Piece.fault?] using hrun faults⟩
  | flawed flaw =>
    obtain ⟨moved, hpass, hnext⟩ := Cursor.next_of_flaw hrest hfits
    refine ⟨(scanner.moveTo moved).resync, ⟨hpass, rfl⟩, fun faults => ?_⟩
    rw [recovering_of_error (next_eq hnext)]
    rfl

/-- Where the tokens of the pieces were pushed and their faults noted, the run is over. -/
theorem recovering_of_tiling {pieces : List Piece} {text : List Char}
    (htiling : Tiling pieces text) (scanner : Scanner) (hrest : scanner.cursor.rest = text)
    (faults : Array Fault) : scanner.recovering faults =
      (scanner.kept.toList ++ collapseAfter scanner.ended (tokensFrom scanner.cursor.place pieces) ++
          [.endOfFile (scanner.cursor.position.after text)],
        faults.toList ++ faultsFrom scanner.cursor.place pieces) := by
  induction htiling generalizing scanner faults with
  | nil =>
    have hnext := next_eq (Cursor.next_of_rest_nil hrest)
    rw [recovering_of_end hnext rfl]
    simp [finish, collapseAfter, moveTo]
  | @cons piece pieces rest hfits _ ih =>
    obtain ⟨moved, ⟨hpass, hkept⟩, hrun⟩ := recovering_of_piece hrest hfits
    have hlist := scanner.toList_kept_pushAll (piece.token? scanner.cursor.place).toList
    have hended := scanner.ended_pushAll (piece.token? scanner.cursor.place).toList
    rw [← hkept] at hlist
    rw [ended, ← hkept, ← ended] at hended
    rw [hrun, ih moved (hpass.rest_eq hrest), hlist, hended, hpass.place, hpass.position]
    rw [tokensFrom_cons, collapseAfter_append, faultsFrom_cons, Position.after_append]
    simp

end Scanner

theorem tokenizeRecovering_of_tiling {source : String} {pieces : List Piece}
    (htiling : Tiling pieces source.toList) (file? : Option String) :
    tokenizeRecovering source file? =
      (collapse (tokensFrom (.start (file?.getD defaultFile)) pieces) ++
          [.endOfFile (Position.start.after source.toList)],
        faultsFrom (.start (file?.getD defaultFile)) pieces) :=
  Scanner.recovering_of_tiling htiling _ rfl #[]

theorem filter_collapse_tokensFrom (place : Place) (pieces : List Piece) (position : Position) :
    (collapse (tokensFrom place pieces) ++ [Token.endOfFile position]).filter
      (fun token => !token.isEndOfFile) = collapse (tokensFrom place pieces) := by
  have hkept : (collapse (tokensFrom place pieces)).filter (fun token => !token.isEndOfFile) =
      collapse (tokensFrom place pieces) := by
    rw [List.filter_eq_self]
    intro token htoken
    have hmem := (collapseAfter_sublist false _).subset htoken
    rw [(position_of_mem_tokensFrom hmem).2, Bool.not_false]
  rw [List.filter_append, hkept]
  exact List.append_nil _

theorem position_of_mem_tokens {source : String} {file? : Option String} {token : Token}
    (hmem : token ∈ (tokenizeRecovering source file?).1) :
    ∃ front, front <+: source.toList ∧ token.position = Position.start.after front := by
  obtain ⟨pieces, htiling⟩ := Tiling.exists_of_text source.toList
  rw [tokenizeRecovering_of_tiling htiling, List.mem_append, List.mem_singleton] at hmem
  rcases hmem with hmem | rfl
  · rw [← htiling.flatMap_text]
    exact (position_of_mem_tokensFrom ((collapseAfter_sublist false _).subset hmem)).1
  · exact ⟨source.toList, List.prefix_rfl, rfl⟩

theorem position_of_mem_faults {source : String} {file? : Option String} {fault : Fault}
    (hmem : fault ∈ (tokenizeRecovering source file?).2) :
    ∃ front, front <+: source.toList ∧ fault.position = Position.start.after front := by
  obtain ⟨pieces, htiling⟩ := Tiling.exists_of_text source.toList
  rw [tokenizeRecovering_of_tiling htiling] at hmem
  rw [← htiling.flatMap_text]
  exact position_of_mem_faultsFrom hmem

theorem tokenize_eq_ok_iff {source : String} {pieces : List Piece}
    (htiling : Tiling pieces source.toList) (file? : Option String) (tokens : List Token) :
    tokenize source file? = .ok tokens ↔
      faultsFrom (.start (file?.getD defaultFile)) pieces = [] ∧
        tokens = collapse (tokensFrom (.start (file?.getD defaultFile)) pieces) ++
          [.endOfFile (Position.start.after source.toList)] := by
  rw [tokenize, Scanner.strict_eq_ok_iff, ← tokenizeRecovering,
    tokenizeRecovering_of_tiling htiling, Prod.mk.injEq, and_comm, eq_comm (b := tokens)]

end IBLexer
