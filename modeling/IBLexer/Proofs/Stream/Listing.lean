import IBLexer.Proofs.Stream.Payload
import IBLexer.Proofs.Text.Display
import IBLexer.Token.Listing
import Mathlib.Data.List.Forall2

/-! A listing can be read back. Every entry of a row ends at a character that it cannot hold, so
the text of a listing falls into rows and entries in one way, whatever the widths are. A file name
may hold any characters, but it is the same in all rows. -/
namespace IBLexer

theorem append_inj_of_stops {accept : Char → Bool} {run run' rest rest' : List Char}
    (hrun : ∀ c ∈ run, accept c = true) (hstop : Stops accept rest)
    (hrun' : ∀ c ∈ run', accept c = true) (hstop' : Stops accept rest')
    (htext : run ++ rest = run' ++ rest') : run = run' ∧ rest = rest' := by
  obtain rfl := run_eq_of_stops hrun hstop hrun' hstop' htext
  exact ⟨rfl, List.append_cancel_left htext⟩

theorem stops_cons {accept : Char → Bool} {c : Char} (hc : accept c = false) (rest : List Char) :
    Stops accept (c :: rest) := by
  rintro _ ⟨⟩
  exact hc

/-- The tokens look alike in a listing, whatever their lexemes are. -/
structure Token.Alike (token same : Token) : Prop where
  position : token.position = same.position
  value : token.value = same.value

namespace Token.Alike

variable {token same : Token}

theorem location_eq (halike : token.Alike same) (file : String) :
    token.location file = same.location file := by
  rw [location, location, halike.position]

theorem kind_name_eq (halike : token.Alike same) : token.kind.name = same.kind.name := by
  rw [kind, kind, halike.value]

theorem row_eq (halike : token.Alike same) (file : String) (locationWidth kindWidth : Nat) :
    Listing.row file locationWidth kindWidth token =
      Listing.row file locationWidth kindWidth same := by
  rw [Listing.row, Listing.row, halike.location_eq, halike.kind_name_eq, payload, payload,
    halike.value]

theorem map_eq {α : Type} {entry : Token → α} {tokens others : List Token}
    (hsame : ∀ token same, Alike token same → entry token = entry same)
    (halike : List.Forall₂ Alike tokens others) : tokens.map entry = others.map entry := by
  have hequal : List.Forall₂ Eq (tokens.map entry) (others.map entry) := by
    rw [List.forall₂_map_left_iff, List.forall₂_map_right_iff]
    exact halike.imp hsame
  rwa [List.forall₂_eq_eq_eq] at hequal

end Token.Alike

namespace Listing

def listed (tokens : List Token) : List Token := tokens.filter fun token => !token.isEndOfFile

/-- The row of a token whose columns begin at the two offsets, behind at least two spaces each. -/
def IsRow (file : String) (kindColumn payloadColumn : Nat) (token : Token) (text : List Char) :
    Prop :=
  ∃ gap gap' : Nat, 2 ≤ gap ∧ 2 ≤ gap' ∧ (token.location file).length + gap = kindColumn ∧
    kindColumn + token.kind.name.length + gap' = payloadColumn ∧
    text = (token.location file).toList ++ (List.replicate gap ' ' ++ (token.kind.name.toList ++
      (List.replicate gap' ' ' ++ (token.payload.toList ++ ['\n']))))

theorem length_add_padding_le {entries : List String} {entry : String} (hmem : entry ∈ entries) :
    entry.length + padding ≤ columnWidth entries := by
  have hlength : entry.length ∈ entries.map String.length := List.mem_map_of_mem hmem
  have hle : entry.length ≤ (entries.map String.length).foldl max 0 := by
    rw [List.foldl_max]
    exact Nat.le_trans (List.le_max?_getD_of_mem hlength) (Nat.le_max_right _ _)
  exact Nat.add_le_add_right hle padding

theorem toList_pad (width : Nat) (entry : String) :
    (pad width entry).toList = entry.toList ++ List.replicate (width - entry.length) ' ' := by
  rw [pad, String.toList_ofList, List.rightpad, String.length_toList]

theorem isRow_row {file : String} {locationWidth kindWidth : Nat} {token : Token}
    (hlocation : (token.location file).length + padding ≤ locationWidth)
    (hkind : token.kind.name.length + padding ≤ kindWidth) :
    IsRow file locationWidth (locationWidth + kindWidth) token
      (row file locationWidth kindWidth token).toList := by
  unfold padding at hlocation hkind
  have hfeed : "\n".toList = ['\n'] := by decide
  refine ⟨locationWidth - (token.location file).length, kindWidth - token.kind.name.length,
    by omega, by omega, by omega, by omega, ?_⟩
  simp only [row, String.toList_append, toList_pad, hfeed, List.append_assoc]

theorem render_eq (file : String) (tokens : List Token) : render file tokens =
    String.join ((listed tokens).map (row file
      (columnWidth ((listed tokens).map fun token => token.location file))
      (columnWidth ((listed tokens).map fun token => token.kind.name)))) := rfl

theorem exists_rows (file : String) (tokens : List Token) : ∃ kindColumn payloadColumn rows,
    List.Forall₂ (IsRow file kindColumn payloadColumn) (listed tokens) rows ∧
      (render file tokens).toList = rows.flatten := by
  let locations := (listed tokens).map fun token => token.location file
  let kinds := (listed tokens).map fun token => token.kind.name
  let rows := (listed tokens).map (row file (columnWidth locations) (columnWidth kinds))
  refine ⟨columnWidth locations, columnWidth locations + columnWidth kinds,
    rows.map String.toList, ?_, ?_⟩
  · rw [List.forall₂_map_right_iff, List.forall₂_map_right_iff, List.forall₂_same]
    intro token hmem
    have hlocation : token.location file ∈ locations := List.mem_map_of_mem hmem
    have hkind : token.kind.name ∈ kinds := List.mem_map_of_mem hmem
    exact isRow_row (length_add_padding_le hlocation) (length_add_padding_le hkind)
  · rw [render_eq, String.toList_join, List.flatMap_def]

theorem location_append_inj {file : String} {token same : Token} {rest rest' : List Char}
    (hstop : Stops Char.isDigit rest) (hstop' : Stops Char.isDigit rest')
    (htext : (token.location file).toList ++ rest = (same.location file).toList ++ rest') :
    token.position = same.position ∧ rest = rest' := by
  have hcolon (text : List Char) : Stops Char.isDigit (':' :: text) := stops_cons (by decide) text
  simp only [Token.location, Position.toList_locate, List.append_assoc, List.cons_append] at htext
  have hplace := (List.cons.inj (List.append_cancel_left (List.append_cancel_left htext))).2
  obtain ⟨hline, hmore⟩ := append_inj_of_stops isDigit_of_mem_toString (hcolon _)
    isDigit_of_mem_toString (hcolon _) hplace
  obtain ⟨hcolumn, hrest⟩ := append_inj_of_stops isDigit_of_mem_toString hstop
    isDigit_of_mem_toString hstop' (List.cons.inj hmore).2
  refine ⟨?_, hrest⟩
  calc token.position
      = ⟨token.position.line, token.position.column⟩ := rfl
    _ = ⟨same.position.line, same.position.column⟩ := by
      rw [toString_inj hline, toString_inj hcolumn]

theorem stops_spaces {accept : Char → Bool} (hspace : accept ' ' = false) {gap : Nat}
    (hgap : 2 ≤ gap) (rest : List Char) : Stops accept (List.replicate gap ' ' ++ rest) := by
  obtain ⟨more, rfl⟩ := Nat.exists_eq_add_of_le' hgap
  exact stops_cons hspace _

theorem spaces_append_inj {gap gap' : Nat} {entry entry' rest rest' : List Char}
    (hfirst : entry.headD ' ' ≠ ' ') (hfirst' : entry'.headD ' ' ≠ ' ')
    (htext : List.replicate gap ' ' ++ (entry ++ rest) =
      List.replicate gap' ' ' ++ (entry' ++ rest')) : entry ++ rest = entry' ++ rest' := by
  have hspaces (gap : Nat) : ∀ c ∈ List.replicate gap ' ', (c == ' ') = true := by
    intro c hc
    exact beq_iff_eq.mpr (List.eq_of_mem_replicate hc)
  have hstop {entry : List Char} (hfirst : entry.headD ' ' ≠ ' ') (rest : List Char) :
      Stops (· == ' ') (entry ++ rest) := by
    cases entry with
    | nil => exact absurd rfl hfirst
    | cons c more => exact stops_cons (by simpa using hfirst) _
  exact (append_inj_of_stops (hspaces gap) (hstop hfirst rest) (hspaces gap')
    (hstop hfirst' rest') htext).2

/-- An entry reaches up to the first character that it cannot hold. -/
theorem entry_append_inj {entry entry' rest rest' : List Char} {last : Char}
    (hentry : last ∉ entry) (hentry' : last ∉ entry') (hstop : Stops (· != last) rest)
    (hstop' : Stops (· != last) rest') (htext : entry ++ rest = entry' ++ rest') :
    entry = entry' ∧ rest = rest' := by
  have hrun {entry : List Char} (hentry : last ∉ entry) : ∀ c ∈ entry, (c != last) = true := by
    intro c hc
    exact bne_iff_ne.mpr fun hlast => hentry (hlast ▸ hc)
  exact append_inj_of_stops (hrun hentry) hstop (hrun hentry') hstop' htext

theorem IsRow.ne_nil {file : String} {kindColumn payloadColumn : Nat} {token : Token}
    {text : List Char} (hrow : IsRow file kindColumn payloadColumn token text) : text ≠ [] := by
  obtain ⟨gap, wide, -, -, -, -, rfl⟩ := hrow
  simp

theorem IsRow.exists_line {file : String} {kindColumn payloadColumn : Nat} {token : Token}
    {text : List Char} (hrow : IsRow file kindColumn payloadColumn token text)
    (hshown : token.Shown) (hfile : '\n' ∉ file.toList) :
    ∃ line, text = line ++ ['\n'] ∧ '\n' ∉ line := by
  obtain ⟨gap, wide, -, -, -, -, rfl⟩ := hrow
  have hplace : '\n' ∉ (token.location file).toList := token.position.notMem_feed_locate hfile
  have hname := token.kind.isEntry_name.1.2
  refine ⟨(token.location file).toList ++ (List.replicate gap ' ' ++ (token.kind.name.toList ++
    (List.replicate wide ' ' ++ token.payload.toList))), by simp only [List.append_assoc], ?_⟩
  simp [hplace, hname, hshown.isEntry.2]

theorem IsRow.reads_back {file : String} {kindColumn payloadColumn kindColumn' payloadColumn' : Nat}
    {token same : Token} {text text' rest rest' : List Char}
    (hrow : IsRow file kindColumn payloadColumn token text)
    (hrow' : IsRow file kindColumn' payloadColumn' same text') (hshown : token.Shown)
    (hshown' : same.Shown) (htext : text ++ rest = text' ++ rest') :
    token.position = same.position ∧ token.value = same.value ∧ rest = rest' := by
  obtain ⟨gap, wide, hgap, hwide, -, -, rfl⟩ := hrow
  obtain ⟨gap', wide', hgap', hwide', -, -, rfl⟩ := hrow'
  simp only [List.append_assoc] at htext
  obtain ⟨hposition, htext⟩ := location_append_inj (stops_spaces (by decide) hgap _)
    (stops_spaces (by decide) hgap' _) htext
  obtain ⟨hentry, hspace⟩ := token.kind.isEntry_name
  obtain ⟨hentry', hspace'⟩ := same.kind.isEntry_name
  have htext := spaces_append_inj hentry.1 hentry'.1 htext
  obtain ⟨hname, htext⟩ := entry_append_inj hspace hspace'
    (stops_spaces (by decide) hwide _) (stops_spaces (by decide) hwide' _) htext
  have htext := spaces_append_inj hshown.isEntry.1 hshown'.isEntry.1 htext
  obtain ⟨hpayload, hrest⟩ := entry_append_inj hshown.isEntry.2 hshown'.isEntry.2
    (stops_cons (by decide) rest) (stops_cons (by decide) rest') htext
  have hvalue : some token.value = some same.value := by
    rw [← hshown.ofPayload?, ← hshown'.ofPayload?, Token.Kind.eq_of_name hname,
      String.toList_inj.mp hpayload]
  exact ⟨hposition, Option.some.inj hvalue, (List.cons.inj hrest).2⟩

theorem alike_of_flatten_eq {file : String}
    {kindColumn payloadColumn kindColumn' payloadColumn' : Nat} {tokens others : List Token}
    {rows rows' : List (List Char)}
    (hrows : List.Forall₂ (IsRow file kindColumn payloadColumn) tokens rows)
    (hrows' : List.Forall₂ (IsRow file kindColumn' payloadColumn') others rows')
    (hshown : ∀ token ∈ tokens, token.Shown) (hshown' : ∀ token ∈ others, token.Shown)
    (htext : rows.flatten = rows'.flatten) : List.Forall₂ Token.Alike tokens others := by
  -- The first rows are told apart by their own text, so each step leaves two shorter listings.
  induction hrows generalizing others rows' with
  | nil =>
    cases hrows' with
    | nil => exact .nil
    | cons hrow' _ => exact absurd (List.append_eq_nil_iff.mp htext.symm).1 hrow'.ne_nil
  | @cons token text tokens rows hrow _ ih =>
    cases hrows' with
    | nil => exact absurd (List.append_eq_nil_iff.mp htext).1 hrow.ne_nil
    | cons hrow' hmore' =>
      obtain ⟨hposition, hvalue, hrest⟩ := hrow.reads_back hrow' (hshown _ (.head _))
        (hshown' _ (.head _)) htext
      refine .cons ⟨hposition, hvalue⟩ (ih hmore' ?_ ?_ hrest)
      · exact fun other hother => hshown other (.tail _ hother)
      · exact fun other hother => hshown' other (.tail _ hother)

theorem render_eq_of_alike {file : String} {tokens others : List Token}
    (halike : List.Forall₂ Token.Alike (listed tokens) (listed others)) :
    render file tokens = render file others := by
  have hlocations := Token.Alike.map_eq (fun _ _ halike => halike.location_eq file) halike
  have hkinds := Token.Alike.map_eq (fun _ _ halike => halike.kind_name_eq) halike
  rw [render_eq, render_eq, hlocations, hkinds,
    Token.Alike.map_eq (fun _ _ halike => halike.row_eq file _ _) halike]

theorem shown_of_mem_listed {source : String} {file? : Option String} :
    ∀ token ∈ listed (tokenizeRecovering source file?).1, token.Shown := by
  intro token hmem
  obtain ⟨hmem, hend⟩ := List.mem_filter.mp hmem
  exact shown_of_mem_tokens hmem (by simpa using hend)

/-- A listing says all about a stream but the lexemes, and it says it in rows of three columns that
begin at the same offsets throughout. A row is one line if the file name does not break it. -/
theorem listing_reads_back (file source other : String) (source? other? : Option String) :
    let tokens := (tokenizeRecovering source source?).1
    let others := (tokenizeRecovering other other?).1
    (render file tokens = render file others ↔
      List.Forall₂ Token.Alike (listed tokens) (listed others)) ∧
    ∃ kindColumn payloadColumn rows,
      List.Forall₂ (fun token text => IsRow file kindColumn payloadColumn token text ∧
        ('\n' ∉ file.toList → ∃ line, text = line ++ ['\n'] ∧ '\n' ∉ line)) (listed tokens) rows ∧
      (render file tokens).toList = rows.flatten := by
  intro tokens others
  obtain ⟨kindColumn, payloadColumn, rows, hrows, hrender⟩ := exists_rows file tokens
  obtain ⟨_, _, rows', hrows', hrender'⟩ := exists_rows file others
  refine ⟨⟨fun hsame => ?_, render_eq_of_alike⟩, kindColumn, payloadColumn, rows, ?_, hrender⟩
  · rw [← String.toList_inj, hrender, hrender'] at hsame
    exact alike_of_flatten_eq hrows hrows' shown_of_mem_listed shown_of_mem_listed hsame
  · have hshown := (List.forall₂_and_left _ _).mpr ⟨shown_of_mem_listed, hrows⟩
    exact hshown.imp fun _ _ hrow => ⟨hrow.2, hrow.2.exists_line hrow.1⟩

example : let listing := "./é.ib:1:1  Keyword  Print\n./é.ib:1:7  Literal  \"a  b\"\n"
    render "é.ib" (tokenizeRecovering "PRINT \"a  b\"" none).1 = listing ∧
      render "é.ib" (tokenizeRecovering "print \"a  b\"" none).1 = listing := by decide +kernel

end Listing
end IBLexer
