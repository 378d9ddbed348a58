import IBLexer.Proofs.Text.Encoding
import Mathlib.Order.Bounds.Defs

/-! What the decoder makes of any bytes. The bytes begin with the encoding of a text, and behind
the longest one either nothing is left or no character can be read: then a sequence has begun
there that the end of the bytes cuts off, or one that no character goes on with. -/
namespace IBLexer.Utf8

/-- The bytes begin the encoding of a character and stop short of its end. -/
def Unfinished (bytes : List UInt8) : Prop :=
  bytes ≠ [] ∧ ∃ c : Char, bytes <+: String.utf8EncodeChar c ∧ bytes ≠ String.utf8EncodeChar c

def textLengths (bytes : List UInt8) : Set Nat :=
  { length | ∃ text, encode text <+: bytes ∧ (encode text).length = length }

/-- A faulty sequence takes one byte, or as many as could begin a character. -/
def faultyLengths (bytes : List UInt8) : Set Nat :=
  { length | length = 1 ∨ Unfinished (bytes.take length) }

def Defect.index : Defect → Nat
  | incomplete index => index
  | invalid _ index => index

/-- No character can be read from the bytes, which begin at the index, for this reason. -/
inductive Halts (index : Nat) (bytes : List UInt8) : Defect → Prop where
  | incomplete : Unfinished bytes → Halts index bytes (.incomplete index)
  | invalid {length : Nat} : IsGreatest (faultyLengths bytes) length →
    Halts index bytes (.invalid length index)

namespace Pending

inductive Continues : Pending → List UInt8 → Prop where
  | nil {pending : Pending} : Continues pending []
  | cons {pending : Pending} {more : Nat} {byte : UInt8} {bytes : List UInt8} :
    pending.more = more + 1 → pending.low ≤ byte.toNat ∧ byte.toNat ≤ pending.high →
    Continues ⟨0x80, 0xBF, more, pending.collect byte.toNat, pending.seen + 1⟩ bytes →
    Continues pending (byte :: bytes)

def Admits (pending : Pending) : Prop := pending.low ≤ pending.high ∧ pending.high ≤ 0xFF

theorem admits_mk (more bits seen : Nat) : Admits ⟨0x80, 0xBF, more, bits, seen⟩ :=
  ⟨by simp, by simp⟩

theorem admits_of_ofFirst? {byte : UInt8} {pending : Pending}
    (hfirst : ofFirst? byte.toNat = some pending) : pending.Admits := by
  have hall : ∀ n < 256, ∀ found ∈ ofFirst? n, found.low ≤ found.high ∧ found.high ≤ 0xFF := by
    decide +kernel
  exact hall byte.toNat byte.toNat_lt pending hfirst

theorem Admits.exists_byte {pending : Pending} (hadmits : pending.Admits) :
    ∃ byte : UInt8, pending.low ≤ byte.toNat ∧ byte.toNat ≤ pending.high := by
  obtain ⟨hrange, hhigh⟩ := hadmits
  have hbyte : (UInt8.ofNat pending.low).toNat = pending.low := toNat_ofNat_byte (by omega)
  exact ⟨UInt8.ofNat pending.low, by omega⟩

theorem Admits.exists_completes {pending : Pending} (hadmits : pending.Admits) :
    ∃ bytes value, bytes ≠ [] ∧ pending.Completes bytes value := by
  obtain ⟨byte, hrange⟩ := hadmits.exists_byte
  cases hmore : pending.more with
  | zero => exact ⟨[byte], _, List.cons_ne_nil _ _, .last hmore hrange rfl⟩
  | succ more =>
    obtain ⟨bytes, value, -, hcompletes⟩ :=
      (admits_mk more (pending.collect byte.toNat) (pending.seen + 1)).exists_completes
    exact ⟨byte :: bytes, value, List.cons_ne_nil _ _, .next hmore hrange hcompletes⟩
termination_by pending.more

theorem Continues.exists_completes {pending : Pending} {bytes : List UInt8}
    (hcontinues : pending.Continues bytes) (hadmits : pending.Admits) :
    ∃ rest value, rest ≠ [] ∧ pending.Completes (bytes ++ rest) value := by
  induction hcontinues with
  | nil => exact hadmits.exists_completes
  | cons hmore hrange _ ih =>
    obtain ⟨rest, value, hrest, hcompletes⟩ := ih (admits_mk _ _ _)
    exact ⟨rest, value, hrest, .next hmore hrange hcompletes⟩

theorem Completes.continues {pending : Pending} {bytes rest : List UInt8} {value : Nat}
    (hcompletes : pending.Completes (bytes ++ rest) value) (hrest : rest ≠ []) :
    pending.Continues bytes := by
  induction bytes generalizing pending with
  | nil => exact .nil
  | cons byte bytes ih =>
    cases hmore : pending.more with
    | zero =>
      obtain ⟨last, hlast, -⟩ := hcompletes.one hmore
      have hnil := (List.cons.inj hlast).2
      exact absurd (List.append_eq_nil_iff.mp hnil).2 hrest
    | succ more =>
      obtain ⟨byte, following, hbytes, hrange, hnext⟩ := hcompletes.more hmore
      obtain ⟨rfl, rfl⟩ := List.cons.inj hbytes
      exact .cons hmore hrange (ih hnext)

theorem Continues.of_cons {pending : Pending} {byte : UInt8} {bytes : List UInt8}
    (hcontinues : pending.Continues (byte :: bytes)) :
    ∃ more, pending.more = more + 1 ∧ (pending.low ≤ byte.toNat ∧ byte.toNat ≤ pending.high) ∧
      Continues ⟨0x80, 0xBF, more, pending.collect byte.toNat, pending.seen + 1⟩ bytes := by
  cases hcontinues with
  | cons hmore hrange hnext => exact ⟨_, hmore, hrange, hnext⟩

def continuedLengths (pending : Pending) (bytes : List UInt8) : Set Nat :=
  { count | pending.Continues (bytes.take count) }

theorem isGreatest_continuedLengths_zero {pending : Pending} {byte : UInt8}
    (hrange : ¬(pending.low ≤ byte.toNat ∧ byte.toNat ≤ pending.high)) (bytes : List UInt8) :
    IsGreatest (pending.continuedLengths (byte :: bytes)) 0 := by
  refine ⟨.nil, ?_⟩
  intro count hcount
  cases count with
  | zero => exact Nat.le_refl 0
  | succ count =>
    obtain ⟨_, -, hin, -⟩ := Continues.of_cons hcount
    exact absurd hin hrange

theorem isGreatest_continuedLengths_succ {pending : Pending} {more : Nat} {byte : UInt8}
    {bytes : List UInt8} {count : Nat} (hmore : pending.more = more + 1)
    (hrange : pending.low ≤ byte.toNat ∧ byte.toNat ≤ pending.high)
    (hgreatest : IsGreatest (continuedLengths
      ⟨0x80, 0xBF, more, pending.collect byte.toNat, pending.seen + 1⟩ bytes) count) :
    IsGreatest (pending.continuedLengths (byte :: bytes)) (count + 1) := by
  refine ⟨.cons hmore hrange hgreatest.1, ?_⟩
  intro other hother
  cases other with
  | zero => exact Nat.zero_le _
  | succ other =>
    obtain ⟨_, hsame, -, hnext⟩ := Continues.of_cons hother
    cases hmore.symm.trans hsame
    exact Nat.succ_le_succ (hgreatest.2 hnext)

/-- A sequence is completed by the bytes behind it, or goes on until they end, or goes on until
it meets a byte that does not belong to it. -/
theorem decodeFrom_cases (pending : Pending) (bytes : List UInt8) :
    (∃ front rest value, bytes = front ++ rest ∧ pending.Completes front value) ∨
    (pending.Continues bytes ∧ ∀ text index,
      decodeFrom text index (some pending) bytes = .error (.incomplete index)) ∨
    ∃ count, IsGreatest (pending.continuedLengths bytes) count ∧ ∀ text index,
      decodeFrom text index (some pending) bytes =
        .error (.invalid (pending.seen + count) index) := by
  induction bytes generalizing pending with
  | nil => exact .inr (.inl ⟨.nil, fun _ _ => rfl⟩)
  | cons byte bytes ih =>
    by_cases hrange : pending.low ≤ byte.toNat ∧ byte.toNat ≤ pending.high
    case neg =>
      refine .inr (.inr ⟨0, isGreatest_continuedLengths_zero hrange bytes, fun text index => ?_⟩)
      rw [decodeFrom, if_neg hrange, Nat.add_zero]
    case pos =>
    cases hmore : pending.more with
    | zero => exact .inl ⟨[byte], bytes, _, rfl, .last hmore hrange rfl⟩
    | succ more =>
      have hdecode (text : String) (index : Nat) :
          decodeFrom text index (some pending) (byte :: bytes) = decodeFrom text index
            (some ⟨0x80, 0xBF, more, pending.collect byte.toNat, pending.seen + 1⟩) bytes := by
        rw [decodeFrom, if_pos hrange, hmore]
      rcases ih ⟨0x80, 0xBF, more, pending.collect byte.toNat, pending.seen + 1⟩ with
        ⟨front, rest, value, rfl, hcompletes⟩ | ⟨hcontinues, herror⟩ | ⟨count, hgreatest, herror⟩
      · exact .inl ⟨byte :: front, rest, value, rfl, .next hmore hrange hcompletes⟩
      · refine .inr (.inl ⟨.cons hmore hrange hcontinues, fun text index => ?_⟩)
        rw [hdecode, herror]
      · have hgreatest := isGreatest_continuedLengths_succ hmore hrange hgreatest
        refine .inr (.inr ⟨count + 1, hgreatest, fun text index => ?_⟩)
        rw [hdecode, herror]
        dsimp only
        rw [Nat.add_right_comm, Nat.add_assoc]

end Pending

theorem unfinished_cons_iff {byte : UInt8} {bytes : List UInt8} :
    Unfinished (byte :: bytes) ↔
      ∃ pending, Pending.ofFirst? byte.toNat = some pending ∧ pending.Continues bytes := by
  constructor
  · rintro ⟨-, c, ⟨rest, hrest⟩, hne⟩
    have hmore : rest ≠ [] := by
      rintro rfl
      exact hne (by rw [← hrest, List.append_nil])
    rw [List.cons_append] at hrest
    by_cases hascii : c.toNat < 0x80
    · have hone := utf8EncodeChar_one (Nat.le_of_lt_succ hascii)
      rw [Char.ofNat_toNat, ← hrest] at hone
      exact absurd (List.append_eq_nil_iff.mp (List.cons.inj hone).2).2 hmore
    · have hsequence := sequence_utf8EncodeChar (Nat.le_of_not_lt hascii)
      rw [← hrest] at hsequence
      obtain ⟨hfirst, hcompletes⟩ := hsequence
      exact ⟨_, hfirst, hcompletes.continues hmore⟩
  · rintro ⟨pending, hfirst, hcontinues⟩
    obtain ⟨rest, value, hrest, hcompletes⟩ :=
      hcontinues.exists_completes (Pending.admits_of_ofFirst? hfirst)
    have hencode := (Sequence.intro hfirst hcompletes).utf8EncodeChar_eq
    refine ⟨List.cons_ne_nil _ _, Char.ofNat value, ?_, ?_⟩
    · rw [hencode]
      exact ⟨rest, rfl⟩
    · rw [hencode]
      intro hsame
      exact hrest (List.self_eq_append_right.mp (List.cons.inj hsame).2)

theorem not_unfinished_of_isGreatest {bytes : List UInt8} {length : Nat}
    (hgreatest : IsGreatest (faultyLengths bytes) length) : ¬Unfinished bytes := by
  intro hunfinished
  have hall : bytes.take (bytes.length + length + 1) = bytes := List.take_of_length_le (by omega)
  have hmem : bytes.length + length + 1 ∈ faultyLengths bytes := .inr (by rwa [hall])
  have hle := hgreatest.2 hmem
  omega

theorem isGreatest_of_ofFirst?_none {byte : UInt8} (hfirst : Pending.ofFirst? byte.toNat = none)
    (bytes : List UInt8) : IsGreatest (faultyLengths (byte :: bytes)) 1 := by
  refine ⟨.inl rfl, ?_⟩
  rintro length (rfl | hunfinished)
  · exact Nat.le_refl 1
  · cases length with
    | zero => exact Nat.zero_le 1
    | succ length =>
      obtain ⟨_, hsome, -⟩ := unfinished_cons_iff.mp hunfinished
      rw [hfirst] at hsome
      contradiction

theorem isGreatest_of_ofFirst?_some {byte : UInt8} {pending : Pending} {bytes : List UInt8}
    {count : Nat} (hfirst : Pending.ofFirst? byte.toNat = some pending)
    (hgreatest : IsGreatest (pending.continuedLengths bytes) count) :
    IsGreatest (faultyLengths (byte :: bytes)) (1 + count) := by
  constructor
  · rw [Nat.add_comm]
    exact .inr (unfinished_cons_iff.mpr ⟨pending, hfirst, hgreatest.1⟩)
  · rintro length (rfl | hunfinished)
    · exact Nat.le_add_right 1 count
    · cases length with
      | zero => exact Nat.zero_le _
      | succ length =>
        obtain ⟨found, hfound, hcontinues⟩ := unfinished_cons_iff.mp hunfinished
        cases hfirst.symm.trans hfound
        rw [Nat.add_comm]
        exact Nat.add_le_add_left (hgreatest.2 hcontinues) 1

theorem decodeFrom_none_cases (bytes : List UInt8) :
    bytes = [] ∨ (∃ c rest, bytes = String.utf8EncodeChar c ++ rest) ∨ ∀ text index,
      ∃ defect, decodeFrom text index none bytes = .error defect ∧ Halts index bytes defect := by
  cases bytes with
  | nil => exact .inl rfl
  | cons byte bytes =>
    by_cases hascii : byte.toNat < 0x80
    · refine .inr (.inl ⟨Char.ofNat byte.toNat, bytes, ?_⟩)
      rw [utf8EncodeChar_one (Nat.le_of_lt_succ hascii), UInt8.ofNat_toNat, List.singleton_append]
    cases hfirst : Pending.ofFirst? byte.toNat with
    | none =>
      refine .inr (.inr fun text index => ⟨.invalid 1 index, ?_, ?_⟩)
      · rw [decodeFrom, if_neg hascii, hfirst]
      · exact .invalid (isGreatest_of_ofFirst?_none hfirst bytes)
    | some pending =>
      have hdecode (text : String) (index : Nat) : decodeFrom text index none (byte :: bytes) =
          decodeFrom text index (some pending) bytes := by
        rw [decodeFrom, if_neg hascii, hfirst]
      rcases pending.decodeFrom_cases bytes with
        ⟨front, rest, value, rfl, hcompletes⟩ | ⟨hcontinues, herror⟩ | ⟨count, hgreatest, herror⟩
      · refine .inr (.inl ⟨Char.ofNat value, rest, ?_⟩)
        rw [(Sequence.intro hfirst hcompletes).utf8EncodeChar_eq, List.cons_append]
      · refine .inr (.inr fun text index => ⟨_, (hdecode text index).trans (herror text index), ?_⟩)
        exact .incomplete (unfinished_cons_iff.mpr ⟨pending, hfirst, hcontinues⟩)
      · refine .inr (.inr fun text index => ⟨_, (hdecode text index).trans (herror text index), ?_⟩)
        rw [Pending.seen_of_ofFirst? hfirst]
        exact .invalid (isGreatest_of_ofFirst?_some hfirst hgreatest)

theorem encode_singleton_append (c : Char) (text : String) :
    encode (String.singleton c ++ text) = String.utf8EncodeChar c ++ encode text := by
  simp [encode]

theorem exists_encode_append (bytes : List UInt8) : ∃ text rest, bytes = encode text ++ rest ∧
    ∀ c more, rest ≠ String.utf8EncodeChar c ++ more := by
  by_cases hfront : ∃ c more, bytes = String.utf8EncodeChar c ++ more
  · obtain ⟨c, more, hbytes⟩ := hfront
    -- Each character takes a byte at least, so the bytes run out.
    have hshort : more.length < bytes.length := by
      rw [hbytes, List.length_append, String.length_utf8EncodeChar]
      have hsize := Char.utf8Size_pos c
      omega
    obtain ⟨text, rest, hmore, hrest⟩ := exists_encode_append more
    refine ⟨String.singleton c ++ text, rest, ?_, hrest⟩
    rw [encode_singleton_append, List.append_assoc, ← hmore, hbytes]
  · exact ⟨"", bytes, rfl, fun c more hbytes => hfront ⟨c, more, hbytes⟩⟩
termination_by bytes.length
decreasing_by exact hshort

theorem decodeFrom_flatMap_append (chars : List Char) (text : String) (index : Nat)
    (rest : List UInt8) :
    decodeFrom text index none (chars.flatMap String.utf8EncodeChar ++ rest) =
      decodeFrom (text ++ String.ofList chars)
        (index + (chars.flatMap String.utf8EncodeChar).length) none rest := by
  induction chars generalizing text index with
  | nil => simp
  | cons c chars ih =>
    have htext : text.push c ++ String.ofList chars = text ++ String.ofList (c :: chars) := by
      apply String.toList_inj.mp
      simp
    rw [List.flatMap_cons, List.append_assoc, decodeFrom_utf8EncodeChar, ih, htext,
      List.length_append, String.length_utf8EncodeChar, Nat.add_assoc]

theorem decode_encode_append (text : String) (rest : List UInt8) :
    decode (encode text ++ rest) = decodeFrom text (encode text).length none rest := by
  rw [decode, encode, decodeFrom_flatMap_append, String.ofList_toList, String.empty_append,
    Nat.zero_add]

theorem decodeFrom_eq (bytes : List UInt8) (text : String) (index : Nat) :
    ∃ read rest, bytes = encode read ++ rest ∧
      (rest = [] ∧ decodeFrom text index none bytes = .ok (text ++ read) ∨
        ∃ defect, decodeFrom text index none bytes = .error defect ∧
          Halts (index + (encode read).length) rest defect) := by
  obtain ⟨read, rest, rfl, hstop⟩ := exists_encode_append bytes
  refine ⟨read, rest, rfl, ?_⟩
  rw [encode, decodeFrom_flatMap_append, String.ofList_toList]
  rcases decodeFrom_none_cases rest with rfl | ⟨c, more, hfront⟩ | hhalts
  · exact .inl ⟨rfl, rfl⟩
  · exact absurd hfront (hstop c more)
  · exact .inr (hhalts _ _)

theorem decode_eq_ok_iff {bytes : List UInt8} {text : String} :
    decode bytes = .ok text ↔ bytes = encode text := by
  constructor
  · intro hdecode
    obtain ⟨read, rest, rfl, ⟨rfl, hread⟩ | ⟨defect, herror, -⟩⟩ := decodeFrom_eq bytes "" 0
    · have hsame := hread.symm.trans hdecode
      rw [String.empty_append] at hsame
      rw [List.append_nil, Except.ok.inj hsame]
    · rw [decode, herror] at hdecode
      contradiction
  · rintro rfl
    have hdecode := decode_encode_append text []
    rwa [List.append_nil] at hdecode

theorem encode_injective : Function.Injective encode := by
  intro text other hencode
  have hdecode := (decode_eq_ok_iff.mpr rfl).symm.trans (decode_eq_ok_iff.mpr hencode)
  exact Except.ok.inj hdecode

theorem Halts.index_eq {index : Nat} {bytes : List UInt8} {defect : Defect}
    (hhalts : Halts index bytes defect) : defect.index = index := by
  cases hhalts with
  | incomplete _ => rfl
  | invalid _ => rfl

theorem index_le_of_decodeFrom {text : String} {index : Nat} {bytes : List UInt8} {defect : Defect}
    (hdecode : decodeFrom text index none bytes = .error defect) : index ≤ defect.index := by
  obtain ⟨read, rest, rfl, ⟨-, hread⟩ | ⟨found, herror, hhalts⟩⟩ := decodeFrom_eq bytes text index
  · rw [hread] at hdecode
    contradiction
  · cases herror.symm.trans hdecode
    rw [hhalts.index_eq]
    exact Nat.le_add_right _ _

/-- The index only moves on, over one text after another; so it ends up behind the longest. -/
theorem isGreatest_of_decode {bytes : List UInt8} {defect : Defect}
    (hdecode : decode bytes = .error defect) :
    IsGreatest (textLengths bytes) defect.index ∧
      Halts defect.index (bytes.drop defect.index) defect := by
  obtain ⟨read, rest, rfl, ⟨-, hread⟩ | ⟨found, herror, hhalts⟩⟩ := decodeFrom_eq bytes "" 0
  · rw [decode, hread] at hdecode
    contradiction
  cases herror.symm.trans hdecode
  rw [Nat.zero_add] at hhalts
  have hindex := hhalts.index_eq
  refine ⟨⟨⟨read, List.prefix_append _ _, hindex.symm⟩, ?_⟩, ?_⟩
  · rintro length ⟨text, ⟨more, hbytes⟩, rfl⟩
    -- The run that fails reads every text that the bytes begin with, so this one too.
    rw [← hbytes, decode_encode_append] at hdecode
    exact index_le_of_decodeFrom hdecode
  · rwa [hindex, List.drop_left]

example : decode [0x78, 0xE2, 0x82, 0x78] = .error (.invalid 2 1) := rfl

theorem Defect.message_invalid_ne (length index other : Nat) :
    (invalid length index).message ≠ (incomplete other).message := by
  intro hsame
  have hchars := congrArg String.toList hsame
  unfold message at hchars
  dsimp only at hchars
  rw [String.toList_append, String.toList_append, String.toList_append, String.toList_append,
    List.append_assoc, List.append_assoc] at hchars
  have hfront := congrArg (List.take 3) hchars
  rw [List.take_append_of_le_length (by decide), List.take_append_of_le_length (by decide)]
    at hfront
  exact absurd hfront (by decide)

end IBLexer.Utf8
