import IBLexer.Text.Utf8
import Mathlib.Tactic.SplitIfs

/-! The encoder beside the decoder, one character at a time: the sequences that the decoder knows
are the encodings of the characters beyond ASCII, and it reads each encoding as its character. -/
namespace IBLexer.Utf8

def encode (text : String) : List UInt8 := text.toList.flatMap String.utf8EncodeChar

/-- The bytes complete the sequence, and its bits together make the value. -/
inductive Pending.Completes : Pending → List UInt8 → Nat → Prop where
  | last {pending : Pending} {byte : UInt8} {value : Nat} : pending.more = 0 →
    pending.low ≤ byte.toNat ∧ byte.toNat ≤ pending.high →
    value = pending.collect byte.toNat → Completes pending [byte] value
  | next {pending : Pending} {more : Nat} {byte : UInt8} {bytes : List UInt8} {value : Nat} :
    pending.more = more + 1 → pending.low ≤ byte.toNat ∧ byte.toNat ≤ pending.high →
    Completes ⟨0x80, 0xBF, more, pending.collect byte.toNat, pending.seen + 1⟩ bytes value →
    Completes pending (byte :: bytes) value

@[simp] theorem Pending.collect_mk (low high more bits seen byte : Nat) :
    collect ⟨low, high, more, bits, seen⟩ byte = bits * 64 + (byte - 0x80) := rfl

theorem decodeFrom_of_completes {pending : Pending} {bytes : List UInt8} {value : Nat}
    (hcompletes : pending.Completes bytes value) (text : String) (index : Nat)
    (rest : List UInt8) :
    decodeFrom text index (some pending) (bytes ++ rest) =
      decodeFrom (text.push (Char.ofNat value)) (index + pending.seen + bytes.length) none rest := by
  induction hcompletes with
  | last hmore hrange hvalue =>
    rw [List.singleton_append, decodeFrom, if_pos hrange, hmore, hvalue]
    rfl
  | @next pending more byte bytes value hmore hrange _ ih =>
    have hindex : index + pending.seen + (byte :: bytes).length =
        index + (pending.seen + 1) + bytes.length := by
      rw [List.length_cons]
      omega
    rw [List.cons_append, decodeFrom, if_pos hrange, hmore, hindex]
    exact ih

namespace Pending.Completes

variable {pending : Pending} {bytes : List UInt8} {value : Nat}

theorem one (hcompletes : pending.Completes bytes value) (hmore : pending.more = 0) :
    ∃ byte, bytes = [byte] ∧ (pending.low ≤ byte.toNat ∧ byte.toNat ≤ pending.high) ∧
      value = pending.collect byte.toNat := by
  cases hcompletes with
  | last _ hrange hvalue => exact ⟨_, rfl, hrange, hvalue⟩
  | next hnext _ _ =>
    rw [hmore] at hnext
    contradiction

theorem more {more : Nat} (hcompletes : pending.Completes bytes value)
    (hmore : pending.more = more + 1) :
    ∃ byte rest, bytes = byte :: rest ∧
      (pending.low ≤ byte.toNat ∧ byte.toNat ≤ pending.high) ∧
      Completes ⟨0x80, 0xBF, more, pending.collect byte.toNat, pending.seen + 1⟩ rest value := by
  cases hcompletes with
  | last hlast _ _ =>
    rw [hmore] at hlast
    contradiction
  | next hnext hrange hrest =>
    rw [hmore] at hnext
    cases hnext
    exact ⟨_, _, rfl, hrange, hrest⟩

end Pending.Completes

theorem toNat_ofNat {value : Nat} (hvalid : value.isValidChar) :
    (Char.ofNat value).val.toNat = value := by
  rw [Char.ofNat, dif_pos hvalid]
  rfl

theorem utf8EncodeChar_one {value : Nat} (hhigh : value ≤ 0x7F) :
    String.utf8EncodeChar (Char.ofNat value) = [UInt8.ofNat value] := by
  have hvalid : value.isValidChar := Or.inl (by omega)
  rw [String.utf8EncodeChar, toNat_ofNat hvalid, if_pos hhigh]

theorem utf8EncodeChar_two {value : Nat} (hlow : 0x80 ≤ value) (hhigh : value ≤ 0x7FF) :
    String.utf8EncodeChar (Char.ofNat value) =
      [UInt8.ofNat (value / 64 + 0xC0), UInt8.ofNat (value % 64 + 0x80)] := by
  have hvalid : value.isValidChar := Or.inl (by omega)
  have hhead : value / 64 % 32 = value / 64 := by omega
  rw [String.utf8EncodeChar, toNat_ofNat hvalid, if_neg (by omega), if_pos hhigh, hhead]

theorem utf8EncodeChar_three {value : Nat} (hvalid : value.isValidChar) (hlow : 0x800 ≤ value)
    (hhigh : value ≤ 0xFFFF) :
    String.utf8EncodeChar (Char.ofNat value) =
      [UInt8.ofNat (value / 4096 + 0xE0), UInt8.ofNat (value / 64 % 64 + 0x80),
        UInt8.ofNat (value % 64 + 0x80)] := by
  have hhead : value / 4096 % 16 = value / 4096 := by omega
  rw [String.utf8EncodeChar, toNat_ofNat hvalid, if_neg (by omega), if_neg (by omega),
    if_pos hhigh, hhead]

theorem utf8EncodeChar_four {value : Nat} (hlow : 0x10000 ≤ value) (hhigh : value ≤ 0x10FFFF) :
    String.utf8EncodeChar (Char.ofNat value) =
      [UInt8.ofNat (value / 262144 + 0xF0), UInt8.ofNat (value / 4096 % 64 + 0x80),
        UInt8.ofNat (value / 64 % 64 + 0x80), UInt8.ofNat (value % 64 + 0x80)] := by
  have hvalid : value.isValidChar := Or.inr (by omega)
  have hhead : value / 262144 % 8 = value / 262144 := by omega
  rw [String.utf8EncodeChar, toNat_ofNat hvalid, if_neg (by omega), if_neg (by omega),
    if_neg (by omega), hhead]

namespace Pending

theorem ofFirst?_two {byte : Nat} (hrange : 0xC2 ≤ byte ∧ byte ≤ 0xDF) :
    ofFirst? byte = some ⟨0x80, 0xBF, 0, byte - 0xC0, 1⟩ := if_pos hrange

theorem ofFirst?_three {byte : Nat} (hrange : 0xE0 ≤ byte ∧ byte ≤ 0xEF) :
    ofFirst? byte = some ⟨if byte = 0xE0 then 0xA0 else 0x80, if byte = 0xED then 0x9F else 0xBF,
      1, byte - 0xE0, 1⟩ := by
  have hall : ∀ n < 0xF0, 0xE0 ≤ n → ofFirst? n = some ⟨if n = 0xE0 then 0xA0 else 0x80,
      if n = 0xED then 0x9F else 0xBF, 1, n - 0xE0, 1⟩ := by
    decide +kernel
  exact hall byte (Nat.lt_succ_of_le hrange.2) hrange.1

theorem ofFirst?_four {byte : Nat} (hrange : 0xF0 ≤ byte ∧ byte ≤ 0xF4) :
    ofFirst? byte = some ⟨if byte = 0xF0 then 0x90 else 0x80, if byte = 0xF4 then 0x8F else 0xBF,
      2, byte - 0xF0, 1⟩ := by
  have hall : ∀ n < 0xF5, 0xF0 ≤ n → ofFirst? n = some ⟨if n = 0xF0 then 0x90 else 0x80,
      if n = 0xF4 then 0x8F else 0xBF, 2, n - 0xF0, 1⟩ := by
    decide +kernel
  exact hall byte (Nat.lt_succ_of_le hrange.2) hrange.1

theorem range_of_ofFirst? {byte : UInt8} {pending : Pending}
    (hfirst : ofFirst? byte.toNat = some pending) : 0xC2 ≤ byte.toNat ∧ byte.toNat ≤ 0xF4 := by
  have hall : ∀ n < 256, (ofFirst? n).isSome = true → 0xC2 ≤ n ∧ n ≤ 0xF4 := by decide +kernel
  exact hall byte.toNat byte.toNat_lt (by rw [hfirst]; rfl)

theorem seen_of_ofFirst? {byte : UInt8} {pending : Pending}
    (hfirst : ofFirst? byte.toNat = some pending) : pending.seen = 1 := by
  have hall : ∀ n < 256, ∀ found ∈ ofFirst? n, found.seen = 1 := by decide +kernel
  exact hall byte.toNat byte.toNat_lt pending hfirst

end Pending

inductive Sequence : List UInt8 → Nat → Prop where
  | intro {byte : UInt8} {pending : Pending} {bytes : List UInt8} {value : Nat} :
    Pending.ofFirst? byte.toNat = some pending → pending.Completes bytes value →
    Sequence (byte :: bytes) value

theorem Sequence.decodeFrom_append {bytes : List UInt8} {value : Nat}
    (hsequence : Sequence bytes value) (text : String) (index : Nat) (rest : List UInt8) :
    decodeFrom text index none (bytes ++ rest) =
      decodeFrom (text.push (Char.ofNat value)) (index + bytes.length) none rest := by
  obtain ⟨hfirst, hcompletes⟩ := hsequence
  have hhigh := (Pending.range_of_ofFirst? hfirst).1
  rw [List.cons_append, decodeFrom, if_neg (by omega), hfirst]
  dsimp only
  rw [decodeFrom_of_completes hcompletes, Pending.seen_of_ofFirst? hfirst, List.length_cons,
    Nat.add_assoc, Nat.add_comm 1]

theorem utf8EncodeChar_of_two {byte : UInt8} {bytes : List UInt8} {value : Nat}
    (hrange : 0xC2 ≤ byte.toNat ∧ byte.toNat ≤ 0xDF)
    (hcompletes : Pending.Completes ⟨0x80, 0xBF, 0, byte.toNat - 0xC0, 1⟩ bytes value) :
    String.utf8EncodeChar (Char.ofNat value) = byte :: bytes := by
  obtain ⟨second, rfl, hsecond, hvalue⟩ := hcompletes.one rfl
  simp only [Pending.collect_mk] at hsecond hvalue
  have hhead : value / 64 + 0xC0 = byte.toNat := by omega
  have hlast : value % 64 + 0x80 = second.toNat := by omega
  rw [utf8EncodeChar_two (by omega) (by omega), hhead, hlast, UInt8.ofNat_toNat,
    UInt8.ofNat_toNat]

/-- The narrower ranges of the second byte keep out overlong forms and surrogates. -/
theorem utf8EncodeChar_of_three {byte : UInt8} {bytes : List UInt8} {value : Nat}
    (hrange : 0xE0 ≤ byte.toNat ∧ byte.toNat ≤ 0xEF)
    (hcompletes : Pending.Completes ⟨if byte.toNat = 0xE0 then 0xA0 else 0x80,
      if byte.toNat = 0xED then 0x9F else 0xBF, 1, byte.toNat - 0xE0, 1⟩ bytes value) :
    String.utf8EncodeChar (Char.ofNat value) = byte :: bytes := by
  obtain ⟨second, _, rfl, hsecond, hcompletes⟩ := hcompletes.more rfl
  obtain ⟨third, rfl, hthird, hvalue⟩ := hcompletes.one rfl
  simp only [Pending.collect_mk] at hsecond hthird hvalue
  have hbounds : 0x80 ≤ second.toNat ∧ second.toNat ≤ 0xBF ∧
      (byte.toNat = 0xE0 → 0xA0 ≤ second.toNat) ∧
      (byte.toNat = 0xED → second.toNat ≤ 0x9F) := by
    split_ifs at hsecond <;> omega
  have hvalid : value.isValidChar := by
    unfold Nat.isValidChar
    omega
  have hhead : value / 4096 + 0xE0 = byte.toNat := by omega
  have hnext : value / 64 % 64 + 0x80 = second.toNat := by omega
  have hlast : value % 64 + 0x80 = third.toNat := by omega
  rw [utf8EncodeChar_three hvalid (by omega) (by omega), hhead, hnext, hlast,
    UInt8.ofNat_toNat, UInt8.ofNat_toNat, UInt8.ofNat_toNat]

theorem utf8EncodeChar_of_four {byte : UInt8} {bytes : List UInt8} {value : Nat}
    (hrange : 0xF0 ≤ byte.toNat ∧ byte.toNat ≤ 0xF4)
    (hcompletes : Pending.Completes ⟨if byte.toNat = 0xF0 then 0x90 else 0x80,
      if byte.toNat = 0xF4 then 0x8F else 0xBF, 2, byte.toNat - 0xF0, 1⟩ bytes value) :
    String.utf8EncodeChar (Char.ofNat value) = byte :: bytes := by
  obtain ⟨second, _, rfl, hsecond, hcompletes⟩ := hcompletes.more rfl
  obtain ⟨third, _, rfl, hthird, hcompletes⟩ := hcompletes.more rfl
  obtain ⟨fourth, rfl, hfourth, hvalue⟩ := hcompletes.one rfl
  simp only [Pending.collect_mk] at hsecond hthird hfourth hvalue
  have hbounds : 0x80 ≤ second.toNat ∧ second.toNat ≤ 0xBF ∧
      (byte.toNat = 0xF0 → 0x90 ≤ second.toNat) ∧
      (byte.toNat = 0xF4 → second.toNat ≤ 0x8F) := by
    split_ifs at hsecond <;> omega
  have hhead : value / 262144 + 0xF0 = byte.toNat := by omega
  have hnext : value / 4096 % 64 + 0x80 = second.toNat := by omega
  have hmiddle : value / 64 % 64 + 0x80 = third.toNat := by omega
  have hlast : value % 64 + 0x80 = fourth.toNat := by omega
  rw [utf8EncodeChar_four (by omega) (by omega), hhead, hnext, hmiddle, hlast,
    UInt8.ofNat_toNat, UInt8.ofNat_toNat, UInt8.ofNat_toNat, UInt8.ofNat_toNat]

theorem Sequence.utf8EncodeChar_eq {bytes : List UInt8} {value : Nat}
    (hsequence : Sequence bytes value) : String.utf8EncodeChar (Char.ofNat value) = bytes := by
  obtain @⟨byte, pending, bytes, _, hfirst, hcompletes⟩ := hsequence
  obtain ⟨hlow, hhigh⟩ := Pending.range_of_ofFirst? hfirst
  by_cases htwo : byte.toNat ≤ 0xDF
  · rw [Pending.ofFirst?_two ⟨hlow, htwo⟩] at hfirst
    exact utf8EncodeChar_of_two ⟨hlow, htwo⟩ (Option.some.inj hfirst ▸ hcompletes)
  by_cases hthree : byte.toNat ≤ 0xEF
  · have hrange : 0xE0 ≤ byte.toNat ∧ byte.toNat ≤ 0xEF := ⟨by omega, hthree⟩
    rw [Pending.ofFirst?_three hrange] at hfirst
    exact utf8EncodeChar_of_three hrange (Option.some.inj hfirst ▸ hcompletes)
  · have hrange : 0xF0 ≤ byte.toNat ∧ byte.toNat ≤ 0xF4 := ⟨by omega, hhigh⟩
    rw [Pending.ofFirst?_four hrange] at hfirst
    exact utf8EncodeChar_of_four hrange (Option.some.inj hfirst ▸ hcompletes)

theorem toNat_ofNat_byte {n : Nat} (hlt : n < 256) : (UInt8.ofNat n).toNat = n :=
  UInt8.toNat_ofNat_of_lt' hlt

theorem sequence_two {value : Nat} (hlow : 0x80 ≤ value) (hhigh : value ≤ 0x7FF) :
    Sequence [UInt8.ofNat (value / 64 + 0xC0), UInt8.ofNat (value % 64 + 0x80)] value := by
  have hhead : (UInt8.ofNat (value / 64 + 0xC0)).toNat = _ := toNat_ofNat_byte (by omega)
  have hlast : (UInt8.ofNat (value % 64 + 0x80)).toNat = _ := toNat_ofNat_byte (by omega)
  refine .intro (Pending.ofFirst?_two (by omega)) (.last rfl ?_ ?_)
  · dsimp only
    omega
  · rw [Pending.collect_mk]
    omega

theorem sequence_three {value : Nat} (hvalid : value.isValidChar) (hlow : 0x800 ≤ value)
    (hhigh : value ≤ 0xFFFF) :
    Sequence [UInt8.ofNat (value / 4096 + 0xE0), UInt8.ofNat (value / 64 % 64 + 0x80),
      UInt8.ofNat (value % 64 + 0x80)] value := by
  have hhead : (UInt8.ofNat (value / 4096 + 0xE0)).toNat = _ := toNat_ofNat_byte (by omega)
  have hnext : (UInt8.ofNat (value / 64 % 64 + 0x80)).toNat = _ := toNat_ofNat_byte (by omega)
  have hlast : (UInt8.ofNat (value % 64 + 0x80)).toNat = _ := toNat_ofNat_byte (by omega)
  unfold Nat.isValidChar at hvalid
  refine .intro (Pending.ofFirst?_three (by omega)) (.next rfl ?_ (.last rfl ?_ ?_))
  · dsimp only
    split_ifs <;> omega
  · dsimp only
    omega
  · simp only [Pending.collect_mk]
    omega

theorem sequence_four {value : Nat} (hlow : 0x10000 ≤ value) (hhigh : value ≤ 0x10FFFF) :
    Sequence [UInt8.ofNat (value / 262144 + 0xF0), UInt8.ofNat (value / 4096 % 64 + 0x80),
      UInt8.ofNat (value / 64 % 64 + 0x80), UInt8.ofNat (value % 64 + 0x80)] value := by
  have hhead : (UInt8.ofNat (value / 262144 + 0xF0)).toNat = _ := toNat_ofNat_byte (by omega)
  have hnext : (UInt8.ofNat (value / 4096 % 64 + 0x80)).toNat = _ := toNat_ofNat_byte (by omega)
  have hmiddle : (UInt8.ofNat (value / 64 % 64 + 0x80)).toNat = _ := toNat_ofNat_byte (by omega)
  have hlast : (UInt8.ofNat (value % 64 + 0x80)).toNat = _ := toNat_ofNat_byte (by omega)
  refine .intro (Pending.ofFirst?_four (by omega)) (.next rfl ?_ (.next rfl ?_ (.last rfl ?_ ?_)))
  · dsimp only
    split_ifs <;> omega
  · dsimp only
    omega
  · dsimp only
    omega
  · simp only [Pending.collect_mk]
    omega

theorem sequence_utf8EncodeChar {c : Char} (hlow : 0x80 ≤ c.toNat) :
    Sequence (String.utf8EncodeChar c) c.toNat := by
  have hvalid : c.toNat.isValidChar := c.valid
  have hchar := Char.ofNat_toNat c
  generalize c.toNat = value at hlow hvalid hchar
  subst hchar
  by_cases htwo : value ≤ 0x7FF
  · rw [utf8EncodeChar_two hlow htwo]
    exact sequence_two hlow htwo
  by_cases hthree : value ≤ 0xFFFF
  · rw [utf8EncodeChar_three hvalid (by omega) hthree]
    exact sequence_three hvalid (by omega) hthree
  · have hhigh : value ≤ 0x10FFFF := by
      unfold Nat.isValidChar at hvalid
      omega
    rw [utf8EncodeChar_four (by omega) hhigh]
    exact sequence_four (by omega) hhigh

theorem decodeFrom_utf8EncodeChar (c : Char) (text : String) (index : Nat) (rest : List UInt8) :
    decodeFrom text index none (String.utf8EncodeChar c ++ rest) =
      decodeFrom (text.push c) (index + c.utf8Size) none rest := by
  rw [← String.length_utf8EncodeChar]
  by_cases hascii : c.toNat < 0x80
  · have hbyte := toNat_ofNat_byte (Nat.lt_trans hascii (by decide))
    have hchar := utf8EncodeChar_one (Nat.le_of_lt_succ hascii)
    rw [Char.ofNat_toNat] at hchar
    rw [hchar, List.singleton_append, decodeFrom, hbyte, if_pos hascii, Char.ofNat_toNat]
    rfl
  · have hsequence := sequence_utf8EncodeChar (Nat.le_of_not_lt hascii)
    rw [hsequence.decodeFrom_append, Char.ofNat_toNat]

end IBLexer.Utf8
