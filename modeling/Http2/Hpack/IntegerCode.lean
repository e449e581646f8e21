import Http2.Hpack.Checked

/-! Which octets stand for which integer, and that `src/hpack/integer.rs` reads and writes these. -/
namespace Http2.Hpack.Integer

open Lib.Checked

/-! ## The code -/

/-- The loop of `encoded_len`. -/
def encodedLenRest (remaining len : Nat) : Nat :=
  if remaining ≥ 128 then encodedLenRest (remaining >>> 7) (len + 1) else len + 1
termination_by remaining
decreasing_by
  rw [Nat.shiftRight_eq_div_pow]
  omega

/-- `encoded_len`. -/
def encodedLen (value prefixBits : Nat) : Nat :=
  let maxPrefix := (1 <<< prefixBits) - 1
  if value < maxPrefix then 1 else encodedLenRest (value - maxPrefix) 1

/-- The octets after the first one: seven bits each, the lowest first, and the last one below 128. -/
inductive Continues : Bytes → Nat → Prop
  | last {b : UInt8} (h : b.toNat < 128) : Continues [b] b.toNat
  | more {b : UInt8} {octets : Bytes} {r : Nat} (h : 128 ≤ b.toNat) (hr : Continues octets r) :
      Continues (b :: octets) (b.toNat - 128 + 128 * r)

/-- The integer with a prefix of so many bits; the upper bits of the first octet say nothing. -/
inductive Denotes (prefixBits : Nat) : Bytes → Nat → Prop
  | short {first : UInt8} (h : first.toNat % 2 ^ prefixBits < 2 ^ prefixBits - 1) :
      Denotes prefixBits [first] (first.toNat % 2 ^ prefixBits)
  | long {first : UInt8} {octets : Bytes} {r : Nat}
      (h : first.toNat % 2 ^ prefixBits = 2 ^ prefixBits - 1) (hr : Continues octets r) :
      Denotes prefixBits (first :: octets) (2 ^ prefixBits - 1 + r)

/-- `decodeRest` without a width: what a shift would lose is kept. -/
def decodeRestExact (value shift offset : Nat) : Bytes → Except Error (Nat × Nat)
  | [] => .error (.hpackError "incomplete HPACK integer")
  | byte :: buf =>
    if shift ≥ 63 then .error (.hpackError "HPACK integer overflow")
    else
      let value := value + (byte &&& 0x7f).toNat <<< shift
      if value ≥ 2 ^ 64 then .error (.hpackError "HPACK integer overflow")
      else if byte &&& 0x80 = 0 then .ok (value, offset + 1)
      else decodeRestExact value (shift + 7) (offset + 1) buf

def decodeExact (buf : Bytes) (prefixBits : Nat) : Except Error (Nat × Nat) :=
  match buf with
  | [] => .error (.hpackError "incomplete HPACK integer")
  | byte :: buf =>
    let maxPrefix := (1 <<< prefixBits) - 1
    let firstByte := (byte &&& UInt8.ofNat maxPrefix).toNat
    if firstByte < maxPrefix then .ok (firstByte, 1)
    else decodeRestExact maxPrefix 0 1 buf

/-! ## Octets -/

theorem Continues.lt {octets : Bytes} {r : Nat} (h : Continues octets r) : r < 128 ^ octets.length := by
  induction h with
  | last h => simpa using h
  | @more b octets r h hr ih =>
    have hb := b.toNat_lt
    rw [List.length_cons, Nat.pow_succ]
    omega

theorem Continues.length_pos {octets : Bytes} {r : Nat} (h : Continues octets r) : 0 < octets.length := by
  cases h with
  | last h => exact Nat.one_pos
  | more h hr => exact Nat.succ_pos _

theorem octet_bits (b : UInt8) :
    (b &&& 0x7f).toNat = b.toNat % 128 ∧ (b &&& 0x80 = 0 ↔ b.toNat < 128) := by
  have hall : ∀ m < 256, (UInt8.ofNat m &&& 0x7f).toNat = m % 128 ∧
      (UInt8.ofNat m &&& 0x80 = 0 ↔ m < 128) := by decide +kernel
  have hb := hall b.toNat b.toNat_lt
  rwa [UInt8.ofNat_toNat] at hb

theorem toNat_and_mask {prefixBits : Nat} (hbits : prefixBits ≤ 8) (b : UInt8) :
    (b &&& UInt8.ofNat (2 ^ prefixBits - 1)).toNat = b.toNat % 2 ^ prefixBits := by
  have hpow : 2 ^ prefixBits ≤ 2 ^ 8 := Nat.pow_le_pow_right (by decide) hbits
  have hmask : (2 ^ prefixBits - 1) % 2 ^ 8 = 2 ^ prefixBits - 1 := by
    have hpos := Nat.two_pow_pos prefixBits
    exact Nat.mod_eq_of_lt (by omega)
  rw [UInt8.toNat_and, UInt8.toNat_ofNat', hmask, Nat.and_two_pow_sub_one_eq_mod]

/-- What a turn adds is less than the next turn counts. -/
theorem contribution_le {shift k m : Nat} (hm : m < 128) (hk : shift + 7 * (k + 1) = 63) :
    2 ^ (shift + 7) = 128 * 2 ^ shift ∧ m * 2 ^ shift + 2 ^ shift ≤ 2 ^ (shift + 7) ∧
      2 ^ (shift + 7) ≤ 2 ^ 63 := by
  have hpow : 2 ^ (shift + 7) = 128 * 2 ^ shift := by
    rw [Nat.pow_add]
    omega
  have hle : 2 ^ (shift + 7) ≤ 2 ^ 63 := Nat.pow_le_pow_right (by decide) (by omega)
  have hmul : m * 2 ^ shift ≤ 127 * 2 ^ shift := Nat.mul_le_mul_right _ (by omega)
  exact ⟨hpow, by omega, hle⟩

theorem shiftLeft_lossless {shift k m : Nat} (hm : m < 128) (hk : shift + 7 * (k + 1) = 63) :
    (m <<< shift) % 2 ^ 64 = m <<< shift := by
  obtain ⟨-, hle, hmax⟩ := contribution_le hm hk
  have hfits : m * 2 ^ shift ≤ 2 ^ 63 := (Nat.le_add_right _ _).trans (hle.trans hmax)
  rw [Nat.shiftLeft_eq]
  exact Nat.mod_eq_of_lt (Nat.lt_of_le_of_lt hfits (by decide))

/-! ## Decoding -/

theorem low_lt (b : UInt8) : (b &&& 0x7f).toNat < 128 := by
  rw [(octet_bits b).1]
  exact Nat.mod_lt _ (by decide)

/-- No shift loses anything. -/
theorem decodeRest_exact {value shift offset k : Nat} {buf : Bytes} (hk : shift + 7 * k = 63) :
    decodeRest value shift offset buf = decodeRestExact value shift offset buf := by
  induction buf generalizing value shift offset k with
  | nil => rfl
  | cons b buf ih =>
    rw [decodeRestExact, decodeRest]
    by_cases h63 : shift ≥ 63
    · rw [if_pos h63, if_pos h63]
    · obtain ⟨k, rfl⟩ : ∃ j, k = j + 1 := ⟨k - 1, by omega⟩
      rw [if_neg h63, if_neg h63]
      simp only [shiftLeft_lossless (low_lt b) hk]
      rw [ih (k := k) (by omega)]

theorem decode_exact (buf : Bytes) (prefixBits : Nat) :
    decode buf prefixBits = decodeExact buf prefixBits := by
  cases buf with
  | nil => rfl
  | cons b buf => rw [decodeExact, decode, decodeRest_exact (k := 9) rfl]

section Turn

variable {value shift offset k : Nat} {b : UInt8} {buf : Bytes}

/-- A turn of the loop that is not the last one allowed. -/
theorem decodeRest_turn (hk : shift + 7 * (k + 1) = 63) (hvalue : value + 2 ^ 63 < 2 ^ 64 + 2 ^ shift) :
    decodeRest value shift offset (b :: buf) =
      if b.toNat < 128 then .ok (value + b.toNat % 128 * 2 ^ shift, offset + 1)
      else decodeRest (value + b.toNat % 128 * 2 ^ shift) (shift + 7) (offset + 1) buf := by
  obtain ⟨hlow, hlast⟩ := octet_bits b
  obtain ⟨-, hle, hmax⟩ := contribution_le (low_lt b) hk
  rw [hlow] at hle
  rw [decodeRest, if_neg (by omega)]
  simp only [shiftLeft_lossless (low_lt b) hk]
  simp only [Nat.shiftLeft_eq, hlow, hlast]
  rw [if_neg (by omega)]

theorem turn_bound (hk : shift + 7 * (k + 1) = 63) (hvalue : value + 2 ^ 63 < 2 ^ 64 + 2 ^ shift) :
    value + b.toNat % 128 * 2 ^ shift + 2 ^ 63 < 2 ^ 64 + 2 ^ (shift + 7) := by
  obtain ⟨-, hle, -⟩ := contribution_le (low_lt b) hk
  rw [(octet_bits b).1] at hle
  omega

end Turn

/-- With `k` turns left the loop reads what continues the integer, if that takes no more of them. -/
theorem decodeRest_iff {value shift offset k v n : Nat} {buf : Bytes} (hk : shift + 7 * k = 63)
    (hvalue : value + 2 ^ 63 < 2 ^ 64 + 2 ^ shift) :
    decodeRest value shift offset buf = .ok (v, n) ↔
      ∃ octets rest r, buf = octets ++ rest ∧ Continues octets r ∧ octets.length ≤ k ∧
        v = value + r * 2 ^ shift ∧ n = offset + octets.length := by
  induction buf generalizing value shift offset k with
  | nil =>
    constructor
    · intro h
      cases h
    · rintro ⟨octets, rest, r, hnil, hr, -⟩
      have hpos := hr.length_pos
      rw [(List.append_eq_nil_iff.1 hnil.symm).1] at hpos
      cases hpos
  | cons b buf ih =>
    cases k with
    | zero =>
      rw [decodeRest, if_pos (by omega)]
      constructor
      · intro h
        cases h
      · rintro ⟨octets, rest, r, -, hr, hshort, -⟩
        have hpos := hr.length_pos
        omega
    | succ k =>
      rw [decodeRest_turn hk hvalue]
      split
      · rename_i hlast
        constructor
        · intro h
          cases h
          exact ⟨[b], buf, b.toNat, rfl, .last hlast, Nat.succ_pos k, by
            rw [Nat.mod_eq_of_lt hlast], rfl⟩
        · rintro ⟨octets, rest, r, heq, hr, -, rfl, rfl⟩
          cases hr with
          | last h =>
            obtain ⟨rfl, rfl⟩ := List.cons.inj heq
            rw [Nat.mod_eq_of_lt hlast]
            rfl
          | more h hr =>
            obtain ⟨rfl, -⟩ := List.cons.inj heq
            omega
      · rename_i hmore
        have hsplit : ∀ r, (b.toNat - 128 + 128 * r) * 2 ^ shift =
            b.toNat % 128 * 2 ^ shift + r * 2 ^ (shift + 7) := by
          intro r
          have hb := b.toNat_lt
          have hmod : b.toNat % 128 = b.toNat - 128 := by omega
          rw [hmod, Nat.pow_add]
          ring
        rw [ih (k := k) (by omega) (turn_bound hk hvalue)]
        constructor
        · rintro ⟨octets, rest, r, rfl, hr, hshort, rfl, rfl⟩
          refine ⟨b :: octets, rest, _, rfl, .more (by omega) hr, Nat.succ_le_succ hshort, ?_, ?_⟩
          · rw [hsplit]
            omega
          · rw [List.length_cons]
            omega
        · rintro ⟨octets, rest, r, heq, hr, hshort, rfl, rfl⟩
          cases hr with
          | last h =>
            obtain ⟨rfl, -⟩ := List.cons.inj heq
            omega
          | @more _ octets r h hr =>
            obtain ⟨rfl, rfl⟩ := List.cons.inj heq
            refine ⟨octets, rest, r, rfl, hr, Nat.le_of_succ_le_succ hshort, ?_, ?_⟩
            · rw [hsplit]
              omega
            · rw [List.length_cons]
              omega

/-- What is too long for the loop is an overflow. -/
theorem decodeRest_overflow {value shift offset k r : Nat} {octets : Bytes} (rest : Bytes)
    (hk : shift + 7 * k = 63) (hvalue : value + 2 ^ 63 < 2 ^ 64 + 2 ^ shift)
    (hr : Continues octets r) (hlong : k < octets.length) :
    decodeRest value shift offset (octets ++ rest) = .error (.hpackError "HPACK integer overflow") := by
  induction hr generalizing value shift offset k with
  | @last b h =>
    obtain rfl : k = 0 := Nat.lt_one_iff.1 hlong
    rw [List.cons_append, decodeRest, if_pos (by omega)]
  | @more b octets r h hr ih =>
    rw [List.cons_append]
    cases k with
    | zero => rw [decodeRest, if_pos (by omega)]
    | succ k =>
      rw [decodeRest_turn hk hvalue, if_neg (by omega)]
      exact ih (by omega) (turn_bound hk hvalue) (Nat.lt_of_succ_lt_succ hlong)

section Whole

variable {prefixBits : Nat}

theorem maxPrefix_le (hbits : prefixBits ≤ 8) : 2 ^ prefixBits - 1 ≤ 255 := by
  have hpow : 2 ^ prefixBits ≤ 2 ^ 8 := Nat.pow_le_pow_right (by decide) hbits
  omega

theorem decode_cons (hbits : prefixBits ≤ 8) (b : UInt8) (buf : Bytes) :
    decode (b :: buf) prefixBits =
      if b.toNat % 2 ^ prefixBits < 2 ^ prefixBits - 1 then .ok (b.toNat % 2 ^ prefixBits, 1)
      else decodeRest (2 ^ prefixBits - 1) 0 1 buf := by
  rw [decode]
  simp only [Nat.one_shiftLeft, toNat_and_mask hbits]

/-- The integers that are read: those with no more than nine octets after the first. -/
theorem decode_iff (hbits : prefixBits ≤ 8) {v n : Nat} {buf : Bytes} :
    decode buf prefixBits = .ok (v, n) ↔
      ∃ octets rest, buf = octets ++ rest ∧ Denotes prefixBits octets v ∧ octets.length = n ∧ n ≤ 10 := by
  have hmax := maxPrefix_le hbits
  cases buf with
  | nil =>
    constructor
    · intro h
      cases h
    · rintro ⟨octets, rest, hnil, hv, -⟩
      rw [(List.append_eq_nil_iff.1 hnil.symm).1] at hv
      cases hv
  | cons b buf =>
    rw [decode_cons hbits]
    split
    · rename_i hshort
      constructor
      · intro h
        cases h
        exact ⟨[b], buf, rfl, .short hshort, rfl, by decide⟩
      · rintro ⟨octets, rest, heq, hv, rfl, -⟩
        cases hv with
        | short h =>
          obtain ⟨rfl, rfl⟩ := List.cons.inj heq
          rfl
        | long h hr =>
          obtain ⟨rfl, -⟩ := List.cons.inj heq
          omega
    · rename_i hlong
      have hfull : b.toNat % 2 ^ prefixBits = 2 ^ prefixBits - 1 := by
        have hlt := Nat.mod_lt b.toNat (Nat.two_pow_pos prefixBits)
        omega
      rw [decodeRest_iff (k := 9) rfl (by omega)]
      constructor
      · rintro ⟨octets, rest, r, rfl, hr, hturns, rfl, rfl⟩
        refine ⟨b :: octets, rest, rfl, ?_, Nat.add_comm _ _, by omega⟩
        rw [Nat.pow_zero, Nat.mul_one]
        exact .long hfull hr
      · rintro ⟨octets, rest, heq, hv, rfl, hturns⟩
        cases hv with
        | short h =>
          obtain ⟨rfl, -⟩ := List.cons.inj heq
          omega
        | @long _ octets r h hr =>
          obtain ⟨rfl, rfl⟩ := List.cons.inj heq
          refine ⟨octets, rest, r, rfl, hr, Nat.le_of_succ_le_succ hturns, ?_, Nat.add_comm _ _⟩
          rw [Nat.pow_zero, Nat.mul_one]

theorem decode_overflow (hbits : prefixBits ≤ 8) {octets : Bytes} {v : Nat} (rest : Bytes)
    (hv : Denotes prefixBits octets v) (hlong : 10 < octets.length) :
    decode (octets ++ rest) prefixBits = .error (.hpackError "HPACK integer overflow") := by
  have hmax := maxPrefix_le hbits
  cases hv with
  | short h => exact absurd (Nat.le_of_succ_le_succ hlong) (Nat.not_succ_le_zero 9)
  | @long b octets r h hr =>
    rw [List.cons_append, decode_cons hbits, if_neg (by omega)]
    exact decodeRest_overflow rest (k := 9) rfl (by omega) hr (Nat.lt_of_succ_lt_succ hlong)

end Whole

/-! ## Encoding -/

theorem div_lt {n remaining : Nat} (h : remaining < 128 ^ (n + 1)) (hge : 128 ≤ remaining) :
    remaining / 128 < 128 ^ n ∧ 0 < n := by
  have hdiv : remaining / 128 < 128 ^ n := by
    rw [Nat.div_lt_iff_lt_mul (by decide)]
    rwa [Nat.pow_succ] at h
  refine ⟨hdiv, Nat.pos_of_ne_zero ?_⟩
  rintro rfl
  rw [Nat.pow_zero] at hdiv
  omega

theorem encodedLenRest_eq {n remaining len : Nat} (h : remaining < 128 ^ n) (hn : 0 < n) :
    encodedLenRest remaining len = len + (octets n remaining).length := by
  induction n generalizing remaining len with
  | zero => cases hn
  | succ n ih =>
    rw [encodedLenRest, octets]
    split
    · rename_i hge
      obtain ⟨hdiv, hpos⟩ := div_lt h hge
      rw [Nat.shiftRight_eq_div_pow, ih hdiv hpos, List.length_cons]
      omega
    · rfl

theorem octets_continues {n remaining : Nat} (h : remaining < 128 ^ n) (hn : 0 < n) :
    Continues (octets n remaining) remaining := by
  induction n generalizing remaining with
  | zero => cases hn
  | succ n ih =>
    rw [octets]
    split
    · rename_i hge
      obtain ⟨hdiv, hpos⟩ := div_lt h hge
      have hoctet : (UInt8.ofNat (128 + remaining % 128)).toNat = 128 + remaining % 128 :=
        UInt8.toNat_ofNat_of_lt' (by simp only [UInt8.size]; omega)
      have hmore := Continues.more (b := UInt8.ofNat (128 + remaining % 128)) (by omega) (ih hdiv hpos)
      have hsum : 128 + remaining % 128 - 128 + 128 * (remaining / 128) = remaining := by omega
      rwa [hoctet, hsum] at hmore
    · have hoctet : (UInt8.ofNat remaining).toNat = remaining :=
        UInt8.toNat_ofNat_of_lt' (by simp only [UInt8.size]; omega)
      have hlast := Continues.last (b := UInt8.ofNat remaining) (by omega)
      rwa [hoctet] at hlast

section Codec

variable {prefixBits value : Nat} {prefixValue : UInt8}

theorem rest_lt (hvalue : value < 2 ^ 64) : value - (2 ^ prefixBits - 1) < 128 ^ 15 :=
  Nat.lt_of_le_of_lt (Nat.sub_le _ _) (Nat.lt_trans hvalue (by decide))

variable (prefixBits) in
/-- What is left of the value behind the first octet. -/
theorem continues_rest (hvalue : value < 2 ^ 64) :
    Continues (octets 15 (value - (2 ^ prefixBits - 1))) (value - (2 ^ prefixBits - 1)) :=
  octets_continues (rest_lt hvalue) (by decide)

/-- The octet that starts an integer, as the decoder sees it. -/
theorem first_mod {v : Nat} (hbits : prefixBits ≤ 8) (hv : v < 2 ^ prefixBits)
    (hp : prefixValue.toNat % 2 ^ prefixBits = 0) :
    (prefixValue ||| UInt8.ofNat v).toNat % 2 ^ prefixBits = v := by
  rw [← toNat_and_mask hbits]
  exact toNat_prefix_and hbits hv hp

theorem encodeTemp_denotes (hbits : prefixBits ≤ 8) (hvalue : value < 2 ^ 64)
    (hp : prefixValue.toNat % 2 ^ prefixBits = 0) :
    Denotes prefixBits (encodeTemp value prefixBits prefixValue) value := by
  have hpos := Nat.two_pow_pos prefixBits
  rw [encodeTemp_eq value prefixBits prefixValue hvalue]
  split
  · rename_i hshort
    have hfirst := first_mod (v := value) hbits (by omega) hp
    have hdenotes : Denotes prefixBits [prefixValue ||| UInt8.ofNat value] _ :=
      .short (by rwa [hfirst])
    rwa [hfirst] at hdenotes
  · rename_i hlong
    have hfirst := first_mod (v := 2 ^ prefixBits - 1) hbits (by omega) hp
    have hdenotes := Denotes.long hfirst (continues_rest prefixBits hvalue)
    rwa [Nat.add_sub_cancel' (by omega)] at hdenotes

theorem length_encodeTemp (hvalue : value < 2 ^ 64) :
    (encodeTemp value prefixBits prefixValue).length = encodedLen value prefixBits := by
  rw [encodeTemp_eq value prefixBits prefixValue hvalue, encodedLen]
  simp only [Nat.one_shiftLeft]
  split
  · rfl
  · rw [encodedLenRest_eq (rest_lt hvalue) (by decide), List.length_cons, Nat.add_comm]

/-- Ten octets hold what is below the bound, and no fewer than eleven what is not. -/
theorem length_encodeTemp_le_iff (hvalue : value < 2 ^ 64) :
    (encodeTemp value prefixBits prefixValue).length ≤ 10 ↔
      value < 2 ^ prefixBits - 1 ∨ value - (2 ^ prefixBits - 1) < 2 ^ 63 := by
  rw [encodeTemp_eq value prefixBits prefixValue hvalue]
  split
  · rename_i hshort
    exact ⟨fun _ => .inl hshort, fun _ => by simp⟩
  · rename_i hlong
    rw [List.length_cons]
    constructor
    · intro hle
      have hlt := (continues_rest prefixBits hvalue).lt
      have hmono := Nat.pow_le_pow_right (n := 128) (by decide) (Nat.le_of_succ_le_succ hle)
      exact .inr (Nat.lt_of_lt_of_le hlt hmono)
    · rintro (hshort | hsmall)
      · exact absurd hshort hlong
      · have hle := length_octets_le (n := 15) (k := 9) hsmall (by decide)
        omega

end Codec

/-- A `u64` is written in `encoded_len` octets and read back whatever follows, up to the largest
integer that the decoder reads. Whatever octets it is given, the decoder never panics or loses a bit,
and reads the integer that the octets taken stand for, not those after them. -/
theorem integer_codec {prefixBits : Nat} (hbits : prefixBits ≤ 8) :
    (∀ (value : UInt64) (prefixValue : UInt8) (rest : Bytes), prefixValue.toNat % 2 ^ prefixBits = 0 →
      ∃ octets, encode 16 value.toNat prefixBits prefixValue = .ok octets ∧
        octets.length = encodedLen value.toNat prefixBits ∧
        decode (octets ++ rest) prefixBits =
          if value.toNat < 2 ^ prefixBits - 1 ∨ value.toNat - (2 ^ prefixBits - 1) < 2 ^ 63 then
            .ok (value.toNat, encodedLen value.toNat prefixBits)
          else .error (.hpackError "HPACK integer overflow")) ∧
      ∀ buf, decodeChecked buf prefixBits = lift (decode buf prefixBits) ∧
        decode buf prefixBits = decodeExact buf prefixBits ∧
        ∀ v n, decode buf prefixBits = .ok (v, n) →
          n ≤ buf.length ∧ Denotes prefixBits (buf.take n) v ∧
            ∀ rest, decode (buf.take n ++ rest) prefixBits = .ok (v, n) := by
  constructor
  · intro value prefixValue rest hp
    have hvalue := value.toNat_lt
    have hdenotes := encodeTemp_denotes hbits hvalue hp
    have hlength := @length_encodeTemp prefixBits _ prefixValue hvalue
    have hten := @length_encodeTemp_le_iff prefixBits _ prefixValue hvalue
    refine ⟨encodeTemp value.toNat prefixBits prefixValue, encode_eq _ _ _ hvalue, hlength, ?_⟩
    split
    · rename_i hsmall
      exact (decode_iff hbits).2 ⟨_, rest, rfl, hdenotes, hlength, hlength ▸ hten.2 hsmall⟩
    · rename_i hlarge
      exact decode_overflow hbits rest hdenotes (Nat.not_le.1 (mt hten.1 hlarge))
  · intro buf
    refine ⟨decodeChecked_eq hbits, decode_exact buf prefixBits, fun v n h => ?_⟩
    obtain ⟨octets, rest, rfl, hv, rfl, hten⟩ := (decode_iff hbits).1 h
    rw [List.take_left]
    refine ⟨by simp, hv, fun rest => ?_⟩
    exact (decode_iff hbits).2 ⟨octets, rest, rfl, hv, rfl, hten⟩

/-- With a prefix of five bits 2^63 + 30 is the largest integer that is read. -/
theorem integer_codec_five :
    (∃ octets, encode 16 (2 ^ 63 + 30) 5 0xa0 = .ok octets ∧
      decode (octets ++ [0x81]) 5 = .ok (2 ^ 63 + 30, octets.length)) ∧
    ∃ octets, encode 16 (2 ^ 63 + 31) 5 0xa0 = .ok octets ∧
      decode (octets ++ [0x81]) 5 = .error (.hpackError "HPACK integer overflow") := by
  have hfive : 5 ≤ 8 := by decide
  obtain ⟨hcodec, -⟩ := integer_codec hfive
  constructor
  · obtain ⟨octets, hencode, hlength, hdecode⟩ := hcodec 0x800000000000001e 0xa0 [0x81] (by decide)
    have hvalue : (0x800000000000001e : UInt64).toNat = 2 ^ 63 + 30 := by decide
    rw [hvalue] at hencode hlength hdecode
    rw [if_pos (by decide), ← hlength] at hdecode
    exact ⟨octets, hencode, hdecode⟩
  · obtain ⟨octets, hencode, -, hdecode⟩ := hcodec 0x800000000000001f 0xa0 [0x81] (by decide)
    have hvalue : (0x800000000000001f : UInt64).toNat = 2 ^ 63 + 31 := by decide
    rw [hvalue] at hencode hdecode
    rw [if_neg (by decide)] at hdecode
    exact ⟨octets, hencode, hdecode⟩

end Http2.Hpack.Integer
