import Http2.Error
import Mathlib.Tactic.Ring
import Mathlib.Tactic.IntervalCases

/-! HPACK integers, `src/hpack/integer.rs`. -/
namespace Http2.Hpack.Integer

/-- `encode` after the first octet; `room` is what is left of the output buffer. -/
def encodeRest : Nat → Nat → Except Error Bytes
  | 0, _ => .error (.hpackError "HPACK integer encode buffer too short")
  | room + 1, remaining =>
    if remaining ≥ 128 then do
      let rest ← encodeRest room (remaining >>> 7)
      return UInt8.ofNat (0x80 ||| (remaining &&& 0x7f)) :: rest
    else
      return [UInt8.ofNat remaining]

/-- The octets `integer::encode` writes into a buffer of `room` octets. -/
def encode (room value prefixBits : Nat) (prefixValue : UInt8) : Except Error Bytes :=
  match room with
  | 0 => .error (.hpackError "HPACK integer encode buffer too short")
  | room + 1 =>
    let maxPrefix := (1 <<< prefixBits) - 1
    if value < maxPrefix then
      return [prefixValue ||| UInt8.ofNat value]
    else do
      let rest ← encodeRest room (value - maxPrefix)
      return (prefixValue ||| UInt8.ofNat maxPrefix) :: rest

/-- `decode` after the first octet: the value so far, its shift and the octets read. -/
def decodeRest (value shift offset : Nat) : Bytes → Except Error (Nat × Nat)
  | [] => .error (.hpackError "incomplete HPACK integer")
  | byte :: buf =>
    if shift ≥ 63 then .error (.hpackError "HPACK integer overflow")
    else
      let contribution := (byte &&& 0x7f).toNat
      let value := value + (contribution <<< shift) % 2 ^ 64
      if value ≥ 2 ^ 64 then .error (.hpackError "HPACK integer overflow")
      else if byte &&& 0x80 = 0 then .ok (value, offset + 1)
      else decodeRest value (shift + 7) (offset + 1) buf

/-- The value and the number of octets consumed. -/
def decode (buf : Bytes) (prefixBits : Nat) : Except Error (Nat × Nat) :=
  match buf with
  | [] => .error (.hpackError "incomplete HPACK integer")
  | byte :: buf =>
    let maxPrefix := (1 <<< prefixBits) - 1
    let firstByte := (byte &&& UInt8.ofNat maxPrefix).toNat
    if firstByte < maxPrefix then .ok (firstByte, 1)
    else decodeRest maxPrefix 0 1 buf

/-- What the encoder appends for an integer: it encodes into a buffer of 16 octets, and
`encode_eq` shows that its `expect` cannot fire. -/
def encodeTemp (value prefixBits : Nat) (prefixValue : UInt8) : Bytes :=
  (encode 16 value prefixBits prefixValue).toOption.getD []

theorem decodeRest_consumed {value shift offset v n : Nat} {buf : Bytes}
    (h : decodeRest value shift offset buf = .ok (v, n)) : offset < n := by
  induction buf generalizing value shift offset with
  | nil => simp [decodeRest] at h
  | cons byte buf ih =>
    rw [decodeRest] at h
    split at h
    · cases h
    · simp only at h
      split at h
      · cases h
      · split at h
        · cases h
          exact Nat.lt_succ_self _
        · exact Nat.lt_of_succ_lt (ih h)

/-- Decoding consumes at least the first octet. -/
theorem decode_consumed {buf : Bytes} {prefixBits v n : Nat} (h : decode buf prefixBits = .ok (v, n)) :
    0 < n := by
  cases buf with
  | nil => simp [decode] at h
  | cons byte buf =>
    simp only [decode] at h
    split at h
    · cases h
      exact Nat.one_pos
    · exact Nat.lt_trans Nat.one_pos (decodeRest_consumed h)

theorem decodeRest_bounds {value shift offset v n k : Nat} {buf : Bytes}
    (h : decodeRest value shift offset buf = .ok (v, n)) (hk : shift + 7 * k = 63) :
    n ≤ offset + buf.length ∧ n ≤ offset + k ∧ v + 2 ^ shift ≤ value + 2 ^ 63 := by
  induction buf generalizing value shift offset k with
  | nil => simp [decodeRest] at h
  | cons byte buf ih =>
    rw [decodeRest] at h
    split at h
    · cases h
    · rename_i hshift
      obtain ⟨k, rfl⟩ : ∃ j, k = j + 1 := ⟨k - 1, by omega⟩
      have hbits : (byte &&& 0x7f).toNat < 128 := by
        rw [UInt8.toNat_and]
        exact Nat.lt_of_le_of_lt Nat.and_le_right (by decide)
      have hpow : 2 ^ (shift + 7) = 128 * 2 ^ shift := by rw [Nat.pow_add]; omega
      have hle : 2 ^ (shift + 7) ≤ 2 ^ 63 := Nat.pow_le_pow_right (by decide) (by omega)
      have hcontribution : ((byte &&& 0x7f).toNat <<< shift) % 2 ^ 64 ≤ 127 * 2 ^ shift := by
        rw [Nat.shiftLeft_eq]
        exact Nat.le_trans (Nat.mod_le _ _) (Nat.mul_le_mul_right _ (by omega))
      simp only at h
      split at h
      · cases h
      · simp only [List.length_cons]
        split at h
        · cases h
          refine ⟨by omega, by omega, by omega⟩
        · obtain ⟨hlen, hturns, hvalue⟩ := ih h (k := k) (by omega)
          exact ⟨by omega, by omega, by omega⟩

/-- An integer takes at most ten octets of the block, and its value stays far from `2 ^ 64`. -/
theorem decode_bounds {buf : Bytes} {prefixBits v n : Nat} (hbits : prefixBits ≤ 8)
    (h : decode buf prefixBits = .ok (v, n)) :
    n ≤ buf.length ∧ n ≤ 10 ∧ v < 2 ^ 63 + 2 ^ 8 := by
  cases buf with
  | nil => simp [decode] at h
  | cons byte buf =>
    have hpow : 2 ^ prefixBits ≤ 2 ^ 8 := Nat.pow_le_pow_right (by decide) hbits
    simp only [decode, Nat.one_shiftLeft] at h
    split at h
    · cases h
      refine ⟨by simp, by decide, by omega⟩
    · obtain ⟨hlen, hturns, hvalue⟩ := decodeRest_bounds h (k := 9) rfl
      simp only [List.length_cons]
      exact ⟨by omega, by omega, by omega⟩

/-! ## Round trip -/

/-- The continuation octets, without the bound of the output buffer. -/
def octets : Nat → Nat → Bytes
  | 0, _ => []
  | n + 1, remaining =>
    if remaining ≥ 128 then UInt8.ofNat (128 + remaining % 128) :: octets n (remaining / 128)
    else [UInt8.ofNat remaining]

theorem encodeRest_eq {room remaining : Nat} (h : remaining < 128 ^ room) (hr : 0 < room) :
    encodeRest room remaining = .ok (octets room remaining) := by
  induction room generalizing remaining with
  | zero => omega
  | succ room ih =>
    have hmod : (0x80 : Nat) ||| (remaining &&& 0x7f) = 128 + remaining % 128 := by
      have hlt : remaining % 128 < 2 ^ 7 := Nat.mod_lt _ (by decide)
      have := Nat.two_pow_add_eq_or_of_lt hlt 1
      rw [show (0x7f : Nat) = 2 ^ 7 - 1 from rfl, Nat.and_two_pow_sub_one_eq_mod]
      simpa using this.symm
    have hdiv : remaining >>> 7 = remaining / 128 := by simp [Nat.shiftRight_eq_div_pow]
    unfold encodeRest octets
    split
    · rename_i hge
      have hroom : 0 < room := by
        rcases Nat.eq_zero_or_pos room with rfl | hpos
        · simp at h
          omega
        · exact hpos
      have hlt : remaining / 128 < 128 ^ room := by
        rw [Nat.div_lt_iff_lt_mul (by decide)]
        rwa [Nat.pow_succ] at h
      rw [hdiv, ih hlt hroom, hmod]
      rfl
    · rfl

theorem decodeRest_octets {n remaining : Nat} (value shift offset : Nat) (rest : Bytes)
    (hn : remaining < 128 ^ n) (hpos : 0 < n) (hfit : remaining * 2 ^ shift < 2 ^ 63)
    (hshift : shift < 63) (hvalue : value + remaining * 2 ^ shift < 2 ^ 64) :
    decodeRest value shift offset (octets n remaining ++ rest) =
      .ok (value + remaining * 2 ^ shift, offset + (octets n remaining).length) := by
  induction n generalizing remaining value shift offset with
  | zero => omega
  | succ n ih =>
    have hoctet : ∀ m < 128, (UInt8.ofNat m &&& 0x7f).toNat = m ∧ UInt8.ofNat m &&& 0x80 = 0 := by
      decide
    have hmore : ∀ m < 128,
        (UInt8.ofNat (128 + m) &&& 0x7f).toNat = m ∧ UInt8.ofNat (128 + m) &&& 0x80 ≠ 0 := by
      decide
    unfold octets
    split
    · rename_i hge
      have hm : remaining % 128 < 128 := Nat.mod_lt _ (by decide)
      obtain ⟨hlow, hbit⟩ := hmore _ hm
      have hsplit : remaining * 2 ^ shift =
          remaining % 128 * 2 ^ shift + remaining / 128 * 2 ^ (shift + 7) := by
        have hd := Nat.div_add_mod remaining 128
        calc remaining * 2 ^ shift
            = (128 * (remaining / 128) + remaining % 128) * 2 ^ shift := by rw [hd]
          _ = remaining % 128 * 2 ^ shift + remaining / 128 * 2 ^ (shift + 7) := by ring
      have hone : 2 ^ (shift + 7) ≤ remaining / 128 * 2 ^ (shift + 7) :=
        Nat.le_mul_of_pos_left _ (by omega)
      have hnext : shift + 7 < 63 := by
        by_contra hcon
        have := Nat.pow_le_pow_right (n := 2) (by decide) (Nat.not_lt.1 hcon)
        omega
      have hdiv : remaining / 128 < 128 ^ n := by
        rw [Nat.div_lt_iff_lt_mul (by decide)]
        rwa [Nat.pow_succ] at hn
      have hn' : 0 < n := by
        rcases Nat.eq_zero_or_pos n with rfl | hp
        · simp at hdiv
          omega
        · exact hp
      rw [List.cons_append, decodeRest, if_neg (by omega)]
      simp only [hlow, Nat.shiftLeft_eq]
      rw [Nat.mod_eq_of_lt (a := remaining % 128 * 2 ^ shift) (by omega), if_neg (by omega),
        if_neg hbit, ih _ _ _ hdiv hn' (by omega) hnext (by omega)]
      simp only [List.length_cons]
      congr 2 <;> omega
    · rename_i hlt
      obtain ⟨hlow, hbit⟩ := hoctet remaining (by omega)
      rw [List.cons_append, decodeRest, if_neg (by omega)]
      simp only [hlow, Nat.shiftLeft_eq]
      rw [Nat.mod_eq_of_lt (a := remaining * 2 ^ shift) (by omega), if_neg (by omega), if_pos hbit]
      rfl

theorem length_octets_le {n k remaining : Nat} (h : remaining < 128 ^ k) (hk : 0 < k) :
    (octets n remaining).length ≤ k := by
  induction n generalizing remaining k with
  | zero => exact Nat.zero_le _
  | succ n ih =>
    unfold octets
    split
    · cases k with
      | zero => omega
      | succ k =>
        have hdiv : remaining / 128 < 128 ^ k := by
          rw [Nat.div_lt_iff_lt_mul (by decide)]
          rwa [Nat.pow_succ] at h
        have hk' : 0 < k := by
          rcases Nat.eq_zero_or_pos k with rfl | hp
          · simp at hdiv
            omega
          · exact hp
        have := ih hdiv hk'
        simp only [List.length_cons]
        omega
    · exact hk

section
variable (value prefixBits : Nat) (prefixValue : UInt8)

/-- The octets of an integer: the first one holds the pattern and the start of the value. -/
theorem encodeTemp_eq (h : value < 2 ^ 64) :
    encodeTemp value prefixBits prefixValue =
      if value < 2 ^ prefixBits - 1 then [prefixValue ||| UInt8.ofNat value]
      else (prefixValue ||| UInt8.ofNat (2 ^ prefixBits - 1)) ::
        octets 15 (value - (2 ^ prefixBits - 1)) := by
  unfold encodeTemp encode
  simp only [Nat.one_shiftLeft]
  split
  · rfl
  · have hlt : value - (2 ^ prefixBits - 1) < 128 ^ 15 :=
      Nat.lt_of_le_of_lt (Nat.sub_le _ _) (Nat.lt_trans h (by decide))
    rw [encodeRest_eq hlt (by decide)]
    rfl

/-- A `u64` always fits the 16 octets. -/
theorem encode_eq (h : value < 2 ^ 64) :
    encode 16 value prefixBits prefixValue = .ok (encodeTemp value prefixBits prefixValue) := by
  rw [encodeTemp_eq value prefixBits prefixValue h, encode]
  simp only [Nat.one_shiftLeft]
  split
  · rfl
  · have hlt : value - (2 ^ prefixBits - 1) < 128 ^ 15 :=
      Nat.lt_of_le_of_lt (Nat.sub_le _ _) (Nat.lt_trans h (by decide))
    rw [encodeRest_eq hlt (by decide)]
    rfl

theorem encodeTemp_head (h : value < 2 ^ 64) :
    ∃ v < 2 ^ prefixBits, ∃ tail,
      encodeTemp value prefixBits prefixValue = (prefixValue ||| UInt8.ofNat v) :: tail := by
  have := Nat.two_pow_pos prefixBits
  rw [encodeTemp_eq value prefixBits prefixValue h]
  split
  · exact ⟨value, by omega, [], rfl⟩
  · exact ⟨2 ^ prefixBits - 1, by omega, _, rfl⟩

variable {value prefixBits prefixValue}

/-- Masking the first octet gives back the part of the value it holds. -/
theorem toNat_prefix_and {v : Nat} (hbits : prefixBits ≤ 8) (hv : v < 2 ^ prefixBits)
    (hp : prefixValue.toNat % 2 ^ prefixBits = 0) :
    ((prefixValue ||| UInt8.ofNat v) &&& UInt8.ofNat (2 ^ prefixBits - 1)).toNat = v := by
  have hle : 2 ^ prefixBits ≤ 2 ^ 8 := Nat.pow_le_pow_right (by decide) hbits
  have hpos := Nat.two_pow_pos prefixBits
  have hmask : (2 ^ prefixBits - 1) % 2 ^ 8 = 2 ^ prefixBits - 1 := Nat.mod_eq_of_lt (by omega)
  have hval : v % 2 ^ 8 = v := Nat.mod_eq_of_lt (by omega)
  rw [UInt8.toNat_and, UInt8.toNat_or, UInt8.toNat_ofNat', UInt8.toNat_ofNat', hmask, hval,
    Nat.and_two_pow_sub_one_eq_mod, Nat.or_mod_two_pow, hp, Nat.mod_eq_of_lt hv]
  simp

variable (value prefixBits prefixValue)

/-- What is decoded is what was encoded, up to the largest integer the decoder accepts. -/
theorem decode_encodeTemp (rest : Bytes) (hbits : prefixBits ≤ 8)
    (hp : prefixValue.toNat % 2 ^ prefixBits = 0) (h : value < 2 ^ 63 + (2 ^ prefixBits - 1)) :
    decode (encodeTemp value prefixBits prefixValue ++ rest) prefixBits =
      .ok (value, (encodeTemp value prefixBits prefixValue).length) := by
  have hle : 2 ^ prefixBits ≤ 2 ^ 8 := Nat.pow_le_pow_right (by decide) hbits
  have hpos := Nat.two_pow_pos prefixBits
  rw [encodeTemp_eq value prefixBits prefixValue (by omega)]
  split
  · rename_i hlt
    simp only [List.cons_append, decode, Nat.one_shiftLeft,
      toNat_prefix_and hbits (Nat.lt_of_lt_of_le hlt (Nat.sub_le _ _)) hp]
    rw [if_pos hlt]
    rfl
  · rename_i hge
    have hlt : value - (2 ^ prefixBits - 1) < 2 ^ 63 := by omega
    have hoct : value - (2 ^ prefixBits - 1) < 128 ^ 15 := Nat.lt_trans hlt (by decide)
    have hrest := decodeRest_octets (2 ^ prefixBits - 1) 0 1 rest hoct (by decide) (by omega)
      (by decide) (by omega)
    simp only [List.cons_append, decode, Nat.one_shiftLeft]
    rw [toNat_prefix_and hbits (by omega) hp, if_neg (by omega), hrest]
    simp only [List.length_cons]
    congr 2 <;> omega

end

end Http2.Hpack.Integer
