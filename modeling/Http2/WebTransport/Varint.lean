import Http2.Lib.BigEndian
import Http2.WebTransport.Error

/-! The variable-length integers of `src/webtransport/varint.rs`: the two high bits of the first
octet say how many octets there are. -/
namespace Http2.WebTransport.Varint

open Lib.BigEndian

/-- `MAX_VALUE`, 2^62 - 1. -/
def maxValue : Nat := 4611686018427387903

def max1Byte : Nat := 63

def max2Bytes : Nat := 16383

def max4Bytes : Nat := 1073741823

def encodedLen (value : Nat) : Nat :=
  if value ≤ max1Byte then 1
  else if value ≤ max2Bytes then 2
  else if value ≤ max4Bytes then 4
  else 8

/-- The bits that announce a length. -/
def lengthBits : Nat → UInt8
  | 1 => 0
  | 2 => 0x40
  | 4 => 0x80
  | _ => 0xc0

/-- `encode` into a buffer of `room` octets: the octets it writes at the front. -/
def encode (value room : Nat) : WtResult Bytes :=
  if value > maxValue then .error ⟨.invalidInput, .varintTooLarge value⟩
  else
    let len := encodedLen value
    if room < len then .error ⟨.bufferTooShort, .bufferTooShort len room⟩
    else
      match toBe len value with
      | [] => .ok []
      | first :: rest => .ok ((lengthBits len ||| first) :: rest)

/-- What `CapsuleEncoder::encode_varint` appends. The source expects the encoding to succeed: a
value above `maxValue` stops the program there. -/
def bytes (value : Nat) : Bytes :=
  match encode value (encodedLen value) with
  | .ok written => written
  | .error _ => []

/-- The length that the first octet announces. -/
def announcedLen (first : UInt8) : Nat :=
  match first >>> 6 with
  | 0 => 1
  | 1 => 2
  | 2 => 4
  | _ => 8

/-- The value and how many octets it took. -/
def decode : Bytes → WtResult (Nat × Nat)
  | [] => .error .incomplete
  | first :: rest =>
    let len := announcedLen first
    if (first :: rest).length < len then .error .incomplete
    else .ok (ofBe ((first &&& 0x3f) :: rest.take (len - 1)), len)

/-! ## Reading back -/

theorem encodedLen_pos (value : Nat) : 1 ≤ encodedLen value := by
  unfold encodedLen
  repeat' split
  all_goals omega

theorem encodedLen_le (value : Nat) : encodedLen value ≤ 8 := by
  unfold encodedLen
  repeat' split
  all_goals omega

/-- A value takes at most six bits of its first octet. -/
theorem high_lt {value : Nat} (h : value ≤ maxValue) :
    value / 256 ^ (encodedLen value - 1) < 64 := by
  rw [Nat.div_lt_iff_lt_mul (Nat.pow_pos (by decide))]
  unfold encodedLen max1Byte max2Bytes max4Bytes
  unfold maxValue at h
  repeat' split
  all_goals
    simp only [Nat.sub_self, Nat.pow_zero, Nat.reduceSub, Nat.reducePow]
    omega

theorem announcedLen_or {first : UInt8} (h : first.toNat < 64) :
    announcedLen first = 1 ∧ announcedLen (0x40 ||| first) = 2 ∧
      announcedLen (0x80 ||| first) = 4 ∧ announcedLen (0xc0 ||| first) = 8 := by
  have hall : ∀ b : Fin 64, announcedLen (UInt8.ofNat b) = 1 ∧
      announcedLen (0x40 ||| UInt8.ofNat b) = 2 ∧ announcedLen (0x80 ||| UInt8.ofNat b) = 4 ∧
      announcedLen (0xc0 ||| UInt8.ofNat b) = 8 := by decide +kernel
  simpa using hall ⟨first.toNat, h⟩

theorem or_and_mask {first : UInt8} (h : first.toNat < 64) (len : Nat) :
    (lengthBits len ||| first) &&& 0x3f = first := by
  have hall : ∀ b : Fin 64, (0 ||| UInt8.ofNat b) &&& 0x3f = UInt8.ofNat b ∧
      (0x40 ||| UInt8.ofNat b) &&& 0x3f = UInt8.ofNat b ∧
      (0x80 ||| UInt8.ofNat b) &&& 0x3f = UInt8.ofNat b ∧
      (0xc0 ||| UInt8.ofNat b) &&& 0x3f = UInt8.ofNat b := by decide +kernel
  obtain ⟨h0, h1, h2, h3⟩ := hall ⟨first.toNat, h⟩
  simp only [UInt8.ofNat_toNat] at h0 h1 h2 h3
  unfold lengthBits
  split <;> assumption

theorem announcedLen_lengthBits {first : UInt8} (h : first.toNat < 64) (value : Nat) :
    announcedLen (lengthBits (encodedLen value) ||| first) = encodedLen value := by
  obtain ⟨h1, h2, h4, h8⟩ := announcedLen_or h
  unfold encodedLen
  repeat' split
  · simpa [lengthBits] using h1
  · exact h2
  · exact h4
  · exact h8

/-- What a value is written as: its first octet announces the length and holds the high bits. -/
theorem encode_spec {value : Nat} (h : value ≤ maxValue) :
    ∃ first rest, encode value (encodedLen value) = .ok (first :: rest) ∧
      announcedLen first = encodedLen value ∧ rest.length + 1 = encodedLen value ∧
      ofBe ((first &&& 0x3f) :: rest) = value := by
  have hpos := encodedLen_pos value
  obtain ⟨w, hw⟩ : ∃ w, encodedLen value = w + 1 := ⟨encodedLen value - 1, by omega⟩
  have hhigh := high_lt h
  rw [hw, Nat.add_sub_cancel] at hhigh
  have hfirst : (UInt8.ofNat (value / 256 ^ w)).toNat < 64 := by
    rw [UInt8.toNat_ofNat']
    exact lt_of_le_of_lt (Nat.mod_le _ _) hhigh
  have hroom : value < 256 ^ (w + 1) := by
    rw [Nat.div_lt_iff_lt_mul (Nat.pow_pos (by decide))] at hhigh
    rw [Nat.pow_succ]
    omega
  refine ⟨lengthBits (encodedLen value) ||| UInt8.ofNat (value / 256 ^ w), toBe w value, ?_, ?_,
    ?_, ?_⟩
  · have hle : ¬ value > maxValue := by omega
    simp [encode, hle, hw, toBe]
  · exact announcedLen_lengthBits hfirst value
  · rw [length_toBe, hw]
  · rw [or_and_mask hfirst]
    exact ofBe_toBe_of_lt hroom

theorem decode_eq_ok {first : UInt8} {rest : Bytes} {n v : Nat} (hlen : announcedLen first = n + 1)
    (hrest : n ≤ rest.length) (hv : ofBe ((first &&& 0x3f) :: rest.take n) = v) :
    decode (first :: rest) = .ok (v, n + 1) := by
  have hroom : ¬ rest.length + 1 < n + 1 := by omega
  simp only [decode, hlen, List.length_cons, hroom, if_false, Nat.add_sub_cancel, hv]

theorem decode_short {first : UInt8} {rest : Bytes} (h : rest.length + 1 < announcedLen first) :
    decode (first :: rest) = .error .incomplete := by
  simp only [decode, List.length_cons, h, if_true]

/-- Decoding fails for want of octets only. -/
theorem decode_error {buf : Bytes} {e : WtError} (h : decode buf = .error e) :
    e = .incomplete := by
  cases buf with
  | nil => exact (Except.error.inj h).symm
  | cons first rest =>
    simp only [decode] at h
    split at h
    · exact (Except.error.inj h).symm
    · cases h

/-- What is decoded is within the buffer, and within range. -/
theorem decode_bounds {buf : Bytes} {v n : Nat} (h : decode buf = .ok (v, n)) :
    1 ≤ n ∧ n ≤ buf.length ∧ v ≤ maxValue := by
  cases buf with
  | nil => cases h
  | cons first rest =>
    simp only [decode] at h
    split at h
    · cases h
    · rename_i hroom
      obtain ⟨rfl, rfl⟩ := Prod.mk.inj (Except.ok.inj h)
      have hlen : 1 ≤ announcedLen first ∧ announcedLen first ≤ 8 := by
        unfold announcedLen
        split <;> decide
      refine ⟨hlen.1, by omega, ?_⟩
      have hmask : (first &&& 0x3f).toNat < 64 := by
        have hall : ∀ b : Fin 256, (UInt8.ofNat b &&& 0x3f).toNat < 64 := by decide +kernel
        simpa using hall ⟨first.toNat, first.toNat_lt⟩
      have hw : (rest.take (announcedLen first - 1)).length ≤ 7 := by
        simp only [List.length_take]
        omega
      have hlow := ofBe_lt (rest.take (announcedLen first - 1))
      have hpow : 256 ^ (rest.take (announcedLen first - 1)).length ≤ 256 ^ 7 :=
        Nat.pow_le_pow_right (by decide) hw
      have hhigh : (first &&& 0x3f).toNat * 256 ^ (rest.take (announcedLen first - 1)).length ≤
          63 * 256 ^ 7 := Nat.mul_le_mul (by omega) hpow
      simp only [ofBe, maxValue]
      omega

/-- Octets after a number do not change how it reads. -/
theorem decode_append {buf : Bytes} {v n : Nat} (h : decode buf = .ok (v, n)) (rest : Bytes) :
    decode (buf ++ rest) = .ok (v, n) := by
  cases buf with
  | nil => cases h
  | cons first tail =>
    simp only [decode] at h
    split at h
    · cases h
    · rename_i hroom
      obtain ⟨rfl, rfl⟩ := Prod.mk.inj (Except.ok.inj h)
      have hlong : ¬ (first :: (tail ++ rest)).length < announcedLen first := by
        simp only [List.length_cons, List.length_append] at hroom ⊢
        omega
      have htake : (tail ++ rest).take (announcedLen first - 1) =
          tail.take (announcedLen first - 1) := by
        rw [List.take_append_of_le_length]
        simp only [List.length_cons] at hroom
        omega
      simp only [List.cons_append, decode, hlong, if_false, htake]

theorem bytes_spec {value : Nat} (h : value ≤ maxValue) :
    ∃ first rest, bytes value = first :: rest ∧ announcedLen first = encodedLen value ∧
      rest.length + 1 = encodedLen value ∧ ofBe ((first &&& 0x3f) :: rest) = value := by
  obtain ⟨first, rest, heq, hspec⟩ := encode_spec h
  refine ⟨first, rest, ?_, hspec⟩
  unfold bytes
  rw [heq]

@[simp] theorem length_bytes {value : Nat} (h : value ≤ maxValue) :
    (bytes value).length = encodedLen value := by
  obtain ⟨first, rest, heq, -, hlen, -⟩ := bytes_spec h
  rw [heq]
  exact hlen

theorem decode_bytes {value : Nat} (h : value ≤ maxValue) (rest : Bytes) :
    decode (bytes value ++ rest) = .ok (value, encodedLen value) := by
  obtain ⟨first, tail, heq, hann, hlen, hvalue⟩ := bytes_spec h
  rw [heq]
  apply decode_append
  rw [← hlen] at hann ⊢
  exact decode_eq_ok hann le_rfl (by rw [List.take_length]; exact hvalue)

theorem drop_bytes {value : Nat} (h : value ≤ maxValue) (rest : Bytes) :
    (bytes value ++ rest).drop (encodedLen value) = rest := by
  rw [← length_bytes h, List.drop_left]

/-- A number cut short waits for the rest of its octets. -/
theorem decode_cut {value : Nat} {cut : Bytes} (h : value ≤ maxValue)
    (hcut : cut <+: bytes value) (hshort : cut.length < (bytes value).length) :
    decode cut = .error .incomplete := by
  obtain ⟨first, tail, heq, hann, hlen, -⟩ := bytes_spec h
  rw [heq] at hcut hshort
  cases cut with
  | nil => rfl
  | cons b cut =>
    obtain ⟨rfl, -⟩ := List.cons_prefix_cons.1 hcut
    apply decode_short
    simp only [List.length_cons] at hshort
    omega

end Http2.WebTransport.Varint
