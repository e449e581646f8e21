import Http2.Hpack.HuffmanTable

/-! Huffman coding of strings, `src/hpack/huffman.rs`: the 64-bit accumulators of the two loops
hold the front of one bit string. -/
namespace Http2.Hpack.Huffman

open Lib.PrefixCode

def encodedLen (data : Bytes) : Nat :=
  ((data.map fun b => (symbol b.toNat).bits).sum + 7) / 8

/-- The inner loop of `encode`: the whole octets of the accumulator, and what stays in it. -/
def emitLoop : Nat → Nat → Nat → Bytes × Nat × Nat
  | 0, acc, accBits => ([], acc, accBits)
  | fuel + 1, acc, accBits =>
    if accBits ≥ 8 then
      let r := emitLoop fuel ((acc <<< 8) % 2 ^ 64) (accBits - 8)
      (UInt8.ofNat (acc >>> 56) :: r.1, r.2)
    else ([], acc, accBits)

/-- The loop of `encode` over the data, with the padded last octet. -/
def encodeLoop (acc accBits : Nat) : Bytes → Bytes
  | [] =>
    if accBits > 0 then
      [UInt8.ofNat (acc >>> 56) ||| UInt8.ofNat ((1 <<< (8 - accBits)) - 1)]
    else []
  | byte :: data =>
    let sym := symbol byte.toNat
    let acc := acc ||| ((sym.code <<< 32) % 2 ^ 64) >>> accBits
    let accBits := accBits + sym.bits
    let r := emitLoop accBits acc accBits
    r.1 ++ encodeLoop r.2.1 r.2.2 data

/-- The octets `huffman::encode` writes into a buffer of `room` octets. -/
def encode (room : Nat) (data : Bytes) : Except Error Bytes :=
  let required := encodedLen data
  if room < required then
    .error (.hpackError
      s!"Huffman encode buffer too short: required {required} bytes, available {room} bytes")
  else .ok (encodeLoop 0 0 data)

/-- `encode_to_vec`: what is written, in front of what is left of a zeroed buffer. -/
def encodeToVec (data : Bytes) : Bytes :=
  let len := encodedLen data
  let written := (encode len data).toOption.getD []
  written ++ List.replicate (len - written.length) 0

/-- The scan of the code table in `decode`: the first symbol from `symIdx` on that matches. -/
def search (current accBits symIdx : Nat) : List HuffmanSym → Option (Nat × Nat)
  | [] => none
  | sym :: table =>
    let mask := 2 ^ 32 - 1 - ((1 <<< (32 - sym.bits)) - 1)
    if sym.bits ≤ accBits ∧ current &&& mask = sym.code then some (symIdx, sym.bits)
    else search current accBits (symIdx + 1) table

/-- The accumulator, left-aligned in 32 bits. -/
def current (acc accBits : Nat) : Nat :=
  if accBits ≥ 32 then (acc >>> (accBits - 32)) % 2 ^ 32
  else ((acc <<< (32 - accBits)) % 2 ^ 64) % 2 ^ 32

/-- The loop `'decode` of `decode`: the symbols read and what stays in the accumulator. -/
def readLoop : Nat → Nat → Nat → Except Error (Bytes × Nat × Nat)
  | 0, acc, accBits => .ok ([], acc, accBits)
  | fuel + 1, acc, accBits =>
    if accBits ≥ 5 then
      match search (current acc accBits) accBits 0 huffmanTable with
      | none => .ok ([], acc, accBits)
      | some (symIdx, bits) =>
        if symIdx = 256 then
          .error (.hpackError "EOS symbol in Huffman-encoded string literal is not allowed")
        else do
          let accBits := accBits - bits
          let acc := if accBits > 0 then acc &&& ((1 <<< accBits) - 1) else 0
          let r ← readLoop fuel acc accBits
          return (UInt8.ofNat symIdx :: r.1, r.2)
    else .ok ([], acc, accBits)

/-- The loop of `decode` over the data, with the check of the padding. -/
def decodeLoop (acc accBits : Nat) : Bytes → Except Error Bytes
  | [] =>
    if accBits > 0 ∧ accBits ≤ 7 then
      let mask := (1 <<< accBits) - 1
      if acc &&& mask = mask then .ok []
      else .error (.hpackError "invalid Huffman padding")
    else if accBits > 7 then .error (.hpackError "incomplete Huffman data")
    else .ok []
  | byte :: data => do
    let acc := ((acc <<< 8) % 2 ^ 64) ||| byte.toNat
    let r ← readLoop (accBits + 8) acc (accBits + 8)
    let rest ← decodeLoop r.2.1 r.2.2 data
    return r.1 ++ rest

def decode (data : Bytes) : Except Error Bytes := decodeLoop 0 0 data

/-! ## The encoder writes the codewords and at most seven ones -/

/-- The bits of a byte string. -/
def bitsOf (data : Bytes) : List Bool := data.flatMap fun b => toBits 8 b.toNat

@[simp] theorem bitsOf_nil : bitsOf [] = [] := rfl

@[simp] theorem bitsOf_cons (b : UInt8) (data : Bytes) :
    bitsOf (b :: data) = toBits 8 b.toNat ++ bitsOf data := rfl

@[simp] theorem bitsOf_append (data data' : Bytes) :
    bitsOf (data ++ data') = bitsOf data ++ bitsOf data' := by
  simp [bitsOf]

theorem length_bitsOf (data : Bytes) : (bitsOf data).length = 8 * data.length := by
  induction data with
  | nil => rfl
  | cons b data ih =>
    simp only [bitsOf_cons, List.length_append, length_toBits, ih, List.length_cons]
    omega

/-- The symbol of a byte. -/
def byteSym (b : UInt8) : Fin 257 := ⟨b.toNat, Nat.lt_succ_of_lt b.toNat_lt⟩

def codeBits (data : Bytes) : List Bool := (data.map byteSym).flatMap code

/-- The encoder's accumulator: the pending bits, left-aligned in 64. -/
def leftAligned (p : List Bool) : Nat := ofBits p * 2 ^ (64 - p.length)

theorem leftAligned_append {u v : List Bool} (h : u.length + v.length ≤ 64) :
    leftAligned (u ++ v) = ofBits u * 2 ^ (64 - u.length) + ofBits v * 2 ^ (64 - (u.length + v.length)) := by
  have hu : 64 - u.length = v.length + (64 - (u.length + v.length)) := by omega
  rw [leftAligned, ofBits_append, List.length_append, hu, Nat.pow_add]
  ring

theorem emitLoop_spec {fuel : Nat} {p : List Bool} (hfuel : p.length ≤ fuel) (hp : p.length ≤ 64) :
    ∃ out q, emitLoop fuel (leftAligned p) p.length = (out, leftAligned q, q.length) ∧
      q.length < 8 ∧ bitsOf out ++ q = p := by
  induction fuel generalizing p with
  | zero =>
    have : p = [] := List.length_eq_zero_iff.1 (by omega)
    subst this
    exact ⟨[], [], rfl, by decide, rfl⟩
  | succ fuel ih =>
    by_cases h8 : p.length ≥ 8
    · obtain ⟨u, v, rfl, hu⟩ : ∃ u v, p = u ++ v ∧ u.length = 8 :=
        ⟨p.take 8, p.drop 8, (List.take_append_drop 8 p).symm, by simp; omega⟩
      rw [List.length_append] at hfuel hp
      have hv : ofBits v * 2 ^ (56 - v.length) < 2 ^ 56 := by
        calc ofBits v * 2 ^ (56 - v.length)
            < 2 ^ v.length * 2 ^ (56 - v.length) :=
              Nat.mul_lt_mul_of_pos_right (ofBits_lt v) (Nat.two_pow_pos _)
          _ = 2 ^ 56 := by rw [← Nat.pow_add]; congr 1; omega
      have hacc : leftAligned (u ++ v) = ofBits u * 2 ^ 56 + ofBits v * 2 ^ (56 - v.length) := by
        rw [leftAligned_append (by omega), hu]
        congr 3
        omega
      have hbyte : leftAligned (u ++ v) >>> 56 = ofBits u := by
        rw [Nat.shiftRight_eq_div_pow, hacc]
        omega
      have hrest : (leftAligned (u ++ v) <<< 8) % 2 ^ 64 = leftAligned v := by
        have hshift : 64 - v.length = (56 - v.length) + 8 := by omega
        rw [Nat.shiftLeft_eq, hacc, leftAligned, hshift, Nat.pow_add, ← Nat.mul_assoc]
        omega
      obtain ⟨out, q, hrun, hq, hbits⟩ := ih (p := v) (by omega) (by omega)
      refine ⟨UInt8.ofNat (ofBits u) :: out, q, ?_, hq, ?_⟩
      · have hlen : (u ++ v).length - 8 = v.length := by simp [hu]
        rw [emitLoop, if_pos h8, hbyte, hrest, hlen, hrun]
      · have hlt := ofBits_lt u
        rw [hu] at hlt
        have htoNat : (UInt8.ofNat (ofBits u)).toNat = ofBits u := by
          rw [UInt8.toNat_ofNat']
          exact Nat.mod_eq_of_lt hlt
        have hu' := toBits_ofBits u
        rw [hu] at hu'
        rw [bitsOf_cons, htoNat, hu', List.append_assoc, hbits]
    · exact ⟨[], p, by rw [emitLoop, if_neg h8], by omega, rfl⟩

theorem or_shifted {p : List Bool} (i : Fin 257) (hp : p.length < 8) :
    leftAligned p ||| (((symbol i).code <<< 32) % 2 ^ 64) >>> p.length =
      leftAligned (p ++ code i) := by
  obtain ⟨h5, h30, hlt, hmod⟩ := huffmanTable_shape _ (symbol_mem i)
  have hcode : (symbol i).code = ofBits (code i) * 2 ^ (32 - (symbol i).bits) := by
    rw [ofBits_code]
    exact (Nat.div_mul_cancel (Nat.dvd_of_mod_eq_zero hmod)).symm
  have hword : (((symbol i).code <<< 32) % 2 ^ 64) >>> p.length =
      ofBits (code i) * 2 ^ (64 - (p.length + (symbol i).bits)) := by
    have hexp : 32 - (symbol i).bits + 32 = (64 - (p.length + (symbol i).bits)) + p.length := by omega
    rw [Nat.shiftLeft_eq, Nat.mod_eq_of_lt (by omega), Nat.shiftRight_eq_div_pow, hcode,
      Nat.mul_assoc, ← Nat.pow_add, hexp, Nat.pow_add, ← Nat.mul_assoc,
      Nat.mul_div_cancel _ (Nat.two_pow_pos _)]
  have hbound : ofBits (code i) * 2 ^ (64 - (p.length + (symbol i).bits)) < 2 ^ (64 - p.length) := by
    have hb := ofBits_lt (code i)
    rw [length_code] at hb
    calc ofBits (code i) * 2 ^ (64 - (p.length + (symbol i).bits))
        < 2 ^ (symbol i).bits * 2 ^ (64 - (p.length + (symbol i).bits)) :=
          Nat.mul_lt_mul_of_pos_right hb (Nat.two_pow_pos _)
      _ = 2 ^ (64 - p.length) := by rw [← Nat.pow_add]; congr 1; omega
  have hor := Nat.two_pow_add_eq_or_of_lt hbound (ofBits p)
  rw [Nat.mul_comm] at hor
  rw [hword, leftAligned_append (by rw [length_code]; omega), length_code]
  exact hor.symm

/-- The last octet holds the pending bits and ones. -/
theorem bitsOf_lastOctet {p : List Bool} (hp : p.length < 8) :
    bitsOf [UInt8.ofNat (leftAligned p >>> 56) ||| UInt8.ofNat ((1 <<< (8 - p.length)) - 1)] =
      p ++ List.replicate (8 - p.length) true := by
  have hpow := Nat.two_pow_pos (8 - p.length)
  have hpad : 2 ^ (8 - p.length) ≤ 2 ^ 8 := Nat.pow_le_pow_right (by decide) (by omega)
  have hshift : leftAligned p >>> 56 = ofBits p * 2 ^ (8 - p.length) := by
    have hexp : 64 - p.length = (8 - p.length) + 56 := by omega
    rw [Nat.shiftRight_eq_div_pow, leftAligned, hexp, Nat.pow_add, ← Nat.mul_assoc,
      Nat.mul_div_cancel _ (Nat.two_pow_pos 56)]
  have hones : ofBits (p ++ List.replicate (8 - p.length) true) =
      ofBits p * 2 ^ (8 - p.length) + (2 ^ (8 - p.length) - 1) := by
    rw [ofBits_append, List.length_replicate, ofBits_replicate_true]
  have hor : ofBits p * 2 ^ (8 - p.length) ||| (2 ^ (8 - p.length) - 1) =
      ofBits (p ++ List.replicate (8 - p.length) true) := by
    have := Nat.two_pow_add_eq_or_of_lt (Nat.sub_lt hpow Nat.one_pos) (ofBits p)
    rw [Nat.mul_comm] at this
    rw [hones, this]
  have hlen : (p ++ List.replicate (8 - p.length) true).length = 8 := by simp; omega
  have hlt := ofBits_lt (p ++ List.replicate (8 - p.length) true)
  have hbits := toBits_ofBits (p ++ List.replicate (8 - p.length) true)
  rw [hlen] at hlt hbits
  have hmask : (2 ^ (8 - p.length) - 1) % 2 ^ 8 = 2 ^ (8 - p.length) - 1 :=
    Nat.mod_eq_of_lt (by omega)
  have htop : ofBits p * 2 ^ (8 - p.length) % 2 ^ 8 = ofBits p * 2 ^ (8 - p.length) :=
    Nat.mod_eq_of_lt (by omega)
  rw [bitsOf_cons, UInt8.toNat_or, UInt8.toNat_ofNat', UInt8.toNat_ofNat', Nat.one_shiftLeft,
    hshift, hmask, htop, hor, hbits, bitsOf_nil, List.append_nil]

theorem encodeLoop_spec (data : Bytes) {p : List Bool} (hp : p.length < 8) :
    ∃ k < 8, bitsOf (encodeLoop (leftAligned p) p.length data) =
      p ++ codeBits data ++ List.replicate k true := by
  induction data generalizing p with
  | nil =>
    by_cases hpos : p.length > 0
    · refine ⟨8 - p.length, by omega, ?_⟩
      rw [encodeLoop, if_pos hpos, bitsOf_lastOctet hp]
      simp [codeBits]
    · refine ⟨0, by decide, ?_⟩
      have : p = [] := List.length_eq_zero_iff.1 (by omega)
      subst this
      rfl
  | cons byte data ih =>
    obtain ⟨_, h30, _, _⟩ := huffmanTable_shape _ (symbol_mem (byteSym byte))
    have hlen : p.length + (symbol (byteSym byte)).bits = (p ++ code (byteSym byte)).length := by simp
    obtain ⟨out, q, hrun, hq, hbits⟩ :=
      emitLoop_spec (p := p ++ code (byteSym byte)) (Nat.le_refl _) (by rw [← hlen]; omega)
    have hstep : encodeLoop (leftAligned p) p.length (byte :: data) =
        out ++ encodeLoop (leftAligned q) q.length data := by
      rw [← or_shifted (byteSym byte) hp, ← hlen] at hrun
      rw [encodeLoop, show byte.toNat = byteSym byte from rfl, hrun]
    obtain ⟨k, hk, hrest⟩ := ih hq
    refine ⟨k, hk, ?_⟩
    rw [hstep, bitsOf_append, hrest]
    simp only [← List.append_assoc, hbits, codeBits, List.map_cons, List.flatMap_cons]

theorem length_codeBits (data : Bytes) :
    (codeBits data).length = (data.map fun b => (symbol b.toNat).bits).sum := by
  induction data with
  | nil => rfl
  | cons b data ih =>
    simp only [codeBits, List.map_cons, List.flatMap_cons, List.length_append, List.sum_cons,
      length_code] at *
    rw [ih]
    rfl

/-- `encode_to_vec` fills its buffer: the codewords, then fewer than eight ones. -/
theorem bitsOf_encodeToVec (data : Bytes) :
    ∃ k < 8, bitsOf (encodeToVec data) = codeBits data ++ List.replicate k true := by
  obtain ⟨k, hk, hbits⟩ := encodeLoop_spec data (p := []) (by decide)
  have hacc : leftAligned [] = 0 := rfl
  rw [hacc, List.length_nil, List.nil_append] at hbits
  have hlen := congrArg List.length hbits
  rw [length_bitsOf, List.length_append, length_codeBits, List.length_replicate] at hlen
  have hfull : encodedLen data - (encodeLoop 0 0 data).length = 0 := by
    unfold encodedLen
    omega
  refine ⟨k, hk, ?_⟩
  simp [encodeToVec, encode, Except.toOption, hfull, hbits]

/-! ## The decoder reads them back -/

/-- Masking with the top `b` of 32 bits clears the others. -/
theorem and_mask {c b : Nat} (hc : c < 2 ^ 32) (hb : b ≤ 32) :
    c &&& (2 ^ 32 - 1 - ((1 <<< (32 - b)) - 1)) = c / 2 ^ (32 - b) * 2 ^ (32 - b) := by
  have hmask : 2 ^ 32 - 1 - ((1 <<< (32 - b)) - 1) = (2 ^ b - 1) <<< (32 - b) := by
    have hexp : 2 ^ 32 = 2 ^ b * 2 ^ (32 - b) := by rw [← Nat.pow_add]; congr 1; omega
    have := Nat.two_pow_pos (32 - b)
    rw [Nat.one_shiftLeft, Nat.shiftLeft_eq, Nat.sub_mul, ← hexp]
    omega
  rw [hmask, ← Nat.shiftRight_eq_div_pow, ← Nat.shiftLeft_eq]
  apply Nat.eq_of_testBit_eq
  intro i
  simp only [Nat.testBit_and, Nat.testBit_shiftLeft, Nat.testBit_two_pow_sub_one,
    Nat.testBit_shiftRight]
  by_cases hi : 32 - b ≤ i
  · rw [Nat.add_sub_cancel' hi]
    by_cases h32 : i < 32
    · have : i - (32 - b) < b := by omega
      simp [hi, this]
    · have hfalse : c.testBit i = false :=
        Nat.testBit_lt_two_pow (Nat.lt_of_lt_of_le hc (Nat.pow_le_pow_right (by decide) (by omega)))
      simp [hfalse]
  · simp [hi]

theorem current_lt (acc accBits : Nat) : current acc accBits < 2 ^ 32 := by
  unfold current
  split <;> exact Nat.mod_lt _ (by decide)

/-- The front of the left-aligned accumulator is the front of the pending bits. -/
theorem current_div {p : List Bool} {b : Nat} (hb : b ≤ p.length) (h32 : b ≤ 32) :
    current (ofBits p) p.length / 2 ^ (32 - b) = ofBits (p.take b) := by
  unfold current
  split
  · rename_i hge
    have hfront : (ofBits p >>> (p.length - 32)) % 2 ^ 32 = ofBits (p.take 32) := by
      have hdrop : (p.drop 32).length = p.length - 32 := List.length_drop
      have hdiv := ofBits_div (p.take 32) (p.drop 32)
      have hlt := ofBits_lt (p.take 32)
      rw [List.take_append_drop, hdrop] at hdiv
      rw [List.length_take, Nat.min_eq_left hge] at hlt
      rw [Nat.shiftRight_eq_div_pow, hdiv, Nat.mod_eq_of_lt hlt]
    have hsplit : p.take 32 = p.take b ++ (p.take 32).drop b := by
      conv_lhs => rw [← List.take_append_drop b (p.take 32)]
      rw [List.take_take, Nat.min_eq_left h32]
    have hlen : ((p.take 32).drop b).length = 32 - b := by simp; omega
    rw [hfront, hsplit, ← hlen, ofBits_div]
  · rename_i hlt
    have hp := ofBits_lt p
    have hbound : ofBits p * 2 ^ (32 - p.length) < 2 ^ 32 := by
      calc ofBits p * 2 ^ (32 - p.length)
          < 2 ^ p.length * 2 ^ (32 - p.length) :=
            Nat.mul_lt_mul_of_pos_right hp (Nat.two_pow_pos _)
        _ = 2 ^ 32 := by rw [← Nat.pow_add]; congr 1; omega
    have hlen : (p.drop b).length = p.length - b := List.length_drop
    have hexp : 32 - b = (32 - p.length) + (p.length - b) := by omega
    have hdiv := ofBits_div (p.take b) (p.drop b)
    rw [List.take_append_drop, hlen] at hdiv
    rw [Nat.shiftLeft_eq, Nat.mod_eq_of_lt (Nat.lt_trans hbound (by decide)), Nat.mod_eq_of_lt hbound,
      hexp, Nat.pow_add, ← Nat.div_div_eq_div_mul, Nat.mul_div_cancel _ (Nat.two_pow_pos _), hdiv]

/-- The test of the table scan at one symbol. -/
def Matches (current accBits : Nat) (s : HuffmanSym) : Prop :=
  s.bits ≤ accBits ∧ current &&& (2 ^ 32 - 1 - ((1 <<< (32 - s.bits)) - 1)) = s.code

/-- It says that the codeword starts the pending bits. -/
theorem matches_iff {p : List Bool} (i : Fin 257) :
    Matches (current (ofBits p) p.length) p.length (symbol i) ↔ code i <+: p := by
  obtain ⟨_, h30, _, hmod⟩ := huffmanTable_shape _ (symbol_mem i)
  have hcode : (symbol i).code = ofBits (code i) * 2 ^ (32 - (symbol i).bits) := by
    rw [ofBits_code]
    exact (Nat.div_mul_cancel (Nat.dvd_of_mod_eq_zero hmod)).symm
  rw [Matches, and_mask (current_lt _ _) (by omega), List.prefix_iff_eq_take, length_code]
  constructor
  · rintro ⟨hlen, heq⟩
    rw [current_div hlen (by omega), hcode] at heq
    apply ofBits_inj
    · simp [hlen]
    · exact (Nat.eq_of_mul_eq_mul_right (Nat.two_pow_pos _) heq).symm
  · intro heq
    have hlen : (symbol i).bits ≤ p.length := by
      have := congrArg List.length heq
      rw [length_code, List.length_take] at this
      omega
    refine ⟨hlen, ?_⟩
    rw [current_div hlen (by omega), ← heq, hcode]

theorem search_some {c n k j b : Nat} {table : List HuffmanSym}
    (h : search c n k table = some (j, b)) :
    ∃ s, k ≤ j ∧ table[j - k]? = some s ∧ b = s.bits ∧ Matches c n s := by
  induction table generalizing k with
  | nil => simp [search] at h
  | cons s table ih =>
    rw [search] at h
    split at h
    · rename_i hs
      obtain ⟨rfl, rfl⟩ := by simpa using h
      exact ⟨s, Nat.le_refl _, by simp, rfl, hs⟩
    · obtain ⟨s', hle, hget, hrest⟩ := ih h
      refine ⟨s', by omega, ?_, hrest⟩
      rw [show j - k = (j - (k + 1)) + 1 by omega, List.getElem?_cons_succ]
      exact hget

theorem search_none {c n k : Nat} {table : List HuffmanSym} (h : search c n k table = none) :
    ∀ s ∈ table, ¬ Matches c n s := by
  induction table generalizing k with
  | nil => simp
  | cons s table ih =>
    rw [search] at h
    split at h
    · cases h
    · rename_i hs
      intro s' hs'
      rcases List.mem_cons.1 hs' with rfl | hs'
      · exact hs
      · exact ih h s' hs'

/-- A hit of the scan is the codeword that starts the pending bits. -/
theorem search_hit {p : List Bool} {j b : Nat}
    (h : search (current (ofBits p) p.length) p.length 0 huffmanTable = some (j, b)) :
    ∃ i : Fin 257, j = i ∧ b = (symbol i).bits ∧ code i <+: p := by
  obtain ⟨s, _, hget, hb, htest⟩ := search_some h
  obtain ⟨hlt, _⟩ := List.getElem?_eq_some_iff.1 hget
  rw [huffmanTable_length] at hlt
  have hsym : symbol j = s := by
    rw [symbol, List.getD_eq_getElem?_getD, show huffmanTable[j]? = some s from hget]
    rfl
  refine ⟨⟨j, hlt⟩, rfl, ?_, ?_⟩
  · rw [hb]
    exact congrArg HuffmanSym.bits hsym.symm
  · rw [← matches_iff]
    simpa only [hsym] using htest

theorem search_miss {p : List Bool}
    (h : search (current (ofBits p) p.length) p.length 0 huffmanTable = none) :
    Unreadable code p := by
  intro i hpre
  exact search_none h _ (symbol_mem i) ((matches_iff i).2 hpre)

theorem unreadable_of_short {p : List Bool} (h : p.length < 5) : Unreadable code p := by
  intro i hpre
  obtain ⟨h5, _⟩ := huffmanTable_shape _ (symbol_mem i)
  have := hpre.length_le
  rw [length_code] at this
  omega

theorem ofNat_byteSym (b : UInt8) : UInt8.ofNat (byteSym b) = b := UInt8.ofNat_toNat

/-- Dropping the codeword just read leaves the rest of the pending bits. -/
theorem drop_read {u v : List Bool} :
    (if v.length > 0 then ofBits (u ++ v) &&& ((1 <<< v.length) - 1) else 0) = ofBits v := by
  split
  · rw [Nat.one_shiftLeft, Nat.and_two_pow_sub_one_eq_mod, ofBits_mod]
  · have : v = [] := List.length_eq_zero_iff.1 (by omega)
    subst this
    rfl

/-- The inner loop reads symbols of the encoded data until no codeword is left in front. -/
theorem readLoop_spec {fuel k : Nat} {p rest : List Bool} {data : Bytes} (hfuel : p.length ≤ fuel)
    (hk : k ≤ 7) (h : p ++ rest = codeBits data ++ List.replicate k true) :
    ∃ out left q, readLoop fuel (ofBits p) p.length = .ok (out, ofBits q, q.length) ∧
      data = out ++ left ∧ Unreadable code q ∧
      q ++ rest = codeBits left ++ List.replicate k true := by
  induction fuel generalizing p data with
  | zero =>
    have : p = [] := List.length_eq_zero_iff.1 (by omega)
    subst this
    exact ⟨[], data, [], rfl, rfl, unreadable_of_short (by decide), h⟩
  | succ fuel ih =>
    by_cases h5 : p.length ≥ 5
    · cases hs : search (current (ofBits p) p.length) p.length 0 huffmanTable with
      | none =>
        refine ⟨[], data, p, ?_, rfl, search_miss hs, h⟩
        rw [readLoop, if_pos h5, hs]
      | some r =>
        obtain ⟨j, b⟩ := r
        obtain ⟨i, rfl, rfl, v, rfl⟩ := search_hit hs
        have hread : code i <+: (data.map byteSym).flatMap code ++ List.replicate k true := by
          rw [← codeBits, ← h, List.append_assoc]
          exact List.prefix_append _ _
        obtain ⟨s', hs'⟩ := prefixFree_code.read (unreadable_ones hk) hread
        cases data with
        | nil => cases hs'
        | cons byte data =>
          obtain ⟨rfl, rfl⟩ := List.cons_eq_cons.1 hs'
          have hlt : (byteSym byte).val ≠ 256 := Nat.ne_of_lt byte.toNat_lt
          have htail : v ++ rest = codeBits data ++ List.replicate k true := by
            simp only [codeBits, List.map_cons, List.flatMap_cons, List.append_assoc] at h ⊢
            exact List.append_cancel_left h
          obtain ⟨h5', _⟩ := huffmanTable_shape _ (symbol_mem (byteSym byte))
          have hv : (code (byteSym byte) ++ v).length - (symbol (byteSym byte)).bits = v.length := by
            simp
          rw [List.length_append, length_code] at hfuel
          obtain ⟨out, left, q, hrun, hdata, hq, hrest⟩ := ih (p := v) (by omega) htail
          refine ⟨byte :: out, left, q, ?_, by rw [hdata, List.cons_append], hq, hrest⟩
          rw [readLoop, if_pos h5, hs]
          simp only [if_neg hlt, hv, drop_read, hrun, ofNat_byteSym]
          rfl
    · exact ⟨[], data, p, by rw [readLoop, if_neg h5], rfl, unreadable_of_short (by omega), h⟩

/-- Shifting an octet in appends its bits, as long as the accumulator has room for them. -/
theorem shiftIn {p : List Bool} (hp : p.length ≤ 56) (byte : UInt8) :
    ((ofBits p <<< 8) % 2 ^ 64) ||| byte.toNat = ofBits (p ++ toBits 8 byte.toNat) := by
  have hlt := ofBits_lt p
  have hpow : 2 ^ p.length ≤ 2 ^ 56 := Nat.pow_le_pow_right (by decide) hp
  have hbyte : byte.toNat < 2 ^ 8 := byte.toNat_lt
  have hor := Nat.two_pow_add_eq_or_of_lt hbyte (ofBits p)
  rw [ofBits_append, ofBits_toBits, length_toBits, Nat.mod_eq_of_lt hbyte, Nat.shiftLeft_eq,
    Nat.mod_eq_of_lt (by omega), Nat.mul_comm, ← hor]

theorem decodeLoop_spec {k : Nat} {p : List Bool} {bytes data : Bytes} (hk : k ≤ 7)
    (hp : Unreadable code p) (h : p ++ bitsOf bytes = codeBits data ++ List.replicate k true) :
    decodeLoop (ofBits p) p.length bytes = .ok data := by
  induction bytes generalizing p data with
  | nil =>
    rw [bitsOf_nil, List.append_nil] at h
    have hnil : data = [] := by
      rw [h] at hp
      exact List.map_eq_nil_iff.1 hp.eq_nil
    subst hnil
    have hones : p = List.replicate k true := h
    subst hones
    rw [decodeLoop, List.length_replicate, ofBits_replicate_true, Nat.one_shiftLeft]
    split
    · exact if_pos (Nat.and_self _)
    · exact if_neg (by omega)
  | cons byte bytes ih =>
    have hle : p.length ≤ 30 := by
      have hpre : p <+: codeBits data ++ List.replicate k true := by
        rw [← h]
        exact List.prefix_append _ _
      refine hp.length_le ?_ ?_ hpre
      · intro i
        rw [length_code]
        exact (huffmanTable_shape _ (symbol_mem i)).2.1
      · simp
        omega
    have hbits : (p ++ toBits 8 byte.toNat) ++ bitsOf bytes =
        codeBits data ++ List.replicate k true := by
      rw [← h, bitsOf_cons, List.append_assoc]
    have hlen : (p ++ toBits 8 byte.toNat).length = p.length + 8 := by simp
    obtain ⟨out, left, q, hrun, rfl, hq, hrest⟩ := readLoop_spec (Nat.le_refl _) hk hbits
    rw [hlen] at hrun
    rw [decodeLoop, shiftIn (by omega)]
    simp only [hrun, bind, Except.bind, ih hq hrest]
    rfl

/-- Huffman coding round trip. -/
theorem decode_encodeToVec (data : Bytes) : decode (encodeToVec data) = .ok data := by
  obtain ⟨k, hk, hbits⟩ := bitsOf_encodeToVec data
  exact decodeLoop_spec (p := []) (Nat.le_of_lt_succ hk) (unreadable_of_short (by decide)) hbits

end Http2.Hpack.Huffman
