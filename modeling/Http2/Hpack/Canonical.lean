import Http2.Hpack.Huffman

/-! What `huffman::decode` accepts is what `huffman::encode` writes, and the arithmetic of its loop
stays inside the machine words it is done in. -/
namespace Http2.Hpack.Huffman

open Lib.PrefixCode

/-! ## What is read is the code of the result -/

theorem bitsOf_injective {x y : Bytes} (h : bitsOf x = bitsOf y) : x = y := by
  induction x generalizing y with
  | nil =>
    have hlen := congrArg List.length h
    rw [length_bitsOf, length_bitsOf] at hlen
    simp only [List.length_nil] at hlen
    exact (List.length_eq_zero_iff.1 (by omega)).symm
  | cons b x ih =>
    cases y with
    | nil =>
      have hlen := congrArg List.length h
      rw [length_bitsOf, length_bitsOf] at hlen
      simp at hlen
    | cons c y =>
      rw [bitsOf_cons, bitsOf_cons] at h
      obtain ⟨hhead, htail⟩ := List.append_inj h (by simp)
      have hnat : b.toNat = c.toNat := by
        have := congrArg ofBits hhead
        rwa [ofBits_toBits, ofBits_toBits, Nat.mod_eq_of_lt b.toNat_lt,
          Nat.mod_eq_of_lt c.toNat_lt] at this
      rw [UInt8.toNat_inj.1 hnat, ih htail]

/-- The symbols the inner loop reads are the codewords in front of the pending bits. -/
theorem readLoop_sound {fuel acc n : Nat} {p : List Bool} {out : Bytes} (hfuel : p.length ≤ fuel)
    (h : readLoop fuel (ofBits p) p.length = .ok (out, acc, n)) :
    ∃ q, acc = ofBits q ∧ n = q.length ∧ Unreadable code q ∧ p = codeBits out ++ q := by
  induction fuel generalizing p out with
  | zero =>
    have : p = [] := List.length_eq_zero_iff.1 (by omega)
    subst this
    cases h
    exact ⟨[], rfl, rfl, unreadable_of_short (by decide), rfl⟩
  | succ fuel ih =>
    rw [readLoop] at h
    split at h
    · cases hs : search (current (ofBits p) p.length) p.length 0 huffmanTable with
      | none =>
        rw [hs] at h
        cases h
        exact ⟨p, rfl, rfl, search_miss hs, rfl⟩
      | some r =>
        obtain ⟨j, b⟩ := r
        rw [hs] at h
        obtain ⟨i, rfl, rfl, v, rfl⟩ := search_hit hs
        obtain ⟨h5, _⟩ := huffmanTable_shape _ (symbol_mem i)
        have hv : (code i ++ v).length - (symbol i).bits = v.length := by simp
        simp only [hv, drop_read] at h
        split at h
        · cases h
        · rename_i hne
          rw [List.length_append, length_code] at hfuel
          cases hrest : readLoop fuel (ofBits v) v.length with
          | error e =>
            rw [hrest] at h
            cases h
          | ok r =>
            obtain ⟨out', acc', n'⟩ := r
            rw [hrest] at h
            cases h
            obtain ⟨q, hacc, hn, hq, rfl⟩ := ih (by omega) hrest
            refine ⟨q, hacc, hn, hq, ?_⟩
            have hsym : byteSym (UInt8.ofNat i) = i := by
              apply Fin.ext
              show (UInt8.ofNat i).toNat = i
              rw [UInt8.toNat_ofNat']
              exact Nat.mod_eq_of_lt (by have := i.isLt; omega)
            simp only [codeBits, List.map_cons, List.flatMap_cons, hsym, List.append_assoc]
    · cases h
      exact ⟨p, rfl, rfl, unreadable_of_short (by omega), rfl⟩

/-- An accepted padding is a run of at most seven ones. -/
theorem decodeLoop_nil_sound {p : List Bool} {data : Bytes}
    (h : decodeLoop (ofBits p) p.length [] = .ok data) :
    data = [] ∧ ∃ k ≤ 7, p = List.replicate k true := by
  have hmask : ofBits p &&& (1 <<< p.length) - 1 = ofBits p := by
    rw [Nat.one_shiftLeft, Nat.and_two_pow_sub_one_eq_mod, Nat.mod_eq_of_lt (ofBits_lt p)]
  simp only [decodeLoop, hmask] at h
  split at h
  · rename_i hlen
    split at h
    · rename_i hones
      cases h
      refine ⟨rfl, p.length, hlen.2, ?_⟩
      apply ofBits_inj (by simp)
      rw [ofBits_replicate_true, hones, Nat.one_shiftLeft]
    · cases h
  · split at h
    · cases h
    · cases h
      have : p = [] := List.length_eq_zero_iff.1 (by omega)
      exact ⟨rfl, 0, by decide, this⟩

theorem decodeLoop_sound {p : List Bool} {bytes data : Bytes} (hp : Unreadable code p)
    (h : decodeLoop (ofBits p) p.length bytes = .ok data) :
    ∃ k ≤ 7, p ++ bitsOf bytes = codeBits data ++ List.replicate k true := by
  induction bytes generalizing p data with
  | nil =>
    obtain ⟨rfl, k, hk, rfl⟩ := decodeLoop_nil_sound h
    exact ⟨k, hk, List.append_nil _⟩
  | cons byte bytes ih =>
    have hlen : (p ++ toBits 8 byte.toNat).length = p.length + 8 := by simp
    rw [decodeLoop, shiftIn (Nat.le_trans (length_lt_of_unreadable hp).le (by decide)),
      ← hlen] at h
    cases hrun : readLoop (p ++ toBits 8 byte.toNat).length (ofBits (p ++ toBits 8 byte.toNat))
        (p ++ toBits 8 byte.toNat).length with
    | error e =>
      rw [hrun] at h
      cases h
    | ok r =>
      obtain ⟨out, acc, n⟩ := r
      obtain ⟨q, rfl, rfl, hq, hsplit⟩ := readLoop_sound (Nat.le_refl _) hrun
      simp only [hrun, bind, Except.bind] at h
      cases hrest : decodeLoop (ofBits q) q.length bytes with
      | error e =>
        rw [hrest] at h
        cases h
      | ok rest =>
        rw [hrest] at h
        cases h
        obtain ⟨k, hk, hbits⟩ := ih hq hrest
        refine ⟨k, hk, ?_⟩
        rw [bitsOf_cons, ← List.append_assoc, hsplit, List.append_assoc, hbits]
        simp [codeBits]

theorem length_encodeToVec (data : Bytes) : (encodeToVec data).length = encodedLen data := by
  obtain ⟨k, hk, hbits⟩ := bitsOf_encodeToVec data
  have hlen := congrArg List.length hbits
  rw [length_bitsOf, List.length_append, length_codeBits, List.length_replicate] at hlen
  unfold encodedLen
  omega

/-- The padding is settled by the length of the codewords, so the octets are. -/
theorem encodeToVec_of_decode {x s : Bytes} (h : decode x = .ok s) : encodeToVec s = x := by
  obtain ⟨k, hk, hx⟩ := decodeLoop_sound (p := []) (unreadable_of_short (by decide)) h
  obtain ⟨k', hk', henc⟩ := bitsOf_encodeToVec s
  rw [List.nil_append] at hx
  have hxlen := congrArg List.length hx
  have henclen := congrArg List.length henc
  rw [length_bitsOf, List.length_append, List.length_replicate] at hxlen henclen
  have hkk : k' = k := by omega
  apply bitsOf_injective
  rw [henc, hx, hkk]

/-! ## The machine words of the loop -/

/-- The accumulator of `decode` before each octet, with the octets still to come. -/
inductive AtOctet (data : Bytes) : Bytes → Nat → Nat → Prop
  | start : AtOctet data data 0 0
  | next {byte : UInt8} {rest out : Bytes} {acc accBits acc' accBits' : Nat} :
      AtOctet data (byte :: rest) acc accBits →
      readLoop (accBits + 8) (((acc <<< 8) % 2 ^ 64) ||| byte.toNat) (accBits + 8) =
        .ok (out, acc', accBits') →
      AtOctet data rest acc' accBits'

/-- The accumulator at each turn of the loop `'decode`. -/
inductive AtSymbol (data : Bytes) : Nat → Nat → Prop
  | entry {byte : UInt8} {rest : Bytes} {acc accBits : Nat} :
      AtOctet data (byte :: rest) acc accBits →
      AtSymbol data (((acc <<< 8) % 2 ^ 64) ||| byte.toNat) (accBits + 8)
  | next {acc accBits symIdx bits : Nat} :
      AtSymbol data acc accBits → accBits ≥ 5 →
      search (current acc accBits) accBits 0 huffmanTable = some (symIdx, bits) → symIdx ≠ 256 →
      AtSymbol data (if accBits - bits > 0 then acc &&& ((1 <<< (accBits - bits)) - 1) else 0)
        (accBits - bits)

theorem AtOctet.unreadable {data rest : Bytes} {acc accBits : Nat}
    (h : AtOctet data rest acc accBits) :
    ∃ p, acc = ofBits p ∧ accBits = p.length ∧ Unreadable code p := by
  induction h with
  | start => exact ⟨[], rfl, rfl, unreadable_of_short (by decide)⟩
  | @next byte rest out acc accBits acc' accBits' _ hrun ih =>
    obtain ⟨p, rfl, rfl, hp⟩ := ih
    have hlen : (p ++ toBits 8 byte.toNat).length = p.length + 8 := by simp
    rw [shiftIn (Nat.le_trans (length_lt_of_unreadable hp).le (by decide)),
      ← hlen] at hrun
    obtain ⟨q, hacc, hn, hq, _⟩ := readLoop_sound (Nat.le_refl _) hrun
    exact ⟨q, hacc, hn, hq⟩

theorem AtSymbol.pending {data : Bytes} {acc accBits : Nat} (h : AtSymbol data acc accBits) :
    ∃ p, acc = ofBits p ∧ accBits = p.length ∧ p.length < 38 := by
  induction h with
  | @entry byte rest acc accBits h =>
    obtain ⟨p, rfl, rfl, hp⟩ := h.unreadable
    have hlt := length_lt_of_unreadable hp
    refine ⟨p ++ toBits 8 byte.toNat, shiftIn (by omega) byte, by simp, ?_⟩
    simp only [List.length_append, length_toBits]
    omega
  | next _ _ hs _ ih =>
    obtain ⟨p, rfl, rfl, hp⟩ := ih
    obtain ⟨i, _, rfl, v, rfl⟩ := search_hit hs
    have hv : (code i ++ v).length - (symbol i).bits = v.length := by simp
    rw [List.length_append] at hp
    rw [hv, drop_read]
    exact ⟨v, rfl, rfl, by omega⟩

/-- Encoding and decoding are inverse to each other, and on every input the decoder's accumulator
loses no bit and its shifts stay below the width of what they shift. -/
theorem huffman_bijective :
    (∀ s, decode (encodeToVec s) = .ok s ∧ (encodeToVec s).length = encodedLen s) ∧
    (∀ x s, decode x = .ok s → encodeToVec s = x) ∧
    (∀ sym ∈ huffmanTable, 32 - sym.bits < 32) ∧
    ∀ data,
      (∀ rest acc accBits, AtOctet data rest acc accBits →
        acc < 2 ^ accBits ∧ accBits < 64 ∧ acc * 2 ^ 8 < 2 ^ 64) ∧
      ∀ acc accBits, AtSymbol data acc accBits →
        acc < 2 ^ accBits ∧ accBits < 64 ∧ accBits - 32 < 64 ∧ 32 - accBits < 64 ∧
          (accBits < 32 → acc * 2 ^ (32 - accBits) < 2 ^ 64) := by
  refine ⟨?_, ?_, ?_, ?_⟩
  · intro s
    exact ⟨decode_encodeToVec s, length_encodeToVec s⟩
  · intro x s h
    exact encodeToVec_of_decode h
  · intro sym hsym
    have := (huffmanTable_shape sym hsym).1
    omega
  · intro data
    constructor
    · intro rest acc accBits h
      obtain ⟨p, rfl, rfl, hp⟩ := h.unreadable
      have hlen := length_lt_of_unreadable hp
      have hlt := ofBits_lt p
      have hpow : 2 ^ p.length ≤ 2 ^ 30 := Nat.pow_le_pow_right (by decide) (by omega)
      refine ⟨hlt, by omega, ?_⟩
      omega
    · intro acc accBits h
      obtain ⟨p, rfl, rfl, hlen⟩ := h.pending
      have hlt := ofBits_lt p
      refine ⟨hlt, by omega, by omega, by omega, ?_⟩
      intro h32
      calc ofBits p * 2 ^ (32 - p.length)
          < 2 ^ p.length * 2 ^ (32 - p.length) :=
            Nat.mul_lt_mul_of_pos_right hlt (Nat.two_pow_pos _)
        _ = 2 ^ 32 := by rw [← Nat.pow_add]; congr 1; omega
        _ < 2 ^ 64 := by decide

/-- A name whose codes cross its octets, the last of which is padded. -/
theorem huffman_bijective_name :
    let bytes : Bytes := [0xf1, 0xe3, 0xc2, 0xe5, 0xf2, 0x3a, 0x6b, 0xa0, 0xab, 0x90, 0xf4, 0xff]
    decode bytes = .ok (ascii "www.example.com") ∧ encodeToVec (ascii "www.example.com") = bytes := by
  intro bytes
  have h : decode bytes = .ok (ascii "www.example.com") := by decide +kernel
  exact ⟨h, huffman_bijective.2.1 bytes (ascii "www.example.com") h⟩

end Http2.Hpack.Huffman
