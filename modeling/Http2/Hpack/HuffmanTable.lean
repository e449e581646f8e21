import Http2.Error
import Http2.Lib.PrefixCode

/-! The Huffman code of `src/hpack/huffman.rs` (RFC 7541 appendix B) as a prefix-free code. -/
namespace Http2.Hpack.Huffman

open Lib.PrefixCode

/-- A codeword: its length and its bits, left-aligned in 32. -/
structure HuffmanSym where
  bits : Nat
  code : Nat
  deriving DecidableEq, Repr

/-- `HUFFMAN_TABLE`, by symbol; symbol 256 is EOS. -/
def huffmanTable : List HuffmanSym := [
  ⟨13, 0xffc00000⟩, ⟨23, 0xffffb000⟩, ⟨28, 0xfffffe20⟩, ⟨28, 0xfffffe30⟩, ⟨28, 0xfffffe40⟩,
  ⟨28, 0xfffffe50⟩, ⟨28, 0xfffffe60⟩, ⟨28, 0xfffffe70⟩, ⟨28, 0xfffffe80⟩, ⟨24, 0xffffea00⟩,
  ⟨30, 0xfffffff0⟩, ⟨28, 0xfffffe90⟩, ⟨28, 0xfffffea0⟩, ⟨30, 0xfffffff4⟩, ⟨28, 0xfffffeb0⟩,
  ⟨28, 0xfffffec0⟩, ⟨28, 0xfffffed0⟩, ⟨28, 0xfffffee0⟩, ⟨28, 0xfffffef0⟩, ⟨28, 0xffffff00⟩,
  ⟨28, 0xffffff10⟩, ⟨28, 0xffffff20⟩, ⟨30, 0xfffffff8⟩, ⟨28, 0xffffff30⟩, ⟨28, 0xffffff40⟩,
  ⟨28, 0xffffff50⟩, ⟨28, 0xffffff60⟩, ⟨28, 0xffffff70⟩, ⟨28, 0xffffff80⟩, ⟨28, 0xffffff90⟩,
  ⟨28, 0xffffffa0⟩, ⟨28, 0xffffffb0⟩, ⟨6, 0x50000000⟩, ⟨10, 0xfe000000⟩, ⟨10, 0xfe400000⟩,
  ⟨12, 0xffa00000⟩, ⟨13, 0xffc80000⟩, ⟨6, 0x54000000⟩, ⟨8, 0xf8000000⟩, ⟨11, 0xff400000⟩,
  ⟨10, 0xfe800000⟩, ⟨10, 0xfec00000⟩, ⟨8, 0xf9000000⟩, ⟨11, 0xff600000⟩, ⟨8, 0xfa000000⟩,
  ⟨6, 0x58000000⟩, ⟨6, 0x5c000000⟩, ⟨6, 0x60000000⟩, ⟨5, 0x00000000⟩, ⟨5, 0x08000000⟩,
  ⟨5, 0x10000000⟩, ⟨6, 0x64000000⟩, ⟨6, 0x68000000⟩, ⟨6, 0x6c000000⟩, ⟨6, 0x70000000⟩,
  ⟨6, 0x74000000⟩, ⟨6, 0x78000000⟩, ⟨6, 0x7c000000⟩, ⟨7, 0xb8000000⟩, ⟨8, 0xfb000000⟩,
  ⟨15, 0xfff80000⟩, ⟨6, 0x80000000⟩, ⟨12, 0xffb00000⟩, ⟨10, 0xff000000⟩, ⟨13, 0xffd00000⟩,
  ⟨6, 0x84000000⟩, ⟨7, 0xba000000⟩, ⟨7, 0xbc000000⟩, ⟨7, 0xbe000000⟩, ⟨7, 0xc0000000⟩,
  ⟨7, 0xc2000000⟩, ⟨7, 0xc4000000⟩, ⟨7, 0xc6000000⟩, ⟨7, 0xc8000000⟩, ⟨7, 0xca000000⟩,
  ⟨7, 0xcc000000⟩, ⟨7, 0xce000000⟩, ⟨7, 0xd0000000⟩, ⟨7, 0xd2000000⟩, ⟨7, 0xd4000000⟩,
  ⟨7, 0xd6000000⟩, ⟨7, 0xd8000000⟩, ⟨7, 0xda000000⟩, ⟨7, 0xdc000000⟩, ⟨7, 0xde000000⟩,
  ⟨7, 0xe0000000⟩, ⟨7, 0xe2000000⟩, ⟨7, 0xe4000000⟩, ⟨8, 0xfc000000⟩, ⟨7, 0xe6000000⟩,
  ⟨8, 0xfd000000⟩, ⟨13, 0xffd80000⟩, ⟨19, 0xfffe0000⟩, ⟨13, 0xffe00000⟩, ⟨14, 0xfff00000⟩,
  ⟨6, 0x88000000⟩, ⟨15, 0xfffa0000⟩, ⟨5, 0x18000000⟩, ⟨6, 0x8c000000⟩, ⟨5, 0x20000000⟩,
  ⟨6, 0x90000000⟩, ⟨5, 0x28000000⟩, ⟨6, 0x94000000⟩, ⟨6, 0x98000000⟩, ⟨6, 0x9c000000⟩,
  ⟨5, 0x30000000⟩, ⟨7, 0xe8000000⟩, ⟨7, 0xea000000⟩, ⟨6, 0xa0000000⟩, ⟨6, 0xa4000000⟩,
  ⟨6, 0xa8000000⟩, ⟨5, 0x38000000⟩, ⟨6, 0xac000000⟩, ⟨7, 0xec000000⟩, ⟨6, 0xb0000000⟩,
  ⟨5, 0x40000000⟩, ⟨5, 0x48000000⟩, ⟨6, 0xb4000000⟩, ⟨7, 0xee000000⟩, ⟨7, 0xf0000000⟩,
  ⟨7, 0xf2000000⟩, ⟨7, 0xf4000000⟩, ⟨7, 0xf6000000⟩, ⟨15, 0xfffc0000⟩, ⟨11, 0xff800000⟩,
  ⟨14, 0xfff40000⟩, ⟨13, 0xffe80000⟩, ⟨28, 0xffffffc0⟩, ⟨20, 0xfffe6000⟩, ⟨22, 0xffff4800⟩,
  ⟨20, 0xfffe7000⟩, ⟨20, 0xfffe8000⟩, ⟨22, 0xffff4c00⟩, ⟨22, 0xffff5000⟩, ⟨22, 0xffff5400⟩,
  ⟨23, 0xffffb200⟩, ⟨22, 0xffff5800⟩, ⟨23, 0xffffb400⟩, ⟨23, 0xffffb600⟩, ⟨23, 0xffffb800⟩,
  ⟨23, 0xffffba00⟩, ⟨23, 0xffffbc00⟩, ⟨24, 0xffffeb00⟩, ⟨23, 0xffffbe00⟩, ⟨24, 0xffffec00⟩,
  ⟨24, 0xffffed00⟩, ⟨22, 0xffff5c00⟩, ⟨23, 0xffffc000⟩, ⟨24, 0xffffee00⟩, ⟨23, 0xffffc200⟩,
  ⟨23, 0xffffc400⟩, ⟨23, 0xffffc600⟩, ⟨23, 0xffffc800⟩, ⟨21, 0xfffee000⟩, ⟨22, 0xffff6000⟩,
  ⟨23, 0xffffca00⟩, ⟨22, 0xffff6400⟩, ⟨23, 0xffffcc00⟩, ⟨23, 0xffffce00⟩, ⟨24, 0xffffef00⟩,
  ⟨22, 0xffff6800⟩, ⟨21, 0xfffee800⟩, ⟨20, 0xfffe9000⟩, ⟨22, 0xffff6c00⟩, ⟨22, 0xffff7000⟩,
  ⟨23, 0xffffd000⟩, ⟨23, 0xffffd200⟩, ⟨21, 0xfffef000⟩, ⟨23, 0xffffd400⟩, ⟨22, 0xffff7400⟩,
  ⟨22, 0xffff7800⟩, ⟨24, 0xfffff000⟩, ⟨21, 0xfffef800⟩, ⟨22, 0xffff7c00⟩, ⟨23, 0xffffd600⟩,
  ⟨23, 0xffffd800⟩, ⟨21, 0xffff0000⟩, ⟨21, 0xffff0800⟩, ⟨22, 0xffff8000⟩, ⟨21, 0xffff1000⟩,
  ⟨23, 0xffffda00⟩, ⟨22, 0xffff8400⟩, ⟨23, 0xffffdc00⟩, ⟨23, 0xffffde00⟩, ⟨20, 0xfffea000⟩,
  ⟨22, 0xffff8800⟩, ⟨22, 0xffff8c00⟩, ⟨22, 0xffff9000⟩, ⟨23, 0xffffe000⟩, ⟨22, 0xffff9400⟩,
  ⟨22, 0xffff9800⟩, ⟨23, 0xffffe200⟩, ⟨26, 0xfffff800⟩, ⟨26, 0xfffff840⟩, ⟨20, 0xfffeb000⟩,
  ⟨19, 0xfffe2000⟩, ⟨22, 0xffff9c00⟩, ⟨23, 0xffffe400⟩, ⟨22, 0xffffa000⟩, ⟨25, 0xfffff600⟩,
  ⟨26, 0xfffff880⟩, ⟨26, 0xfffff8c0⟩, ⟨26, 0xfffff900⟩, ⟨27, 0xfffffbc0⟩, ⟨27, 0xfffffbe0⟩,
  ⟨26, 0xfffff940⟩, ⟨24, 0xfffff100⟩, ⟨25, 0xfffff680⟩, ⟨19, 0xfffe4000⟩, ⟨21, 0xffff1800⟩,
  ⟨26, 0xfffff980⟩, ⟨27, 0xfffffc00⟩, ⟨27, 0xfffffc20⟩, ⟨26, 0xfffff9c0⟩, ⟨27, 0xfffffc40⟩,
  ⟨24, 0xfffff200⟩, ⟨21, 0xffff2000⟩, ⟨21, 0xffff2800⟩, ⟨26, 0xfffffa00⟩, ⟨26, 0xfffffa40⟩,
  ⟨28, 0xffffffd0⟩, ⟨27, 0xfffffc60⟩, ⟨27, 0xfffffc80⟩, ⟨27, 0xfffffca0⟩, ⟨20, 0xfffec000⟩,
  ⟨24, 0xfffff300⟩, ⟨20, 0xfffed000⟩, ⟨21, 0xffff3000⟩, ⟨22, 0xffffa400⟩, ⟨21, 0xffff3800⟩,
  ⟨21, 0xffff4000⟩, ⟨23, 0xffffe600⟩, ⟨22, 0xffffa800⟩, ⟨22, 0xffffac00⟩, ⟨25, 0xfffff700⟩,
  ⟨25, 0xfffff780⟩, ⟨24, 0xfffff400⟩, ⟨24, 0xfffff500⟩, ⟨26, 0xfffffa80⟩, ⟨23, 0xffffe800⟩,
  ⟨26, 0xfffffac0⟩, ⟨27, 0xfffffcc0⟩, ⟨26, 0xfffffb00⟩, ⟨26, 0xfffffb40⟩, ⟨27, 0xfffffce0⟩,
  ⟨27, 0xfffffd00⟩, ⟨27, 0xfffffd20⟩, ⟨27, 0xfffffd40⟩, ⟨27, 0xfffffd60⟩, ⟨28, 0xffffffe0⟩,
  ⟨27, 0xfffffd80⟩, ⟨27, 0xfffffda0⟩, ⟨27, 0xfffffdc0⟩, ⟨27, 0xfffffde0⟩, ⟨27, 0xfffffe00⟩,
  ⟨26, 0xfffffb80⟩, ⟨30, 0xfffffffc⟩]

/-- `HUFFMAN_TABLE[i]`. -/
def symbol (i : Nat) : HuffmanSym := huffmanTable.getD i ⟨0, 0⟩

def HuffmanSym.word (s : HuffmanSym) : List Bool := toBits s.bits (s.code / 2 ^ (32 - s.bits))

/-- The codeword of each symbol. -/
def code (i : Fin 257) : List Bool := (symbol i).word

/-! ## The table is a prefix-free code -/

/-- No codeword of the list starts with the bits `k`, which end at the weight `d`. -/
def clear (d k : Nat) : List HuffmanSym → Bool
  | [] => true
  | b :: l => !Nat.beq (Nat.div b.code d) k && clear d k l

/-- No codeword of the list starts with an earlier one. -/
def apart : List HuffmanSym → Bool
  | [] => true
  | a :: l => clear (2 ^ (32 - a.bits)) (a.code / 2 ^ (32 - a.bits)) l && apart l

theorem ne_of_clear {d k : Nat} {l : List HuffmanSym} (h : clear d k l = true) :
    ∀ b ∈ l, b.code / d ≠ k := by
  induction l with
  | nil => intro b hb; cases hb
  | cons a l ih =>
    intro b hb heq
    simp only [clear, Bool.and_eq_true, Bool.not_eq_true'] at h
    rcases List.mem_cons.1 hb with rfl | hb
    · have : Nat.beq (Nat.div b.code d) k = true := by
        rw [Nat.beq_eq]
        exact heq
      simp [this] at h
    · exact ih h.2 b hb heq

theorem pairwise_of_apart {l : List HuffmanSym} (h : apart l = true) :
    l.Pairwise fun a b => b.code / 2 ^ (32 - a.bits) ≠ a.code / 2 ^ (32 - a.bits) := by
  induction l with
  | nil => exact List.Pairwise.nil
  | cons a l ih =>
    simp only [apart, Bool.and_eq_true] at h
    exact List.Pairwise.cons (ne_of_clear h.1) (ih h.2)

theorem huffmanTable_length : huffmanTable.length = 257 := by decide +kernel

theorem apart_huffmanTable : apart huffmanTable = true := by decide +kernel

theorem apart_huffmanTable_reverse : apart huffmanTable.reverse = true := by decide +kernel

theorem huffmanTable_shape : ∀ a ∈ huffmanTable,
    5 ≤ a.bits ∧ a.bits ≤ 30 ∧ a.code < 2 ^ 32 ∧ a.code % 2 ^ (32 - a.bits) = 0 := by
  decide +kernel

/-- No codeword is a run of at most seven ones. -/
theorem huffmanTable_not_ones : ∀ a ∈ huffmanTable,
    a.bits ≤ 7 → a.code / 2 ^ (32 - a.bits) ≠ 2 ^ a.bits - 1 := by
  decide +kernel

theorem symbol_eq (i : Fin 257) :
    symbol i = huffmanTable.get ⟨i, by rw [huffmanTable_length]; exact i.isLt⟩ := by
  have hi : i.val < huffmanTable.length := by rw [huffmanTable_length]; exact i.isLt
  simp [symbol, hi]

theorem symbol_mem (i : Fin 257) : symbol i ∈ huffmanTable := by
  rw [symbol_eq]
  exact List.get_mem _ _

/-- Two different symbols differ within the length of either one's codeword. -/
theorem symbol_apart {i j : Fin 257} (hij : i ≠ j) :
    (symbol j).code / 2 ^ (32 - (symbol i).bits) ≠
      (symbol i).code / 2 ^ (32 - (symbol i).bits) := by
  have hfwd := pairwise_of_apart apart_huffmanTable
  have hbwd := List.pairwise_reverse.1 (pairwise_of_apart apart_huffmanTable_reverse)
  rw [List.pairwise_iff_getElem] at hfwd hbwd
  rw [symbol_eq i, symbol_eq j]
  rcases Nat.lt_or_gt_of_ne (Fin.val_ne_of_ne hij) with h | h
  · exact hfwd _ _ _ _ h
  · exact hbwd _ _ _ _ h

@[simp] theorem length_code (i : Fin 257) : (code i).length = (symbol i).bits := length_toBits _ _

theorem ofBits_code (i : Fin 257) :
    ofBits (code i) = (symbol i).code / 2 ^ (32 - (symbol i).bits) := by
  obtain ⟨_, hle, hlt, _⟩ := huffmanTable_shape _ (symbol_mem i)
  rw [code, HuffmanSym.word, ofBits_toBits, Nat.mod_eq_of_lt]
  apply Nat.div_lt_of_lt_mul
  rwa [← Nat.pow_add, Nat.sub_add_cancel (by omega)]

theorem prefixFree_code : PrefixFree code := by
  intro i j hpre
  by_contra hij
  obtain ⟨_, hi, _, _⟩ := huffmanTable_shape _ (symbol_mem i)
  obtain ⟨_, hj, _, _⟩ := huffmanTable_shape _ (symbol_mem j)
  obtain ⟨t, ht⟩ := hpre
  have hlen : (symbol i).bits + t.length = (symbol j).bits := by
    rw [← length_code j, ← ht, List.length_append, length_code]
  apply symbol_apart hij
  have hdiv : ofBits (code j) / 2 ^ t.length = ofBits (code i) := by rw [← ht, ofBits_div]
  rw [ofBits_code, ofBits_code, Nat.div_div_eq_div_mul, ← Nat.pow_add] at hdiv
  rw [← hdiv]
  congr 2
  omega

/-! ## The code is complete -/

/-- Codewords that follow one another from the weight `pos` up to `2 ^ 32`. -/
def tiles (table : List HuffmanSym) : Nat → Nat → Bool
  | 0, _ => false
  | fuel + 1, pos =>
    Nat.beq pos (2 ^ 32) ||
      match table.find? fun s => Nat.beq s.code pos with
      | some s => tiles table fuel (pos + 2 ^ (32 - s.bits))
      | none => false

theorem exists_of_tiles {table : List HuffmanSym} {fuel pos c : Nat}
    (h : tiles table fuel pos = true) (hpos : pos ≤ c) (hc : c < 2 ^ 32) :
    ∃ s ∈ table, s.code ≤ c ∧ c < s.code + 2 ^ (32 - s.bits) := by
  induction fuel generalizing pos with
  | zero => simp [tiles] at h
  | succ fuel ih =>
    rw [tiles, Bool.or_eq_true, Nat.beq_eq] at h
    rcases h with h | h
    · omega
    · split at h
      · rename_i s hs
        have hcode : s.code = pos := Nat.eq_of_beq_eq_true (List.find?_some hs :)
        by_cases hlt : c < s.code + 2 ^ (32 - s.bits)
        · exact ⟨s, List.mem_of_find?_eq_some hs, by omega, hlt⟩
        · exact ih h (by omega)
      · cases h

theorem tiles_huffmanTable : tiles huffmanTable 258 0 = true := by decide +kernel

theorem exists_symbol {s : HuffmanSym} (hs : s ∈ huffmanTable) : ∃ i : Fin 257, symbol i = s := by
  obtain ⟨j, hj, heq⟩ := List.getElem_of_mem hs
  rw [huffmanTable_length] at hj
  exact ⟨⟨j, hj⟩, (symbol_eq ⟨j, hj⟩).trans heq⟩

/-- Every thirty bits start with a codeword. -/
theorem length_lt_of_unreadable {p : List Bool} (hp : Unreadable code p) : p.length < 30 := by
  by_contra hlen
  have h30 : (p.take 30).length = 30 := by simp; omega
  have hlt := ofBits_lt (p.take 30)
  rw [h30] at hlt
  obtain ⟨s, hmem, hle, hub⟩ := exists_of_tiles (c := ofBits (p.take 30) * 2 ^ 2)
    tiles_huffmanTable (Nat.zero_le _) (by omega)
  obtain ⟨i, rfl⟩ := exists_symbol hmem
  obtain ⟨_, hbits, _, hmod⟩ := huffmanTable_shape _ hmem
  have hsplit : p.take 30 = p.take (symbol i).bits ++ (p.take 30).drop (symbol i).bits := by
    conv_lhs => rw [← List.take_append_drop (symbol i).bits (p.take 30)]
    rw [List.take_take, Nat.min_eq_left hbits]
  have hdrop : ((p.take 30).drop (symbol i).bits).length = 30 - (symbol i).bits := by
    simp; omega
  have hdiv : ofBits (p.take 30) * 2 ^ 2 / 2 ^ (32 - (symbol i).bits) =
      ofBits (p.take (symbol i).bits) := by
    rw [show 32 - (symbol i).bits = 2 + (30 - (symbol i).bits) by omega, Nat.pow_add,
      ← Nat.div_div_eq_div_mul, Nat.mul_div_cancel _ (by decide), hsplit, ← hdrop, ofBits_div]
  apply hp i
  rw [List.prefix_iff_eq_take, length_code]
  apply ofBits_inj
  · simp
    omega
  · rw [ofBits_code, ← hdiv]
    obtain ⟨q, hq⟩ := Nat.dvd_of_mod_eq_zero hmod
    rw [hq] at hle hub ⊢
    rw [Nat.mul_div_cancel_left _ (Nat.two_pow_pos _)]
    symm
    apply Nat.div_eq_of_lt_le
    · rw [Nat.mul_comm]
      exact hle
    · rw [Nat.add_mul, Nat.one_mul, Nat.mul_comm q]
      exact hub
theorem ofBits_replicate_true (n : Nat) : ofBits (List.replicate n true) = 2 ^ n - 1 := by
  induction n with
  | zero => rfl
  | succ n ih =>
    have := Nat.two_pow_pos n
    simp only [List.replicate_succ, ofBits, ih, List.length_replicate, Nat.pow_succ, Bool.toNat_true]
    omega

/-- The padding of RFC 7541 section 5.2 starts with no codeword. -/
theorem unreadable_ones {k : Nat} (hk : k ≤ 7) : Unreadable code (List.replicate k true) := by
  intro i hpre
  obtain ⟨hlen, hones⟩ := List.prefix_replicate_iff.1 hpre
  rw [length_code] at hlen hones
  apply huffmanTable_not_ones _ (symbol_mem i) (by omega)
  rw [← ofBits_code, hones, ofBits_replicate_true]

end Http2.Hpack.Huffman
