import Mathlib.Data.List.Infix

/-! Where the UTF-8 encoding of a list of characters may be cut: every octet of a character but the
first one shows by its high bits that it continues the character. -/
namespace Http2.Lib.Utf8

/-- An octet inside a character: its two high bits are `10`. -/
def isContinuation (b : UInt8) : Bool := b &&& 0xc0 == 0x80

def encode (chars : List Char) : List UInt8 := chars.flatMap String.utf8EncodeChar

/-- At `i` a character starts, or the octets end. -/
def Boundary (bytes : List UInt8) (i : Nat) : Prop :=
  i = bytes.length ∨ ∃ b, bytes[i]? = some b ∧ isContinuation b = false

theorem encode_cons (c : Char) (chars : List Char) :
    encode (c :: chars) = String.utf8EncodeChar c ++ encode chars := rfl

theorem encode_append (p s : List Char) : encode (p ++ s) = encode p ++ encode s :=
  List.flatMap_append

/-- An octet below 0x80 is a character of its own. -/
theorem encode_ascii {bytes : List UInt8} (h : ∀ b ∈ bytes, b < 0x80) :
    encode (bytes.map fun b => Char.ofNat b.toNat) = bytes := by
  have hall : ∀ n : Fin 128, String.utf8EncodeChar (Char.ofNat n.val) = [UInt8.ofNat n.val] := by
    decide +kernel
  induction bytes with
  | nil => rfl
  | cons b bytes ih =>
    have hb := hall ⟨b.toNat, UInt8.lt_iff_toNat_lt.1 (h b (List.mem_cons_self ..))⟩
    rw [List.map_cons, encode_cons, hb, ih fun c hc => h c (List.mem_cons_of_mem _ hc),
      UInt8.ofNat_toNat]
    rfl

theorem isContinuation_low (b : UInt8) : isContinuation (b &&& 0x3f ||| 0x80) = true := by
  have hall : ∀ n : Fin 256, isContinuation (UInt8.ofNat n &&& 0x3f ||| 0x80) = true := by
    decide +kernel
  simpa using hall ⟨b.toNat, b.toNat_lt⟩

theorem isContinuation_first {b : UInt8} (h : b.IsUTF8FirstByte) : isContinuation b = false := by
  have hall : ∀ n : Fin 256, (UInt8.ofNat n).IsUTF8FirstByte → isContinuation (UInt8.ofNat n) = false := by
    decide +kernel
  have hb := hall ⟨b.toNat, b.toNat_lt⟩
  simp only [UInt8.ofNat_toNat] at hb
  exact hb h

/-- The octets of a character: one that starts it, and up to three that continue it. -/
theorem utf8EncodeChar_shape (c : Char) :
    ∃ first rest, String.utf8EncodeChar c = first :: rest ∧ isContinuation first = false ∧
      ∀ b ∈ rest, isContinuation b = true := by
  cases hoctets : String.utf8EncodeChar c with
  | nil => exact absurd hoctets String.utf8EncodeChar_ne_nil
  | cons first rest =>
    have hfirst : first.IsUTF8FirstByte := by
      have h := @UInt8.isUTF8FirstByte_getElem_zero_utf8EncodeChar c
      simpa only [hoctets, List.getElem_cons_zero] using h
    refine ⟨first, rest, rfl, isContinuation_first hfirst, ?_⟩
    have hpos := c.utf8Size_pos
    have hle := c.utf8Size_le_four
    obtain hsize | hsize | hsize | hsize :
      c.utf8Size = 1 ∨ c.utf8Size = 2 ∨ c.utf8Size = 3 ∨ c.utf8Size = 4 := by omega
    · rw [String.utf8EncodeChar_eq_singleton hsize] at hoctets
      obtain ⟨-, rfl⟩ := List.cons.inj hoctets
      simp
    · rw [String.utf8EncodeChar_eq_cons_cons hsize] at hoctets
      obtain ⟨-, rfl⟩ := List.cons.inj hoctets
      simp [isContinuation_low]
    · rw [String.utf8EncodeChar_eq_cons_cons_cons hsize] at hoctets
      obtain ⟨-, rfl⟩ := List.cons.inj hoctets
      simp [isContinuation_low]
    · rw [String.utf8EncodeChar_eq_cons_cons_cons_cons hsize] at hoctets
      obtain ⟨-, rfl⟩ := List.cons.inj hoctets
      simp [isContinuation_low]

theorem boundary_zero (chars : List Char) : Boundary (encode chars) 0 := by
  cases chars with
  | nil => exact .inl rfl
  | cons c chars =>
    obtain ⟨first, rest, hoctets, hfirst, _⟩ := utf8EncodeChar_shape c
    refine .inr ⟨first, ?_, hfirst⟩
    rw [encode_cons, hoctets]
    rfl

/-- Inside a character there is no boundary. -/
theorem not_boundary {c : Char} {chars : List Char} {i : Nat} (hpos : 0 < i)
    (hlt : i < (String.utf8EncodeChar c).length) : ¬ Boundary (encode (c :: chars)) i := by
  obtain ⟨first, rest, hoctets, _, hrest⟩ := utf8EncodeChar_shape c
  rw [hoctets] at hlt
  obtain ⟨j, rfl⟩ : ∃ j, i = j + 1 := ⟨i - 1, by omega⟩
  rw [encode_cons, hoctets]
  rintro (hend | ⟨b, hget, hb⟩)
  · simp only [List.length_append, List.length_cons] at hend hlt
    omega
  · rw [List.getElem?_append_left hlt, List.getElem?_cons_succ] at hget
    rw [hrest b (List.mem_of_getElem? hget)] at hb
    cases hb

theorem boundary_append {p s : List UInt8} {i : Nat} : Boundary (p ++ s) (p.length + i) ↔ Boundary s i := by
  rw [Boundary, Boundary, List.length_append, List.getElem?_append_right (Nat.le_add_right _ _),
    Nat.add_sub_cancel_left]
  exact or_congr Nat.add_left_cancel_iff Iff.rfl

/-- The boundaries are where a row of whole characters ends. -/
theorem boundary_iff {chars : List Char} {i : Nat} :
    Boundary (encode chars) i ↔ ∃ p s, chars = p ++ s ∧ i = (encode p).length := by
  constructor
  · intro h
    induction chars generalizing i with
    | nil =>
      obtain rfl | ⟨b, hget, _⟩ := h
      · exact ⟨[], [], rfl, rfl⟩
      · cases hget
    | cons c chars ih =>
      by_cases hzero : i = 0
      · exact ⟨[], c :: chars, rfl, hzero⟩
      · by_cases hlt : i < (String.utf8EncodeChar c).length
        · exact absurd h (not_boundary (Nat.pos_of_ne_zero hzero) hlt)
        · obtain ⟨j, rfl⟩ : ∃ j, i = (String.utf8EncodeChar c).length + j :=
            ⟨i - (String.utf8EncodeChar c).length, by omega⟩
          rw [encode_cons, boundary_append] at h
          obtain ⟨p, s, rfl, rfl⟩ := ih h
          exact ⟨c :: p, s, rfl, by rw [encode_cons, List.length_append]⟩
  · rintro ⟨p, s, rfl, rfl⟩
    rw [encode_append, ← Nat.add_zero (encode p).length, boundary_append]
    exact boundary_zero s

/-- Rows of characters at the front of one list are longer as their encodings are. -/
theorem prefix_of_encode_le {p q s t : List Char} (h : p ++ s = q ++ t)
    (hle : (encode p).length ≤ (encode q).length) : p <+: q := by
  rcases List.prefix_or_prefix_of_prefix ⟨s, h⟩ (List.prefix_append q t) with hpq | ⟨u, rfl⟩
  · exact hpq
  · cases u with
    | nil => simp
    | cons c u =>
      have hpos := List.length_pos_iff.2 (String.utf8EncodeChar_ne_nil (c := c))
      rw [encode_append, encode_cons] at hle
      simp only [List.length_append] at hle
      omega

end Http2.Lib.Utf8
