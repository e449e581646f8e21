import Http2.Hpack.Encoder
import Http2.Hpack.Decoder

/-! Decoding what the encoder wrote. The decoder's table only has to start with the encoder's:
then every index means the same entry on both sides. -/
namespace Http2.Hpack

open Lib.Budget

section Strings
variable (e : Encoder)

theorem encodeString_cases (data : Bytes) :
    (e.encodeString data = Integer.encodeTemp (Huffman.encodeToVec data).length 7 0x80 ++
        Huffman.encodeToVec data ∧ (Huffman.encodeToVec data).length < data.length) ∨
      e.encodeString data = Integer.encodeTemp data.length 7 0x00 ++ data := by
  by_cases h : e.useHuffman ∧ (Huffman.encodeToVec data).length < data.length
  · exact .inl ⟨if_pos h, h.2⟩
  · exact .inr (if_neg h)

/-- A length that reads back selects the payload behind it. -/
theorem decodeString_payload {pattern : UInt8} {payload data : Bytes} (rest : Bytes)
    (hpat : pattern.toNat % 2 ^ 7 = 0) (hlen : payload.length ≤ isizeMax)
    (hflag : ∀ v < 2 ^ 7, (if (pattern ||| UInt8.ofNat v) &&& 0x80 ≠ 0 then Huffman.decode payload
      else .ok payload) = .ok data) :
    Decoder.decodeString (Integer.encodeTemp payload.length 7 pattern ++ payload ++ rest) =
      .ok (data, (Integer.encodeTemp payload.length 7 pattern ++ payload).length) := by
  unfold isizeMax at hlen
  have hint := Integer.decode_encodeTemp payload.length 7 pattern (payload ++ rest) (by decide) hpat
    (by omega)
  obtain ⟨v, hv, tail, hhead⟩ := Integer.encodeTemp_head payload.length 7 pattern (by omega)
  have hpayload : (((pattern ||| UInt8.ofNat v) :: (tail ++ (payload ++ rest))).drop
      (tail.length + 1)).take payload.length = payload := by
    simp
  have hroom : ¬ ((pattern ||| UInt8.ofNat v) :: (tail ++ (payload ++ rest))).length <
      tail.length + 1 + payload.length := by
    simp
    omega
  rw [hhead, List.cons_append, List.length_cons] at hint
  rw [hhead, List.append_assoc, List.cons_append]
  have hconsumed : tail.length + 1 + payload.length =
      ((pattern ||| UInt8.ofNat v) :: tail ++ payload).length := by
    simp
    omega
  have hdata := hflag v hv
  simp only [Decoder.decodeString, hint, bind, Except.bind, if_neg hroom, hpayload]
  rw [← hconsumed]
  by_cases hset : (pattern ||| UInt8.ofNat v) &&& 0x80 ≠ 0
  · rw [if_pos hset] at hdata ⊢
    rw [hdata]
    rfl
  · rw [if_neg hset] at hdata ⊢
    cases hdata
    rfl

/-- A string literal reads back, and exactly its octets are consumed. -/
theorem decodeString_encodeString {data : Bytes} (hlen : data.length ≤ isizeMax) (rest : Bytes) :
    Decoder.decodeString (e.encodeString data ++ rest) =
      .ok (data, (e.encodeString data).length) := by
  have hset : ∀ v < 2 ^ 7, (0x80 ||| UInt8.ofNat v) &&& 0x80 ≠ (0 : UInt8) := by decide
  have hclear : ∀ v < 2 ^ 7, (0x00 ||| UInt8.ofNat v) &&& 0x80 = (0 : UInt8) := by decide
  rcases encodeString_cases e data with ⟨heq, hshort⟩ | heq
  · rw [heq]
    apply decodeString_payload rest (by decide) (by omega)
    intro v hv
    rw [if_pos (hset v hv), Huffman.decode_encodeToVec]
  · rw [heq]
    apply decodeString_payload rest (by decide) hlen
    intro v hv
    rw [if_neg (not_not.2 (hclear v hv))]

end Strings

section Literals
variable {e : Encoder} {d : Decoder} {prefixBits : Nat} {pattern : UInt8}

theorem decodeLiteralWith_byIndex {index : Nat} {f : HeaderField} {value : Bytes} (rest : Bytes)
    (sensitive : Bool) (hbits : prefixBits ≤ 8) (hp : pattern.toNat % 2 ^ prefixBits = 0)
    (hpos : index ≠ 0) (hindex : index < 2 ^ 63) (hget : d.getHeaderByIndex index = .ok f)
    (hlen : value.length ≤ isizeMax) :
    d.decodeLiteralWith prefixBits sensitive
        (e.encodeLiteralByIndex prefixBits pattern index value ++ rest) =
      .ok (⟨f.name, value, sensitive⟩,
        (e.encodeLiteralByIndex prefixBits pattern index value).length) := by
  have hint := Integer.decode_encodeTemp index prefixBits pattern (e.encodeString value ++ rest) hbits
    hp (by omega)
  have hstr := decodeString_encodeString e hlen rest
  simp only [Encoder.encodeLiteralByIndex, List.append_assoc]
  simp only [Decoder.decodeLiteralWith, hint, bind, Except.bind, if_neg hpos, hget, pure,
    Except.pure]
  simp [hstr]

theorem decodeLiteralWith_byName {name value : Bytes} (rest : Bytes) (sensitive : Bool)
    (hbits : prefixBits ≤ 8) (hpos : 1 < prefixBits) (hp : pattern.toNat % 2 ^ prefixBits = 0)
    (hname : name.length ≤ isizeMax) (hlen : value.length ≤ isizeMax) :
    d.decodeLiteralWith prefixBits sensitive (e.encodeLiteralByName pattern name value ++ rest) =
      .ok (⟨name, value, sensitive⟩, (e.encodeLiteralByName pattern name value).length) := by
  have hpow : 2 ^ 2 ≤ 2 ^ prefixBits := Nat.pow_le_pow_right (by decide) hpos
  have hzero : Integer.encodeTemp 0 prefixBits pattern = [pattern] := by
    rw [Integer.encodeTemp_eq 0 prefixBits pattern (by decide), if_pos (by omega)]
    simp
  have hint := Integer.decode_encodeTemp 0 prefixBits pattern
    (e.encodeString name ++ (e.encodeString value ++ rest)) hbits hp (by omega)
  rw [hzero] at hint
  have hn := decodeString_encodeString e hname (e.encodeString value ++ rest)
  have hv := decodeString_encodeString e hlen rest
  simp only [Encoder.encodeLiteralByName, List.cons_append, List.nil_append, List.append_assoc,
    List.length_singleton] at hint ⊢
  have hdrop : (pattern :: (e.encodeString name ++ (e.encodeString value ++ rest))).drop
      (1 + (e.encodeString name).length) = e.encodeString value ++ rest := by
    rw [Nat.add_comm, List.drop_succ_cons, List.drop_left]
  simp only [Decoder.decodeLiteralWith, hint, bind, Except.bind, pure, Except.pure, if_true,
    List.drop_succ_cons, List.drop_zero, hn, hdrop, hv]
  simp only [List.length_cons, List.length_append]
  congr 2
  omega

end Literals

/-! ## One field -/

/-- What encoding or decoding a field does to a table: it inserts an entry or nothing. -/
def DynamicTable.insertAll (t : DynamicTable) : Option HeaderField → DynamicTable
  | none => t
  | some f => t.insertEntry f

section Field
variable {e : Encoder} {d : Decoder} {h : HeaderField}

/-- An index found by the encoder means the same entry to a decoder whose table starts with the
encoder's. -/
theorem getHeaderByIndex_findIndex {name value : Bytes} {index : Nat} {isExact : Bool}
    (hfind : e.findIndex name value = some (index, isExact)) (hv : e.dynamicTable.Valid)
    (hmax : e.dynamicTable.maxSize < 2 ^ 64) :
    index ≠ 0 ∧ index < 2 ^ 63 ∧
      ∀ d : Decoder, e.dynamicTable.entries <+: d.dynamicTable.entries →
        ∃ f, d.getHeaderByIndex index = .ok f ∧ f.name = name ∧ f.sensitive = false ∧
          (isExact = true → f.value = value) := by
  rcases Encoder.findIndex_spec hfind with ⟨hpos, hle, s, hget, hn, hval⟩ | ⟨j, f, rfl, hget, hn, hval⟩
  · refine ⟨by omega, by unfold staticTableSize at hle; omega, ?_⟩
    intro d _
    refine ⟨staticField s, ?_, hn, rfl, hval⟩
    simp [Decoder.getHeaderByIndex, hle, hget]
  · have hj : j < e.dynamicTable.entries.length := (List.getElem?_eq_some_iff.1 hget).1
    have hlen := DynamicTable.length_le hv
    refine ⟨by omega, by unfold staticTableSize; omega, ?_⟩
    intro d hpre
    refine ⟨f, ?_, hn, hv.plain f (List.mem_of_getElem? hget), hval⟩
    have hgetd : d.dynamicTable.entries[j]? = some f := by
      rw [List.prefix_iff_getElem?] at hpre
      rw [← hget, hpre j hj, List.getElem?_eq_getElem hj]
    have hnot : ¬ staticTableSize + 1 + j ≤ staticTableSize := by omega
    have hsub : staticTableSize + 1 + j - staticTableSize - 1 = j := by omega
    simp [Decoder.getHeaderByIndex, DynamicTable.getByAbsoluteIndex, hnot, hsub, hgetd]

/-- The first octets of the representations tell them apart. -/
theorem indexed_first : ∀ v < 2 ^ 7, (0x80 ||| UInt8.ofNat v) &&& 0x80 ≠ (0 : UInt8) := by decide

theorem literalIndexed_first : ∀ v < 2 ^ 6,
    (0x40 ||| UInt8.ofNat v) &&& 0x80 = (0 : UInt8) ∧ (0x40 ||| UInt8.ofNat v) &&& 0x40 ≠ (0 : UInt8) := by
  decide

theorem sizeUpdate_first : ∀ v < 2 ^ 5,
    (0x20 ||| UInt8.ofNat v) &&& 0x80 = (0 : UInt8) ∧ (0x20 ||| UInt8.ofNat v) &&& 0x40 = (0 : UInt8) ∧
      (0x20 ||| UInt8.ofNat v) &&& 0x20 ≠ (0 : UInt8) := by
  decide

theorem neverIndexed_first : ∀ v < 2 ^ 4,
    (0x10 ||| UInt8.ofNat v) &&& 0x80 = (0 : UInt8) ∧ (0x10 ||| UInt8.ofNat v) &&& 0x40 = (0 : UInt8) ∧
      (0x10 ||| UInt8.ofNat v) &&& 0x20 = (0 : UInt8) ∧
      (0x10 ||| UInt8.ofNat v) &&& 0x10 ≠ (0 : UInt8) := by
  decide

/-- The octets of a field make a decoder that is in step do to its table what the encoder did to
its own, and yield the field. -/
def Carries (e : Encoder) (ins : Option HeaderField) (h : HeaderField) (bytes : Bytes) : Prop :=
  ∃ first tail, bytes = first :: tail ∧
    ∀ (d : Decoder) (seenHeader : Bool) (rest : Bytes),
      e.dynamicTable.entries <+: d.dynamicTable.entries →
      d.decodeStep seenHeader first (bytes ++ rest) =
        .ok (some h, bytes.length, { d with dynamicTable := d.dynamicTable.insertAll ins })

theorem carries_indexed {name value : Bytes} {index : Nat}
    (hfind : e.findIndex name value = some (index, true)) (hv : e.dynamicTable.Valid)
    (hmax : e.dynamicTable.maxSize < 2 ^ 64) :
    Carries e none ⟨name, value, false⟩ (e.encodeIndexed index) := by
  obtain ⟨hpos, hlt, hget⟩ := getHeaderByIndex_findIndex hfind hv hmax
  obtain ⟨v, hv, tail, hhead⟩ :=
    Integer.encodeTemp_head index 7 0x80 (by omega)
  refine ⟨_, tail, hhead, ?_⟩
  intro d seenHeader rest hpre
  obtain ⟨f, hf, rfl, hplain, hval⟩ := hget d hpre
  have hint := Integer.decode_encodeTemp index 7 0x80 rest (by decide) (by decide) (by omega)
  have hfield : f = ⟨f.name, value, false⟩ := by
    rw [← hval rfl, ← hplain]
  rw [Decoder.decodeStep, if_pos (indexed_first v hv)]
  simp only [Decoder.decodeIndexed, Encoder.encodeIndexed, hint, bind, Except.bind, if_neg hpos, hf]
  rw [← hfield]
  rfl

/-- A literal whose octets read back under the two wider patterns. -/
theorem carries_literalIndexed {name value : Bytes} {bytes : Bytes}
    (hhead : ∃ v < 2 ^ 6, ∃ tail, bytes = (0x40 ||| UInt8.ofNat v) :: tail)
    (hdec : ∀ (d : Decoder) (rest : Bytes), e.dynamicTable.entries <+: d.dynamicTable.entries →
      d.decodeLiteralWith 6 false (bytes ++ rest) = .ok (⟨name, value, false⟩, bytes.length)) :
    Carries e (some ⟨name, value, false⟩) ⟨name, value, false⟩ bytes := by
  obtain ⟨v, hv, tail, hhead⟩ := hhead
  obtain ⟨h80, h40⟩ := literalIndexed_first v hv
  refine ⟨_, tail, hhead, ?_⟩
  intro d seenHeader rest hpre
  rw [Decoder.decodeStep, if_neg (not_not.2 h80), if_pos h40]
  simp only [Decoder.decodeLiteralIndexed, hdec d rest hpre, bind, Except.bind]
  rfl

theorem carries_neverIndexed {name value : Bytes} {bytes : Bytes}
    (hhead : ∃ v < 2 ^ 4, ∃ tail, bytes = (0x10 ||| UInt8.ofNat v) :: tail)
    (hdec : ∀ (d : Decoder) (rest : Bytes), e.dynamicTable.entries <+: d.dynamicTable.entries →
      d.decodeLiteralWith 4 true (bytes ++ rest) = .ok (⟨name, value, true⟩, bytes.length)) :
    Carries e none ⟨name, value, true⟩ bytes := by
  obtain ⟨v, hv, tail, hhead⟩ := hhead
  obtain ⟨h80, h40, h20, h10⟩ := neverIndexed_first v hv
  refine ⟨_, tail, hhead, ?_⟩
  intro d seenHeader rest hpre
  rw [Decoder.decodeStep, if_neg (not_not.2 h80), if_neg (not_not.2 h40), if_neg (not_not.2 h20),
    if_pos h10]
  simp only [Decoder.decodeLiteralNeverIndexed, hdec d rest hpre, bind, Except.bind]
  rfl

theorem byIndex_head (prefixBits : Nat) (pattern : UInt8) {index : Nat} (value : Bytes)
    (hlt : index < 2 ^ 64) :
    ∃ v < 2 ^ prefixBits, ∃ tail,
      e.encodeLiteralByIndex prefixBits pattern index value = (pattern ||| UInt8.ofNat v) :: tail := by
  obtain ⟨v, hv, tail, hhead⟩ := Integer.encodeTemp_head index prefixBits pattern hlt
  exact ⟨v, hv, tail ++ e.encodeString value, by rw [Encoder.encodeLiteralByIndex, hhead]; rfl⟩

theorem byName_head (prefixBits : Nat) (pattern : UInt8) (name value : Bytes) :
    ∃ v < 2 ^ prefixBits, ∃ tail,
      e.encodeLiteralByName pattern name value = (pattern ||| UInt8.ofNat v) :: tail :=
  ⟨0, Nat.two_pow_pos _, _, by rw [Encoder.encodeLiteralByName]; simp; rfl⟩

/-- One field: whatever representation the encoder chooses, it is carried. -/
theorem encodeField_carries (hv : e.dynamicTable.Valid) (hmax : e.dynamicTable.maxSize < 2 ^ 64)
    (hr : h.Representable) :
    ∃ ins, (e.encodeField h).1 = { e with dynamicTable := e.dynamicTable.insertAll ins } ∧
      (ins = none ∨ ins = some h ∧ h.sensitive = false) ∧ Carries e ins h (e.encodeField h).2 := by
  obtain ⟨name, value, sensitive⟩ := h
  obtain ⟨hname, hvalue⟩ := hr
  cases sensitive with
  | true =>
    refine ⟨none, rfl, .inl rfl, ?_⟩
    simp only [Encoder.encodeField, if_true, Encoder.encodeHeaderSensitive]
    cases hf : e.findIndex name value with
    | none =>
      refine carries_neverIndexed (byName_head 4 0x10 name value) ?_
      intro d rest _
      exact decodeLiteralWith_byName rest true (by decide) (by decide) (by decide) hname hvalue
    | some r =>
      obtain ⟨index, isExact⟩ := r
      obtain ⟨hpos, hlt, hget⟩ := getHeaderByIndex_findIndex hf hv hmax
      refine carries_neverIndexed (byIndex_head 4 0x10 value (by omega)) ?_
      intro d rest hpre
      obtain ⟨f, hgot, rfl, _⟩ := hget d hpre
      exact decodeLiteralWith_byIndex rest true (by decide) (by decide) hpos hlt hgot hvalue
  | false =>
    simp only [Encoder.encodeField, Bool.false_eq_true, if_false, Encoder.encodeHeader, if_true]
    cases hf : e.findIndex name value with
    | none =>
      refine ⟨some ⟨name, value, false⟩, rfl, .inr (by simp),
        carries_literalIndexed (byName_head 6 0x40 name value) ?_⟩
      intro d rest _
      exact decodeLiteralWith_byName rest false (by decide) (by decide) (by decide) hname hvalue
    | some r =>
      obtain ⟨index, isExact⟩ := r
      obtain ⟨hpos, hlt, hget⟩ := getHeaderByIndex_findIndex hf hv hmax
      cases isExact with
      | true => exact ⟨none, rfl, .inl rfl, carries_indexed hf hv hmax⟩
      | false =>
        refine ⟨some ⟨name, value, false⟩, rfl, .inr (by simp),
          carries_literalIndexed (byIndex_head 6 0x40 value (by omega)) ?_⟩
        intro d rest hpre
        obtain ⟨f, hgot, rfl, _⟩ := hget d hpre
        exact decodeLiteralWith_byIndex rest false (by decide) (by decide) hpos hlt hgot hvalue

end Field

/-! ## A block -/

theorem DynamicTable.insertAll_valid {t : DynamicTable} (ht : t.Valid) {ins : Option HeaderField}
    (hins : ∀ f, ins = some f → f.sensitive = false) : (t.insertAll ins).Valid := by
  cases ins with
  | none => exact ht
  | some f => exact DynamicTable.insertEntry_valid ht (hins f rfl)

@[simp] theorem DynamicTable.insertAll_maxSize (t : DynamicTable) (ins : Option HeaderField) :
    (t.insertAll ins).maxSize = t.maxSize := by
  cases ins with
  | none => rfl
  | some f => exact DynamicTable.insertEntry_maxSize t f

theorem DynamicTable.total_insertEntry_le {t : DynamicTable} (ht : t.Valid) (f : HeaderField) :
    total HeaderField.size (t.insertEntry f).entries ≤
      total HeaderField.size t.entries + f.size := by
  rw [DynamicTable.insertEntry_eq ht, Nat.add_comm, ← total_cons]
  exact total_mono HeaderField.size (fit_isPrefix HeaderField.size t.maxSize (f :: t.entries))

/-- An insertion keeps the one table in front of the other when the other has the room, either
for all it may hold or for what it holds now. -/
theorem DynamicTable.insertEntry_prefix_insertEntry {t u : DynamicTable} (ht : t.Valid)
    (hu : u.Valid) (hpre : t.entries <+: u.entries) {f : HeaderField}
    (hroom : t.maxSize ≤ u.maxSize ∨ total HeaderField.size t.entries + f.size ≤ u.maxSize) :
    (t.insertEntry f).entries <+: (u.insertEntry f).entries := by
  have hle := DynamicTable.total_insertEntry_le ht f
  have hsize := (DynamicTable.insertEntry_eq ht f)
  rw [DynamicTable.insertEntry_eq hu]
  apply prefix_fit
  · rw [hsize]
    exact (fit_isPrefix _ _ _).trans ((List.prefix_cons_inj f).2 hpre)
  · rcases hroom with h | h
    · rw [hsize]
      exact Nat.le_trans (total_fit_le _ _ _) h
    · omega

theorem encode_valid {e : Encoder} (headers : List HeaderField) (hv : e.dynamicTable.Valid)
    (hmax : e.dynamicTable.maxSize < 2 ^ 64) (hr : ∀ h ∈ headers, h.Representable) :
    (e.encode headers).1.dynamicTable.Valid ∧
      (e.encode headers).1.dynamicTable.maxSize = e.dynamicTable.maxSize := by
  induction headers generalizing e with
  | nil => exact ⟨hv, rfl⟩
  | cons h headers ih =>
    obtain ⟨ins, heq, hins, _⟩ := encodeField_carries hv hmax (hr h List.mem_cons_self)
    have hplain : ∀ f, ins = some f → f.sensitive = false := by
      rintro f rfl
      rcases hins with hn | ⟨hs, hf⟩
      · cases hn
      · cases hs
        exact hf
    have hv' : (e.encodeField h).1.dynamicTable.Valid := by
      rw [heq]
      exact DynamicTable.insertAll_valid hv hplain
    have hmax' : (e.encodeField h).1.dynamicTable.maxSize = e.dynamicTable.maxSize := by
      rw [heq]
      exact DynamicTable.insertAll_maxSize _ _
    have := ih hv' (by rw [hmax']; exact hmax) (fun f hf => hr f (List.mem_cons_of_mem _ hf))
    rw [hmax'] at this
    exact this

/-- A turn of the loop that reads a field. -/
theorem decodeLoop_field {d d' d'' : Decoder} {fuel listSize : Nat} {seenHeader : Bool}
    {first : UInt8} {tail rest : Bytes} {h : HeaderField} {headers : List HeaderField}
    (hstep : d.decodeStep seenHeader first (first :: tail ++ rest) =
      .ok (some h, (first :: tail).length, d'))
    (hlist : d'.exceedsListSize (min (listSize + h.size) (2 ^ 64 - 1)) = false)
    (hrun : d'.decodeLoop fuel rest true (min (listSize + h.size) (2 ^ 64 - 1)) =
      (.ok headers, d'')) :
    d.decodeLoop (fuel + 1) (first :: tail ++ rest) seenHeader listSize =
      (.ok (h :: headers), d'') := by
  rw [List.cons_append, Decoder.decodeLoop, ← List.cons_append, hstep]
  simp only [hlist, Bool.false_eq_true, if_false, List.drop_left, hrun]

/-- A turn of the loop that reads a size update. -/
theorem decodeLoop_update {d d' : Decoder} {fuel listSize : Nat} {seenHeader : Bool}
    {first : UInt8} {tail rest : Bytes}
    (hstep : d.decodeStep seenHeader first (first :: tail ++ rest) =
      .ok (none, (first :: tail).length, d')) :
    d.decodeLoop (fuel + 1) (first :: tail ++ rest) seenHeader listSize =
      d'.decodeLoop fuel rest seenHeader listSize := by
  rw [List.cons_append, Decoder.decodeLoop, ← List.cons_append, hstep]
  simp only [List.drop_left]

/-- Decoding a block: the header list comes back and the tables stay in step. -/
theorem decodeLoop_encode (headers : List HeaderField) {e : Encoder} {d : Decoder} {fuel : Nat}
    (seenHeader : Bool) (listSize : Nat) (hv : e.dynamicTable.Valid) (hd : d.dynamicTable.Valid)
    (hmax : e.dynamicTable.maxSize < 2 ^ 64) (hr : ∀ h ∈ headers, h.Representable)
    (hpre : e.dynamicTable.entries <+: d.dynamicTable.entries)
    (hroom : e.dynamicTable.maxSize ≤ d.dynamicTable.maxSize ∨
      total HeaderField.size e.dynamicTable.entries + total HeaderField.size headers ≤
        d.dynamicTable.maxSize)
    (hlist : ∀ m, d.maxHeaderListSize = some m → listSize + total HeaderField.size headers ≤ m)
    (hfuel : (e.encode headers).2.length ≤ fuel) :
    ∃ t : DynamicTable,
      d.decodeLoop fuel (e.encode headers).2 seenHeader listSize =
        (.ok headers, { d with dynamicTable := t }) ∧
      t.Valid ∧ t.maxSize = d.dynamicTable.maxSize ∧
      (e.encode headers).1.dynamicTable.entries <+: t.entries ∧
      (e.dynamicTable = d.dynamicTable → (e.encode headers).1.dynamicTable = t) := by
  induction headers generalizing e d fuel seenHeader listSize with
  | nil =>
    refine ⟨d.dynamicTable, ?_, hd, rfl, hpre, id⟩
    cases fuel <;> rfl
  | cons h headers ih =>
    obtain ⟨ins, heq, hins, first, tail, hbytes, hstep⟩ :=
      encodeField_carries hv hmax (hr h List.mem_cons_self)
    have hfield := hstep d seenHeader ((e.encodeField h).1.encode headers).2 hpre
    simp only [total_cons] at hroom hlist
    -- The tables after the field, in step again.
    have hnext : ({ e with dynamicTable := e.dynamicTable.insertAll ins } : Encoder).dynamicTable.Valid ∧
        (d.dynamicTable.insertAll ins).Valid ∧
        (e.dynamicTable.insertAll ins).entries <+: (d.dynamicTable.insertAll ins).entries ∧
        (e.dynamicTable.maxSize ≤ d.dynamicTable.maxSize ∨
          total HeaderField.size (e.dynamicTable.insertAll ins).entries +
            total HeaderField.size headers ≤ d.dynamicTable.maxSize) := by
      rcases hins with rfl | ⟨rfl, hplain⟩
      · exact ⟨hv, hd, hpre, hroom.imp id fun h => Nat.le_trans (by simp [DynamicTable.insertAll]) h⟩
      · have hle := DynamicTable.total_insertEntry_le hv h
        refine ⟨DynamicTable.insertEntry_valid hv hplain, DynamicTable.insertEntry_valid hd hplain,
          DynamicTable.insertEntry_prefix_insertEntry hv hd hpre (hroom.imp id (by omega)),
          hroom.imp id ?_⟩
        intro hr
        simp only [DynamicTable.insertAll]
        omega
    obtain ⟨hv', hd', hpre', hroom'⟩ := hnext
    rw [Encoder.encode] at hfuel ⊢
    simp only [heq] at hfuel hfield ⊢
    rw [hbytes] at hfuel hfield
    cases fuel with
    | zero => simp at hfuel
    | succ fuel =>
      have hexceeds : Decoder.exceedsListSize { d with dynamicTable := d.dynamicTable.insertAll ins }
          (min (listSize + h.size) (2 ^ 64 - 1)) = false := by
        simp only [Decoder.exceedsListSize]
        cases hm : d.maxHeaderListSize with
        | none => rfl
        | some m =>
          have := hlist m hm
          simp only [decide_eq_false_iff_not]
          omega
      have hfuel' : (({ e with dynamicTable := e.dynamicTable.insertAll ins } : Encoder).encode
          headers).2.length ≤ fuel := by
        simp only [List.length_append, List.length_cons] at hfuel
        omega
      obtain ⟨t, hrun, ht, htmax, htpre, hteq⟩ := ih true
        (min (listSize + h.size) (2 ^ 64 - 1))
        (d := { d with dynamicTable := d.dynamicTable.insertAll ins }) hv' hd'
        (by simpa using hmax) (fun f hf => hr f (List.mem_cons_of_mem _ hf)) hpre'
        (by simpa using hroom')
        (by
          intro m hm
          have := hlist m hm
          omega)
        hfuel'
      refine ⟨t, ?_, ht, by simpa using htmax, htpre, fun h => hteq (by rw [h])⟩
      rw [hbytes]
      exact decodeLoop_field hfield hexceeds hrun

end Http2.Hpack
