import Http2.Hpack.Limits

/-! Two runs of the codec that differ in sensitive values only. -/
namespace Http2.Hpack

open Lib.Budget

/-- The same field, up to the value of a sensitive one. -/
def HeaderField.Public (f g : HeaderField) : Prop :=
  f.name = g.name ∧ f.sensitive = g.sensitive ∧ (f.sensitive = false → f.value = g.value)

/-! ## The encoder -/

namespace Encoder

/-- The representation of each field of a list. -/
def representations (e : Encoder) : List HeaderField → List Bytes
  | [] => []
  | h :: headers => (e.encodeField h).2 :: (e.encodeField h).1.representations headers

/-- The header lists one after another, each as a block of its own. -/
def encodeBlocks (e : Encoder) : List (List HeaderField) → Encoder × List Bytes
  | [] => (e, [])
  | headers :: lists =>
    let r := e.encode headers
    let r' := r.1.encodeBlocks lists
    (r'.1, r.2 :: r'.2)

/-- The representations of the fields of each list. -/
def blockRepresentations (e : Encoder) : List (List HeaderField) → List (List Bytes)
  | [] => []
  | headers :: lists =>
    e.representations headers :: (e.encode headers).1.blockRepresentations lists

/-- A block is its representations in a row. -/
theorem encode_eq_flatten (e : Encoder) (headers : List HeaderField) :
    (e.encode headers).2 = (e.representations headers).flatten := by
  induction headers generalizing e with
  | nil => rfl
  | cons h headers ih => rw [encode, representations, List.flatten_cons, ih]

theorem encodeBlocks_eq_flatten (e : Encoder) (lists : List (List HeaderField)) :
    (e.encodeBlocks lists).2 = (e.blockRepresentations lists).map List.flatten := by
  induction lists generalizing e with
  | nil => rfl
  | cons headers lists ih =>
    rw [encodeBlocks, blockRepresentations, List.map_cons, ih, encode_eq_flatten]

/-- The encoders a program can hold. -/
inductive Reachable : Encoder → Prop
  | new {maxTableSize : Nat} (h : maxTableSize < 2 ^ 64) : Reachable (new maxTableSize)
  | setHuffman {e : Encoder} (useHuffman : Bool) (he : Reachable e) :
      Reachable (e.setHuffman useHuffman)
  | setMaxTableSize {e : Encoder} {maxSize : Nat} (he : Reachable e) (h : maxSize < 2 ^ 64) :
      Reachable (e.setMaxTableSize maxSize)
  | encode {e : Encoder} {headers : List HeaderField} (he : Reachable e)
      (h : ∀ f ∈ headers, f.Representable) : Reachable (e.encode headers).1

theorem Reachable.valid {e : Encoder} (h : Reachable e) :
    e.dynamicTable.Valid ∧ e.dynamicTable.maxSize < 2 ^ 64 := by
  induction h with
  | new h => exact ⟨DynamicTable.new_valid _, h⟩
  | setHuffman _ _ ih => exact ih
  | setMaxTableSize _ h ih => exact ⟨DynamicTable.setMaxSize_valid ih.1 _, h⟩
  | encode _ h ih =>
    obtain ⟨hv, hmax⟩ := encode_valid _ ih.1 ih.2 h
    exact ⟨hv, by rw [hmax]; exact ih.2⟩

theorem encodeField_public (e : Encoder) {f g : HeaderField} (h : f.Public g) :
    (e.encodeField f).1 = (e.encodeField g).1 ∧
      (f.sensitive = false → (e.encodeField f).2 = (e.encodeField g).2) := by
  obtain ⟨name, value, sensitive⟩ := f
  obtain ⟨name', value', sensitive'⟩ := g
  obtain ⟨rfl, rfl, hvalue⟩ : name = name' ∧ sensitive = sensitive' ∧ _ := h
  cases sensitive with
  | true => exact ⟨rfl, fun h => by cases h⟩
  | false =>
    obtain rfl : value = value' := hvalue rfl
    exact ⟨rfl, fun _ => rfl⟩

theorem encode_public (e : Encoder) {headers headers' : List HeaderField}
    (h : List.Forall₂ HeaderField.Public headers headers') :
    (e.encode headers).1 = (e.encode headers').1 := by
  induction h generalizing e with
  | nil => rfl
  | cons hf _ ih => rw [encode, encode, (encodeField_public e hf).1, ih]

/-- Representations of the two runs, at fields that are not sensitive. -/
theorem representations_public (e : Encoder) {headers headers' : List HeaderField}
    (h : List.Forall₂ HeaderField.Public headers headers') {i : Nat} {f : HeaderField}
    (hi : headers[i]? = some f) (hf : f.sensitive = false) :
    (e.representations headers)[i]? = (e.representations headers')[i]? := by
  induction h generalizing e i with
  | nil => cases hi
  | cons hfg _ ih =>
    obtain ⟨hnext, hbytes⟩ := encodeField_public e hfg
    rw [representations, representations]
    cases i with
    | zero =>
      cases hi
      rw [List.getElem?_cons_zero, List.getElem?_cons_zero, hbytes hf]
    | succ i =>
      rw [List.getElem?_cons_succ, List.getElem?_cons_succ, hnext]
      exact ih _ hi

theorem encodeBlocks_public (e : Encoder) {lists lists' : List (List HeaderField)}
    (h : List.Forall₂ (List.Forall₂ HeaderField.Public) lists lists') :
    (e.encodeBlocks lists).1 = (e.encodeBlocks lists').1 := by
  induction h generalizing e with
  | nil => rfl
  | cons hl _ ih => rw [encodeBlocks, encodeBlocks, encode_public e hl, ih]

theorem blockRepresentations_public (e : Encoder) {lists lists' : List (List HeaderField)}
    (h : List.Forall₂ (List.Forall₂ HeaderField.Public) lists lists') {i j : Nat}
    {headers : List HeaderField} {f : HeaderField} (hi : lists[i]? = some headers)
    (hj : headers[j]? = some f) (hf : f.sensitive = false) :
    ((e.blockRepresentations lists)[i]?).bind (fun b => b[j]?) =
      ((e.blockRepresentations lists')[i]?).bind (fun b => b[j]?) := by
  induction h generalizing e i with
  | nil => cases hi
  | cons hl _ ih =>
    rw [blockRepresentations, blockRepresentations]
    cases i with
    | zero =>
      cases hi
      exact representations_public e hl hj hf
    | succ i =>
      rw [List.getElem?_cons_succ, List.getElem?_cons_succ, encode_public e hl]
      exact ih _ hi

end Encoder

/-! ## What enters a table -/

theorem DynamicTable.popLoop_suffix (extra maxSize : Nat) (l : List HeaderField) (size : Nat) :
    (popLoop extra maxSize l size).1 <:+ l := by
  induction l generalizing size with
  | nil => exact List.suffix_refl _
  | cons e newer ih =>
    rw [popLoop]
    split
    · exact (ih _).trans (List.suffix_cons _ _)
    · exact List.suffix_refl _

theorem DynamicTable.mem_evictFor {t : DynamicTable} {extra : Nat} {f : HeaderField}
    (h : f ∈ (t.evictFor extra).entries) : f ∈ t.entries := by
  have hmem := (popLoop_suffix extra t.maxSize t.entries.reverse t.size).subset
    (List.mem_reverse.1 h)
  exact List.mem_reverse.1 hmem

theorem DynamicTable.mem_insertEntry {t : DynamicTable} {e f : HeaderField}
    (h : f ∈ (t.insertEntry e).entries) : f = e ∨ f ∈ t.entries := by
  unfold insertEntry at h
  split at h
  · cases h
  · rcases List.mem_cons.1 h with rfl | h
    · exact .inl rfl
    · exact .inr (mem_evictFor h)

/-- An entry of the table afterwards was there before or is a field that is not sensitive. -/
def Enters (t : DynamicTable) (fields : List HeaderField) (t' : DynamicTable) : Prop :=
  ∀ f ∈ t'.entries, f ∈ t.entries ∨ f ∈ fields ∧ f.sensitive = false

theorem Enters.refl (t : DynamicTable) : Enters t [] t := fun _ h => .inl h

theorem Enters.append {t t' t'' : DynamicTable} {fields fields' : List HeaderField}
    (h : Enters t fields t') (h' : Enters t' fields' t'') : Enters t (fields ++ fields') t'' := by
  intro f hf
  rcases h' f hf with hf | ⟨hf, hs⟩
  · rcases h f hf with hf | ⟨hf, hs⟩
    · exact .inl hf
    · exact .inr ⟨List.mem_append_left _ hf, hs⟩
  · exact .inr ⟨List.mem_append_right _ hf, hs⟩

theorem Encoder.encodeField_enters (e : Encoder) (h : HeaderField) :
    Enters e.dynamicTable [h] (e.encodeField h).1.dynamicTable := by
  obtain ⟨name, value, sensitive⟩ := h
  have same : Enters e.dynamicTable [⟨name, value, sensitive⟩] e.dynamicTable :=
    fun _ hf => .inl hf
  cases sensitive with
  | true => exact same
  | false =>
    have insert : Enters e.dynamicTable [⟨name, value, false⟩]
        (e.dynamicTable.insertValidated name value) := by
      intro f hf
      rcases DynamicTable.mem_insertEntry hf with rfl | hf
      · exact .inr ⟨List.mem_singleton_self _, rfl⟩
      · exact .inl hf
    simp only [encodeField, encodeHeader, Bool.false_eq_true, if_false, if_true]
    split
    · exact same
    · exact insert
    · exact insert

theorem Encoder.encode_enters (e : Encoder) (headers : List HeaderField) :
    Enters e.dynamicTable headers (e.encode headers).1.dynamicTable := by
  induction headers generalizing e with
  | nil => exact Enters.refl _
  | cons h headers ih => exact (encodeField_enters e h).append (ih _)

theorem Encoder.encodeBlocks_enters (e : Encoder) (lists : List (List HeaderField)) :
    Enters e.dynamicTable lists.flatten (e.encodeBlocks lists).1.dynamicTable := by
  induction lists generalizing e with
  | nil => exact Enters.refl _
  | cons headers lists ih => exact (encode_enters e headers).append (ih _)

/-! ## The decoder -/

namespace Decoder

/-- The blocks one after another. -/
def decodeBlocks (d : Decoder) : List Bytes → List (Except Error (List HeaderField)) × Decoder
  | [] => ([], d)
  | data :: blocks =>
    let r := d.decode data
    let r' := r.2.decodeBlocks blocks
    (r.1 :: r'.1, r'.2)

theorem decodeStep_enters {d d' : Decoder} {seenHeader : Bool} {first : UInt8} {data : Bytes}
    {header : Option HeaderField} {n : Nat}
    (h : d.decodeStep seenHeader first data = .ok (header, n, d')) :
    Enters d.dynamicTable header.toList d'.dynamicTable := by
  rcases decodeStep_cases h with rfl | ⟨name, value, rfl, rfl⟩ | ⟨rfl, _, size, _, rfl⟩
  · exact fun _ hf => .inl hf
  · intro f hf
    rcases DynamicTable.mem_insertEntry hf with rfl | hf
    · exact .inr ⟨List.mem_singleton_self _, rfl⟩
    · exact .inl hf
  · intro f hf
    exact .inl (DynamicTable.mem_evictFor (t := { d.dynamicTable with maxSize := size }) hf)

theorem Visits.enters {d e : Decoder} {data rest : Bytes} {headers : List HeaderField}
    (h : Visits d data rest e headers) : Enters d.dynamicTable headers e.dynamicTable := by
  induction h with
  | start => exact Enters.refl _
  | update _ hstep ih =>
    have := ih.append (decodeStep_enters hstep)
    rwa [Option.toList_none, List.append_nil] at this
  | field _ hstep _ ih => exact ih.append (decodeStep_enters hstep)

theorem decode_enters {d d' : Decoder} {data : Bytes} {headers : List HeaderField}
    (h : d.decode data = (.ok headers, d')) : Enters d.dynamicTable headers d'.dynamicTable := by
  rcases exists_last d data .start with ⟨e, headers', hv, heq⟩ | ⟨_, _, _, _, _, _, _, heq⟩ |
    ⟨_, _, _, _, _, _, _, _, _, _, heq⟩
  · rw [h] at heq
    cases heq
    exact hv.enters
  · rw [h] at heq
    cases heq
  · rw [h] at heq
    cases heq

/-- What a representation does to any decoder, whatever follows it: it fails, or yields a field
and the decoder after it. -/
def Acts (bytes : Bytes) (act : Decoder → Except Error (HeaderField × Decoder)) : Prop :=
  ∃ first tail, bytes = first :: tail ∧
    ∀ (d : Decoder) (seenHeader : Bool) (rest : Bytes),
      d.decodeStep seenHeader first (bytes ++ rest) =
        (act d).map fun r => (some r.1, bytes.length, r.2)

section
variable {e : Encoder} {prefixBits : Nat} {pattern : UInt8}

theorem decodeLiteralWith_byIndex_eq {index : Nat} {value : Bytes} (d : Decoder) (rest : Bytes)
    (sensitive : Bool) (hbits : prefixBits ≤ 8) (hp : pattern.toNat % 2 ^ prefixBits = 0)
    (hpos : index ≠ 0) (hindex : index < 2 ^ 63) (hlen : value.length ≤ isizeMax) :
    d.decodeLiteralWith prefixBits sensitive
        (e.encodeLiteralByIndex prefixBits pattern index value ++ rest) =
      (d.getHeaderByIndex index).map fun f => (⟨f.name, value, sensitive⟩,
        (e.encodeLiteralByIndex prefixBits pattern index value).length) := by
  cases hget : d.getHeaderByIndex index with
  | ok f => exact decodeLiteralWith_byIndex rest sensitive hbits hp hpos hindex hget hlen
  | error err =>
    have hint := Integer.decode_encodeTemp index prefixBits pattern (e.encodeString value ++ rest)
      hbits hp (by omega)
    simp only [Encoder.encodeLiteralByIndex, List.append_assoc]
    simp only [decodeLiteralWith, hint, bind, Except.bind, if_neg hpos, hget]
    rfl

/-- A never-indexed literal leaves every decoder that accepts it as it was. -/
theorem acts_neverIndexed {bytes : Bytes} (read : Decoder → Except Error HeaderField)
    (hhead : ∃ v < 2 ^ 4, ∃ tail, bytes = (0x10 ||| UInt8.ofNat v) :: tail)
    (hdec : ∀ (d : Decoder) (rest : Bytes), d.decodeLiteralWith 4 true (bytes ++ rest) =
      (read d).map fun f => (f, bytes.length)) :
    Acts bytes fun d => (read d).map fun f => (f, d) := by
  obtain ⟨v, hv, tail, hhead⟩ := hhead
  obtain ⟨h80, h40, h20, h10⟩ := neverIndexed_first v hv
  refine ⟨_, tail, hhead, ?_⟩
  intro d seenHeader rest
  rw [decodeStep, if_neg (not_not.2 h80), if_neg (not_not.2 h40), if_neg (not_not.2 h20),
    if_pos h10, decodeLiteralNeverIndexed, hdec d rest]
  cases hread : read d <;> simp only [hread] <;> rfl

theorem acts_literalIndexed {bytes : Bytes} (read : Decoder → Except Error HeaderField)
    (hhead : ∃ v < 2 ^ 6, ∃ tail, bytes = (0x40 ||| UInt8.ofNat v) :: tail)
    (hdec : ∀ (d : Decoder) (rest : Bytes), d.decodeLiteralWith 6 false (bytes ++ rest) =
      (read d).map fun f => (f, bytes.length)) :
    Acts bytes fun d => (read d).map fun f =>
      (f, { d with dynamicTable := d.dynamicTable.insertValidated f.name f.value }) := by
  obtain ⟨v, hv, tail, hhead⟩ := hhead
  obtain ⟨h80, h40⟩ := literalIndexed_first v hv
  refine ⟨_, tail, hhead, ?_⟩
  intro d seenHeader rest
  rw [decodeStep, if_neg (not_not.2 h80), if_pos h40, decodeLiteralIndexed, hdec d rest]
  cases hread : read d <;> simp only [hread] <;> rfl

theorem acts_indexed {index : Nat} (hpos : index ≠ 0) (hlt : index < 2 ^ 63) :
    Acts (e.encodeIndexed index) fun d => (d.getHeaderByIndex index).map fun f => (f, d) := by
  obtain ⟨v, hv, tail, hhead⟩ := Integer.encodeTemp_head index 7 0x80 (by omega)
  refine ⟨_, tail, hhead, ?_⟩
  intro d seenHeader rest
  have hint := Integer.decode_encodeTemp index 7 0x80 rest (by decide) (by decide) (by omega)
  rw [decodeStep, if_pos (indexed_first v hv)]
  simp only [decodeIndexed, Encoder.encodeIndexed, hint, bind, Except.bind, if_neg hpos]
  cases d.getHeaderByIndex index <;> rfl

end

/-- A field's representation acts on every decoder; that of a sensitive one leaves it as it was. -/
theorem encodeField_acts {e : Encoder} {h : HeaderField} (hv : e.dynamicTable.Valid)
    (hmax : e.dynamicTable.maxSize < 2 ^ 64) (hr : h.Representable) :
    ∃ act, Acts (e.encodeField h).2 act ∧
      (h.sensitive = true → ∀ d f d', act d = .ok (f, d') → d' = d) := by
  obtain ⟨name, value, sensitive⟩ := h
  obtain ⟨hname, hvalue⟩ := hr
  cases sensitive with
  | true =>
    simp only [Encoder.encodeField, if_true, Encoder.encodeHeaderSensitive]
    have kept : ∀ (read : Decoder → Except Error HeaderField) (d : Decoder) (f : HeaderField)
        (d' : Decoder), ((read d).map fun f => (f, d)) = .ok (f, d') → d' = d := by
      intro read d f d' h
      cases hread : read d with
      | error err =>
        rw [hread] at h
        cases h
      | ok g =>
        rw [hread] at h
        cases h
        rfl
    cases hf : e.findIndex name value with
    | none =>
      refine ⟨_, acts_neverIndexed (fun _ => .ok ⟨name, value, true⟩)
        (byName_head 4 0x10 name value) ?_, fun _ => kept _⟩
      intro d rest
      exact decodeLiteralWith_byName rest true (by decide) (by decide) (by decide) hname hvalue
    | some r =>
      obtain ⟨index, isExact⟩ := r
      obtain ⟨hpos, hlt, _⟩ := getHeaderByIndex_findIndex hf hv hmax
      refine ⟨_, acts_neverIndexed
        (fun d => (d.getHeaderByIndex index).map fun f => ⟨f.name, value, true⟩)
        (byIndex_head 4 0x10 value (by omega)) ?_, fun _ => kept _⟩
      intro d rest
      rw [Encoder.encodeNeverIndexedWithNameIndex,
        decodeLiteralWith_byIndex_eq d rest true (by decide) (by decide) hpos hlt hvalue]
      cases d.getHeaderByIndex index <;> rfl
  | false =>
    simp only [Encoder.encodeField, Bool.false_eq_true, if_false, Encoder.encodeHeader, if_true]
    cases hf : e.findIndex name value with
    | none =>
      refine ⟨_, acts_literalIndexed (fun _ => .ok ⟨name, value, false⟩)
        (byName_head 6 0x40 name value) ?_, fun h => by cases h⟩
      intro d rest
      exact decodeLiteralWith_byName rest false (by decide) (by decide) (by decide) hname hvalue
    | some r =>
      obtain ⟨index, isExact⟩ := r
      obtain ⟨hpos, hlt, _⟩ := getHeaderByIndex_findIndex hf hv hmax
      cases isExact with
      | true => exact ⟨_, acts_indexed (e := e) hpos hlt, fun h => by cases h⟩
      | false =>
        refine ⟨_, acts_literalIndexed
          (fun d => (d.getHeaderByIndex index).map fun f => ⟨f.name, value, false⟩)
          (byIndex_head 6 0x40 value (by omega)) ?_, fun h => by cases h⟩
        intro d rest
        rw [Encoder.encodeLiteralIndexed,
          decodeLiteralWith_byIndex_eq d rest false (by decide) (by decide) hpos hlt hvalue]
        cases d.getHeaderByIndex index <;> rfl

/-- An accepted block that begins with a representation. -/
theorem decodeLoop_acts {bytes rest : Bytes} {act : Decoder → Except Error (HeaderField × Decoder)}
    (hact : Acts bytes act) {d d' : Decoder} {seenHeader : Bool} {listSize : Nat}
    {headers : List HeaderField}
    (h : decodeLoop (bytes ++ rest).length d (bytes ++ rest) seenHeader listSize =
      (.ok headers, d')) :
    ∃ f e listSize' headers', act d = .ok (f, e) ∧
      decodeLoop rest.length e rest true listSize' = (.ok headers', d') := by
  obtain ⟨first, tail, rfl, hact⟩ := hact
  have hstep := hact d seenHeader rest
  cases ha : act d with
  | error err =>
    rw [ha] at hstep
    rw [List.cons_append] at h hstep
    rw [List.length_cons, decodeLoop, hstep] at h
    cases h
  | ok r =>
    obtain ⟨f, e⟩ := r
    rw [ha] at hstep
    have hdrop : ((first :: tail) ++ rest).drop (first :: tail).length = rest :=
      List.drop_left
    cases hsize : e.exceedsListSize (min (listSize + f.size) (2 ^ 64 - 1)) with
    | true =>
      rw [List.cons_append] at h hstep
      rw [List.length_cons, decodeLoop, hstep] at h
      simp only [Except.map, hsize, if_true] at h
      cases h
    | false =>
      rw [List.cons_append] at h hstep hdrop
      rw [decodeLoop_some hstep hsize, hdrop] at h
      refine ⟨f, e, min (listSize + f.size) (2 ^ 64 - 1), ?_⟩
      cases hrun : decodeLoop rest.length e rest true (min (listSize + f.size) (2 ^ 64 - 1)) with
      | mk r d'' =>
        rw [hrun] at h
        cases r with
        | error err => cases h
        | ok headers' =>
          cases h
          exact ⟨headers', rfl, rfl⟩

/-- Two accepted blocks that differ in sensitive values leave the same decoder. -/
theorem decodeLoop_public {headers headers' : List HeaderField}
    (h : List.Forall₂ HeaderField.Public headers headers') {e : Encoder}
    (hv : e.dynamicTable.Valid) (hmax : e.dynamicTable.maxSize < 2 ^ 64)
    (hr : ∀ f ∈ headers, f.Representable) (hr' : ∀ f ∈ headers', f.Representable)
    {d d₁ d₂ : Decoder} {seenHeader : Bool} {size₁ size₂ : Nat} {r₁ r₂ : List HeaderField}
    (h₁ : decodeLoop (e.encode headers).2.length d (e.encode headers).2 seenHeader size₁ =
      (.ok r₁, d₁))
    (h₂ : decodeLoop (e.encode headers').2.length d (e.encode headers').2 seenHeader size₂ =
      (.ok r₂, d₂)) :
    d₁ = d₂ := by
  induction h generalizing e d seenHeader size₁ size₂ r₁ r₂ with
  | nil =>
    cases h₁
    cases h₂
    rfl
  | @cons f g headers headers' hfg _ ih =>
    obtain ⟨hnext, hbytes⟩ := Encoder.encodeField_public e hfg
    have hrf := hr f List.mem_cons_self
    have hrg := hr' g List.mem_cons_self
    rw [Encoder.encode] at h₁ h₂
    obtain ⟨act₁, hact₁, hkeep₁⟩ := encodeField_acts hv hmax hrf
    obtain ⟨act₂, hact₂, hkeep₂⟩ := encodeField_acts hv hmax hrg
    have hvalid := encode_valid [f] hv hmax (by simpa using hrf)
    -- what either field does to the decoder
    have hsame : ∃ d' size₁ size₂ r₁ r₂,
        decodeLoop ((e.encodeField f).1.encode headers).2.length d'
          ((e.encodeField f).1.encode headers).2 true size₁ = (.ok r₁, d₁) ∧
        decodeLoop ((e.encodeField f).1.encode headers').2.length d'
          ((e.encodeField f).1.encode headers').2 true size₂ = (.ok r₂, d₂) := by
      cases hs : f.sensitive with
      | true =>
        obtain ⟨_, e₁, s₁, q₁, ha₁, hrun₁⟩ := decodeLoop_acts hact₁ h₁
        obtain ⟨_, e₂, s₂, q₂, ha₂, hrun₂⟩ := decodeLoop_acts hact₂ h₂
        obtain rfl := hkeep₁ hs _ _ _ ha₁
        obtain rfl := hkeep₂ (hfg.2.1 ▸ hs) _ _ _ ha₂
        rw [← hnext] at hrun₂
        exact ⟨_, _, _, _, _, hrun₁, hrun₂⟩
      | false =>
        rw [← hbytes hs] at h₂
        obtain ⟨_, e₁, s₁, q₁, ha₁, hrun₁⟩ := decodeLoop_acts hact₁ h₁
        obtain ⟨_, e₂, s₂, q₂, ha₂, hrun₂⟩ := decodeLoop_acts hact₁ h₂
        rw [ha₁] at ha₂
        cases ha₂
        rw [← hnext] at hrun₂
        exact ⟨_, _, _, _, _, hrun₁, hrun₂⟩
    obtain ⟨d', s₁, s₂, q₁, q₂, hrun₁, hrun₂⟩ := hsame
    refine ih hvalid.1 ?_ (fun a ha => hr a (List.mem_cons_of_mem _ ha))
      (fun a ha => hr' a (List.mem_cons_of_mem _ ha)) hrun₁ hrun₂
    exact hvalid.2 ▸ hmax

theorem decodeBlocks_enters {d d' : Decoder} {blocks : List Bytes} {rs : List (List HeaderField)}
    (h : d.decodeBlocks blocks = (rs.map .ok, d')) :
    Enters d.dynamicTable rs.flatten d'.dynamicTable := by
  induction blocks generalizing d rs with
  | nil =>
    obtain ⟨hrs, rfl⟩ := Prod.mk.inj h
    obtain rfl : rs = [] := List.map_eq_nil_iff.1 hrs.symm
    exact Enters.refl _
  | cons data blocks ih =>
    obtain ⟨hrs, rfl⟩ := Prod.mk.inj h
    cases rs with
    | nil => cases hrs
    | cons r rs =>
      obtain ⟨hhead, htail⟩ := List.cons_eq_cons.1 hrs
      have hfirst : d.decode data = (.ok r, (d.decode data).2) := Prod.ext hhead rfl
      rw [List.flatten_cons]
      exact (decode_enters hfirst).append (ih (Prod.ext htail rfl))

theorem decodeBlocks_public {lists lists' : List (List HeaderField)}
    (h : List.Forall₂ (List.Forall₂ HeaderField.Public) lists lists') {e : Encoder}
    (he : e.Reachable) (hr : ∀ headers ∈ lists, ∀ f ∈ headers, f.Representable)
    (hr' : ∀ headers ∈ lists', ∀ f ∈ headers, f.Representable) {d : Decoder}
    {rs rs' : List (List HeaderField)}
    (h₁ : (d.decodeBlocks (e.encodeBlocks lists).2).1 = rs.map .ok)
    (h₂ : (d.decodeBlocks (e.encodeBlocks lists').2).1 = rs'.map .ok) :
    (d.decodeBlocks (e.encodeBlocks lists).2).2 = (d.decodeBlocks (e.encodeBlocks lists').2).2 := by
  induction h generalizing e d rs rs' with
  | nil => rfl
  | @cons headers headers' lists lists' hl _ ih =>
    obtain ⟨hv, hmax⟩ := he.valid
    have hrf := hr headers List.mem_cons_self
    have hrg := hr' headers' List.mem_cons_self
    rw [Encoder.encodeBlocks, decodeBlocks] at h₁ ⊢
    rw [Encoder.encodeBlocks, decodeBlocks] at h₂ ⊢
    cases rs with
    | nil => cases h₁
    | cons r rs =>
      cases rs' with
      | nil => cases h₂
      | cons r' rs' =>
        obtain ⟨hhead, htail⟩ := List.cons_eq_cons.1 h₁
        obtain ⟨hhead', htail'⟩ := List.cons_eq_cons.1 h₂
        have hsame : (d.decode (e.encode headers).2).2 = (d.decode (e.encode headers').2).2 :=
          decodeLoop_public hl hv hmax hrf hrg (Prod.ext hhead rfl) (Prod.ext hhead' rfl)
        have hencoder := Encoder.encode_public e hl
        simp only [← hsame, ← hencoder] at htail' ⊢
        exact ih (he.encode hrf) (fun l hm => hr l (List.mem_cons_of_mem _ hm))
          (fun l hm => hr' l (List.mem_cons_of_mem _ hm)) htail htail'

end Decoder

/-! ## Sensitive values do not influence the compression state -/

/-- Two sequences of header lists that differ in sensitive values only: the encoder ends in the
same state, the blocks are the representations in a row and agree at every field that is not
sensitive, a decoder that accepts the blocks of both ends in the same state, and what either
table gains are fields that are not sensitive. -/
theorem sensitive_values_inert {e : Encoder} (he : e.Reachable)
    {lists lists' : List (List HeaderField)}
    (h : List.Forall₂ (List.Forall₂ HeaderField.Public) lists lists')
    (hr : ∀ headers ∈ lists, ∀ f ∈ headers, f.Representable)
    (hr' : ∀ headers ∈ lists', ∀ f ∈ headers, f.Representable) :
    (e.encodeBlocks lists).1 = (e.encodeBlocks lists').1 ∧
    (e.encodeBlocks lists).2 = (e.blockRepresentations lists).map List.flatten ∧
    (e.encodeBlocks lists').2 = (e.blockRepresentations lists').map List.flatten ∧
    (∀ (i j : Nat) (headers : List HeaderField) (f : HeaderField), lists[i]? = some headers →
      headers[j]? = some f → f.sensitive = false →
      ((e.blockRepresentations lists)[i]?).bind (fun b => b[j]?) =
        ((e.blockRepresentations lists')[i]?).bind (fun b => b[j]?)) ∧
    (∀ (d : Decoder) (rs rs' : List (List HeaderField)),
      (d.decodeBlocks (e.encodeBlocks lists).2).1 = rs.map .ok →
      (d.decodeBlocks (e.encodeBlocks lists').2).1 = rs'.map .ok →
      (d.decodeBlocks (e.encodeBlocks lists).2).2 =
        (d.decodeBlocks (e.encodeBlocks lists').2).2) ∧
    Enters e.dynamicTable lists.flatten (e.encodeBlocks lists).1.dynamicTable ∧
    ∀ (d d' : Decoder) (rs : List (List HeaderField)),
      d.decodeBlocks (e.encodeBlocks lists).2 = (rs.map .ok, d') →
      Enters d.dynamicTable rs.flatten d'.dynamicTable := by
  refine ⟨Encoder.encodeBlocks_public e h, Encoder.encodeBlocks_eq_flatten e lists,
    Encoder.encodeBlocks_eq_flatten e lists', ?_, ?_, Encoder.encodeBlocks_enters e lists, ?_⟩
  · intro i j headers f hi hj hf
    exact Encoder.blockRepresentations_public e h hi hj hf
  · intro d rs rs' h₁ h₂
    exact Decoder.decodeBlocks_public h he hr hr' h₁ h₂
  · intro d d' rs hd
    exact Decoder.decodeBlocks_enters hd

/-- A password of two lengths in front of a field that is indexed. -/
theorem sensitive_values_inert_password :
    ((Encoder.new 4096).encodeBlocks [[⟨ascii "p", ascii "x", true⟩, ⟨ascii "b", [], false⟩]]).1 =
      ((Encoder.new 4096).encodeBlocks
        [[⟨ascii "p", ascii "xyz", true⟩, ⟨ascii "b", [], false⟩]]).1 := by
  have hpublic : List.Forall₂ (List.Forall₂ HeaderField.Public)
      [[⟨ascii "p", ascii "x", true⟩, ⟨ascii "b", [], false⟩]]
      [[⟨ascii "p", ascii "xyz", true⟩, ⟨ascii "b", [], false⟩]] := by
    refine .cons (.cons ⟨rfl, rfl, fun h => by cases h⟩ (.cons ⟨rfl, rfl, fun _ => rfl⟩ .nil)) .nil
  refine (sensitive_values_inert (.new (by decide)) hpublic ?_ ?_).1
  · unfold HeaderField.Representable
    decide
  · unfold HeaderField.Representable
    decide

/-- A bound on header lists tells a long sensitive value from a short one: the block is given up
before the field behind it enters the decoder's table. -/
theorem sensitive_values_any_decoder_false :
    ¬ ∀ (e : Encoder) (lists lists' : List (List HeaderField)) (d : Decoder), e.Reachable →
      d.Reachable → List.Forall₂ (List.Forall₂ HeaderField.Public) lists lists' →
      (d.decodeBlocks (e.encodeBlocks lists).2).2.dynamicTable =
        (d.decodeBlocks (e.encodeBlocks lists').2).2.dynamicTable := by
  intro h
  have hpublic : List.Forall₂ (List.Forall₂ HeaderField.Public)
      [[⟨ascii "p", ascii "x", true⟩, ⟨ascii "b", [], false⟩]]
      [[⟨ascii "p", List.replicate 40 0x78, true⟩, ⟨ascii "b", [], false⟩]] := by
    refine .cons (.cons ⟨rfl, rfl, fun h => by cases h⟩ (.cons ⟨rfl, rfl, fun _ => rfl⟩ .nil)) .nil
  have heq := h (Encoder.new 4096) _ _ ((Decoder.new 4096).setMaxHeaderListSize (some 68))
    (.new (by decide)) (.setMaxHeaderListSize _ (.new (by decide))) hpublic
  revert heq
  decide +kernel

end Http2.Hpack
