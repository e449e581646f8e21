import Http2.Hpack.RoundTrip

/-! The decoder of `src/hpack/decoder.rs` once more, with every index, slice, shift and sum that
could panic written out, on offsets into the block as the source has it. A loop that has not ended
when its fuel is used up counts as a panic too. -/
namespace Http2.Hpack

open Lib (Checked)
open Lib.Budget
open Lib.Checked

namespace Integer

/-- The loop of `integer::decode`; its shift counts the turns. -/
def decodeRestChecked (buf : Bytes) : Nat → Nat → Nat → Nat → Checked Error (Nat × Nat)
  | 0, _, _, _ => ExceptT.mk none
  | fuel + 1, value, shift, offset =>
    if offset ≥ buf.length then throw (.hpackError "incomplete HPACK integer")
    else do
      let byte ← item buf offset
      let offset ← add offset 1
      if shift ≥ 63 then throw (.hpackError "HPACK integer overflow")
      else do
        let contribution ← shl (byte &&& 0x7f).toNat shift
        let value := value + contribution
        if value ≥ 2 ^ 64 then throw (.hpackError "HPACK integer overflow")
        else if byte &&& 0x80 = 0 then return (value, offset)
        else decodeRestChecked buf fuel value (shift + 7) offset

def decodeChecked (buf : Bytes) (prefixBits : Nat) : Checked Error (Nat × Nat) :=
  if buf.isEmpty then throw (.hpackError "incomplete HPACK integer")
  else do
    let top ← shl 1 prefixBits
    let maxPrefix ← sub top 1
    let byte ← item buf 0
    let firstByte := (byte &&& UInt8.ofNat maxPrefix).toNat
    if firstByte < maxPrefix then return (firstByte, 1)
    else decodeRestChecked buf 10 maxPrefix 0 1

end Integer

def HeaderField.sizeChecked (h : HeaderField) : Checked Error Nat := do
  let octets ← add h.name.length h.value.length
  add octets 32

namespace DynamicTable

def evictForChecked (t : DynamicTable) (extra : Nat) : Checked Error DynamicTable :=
  t.evictForWith add HeaderField.sizeChecked extra

def setMaxSizeChecked (t : DynamicTable) (maxSize : Nat) : Checked Error DynamicTable :=
  evictForChecked { t with maxSize := maxSize } 0

def insertEntryChecked (t : DynamicTable) (entry : HeaderField) : Checked Error DynamicTable := do
  let entrySize ← entry.sizeChecked
  if entrySize > t.maxSize then return t.clear
  else do
    let t ← t.evictForChecked entrySize
    let size ← add t.size entrySize
    return { t with entries := entry :: t.entries, size := size }

def getByAbsoluteIndexChecked (t : DynamicTable) (index : Nat) :
    Checked Error (Option HeaderField) :=
  if index ≤ staticTableSize then return none
  else do
    let index ← sub index staticTableSize
    let index ← sub index 1
    return t.entries[index]?

end DynamicTable

namespace Decoder

def getHeaderByIndexChecked (d : Decoder) (index : Nat) : Checked Error HeaderField :=
  if index ≤ staticTableSize then
    match getStaticEntry index with
    | some e => return staticField e
    | none => throw (.hpackError "invalid static table index")
  else do
    match ← d.dynamicTable.getByAbsoluteIndexChecked index with
    | some h => return h
    | none => throw (.hpackError "invalid dynamic table index")

/-- The words inside `huffman::decode` are the subject of `Http2.Hpack.Canonical`. -/
def decodeStringChecked (data : Bytes) : Checked Error (Bytes × Nat) :=
  if data.isEmpty then throw (.hpackError "incomplete HPACK string")
  else do
    let first ← item data 0
    let huffmanEncoded := first &&& 0x80 ≠ 0
    let (length, consumed) ← Integer.decodeChecked data 7
    let stop ← add consumed length
    if data.length < stop then throw (.hpackError "incomplete HPACK string")
    else do
      let stringData ← slice data consumed stop
      let result ← if huffmanEncoded then lift (Huffman.decode stringData) else pure stringData
      return (result, stop)

def decodeIndexedChecked (d : Decoder) (data : Bytes) : Checked Error (HeaderField × Nat) := do
  let (index, consumed) ← Integer.decodeChecked data 7
  if index = 0 then throw (.hpackError "invalid index 0")
  else do
    let header ← d.getHeaderByIndexChecked index
    return (header, consumed)

def decodeLiteralWithChecked (d : Decoder) (prefixBits : Nat) (sensitive : Bool) (data : Bytes) :
    Checked Error (HeaderField × Nat) := do
  let (nameIndex, consumed) ← Integer.decodeChecked data prefixBits
  let (name, consumed) ←
    if nameIndex = 0 then do
      let tail ← sliceFrom data consumed
      let (n, c) ← decodeStringChecked tail
      let consumed ← add consumed c
      pure (n, consumed)
    else do
      let header ← d.getHeaderByIndexChecked nameIndex
      pure (header.name, consumed)
  let tail ← sliceFrom data consumed
  let (value, c) ← decodeStringChecked tail
  let consumed ← add consumed c
  return (⟨name, value, sensitive⟩, consumed)

def decodeSizeUpdateChecked (d : Decoder) (data : Bytes) : Checked Error (Decoder × Nat) := do
  let (newSize, consumed) ← Integer.decodeChecked data 5
  if newSize > d.maxTableSize then
    throw (.hpackError "dynamic table size update exceeds maximum")
  else do
    let table ← d.dynamicTable.setMaxSizeChecked newSize
    return ({ d with dynamicTable := table }, consumed)

def decodeStepChecked (d : Decoder) (seenHeader : Bool) (firstByte : UInt8) (data : Bytes) :
    Checked Error (Option HeaderField × Nat × Decoder) :=
  if firstByte &&& 0x80 ≠ 0 then do
    let (header, consumed) ← d.decodeIndexedChecked data
    return (some header, consumed, d)
  else if firstByte &&& 0x40 ≠ 0 then do
    let (header, consumed) ← d.decodeLiteralWithChecked 6 false data
    let table ← d.dynamicTable.insertEntryChecked ⟨header.name, header.value, false⟩
    return (some header, consumed, { d with dynamicTable := table })
  else if firstByte &&& 0x20 ≠ 0 then
    if seenHeader then
      throw (.hpackError "dynamic table size update must be at the beginning of header block")
    else do
      let (d, consumed) ← d.decodeSizeUpdateChecked data
      return (none, consumed, d)
  else if firstByte &&& 0x10 ≠ 0 then do
    let (header, consumed) ← d.decodeLiteralWithChecked 4 true data
    return (some header, consumed, d)
  else do
    let (header, consumed) ← d.decodeLiteralWithChecked 4 false data
    return (some header, consumed, d)

/-- The loop of `decode`. The offset grows by at least one octet a turn. -/
def decodeLoopChecked (data : Bytes) :
    Nat → Decoder → Nat → Bool → Nat → Option (Except Error (List HeaderField) × Decoder)
  | 0, d, offset, _, _ => if offset < data.length then none else some (.ok [], d)
  | fuel + 1, d, offset, seenHeader, headerListSize =>
    if offset < data.length then do
      let first ← data[offset]?
      match ← (sliceFrom data offset >>= d.decodeStepChecked seenHeader first).run with
      | .error e => return (.error e, d)
      | .ok (header, consumed, d) =>
        match ← (add offset consumed : Checked Error Nat).run with
        | .error e => return (.error e, d)
        | .ok offset =>
          match header with
          | none => decodeLoopChecked data fuel d offset seenHeader headerListSize
          | some header =>
            match ← header.sizeChecked.run with
            | .error e => return (.error e, d)
            | .ok size =>
              let headerListSize := min (headerListSize + size) (2 ^ 64 - 1)
              if d.exceedsListSize headerListSize then
                return (.error (.hpackError
                  "decoded header list size exceeds SETTINGS_MAX_HEADER_LIST_SIZE"), d)
              else
                match ← decodeLoopChecked data fuel d offset true headerListSize with
                | (.ok headers, d) => return (.ok (header :: headers), d)
                | r => return r
    else some (.ok [], d)

/-- `decode`: `none` if anything in it panics or the block is not used up in as many turns as it
has octets. -/
def decodeChecked (d : Decoder) (data : Bytes) :
    Option (Except Error (List HeaderField) × Decoder) :=
  decodeLoopChecked data data.length d 0 false 0

end Decoder

/-! ## Nothing panics -/

theorem Integer.decodeRestChecked_eq {buf : Bytes} {fuel value shift offset : Nat}
    (hshift : shift < 70) (hfuel : 70 ≤ shift + 7 * fuel) (hoffset : 7 * offset ≤ shift + 7) :
    decodeRestChecked buf fuel value shift offset =
      lift (decodeRest value shift offset (buf.drop offset)) := by
  induction fuel generalizing value shift offset with
  | zero => omega
  | succ fuel ih =>
    rw [decodeRestChecked]
    split
    · rename_i hend
      rw [List.drop_eq_nil_of_le hend]
      rfl
    · rename_i hlt
      have hlt : offset < buf.length := by omega
      rw [item_eq (List.getElem?_eq_getElem hlt), ok_bind, add_eq (by omega), ok_bind,
        List.drop_eq_getElem_cons hlt, decodeRest]
      split
      · rfl
      · rename_i h63
        rw [shl_eq (by omega), ok_bind]
        simp only
        split
        · rfl
        · split
          · rfl
          · exact ih (by omega) (by omega) (by omega)

theorem Integer.decodeChecked_eq {buf : Bytes} {prefixBits : Nat} (hbits : prefixBits ≤ 8) :
    decodeChecked buf prefixBits = lift (decode buf prefixBits) := by
  cases buf with
  | nil => rfl
  | cons byte buf =>
    have hpow : 2 ^ prefixBits ≤ 2 ^ 8 := Nat.pow_le_pow_right (by decide) hbits
    have hpos := Nat.two_pow_pos prefixBits
    have htop : (1 <<< prefixBits) % 2 ^ 64 = 1 <<< prefixBits := by
      rw [Nat.one_shiftLeft]
      exact Nat.mod_eq_of_lt (by omega)
    rw [decodeChecked, decode, if_neg (by simp), shl_eq (by omega), ok_bind, htop,
      sub_eq (by rw [Nat.one_shiftLeft]; omega), ok_bind, item_eq (a := byte) rfl, ok_bind]
    simp only
    split
    · rfl
    · exact decodeRestChecked_eq (by decide) (by decide) (by decide)

section
variable {buf : Bytes} (hbuf : buf.length < 2 ^ 63)
include hbuf

theorem Decoder.decodeStringChecked_eq : decodeStringChecked buf = lift (decodeString buf) := by
  cases buf with
  | nil => rfl
  | cons first rest =>
    rw [decodeStringChecked, decodeString, if_neg (by simp), item_eq (a := first) rfl, ok_bind,
      Integer.decodeChecked_eq (by decide)]
    apply lift_bind
    rintro ⟨length, consumed⟩ hint
    obtain ⟨hlen, hturns, hvalue⟩ := Integer.decode_bounds (by decide) hint
    simp only
    rw [add_eq (by omega), ok_bind]
    split
    · rfl
    · rename_i hfit
      rw [slice_eq (by omega) (by omega), ok_bind, Nat.add_sub_cancel_left]
      split
      · exact lift_bind fun _ _ => rfl
      · rfl

end

/-! ### The dynamic table -/

theorem HeaderField.sizeChecked_eq {f : HeaderField} (h : f.size < 2 ^ 64) :
    f.sizeChecked = lift (.ok f.size) := by
  unfold HeaderField.size at h
  rw [sizeChecked, add_eq (by omega), ok_bind, add_eq h]
  rfl

namespace DynamicTable

theorem evictForChecked_eq {t : DynamicTable} {extra : Nat}
    (hsize : t.size = total HeaderField.size t.entries) (h : t.size + extra < 2 ^ 64) :
    t.evictForChecked extra = lift (.ok (t.evictFor extra)) := by
  apply evictForWith_eq hsize
  · intro n hn
    exact add_eq (by omega)
  · intro e he
    exact HeaderField.sizeChecked_eq (by omega)

theorem setMaxSizeChecked_eq {t : DynamicTable} (ht : t.Valid) (hmax : t.maxSize < 2 ^ 64)
    (m : Nat) : t.setMaxSizeChecked m = lift (.ok (t.setMaxSize m)) := by
  have := ht.size_le
  exact evictForChecked_eq (t := { t with maxSize := m }) ht.size_eq
    (Nat.lt_of_le_of_lt ht.size_le hmax)

theorem insertEntryChecked_eq {t : DynamicTable} (ht : t.Valid) {e : HeaderField}
    (h : t.size + e.size < 2 ^ 64) :
    t.insertEntryChecked e = lift (.ok (t.insertEntry e)) := by
  rw [insertEntryChecked, insertEntry, HeaderField.sizeChecked_eq (by omega), ok_bind]
  split
  · rfl
  · rename_i hfit
    have hevict := evictFor_eq ht.size_eq (Nat.le_of_not_gt hfit)
    have hle : (t.evictFor e.size).size ≤ t.size := by
      rw [hevict, ht.size_eq]
      exact total_mono _ (fit_isPrefix _ _ _)
    rw [evictForChecked_eq ht.size_eq h, ok_bind]
    simp only
    rw [add_eq (by omega), ok_bind]
    rfl

theorem getByAbsoluteIndexChecked_eq (t : DynamicTable) (index : Nat) :
    t.getByAbsoluteIndexChecked index = lift (.ok (t.getByAbsoluteIndex index)) := by
  rw [getByAbsoluteIndexChecked, getByAbsoluteIndex]
  split
  · rfl
  · rw [sub_eq (by omega), ok_bind, sub_eq (by omega), ok_bind]
    rfl

end DynamicTable

/-! ### The representations -/

namespace Decoder

theorem getHeaderByIndexChecked_eq (d : Decoder) (index : Nat) :
    d.getHeaderByIndexChecked index = lift (d.getHeaderByIndex index) := by
  rw [getHeaderByIndexChecked, getHeaderByIndex]
  split
  · cases getStaticEntry index <;> rfl
  · rw [DynamicTable.getByAbsoluteIndexChecked_eq, ok_bind]
    cases d.dynamicTable.getByAbsoluteIndex index <;> rfl

theorem decodeString_bounds {data : Bytes} {s : Bytes} {n : Nat}
    (h : decodeString data = .ok (s, n)) : 0 < n ∧ n ≤ data.length := by
  cases data with
  | nil => cases h
  | cons first rest =>
    obtain ⟨⟨length, consumed⟩, hint, h⟩ := bind_eq_ok h
    have hpos := Integer.decode_consumed hint
    simp only at h
    split at h
    · cases h
    · rename_i hfit
      split at h
      · obtain ⟨_, _, h⟩ := bind_eq_ok h
        cases h
        omega
      · cases h
        omega

theorem decodeIndexed_bounds {d : Decoder} {data : Bytes} {r : HeaderField × Nat}
    (h : d.decodeIndexed data = .ok r) : r.2 ≤ data.length := by
  obtain ⟨⟨index, consumed⟩, hint, h⟩ := bind_eq_ok h
  by_cases h0 : index = 0
  · simp [h0, bind, Except.bind] at h
  · simp only [h0, if_false] at h
    obtain ⟨f, _, h⟩ := bind_eq_ok h
    cases h
    exact (Integer.decode_bounds (by decide) hint).1

theorem decodeLiteralWith_bounds {d : Decoder} {prefixBits : Nat} {sensitive : Bool} {data : Bytes}
    {r : HeaderField × Nat} (hbits : prefixBits ≤ 8)
    (h : d.decodeLiteralWith prefixBits sensitive data = .ok r) : r.2 ≤ data.length := by
  obtain ⟨⟨index, consumed⟩, hint, h⟩ := bind_eq_ok h
  have hint := (Integer.decode_bounds hbits hint).1
  simp only at h
  split at h
  · obtain ⟨⟨n, c⟩, hname, h⟩ := bind_eq_ok h
    obtain ⟨_, hpure, h⟩ := bind_eq_ok h
    cases hpure
    obtain ⟨⟨value, c'⟩, hvalue, h⟩ := bind_eq_ok h
    cases h
    have hname := decodeString_bounds hname
    have hvalue := decodeString_bounds hvalue
    simp only [List.length_drop] at hname hvalue ⊢
    omega
  · obtain ⟨f, _, h⟩ := bind_eq_ok h
    obtain ⟨_, hpure, h⟩ := bind_eq_ok h
    cases hpure
    obtain ⟨⟨value, c'⟩, hvalue, h⟩ := bind_eq_ok h
    cases h
    have hvalue := decodeString_bounds hvalue
    simp only [List.length_drop] at hvalue ⊢
    omega

theorem decodeSizeUpdate_bounds {d : Decoder} {data : Bytes} {r : Decoder × Nat}
    (h : d.decodeSizeUpdate data = .ok r) : r.2 ≤ data.length := by
  obtain ⟨⟨size, consumed⟩, hint, h⟩ := bind_eq_ok h
  by_cases hgt : size > d.maxTableSize
  · simp [hgt, bind, Except.bind] at h
  · simp only [hgt, if_false] at h
    cases h
    exact (Integer.decode_bounds (by decide) hint).1

section
variable {data : Bytes} (hdata : data.length < 2 ^ 63)
include hdata

omit hdata in
theorem decodeIndexedChecked_eq (d : Decoder) :
    d.decodeIndexedChecked data = lift (d.decodeIndexed data) := by
  rw [decodeIndexedChecked, decodeIndexed, Integer.decodeChecked_eq (by decide)]
  apply lift_bind
  rintro ⟨index, consumed⟩ hint
  simp only
  split
  · rfl
  · rw [getHeaderByIndexChecked_eq]
    exact lift_bind fun _ _ => rfl

theorem decodeLiteralWithChecked_eq (d : Decoder) {prefixBits : Nat} (hbits : prefixBits ≤ 8)
    (sensitive : Bool) :
    d.decodeLiteralWithChecked prefixBits sensitive data =
      lift (d.decodeLiteralWith prefixBits sensitive data) := by
  rw [decodeLiteralWithChecked, decodeLiteralWith, Integer.decodeChecked_eq hbits]
  apply lift_bind
  rintro ⟨nameIndex, consumed⟩ hint
  have hint := (Integer.decode_bounds hbits hint).1
  -- the value, read from where the name ends
  have hvalue : ∀ (name : Bytes) (consumed : Nat), consumed ≤ data.length →
      (do
        let tail ← sliceFrom data consumed
        let r ← decodeStringChecked tail
        let consumed ← add consumed r.2
        pure ((⟨name, r.1, sensitive⟩ : HeaderField), consumed)) =
      lift (do
        let r ← decodeString (data.drop consumed)
        pure ((⟨name, r.1, sensitive⟩ : HeaderField), consumed + r.2)) := by
    intro name consumed hle
    rw [sliceFrom_eq hle, ok_bind, decodeStringChecked_eq (by simp; omega)]
    apply lift_bind
    rintro ⟨value, c⟩ hstring
    have hc := (decodeString_bounds hstring).2
    rw [List.length_drop] at hc
    rw [add_eq (by simp only; omega)]
    rfl
  simp only
  split
  · rw [sliceFrom_eq hint, ok_bind, decodeStringChecked_eq (by simp; omega)]
    apply lift_bind
    rintro ⟨name, c⟩ hstring
    have hc := (decodeString_bounds hstring).2
    rw [List.length_drop] at hc
    rw [add_eq (by simp only; omega)]
    exact hvalue name (consumed + c) (by omega)
  · rw [getHeaderByIndexChecked_eq]
    apply lift_bind
    intro header _
    exact hvalue header.name consumed hint

omit hdata in
theorem decodeSizeUpdateChecked_eq {d : Decoder} (hv : d.dynamicTable.Valid)
    (hmax : d.dynamicTable.maxSize < 2 ^ 64) :
    d.decodeSizeUpdateChecked data = lift (d.decodeSizeUpdate data) := by
  rw [decodeSizeUpdateChecked, decodeSizeUpdate, Integer.decodeChecked_eq (by decide)]
  apply lift_bind
  rintro ⟨newSize, consumed⟩ _
  simp only
  split
  · rfl
  · rw [DynamicTable.setMaxSizeChecked_eq hv hmax]
    rfl

/-- The field that an instruction decodes fits beside the table it may be inserted into. -/
def Room (d : Decoder) (seenHeader : Bool) (first : UInt8) (data : Bytes) : Prop :=
  ∀ header consumed d', d.decodeStep seenHeader first data = .ok (some header, consumed, d') →
    d.dynamicTable.size + header.size < 2 ^ 64

theorem decodeStepChecked_eq {d : Decoder} (hv : d.dynamicTable.Valid)
    (hmax : d.dynamicTable.maxSize < 2 ^ 64) {seenHeader : Bool} {first : UInt8}
    (hroom : d.Room seenHeader first data) :
    d.decodeStepChecked seenHeader first data = lift (d.decodeStep seenHeader first data) := by
  unfold Room at hroom
  rw [decodeStepChecked]
  rw [decodeStep] at hroom ⊢
  split
  · rw [decodeIndexedChecked_eq]
    exact lift_bind fun _ _ => rfl
  rename_i h80
  split
  · rename_i h40
    rw [if_neg h80, if_pos h40] at hroom
    rw [decodeLiteralWithChecked_eq hdata d (by decide)]
    apply lift_bind
    rintro ⟨header, consumed⟩ hlit
    have hfit : d.dynamicTable.size +
        (⟨header.name, header.value, false⟩ : HeaderField).size < 2 ^ 64 := by
      apply hroom header consumed
      rw [decodeLiteralIndexed, hlit]
      rfl
    simp only
    rw [DynamicTable.insertEntryChecked_eq hv hfit]
    rfl
  split
  · split
    · rfl
    · rw [decodeSizeUpdateChecked_eq hv hmax]
      exact lift_bind fun _ _ => rfl
  split
  · rw [decodeLiteralWithChecked_eq hdata d (by decide)]
    exact lift_bind fun _ _ => rfl
  · rw [decodeLiteralWithChecked_eq hdata d (by decide)]
    exact lift_bind fun _ _ => rfl

end

theorem decodeStep_bounds {d : Decoder} {seenHeader : Bool} {first : UInt8} {data : Bytes}
    {r : Option HeaderField × Nat × Decoder} (h : d.decodeStep seenHeader first data = .ok r) :
    r.2.1 ≤ data.length := by
  unfold decodeStep at h
  split at h
  · obtain ⟨q, hq, h⟩ := bind_eq_ok h
    cases h
    exact decodeIndexed_bounds hq
  split at h
  · obtain ⟨q, hq, h⟩ := bind_eq_ok h
    cases h
    exact decodeLiteralWith_bounds (by decide) hq
  split at h
  · cases seenHeader with
    | true => simp [bind, Except.bind] at h
    | false =>
      obtain ⟨q, hq, h⟩ := bind_eq_ok h
      cases h
      exact decodeSizeUpdate_bounds hq
  split at h
  · obtain ⟨q, hq, h⟩ := bind_eq_ok h
    cases h
    exact decodeLiteralWith_bounds (by decide) hq
  · obtain ⟨q, hq, h⟩ := bind_eq_ok h
    cases h
    exact decodeLiteralWith_bounds (by decide) hq

end Decoder

end Http2.Hpack
