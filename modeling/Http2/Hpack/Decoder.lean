import Http2.Hpack.DynamicTable
import Http2.Hpack.Huffman
import Http2.Hpack.Integer

/-! The HPACK decoder of `src/hpack/decoder.rs`. A failed `decode` keeps what it did to the
dynamic table before it failed, so `decode` returns the decoder beside its result. -/
namespace Http2.Hpack

structure Decoder where
  dynamicTable : DynamicTable
  /-- The bound on the sizes that an update may set. -/
  maxTableSize : Nat
  /-- `None` is no bound. -/
  maxHeaderListSize : Option Nat
  deriving DecidableEq, Repr

namespace Decoder

def new (maxTableSize : Nat) : Decoder := ⟨DynamicTable.new maxTableSize, maxTableSize, none⟩

def setMaxHeaderListSize (d : Decoder) (maxSize : Option Nat) : Decoder :=
  { d with maxHeaderListSize := maxSize }

def setMaxTableSize (d : Decoder) (maxSize : Nat) : Decoder :=
  { d with maxTableSize := maxSize, dynamicTable := d.dynamicTable.setMaxSize maxSize }

def getHeaderByIndex (d : Decoder) (index : Nat) : Except Error HeaderField :=
  if index ≤ staticTableSize then
    match getStaticEntry index with
    | some e => .ok (staticField e)
    | none => .error (.hpackError "invalid static table index")
  else
    match d.dynamicTable.getByAbsoluteIndex index with
    | some h => .ok h
    | none => .error (.hpackError "invalid dynamic table index")

/-- The string and the number of octets consumed. -/
def decodeString (data : Bytes) : Except Error (Bytes × Nat) :=
  match data with
  | [] => .error (.hpackError "incomplete HPACK string")
  | first :: _ => do
    let huffmanEncoded := first &&& 0x80 ≠ 0
    let (length, consumed) ← Integer.decode data 7
    if data.length < consumed + length then
      .error (.hpackError "incomplete HPACK string")
    let stringData := (data.drop consumed).take length
    let result ← if huffmanEncoded then Huffman.decode stringData else .ok stringData
    return (result, consumed + length)

def decodeIndexed (d : Decoder) (data : Bytes) : Except Error (HeaderField × Nat) := do
  let (index, consumed) ← Integer.decode data 7
  if index = 0 then
    .error (.hpackError "invalid index 0")
  let header ← d.getHeaderByIndex index
  return (header, consumed)

/-- The three literal decoders differ in the width of the name index and in the sensitive flag. -/
def decodeLiteralWith (d : Decoder) (prefixBits : Nat) (sensitive : Bool) (data : Bytes) :
    Except Error (HeaderField × Nat) := do
  let (nameIndex, consumed) ← Integer.decode data prefixBits
  let (name, consumed) ←
    if nameIndex = 0 then do
      let (n, c) ← decodeString (data.drop consumed)
      pure (n, consumed + c)
    else do
      let header ← d.getHeaderByIndex nameIndex
      pure (header.name, consumed)
  let (value, c) ← decodeString (data.drop consumed)
  return (⟨name, value, sensitive⟩, consumed + c)

def decodeLiteralIndexed (d : Decoder) : Bytes → Except Error (HeaderField × Nat) :=
  d.decodeLiteralWith 6 false

def decodeLiteral (d : Decoder) : Bytes → Except Error (HeaderField × Nat) :=
  d.decodeLiteralWith 4 false

def decodeLiteralNeverIndexed (d : Decoder) : Bytes → Except Error (HeaderField × Nat) :=
  d.decodeLiteralWith 4 true

/-- The decoder after the update and the number of octets consumed. -/
def decodeSizeUpdate (d : Decoder) (data : Bytes) : Except Error (Decoder × Nat) := do
  let (newSize, consumed) ← Integer.decode data 5
  if newSize > d.maxTableSize then
    .error (.hpackError "dynamic table size update exceeds maximum")
  return ({ d with dynamicTable := d.dynamicTable.setMaxSize newSize }, consumed)

/-- One turn of the loop of `decode`: the field (none for a size update), the octets consumed and
the decoder after it. -/
def decodeStep (d : Decoder) (seenHeader : Bool) (firstByte : UInt8) (data : Bytes) :
    Except Error (Option HeaderField × Nat × Decoder) := do
  if firstByte &&& 0x80 ≠ 0 then
    let (header, consumed) ← d.decodeIndexed data
    return (some header, consumed, d)
  else if firstByte &&& 0x40 ≠ 0 then
    let (header, consumed) ← d.decodeLiteralIndexed data
    let table := d.dynamicTable.insertValidated header.name header.value
    return (some header, consumed, { d with dynamicTable := table })
  else if firstByte &&& 0x20 ≠ 0 then
    if seenHeader then
      .error (.hpackError "dynamic table size update must be at the beginning of header block")
    let (d, consumed) ← d.decodeSizeUpdate data
    return (none, consumed, d)
  else if firstByte &&& 0x10 ≠ 0 then
    let (header, consumed) ← d.decodeLiteralNeverIndexed data
    return (some header, consumed, d)
  else
    let (header, consumed) ← d.decodeLiteral data
    return (some header, consumed, d)

def exceedsListSize (d : Decoder) (headerListSize : Nat) : Bool :=
  match d.maxHeaderListSize with
  | some max => headerListSize > max
  | none => false

/-- The loop of `decode`. Every turn consumes an octet, so fuel for each octet is enough. -/
def decodeLoop : Nat → Decoder → Bytes → Bool → Nat → Except Error (List HeaderField) × Decoder
  | _, d, [], _, _ => (.ok [], d)
  | 0, d, _ :: _, _, _ => (.ok [], d)
  | fuel + 1, d, first :: rest, seenHeader, headerListSize =>
    match d.decodeStep seenHeader first (first :: rest) with
    | .error e => (.error e, d)
    | .ok (none, consumed, d) =>
      decodeLoop fuel d ((first :: rest).drop consumed) seenHeader headerListSize
    | .ok (some header, consumed, d) =>
      let headerListSize := min (headerListSize + header.size) (2 ^ 64 - 1)
      if d.exceedsListSize headerListSize then
        (.error (.hpackError "decoded header list size exceeds SETTINGS_MAX_HEADER_LIST_SIZE"), d)
      else
        match decodeLoop fuel d ((first :: rest).drop consumed) true headerListSize with
        | (.ok headers, d) => (.ok (header :: headers), d)
        | r => r

def decode (d : Decoder) (data : Bytes) : Except Error (List HeaderField) × Decoder :=
  decodeLoop data.length d data false 0

/-! ## The fuel is enough -/

/-- The result of a successful bind comes from a successful first half. -/
theorem bind_eq_ok {α β : Type} {x : Except Error α} {f : α → Except Error β} {b : β}
    (h : x >>= f = .ok b) : ∃ a, x = .ok a ∧ f a = .ok b := by
  cases x with
  | error e => cases h
  | ok a => exact ⟨a, rfl, h⟩

theorem decodeIndexed_consumed {d : Decoder} {data : Bytes} {r : HeaderField × Nat}
    (h : d.decodeIndexed data = .ok r) : 0 < r.2 := by
  obtain ⟨⟨index, consumed⟩, hint, h⟩ := bind_eq_ok h
  have hpos := Integer.decode_consumed hint
  by_cases h0 : index = 0
  · simp [h0, bind, Except.bind] at h
  · simp only [h0, if_false] at h
    obtain ⟨f, _, h⟩ := bind_eq_ok h
    cases h
    exact hpos

theorem decodeLiteralWith_consumed {d : Decoder} {prefixBits : Nat} {sensitive : Bool} {data : Bytes}
    {r : HeaderField × Nat} (h : d.decodeLiteralWith prefixBits sensitive data = .ok r) :
    0 < r.2 := by
  obtain ⟨⟨index, consumed⟩, hint, h⟩ := bind_eq_ok h
  have hpos := Integer.decode_consumed hint
  simp only at h
  split at h
  · obtain ⟨⟨n, c⟩, _, h⟩ := bind_eq_ok h
    obtain ⟨_, hname, h⟩ := bind_eq_ok h
    cases hname
    obtain ⟨⟨value, c'⟩, _, h⟩ := bind_eq_ok h
    cases h
    exact Nat.add_pos_left (Nat.add_pos_left hpos _) _
  · obtain ⟨f, _, h⟩ := bind_eq_ok h
    obtain ⟨_, hname, h⟩ := bind_eq_ok h
    cases hname
    obtain ⟨⟨value, c'⟩, _, h⟩ := bind_eq_ok h
    cases h
    exact Nat.add_pos_left hpos _

theorem decodeSizeUpdate_consumed {d : Decoder} {data : Bytes} {r : Decoder × Nat}
    (h : d.decodeSizeUpdate data = .ok r) : 0 < r.2 := by
  obtain ⟨⟨size, consumed⟩, hint, h⟩ := bind_eq_ok h
  have hpos := Integer.decode_consumed hint
  by_cases hgt : size > d.maxTableSize
  · simp [hgt, bind, Except.bind] at h
  · simp only [hgt, if_false] at h
    cases h
    exact hpos

theorem decodeStep_consumed {d : Decoder} {seenHeader : Bool} {first : UInt8} {data : Bytes}
    {r : Option HeaderField × Nat × Decoder} (h : d.decodeStep seenHeader first data = .ok r) :
    0 < r.2.1 := by
  unfold decodeStep at h
  split at h
  · obtain ⟨q, hq, h⟩ := bind_eq_ok h
    cases h
    exact decodeIndexed_consumed hq
  split at h
  · obtain ⟨q, hq, h⟩ := bind_eq_ok h
    cases h
    exact decodeLiteralWith_consumed hq
  split at h
  · cases seenHeader with
    | true => simp [bind, Except.bind] at h
    | false =>
      obtain ⟨q, hq, h⟩ := bind_eq_ok h
      cases h
      exact decodeSizeUpdate_consumed hq
  split at h
  · obtain ⟨q, hq, h⟩ := bind_eq_ok h
    cases h
    exact decodeLiteralWith_consumed hq
  · obtain ⟨q, hq, h⟩ := bind_eq_ok h
    cases h
    exact decodeLiteralWith_consumed hq

/-- From the length of the data on, more fuel changes nothing. -/
theorem decodeLoop_fuel {n m : Nat} {d : Decoder} {data : Bytes} (seenHeader : Bool) (listSize : Nat)
    (hn : data.length ≤ n) (hm : data.length ≤ m) :
    decodeLoop n d data seenHeader listSize = decodeLoop m d data seenHeader listSize := by
  induction n generalizing m d data seenHeader listSize with
  | zero =>
    obtain rfl : data = [] := List.length_eq_zero_iff.1 (by omega)
    cases m <;> rfl
  | succ n ih =>
    cases data with
    | nil => cases m <;> rfl
    | cons first rest =>
      cases m with
      | zero => simp at hm
      | succ m =>
        simp only [List.length_cons, Nat.add_le_add_iff_right] at hn hm
        rw [decodeLoop, decodeLoop]
        cases hstep : d.decodeStep seenHeader first (first :: rest) with
        | error e => rfl
        | ok r =>
          obtain ⟨header, consumed, d'⟩ := r
          have hpos : 0 < consumed := decodeStep_consumed hstep
          have hlen : ((first :: rest).drop consumed).length ≤ rest.length := by
            simp only [List.length_drop, List.length_cons]
            omega
          cases header with
          | none => exact ih _ _ (by omega) (by omega)
          | some header =>
            simp only
            rw [ih true _ (Nat.le_trans hlen hn) (Nat.le_trans hlen hm)]

end Decoder

end Http2.Hpack
