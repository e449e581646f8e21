import Http2.Hpack.DynamicTable
import Http2.Hpack.Huffman
import Http2.Hpack.Integer

/-! The HPACK encoder of `src/hpack/encoder.rs`. A method that appends to the source's buffer
returns the octets it appends. -/
namespace Http2.Hpack

structure Encoder where
  dynamicTable : DynamicTable
  useHuffman : Bool
  deriving DecidableEq, Repr

namespace Encoder

def new (maxTableSize : Nat) : Encoder := ⟨DynamicTable.new maxTableSize, true⟩

def setHuffman (e : Encoder) (useHuffman : Bool) : Encoder := { e with useHuffman := useHuffman }

def setMaxTableSize (e : Encoder) (maxSize : Nat) : Encoder :=
  { e with dynamicTable := e.dynamicTable.setMaxSize maxSize }

/-- The static table first; an exact dynamic entry is preferred to a static name. -/
def findIndex (e : Encoder) (name value : Bytes) : Option (Nat × Bool) :=
  match findStaticIndex name value with
  | some (index, true) => some (index, true)
  | some (index, false) =>
    match e.dynamicTable.find name value with
    | some (dynIndex, true) => some (staticTableSize + 1 + dynIndex, true)
    | _ => some (index, false)
  | none =>
    match e.dynamicTable.find name value with
    | some (dynIndex, isExact) => some (staticTableSize + 1 + dynIndex, isExact)
    | none => none

/-- A string literal: Huffman-coded when that is shorter. -/
def encodeString (e : Encoder) (data : Bytes) : Bytes :=
  let encoded := Huffman.encodeToVec data
  if e.useHuffman ∧ encoded.length < data.length then
    Integer.encodeTemp encoded.length 7 0x80 ++ encoded
  else
    Integer.encodeTemp data.length 7 0x00 ++ data

def encodeIndexed (_ : Encoder) (index : Nat) : Bytes := Integer.encodeTemp index 7 0x80

/-- A literal whose name is an entry of the tables, with the pattern of its representation. -/
def encodeLiteralByIndex (e : Encoder) (prefixBits : Nat) (pattern : UInt8) (nameIndex : Nat)
    (value : Bytes) : Bytes :=
  Integer.encodeTemp nameIndex prefixBits pattern ++ e.encodeString value

/-- A literal with a new name. -/
def encodeLiteralByName (e : Encoder) (pattern : UInt8) (name value : Bytes) : Bytes :=
  pattern :: (e.encodeString name ++ e.encodeString value)

def encodeLiteralIndexed (e : Encoder) : Nat → Bytes → Bytes := e.encodeLiteralByIndex 6 0x40

def encodeLiteralNew (e : Encoder) : Bytes → Bytes → Bytes := e.encodeLiteralByName 0x40

def encodeLiteralWithoutIndexingIndexed (e : Encoder) : Nat → Bytes → Bytes :=
  e.encodeLiteralByIndex 4 0x00

def encodeLiteralWithoutIndexingNew (e : Encoder) : Bytes → Bytes → Bytes :=
  e.encodeLiteralByName 0x00

def encodeNeverIndexedWithNameIndex (e : Encoder) : Nat → Bytes → Bytes :=
  e.encodeLiteralByIndex 4 0x10

def encodeNeverIndexedNew (e : Encoder) : Bytes → Bytes → Bytes := e.encodeLiteralByName 0x10

def encodeHeader (e : Encoder) (name value : Bytes) (indexing : Bool) : Encoder × Bytes :=
  let insert := { e with dynamicTable := e.dynamicTable.insertValidated name value }
  match e.findIndex name value with
  | some (index, true) => (e, e.encodeIndexed index)
  | some (index, false) =>
    if indexing then (insert, e.encodeLiteralIndexed index value)
    else (e, e.encodeLiteralWithoutIndexingIndexed index value)
  | none =>
    if indexing then (insert, e.encodeLiteralNew name value)
    else (e, e.encodeLiteralWithoutIndexingNew name value)

def encodeHeaderSensitive (e : Encoder) (name value : Bytes) : Bytes :=
  match e.findIndex name value with
  | some (index, _) => e.encodeNeverIndexedWithNameIndex index value
  | none => e.encodeNeverIndexedNew name value

/-- One turn of the loop of `encode`. -/
def encodeField (e : Encoder) (h : HeaderField) : Encoder × Bytes :=
  if h.sensitive then (e, e.encodeHeaderSensitive h.name h.value)
  else e.encodeHeader h.name h.value true

def encode (e : Encoder) : List HeaderField → Encoder × Bytes
  | [] => (e, [])
  | h :: headers =>
    let r := e.encodeField h
    let r' := r.1.encode headers
    (r'.1, r.2 ++ r'.2)

def encodeSizeUpdate (_ : Encoder) (newSize : Nat) : Bytes := Integer.encodeTemp newSize 5 0x20

/-- A hit of the search names an entry that the peer finds under the same index, as long as its
table starts with this one. -/
theorem findIndex_spec {e : Encoder} {name value : Bytes} {index : Nat} {isExact : Bool}
    (h : e.findIndex name value = some (index, isExact)) :
    (1 ≤ index ∧ index ≤ staticTableSize ∧ ∃ s, getStaticEntry index = some s ∧ s.1 = name ∧
      (isExact = true → s.2 = value)) ∨
    (∃ j f, index = staticTableSize + 1 + j ∧ e.dynamicTable.entries[j]? = some f ∧
      f.name = name ∧ (isExact = true → f.value = value)) := by
  unfold findIndex at h
  cases hs : findStaticIndex name value with
  | none =>
    rw [hs] at h
    cases hd : e.dynamicTable.find name value with
    | none => simp [hd] at h
    | some r =>
      obtain ⟨j, ex⟩ := r
      obtain ⟨rfl, rfl⟩ := by simpa [hd] using h
      obtain ⟨f, hget, hn, hv⟩ := DynamicTable.find_spec hd
      exact .inr ⟨j, f, rfl, hget, hn, hv⟩
  | some r =>
    obtain ⟨i, ex⟩ := r
    have hstatic := findStaticIndex_spec hs
    rw [hs] at h
    cases ex with
    | true =>
      obtain ⟨rfl, rfl⟩ := by simpa using h
      exact .inl hstatic
    | false =>
      cases hd : e.dynamicTable.find name value with
      | none =>
        obtain ⟨rfl, rfl⟩ := by simpa [hd] using h
        exact .inl hstatic
      | some r =>
        obtain ⟨j, dex⟩ := r
        cases dex with
        | false =>
          obtain ⟨rfl, rfl⟩ := by simpa [hd] using h
          exact .inl hstatic
        | true =>
          obtain ⟨rfl, rfl⟩ := by simpa [hd] using h
          obtain ⟨f, hget, hn, hv⟩ := DynamicTable.find_spec hd
          exact .inr ⟨j, f, rfl, hget, hn, hv⟩

@[simp] theorem encodeField_useHuffman (e : Encoder) (h : HeaderField) :
    (e.encodeField h).1.useHuffman = e.useHuffman := by
  unfold encodeField encodeHeader
  split
  · rfl
  · split
    · rfl
    · split <;> rfl
    · split <;> rfl

theorem encodeField_valid {e : Encoder} (he : e.dynamicTable.Valid) (h : HeaderField) :
    (e.encodeField h).1.dynamicTable.Valid := by
  have hinsert := DynamicTable.insertEntry_valid he (e := ⟨h.name, h.value, false⟩) rfl
  unfold encodeField encodeHeader
  split
  · exact he
  · split
    · exact he
    · exact hinsert
    · exact hinsert

/-- Whatever is encoded, the table stays consistent. -/
theorem encode_keepsValid {e : Encoder} (he : e.dynamicTable.Valid) (headers : List HeaderField) :
    (e.encode headers).1.dynamicTable.Valid := by
  induction headers generalizing e with
  | nil => exact he
  | cons h headers ih => exact ih (encodeField_valid he h)

end Encoder

end Http2.Hpack
