import Http2.Error

/-! HPACK header fields and the static table of `src/hpack/table.rs`. -/
namespace Http2.Hpack

/-- A header field; `sensitive` asks for the never-indexed representation. -/
structure HeaderField where
  name : Bytes
  value : Bytes
  sensitive : Bool
  deriving DecidableEq, Repr

namespace HeaderField

/-- RFC 7541 section 4.1 charges 32 octets of overhead for each field. -/
def size (h : HeaderField) : Nat := h.name.length + h.value.length + 32

/-- What every `HeaderField` of the source satisfies: its two byte vectors are representable. -/
def Representable (h : HeaderField) : Prop :=
  h.name.length ≤ isizeMax ∧ h.value.length ≤ isizeMax

end HeaderField

/-- RFC 7541 appendix A from index 1 on; index 0 of the source's array is unused. -/
def staticTable : List (Bytes × Bytes) := [
  (ascii ":authority", ascii ""), (ascii ":method", ascii "GET"),
  (ascii ":method", ascii "POST"), (ascii ":path", ascii "/"),
  (ascii ":path", ascii "/index.html"), (ascii ":scheme", ascii "http"),
  (ascii ":scheme", ascii "https"), (ascii ":status", ascii "200"),
  (ascii ":status", ascii "204"), (ascii ":status", ascii "206"), (ascii ":status", ascii "304"),
  (ascii ":status", ascii "400"), (ascii ":status", ascii "404"), (ascii ":status", ascii "500"),
  (ascii "accept-charset", ascii ""), (ascii "accept-encoding", ascii "gzip, deflate"),
  (ascii "accept-language", ascii ""), (ascii "accept-ranges", ascii ""),
  (ascii "accept", ascii ""), (ascii "access-control-allow-origin", ascii ""),
  (ascii "age", ascii ""), (ascii "allow", ascii ""), (ascii "authorization", ascii ""),
  (ascii "cache-control", ascii ""), (ascii "content-disposition", ascii ""),
  (ascii "content-encoding", ascii ""), (ascii "content-language", ascii ""),
  (ascii "content-length", ascii ""), (ascii "content-location", ascii ""),
  (ascii "content-range", ascii ""), (ascii "content-type", ascii ""),
  (ascii "cookie", ascii ""), (ascii "date", ascii ""), (ascii "etag", ascii ""),
  (ascii "expect", ascii ""), (ascii "expires", ascii ""), (ascii "from", ascii ""),
  (ascii "host", ascii ""), (ascii "if-match", ascii ""), (ascii "if-modified-since", ascii ""),
  (ascii "if-none-match", ascii ""), (ascii "if-range", ascii ""),
  (ascii "if-unmodified-since", ascii ""), (ascii "last-modified", ascii ""),
  (ascii "link", ascii ""), (ascii "location", ascii ""), (ascii "max-forwards", ascii ""),
  (ascii "proxy-authenticate", ascii ""), (ascii "proxy-authorization", ascii ""),
  (ascii "range", ascii ""), (ascii "referer", ascii ""), (ascii "refresh", ascii ""),
  (ascii "retry-after", ascii ""), (ascii "server", ascii ""), (ascii "set-cookie", ascii ""),
  (ascii "strict-transport-security", ascii ""), (ascii "transfer-encoding", ascii ""),
  (ascii "user-agent", ascii ""), (ascii "vary", ascii ""), (ascii "via", ascii ""),
  (ascii "www-authenticate", ascii "")]

/-- `STATIC_TABLE_SIZE`. -/
def staticTableSize : Nat := 61

def getStaticEntry (index : Nat) : Option (Bytes × Bytes) :=
  if 1 ≤ index ∧ index ≤ staticTableSize then staticTable[index - 1]? else none

/-- `StaticEntry::to_header_field`. -/
def staticField (e : Bytes × Bytes) : HeaderField := ⟨e.1, e.2, false⟩

/-- The scan shared by `find_static_index` and `DynamicTable::find`: the first exact match, or
else the first match of the name. `i` is the position of the head, `nameMatch` what the scan has
seen before it. -/
def scan (name value : Bytes) : List (Bytes × Bytes) → Nat → Option Nat → Option (Nat × Bool)
  | [], _, nameMatch => nameMatch.map fun i => (i, false)
  | e :: rest, i, nameMatch =>
    if e.1 = name then
      if e.2 = value then some (i, true)
      else scan name value rest (i + 1) (nameMatch.or (some i))
    else scan name value rest (i + 1) nameMatch

def findStaticIndex (name value : Bytes) : Option (Nat × Bool) :=
  scan name value staticTable 1 none

/-- What a hit of the scan says about the entry it names. -/
theorem scan_spec {name value : Bytes} {l : List (Bytes × Bytes)} {i : Nat} {m : Option Nat}
    {j : Nat} {isExact : Bool} (h : scan name value l i m = some (j, isExact)) :
    (m = some j ∧ isExact = false) ∨
    ∃ e, i ≤ j ∧ l[j - i]? = some e ∧ e.1 = name ∧ (isExact = true → e.2 = value) := by
  induction l generalizing i m with
  | nil => cases m <;> simp_all [scan]
  | cons e rest ih =>
    -- a later hit sits one place further into the tail
    have shift : ∀ {m'}, scan name value rest (i + 1) m' = some (j, isExact) →
        (m' = some j ∧ isExact = false) ∨
        ∃ e', i ≤ j ∧ (e :: rest)[j - i]? = some e' ∧ e'.1 = name ∧
          (isExact = true → e'.2 = value) := by
      intro m' hm
      rcases ih hm with hl | ⟨e', hle, hget, hn, hv⟩
      · exact .inl hl
      · refine .inr ⟨e', by omega, ?_, hn, hv⟩
        rw [show j - i = (j - (i + 1)) + 1 by omega, List.getElem?_cons_succ]
        exact hget
    rw [scan] at h
    split at h
    · rename_i hname
      split at h
      · rename_i hvalue
        obtain ⟨rfl, rfl⟩ : i = j ∧ true = isExact := by simpa using h
        exact .inr ⟨e, Nat.le_refl _, by simp, hname, fun _ => hvalue⟩
      · rcases shift h with ⟨hm, hex⟩ | hr
        · cases m with
          | none =>
            obtain rfl : i = j := by simpa using hm
            exact .inr ⟨e, Nat.le_refl _, by simp, hname, by simp [hex]⟩
          | some k => exact .inl ⟨by simpa using hm, hex⟩
        · exact .inr hr
    · exact shift h

theorem staticTable_length : staticTable.length = staticTableSize := by decide

/-- A static hit names an entry with that name, and with that value if it is exact. -/
theorem findStaticIndex_spec {name value : Bytes} {j : Nat} {isExact : Bool}
    (h : findStaticIndex name value = some (j, isExact)) :
    1 ≤ j ∧ j ≤ staticTableSize ∧
    ∃ e, getStaticEntry j = some e ∧ e.1 = name ∧ (isExact = true → e.2 = value) := by
  rcases scan_spec h with ⟨hm, _⟩ | ⟨e, hle, hget, hn, hv⟩
  · cases hm
  · have hlt : j - 1 < staticTable.length := (List.getElem?_eq_some_iff.1 hget).1
    rw [staticTable_length] at hlt
    have hj : 1 ≤ j ∧ j ≤ staticTableSize := ⟨hle, by omega⟩
    exact ⟨hj.1, hj.2, e, by rw [getStaticEntry, if_pos hj]; exact hget, hn, hv⟩

end Http2.Hpack
