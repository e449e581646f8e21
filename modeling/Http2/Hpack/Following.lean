import Http2.Hpack.Session

/-! An encoder whose table begins the decoder's. It may be smaller than the decoder allows, and the
blocks it writes still come back as they were. -/
namespace Http2.Hpack

open Lib.Budget

/-- Decode the blocks one after the other, as long as none is refused. -/
def replay (d : Decoder) : List Bytes → Option (List (List HeaderField) × Decoder)
  | [] => some ([], d)
  | block :: blocks =>
    match d.decode block with
    | (.ok headers, d') => (replay d' blocks).map fun r => (headers :: r.1, r.2)
    | (.error _, _) => none

section Replay

variable {d d' : Decoder} {blocks : List Bytes} {lists : List (List HeaderField)}
  {headers : List HeaderField} {block : Bytes}

theorem replay_append (d : Decoder) (as bs : List Bytes) :
    replay d (as ++ bs) = (replay d as).bind fun r => (replay r.2 bs).map fun s => (r.1 ++ s.1, s.2) := by
  induction as generalizing d with
  | nil =>
    simp only [List.nil_append, replay, Option.bind_some]
    cases replay d bs <;> rfl
  | cons a as ih =>
    rw [List.cons_append, replay, replay]
    obtain ⟨r, d'⟩ := d.decode a
    cases r with
    | error e => rfl
    | ok headers =>
      simp only [ih]
      cases replay d' as with
      | none => rfl
      | some r =>
        simp only [Option.bind_some, Option.map_some, Option.map_map]
        rfl

theorem replay_snoc (h : replay d blocks = some (lists, d')) {d'' : Decoder}
    (hdecode : d'.decode block = (.ok headers, d'')) :
    replay d (blocks ++ [block]) = some (lists ++ [headers], d'') := by
  rw [replay_append, h]
  simp only [Option.bind_some, replay, hdecode, Option.map_some]

/-- Blocks that follow are decoded from where the earlier ones led. -/
theorem replay_prefix {more : List Bytes} {all : List (List HeaderField)} {last : Decoder}
    (h : replay d blocks = some (lists, d')) (hall : replay d (blocks ++ more) = some (all, last)) :
    ∃ later, all = lists ++ later ∧ replay d' more = some (later, last) := by
  rw [replay_append, h, Option.bind_some] at hall
  obtain ⟨⟨later, last'⟩, hmore, heq⟩ := Option.map_eq_some_iff.1 hall
  obtain ⟨rfl, rfl⟩ := Prod.mk.inj heq
  exact ⟨later, rfl, hmore⟩

theorem replay_length (h : replay d blocks = some (lists, d')) : lists.length = blocks.length := by
  induction blocks generalizing d lists with
  | nil =>
    obtain ⟨rfl, _⟩ := Prod.mk.inj (Option.some.inj h)
    rfl
  | cons block blocks ih =>
    rw [replay] at h
    split at h
    · obtain ⟨⟨later, last⟩, hlater, heq⟩ := Option.map_eq_some_iff.1 h
      obtain ⟨rfl, rfl⟩ := Prod.mk.inj heq
      rw [List.length_cons, List.length_cons, ih hlater]
    · cases h

/-- The next block is not refused. -/
theorem replay_next {more : List Bytes} {last : Decoder} (h : replay d (block :: more) = some (lists, last)) :
    ∃ headers d', d.decode block = (.ok headers, d') := by
  rw [replay] at h
  split at h
  · exact ⟨_, _, ‹_›⟩
  · cases h

end Replay

/-- The encoder's table begins that of the decoder, which holds `maxTableSize` octets; at most that
size is still to be signalled. -/
structure Leads (maxTableSize : Nat) (e : Encoder) (pending : PendingUpdate) (d : Decoder) : Prop where
  encoder_valid : e.dynamicTable.Valid
  decoder_valid : d.dynamicTable.Valid
  entries : e.dynamicTable.entries <+: d.dynamicTable.entries
  table_max : d.dynamicTable.maxSize = maxTableSize
  max_eq : d.maxTableSize = maxTableSize
  pending_eq : pending = none ∨ pending = some (maxTableSize, maxTableSize)

namespace Leads

variable {maxTableSize : Nat} {e : Encoder} {pending : PendingUpdate} {d : Decoder}
  {headers : List HeaderField}

/-- A change to the size that the decoder holds. -/
theorem resize (h : Leads maxTableSize e pending d) {pending' : PendingUpdate}
    (hpending : pending' = pending ∨ pending' = trackSizeUpdate pending maxTableSize) :
    Leads maxTableSize (e.setMaxTableSize maxTableSize) pending' d where
  encoder_valid := DynamicTable.setMaxSize_valid h.encoder_valid maxTableSize
  decoder_valid := h.decoder_valid
  entries := by
    change (e.dynamicTable.setMaxSize maxTableSize).entries <+: _
    rw [DynamicTable.setMaxSize_eq h.encoder_valid]
    exact (fit_isPrefix _ _ _).trans h.entries
  table_max := h.table_max
  max_eq := h.max_eq
  pending_eq := by
    obtain rfl | rfl := hpending
    · exact h.pending_eq
    · obtain rfl | rfl := h.pending_eq
      · exact .inr rfl
      · refine .inr ?_
        rw [trackSizeUpdate, Nat.min_self]

/-- Signalling the size the table has changes nothing. -/
theorem applyPending_self (h : Leads maxTableSize e pending d) :
    Session.applyPending d.dynamicTable pending = d.dynamicTable := by
  obtain rfl | rfl := h.pending_eq
  · rfl
  · have hsame : d.dynamicTable.setMaxSize maxTableSize = d.dynamicTable := by
      have hvalid := h.decoder_valid
      have htotal : total HeaderField.size d.dynamicTable.entries ≤ d.dynamicTable.maxSize :=
        hvalid.size_eq ▸ hvalid.size_le
      rw [DynamicTable.setMaxSize_eq hvalid, ← h.table_max, fit_eq_self _ htotal, ← hvalid.size_eq]
    rw [Session.applyPending, hsame, hsame]

/-- A block of an encoder whose table is no larger comes back as it was. -/
theorem block (h : Leads maxTableSize e pending d) (hsize : e.dynamicTable.maxSize ≤ maxTableSize)
    (hmax : maxTableSize < 2 ^ 32) (hr : ∀ f ∈ headers, f.Representable)
    (hlist : ∀ m, d.maxHeaderListSize = some m → total HeaderField.size headers ≤ m) :
    ∃ d', d.decode ((e.encode headers).1.encodePending pending ++ (e.encode headers).2) = (.ok headers, d') ∧
      Leads maxTableSize (e.encode headers).1 none d' ∧ d'.maxHeaderListSize = d.maxHeaderListSize := by
  have hpending : ∀ p, pending = some p → p.1 ≤ p.2 ∧ p.2 ≤ d.maxTableSize ∧ p.2 < 2 ^ 63 + 31 := by
    intro p hp
    obtain hnone | hsome := h.pending_eq
    · cases hnone.symm.trans hp
    · obtain rfl := Option.some.inj (hsome.symm.trans hp)
      exact ⟨Nat.le_refl _, Nat.le_of_eq h.max_eq.symm, by change maxTableSize < _; omega⟩
  obtain ⟨fuel, hfuel, hrun⟩ := Session.decodeLoop_pending (e.encode headers).1 (e.encode headers).2 hpending
    h.decoder_valid (Nat.le_refl _)
  rw [h.applyPending_self] at hrun
  obtain ⟨t, hdecode, ht, htmax, hentries, _⟩ := decodeLoop_encode headers (e := e) (d := d) false 0
    h.encoder_valid h.decoder_valid (by omega) hr h.entries (.inl (by rw [h.table_max]; exact hsize))
    (by simpa using hlist) hfuel
  refine ⟨{ d with dynamicTable := t }, ?_, ?_, rfl⟩
  · rw [Decoder.decode, hrun, hdecode]
  · exact {
      encoder_valid := (encode_valid headers h.encoder_valid (by omega) hr).1
      decoder_valid := ht
      entries := hentries
      table_max := htmax.trans h.table_max
      max_eq := h.max_eq
      pending_eq := .inl rfl }

end Leads

end Http2.Hpack
