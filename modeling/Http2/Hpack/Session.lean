import Http2.Hpack.RoundTrip

/-! An encoder and a decoder over a whole connection: header blocks and changes of the table size
in any order. The tables agree after every block because a run of changes, cut down to its
smallest and its last size, leaves what the whole run left. -/
namespace Http2.Hpack

open Lib.Budget

/-- The table size updates still to be signalled: the smallest and the last size since the last
block (`pending_table_size_update`). -/
abbrev PendingUpdate := Option (Nat × Nat)

/-- How a change of the table size is recorded. -/
def trackSizeUpdate (pending : PendingUpdate) (size : Nat) : PendingUpdate :=
  match pending with
  | some (existingMin, _) => some (min existingMin size, size)
  | none => some (size, size)

/-- The front of the next header block, as `send_header_block` writes it. -/
def Encoder.encodePending (e : Encoder) : PendingUpdate → Bytes
  | some (minSize, finalSize) =>
    (if minSize ≠ finalSize then e.encodeSizeUpdate minSize else []) ++ e.encodeSizeUpdate finalSize
  | none => []

structure Session where
  encoder : Encoder
  decoder : Decoder
  pending : PendingUpdate
  deriving DecidableEq, Repr

namespace Session

def new (maxTableSize : Nat) : Session := ⟨Encoder.new maxTableSize, Decoder.new maxTableSize, none⟩

def resize (s : Session) (size : Nat) : Session :=
  { s with
    encoder := s.encoder.setMaxTableSize size
    pending := trackSizeUpdate s.pending size }

/-- Encode a header list, signal the pending sizes in front of it, and decode the block. -/
def block (s : Session) (headers : List HeaderField) (huffman : Bool) :
    Except Error (List HeaderField) × Session :=
  let encoded := (s.encoder.setHuffman huffman).encode headers
  let decoded := s.decoder.decode (encoded.1.encodePending s.pending ++ encoded.2)
  (decoded.1, ⟨encoded.1, decoded.2, none⟩)

inductive Step
  | block (headers : List HeaderField) (huffman : Bool)
  | resize (size : Nat)

def step (s : Session) : Step → Session
  | .block headers huffman => (s.block headers huffman).2
  | .resize size => s.resize size

def run (s : Session) (steps : List Step) : Session := steps.foldl step s

/-- The steps of a connection whose decoder allows tables of `maxTableSize`. -/
def Step.Permitted (maxTableSize : Nat) : Step → Prop
  | .block headers _ => ∀ h ∈ headers, h.Representable
  | .resize size => size ≤ maxTableSize

/-- The sizes the integer decoder can read back: with the five-bit prefix of an update it refuses
everything from `2 ^ 63 + 31` on. -/
def Step.Signalable : Step → Prop
  | .block _ _ => True
  | .resize size => size < 2 ^ 63 + 31

/-! ## The decoder's table, once it has seen the pending updates, is the encoder's -/

def applyPending (t : DynamicTable) : PendingUpdate → DynamicTable
  | some (minSize, finalSize) => (t.setMaxSize minSize).setMaxSize finalSize
  | none => t

structure Synced (maxTableSize : Nat) (s : Session) : Prop where
  encoder_valid : s.encoder.dynamicTable.Valid
  decoder_valid : s.decoder.dynamicTable.Valid
  size_le : s.encoder.dynamicTable.maxSize ≤ maxTableSize
  max_eq : s.decoder.maxTableSize = maxTableSize
  unlimited : s.decoder.maxHeaderListSize = none
  agree : s.encoder.dynamicTable = applyPending s.decoder.dynamicTable s.pending
  pending_le : ∀ p, s.pending = some p →
    p.1 ≤ p.2 ∧ p.2 ≤ maxTableSize ∧ p.2 < 2 ^ 63 + 31

theorem new_synced (maxTableSize : Nat) : Synced maxTableSize (new maxTableSize) where
  encoder_valid := DynamicTable.new_valid _
  decoder_valid := DynamicTable.new_valid _
  size_le := Nat.le_refl _
  max_eq := rfl
  unlimited := rfl
  agree := rfl
  pending_le := by
    intro p hp
    cases hp

theorem setMaxSize_self {t : DynamicTable} (ht : t.Valid) (m : Nat) :
    (t.setMaxSize m).setMaxSize m = t.setMaxSize m := by
  rw [DynamicTable.setMaxSize_eq (DynamicTable.setMaxSize_valid ht m), DynamicTable.setMaxSize_eq ht]
  simp only [fit_fit, Nat.min_self]

theorem applyPending_track {t : DynamicTable} (ht : t.Valid) {pending : PendingUpdate} (size : Nat)
    (hp : ∀ p, pending = some p → p.1 ≤ p.2) :
    (applyPending t pending).setMaxSize size = applyPending t (trackSizeUpdate pending size) := by
  cases pending with
  | none => exact (setMaxSize_self ht size).symm
  | some p =>
    obtain ⟨minSize, finalSize⟩ := p
    have hle : minSize ≤ finalSize := hp _ rfl
    have hcut : ∀ l, fit HeaderField.size size (fit HeaderField.size finalSize
        (fit HeaderField.size minSize l)) =
          fit HeaderField.size size (fit HeaderField.size (min minSize size) l) := by
      intro l
      rw [fit_fit, fit_fit, fit_fit]
      congr 1
      omega
    simp only [applyPending, trackSizeUpdate]
    rw [DynamicTable.setMaxSize_eq (DynamicTable.setMaxSize_valid
        (DynamicTable.setMaxSize_valid ht minSize) finalSize),
      DynamicTable.setMaxSize_eq (DynamicTable.setMaxSize_valid ht minSize),
      DynamicTable.setMaxSize_eq ht,
      DynamicTable.setMaxSize_eq (DynamicTable.setMaxSize_valid ht (min minSize size)),
      DynamicTable.setMaxSize_eq ht]
    simp only [hcut]

theorem resize_synced {maxTableSize size : Nat} {s : Session} (h : Synced maxTableSize s)
    (hsize : size ≤ maxTableSize) (hsig : size < 2 ^ 63 + 31) :
    Synced maxTableSize (s.resize size) where
  encoder_valid := DynamicTable.setMaxSize_valid h.encoder_valid size
  decoder_valid := h.decoder_valid
  size_le := hsize
  max_eq := h.max_eq
  unlimited := h.unlimited
  agree := by
    change s.encoder.dynamicTable.setMaxSize size = _
    rw [h.agree]
    exact applyPending_track h.decoder_valid size fun p hp => (h.pending_le p hp).1
  pending_le := by
    intro p hp
    cases hpend : s.pending with
    | none =>
      obtain rfl : (size, size) = p := by simpa [resize, trackSizeUpdate, hpend] using hp
      exact ⟨Nat.le_refl _, hsize, hsig⟩
    | some q =>
      obtain rfl : (min q.1 size, size) = p := by simpa [resize, trackSizeUpdate, hpend] using hp
      exact ⟨Nat.min_le_right _ _, hsize, hsig⟩

/-! ## One block -/

theorem decodeStep_sizeUpdate (e : Encoder) {d : Decoder} {size : Nat} (rest : Bytes)
    (hle : size ≤ d.maxTableSize) (hsig : size < 2 ^ 63 + 31) :
    ∃ first tail, e.encodeSizeUpdate size = first :: tail ∧
      d.decodeStep false first (first :: tail ++ rest) =
        .ok (none, (first :: tail).length,
          { d with dynamicTable := d.dynamicTable.setMaxSize size }) := by
  obtain ⟨v, hv, tail, hhead⟩ :=
    Integer.encodeTemp_head size 5 0x20 (by omega)
  obtain ⟨h80, h40, h20⟩ := sizeUpdate_first v hv
  have hint := Integer.decode_encodeTemp size 5 0x20 rest (by decide) (by decide) (by omega)
  rw [hhead] at hint
  refine ⟨_, tail, hhead, ?_⟩
  rw [Decoder.decodeStep, if_neg (not_not.2 h80), if_neg (not_not.2 h40), if_pos h20]
  simp only [Decoder.decodeSizeUpdate, hint, bind, Except.bind, Bool.false_eq_true, if_false,
    if_neg (Nat.not_lt.2 hle)]
  rfl

/-- The updates in front of a block leave the decoder with the table they describe. -/
theorem decodeLoop_pending (e : Encoder) {d : Decoder} {pending : PendingUpdate} {fuel : Nat}
    (rest : Bytes) (hp : ∀ p, pending = some p → p.1 ≤ p.2 ∧ p.2 ≤ d.maxTableSize ∧ p.2 < 2 ^ 63 + 31)
    (hd : d.dynamicTable.Valid) (hfuel : (e.encodePending pending ++ rest).length ≤ fuel) :
    ∃ fuel' ≥ rest.length, d.decodeLoop fuel (e.encodePending pending ++ rest) false 0 =
      ({ d with dynamicTable := applyPending d.dynamicTable pending } : Decoder).decodeLoop
        fuel' rest false 0 := by
  -- One update, with any fuel that covers the octets.
  have hone : ∀ (d : Decoder) (size : Nat) (rest : Bytes) (fuel : Nat), size ≤ d.maxTableSize →
      size < 2 ^ 63 + 31 → (e.encodeSizeUpdate size ++ rest).length ≤ fuel →
      ∃ fuel' ≥ rest.length, d.decodeLoop fuel (e.encodeSizeUpdate size ++ rest) false 0 =
        ({ d with dynamicTable := d.dynamicTable.setMaxSize size } : Decoder).decodeLoop
          fuel' rest false 0 := by
    intro d size rest fuel hle hsig hfuel
    obtain ⟨first, tail, hbytes, hstep⟩ := decodeStep_sizeUpdate e rest hle hsig
    rw [hbytes] at hfuel ⊢
    cases fuel with
    | zero => simp at hfuel
    | succ fuel =>
      refine ⟨fuel, ?_, decodeLoop_update hstep⟩
      simp only [List.cons_append, List.length_cons, List.length_append] at hfuel
      omega
  cases pending with
  | none => exact ⟨fuel, by simpa [Encoder.encodePending] using hfuel, rfl⟩
  | some p =>
    obtain ⟨minSize, finalSize⟩ := p
    obtain ⟨hmin, hmax, hsig⟩ := hp _ rfl
    simp only at hmin hmax hsig
    by_cases hne : minSize ≠ finalSize
    · simp only [Encoder.encodePending, if_pos hne, List.append_assoc] at hfuel ⊢
      obtain ⟨fuel₁, hfuel₁, hrun₁⟩ := hone d minSize _ fuel (by omega) (by omega) hfuel
      obtain ⟨fuel₂, hfuel₂, hrun₂⟩ := hone { d with dynamicTable := d.dynamicTable.setMaxSize minSize }
        finalSize rest fuel₁ hmax hsig hfuel₁
      exact ⟨fuel₂, hfuel₂, hrun₁.trans hrun₂⟩
    · obtain rfl : minSize = finalSize := not_not.1 hne
      simp only [Encoder.encodePending, if_neg hne, List.nil_append] at hfuel ⊢
      obtain ⟨fuel', hfuel', hrun⟩ := hone d minSize rest fuel hmax hsig hfuel
      refine ⟨fuel', hfuel', ?_⟩
      rw [hrun, applyPending, setMaxSize_self hd]

theorem applyPending_valid {t : DynamicTable} (ht : t.Valid) (pending : PendingUpdate) :
    (applyPending t pending).Valid := by
  cases pending with
  | none => exact ht
  | some p => exact DynamicTable.setMaxSize_valid (DynamicTable.setMaxSize_valid ht _) _

/-- Every block of a synchronised session decodes to its header list and leaves the tables equal. -/
theorem block_synced {maxTableSize : Nat} {s : Session} {headers : List HeaderField} (huffman : Bool)
    (h : Synced maxTableSize s) (hmax : maxTableSize < 2 ^ 64)
    (hr : ∀ f ∈ headers, f.Representable) :
    (s.block headers huffman).1 = .ok headers ∧
      (s.block headers huffman).2.encoder.dynamicTable =
        (s.block headers huffman).2.decoder.dynamicTable ∧
      Synced maxTableSize (s.block headers huffman).2 := by
  have hpend := h.pending_le
  rw [← h.max_eq] at hpend
  obtain ⟨fuel, hfuel, hrun⟩ := decodeLoop_pending ((s.encoder.setHuffman huffman).encode headers).1
    ((s.encoder.setHuffman huffman).encode headers).2 hpend h.decoder_valid (Nat.le_refl _)
  have hsize : s.encoder.dynamicTable.maxSize < 2 ^ 64 := Nat.lt_of_le_of_lt h.size_le hmax
  have hagree : (s.encoder.setHuffman huffman).dynamicTable =
      applyPending s.decoder.dynamicTable s.pending := h.agree
  obtain ⟨t, hdec, ht, _, _, heq⟩ := decodeLoop_encode headers (e := s.encoder.setHuffman huffman)
    (d := { s.decoder with dynamicTable := applyPending s.decoder.dynamicTable s.pending })
    false 0 h.encoder_valid (applyPending_valid h.decoder_valid _) hsize hr
    (by rw [hagree]) (.inl (by rw [hagree])) (by rw [h.unlimited]; intro m hm; cases hm) hfuel
  obtain ⟨hv, hvmax⟩ := encode_valid (e := s.encoder.setHuffman huffman) headers h.encoder_valid hsize hr
  have hblock : s.block headers huffman = (.ok headers,
      ⟨((s.encoder.setHuffman huffman).encode headers).1, { s.decoder with dynamicTable := t }, none⟩) := by
    simp only [block, Decoder.decode]
    rw [hrun, hdec]
  rw [hblock]
  refine ⟨rfl, heq hagree, ?_⟩
  exact {
    encoder_valid := hv
    decoder_valid := ht
    size_le := by rw [hvmax]; exact h.size_le
    max_eq := h.max_eq
    unlimited := h.unlimited
    agree := heq hagree
    pending_le := by
      intro p hp
      cases hp }

theorem run_synced {maxTableSize : Nat} {s : Session} {steps : List Step}
    (h : Synced maxTableSize s) (hmax : maxTableSize < 2 ^ 64)
    (hsteps : ∀ st ∈ steps, st.Permitted maxTableSize ∧ st.Signalable) :
    Synced maxTableSize (s.run steps) := by
  induction steps generalizing s with
  | nil => exact h
  | cons st steps ih =>
    apply ih _ fun st' hst' => hsteps st' (List.mem_cons_of_mem _ hst')
    obtain ⟨hperm, hsig⟩ := hsteps st List.mem_cons_self
    cases st with
    | block headers huffman => exact (block_synced huffman h hmax hperm).2.2
    | resize size => exact resize_synced h hperm hsig

/-- Round trip and table synchronisation over a whole connection. -/
theorem block_roundTrip {maxTableSize : Nat} (hmax : maxTableSize < 2 ^ 64) {steps : List Step}
    (hsteps : ∀ st ∈ steps, st.Permitted maxTableSize ∧ st.Signalable)
    {headers : List HeaderField} (hr : ∀ h ∈ headers, h.Representable) (huffman : Bool) :
    let r := ((new maxTableSize).run steps).block headers huffman
    r.1 = .ok headers ∧ r.2.encoder.dynamicTable = r.2.decoder.dynamicTable := by
  obtain ⟨hok, heq, _⟩ := block_synced huffman (run_synced (new_synced maxTableSize) hmax hsteps) hmax hr
  exact ⟨hok, heq⟩

theorem block_roundTrip_resized :
    let r := ((new 4096).run [.block [⟨ascii "x-a", ascii "1", false⟩] true, .resize 0, .resize 100]).block
      [⟨ascii "x-a", ascii "1", false⟩, ⟨ascii "cookie", ascii "s", true⟩] false
    r.1 = .ok [⟨ascii "x-a", ascii "1", false⟩, ⟨ascii "cookie", ascii "s", true⟩] ∧
      r.2.encoder.dynamicTable = r.2.decoder.dynamicTable :=
  block_roundTrip (by decide)
    (by
      intro st hst
      simp only [List.mem_cons, List.not_mem_nil, or_false] at hst
      rcases hst with rfl | rfl | rfl
      · exact ⟨by simp only [Step.Permitted, HeaderField.Representable]; decide, trivial⟩
      · exact ⟨by simp only [Step.Permitted]; decide, by simp only [Step.Signalable]; decide⟩
      · exact ⟨by simp only [Step.Permitted]; decide, by simp only [Step.Signalable]; decide⟩)
    (by simp only [HeaderField.Representable]; decide) false

/-- Without the bound on the sizes the round trip fails: the integer decoder refuses the update
that the encoder writes for a table of `2 ^ 63 + 31` octets. -/
theorem block_roundTrip_unbounded_false :
    ¬ ∀ maxTableSize < 2 ^ 64, ∀ steps : List Step, (∀ st ∈ steps, st.Permitted maxTableSize) →
      ∀ headers : List HeaderField, (∀ h ∈ headers, h.Representable) → ∀ huffman,
        let r := ((new maxTableSize).run steps).block headers huffman
        r.1 = .ok headers ∧ r.2.encoder.dynamicTable = r.2.decoder.dynamicTable := by
  intro h
  have hfail := (h (2 ^ 63 + 31) (by decide) [.resize (2 ^ 63 + 31)]
    (by
      intro st hst
      obtain rfl := List.mem_singleton.1 hst
      exact Nat.le_refl _) [] (by simp) true).1
  revert hfail
  decide +kernel

end Session

end Http2.Hpack
