import Http2.Lib.Budget
import Http2.Lib.Framing
import Http2.WebTransport.Codec

/-! A stream of capsules that reaches the capsule decoder in chunks, each of which has to fit into
its buffer. -/
namespace Http2.WebTransport

open Lib Lib.Budget Varint

/-! ## The declared length -/

/-- The encoding of a capsule is a type, a declared length and a body of that many octets. -/
def Capsule.Declares (c : Capsule) : Prop :=
  ∃ capsuleType length body, c.parts = Capsule.header capsuleType length ++ body ∧
    (body.flatMap Part.bytes).length = length

theorem Capsule.declares {c : Capsule} (henc : c.Encodable) : c.Declares := by
  have hlen : ∀ value, .varint value ∈ c.parts → (Varint.bytes value).length = encodedLen value :=
    fun value hvalue => length_bytes (henc value hvalue)
  cases c with
  | datagram data => exact ⟨_, _, [.raw data], rfl, by simp [Part.bytes]⟩
  | padding length => exact ⟨_, _, [.raw (List.replicate length 0)], rfl, by simp [Part.bytes]⟩
  | wtResetStream sid code size =>
    refine ⟨_, _, [.varint sid, .varint code, .varint size], rfl, ?_⟩
    simp [Part.bytes, hlen sid (by simp [parts]), hlen code (by simp [parts]),
      hlen size (by simp [parts]), Nat.add_assoc]
  | wtStopSending sid code =>
    refine ⟨_, _, [.varint sid, .varint code], rfl, ?_⟩
    simp [Part.bytes, hlen sid (by simp [parts]), hlen code (by simp [parts])]
  | wtStream sid data fin =>
    refine ⟨_, _, [.varint sid, .raw data], rfl, ?_⟩
    simp [Part.bytes, hlen sid (by simp [parts])]
  | wtMaxData m | wtDataBlocked m | wtMaxStreams m bidirectional | wtStreamsBlocked m bidirectional =>
    refine ⟨_, _, [.varint m], rfl, ?_⟩
    simp [Part.bytes, hlen m (by simp [parts])]
  | wtMaxStreamData sid m | wtStreamDataBlocked sid m =>
    refine ⟨_, _, [.varint sid, .varint m], rfl, ?_⟩
    simp [Part.bytes, hlen sid (by simp [parts]), hlen m (by simp [parts])]
  | wtCloseSession code reason =>
    refine ⟨_, _, [.raw _, .raw _], rfl, ?_⟩
    simp [Part.bytes, BigEndian.length_toBe]
  | wtDrainSession => exact ⟨_, _, [], rfl, rfl⟩
  | unknown capsuleType data => exact ⟨_, _, [.raw data], rfl, by simp [Part.bytes]⟩

namespace CapsuleDecoder

/-! ## A run of the decoder -/

/-- A capsule that comes out leaves the buffer shorter. -/
theorem decode_shorter {d d' : CapsuleDecoder} {c : Capsule} (h : d.decode = .ok (some (c, d'))) :
    d'.buffer.length < d.buffer.length := by
  obtain ⟨r, hr, h⟩ := bind_eq_ok_iff.1 h
  cases r with
  | none => cases h
  | some r =>
    obtain ⟨hpos, hle, _⟩ := parseCapsule_ok (c := r.1) (n := r.2) hr
    cases h
    rw [List.length_drop]
    omega

/-- `decode` until it returns `None`. -/
def drain (d : CapsuleDecoder) : WtResult (List Capsule × CapsuleDecoder) :=
  match _h : d.decode with
  | .error e => .error e
  | .ok none => .ok ([], d)
  | .ok (some (capsule, d')) =>
    match drain d' with
    | .error e => .error e
    | .ok (capsules, d'') => .ok (capsule :: capsules, d'')
termination_by d.buffer.length
decreasing_by exact decode_shorter _h

/-- Feed the chunks in order and decode what there is after each. -/
def receive (d : CapsuleDecoder) : List Bytes → WtResult (List Capsule × CapsuleDecoder)
  | [] => .ok ([], d)
  | chunk :: chunks => do
    let d ← d.feed chunk
    let (taken, d) ← d.drain
    let (more, d) ← receive d chunks
    return (taken ++ more, d)

/-! ## What is left of the octets that arrived -/

/-- The octets that stay in the buffer when the first `arrived` ones are there and the whole
capsules among them are taken out. -/
def leftover (capsules : List Capsule) (arrived : Nat) : Nat :=
  arrived - total (fun c => c.encode.length) (fit (fun c => c.encode.length) arrived capsules)

/-- Each chunk finds room beside what the `arrived` octets before it left in the buffer. -/
def ChunksFit (maxBufferSize : Nat) (capsules : List Capsule) : Nat → List Bytes → Prop
  | _, [] => True
  | arrived, chunk :: chunks =>
    leftover capsules arrived + chunk.length ≤ maxBufferSize ∧
      ChunksFit maxBufferSize capsules (arrived + chunk.length) chunks

/-! ## Draining -/

/-- The decoder as a reader of capsules; whether a piece finds room is settled before. -/
def framer : Framer CapsuleDecoder WtError Capsule UInt8 where
  feed d piece := { d with buffer := d.buffer ++ piece }
  decode d :=
    match d.decode with
    | .ok (some (capsule, d')) => (.ok (some capsule), d')
    | .ok none => (.ok none, d)
    | .error e => (.error e, d)

/-- Beside its limit the decoder keeps nothing but the octets it has not used. -/
def Holds (maxBufferSize : Nat) (d : CapsuleDecoder) (octets : Bytes) : Prop :=
  d = ⟨octets, maxBufferSize⟩

theorem decode_whole {c : Capsule} (hc : c.Encodable ∧ c.Acceptable) (rest : Bytes) (max : Nat) :
    (⟨c.encode ++ rest, max⟩ : CapsuleDecoder).decode = .ok (some (c, ⟨rest, max⟩)) := by
  rw [decode, parseCapsule_encode hc.1 hc.2 rest]
  simp [bind, Except.bind, pure, Except.pure]

theorem decode_cut {c : Capsule} (hc : c.Encodable ∧ c.Acceptable) {octets : Bytes} (max : Nat)
    (hcut : octets <+: c.encode) (hshort : octets.length < c.encode.length) :
    (⟨octets, max⟩ : CapsuleDecoder).decode = .ok none := by
  rw [decode, parseCapsule_cut hc.1 hc.2 hcut hshort]
  rfl

theorem reader (max : Nat) :
    framer.Reader Capsule.encode (fun c => c.Encodable ∧ c.Acceptable) (Holds max) where
  feed := by
    rintro _ octets piece rfl
    rfl
  empty := by
    rintro _ rfl
    exact ⟨_, rfl, rfl⟩
  whole := by
    rintro _ rest c hc rfl
    refine ⟨⟨rest, max⟩, ?_, rfl⟩
    simp only [framer, decode_whole hc]
  cut := by
    rintro _ octets c hc rfl hcut hne
    have hshort : octets.length < c.encode.length :=
      Nat.lt_of_le_of_ne hcut.length_le fun hlen => hne (hcut.eq_of_length hlen)
    refine ⟨⟨octets, max⟩, ?_, rfl⟩
    simp only [framer, decode_cut hc max hcut hshort]

/-- The function computes what the relation of the library allows, and stops where the decoder has
nothing more to say. -/
theorem drain_of_drains {d d' : CapsuleDecoder} {capsules : List Capsule}
    (h : framer.Drains d capsules d') : d.drain = .ok (capsules, d') ∧ d'.decode = .ok none := by
  induction h with
  | @idle d d' h =>
    simp only [framer] at h
    split at h <;> cases h
    rename_i hdecode
    rw [drain]
    split
    · rename_i herror
      rw [hdecode] at herror
      cases herror
    · exact ⟨rfl, hdecode⟩
    · rename_i hsome
      rw [hdecode] at hsome
      cases hsome
  | @next d d₁ d' c cs h _ ih =>
    simp only [framer] at h
    split at h <;> cases h
    rename_i hdecode
    rw [drain]
    split
    · rename_i herror
      rw [hdecode] at herror
      cases herror
    · rename_i hnone
      rw [hdecode] at hnone
      cases hnone
    · rename_i hsome
      rw [hdecode] at hsome
      cases hsome
      simp only [ih.1, true_and]
      exact ih.2

/-- What has arrived is a row of whole capsules, which come out, and a part of the next one. -/
theorem drain_arrived {capsules : List Capsule}
    (hgood : ∀ c ∈ capsules, c.Encodable ∧ c.Acceptable) {arrived rest : Bytes} (max : Nat)
    (hsplit : arrived ++ rest = capsules.flatMap Capsule.encode) :
    ∃ taken left kept, capsules = taken ++ left ∧
      (⟨arrived, max⟩ : CapsuleDecoder).drain = .ok (taken, ⟨kept, max⟩) ∧
      arrived = taken.flatMap Capsule.encode ++ kept ∧ kept ++ rest = left.flatMap Capsule.encode ∧
      ∀ c ∈ left.head?, kept.length < c.encode.length := by
  obtain ⟨taken, left, d', kept, rfl, hdrains, rfl, hkept, _⟩ :=
    Framer.drains_arrived (reader max) hgood (s := ⟨arrived, max⟩) rfl hsplit
  obtain ⟨hdrain, hidle⟩ := drain_of_drains hdrains
  refine ⟨taken, left, kept, rfl, hdrain, ?_, hkept, ?_⟩
  · rw [List.flatMap_append, ← hkept, ← List.append_assoc] at hsplit
    exact List.append_cancel_right hsplit
  · intro c hc
    obtain ⟨cs, rfl⟩ := List.head?_eq_some_iff.1 hc
    by_contra hlong
    -- a capsule that is there as a whole would have come out
    have hwhole : c.encode <+: kept := by
      apply List.prefix_of_prefix_length_le ⟨cs.flatMap Capsule.encode, hkept.symm⟩
      · exact List.prefix_append _ _
      · omega
    obtain ⟨more, rfl⟩ := hwhole
    rw [decode_whole (hgood c (by simp)) more max] at hidle
    cases hidle

/-! ## Receiving -/

theorem total_encode (capsules : List Capsule) :
    total (fun c : Capsule => c.encode.length) capsules = (capsules.flatMap Capsule.encode).length := by
  induction capsules with
  | nil => rfl
  | cons c cs ih => simp [ih]

theorem leftover_append (taken left : List Capsule) (n : Nat) :
    leftover (taken ++ left) ((taken.flatMap Capsule.encode).length + n) = leftover left n := by
  unfold leftover
  rw [← total_encode, fit_append, total_append]
  omega

theorem leftover_part {capsules : List Capsule} {n : Nat}
    (h : ∀ c ∈ capsules.head?, n < c.encode.length) : leftover capsules n = n := by
  rw [leftover, fit_eq_nil _ h]
  exact Nat.sub_zero n

/-- Only the octets that are not used yet count, and the capsules that they belong to. -/
theorem chunksFit_append {max : Nat} {taken left : List Capsule} {n : Nat} {chunks : List Bytes}
    (h : ChunksFit max (taken ++ left) ((taken.flatMap Capsule.encode).length + n) chunks) :
    ChunksFit max left n chunks := by
  induction chunks generalizing n with
  | nil => trivial
  | cons chunk chunks ih =>
    obtain ⟨hroom, hrest⟩ := h
    rw [leftover_append] at hroom
    rw [Nat.add_assoc] at hrest
    exact ⟨hroom, ih hrest⟩

theorem receive_from {capsules : List Capsule} {chunks : List Bytes} {kept : Bytes} {max : Nat}
    (hgood : ∀ c ∈ capsules, c.Encodable ∧ c.Acceptable)
    (hsplit : kept ++ chunks.flatten = capsules.flatMap Capsule.encode)
    (hpart : ∀ c ∈ capsules.head?, kept.length < c.encode.length)
    (hfit : ChunksFit max capsules kept.length chunks) :
    (⟨kept, max⟩ : CapsuleDecoder).receive chunks = .ok (capsules, ⟨[], max⟩) := by
  induction chunks generalizing capsules kept with
  | nil =>
    cases capsules with
    | nil =>
      obtain ⟨rfl, _⟩ := List.append_eq_nil_iff.1 hsplit
      rfl
    | cons c cs =>
      have hlen := congrArg List.length hsplit
      have := hpart c rfl
      simp only [List.flatten_nil, List.append_nil, List.flatMap_cons, List.length_append] at hlen
      omega
  | cons chunk chunks ih =>
    obtain ⟨hroom, hlater⟩ := hfit
    rw [leftover_part hpart] at hroom
    have hfeed : (⟨kept, max⟩ : CapsuleDecoder).feed chunk = .ok ⟨kept ++ chunk, max⟩ :=
      if_neg (by simp only; omega)
    rw [List.flatten_cons, ← List.append_assoc] at hsplit
    obtain ⟨taken, left, kept', rfl, hdrain, harrived, hkept', hpart'⟩ :=
      drain_arrived hgood max hsplit
    rw [← List.length_append, harrived, List.length_append] at hlater
    have hgood' : ∀ c ∈ left, c.Encodable ∧ c.Acceptable :=
      fun c hc => hgood c (List.mem_append_right taken hc)
    have hrest := ih hgood' hkept' hpart' (chunksFit_append hlater)
    rw [receive, hfeed]
    simp only [bind, Except.bind, hdrain, hrest, pure, Except.pure]

/-- Capsules that are encodable and that a peer accepts come back from any chunks of their
encodings that find room, in order and with nothing left; and each declares the length of the body
that follows. -/
theorem receive_encode {capsules : List Capsule}
    (hgood : ∀ c ∈ capsules, c.Encodable ∧ c.Acceptable) {chunks : List Bytes} {maxBufferSize : Nat}
    (hchunks : chunks.flatten = capsules.flatMap Capsule.encode)
    (hfit : ChunksFit maxBufferSize capsules 0 chunks) :
    (⟨[], maxBufferSize⟩ : CapsuleDecoder).receive chunks = .ok (capsules, ⟨[], maxBufferSize⟩) ∧
      ∀ c ∈ capsules, c.Declares := by
  constructor
  · apply receive_from hgood
    · exact hchunks
    · intro c hc
      have hc := hgood c (List.mem_of_mem_head? hc)
      exact List.length_pos_iff.2 (Capsule.encode_ne_nil hc.1 hc.2)
    · exact hfit
  · intro c hc
    exact Capsule.declares (hgood c hc).1

/-- Two capsules in three chunks, the second cut inside its type, with room for 12 octets. -/
theorem receive_encode_three :
    (⟨[], 12⟩ : CapsuleDecoder).receive
        [[0x99, 0x0b, 0x4d, 0x3d, 0x01, 0x07, 0x68], [0x43, 0x05, 0, 0], [0, 3, 0x78]] =
      .ok ([.wtMaxData 7, .wtCloseSession 3 "x"], ⟨[], 12⟩) ∧
    ∀ c ∈ [Capsule.wtMaxData 7, .wtCloseSession 3 "x"], c.Declares := by
  apply receive_encode
  · intro c hc
    simp only [List.mem_cons, List.not_mem_nil, or_false] at hc
    obtain rfl | rfl := hc
    · refine ⟨?_, trivial⟩
      intro value hvalue
      simp only [Capsule.parts, Capsule.header, List.cons_append, List.nil_append, List.mem_cons,
        Part.varint.injEq, List.not_mem_nil, or_false] at hvalue
      obtain rfl | rfl | rfl := hvalue <;> decide
    · refine ⟨?_, show (utf8 "x").length ≤ maxCloseReasonLen by decide⟩
      intro value hvalue
      simp only [Capsule.parts, Capsule.header, List.cons_append, List.nil_append, List.mem_cons,
        Part.varint.injEq, reduceCtorEq, List.not_mem_nil, or_false] at hvalue
      obtain rfl | rfl := hvalue <;> decide
  · decide
  · exact ⟨by decide, by decide, by decide, trivial⟩

end CapsuleDecoder

end Http2.WebTransport
