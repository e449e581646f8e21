import Http2.WebTransport.Codec

/-! How the capsule decoder tells a shortage of octets that ends with the next chunk from a payload
that is too short for its fields. -/
namespace Http2.WebTransport

open Lib Varint CapsuleType

/-! ## What the buffer holds -/

/-- The type, the length and the whole payload of a capsule are there. -/
def Complete (buf : Bytes) (capsuleType : Nat) (payload : Bytes) : Prop :=
  ∃ typeLen lenLen rest, Varint.decode buf = .ok (capsuleType, typeLen) ∧
    Varint.decode (buf.drop typeLen) = .ok (payload.length, lenLen) ∧
    buf.drop (typeLen + lenLen) = payload ++ rest

/-- Of so many numbers in a row, the octets end before or inside one. -/
def EndsInside : Nat → Bytes → Prop
  | 0, _ => False
  | _ + 1, [] => True
  | n + 1, first :: rest =>
    (first :: rest).length < announcedLen first ∨
      EndsInside n ((first :: rest).drop (announcedLen first))

/-- The numbers that the payload of a type begins with. -/
def numbers (capsuleType : Nat) : Nat :=
  if capsuleType = wtResetStream then 3
  else if capsuleType ∈ [wtStopSending, wtMaxStreamData, wtStreamDataBlocked] then 2
  else if capsuleType ∈ [wtStreamFin, wtStream, wtMaxData, wtMaxStreamsBidi, wtMaxStreamsUni,
    wtDataBlocked, wtStreamsBlockedBidi, wtStreamsBlockedUni] then 1
  else 0

/-- The error code of a WT_RESET_STREAM payload, its second number. -/
def resetErrorCode (payload : Bytes) : Option Nat :=
  match Varint.decode payload with
  | .ok (_, len) =>
    match Varint.decode (payload.drop len) with
    | .ok (errorCode, _) => some errorCode
    | .error _ => none
  | .error _ => none

/-- The payload ends before or inside one of its numbers, and no error code that is out of range
was read by then. -/
def Truncated (capsuleType : Nat) (payload : Bytes) : Prop :=
  EndsInside (numbers capsuleType) payload ∧
    (capsuleType = wtResetStream →
      ∀ errorCode, resetErrorCode payload = some errorCode → errorCode ≤ maxApplicationErrorCode)

/-! ## What the decoder owes -/

/-- An error that says the peer broke a rule. -/
def WtErrorKind.Definitive (kind : WtErrorKind) : Prop := kind = .capsuleDecode ∨ kind = .sessionStateError

/-- A complete capsule comes out or is a definitive error, and one that is not complete is waited
for with the buffer as it is. -/
def CapsuleDecoder.Settled (d : CapsuleDecoder) : Prop :=
  (∀ e, d.decode = .error e → e.kind ≠ .incomplete) ∧
  ((∃ capsuleType payload, Complete d.buffer capsuleType payload) →
    (∃ c d', d.decode = .ok (some (c, d'))) ∨ ∃ e, d.decode = .error e ∧ e.kind.Definitive) ∧
  ((¬ ∃ capsuleType payload, Complete d.buffer capsuleType payload) → d.decode = .ok none)

/-! ## Fields -/

/-- Reading fails for want of octets exactly when the payload is short. -/
structure Classifies {α : Type} (r : WtResult α) (short : Prop) : Prop where
  waits : short → r = .error .incomplete
  decides : ¬ short → ∀ e, r = .error e → e.kind.Definitive

section
variable {α β : Type} {short : Prop}

theorem classifies_ok (a : α) (hlong : ¬ short) : Classifies (.ok a : WtResult α) short :=
  ⟨fun h => absurd h hlong, fun _ e he => by cases he⟩

theorem classifies_error {e : WtError} (he : e.kind.Definitive) (hlong : ¬ short) :
    Classifies (.error e : WtResult α) short := by
  constructor
  · intro h
    exact absurd h hlong
  · rintro _ e' ⟨⟩
    exact he

theorem classifies_ite {p : Prop} [Decidable p] {a b : WtResult α} (ha : p → Classifies a short)
    (hb : ¬ p → Classifies b short) : Classifies (if p then a else b) short := by
  by_cases hp : p
  · rw [if_pos hp]
    exact ha hp
  · rw [if_neg hp]
    exact hb hp

theorem classifies_check {p : Prop} [Decidable p] {e : WtError} {f : Unit → WtResult β}
    (he : e.kind.Definitive) (hlong : ¬ p → ¬ short) (hf : p → Classifies (f ()) short) :
    Classifies (check p e >>= f) short := by
  by_cases hp : p
  · rw [check_pass hp]
    exact hf hp
  · rw [check, if_neg hp]
    exact classifies_error he (hlong hp)

theorem classifies_bind {m : WtResult α} {f : α → WtResult β} (hm : Classifies m short)
    (hf : ∀ a, m = .ok a → ¬ short → Classifies (f a) short) : Classifies (m >>= f) short := by
  cases m with
  | error e =>
    constructor
    · intro hshort
      cases hm.waits hshort
      rfl
    · rintro hlong e' ⟨⟩
      exact hm.decides hlong e rfl
  | ok a =>
    have hlong : ¬ short := fun hshort => by cases hm.waits hshort
    exact hf a rfl hlong

theorem endsInside_error {n : Nat} {p : Bytes} {e : WtError} (h : Varint.decode p = .error e) :
    EndsInside (n + 1) p := by
  cases p with
  | nil => trivial
  | cons first rest =>
    simp only [Varint.decode] at h
    split at h
    · rename_i hshort
      exact .inl hshort
    · cases h

theorem endsInside_ok {n v len : Nat} {p : Bytes} (h : Varint.decode p = .ok (v, len)) :
    EndsInside (n + 1) p ↔ EndsInside n (p.drop len) := by
  cases p with
  | nil => cases h
  | cons first rest =>
    simp only [Varint.decode] at h
    split at h
    · cases h
    · rename_i hlong
      cases h
      exact or_iff_right hlong

/-- The next number of a payload: without it the payload is short, and with it what follows tells. -/
theorem classifies_number {p : Bytes} {f : Nat × Nat → WtResult β}
    (hshort : ∀ e, Varint.decode p = .error e → short)
    (hf : ∀ v len, Varint.decode p = .ok (v, len) → Classifies (f (v, len)) short) :
    Classifies (Varint.decode p >>= f) short := by
  cases hp : Varint.decode p with
  | error e =>
    obtain rfl := decode_error hp
    exact ⟨fun _ => rfl, fun hlong => absurd (hshort _ hp) hlong⟩
  | ok r => exact hf r.1 r.2 hp

end

theorem decodeMaximum_classifies (p : Bytes) (trailing : String) :
    Classifies (decodeMaximum p trailing) (EndsInside 1 p) := by
  apply classifies_number
  · intro e he
    exact endsInside_error he
  · intro m len hm
    have hlong : ¬ EndsInside 1 p := by
      rw [endsInside_ok hm]
      exact id
    apply classifies_check (.inl rfl)
    · exact fun _ => hlong
    · exact fun _ => classifies_ok m hlong

theorem decodeStreamMaximum_classifies (p : Bytes) (trailing : String) :
    Classifies (decodeStreamMaximum p trailing) (EndsInside 2 p) := by
  apply classifies_number
  · intro e he
    exact endsInside_error he
  · intro sid len hsid
    rw [endsInside_ok hsid]
    apply classifies_number
    · intro e he
      exact endsInside_error he
    · intro m len' hm
      have hlong : ¬ EndsInside 1 (p.drop len) := by
        rw [endsInside_ok hm]
        exact id
      apply classifies_check (.inl rfl)
      · exact fun _ => hlong
      · exact fun _ => classifies_ok (sid, m) hlong

/-! ## Payloads -/

theorem truncated_iff {capsuleType n : Nat} (hreset : capsuleType ≠ wtResetStream)
    (hn : numbers capsuleType = n) (p : Bytes) : Truncated capsuleType p ↔ EndsInside n p := by
  rw [Truncated, hn]
  exact and_iff_left fun h => absurd h hreset

/-- The types whose payload is one number. -/
theorem maximum_classifies {capsuleType : Nat} (hreset : capsuleType ≠ wtResetStream)
    (hn : numbers capsuleType = 1) (make : Nat → Capsule) (p : Bytes) (trailing : String) :
    Classifies (do return make (← decodeMaximum p trailing)) (Truncated capsuleType p) := by
  rw [truncated_iff hreset hn]
  apply classifies_bind (decodeMaximum_classifies p trailing)
  intro m _ hlong
  exact classifies_ok (make m) hlong

/-- The types whose payload is a stream and a number. -/
theorem streamMaximum_classifies {capsuleType : Nat} (hreset : capsuleType ≠ wtResetStream)
    (hn : numbers capsuleType = 2) (make : Nat → Nat → Capsule) (p : Bytes) (trailing : String) :
    Classifies
      (do
        let (streamId, maximum) ← decodeStreamMaximum p trailing
        return make streamId maximum)
      (Truncated capsuleType p) := by
  rw [truncated_iff hreset hn]
  apply classifies_bind (decodeStreamMaximum_classifies p trailing)
  intro r _ hlong
  exact classifies_ok (make r.1 r.2) hlong

/-- The types without a number, whatever else may be wrong with the payload. -/
theorem long_of_numbers {capsuleType : Nat} (hreset : capsuleType ≠ wtResetStream)
    (hn : numbers capsuleType = 0) (p : Bytes) : ¬ Truncated capsuleType p := by
  rw [truncated_iff hreset hn]
  exact id

theorem wtResetStream_classifies (p : Bytes) :
    Classifies (decodePayload wtResetStream p) (Truncated wtResetStream p) := by
  have hcode : ∀ {sid len code len'}, Varint.decode p = .ok (sid, len) →
      Varint.decode (p.drop len) = .ok (code, len') → resetErrorCode p = some code := by
    intro sid len code len' hsid hcode
    simp only [resetErrorCode, hsid, hcode]
  have hnone : ∀ {code}, resetErrorCode p = some code →
      ∃ sid len len', Varint.decode p = .ok (sid, len) ∧
        Varint.decode (p.drop len) = .ok (code, len') := by
    intro code h
    unfold resetErrorCode at h
    split at h
    · rename_i hsid
      split at h
      · rename_i hread
        cases h
        exact ⟨_, _, _, hsid, hread⟩
      · cases h
    · cases h
  apply classifies_number
  · intro e he
    refine ⟨endsInside_error he, ?_⟩
    intro _ code h
    obtain ⟨_, _, _, hsid, _⟩ := hnone h
    rw [he] at hsid
    cases hsid
  intro sid len hsid
  apply classifies_number
  · intro e he
    refine ⟨(endsInside_ok hsid).2 (endsInside_error he), ?_⟩
    intro _ code h
    obtain ⟨_, _, _, hsid', hread⟩ := hnone h
    rw [hsid] at hsid'
    cases hsid'
    rw [he] at hread
    cases hread
  intro code len' hread
  apply classifies_check (.inr rfl)
  · intro hlarge hshort
    exact hlarge (hshort.2 rfl code (hcode hsid hread))
  intro hmax
  have hrest : EndsInside 3 p ↔ EndsInside 1 (p.drop (len + len')) := by
    rw [endsInside_ok hsid, endsInside_ok hread, List.drop_drop]
  apply classifies_number
  · intro e he
    refine ⟨hrest.2 (endsInside_error he), ?_⟩
    intro _ code' h
    rw [hcode hsid hread] at h
    cases h
    exact hmax
  intro size len'' hsize
  have hlong : ¬ Truncated wtResetStream p := by
    rintro ⟨hends, _⟩
    exact (endsInside_ok hsize).1 (hrest.1 hends)
  apply classifies_check (.inl rfl)
  · exact fun _ => hlong
  · exact fun _ => classifies_ok _ hlong

theorem wtStopSending_classifies (p : Bytes) :
    Classifies (decodePayload wtStopSending p) (Truncated wtStopSending p) := by
  rw [truncated_iff (n := 2) (by decide) (by decide)]
  apply classifies_number
  · intro e he
    exact endsInside_error he
  intro sid len hsid
  rw [endsInside_ok hsid]
  apply classifies_number
  · intro e he
    exact endsInside_error he
  intro code len' hread
  have hlong : ¬ EndsInside 1 (p.drop len) := by
    rw [endsInside_ok hread]
    exact id
  apply classifies_check (.inr rfl)
  · exact fun _ => hlong
  intro _
  apply classifies_check (.inl rfl)
  · exact fun _ => hlong
  · exact fun _ => classifies_ok _ hlong

theorem wtStream_classifies {capsuleType : Nat} (h : capsuleType = wtStream ∨ capsuleType = wtStreamFin)
    (p : Bytes) : Classifies (decodePayload capsuleType p) (Truncated capsuleType p) := by
  have hkind : capsuleType ≠ wtResetStream ∧ numbers capsuleType = 1 := by
    obtain rfl | rfl := h <;> decide
  have hpayload : decodePayload capsuleType p = (do
      let (streamId, len) ← Varint.decode p
      return .wtStream streamId (p.drop len) (capsuleType == wtStreamFin)) := by
    obtain rfl | rfl := h <;> rfl
  rw [truncated_iff hkind.1 hkind.2, hpayload]
  apply classifies_number
  · intro e he
    exact endsInside_error he
  intro sid len hsid
  apply classifies_ok
  rw [endsInside_ok hsid]
  exact id

theorem wtCloseSession_classifies (p : Bytes) :
    Classifies (decodePayload wtCloseSession p) (Truncated wtCloseSession p) := by
  have hlong := @long_of_numbers wtCloseSession (by decide) (by decide) p
  rw [decodePayload_closeSession]
  apply classifies_ite (fun _ => classifies_error (.inl rfl) hlong)
  intro _
  apply classifies_ite (fun _ => classifies_error (.inr rfl) hlong)
  intro _
  apply classifies_ite (fun _ => ?_) (fun _ => classifies_ok _ hlong)
  cases fromUtf8 (p.drop 4) with
  | some reason => exact classifies_ok _ hlong
  | none => exact classifies_error (.inr rfl) hlong

/-- A shortage in a payload is told from everything else by its type and its octets. -/
theorem decodePayload_classifies (capsuleType : Nat) (p : Bytes) :
    Classifies (decodePayload capsuleType p) (Truncated capsuleType p) := by
  by_cases hreset : capsuleType = wtResetStream
  · rw [hreset]
    exact wtResetStream_classifies p
  by_cases hstop : capsuleType = wtStopSending
  · rw [hstop]
    exact wtStopSending_classifies p
  by_cases hstream : capsuleType = wtStream ∨ capsuleType = wtStreamFin
  · exact wtStream_classifies hstream p
  by_cases hclose : capsuleType = wtCloseSession
  · rw [hclose]
    exact wtCloseSession_classifies p
  have hplain : ∀ {t}, t ≠ wtResetStream → numbers t = 0 → ¬ Truncated t p :=
    fun hne hn => long_of_numbers hne hn p
  unfold decodePayload
  rw [if_neg hreset, if_neg hstop, if_neg hstream, if_neg hclose]
  -- the other types, in the order of the source
  apply classifies_ite
  · rintro rfl
    exact classifies_ok _ (hplain hreset (by decide))
  intro hdatagram
  apply classifies_ite
  · rintro rfl
    exact classifies_ok _ (hplain hreset (by decide))
  intro hpadding
  apply classifies_ite
  · rintro rfl
    exact maximum_classifies hreset (by decide) .wtMaxData p _
  intro hmaxData
  apply classifies_ite
  · rintro rfl
    exact streamMaximum_classifies hreset (by decide) .wtMaxStreamData p _
  intro hmaxStreamData
  apply classifies_ite
  · rintro rfl
    exact maximum_classifies hreset (by decide) (.wtMaxStreams · true) p _
  intro hmaxBidi
  apply classifies_ite
  · rintro rfl
    exact maximum_classifies hreset (by decide) (.wtMaxStreams · false) p _
  intro hmaxUni
  apply classifies_ite
  · rintro rfl
    exact maximum_classifies hreset (by decide) .wtDataBlocked p _
  intro hdataBlocked
  apply classifies_ite
  · rintro rfl
    exact streamMaximum_classifies hreset (by decide) .wtStreamDataBlocked p _
  intro hstreamDataBlocked
  apply classifies_ite
  · rintro rfl
    exact maximum_classifies hreset (by decide) (.wtStreamsBlocked · true) p _
  intro hblockedBidi
  apply classifies_ite
  · rintro rfl
    exact maximum_classifies hreset (by decide) (.wtStreamsBlocked · false) p _
  intro hblockedUni
  have hnone : numbers capsuleType = 0 := by
    obtain ⟨hwtStream, hwtStreamFin⟩ := not_or.1 hstream
    simp [numbers, hreset, hstop, hwtStream, hwtStreamFin, hmaxData, hmaxStreamData, hmaxBidi,
      hmaxUni, hdataBlocked, hstreamDataBlocked, hblockedBidi, hblockedUni]
  apply classifies_ite
  · intro _
    apply classifies_ite
    · exact fun _ => classifies_ok _ (hplain hreset hnone)
    · exact fun _ => classifies_error (.inl rfl) (hplain hreset hnone)
  · exact fun _ => classifies_ok _ (hplain hreset hnone)

/-! ## The buffer -/

theorem awaitVarint_error {buf : Bytes} {e : WtError} (h : Varint.decode buf = .error e) :
    awaitVarint buf = .ok none := by
  obtain rfl := decode_error h
  simp only [awaitVarint, h]
  rfl

theorem awaitVarint_value {buf : Bytes} {r : Nat × Nat} (h : Varint.decode buf = .ok r) :
    awaitVarint buf = .ok (some r) := by
  simp only [awaitVarint, h]

theorem parseCapsule_complete {buf payload : Bytes} {capsuleType : Nat}
    (h : Complete buf capsuleType payload) :
    ∃ n, parseCapsule buf = (decodePayload capsuleType payload).map fun c => some (c, n) := by
  obtain ⟨typeLen, lenLen, rest, htype, hlen, hpayload⟩ := h
  have hne : buf ≠ [] := by
    rintro rfl
    cases htype
  have hlenLen := decode_bounds hlen
  rw [List.length_drop] at hlenLen
  have hgo : ¬ typeLen ≥ buf.length := by omega
  have hroom := congrArg List.length hpayload
  rw [List.length_drop, List.length_append] at hroom
  have hwhole : ¬ buf.length < typeLen + lenLen + payload.length := by omega
  refine ⟨typeLen + lenLen + payload.length, ?_⟩
  simp only [parseCapsule, if_neg hne, awaitVarint_value htype, if_neg hgo, awaitVarint_value hlen,
    if_neg hwhole, hpayload, List.take_left, bind, Except.bind, pure, Except.pure, Except.map]

theorem parseCapsule_none {buf : Bytes} (h : ¬ ∃ capsuleType payload, Complete buf capsuleType payload) :
    parseCapsule buf = .ok none := by
  unfold parseCapsule
  by_cases hne : buf = []
  · rw [if_pos hne]
    rfl
  rw [if_neg hne]
  cases htype : Varint.decode buf with
  | error e =>
    rw [awaitVarint_error htype]
    rfl
  | ok r =>
    obtain ⟨capsuleType, typeLen⟩ := r
    rw [awaitVarint_value htype]
    by_cases hgo : typeLen ≥ buf.length
    · simp [hgo, bind, Except.bind, pure, Except.pure]
    cases hlen : Varint.decode (buf.drop typeLen) with
    | error e =>
      simp [hgo, awaitVarint_error hlen, bind, Except.bind, pure, Except.pure]
    | ok r =>
      obtain ⟨payloadLen, lenLen⟩ := r
      have hshort : buf.length < typeLen + lenLen + payloadLen := by
        by_contra hroom
        apply h
        refine ⟨capsuleType, (buf.drop (typeLen + lenLen)).take payloadLen, typeLen, lenLen,
          (buf.drop (typeLen + lenLen)).drop payloadLen, htype, ?_, ?_⟩
        · have hlength : ((buf.drop (typeLen + lenLen)).take payloadLen).length = payloadLen := by
            rw [List.length_take, List.length_drop]
            omega
          rw [hlength]
          exact hlen
        · exact (List.take_append_drop _ _).symm
      simp [hgo, awaitVarint_value hlen, hshort, bind, Except.bind, pure, Except.pure]

namespace CapsuleDecoder

/-- The decoder does what it owes exactly when the buffer holds no complete capsule whose payload is
too short for its numbers. -/
theorem settled_iff (d : CapsuleDecoder) :
    d.Settled ↔ ∀ capsuleType payload, Complete d.buffer capsuleType payload →
      ¬ Truncated capsuleType payload := by
  constructor
  · rintro ⟨hkind, _, _⟩ capsuleType payload hcomplete htruncated
    obtain ⟨n, hparse⟩ := parseCapsule_complete hcomplete
    rw [(decodePayload_classifies capsuleType payload).waits htruncated] at hparse
    have hdecode : d.decode = .error .incomplete := by
      rw [decode, hparse]
      rfl
    exact hkind _ hdecode rfl
  · intro hlong
    by_cases hcomplete : ∃ capsuleType payload, Complete d.buffer capsuleType payload
    · obtain ⟨capsuleType, payload, h⟩ := hcomplete
      obtain ⟨n, hparse⟩ := parseCapsule_complete h
      have hdecides := (decodePayload_classifies capsuleType payload).decides (hlong _ _ h)
      cases hresult : decodePayload capsuleType payload with
      | ok c =>
        have hdecode : d.decode = .ok (some (c, { d with buffer := d.buffer.drop n })) := by
          rw [decode, hparse, hresult]
          rfl
        refine ⟨?_, fun _ => .inl ⟨_, _, hdecode⟩, fun hno => absurd ⟨_, _, h⟩ hno⟩
        intro e he
        rw [hdecode] at he
        cases he
      | error e =>
        have hdecode : d.decode = .error e := by
          rw [decode, hparse, hresult]
          rfl
        have hdefinitive := hdecides e hresult
        refine ⟨?_, fun _ => .inr ⟨e, hdecode, hdefinitive⟩, fun hno => absurd ⟨_, _, h⟩ hno⟩
        intro e' he
        rw [hdecode] at he
        cases he
        obtain hkind | hkind := hdefinitive <;> simp [hkind]
    · have hdecode : d.decode = .ok none := by
        rw [decode, parseCapsule_none hcomplete]
        rfl
      refine ⟨?_, fun h => absurd h hcomplete, fun _ => hdecode⟩
      intro e he
      rw [hdecode] at he
      cases he

/-- WT_MAX_DATA with an empty payload is complete and yet reported as incomplete. -/
theorem not_settled : ¬ ∀ d : CapsuleDecoder, d.Settled := by
  intro h
  have hkind := (h ⟨[0x99, 0x0b, 0x4d, 0x3d, 0x00], defaultMaxBufferSize⟩).1
  exact hkind .incomplete (by rfl) rfl

end CapsuleDecoder

end Http2.WebTransport
