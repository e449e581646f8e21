import Http2.Lib.Prog
import Http2.WebTransport.Capsule

/-! What the capsule decoder makes of what the capsule encoder wrote: each capsule reads back from
the front of any longer input, and a part of one only waits for the rest. -/
namespace Http2.WebTransport

open Lib Lib.BigEndian Varint

namespace Capsule

/-- What a capsule must satisfy for the decoder of the peer to take it, beside being encodable. -/
def Acceptable : Capsule → Prop
  | wtResetStream _ errorCode _ | wtStopSending _ errorCode => errorCode ≤ maxApplicationErrorCode
  | wtCloseSession _ reason => (utf8 reason).length ≤ maxCloseReasonLen
  | unknown capsuleType _ => capsuleType ∉ CapsuleType.known
  | _ => True

end Capsule

theorem check_pass {p : Prop} [Decidable p] {e : WtError} (hp : p) : check p e = .ok () := if_pos hp

theorem check_ok {p : Prop} [Decidable p] {e : WtError} {u : Unit} (h : check p e = .ok u) : p := by
  unfold check at h
  split at h
  · assumption
  · cases h

theorem decodeMaximum_bytes {m : Nat} (h : m ≤ maxValue) (trailing : String) :
    decodeMaximum (Varint.bytes m) trailing = .ok m := by
  have hdec := decode_bytes h []
  rw [List.append_nil] at hdec
  simp [decodeMaximum, hdec, length_bytes h, check_pass, bind, Except.bind, pure, Except.pure]

theorem decodeStreamMaximum_bytes {sid m : Nat} (hsid : sid ≤ maxValue) (hm : m ≤ maxValue)
    (trailing : String) :
    decodeStreamMaximum (Varint.bytes sid ++ Varint.bytes m) trailing = .ok (sid, m) := by
  have hdec := decode_bytes hm []
  rw [List.append_nil] at hdec
  simp [decodeStreamMaximum, decode_bytes hsid, drop_bytes hsid, hdec, length_bytes hsid,
    length_bytes hm, check_pass, bind, Except.bind, pure, Except.pure]

section Shape

open CapsuleType

theorem decodePayload_wtResetStream {sid code size : Nat} (hsid : sid ≤ maxValue)
    (hcode : code ≤ maxValue) (hsize : size ≤ maxValue) (hmax : code ≤ maxApplicationErrorCode) :
    decodePayload wtResetStream
        (Varint.bytes sid ++ (Varint.bytes code ++ Varint.bytes size)) =
      .ok (.wtResetStream sid code size) := by
  have hdec := decode_bytes hsize []
  rw [List.append_nil] at hdec
  have hdrop : (Varint.bytes sid ++ (Varint.bytes code ++ Varint.bytes size)).drop
      (encodedLen sid + encodedLen code) = Varint.bytes size := by
    rw [← List.drop_drop, drop_bytes hsid, drop_bytes hcode]
  have htotal : encodedLen sid + encodedLen code + encodedLen size =
      encodedLen sid + (encodedLen code + encodedLen size) := by omega
  simp [decodePayload, datagram, padding, wtResetStream, decode_bytes hsid, drop_bytes hsid,
    decode_bytes hcode, hdrop, hdec, check_pass, hmax, length_bytes hsid, length_bytes hcode,
    length_bytes hsize, htotal, bind, Except.bind, pure, Except.pure]

theorem decodePayload_wtStopSending {sid code : Nat} (hsid : sid ≤ maxValue)
    (hcode : code ≤ maxValue) (hmax : code ≤ maxApplicationErrorCode) :
    decodePayload wtStopSending (Varint.bytes sid ++ Varint.bytes code) =
      .ok (.wtStopSending sid code) := by
  have hdec := decode_bytes hcode []
  rw [List.append_nil] at hdec
  simp [decodePayload, datagram, padding, wtResetStream, wtStopSending, decode_bytes hsid,
    drop_bytes hsid, hdec, check_pass, hmax, length_bytes hsid, length_bytes hcode, bind, Except.bind, pure,
    Except.pure]

theorem decodePayload_wtStream {sid : Nat} (hsid : sid ≤ maxValue) (data : Bytes) (fin : Bool) :
    decodePayload (if fin then wtStreamFin else wtStream) (Varint.bytes sid ++ data) =
      .ok (.wtStream sid data fin) := by
  cases fin <;>
    simp [decodePayload, datagram, padding, wtResetStream, wtStopSending, wtStream, wtStreamFin,
      decode_bytes hsid, drop_bytes hsid, bind, Except.bind, pure, Except.pure]

theorem decodePayload_closeSession (payload : Bytes) :
    decodePayload wtCloseSession payload =
      if payload.length < 4 then .error (.capsuleDecode "WT_CLOSE_SESSION payload too short")
      else if payload.length - 4 > maxCloseReasonLen then
        .error (.sessionStateError "WT_CLOSE_SESSION reason exceeds 1024 bytes")
      else if payload.length > 4 then
        match fromUtf8 (payload.drop 4) with
        | some reason => .ok (.wtCloseSession (UInt32.ofNat (ofBe (payload.take 4))) reason)
        | none => .error (.sessionStateError "invalid UTF-8 in close reason")
      else .ok (.wtCloseSession (UInt32.ofNat (ofBe (payload.take 4))) "") := rfl

theorem decodePayload_wtCloseSession (errorCode : UInt32) {reason : String}
    (hlen : (utf8 reason).length ≤ maxCloseReasonLen) :
    decodePayload wtCloseSession (toBe 4 errorCode.toNat ++ utf8 reason) =
      .ok (.wtCloseSession errorCode reason) := by
  have hcode : UInt32.ofNat (ofBe (toBe 4 errorCode.toNat)) = errorCode := by
    rw [ofBe_toBe_of_lt errorCode.toNat_lt, UInt32.ofNat_toNat]
  have hshort : ¬ maxCloseReasonLen < (utf8 reason).length := by omega
  have htake : (toBe 4 errorCode.toNat ++ utf8 reason).take 4 = toBe 4 errorCode.toNat :=
    List.take_left' (length_toBe ..)
  have hdrop : (toBe 4 errorCode.toNat ++ utf8 reason).drop 4 = utf8 reason :=
    List.drop_left' (length_toBe ..)
  by_cases hempty : utf8 reason = []
  · have hreason : reason = "" := by
      have hback := fromUtf8_utf8 reason
      rw [hempty] at hback
      exact (Option.some.inj hback).symm
    subst hreason
    rw [hempty, List.append_nil] at htake
    rw [decodePayload_closeSession]
    simp [hempty, htake, hcode]
  · have hpos : 0 < (utf8 reason).length := List.length_pos_iff.2 hempty
    rw [decodePayload_closeSession]
    simp [hpos, hshort, htake, hdrop, hcode, fromUtf8_utf8]

/-- The types whose payload is one number. -/
theorem decodePayload_maximum {capsuleType : Nat} {make : Nat → Capsule} {trailing : String}
    (htype : ∀ payload, decodePayload capsuleType payload =
      (do return make (← decodeMaximum payload trailing))) {m : Nat} (hm : m ≤ maxValue) :
    decodePayload capsuleType (Varint.bytes m) = .ok (make m) := by
  rw [htype, decodeMaximum_bytes hm]
  rfl

/-- The types whose payload is a stream and a number. -/
theorem decodePayload_streamMaximum {capsuleType : Nat} {make : Nat → Nat → Capsule}
    {trailing : String}
    (htype : ∀ payload, decodePayload capsuleType payload =
      (do
        let (streamId, maximum) ← decodeStreamMaximum payload trailing
        return make streamId maximum))
    {sid m : Nat} (hsid : sid ≤ maxValue) (hm : m ≤ maxValue) :
    decodePayload capsuleType (Varint.bytes sid ++ Varint.bytes m) = .ok (make sid m) := by
  rw [htype, decodeStreamMaximum_bytes hsid hm]
  rfl

theorem decodePayload_unknown {capsuleType : Nat} (h : capsuleType ∉ known) (payload : Bytes) :
    decodePayload capsuleType payload = .ok (.unknown capsuleType payload) := by
  simp only [known, List.mem_cons, List.not_mem_nil, or_false, not_or] at h
  simp [decodePayload, h]

/-- An encoding is a type, a length and a payload of that length that decodes to the capsule. -/
def Capsule.Shaped (c : Capsule) : Prop :=
  ∃ capsuleType payload, c.encode =
      Varint.bytes capsuleType ++ (Varint.bytes payload.length ++ payload) ∧
    capsuleType ≤ maxValue ∧ payload.length ≤ maxValue ∧
    decodePayload capsuleType payload = .ok c

theorem shape_maximum {capsuleType m : Nat} {make : Nat → Capsule} {trailing : String}
    (hparts : (make m).parts = Capsule.header capsuleType (encodedLen m) ++ [.varint m])
    (htype : capsuleType ≤ maxValue) (henc : (make m).Encodable)
    (hdec : ∀ payload, decodePayload capsuleType payload =
      (do return make (← decodeMaximum payload trailing))) : (make m).Shaped := by
  have hm := henc m (by simp [hparts])
  have hlen := length_bytes hm
  refine ⟨capsuleType, Varint.bytes m, ?_, htype, ?_, decodePayload_maximum hdec hm⟩
  · simp [Capsule.encode, hparts, Capsule.header, Part.bytes, hlen]
  · rw [hlen]
    exact henc _ (by simp [hparts, Capsule.header])

theorem shape_streamMaximum {capsuleType sid m : Nat} {make : Nat → Nat → Capsule}
    {trailing : String}
    (hparts : (make sid m).parts =
      Capsule.header capsuleType (encodedLen sid + encodedLen m) ++ [.varint sid, .varint m])
    (htype : capsuleType ≤ maxValue) (henc : (make sid m).Encodable)
    (hdec : ∀ payload, decodePayload capsuleType payload =
      (do
        let (streamId, maximum) ← decodeStreamMaximum payload trailing
        return make streamId maximum)) : (make sid m).Shaped := by
  have hsid := henc sid (by simp [hparts])
  have hm := henc m (by simp [hparts])
  have hlen : (Varint.bytes sid ++ Varint.bytes m).length = encodedLen sid + encodedLen m := by
    simp only [List.length_append, length_bytes hsid, length_bytes hm]
  refine ⟨capsuleType, _, ?_, htype, ?_, decodePayload_streamMaximum hdec hsid hm⟩
  · simp only [Capsule.encode, hparts, Capsule.header, Part.bytes, List.flatMap_cons,
      List.flatMap_nil, List.cons_append, List.nil_append, List.append_nil, hlen]
  · rw [hlen]
    exact henc _ (by simp [hparts, Capsule.header])

theorem Capsule.shaped {c : Capsule} (henc : c.Encodable) (hacc : c.Acceptable) : c.Shaped := by
  cases c with
  | datagram data =>
    refine ⟨CapsuleType.datagram, data, ?_, by decide, henc _ (by simp [parts, header]), ?_⟩
    · simp [encode, parts, header, Part.bytes]
    · simp [decodePayload]
  | padding length =>
    refine ⟨CapsuleType.padding, List.replicate length 0, ?_, by decide, ?_, ?_⟩
    · simp [encode, parts, header, Part.bytes]
    · rw [List.length_replicate]
      exact henc _ (by simp [parts, header])
    · simp [decodePayload, CapsuleType.datagram, CapsuleType.padding]
  | wtResetStream sid code size =>
    have hsid := henc sid (by simp [parts, header])
    have hcode := henc code (by simp [parts, header])
    have hsize := henc size (by simp [parts, header])
    have hlen : (Varint.bytes sid ++ (Varint.bytes code ++ Varint.bytes size)).length =
        encodedLen sid + encodedLen code + encodedLen size := by
      simp only [List.length_append, length_bytes hsid, length_bytes hcode, length_bytes hsize]
      omega
    refine ⟨CapsuleType.wtResetStream, _, ?_, by decide, ?_,
      decodePayload_wtResetStream hsid hcode hsize hacc⟩
    · simp only [encode, parts, header, Part.bytes, List.flatMap_cons, List.flatMap_nil,
        List.cons_append, List.nil_append, List.append_nil, hlen]
    · rw [hlen]
      exact henc _ (by simp [parts, header])
  | wtStopSending sid code =>
    have hsid := henc sid (by simp [parts, header])
    have hcode := henc code (by simp [parts, header])
    have hlen : (Varint.bytes sid ++ Varint.bytes code).length =
        encodedLen sid + encodedLen code := by
      simp only [List.length_append, length_bytes hsid, length_bytes hcode]
    refine ⟨CapsuleType.wtStopSending, _, ?_, by decide, ?_,
      decodePayload_wtStopSending hsid hcode hacc⟩
    · simp only [encode, parts, header, Part.bytes, List.flatMap_cons, List.flatMap_nil,
        List.cons_append, List.nil_append, List.append_nil, hlen]
    · rw [hlen]
      exact henc _ (by simp [parts, header])
  | wtStream sid data fin =>
    have hsid := henc sid (by simp [parts, header])
    have hlen : (Varint.bytes sid ++ data).length = encodedLen sid + data.length := by
      simp only [List.length_append, length_bytes hsid]
    refine ⟨if fin then wtStreamFin else CapsuleType.wtStream, _, ?_, ?_, ?_,
      decodePayload_wtStream hsid data fin⟩
    · simp only [encode, parts, header, Part.bytes, List.flatMap_cons, List.flatMap_nil,
        List.cons_append, List.nil_append, List.append_nil, hlen]
    · cases fin <;> decide
    · rw [hlen]
      exact henc _ (by simp [parts, header])
  | wtMaxData m =>
    exact @shape_maximum CapsuleType.wtMaxData m .wtMaxData _ rfl (by decide) henc fun _ => rfl
  | wtDataBlocked m =>
    exact @shape_maximum CapsuleType.wtDataBlocked m .wtDataBlocked _ rfl (by decide) henc
      fun _ => rfl
  | wtMaxStreams m bidirectional =>
    cases bidirectional
    · exact @shape_maximum wtMaxStreamsUni m (.wtMaxStreams · false) _ rfl (by decide) henc
        fun _ => rfl
    · exact @shape_maximum wtMaxStreamsBidi m (.wtMaxStreams · true) _ rfl (by decide) henc
        fun _ => rfl
  | wtStreamsBlocked m bidirectional =>
    cases bidirectional
    · exact @shape_maximum wtStreamsBlockedUni m (.wtStreamsBlocked · false) _ rfl (by decide) henc
        fun _ => rfl
    · exact @shape_maximum wtStreamsBlockedBidi m (.wtStreamsBlocked · true) _ rfl (by decide) henc
        fun _ => rfl
  | wtMaxStreamData sid m =>
    exact @shape_streamMaximum CapsuleType.wtMaxStreamData sid m .wtMaxStreamData _ rfl (by decide)
      henc fun _ => rfl
  | wtStreamDataBlocked sid m =>
    exact @shape_streamMaximum CapsuleType.wtStreamDataBlocked sid m .wtStreamDataBlocked _ rfl
      (by decide) henc fun _ => rfl
  | wtCloseSession code reason =>
    have hlen : (toBe 4 code.toNat ++ utf8 reason).length = 4 + (utf8 reason).length := by
      rw [List.length_append, length_toBe]
    refine ⟨CapsuleType.wtCloseSession, _, ?_, by decide, ?_,
      decodePayload_wtCloseSession code hacc⟩
    · simp only [encode, parts, header, Part.bytes, List.flatMap_cons, List.flatMap_nil,
        List.cons_append, List.nil_append, List.append_nil, hlen]
    · rw [hlen]
      exact henc _ (by simp [parts, header])
  | wtDrainSession =>
    refine ⟨CapsuleType.wtDrainSession, [], ?_, by decide, by simp, rfl⟩
    simp [encode, parts, header, Part.bytes]
  | unknown capsuleType data =>
    refine ⟨capsuleType, data, ?_, henc _ (by simp [parts, header]),
      henc _ (by simp [parts, header]), decodePayload_unknown hacc data⟩
    simp [encode, parts, header, Part.bytes]

end Shape

/-! ## The front of a buffer -/

theorem awaitVarint_bytes {n : Nat} (h : n ≤ maxValue) (rest : Bytes) :
    awaitVarint (Varint.bytes n ++ rest) = .ok (some (n, encodedLen n)) := by
  unfold awaitVarint
  rw [decode_bytes h]

theorem awaitVarint_cut {n : Nat} {cut : Bytes} (h : n ≤ maxValue)
    (hcut : cut <+: Varint.bytes n) (hshort : cut.length < (Varint.bytes n).length) :
    awaitVarint cut = .ok none := by
  unfold awaitVarint
  rw [decode_cut h hcut hshort]
  rfl

theorem parseCapsule_framed {capsuleType : Nat} {payload : Bytes} (htype : capsuleType ≤ maxValue)
    (hlen : payload.length ≤ maxValue) (rest : Bytes) :
    parseCapsule (Varint.bytes capsuleType ++ (Varint.bytes payload.length ++ (payload ++ rest))) =
      (decodePayload capsuleType payload).map fun c =>
        some (c, encodedLen capsuleType + encodedLen payload.length + payload.length) := by
  have hne : Varint.bytes capsuleType ++ (Varint.bytes payload.length ++ (payload ++ rest)) ≠ [] := by
    obtain ⟨first, tail, heq, -⟩ := bytes_spec htype
    simp [heq]
  have hpos := encodedLen_pos payload.length
  have hgo : ¬ encodedLen capsuleType ≥
      (Varint.bytes capsuleType ++ (Varint.bytes payload.length ++ (payload ++ rest))).length := by
    simp only [List.length_append, length_bytes htype, length_bytes hlen]
    omega
  have hwhole : ¬ (Varint.bytes capsuleType ++
        (Varint.bytes payload.length ++ (payload ++ rest))).length <
      encodedLen capsuleType + encodedLen payload.length + payload.length := by
    simp only [List.length_append, length_bytes htype, length_bytes hlen]
    omega
  have hpayload : ((Varint.bytes capsuleType ++ (Varint.bytes payload.length ++ (payload ++ rest))).drop
      (encodedLen capsuleType + encodedLen payload.length)).take payload.length = payload := by
    rw [← List.drop_drop, drop_bytes htype, drop_bytes hlen, List.take_left]
  simp only [parseCapsule, hne, if_false, awaitVarint_bytes htype, drop_bytes htype, hgo,
    awaitVarint_bytes hlen, hwhole, hpayload, bind, Except.bind, pure, Except.pure, Except.map]

theorem parseCapsule_framed_cut {capsuleType : Nat} {payload cut : Bytes}
    (htype : capsuleType ≤ maxValue) (hlen : payload.length ≤ maxValue)
    (hcut : cut <+: Varint.bytes capsuleType ++ (Varint.bytes payload.length ++ payload))
    (hshort : cut.length < encodedLen capsuleType + encodedLen payload.length + payload.length) :
    parseCapsule cut = .ok none := by
  by_cases hnil : cut = []
  · subst hnil
    rfl
  by_cases h1 : cut.length < (Varint.bytes capsuleType).length
  · have hpre : cut <+: Varint.bytes capsuleType :=
      List.prefix_of_prefix_length_le hcut (List.prefix_append ..) (Nat.le_of_lt h1)
    simp only [parseCapsule, hnil, if_false, awaitVarint_cut htype hpre h1, bind, Except.bind,
      pure, Except.pure]
  obtain ⟨cut', rfl⟩ : Varint.bytes capsuleType <+: cut :=
    List.prefix_of_prefix_length_le (List.prefix_append ..) hcut (by omega)
  have hcut' : cut' <+: Varint.bytes payload.length ++ payload :=
    (List.prefix_append_right_inj _).1 hcut
  by_cases h2 : encodedLen capsuleType ≥ (Varint.bytes capsuleType ++ cut').length
  · simp only [parseCapsule, hnil, if_false, awaitVarint_bytes htype, h2, if_true, bind,
      Except.bind, pure, Except.pure]
  by_cases h3 : cut'.length < (Varint.bytes payload.length).length
  · have hpre : cut' <+: Varint.bytes payload.length :=
      List.prefix_of_prefix_length_le hcut' (List.prefix_append ..) (Nat.le_of_lt h3)
    simp only [parseCapsule, hnil, if_false, awaitVarint_bytes htype, h2, drop_bytes htype,
      awaitVarint_cut hlen hpre h3, bind, Except.bind, pure, Except.pure]
  obtain ⟨cut'', rfl⟩ : Varint.bytes payload.length <+: cut' :=
    List.prefix_of_prefix_length_le (List.prefix_append ..) hcut' (by omega)
  have h4 : (Varint.bytes capsuleType ++ (Varint.bytes payload.length ++ cut'')).length <
      encodedLen capsuleType + encodedLen payload.length + payload.length := hshort
  simp only [parseCapsule, hnil, if_false, awaitVarint_bytes htype, h2, drop_bytes htype,
    awaitVarint_bytes hlen, h4, if_true, bind, Except.bind, pure, Except.pure]

/-- A whole capsule at the front of the buffer is what the decoder finds there. -/
theorem parseCapsule_encode {c : Capsule} (henc : c.Encodable) (hacc : c.Acceptable)
    (rest : Bytes) : parseCapsule (c.encode ++ rest) = .ok (some (c, c.encode.length)) := by
  obtain ⟨capsuleType, payload, heq, htype, hlen, hdec⟩ := Capsule.shaped henc hacc
  have hframed := parseCapsule_framed htype hlen rest
  rw [hdec] at hframed
  rw [heq, List.append_assoc, List.append_assoc, hframed]
  simp only [Except.map, List.length_append, length_bytes htype, length_bytes hlen, Nat.add_assoc]

/-- A part of one is not. -/
theorem parseCapsule_cut {c : Capsule} (henc : c.Encodable) (hacc : c.Acceptable) {cut : Bytes}
    (hcut : cut <+: c.encode) (hshort : cut.length < c.encode.length) :
    parseCapsule cut = .ok none := by
  obtain ⟨capsuleType, payload, heq, htype, hlen, -⟩ := Capsule.shaped henc hacc
  rw [heq] at hcut hshort
  refine parseCapsule_framed_cut htype hlen hcut ?_
  simpa only [List.length_append, length_bytes htype, length_bytes hlen, Nat.add_assoc]
    using hshort

theorem Capsule.encode_ne_nil {c : Capsule} (henc : c.Encodable) (hacc : c.Acceptable) :
    c.encode ≠ [] := by
  obtain ⟨capsuleType, payload, heq, htype, -, -⟩ := Capsule.shaped henc hacc
  obtain ⟨first, tail, hfirst, -⟩ := bytes_spec htype
  simp [heq, hfirst]

theorem awaitVarint_ok {buf : Bytes} {v n : Nat} (h : awaitVarint buf = .ok (some (v, n))) :
    1 ≤ n ∧ v ≤ maxValue := by
  unfold awaitVarint at h
  split at h
  · rename_i r hr
    obtain rfl := Option.some.inj (Except.ok.inj h)
    exact ⟨(decode_bounds hr).1, (decode_bounds hr).2.2⟩
  · split at h <;> cases h

/-- What the decoder finds: a type, and a payload that decodes. -/
theorem parseCapsule_ok {buf : Bytes} {c : Capsule} {n : Nat}
    (h : parseCapsule buf = .ok (some (c, n))) :
    0 < n ∧ n ≤ buf.length ∧ ∃ capsuleType payload, decodePayload capsuleType payload = .ok c := by
  unfold parseCapsule at h
  by_cases hnil : buf = []
  · simp only [hnil, if_true] at h
    cases h
  rw [if_neg hnil] at h
  obtain ⟨r, hr, h⟩ := bind_eq_ok_iff.1 h
  cases r with
  | none => cases h
  | some r =>
    obtain ⟨capsuleType, typeLen⟩ := r
    by_cases hgo : typeLen ≥ buf.length
    · simp only [hgo, if_true] at h
      cases h
    simp only [hgo, if_false] at h
    obtain ⟨r, hr', h⟩ := bind_eq_ok_iff.1 h
    cases r with
    | none => cases h
    | some r =>
      obtain ⟨payloadLen, lenLen⟩ := r
      by_cases hwhole : buf.length < typeLen + lenLen + payloadLen
      · simp only [hwhole, if_true] at h
        cases h
      simp only [hwhole, if_false] at h
      obtain ⟨c', hc', h⟩ := bind_eq_ok_iff.1 h
      obtain ⟨rfl, rfl⟩ := Prod.mk.inj (Option.some.inj (Except.ok.inj h))
      have hpos := (awaitVarint_ok hr).1
      exact ⟨by omega, by omega, _, _, hc'⟩

/-- What a decoded capsule says about a stream is within range. -/
def Capsule.InRange : Capsule → Prop
  | wtStream streamId _ _ | wtMaxStreamData streamId _ => streamId ≤ maxValue
  | wtStopSending streamId errorCode =>
    streamId ≤ maxValue ∧ errorCode ≤ maxApplicationErrorCode
  | _ => True

theorem decodeStreamMaximum_range {payload : Bytes} {trailing : String} {r : Nat × Nat}
    (h : decodeStreamMaximum payload trailing = .ok r) : r.1 ≤ maxValue := by
  obtain ⟨_, hsid, h⟩ := bind_eq_ok_iff.1 h
  obtain ⟨_, _, h⟩ := bind_eq_ok_iff.1 h
  obtain ⟨_, _, h⟩ := bind_eq_ok_iff.1 h
  cases h
  exact (decode_bounds hsid).2.2

/-- Whichever branch the result came from. -/
theorem of_ite_ok {p P : Prop} [Decidable p] {a b : WtResult Capsule} {c : Capsule}
    (h : (if p then a else b) = .ok c) (ha : a = .ok c → P) (hb : b = .ok c → P) : P := by
  by_cases hp : p
  · exact ha (by rwa [if_pos hp] at h)
  · exact hb (by rwa [if_neg hp] at h)

theorem inRange_of_maximum {make : Nat → Capsule} {payload : Bytes} {trailing : String}
    {c : Capsule} (hmake : ∀ m, (make m).InRange)
    (h : (do return make (← decodeMaximum payload trailing)) = .ok c) : c.InRange := by
  obtain ⟨m, _, h⟩ := bind_eq_ok_iff.1 h
  cases h
  exact hmake m

theorem decodePayload_range {capsuleType : Nat} {payload : Bytes} {c : Capsule}
    (h : decodePayload capsuleType payload = .ok c) : c.InRange := by
  unfold decodePayload at h
  refine of_ite_ok h (fun h => by cases h; trivial) fun h => ?_
  refine of_ite_ok h (fun h => by cases h; trivial) fun h => ?_
  refine of_ite_ok h (fun h => ?_) fun h => ?_
  · obtain ⟨_, _, h⟩ := bind_eq_ok_iff.1 h
    obtain ⟨_, _, h⟩ := bind_eq_ok_iff.1 h
    obtain ⟨_, _, h⟩ := bind_eq_ok_iff.1 h
    obtain ⟨_, _, h⟩ := bind_eq_ok_iff.1 h
    obtain ⟨_, _, h⟩ := bind_eq_ok_iff.1 h
    cases h
    trivial
  refine of_ite_ok h (fun h => ?_) fun h => ?_
  · obtain ⟨_, hsid, h⟩ := bind_eq_ok_iff.1 h
    obtain ⟨_, _, h⟩ := bind_eq_ok_iff.1 h
    obtain ⟨_, hcode, h⟩ := bind_eq_ok_iff.1 h
    obtain ⟨_, _, h⟩ := bind_eq_ok_iff.1 h
    cases h
    exact ⟨(decode_bounds hsid).2.2, check_ok hcode⟩
  refine of_ite_ok h (fun h => ?_) fun h => ?_
  · obtain ⟨_, hsid, h⟩ := bind_eq_ok_iff.1 h
    cases h
    exact (decode_bounds hsid).2.2
  refine of_ite_ok h (inRange_of_maximum fun _ => trivial) fun h => ?_
  refine of_ite_ok h (fun h => ?_) fun h => ?_
  · obtain ⟨_, hr, h⟩ := bind_eq_ok_iff.1 h
    cases h
    exact decodeStreamMaximum_range hr
  refine of_ite_ok h (inRange_of_maximum fun _ => trivial) fun h => ?_
  refine of_ite_ok h (inRange_of_maximum fun _ => trivial) fun h => ?_
  refine of_ite_ok h (inRange_of_maximum fun _ => trivial) fun h => ?_
  refine of_ite_ok h (fun h => ?_) fun h => ?_
  · obtain ⟨_, _, h⟩ := bind_eq_ok_iff.1 h
    cases h
    trivial
  refine of_ite_ok h (inRange_of_maximum fun _ => trivial) fun h => ?_
  refine of_ite_ok h (inRange_of_maximum fun _ => trivial) fun h => ?_
  refine of_ite_ok h (fun h => ?_) fun h => ?_
  · refine of_ite_ok h (fun h => by cases h) fun h => ?_
    refine of_ite_ok h (fun h => by cases h) fun h => ?_
    refine of_ite_ok h (fun h => ?_) fun h => by cases h; trivial
    split at h <;> cases h
    trivial
  refine of_ite_ok h (fun h => ?_) fun h => by cases h; trivial
  exact of_ite_ok h (fun h => by cases h; trivial) fun h => by cases h

end Http2.WebTransport
