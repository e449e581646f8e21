import Http2.Frame.Decoder
import Http2.Lib.Framing

/-! The decoder reads back what the encoder writes, however the octets arrive. -/
namespace Http2

open Lib.BigEndian Lib

/-! ## One frame -/

/-- The frames that the encoder writes and their fields' types admit. -/
def Frame.Encodable : Frame → Prop
  | .data f => 0 < f.streamId ∧ f.streamId < 2 ^ 31
  | .headers f => 0 < f.streamId ∧ f.streamId < 2 ^ 31 ∧ f.priorityFields = none
  | .priority _ _ => False
  | .rstStream streamId errorCode => 0 < streamId ∧ streamId < 2 ^ 31 ∧ errorCode < 2 ^ 32
  | .settings f =>
    if f.ack then f.settings = []
    else ∀ s ∈ f.settings, ∃ id value, Setting.fromWire id value = .ok s
  | .pushPromise _ => False
  | .ping _ opaqueData => opaqueData.length = 8
  | .goaway f => f.lastStreamId < 2 ^ 31 ∧ f.errorCode < 2 ^ 32
  | .windowUpdate streamId increment => streamId < 2 ^ 31 ∧ 0 < increment ∧ increment < 2 ^ 31
  | .continuation f => 0 < f.streamId ∧ f.streamId < 2 ^ 31
  | .priorityUpdate prioritizedElementId _ =>
    0 < prioritizedElementId ∧ prioritizedElementId < 2 ^ 31
  | .unknown header payload => FrameType.fromU8 header.frameType = none ∧
      header.streamId < 2 ^ 31 ∧ header.length = payload.length

/-- What follows the header. -/
def Frame.payload (f : Frame) : Bytes := f.wire.drop frameHeaderSize

@[simp] theorem length_toBe31 (n : Nat) : (toBe31 n).length = 4 := length_toBe 4 _

theorem ofBe_toBe31 {n : Nat} (h : n < 2 ^ 31) : ofBe (toBe31 n) = n := by
  rw [toBe31, Nat.mod_eq_of_lt h, ofBe_toBe_of_lt (by omega)]

@[simp] theorem length_encodeHeader (h : FrameHeader) : h.encode.length = frameHeaderSize := by
  simp [FrameHeader.encode, frameHeaderSize]

/-- A header within its fields' widths reads back. -/
theorem decodeHeader_encode {h : FrameHeader} (hlength : h.length < 2 ^ 24)
    (hsid : h.streamId < 2 ^ 31) : decodeHeader h.encode = .ok h := by
  obtain ⟨length, frameType, flags, streamId⟩ := h
  have hlen : ofBe (toBe 3 length) = length := ofBe_toBe_of_lt hlength
  have hid : ofBe (toBe31 streamId) = streamId := ofBe_toBe31 hsid
  have hmod : streamId % 2 ^ 31 = streamId := Nat.mod_eq_of_lt hsid
  simp only [toBe31, hmod, toBe] at hlen hid
  simp only [FrameHeader.encode, toBe31, hmod, toBe, List.cons_append, List.nil_append, decodeHeader,
    hlen, hid]

theorem splitPadding_padPayload (padLength : Option UInt8) (body : Bytes) :
    splitPadding padLength.isSome (padPayload padLength body) = .ok (body, padLength) := by
  cases padLength with
  | none => rfl
  | some padLen =>
    simp only [splitPadding, padPayload, Option.isSome_some, if_true, List.length_cons,
      List.length_append, List.length_replicate]
    rw [if_neg (by omega), Nat.add_sub_cancel, List.take_left]

theorem decodeSettingsList_encode {settings : List Setting} (h : ∀ s ∈ settings, s.WellFormed) :
    decodeSettingsList (settings.flatMap Setting.encode) = .ok settings := by
  induction settings with
  | nil => rfl
  | cons s settings ih =>
    have hs := Setting.fromWire_asWire (h s List.mem_cons_self)
    have hid : ofBe (toBe 2 s.asWire.1.toNat) = s.asWire.1.toNat :=
      ofBe_toBe_of_lt (UInt16.toNat_lt _)
    have hvalue : ofBe (toBe 4 s.asWire.2.toNat) = s.asWire.2.toNat :=
      ofBe_toBe_of_lt (UInt32.toNat_lt _)
    simp only [toBe] at hid hvalue
    simp only [List.flatMap_cons, Setting.encode, toBe, List.cons_append, List.nil_append,
      decodeSettingsList, hid, hvalue, UInt16.ofNat_toNat, UInt32.ofNat_toNat, hs,
      ih fun t ht => h t (List.mem_cons_of_mem s ht)]
    rfl

theorem length_flatMap_encode (settings : List Setting) :
    (settings.flatMap Setting.encode).length = 6 * settings.length := by
  induction settings with
  | nil => rfl
  | cons s settings ih =>
    simp only [List.flatMap_cons, List.length_append, ih, Setting.encode, length_toBe, List.length_cons]
    omega

/-- `h` and `payload` are what the encoder makes of `f`, and what the decoder reads `f` off. -/
structure Carries (h : FrameHeader) (payload : Bytes) (f : Frame) : Prop where
  encode : f.encode = .ok (h.encode ++ payload)
  length : h.length = payload.length
  streamId : h.streamId < 2 ^ 31
  decode : decodeFrame h payload = .ok f

section Carries

variable {h : FrameHeader} {payload : Bytes} {f : Frame}

theorem Carries.wire (hc : Carries h payload f) : f.wire = h.encode ++ payload := by
  rw [Frame.wire, hc.encode]

theorem payload_of_encode (hencode : f.encode = .ok (h.encode ++ payload)) : f.payload = payload := by
  rw [Frame.payload, Frame.wire, hencode]
  exact List.drop_left' (length_encodeHeader h)

theorem carries_frameBytes {frameType : FrameType} {flags : UInt8} {streamId : Nat}
    (hencode : f.encode = .ok (frameBytes frameType flags streamId payload))
    (hlength : f.payload.length < 2 ^ 24) (hsid : streamId < 2 ^ 31)
    (hdecode : decodeFrame ⟨payload.length, frameType.asU8, flags, streamId⟩ payload = .ok f) :
    ∃ h payload, Carries h payload f := by
  have hpayload := payload_of_encode hencode
  rw [hpayload] at hlength
  have hmod : payload.length % 2 ^ 32 = payload.length := Nat.mod_eq_of_lt (by omega)
  rw [frameBytes, hmod] at hencode
  exact ⟨_, payload, hencode, rfl, hsid, hdecode⟩

open FrameFlags

theorem requireNonZero {raw : Nat} (hraw : 0 < raw) (frameName : String) :
    requireNonZeroStreamId raw frameName = .ok raw := if_neg (by omega)

theorem data_carries {f : DataFrame} (hf : (Frame.data f).Encodable)
    (hlength : (Frame.data f).payload.length < 2 ^ 24) :
    ∃ h payload, Carries h payload (.data f) := by
  refine carries_frameBytes rfl hlength hf.2 ?_
  have hpadded : contains (setIf (setIf 0 f.endStream endStream) f.padLength.isSome padded) padded =
      f.padLength.isSome := by
    cases f.endStream <;> cases f.padLength.isSome <;> decide
  have hend : contains (setIf (setIf 0 f.endStream endStream) f.padLength.isSome padded) endStream =
      f.endStream := by
    cases f.endStream <;> cases f.padLength.isSome <;> decide
  simp only [decodeFrame, FrameType.fromU8_asU8, decodeData, requireNonZero hf.1, hpadded, hend,
    splitPadding_padPayload]
  rfl

theorem headers_carries {f : HeadersFrame} (hf : (Frame.headers f).Encodable)
    (hlength : (Frame.headers f).payload.length < 2 ^ 24) :
    ∃ h payload, Carries h payload (.headers f) := by
  refine carries_frameBytes rfl hlength hf.2.1 ?_
  let flags := setIf (setIf (setIf 0 f.endStream endStream) f.endHeaders endHeaders)
    f.padLength.isSome padded
  have hflags : contains flags padded = f.padLength.isSome ∧ contains flags endStream = f.endStream ∧
      contains flags endHeaders = f.endHeaders ∧ contains flags priority = false := by
    simp only [flags]
    cases f.endStream <;> cases f.endHeaders <;> cases f.padLength.isSome <;> decide
  obtain ⟨hpadded, hend, hlast, hpriority⟩ := hflags
  have hnone := hf.2.2
  simp only [flags] at hpadded hend hlast hpriority
  simp only [decodeFrame, FrameType.fromU8_asU8, decodeHeaders, requireNonZero hf.1, hpadded, hend,
    hlast, hpriority, splitPadding_padPayload]
  obtain ⟨streamId, endStream, endHeaders, priorityFields, fragment, padLength⟩ := f
  cases hnone
  rfl

theorem settings_carries {f : SettingsFrame} (hf : (Frame.settings f).Encodable)
    (hlength : (Frame.settings f).payload.length < 2 ^ 24) :
    ∃ h payload, Carries h payload (.settings f) := by
  refine carries_frameBytes rfl hlength (by decide) ?_
  obtain ⟨isAck, settings⟩ := f
  cases isAck with
  | true =>
    obtain rfl : settings = [] := hf
    rfl
  | false =>
    have hwf : ∀ s ∈ settings, s.WellFormed := by
      intro s hs
      obtain ⟨id, value, hwire⟩ := hf s hs
      exact Setting.wellFormed_of_fromWire hwire
    have hlen : (settings.flatMap Setting.encode).length % 6 = 0 := by
      rw [length_flatMap_encode]
      omega
    have hack : contains (setIf 0 false ack) ack = false := by decide
    simp only [decodeFrame, FrameType.fromU8_asU8, decodeSettings, hack, Bool.false_eq_true, if_false,
      hlen, ne_eq, not_true_eq_false, decodeSettingsList_encode hwf]
    rfl

theorem ping_carries {isAck : Bool} {opaqueData : Bytes} (hf : (Frame.ping isAck opaqueData).Encodable)
    (hlength : (Frame.ping isAck opaqueData).payload.length < 2 ^ 24) :
    ∃ h payload, Carries h payload (.ping isAck opaqueData) := by
  refine carries_frameBytes rfl hlength (by decide) ?_
  have hlen : opaqueData.length = 8 := hf
  have hack : contains (setIf 0 isAck ack) ack = isAck := by
    cases isAck <;> decide
  simp [decodeFrame, FrameType.fromU8_asU8, decodePing, hack, hlen]

theorem goaway_carries {f : GoawayFrame} (hf : (Frame.goaway f).Encodable)
    (hlength : (Frame.goaway f).payload.length < 2 ^ 24) :
    ∃ h payload, Carries h payload (.goaway f) := by
  refine carries_frameBytes rfl hlength (by decide) ?_
  have hid : ofBe (toBe31 f.lastStreamId) = f.lastStreamId := ofBe_toBe31 hf.1
  have hcode : ofBe (toBe 4 f.errorCode) = f.errorCode := ofBe_toBe_of_lt hf.2
  have hlong : ¬ (toBe31 f.lastStreamId ++ toBe 4 f.errorCode ++ f.debugData).length < 8 := by
    simp
    omega
  have htake : (toBe31 f.lastStreamId ++ toBe 4 f.errorCode ++ f.debugData).take 4 =
      toBe31 f.lastStreamId := by
    rw [List.append_assoc]
    exact List.take_left' (length_toBe31 _)
  have hdrop : (toBe31 f.lastStreamId ++ toBe 4 f.errorCode ++ f.debugData).drop 4 =
      toBe 4 f.errorCode ++ f.debugData := by
    rw [List.append_assoc]
    exact List.drop_left' (length_toBe31 _)
  have hcodeTake : (toBe 4 f.errorCode ++ f.debugData).take 4 = toBe 4 f.errorCode :=
    List.take_left' (length_toBe 4 _)
  have hdebug : (toBe31 f.lastStreamId ++ toBe 4 f.errorCode ++ f.debugData).drop 8 = f.debugData :=
    List.drop_left' (by simp)
  simp only [decodeFrame, FrameType.fromU8_asU8, decodeGoaway, ne_eq, not_true_eq_false, if_false,
    hlong, htake, hdrop, hcodeTake, hdebug, hid, hcode, Nat.mod_eq_of_lt hf.1]

theorem rstStream_carries {streamId errorCode : Nat}
    (hf : (Frame.rstStream streamId errorCode).Encodable)
    (hlength : (Frame.rstStream streamId errorCode).payload.length < 2 ^ 24) :
    ∃ h payload, Carries h payload (.rstStream streamId errorCode) := by
  obtain ⟨hpos, hsid, hcode⟩ := hf
  refine carries_frameBytes rfl hlength hsid ?_
  have hread : ofBe (toBe 4 errorCode) = errorCode := ofBe_toBe_of_lt hcode
  simp only [decodeFrame, FrameType.fromU8_asU8, decodeRstStream, requireNonZero hpos, length_toBe,
    ne_eq, not_true_eq_false, if_false, hread]
  rfl

theorem windowUpdate_carries {streamId increment : Nat}
    (hf : (Frame.windowUpdate streamId increment).Encodable)
    (hlength : (Frame.windowUpdate streamId increment).payload.length < 2 ^ 24) :
    ∃ h payload, Carries h payload (.windowUpdate streamId increment) := by
  obtain ⟨hsid, hpos, hincrement⟩ := hf
  refine carries_frameBytes rfl hlength hsid ?_
  have hne : increment ≠ 0 := by omega
  simp only [decodeFrame, FrameType.fromU8_asU8, decodeWindowUpdate, length_toBe31, ne_eq,
    not_true_eq_false, if_false, ofBe_toBe31 hincrement, Nat.mod_eq_of_lt hincrement, hne]

theorem continuation_carries {f : ContinuationFrame} (hf : (Frame.continuation f).Encodable)
    (hlength : (Frame.continuation f).payload.length < 2 ^ 24) :
    ∃ h payload, Carries h payload (.continuation f) := by
  refine carries_frameBytes rfl hlength hf.2 ?_
  have hlast : contains (setIf 0 f.endHeaders endHeaders) endHeaders = f.endHeaders := by
    cases f.endHeaders <;> decide
  simp only [decodeFrame, FrameType.fromU8_asU8, decodeContinuation, requireNonZero hf.1, hlast]
  rfl

theorem priorityUpdate_carries {elementId : Nat} {value : Bytes}
    (hf : (Frame.priorityUpdate elementId value).Encodable)
    (hlength : (Frame.priorityUpdate elementId value).payload.length < 2 ^ 24) :
    ∃ h payload, Carries h payload (.priorityUpdate elementId value) := by
  obtain ⟨hpos, hid⟩ := hf
  refine carries_frameBytes rfl hlength (by decide) ?_
  have hlong : ¬ (toBe31 elementId ++ value).length < 4 := by simp
  have htake : (toBe31 elementId ++ value).take 4 = toBe31 elementId :=
    List.take_left' (length_toBe31 _)
  have hdrop : (toBe31 elementId ++ value).drop 4 = value := List.drop_left' (length_toBe31 _)
  have hne : elementId ≠ 0 := by omega
  simp only [decodeFrame, FrameType.fromU8_asU8, decodePriorityUpdate, ne_eq, not_true_eq_false,
    if_false, hlong, htake, hdrop, ofBe_toBe31 hid, Nat.mod_eq_of_lt hid, hne]

theorem unknown_carries {header : FrameHeader} {octets : Bytes}
    (hf : (Frame.unknown header octets).Encodable)
    (hlength : (Frame.unknown header octets).payload.length < 2 ^ 24) :
    ∃ h payload, Carries h payload (.unknown header octets) := by
  obtain ⟨htype, hsid, hlen⟩ := hf
  have hpayload : (Frame.unknown header octets).payload = octets :=
    payload_of_encode (h := { header with length := octets.length % 2 ^ 32 }) rfl
  rw [hpayload] at hlength
  have hmod : octets.length % 2 ^ 32 = header.length := by
    rw [hlen, Nat.mod_eq_of_lt (by omega)]
  refine ⟨header, octets, ?_, hlen, hsid, ?_⟩
  · simp only [Frame.encode, hmod]
  · simp only [decodeFrame, htype]

/-- Every frame of the encoder goes out as a header and a payload that the decoder reads it off. -/
theorem Frame.carries {f : Frame} (hf : f.Encodable) (hlength : f.payload.length < 2 ^ 24) :
    ∃ h payload, Carries h payload f := by
  cases f with
  | data f => exact data_carries hf hlength
  | headers f => exact headers_carries hf hlength
  | priority streamId fields => exact hf.elim
  | rstStream streamId errorCode => exact rstStream_carries hf hlength
  | settings f => exact settings_carries hf hlength
  | pushPromise streamId => exact hf.elim
  | ping ack opaqueData => exact ping_carries hf hlength
  | goaway f => exact goaway_carries hf hlength
  | windowUpdate streamId increment => exact windowUpdate_carries hf hlength
  | continuation f => exact continuation_carries hf hlength
  | priorityUpdate elementId value => exact priorityUpdate_carries hf hlength
  | unknown header payload => exact unknown_carries hf hlength

end Carries

/-! ## A stream of frames -/

namespace FrameDecoder

def framer : Framer FrameDecoder Error Frame UInt8 := ⟨feed, decode⟩

/-- The octets that the decoder has been fed and has not used up; a header that it keeps counts as
not used up. -/
def Awaits (maxFrameSize : Nat) (d : FrameDecoder) (octets : Bytes) : Prop :=
  d.maxFrameSize = maxFrameSize ∧
    match d.currentHeader with
    | none => d.buf = octets
    | some header => ∃ front, front.length = frameHeaderSize ∧ decodeHeader front = .ok header ∧
        header.length ≤ maxFrameSize ∧ front ++ d.buf = octets

theorem awaits_new (maxFrameSize : Nat) : Awaits maxFrameSize (new maxFrameSize) [] := ⟨rfl, rfl⟩

theorem awaits_feed {maxFrameSize : Nat} {d : FrameDecoder} {octets : Bytes} (piece : Bytes)
    (h : Awaits maxFrameSize d octets) : Awaits maxFrameSize (d.feed piece) (octets ++ piece) := by
  obtain ⟨hmax, hbuf⟩ := h
  refine ⟨hmax, ?_⟩
  simp only [feed]
  cases hheader : d.currentHeader with
  | none =>
    simp only [hheader] at hbuf
    simp only [hbuf]
  | some header =>
    simp only [hheader] at hbuf
    obtain ⟨front, hfront, hdecode, hlength, rfl⟩ := hbuf
    exact ⟨front, hfront, hdecode, hlength, (List.append_assoc _ _ _).symm⟩

/-- An empty stream leaves nothing in the decoder. -/
theorem awaits_nil {maxFrameSize : Nat} {d : FrameDecoder} (h : Awaits maxFrameSize d []) :
    d.buf = [] ∧ d.currentHeader = none := by
  obtain ⟨_, hbuf⟩ := h
  cases hheader : d.currentHeader with
  | none =>
    simp only [hheader] at hbuf
    exact ⟨hbuf, rfl⟩
  | some header =>
    simp only [hheader] at hbuf
    obtain ⟨front, hfront, _, _, hnil⟩ := hbuf
    obtain ⟨rfl, _⟩ := List.append_eq_nil_iff.1 hnil
    cases hfront

/-- Fewer octets than a header has are kept. -/
theorem decode_short {maxFrameSize : Nat} {d : FrameDecoder} {octets : Bytes}
    (h : Awaits maxFrameSize d octets) (hshort : octets.length < frameHeaderSize) :
    ∃ d', d.decode = (.ok none, d') ∧ Awaits maxFrameSize d' octets := by
  obtain ⟨hmax, hbuf⟩ := h
  cases hheader : d.currentHeader with
  | none =>
    simp only [hheader] at hbuf
    refine ⟨d, ?_, hmax, by simp only [hheader, hbuf]⟩
    simp only [decode, hheader, hbuf, if_pos hshort]
  | some header =>
    simp only [hheader] at hbuf
    obtain ⟨front, hfront, _, _, rfl⟩ := hbuf
    rw [List.length_append] at hshort
    omega

/-- With a whole header the decoder goes on to the payload, whether it kept the header or reads it
now. -/
theorem decode_header {maxFrameSize : Nat} {d : FrameDecoder} {header : FrameHeader} {front rest : Bytes}
    (h : Awaits maxFrameSize d (front ++ rest)) (hfront : front.length = frameHeaderSize)
    (hdecode : decodeHeader front = .ok header) (hlength : header.length ≤ maxFrameSize) :
    ∃ d' : FrameDecoder, d.decode = d'.decodePayload header ∧ d'.maxFrameSize = maxFrameSize ∧
        d'.buf = rest := by
  obtain ⟨hmax, hbuf⟩ := h
  cases hheader : d.currentHeader with
  | none =>
    simp only [hheader] at hbuf
    refine ⟨{ d with buf := d.buf.drop frameHeaderSize }, ?_, hmax, ?_⟩
    · have hlong : ¬ (front ++ rest).length < frameHeaderSize := by
        rw [List.length_append]
        omega
      have hfit : ¬ header.length > d.maxFrameSize := by omega
      simp only [decode, hheader, hbuf, if_neg hlong, List.take_left' hfront, hdecode, if_neg hfit]
    · simp only [hbuf, List.drop_left' hfront]
  | some header' =>
    simp only [hheader] at hbuf
    obtain ⟨front', hfront', hdecode', _, happend⟩ := hbuf
    obtain ⟨rfl, rfl⟩ := List.append_inj happend (hfront'.trans hfront.symm)
    rw [hdecode] at hdecode'
    cases hdecode'
    refine ⟨d, ?_, hmax, rfl⟩
    simp only [decode, hheader]

theorem reader {maxFrameSize : Nat} (hmax : maxFrameSize < 2 ^ 24) :
    framer.Reader Frame.wire (fun f => f.Encodable ∧ f.payload.length ≤ maxFrameSize)
      (Awaits maxFrameSize) where
  feed piece h := awaits_feed piece h
  empty h := decode_short h (by decide)
  whole := by
    rintro d rest f ⟨hf, hfit⟩ h
    obtain ⟨header, payload, hcarries⟩ := Frame.carries hf (by omega)
    rw [payload_of_encode hcarries.encode, ← hcarries.length] at hfit
    rw [hcarries.wire, List.append_assoc] at h
    have hread := decodeHeader_encode (Nat.lt_of_le_of_lt hfit hmax) hcarries.streamId
    obtain ⟨d', hdecode, hsize, hbuf⟩ := decode_header h (length_encodeHeader header) hread hfit
    have henough : ¬ (payload ++ rest).length < header.length := by
      rw [List.length_append, hcarries.length]
      omega
    have hlen := hcarries.length.symm
    refine ⟨⟨d'.maxFrameSize, rest, none, some header.streamId⟩, ?_, hsize, rfl⟩
    change d.decode = _
    rw [hdecode, decodePayload]
    simp only [hbuf, if_neg henough, List.take_left' hlen, List.drop_left' hlen, hcarries.decode]
    rfl
  cut := by
    rintro d octets f ⟨hf, hfit⟩ h hpart hne
    by_cases hshort : octets.length < frameHeaderSize
    · exact decode_short h hshort
    · obtain ⟨header, payload, hcarries⟩ := Frame.carries hf (by omega)
      rw [payload_of_encode hcarries.encode, ← hcarries.length] at hfit
      rw [hcarries.wire] at hpart hne
      have hfront : header.encode <+: octets :=
        List.prefix_of_prefix_length_le (List.prefix_append _ _) hpart
          (by rw [length_encodeHeader]; omega)
      obtain ⟨part, rfl⟩ := hfront
      have hread := decodeHeader_encode (Nat.lt_of_le_of_lt hfit hmax) hcarries.streamId
      obtain ⟨d', hdecode, hsize, hbuf⟩ := decode_header h (length_encodeHeader header) hread hfit
      have hless : part.length < header.length := by
        have hle := hpart.length_le
        rw [List.length_append, List.length_append] at hle
        rw [hcarries.length]
        refine Nat.lt_of_le_of_ne (by omega) fun heq => hne ?_
        exact hpart.eq_of_length (by rw [List.length_append, List.length_append, heq])
      refine ⟨{ d' with currentHeader := some header }, ?_, hsize, header.encode,
        length_encodeHeader header, hread, hfit, ?_⟩
      · change d.decode = _
        rw [hdecode, decodePayload]
        simp only [hbuf, if_pos hless]
      · simp only [hbuf]

/-- A stream of frames, cut into pieces anywhere, is read back frame by frame and leaves nothing. -/
theorem decode_encode {maxFrameSize : Nat} (hmax : maxFrameSize ≤ 2 ^ 24 - 1) {frames : List Frame}
    (hframes : ∀ f ∈ frames, f.Encodable ∧ f.payload.length ≤ maxFrameSize) {pieces : List Bytes}
    (hpieces : pieces.flatten = frames.flatMap Frame.wire) :
    (∀ f ∈ frames, f.encode = .ok f.wire) ∧
      ∃ d, d.buf = [] ∧ d.currentHeader = none ∧
        ∀ out d', framer.Reads (new maxFrameSize) pieces out d' ↔ out = frames ∧ d' = d := by
  have hmax : maxFrameSize < 2 ^ 24 := by omega
  have hcarried : ∀ f ∈ frames, ∃ header payload, Carries header payload f := fun f hf =>
    Frame.carries (hframes f hf).1 (Nat.lt_of_le_of_lt (hframes f hf).2 hmax)
  have hlast : pieces.flatten = [] → frames = [] := by
    intro hnil
    rw [hnil] at hpieces
    refine List.eq_nil_iff_forall_not_mem.2 fun f hf => ?_
    have hwire := List.flatMap_eq_nil_iff.1 hpieces.symm f hf
    obtain ⟨header, payload, hcarries⟩ := hcarried f hf
    rw [hcarries.wire, List.append_eq_nil_iff] at hwire
    exact absurd (congrArg List.length hwire.1) (by rw [length_encodeHeader]; decide)
  obtain ⟨d, hreads, hd⟩ :=
    Framer.reads_pieces (reader hmax) hframes (awaits_new maxFrameSize) hpieces hlast
  obtain ⟨hbuf, hheader⟩ := awaits_nil hd
  refine ⟨fun f hf => ?_, d, hbuf, hheader, fun out d' => ?_⟩
  · obtain ⟨header, payload, hcarries⟩ := hcarried f hf
    rw [hcarries.wire, hcarries.encode]
  · constructor
    · exact fun h => Framer.reads_deterministic h hreads
    · rintro ⟨rfl, rfl⟩
      exact hreads

/-- A SETTINGS frame and padded DATA, cut inside the first header and inside the data. -/
theorem decode_encode_pieces :
    let frames : List Frame :=
      [.settings ⟨false, [.enablePush false]⟩, .data ⟨1, true, [1, 2, 3], some 2⟩]
    let octets := frames.flatMap Frame.wire
    (∀ f ∈ frames, f.encode = .ok f.wire) ∧
      ∃ d, d.buf = [] ∧ d.currentHeader = none ∧
        ∀ out d', framer.Reads (new 16384) [octets.take 5, (octets.drop 5).take 21, octets.drop 26] out d' ↔
          out = frames ∧ d' = d := by
  refine decode_encode (by decide) ?_ (by decide)
  intro f hf
  simp only [List.mem_cons, List.not_mem_nil, or_false] at hf
  obtain rfl | rfl := hf
  · refine ⟨?_, by decide⟩
    intro s hs
    obtain rfl := List.mem_singleton.1 hs
    exact ⟨2, 0, rfl⟩
  · exact ⟨⟨by decide, by decide⟩, by decide⟩

end FrameDecoder

end Http2
