import Http2.Frame

/-! The frame decoder of `src/frame/decoder.rs`. -/
namespace Http2

open Lib.BigEndian

/-- Where the decoder stands between two calls: the octets not yet consumed, and the header of a
frame whose payload is still incomplete. -/
structure FrameDecoder where
  maxFrameSize : Nat
  buf : Bytes
  currentHeader : Option FrameHeader
  lastDecodedStreamId : Option Nat
  deriving DecidableEq, Repr

/-- `FRAME_HEADER_SIZE`. -/
def frameHeaderSize : Nat := 9

def decodeHeader (buf : Bytes) : Except Error FrameHeader :=
  match buf with
  | l0 :: l1 :: l2 :: frameType :: flags :: s0 :: s1 :: s2 :: s3 :: _ =>
    .ok ⟨ofBe [l0, l1, l2], frameType, flags, ofBe [s0, s1, s2, s3] % 2 ^ 31⟩
  | _ => .error (.protocolError "incomplete input")

def requireNonZeroStreamId (raw : Nat) (frameName : String) : Except Error Nat :=
  if raw = 0 then .error (.protocolError s!"{frameName} frame with stream ID 0") else .ok raw

/-- The body of a padded frame and its pad length. -/
def splitPadding (padded : Bool) (payload : Bytes) : Except Error (Bytes × Option UInt8) :=
  if padded then
    match payload with
    | [] => .error (.frameSizeError "PADDED flag set but no padding length")
    | padLen :: body =>
      if payload.length < 1 + padLen.toNat then
        .error (.protocolError "padding length exceeds frame payload")
      else .ok (body.take (body.length - padLen.toNat), some padLen)
  else .ok (payload, none)

open FrameFlags in
def decodeData (header : FrameHeader) (payload : Bytes) : Except Error Frame := do
  let streamId ← requireNonZeroStreamId header.streamId "DATA"
  let (data, padLength) ← splitPadding (contains header.flags padded) payload
  return .data ⟨streamId, contains header.flags endStream, data, padLength⟩

/-- The five octets of priority fields. -/
def decodePriorityFields : Bytes → Option (PriorityFields × Bytes)
  | p0 :: p1 :: p2 :: p3 :: weight :: rest =>
    some (⟨p0 &&& 0x80 ≠ 0, ofBe [p0, p1, p2, p3] % 2 ^ 31, weight⟩, rest)
  | _ => none

open FrameFlags in
def decodeHeaders (header : FrameHeader) (payload : Bytes) : Except Error Frame := do
  let streamId ← requireNonZeroStreamId header.streamId "HEADERS"
  let (body, padLength) ← splitPadding (contains header.flags padded) payload
  if contains header.flags priority then
    match decodePriorityFields body with
    | none =>
      .error (.frameSizeError "PRIORITY flag set but insufficient data for priority fields")
    | some (fields, fragment) =>
      return .headers ⟨streamId, contains header.flags endStream,
        contains header.flags endHeaders, some fields, fragment, padLength⟩
  else
    return .headers ⟨streamId, contains header.flags endStream,
      contains header.flags endHeaders, none, body, padLength⟩

def decodePriority (header : FrameHeader) (payload : Bytes) : Except Error Frame := do
  let streamId ← requireNonZeroStreamId header.streamId "PRIORITY"
  match decodePriorityFields payload with
  | some (fields, []) => return .priority streamId fields
  | _ => .error (.streamError .frameSizeError "PRIORITY frame must be 5 bytes")

def decodeRstStream (header : FrameHeader) (payload : Bytes) : Except Error Frame := do
  let streamId ← requireNonZeroStreamId header.streamId "RST_STREAM"
  if payload.length ≠ 4 then
    .error (.frameSizeError "RST_STREAM frame must be 4 bytes")
  else
    return .rstStream streamId (ofBe payload)

/-- The error a refused parameter becomes. -/
def settingError (e : SettingError) : Error :=
  let code : ErrorCode := match e with
    | .initialWindowSizeOutOfRange _ _ => .flowControlError
    | _ => .protocolError
  ⟨.connectionError code, .setting e⟩

/-- The parameters of a payload that is a multiple of six octets. -/
def decodeSettingsList : Bytes → Except Error (List Setting)
  | i0 :: i1 :: v0 :: v1 :: v2 :: v3 :: rest =>
    match Setting.fromWire (UInt16.ofNat (ofBe [i0, i1])) (UInt32.ofNat (ofBe [v0, v1, v2, v3])) with
    | .error e => .error (settingError e)
    | .ok setting => do
      let settings ← decodeSettingsList rest
      return setting :: settings
  | _ => .ok []

open FrameFlags in
def decodeSettings (header : FrameHeader) (payload : Bytes) : Except Error Frame :=
  if header.streamId ≠ 0 then
    .error (.protocolError "SETTINGS frame with non-zero stream ID")
  else if contains header.flags ack then
    if payload ≠ [] then
      .error (.frameSizeError "SETTINGS ACK frame with non-empty payload")
    else .ok (.settings ⟨true, []⟩)
  else if payload.length % 6 ≠ 0 then
    .error (.frameSizeError "SETTINGS frame payload must be a multiple of 6 bytes")
  else do
    let settings ← decodeSettingsList payload
    return .settings ⟨false, settings⟩

open FrameFlags in
def decodePing (header : FrameHeader) (payload : Bytes) : Except Error Frame :=
  if header.streamId ≠ 0 then .error (.protocolError "PING frame with non-zero stream ID")
  else if payload.length ≠ 8 then .error (.frameSizeError "PING frame must be 8 bytes")
  else .ok (.ping (contains header.flags ack) payload)

def decodeGoaway (header : FrameHeader) (payload : Bytes) : Except Error Frame :=
  if header.streamId ≠ 0 then .error (.protocolError "GOAWAY frame with non-zero stream ID")
  else if payload.length < 8 then .error (.frameSizeError "GOAWAY frame must be at least 8 bytes")
  else
    .ok (.goaway ⟨ofBe (payload.take 4) % 2 ^ 31, ofBe ((payload.drop 4).take 4), payload.drop 8⟩)

def decodeWindowUpdate (header : FrameHeader) (payload : Bytes) : Except Error Frame :=
  if payload.length ≠ 4 then .error (.frameSizeError "WINDOW_UPDATE frame must be 4 bytes")
  else
    let rawIncrement := ofBe payload % 2 ^ 31
    if rawIncrement = 0 then
      if header.streamId = 0 then
        .error (.connectionError .protocolError "WINDOW_UPDATE with zero increment on connection")
      else .error (.streamError .protocolError "WINDOW_UPDATE with zero increment on stream")
    else .ok (.windowUpdate header.streamId rawIncrement)

open FrameFlags in
def decodeContinuation (header : FrameHeader) (payload : Bytes) : Except Error Frame := do
  let streamId ← requireNonZeroStreamId header.streamId "CONTINUATION"
  return .continuation ⟨streamId, contains header.flags endHeaders, payload⟩

def decodePushPromise (header : FrameHeader) (_payload : Bytes) : Except Error Frame :=
  if header.streamId = 0 then .error (.protocolError "PUSH_PROMISE frame with stream ID 0")
  else .ok (.pushPromise header.streamId)

def decodePriorityUpdate (header : FrameHeader) (payload : Bytes) : Except Error Frame :=
  if header.streamId ≠ 0 then
    .error (.protocolError "PRIORITY_UPDATE frame with non-zero stream ID")
  else if payload.length < 4 then
    .error (.frameSizeError "PRIORITY_UPDATE frame must be at least 4 bytes")
  else
    let rawId := ofBe (payload.take 4) % 2 ^ 31
    if rawId = 0 then
      .error (.protocolError "PRIORITY_UPDATE prioritized element ID must not be 0")
    else .ok (.priorityUpdate rawId (payload.drop 4))

def decodeFrame (header : FrameHeader) (payload : Bytes) : Except Error Frame :=
  match FrameType.fromU8 header.frameType with
  | some .data => decodeData header payload
  | some .headers => decodeHeaders header payload
  | some .priority => decodePriority header payload
  | some .rstStream => decodeRstStream header payload
  | some .settings => decodeSettings header payload
  | some .pushPromise => decodePushPromise header payload
  | some .ping => decodePing header payload
  | some .goaway => decodeGoaway header payload
  | some .windowUpdate => decodeWindowUpdate header payload
  | some .continuation => decodeContinuation header payload
  | some .priorityUpdate => decodePriorityUpdate header payload
  | none => .ok (.unknown header payload)

namespace FrameDecoder

def new (maxFrameSize : Nat) : FrameDecoder := ⟨maxFrameSize, [], none, none⟩

def feed (d : FrameDecoder) (data : Bytes) : FrameDecoder := { d with buf := d.buf ++ data }

/-- `decode` once a header is there: wait for the payload, then decode the frame. -/
def decodePayload (d : FrameDecoder) (header : FrameHeader) :
    Except Error (Option Frame) × FrameDecoder :=
  if d.buf.length < header.length then (.ok none, { d with currentHeader := some header })
  else
    ((decodeFrame header (d.buf.take header.length)).map some,
      { d with
        buf := d.buf.drop header.length
        currentHeader := none
        lastDecodedStreamId := some header.streamId })

/-- The next frame, if its octets are complete. -/
def decode (d : FrameDecoder) : Except Error (Option Frame) × FrameDecoder :=
  match d.currentHeader with
  | some header => d.decodePayload header
  | none =>
    if d.buf.length < frameHeaderSize then (.ok none, d)
    else
      match decodeHeader (d.buf.take frameHeaderSize) with
      | .error e => (.error e, d)
      | .ok header =>
        if header.length > d.maxFrameSize then
          let length := header.length
          let maxFrameSize := d.maxFrameSize
          (.error (.frameSizeError s!"frame size {length} exceeds max frame size {maxFrameSize}"), d)
        else decodePayload { d with buf := d.buf.drop frameHeaderSize } header

end FrameDecoder

/-! ## Errors -/

/-- What the decoder complains about: FRAME_SIZE_ERROR, PROTOCOL_ERROR, or a parameter. -/
def Error.ofDecoder (e : Error) : Bool :=
  match e.kind, e.reason with
  | .connectionError .protocolError, _ | .connectionError .frameSizeError, _ => true
  | .streamError .protocolError, _ | .streamError .frameSizeError, _ => true
  | .connectionError .flowControlError, .setting _ => true
  | _, _ => false

/-- A decoding that fails does so with such an error. -/
def Complains {α : Type} (r : Except Error α) : Prop := ∀ e, r = .error e → e.ofDecoder = true

section Complains

variable {α β : Type}

theorem complains_ok (a : α) : Complains (.ok a : Except Error α) := by
  intro e h
  cases h

theorem complains_error {e : Error} (he : e.ofDecoder = true) :
    Complains (.error e : Except Error α) := by
  rintro _ ⟨rfl⟩
  exact he

theorem complains_bind {x : Except Error α} {f : α → Except Error β} (hx : Complains x)
    (hf : ∀ a, Complains (f a)) : Complains (x >>= f) := by
  cases x with
  | ok a => exact hf a
  | error e => exact complains_error (hx e rfl)

end Complains

theorem complains_streamId (raw : Nat) (frameName : String) :
    Complains (requireNonZeroStreamId raw frameName) := by
  unfold requireNonZeroStreamId
  split
  · exact complains_error rfl
  · exact complains_ok raw

theorem complains_padding (padded : Bool) (payload : Bytes) :
    Complains (splitPadding padded payload) := by
  unfold splitPadding
  split
  · split
    · exact complains_error rfl
    · split
      · exact complains_error rfl
      · exact complains_ok _
  · exact complains_ok _

theorem complains_settings (payload : Bytes) : Complains (decodeSettingsList payload) := by
  fun_induction decodeSettingsList payload with
  | case1 i0 i1 v0 v1 v2 v3 rest e _ =>
    refine complains_error ?_
    cases e <;> rfl
  | case2 i0 i1 v0 v1 v2 v3 rest setting _ ih => exact complains_bind ih fun _ => complains_ok _
  | case3 => exact complains_ok []

theorem decodeFrame_complains (header : FrameHeader) (payload : Bytes) :
    Complains (decodeFrame header payload) := by
  unfold decodeFrame
  split
  · refine complains_bind (complains_streamId _ _) fun _ => complains_bind (complains_padding _ _) ?_
    exact fun _ => complains_ok _
  · refine complains_bind (complains_streamId _ _) fun _ => complains_bind (complains_padding _ _) ?_
    rintro ⟨body, padLength⟩
    simp only
    split
    · split
      · exact complains_error rfl
      · exact complains_ok _
    · exact complains_ok _
  · refine complains_bind (complains_streamId _ _) fun _ => ?_
    split
    · exact complains_ok _
    · exact complains_error rfl
  · refine complains_bind (complains_streamId _ _) fun _ => ?_
    split
    · exact complains_error rfl
    · exact complains_ok _
  · unfold decodeSettings
    split
    · exact complains_error rfl
    · split
      · split
        · exact complains_error rfl
        · exact complains_ok _
      · split
        · exact complains_error rfl
        · exact complains_bind (complains_settings payload) fun _ => complains_ok _
  · unfold decodePushPromise
    split
    · exact complains_error rfl
    · exact complains_ok _
  · unfold decodePing
    split
    · exact complains_error rfl
    · split
      · exact complains_error rfl
      · exact complains_ok _
  · unfold decodeGoaway
    split
    · exact complains_error rfl
    · split
      · exact complains_error rfl
      · exact complains_ok _
  · simp only [decodeWindowUpdate]
    split
    · exact complains_error rfl
    · split
      · split
        · exact complains_error rfl
        · exact complains_error rfl
      · exact complains_ok _
  · exact complains_bind (complains_streamId _ _) fun _ => complains_ok _
  · simp only [decodePriorityUpdate]
    split
    · exact complains_error rfl
    · split
      · exact complains_error rfl
      · split
        · exact complains_error rfl
        · exact complains_ok _
  · exact complains_ok _

theorem FrameDecoder.decode_complains (d : FrameDecoder) : Complains d.decode.1 := by
  have hpayload : ∀ (d : FrameDecoder) (header : FrameHeader), Complains (d.decodePayload header).1 := by
    intro d header
    unfold decodePayload
    split
    · exact complains_ok _
    · exact complains_bind (decodeFrame_complains _ _) fun _ => complains_ok _
  unfold decode
  split
  · exact hpayload d _
  · split
    · exact complains_ok _
    · split
      · rename_i e h
        unfold decodeHeader at h
        split at h <;> cases h
        exact complains_error rfl
      · simp only
        split
        · exact complains_error rfl
        · exact hpayload _ _

end Http2
