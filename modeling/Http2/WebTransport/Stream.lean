import Http2.WebTransport.Varint

/-! The streams of `src/webtransport/stream.rs` and the flow control of
`src/webtransport/flow_control.rs`. A stream is created with identifiers and limits that its
session checked, so its operations only check what changes. -/
namespace Http2.WebTransport

namespace StreamId

def isClientInitiated (id : Nat) : Bool := id &&& 0x01 == 0

def isServerInitiated (id : Nat) : Bool := id &&& 0x01 == 1

def isBidirectional (id : Nat) : Bool := id &&& 0x02 == 0

def isUnidirectional (id : Nat) : Bool := id &&& 0x02 == 2

/-- `next`: the next identifier of the same type. -/
def next (id : Nat) : Nat := id + 4

def first (client bidirectional : Bool) : Nat :=
  (if client then 0 else 1) ||| (if bidirectional then 0 else 2)

theorem and_one (id : Nat) : id &&& 0x01 = id % 4 % 2 := by
  rw [Nat.and_one_is_mod]
  omega

theorem and_three (id : Nat) : id &&& 0x03 = id % 4 := Nat.and_two_pow_sub_one_eq_mod id 2

theorem and_two (id : Nat) : id &&& 0x02 = id % 4 / 2 * 2 := by
  have hmask : (0x02 : Nat) = 0x03 &&& 0x02 := by decide
  rw [hmask, ← Nat.and_assoc, and_three]
  have hlt : id % 4 < 4 := Nat.mod_lt _ (by decide)
  have hall : ∀ r < 4, r &&& 0x02 = r / 2 * 2 := by decide
  exact hall _ hlt

end StreamId

inductive SendState
  | ready | send | dataRecvd | resetRecvd
  deriving DecidableEq, Repr

namespace SendState

def canSend : SendState → Bool
  | ready | send => true
  | _ => false

def isTerminal : SendState → Bool
  | dataRecvd | resetRecvd => true
  | _ => false

end SendState

inductive RecvState
  | recv | dataRecvd | dataRead | resetRead
  deriving DecidableEq, Repr

namespace RecvState

def canRecv : RecvState → Bool
  | recv => true
  | _ => false

def isTerminal : RecvState → Bool
  | dataRead | resetRead => true
  | _ => false

end RecvState

structure WtStream where
  id : Nat
  bidirectional : Bool
  locallyInitiated : Bool
  sendState : SendState
  recvState : RecvState
  sendOffset : Nat
  recvOffset : Nat
  sendMax : Nat
  recvMax : Nat
  stopSendingSent : Bool
  stopSendingReceived : Bool
  hasReceivedData : Bool
  deriving DecidableEq, Repr

namespace WtStream

def new (id sendMax recvMax : Nat) (bidirectional locallyInitiated : Bool) : WtStream where
  id := id
  bidirectional := bidirectional
  locallyInitiated := locallyInitiated
  sendState := .ready
  recvState := .recv
  sendOffset := 0
  recvOffset := 0
  sendMax := sendMax
  recvMax := recvMax
  stopSendingSent := false
  stopSendingReceived := false
  hasReceivedData := false

def hasRecvPart (s : WtStream) : Bool := s.bidirectional || !s.locallyInitiated

def hasSendPart (s : WtStream) : Bool := s.bidirectional || s.locallyInitiated

def canSend (s : WtStream) : Bool := s.sendState.canSend

def canRecv (s : WtStream) : Bool := s.recvState.canRecv

def sendData (s : WtStream) (size : Nat) (fin : Bool) : WtResult WtStream :=
  if s.sendState.canSend = false then .error (.streamStateError "cannot send in current state")
  else
    let newOffset := saturatingAdd s.sendOffset size
    if newOffset > s.sendMax then .error (.flowControlError "stream send limit exceeded")
    else .ok { s with
      sendOffset := newOffset
      sendState := if fin then .dataRecvd else .send }

def sendReset (s : WtStream) : WtStream := { s with sendState := .resetRecvd }

def recvData (s : WtStream) (size : Nat) (fin : Bool) : WtResult WtStream :=
  if s.recvState.canRecv = false then .error (.streamStateError "cannot receive in current state")
  else
    let newOffset := saturatingAdd s.recvOffset size
    if newOffset > s.recvMax then .error (.flowControlError "stream recv limit exceeded")
    else .ok { s with
      recvOffset := newOffset
      recvState := if fin then .dataRecvd else s.recvState }

def recvReset (s : WtStream) : WtStream := { s with recvState := .resetRead }

def markDataRead (s : WtStream) : WtStream :=
  if s.recvState = .dataRecvd then { s with recvState := .dataRead } else s

/-- `update_send_max`: the peer's limit only grows. -/
def updateSendMax (s : WtStream) (maximum : Nat) : WtResult WtStream :=
  if maximum > Varint.maxValue then
    .error ⟨.flowControlError, .limitTooLarge "WT_MAX_STREAM_DATA" maximum⟩
  else if maximum ≤ s.sendMax then
    .error ⟨.flowControlError, .notIncreasing "WT_MAX_STREAM_DATA" maximum "current" s.sendMax⟩
  else .ok { s with sendMax := maximum }

/-- `update_recv_max`: a limit that does not grow is no error and has no effect. -/
def updateRecvMax (s : WtStream) (maximum : Nat) : WtResult WtStream :=
  if maximum > Varint.maxValue then
    .error (.flowControlError "recv_max exceeds varint maximum value")
  else if maximum > s.recvMax then .ok { s with recvMax := maximum }
  else .ok s

def isClosed (s : WtStream) : Bool :=
  if s.bidirectional then s.sendState.isTerminal && s.recvState.isTerminal
  else if s.locallyInitiated then s.sendState.isTerminal
  else s.recvState.isTerminal

def setStopSendingSent (s : WtStream) : WtStream := { s with stopSendingSent := true }

def setStopSendingReceived (s : WtStream) : WtStream := { s with stopSendingReceived := true }

def setHasReceivedData (s : WtStream) : WtStream := { s with hasReceivedData := true }

/-! ## Results -/

variable {s s' : WtStream} {size maximum : Nat} {fin : Bool}

theorem sendData_eq_ok (h : s.sendData size fin = .ok s') :
    s.canSend = true ∧ saturatingAdd s.sendOffset size ≤ s.sendMax ∧
      s' = { s with
        sendOffset := saturatingAdd s.sendOffset size
        sendState := if fin then .dataRecvd else .send } := by
  simp only [sendData] at h
  split at h
  · cases h
  · rename_i hcan
    split at h
    · cases h
    · rename_i hle
      exact ⟨eq_true_of_ne_false hcan, Nat.le_of_not_lt hle, (Except.ok.inj h).symm⟩

theorem recvState_of_canRecv (h : s.canRecv = true) : s.recvState = .recv := by
  cases hstate : s.recvState with
  | recv => rfl
  | dataRecvd | dataRead | resetRead => simp [canRecv, hstate, RecvState.canRecv] at h

theorem recvData_eq_ok (h : s.recvData size fin = .ok s') :
    s.canRecv = true ∧ saturatingAdd s.recvOffset size ≤ s.recvMax ∧
      s' = { s with
        recvOffset := saturatingAdd s.recvOffset size
        recvState := if fin then .dataRecvd else s.recvState } := by
  simp only [recvData] at h
  split at h
  · cases h
  · rename_i hcan
    split at h
    · cases h
    · rename_i hle
      exact ⟨eq_true_of_ne_false hcan, Nat.le_of_not_lt hle, (Except.ok.inj h).symm⟩

end WtStream

/-! ## Flow control -/

/-- `MAX_STREAMS_LIMIT`, 2^60. -/
def maxStreamsLimit : Nat := 1152921504606846976

/-- `check_max_streams_increase`. -/
def checkMaxStreamsIncrease (current maximum : Nat) (label context : String) : WtResult Unit :=
  if maximum > maxStreamsLimit then
    .error ⟨.flowControlError, .maxStreamsTooLarge label maximum⟩
  else if maximum ≤ current then
    .error ⟨.flowControlError, .maxStreamsNotIncreasing label maximum context current⟩
  else .ok ()

structure WtFlowControl where
  sendMax : Nat
  sendOffset : Nat
  recvMax : Nat
  recvOffset : Nat
  maxStreamsBidiLocal : Nat
  maxStreamsBidiRemote : Nat
  maxStreamsUniLocal : Nat
  maxStreamsUniRemote : Nat
  openedStreamsBidi : Nat
  openedStreamsUni : Nat
  deriving DecidableEq, Repr

namespace WtFlowControl

def new (sendMax recvMax maxStreamsBidiLocal maxStreamsBidiRemote maxStreamsUniLocal
    maxStreamsUniRemote : Nat) : WtFlowControl where
  sendMax := sendMax
  sendOffset := 0
  recvMax := recvMax
  recvOffset := 0
  maxStreamsBidiLocal := maxStreamsBidiLocal
  maxStreamsBidiRemote := maxStreamsBidiRemote
  maxStreamsUniLocal := maxStreamsUniLocal
  maxStreamsUniRemote := maxStreamsUniRemote
  openedStreamsBidi := 0
  openedStreamsUni := 0

def sendAvailable (fc : WtFlowControl) : Nat := fc.sendMax - fc.sendOffset

def consumeSend (fc : WtFlowControl) (size : Nat) : WtResult WtFlowControl :=
  let newOffset := saturatingAdd fc.sendOffset size
  if newOffset > fc.sendMax then .error (.flowControlError "send window exhausted")
  else .ok { fc with sendOffset := newOffset }

def consumeRecv (fc : WtFlowControl) (size : Nat) : WtResult WtFlowControl :=
  let newOffset := saturatingAdd fc.recvOffset size
  if newOffset > fc.recvMax then .error (.flowControlError "recv window exceeded")
  else .ok { fc with recvOffset := newOffset }

def updateSendMax (fc : WtFlowControl) (maximum : Nat) : WtResult WtFlowControl :=
  if maximum > Varint.maxValue then .error ⟨.flowControlError, .limitTooLarge "WT_MAX_DATA" maximum⟩
  else if maximum ≤ fc.sendMax then
    .error ⟨.flowControlError, .notIncreasing "WT_MAX_DATA" maximum "current" fc.sendMax⟩
  else .ok { fc with sendMax := maximum }

def updateRecvMax (fc : WtFlowControl) (maximum : Nat) : WtResult WtFlowControl :=
  if maximum > Varint.maxValue then .error ⟨.flowControlError, .limitTooLarge "WT_MAX_DATA" maximum⟩
  else if maximum ≤ fc.recvMax then
    .error ⟨.flowControlError, .notIncreasing "WT_MAX_DATA" maximum "advertised" fc.recvMax⟩
  else .ok { fc with recvMax := maximum }

def canOpenBidiStream (fc : WtFlowControl) : Bool :=
  decide (fc.openedStreamsBidi < fc.maxStreamsBidiRemote)

def canOpenUniStream (fc : WtFlowControl) : Bool :=
  decide (fc.openedStreamsUni < fc.maxStreamsUniRemote)

def openedStream (fc : WtFlowControl) (bidirectional : Bool) : WtFlowControl :=
  if bidirectional then { fc with openedStreamsBidi := fc.openedStreamsBidi + 1 }
  else { fc with openedStreamsUni := fc.openedStreamsUni + 1 }

def canAcceptStream (fc : WtFlowControl) (streamId : Nat) : Bool :=
  let bidirectional := streamId &&& 0x02 == 0
  let firstId := streamId &&& 0x03
  let maxStreams := if bidirectional then fc.maxStreamsBidiLocal else fc.maxStreamsUniLocal
  decide (streamId < saturatingAdd (saturatingMul maxStreams 4) firstId)

/-- The limit of the peer on streams of one direction. -/
def maxStreamsRemote (fc : WtFlowControl) (bidirectional : Bool) : Nat :=
  if bidirectional then fc.maxStreamsBidiRemote else fc.maxStreamsUniRemote

/-- Our own limit on streams of one direction. -/
def maxStreamsLocal (fc : WtFlowControl) (bidirectional : Bool) : Nat :=
  if bidirectional then fc.maxStreamsBidiLocal else fc.maxStreamsUniLocal

def label (bidirectional : Bool) : String := if bidirectional then "bidi" else "uni"

/-- `update_max_streams`, on WT_MAX_STREAMS from the peer. -/
def updateMaxStreams (fc : WtFlowControl) (maximum : Nat) (bidirectional : Bool) :
    WtResult WtFlowControl := do
  checkMaxStreamsIncrease (fc.maxStreamsRemote bidirectional) maximum (label bidirectional) "current"
  return if bidirectional then { fc with maxStreamsBidiRemote := maximum }
    else { fc with maxStreamsUniRemote := maximum }

/-- `update_max_streams_local`, before WT_MAX_STREAMS goes out. -/
def updateMaxStreamsLocal (fc : WtFlowControl) (maximum : Nat) (bidirectional : Bool) :
    WtResult WtFlowControl := do
  checkMaxStreamsIncrease (fc.maxStreamsLocal bidirectional) maximum (label bidirectional)
    "advertised"
  return if bidirectional then { fc with maxStreamsBidiLocal := maximum }
    else { fc with maxStreamsUniLocal := maximum }

end WtFlowControl

end Http2.WebTransport
