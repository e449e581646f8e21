import Http2.FieldSyntax
import Http2.Lib.Prog
import Http2.Settings

/-! A stream: its state machine (`src/stream/state.rs`), its flow-control windows
(`src/flow_control.rs`), its send buffer (`src/stream/buffer.rs`) and the record that holds them
(`src/stream.rs`). -/
namespace Http2

open Lib

/-! ## State machine -/

inductive StreamState
  | idle | reservedLocal | reservedRemote | «open» | halfClosedLocal | halfClosedRemote | closed
  deriving DecidableEq, Repr

namespace StreamState

def isClosed (s : StreamState) : Bool := s == closed

/-- Data may still leave: `open` or half-closed by the peer. -/
def canSend (s : StreamState) : Bool := s == «open» || s == halfClosedRemote

def sendHeaders (endStream : Bool) : StreamState → Except Error StreamState
  | idle => .ok (if endStream then halfClosedLocal else «open»)
  | reservedLocal => .ok (if endStream then closed else halfClosedRemote)
  | «open» => .ok (if endStream then halfClosedLocal else «open»)
  | halfClosedRemote => .ok (if endStream then closed else halfClosedRemote)
  | _ => .error (.streamError .streamClosed "cannot send HEADERS in current state")

def recvHeaders (endStream : Bool) : StreamState → Except Error StreamState
  | idle => .ok (if endStream then halfClosedRemote else «open»)
  | reservedRemote => .ok (if endStream then closed else halfClosedLocal)
  | «open» => .ok (if endStream then halfClosedRemote else «open»)
  | halfClosedLocal => .ok (if endStream then closed else halfClosedLocal)
  | _ => .error (.streamError .streamClosed "cannot receive HEADERS in current state")

/-- The check before DATA is queued; the state moves only when the last frame leaves. -/
def sendData (s : StreamState) : Except Error Unit :=
  if s.canSend then .ok ()
  else .error (.streamError .streamClosed "cannot send DATA in current state")

/-- The move when the frame that carries END_STREAM leaves. -/
def completeSendData : StreamState → Except Error StreamState
  | «open» => .ok halfClosedLocal
  | halfClosedRemote => .ok closed
  | _ => .error (.streamError .streamClosed "complete_send_data called in invalid state")

def recvData (endStream : Bool) : StreamState → Except Error StreamState
  | «open» => .ok (if endStream then halfClosedRemote else «open»)
  | halfClosedLocal => .ok (if endStream then closed else halfClosedLocal)
  | _ => .error (.streamError .streamClosed "cannot receive DATA in current state")

end StreamState

/-! ## Flow control -/

/-- `MAX_WINDOW_SIZE`. -/
def maxWindowSize : Nat := 2147483647

structure FlowControl where
  sendWindow : Int
  recvWindow : Int
  sendInitial : Nat
  recvInitial : Nat
  deriving DecidableEq, Repr

namespace FlowControl

def withSeparateWindows (sendInitial recvInitial : Nat) : FlowControl :=
  ⟨sendInitial, recvInitial, sendInitial, recvInitial⟩

def new (initialWindowSize : Nat) : FlowControl :=
  withSeparateWindows initialWindowSize initialWindowSize

/-- `send_available`: nothing while the window is not positive. -/
def sendAvailable (fc : FlowControl) : Nat := fc.sendWindow.toNat

/-- Move the send window. -/
def addSend (fc : FlowControl) (n : Int) : FlowControl := { fc with sendWindow := fc.sendWindow + n }

/-- Move the receive window. -/
def addRecv (fc : FlowControl) (n : Int) : FlowControl := { fc with recvWindow := fc.recvWindow + n }

/-- What both windows refuse to be charged with. -/
def checkSize (size : Nat) (window : Int) (exhausted : String) : Except Error Unit :=
  if size > isizeMax then .error (.connectionError .flowControlError "data size too large")
  else if (size : Int) > window then .error (.connectionError .flowControlError exhausted)
  else .ok ()

def consumeSend (fc : FlowControl) (size : Nat) : Except Error FlowControl := do
  checkSize size fc.sendWindow "send window exhausted"
  return fc.addSend (-size)

def consumeRecv (fc : FlowControl) (size : Nat) : Except Error FlowControl := do
  checkSize size fc.recvWindow "recv window exceeded"
  return fc.addRecv (-size)

/-- What both windows refuse to grow by. -/
def checkIncrement (window : Int) (increment : Nat) (zero : String) : Except Error Unit :=
  if increment = 0 then .error (.connectionError .protocolError zero)
  else if window + increment > maxWindowSize then
    .error (.connectionError .flowControlError "window size overflow")
  else .ok ()

def recvWindowUpdate (fc : FlowControl) (increment : Nat) : Except Error FlowControl := do
  checkIncrement fc.sendWindow increment "WINDOW_UPDATE with zero increment"
  return fc.addSend increment

def addRecvWindow (fc : FlowControl) (increment : Nat) : Except Error FlowControl := do
  checkIncrement fc.recvWindow increment "window increment must be non-zero"
  return fc.addRecv increment

/-- A change of SETTINGS_INITIAL_WINDOW_SIZE moves the send window by the difference. -/
def updateInitialWindowSize (fc : FlowControl) (newSize : Nat) : Except Error FlowControl :=
  let newWindow := fc.sendWindow + ((newSize : Int) - fc.sendInitial)
  if newWindow > maxWindowSize then
    .error (.connectionError .flowControlError "window size overflow after SETTINGS update")
  else .ok { fc with sendWindow := newWindow, sendInitial := newSize }

@[simp] theorem addSend_sendWindow (fc : FlowControl) (n : Int) :
    (fc.addSend n).sendWindow = fc.sendWindow + n := rfl

@[simp] theorem addSend_recvWindow (fc : FlowControl) (n : Int) :
    (fc.addSend n).recvWindow = fc.recvWindow := rfl

@[simp] theorem addSend_sendInitial (fc : FlowControl) (n : Int) :
    (fc.addSend n).sendInitial = fc.sendInitial := rfl

@[simp] theorem addRecv_sendWindow (fc : FlowControl) (n : Int) :
    (fc.addRecv n).sendWindow = fc.sendWindow := rfl

@[simp] theorem addRecv_recvWindow (fc : FlowControl) (n : Int) :
    (fc.addRecv n).recvWindow = fc.recvWindow + n := rfl

@[simp] theorem addRecv_sendInitial (fc : FlowControl) (n : Int) :
    (fc.addRecv n).sendInitial = fc.sendInitial := rfl

theorem checkSize_eq_ok {size : Nat} {window : Int} {exhausted : String} {u : Unit} :
    checkSize size window exhausted = .ok u ↔ size ≤ isizeMax ∧ (size : Int) ≤ window := by
  unfold checkSize
  by_cases hbig : size > isizeMax
  · simp only [hbig, if_true, reduceCtorEq, false_iff]
    omega
  · by_cases hwin : (size : Int) > window
    · simp only [hbig, hwin, if_true, if_false, reduceCtorEq, false_iff]
      omega
    · simp only [hbig, hwin, if_false, true_iff]
      omega

theorem checkIncrement_eq_ok {window : Int} {increment : Nat} {zero : String} {u : Unit} :
    checkIncrement window increment zero = .ok u ↔
      0 < increment ∧ window + increment ≤ maxWindowSize := by
  unfold checkIncrement
  by_cases hzero : increment = 0
  · simp [hzero]
  · by_cases hbig : window + increment > maxWindowSize
    · simp only [hzero, hbig, if_true, if_false, reduceCtorEq, false_iff]
      omega
    · simp only [hzero, hbig, if_false, true_iff]
      omega

theorem consumeSend_eq_ok {fc fc' : FlowControl} {size : Nat} :
    fc.consumeSend size = .ok fc' ↔
      (size ≤ isizeMax ∧ (size : Int) ≤ fc.sendWindow) ∧ fc.addSend (-size) = fc' := by
  rw [consumeSend, bind_eq_ok_iff, exists_congr fun _ => and_congr_left' checkSize_eq_ok]
  simp [pure, Except.pure]

theorem consumeRecv_eq_ok {fc fc' : FlowControl} {size : Nat} :
    fc.consumeRecv size = .ok fc' ↔
      (size ≤ isizeMax ∧ (size : Int) ≤ fc.recvWindow) ∧ fc.addRecv (-size) = fc' := by
  rw [consumeRecv, bind_eq_ok_iff, exists_congr fun _ => and_congr_left' checkSize_eq_ok]
  simp [pure, Except.pure]

theorem recvWindowUpdate_eq_ok {fc fc' : FlowControl} {increment : Nat} :
    fc.recvWindowUpdate increment = .ok fc' ↔
      (0 < increment ∧ fc.sendWindow + increment ≤ maxWindowSize) ∧ fc.addSend increment = fc' := by
  rw [recvWindowUpdate, bind_eq_ok_iff, exists_congr fun _ => and_congr_left' checkIncrement_eq_ok]
  simp [pure, Except.pure]

theorem addRecvWindow_eq_ok {fc fc' : FlowControl} {increment : Nat} :
    fc.addRecvWindow increment = .ok fc' ↔
      (0 < increment ∧ fc.recvWindow + increment ≤ maxWindowSize) ∧ fc.addRecv increment = fc' := by
  rw [addRecvWindow, bind_eq_ok_iff, exists_congr fun _ => and_congr_left' checkIncrement_eq_ok]
  simp [pure, Except.pure]

theorem updateInitialWindowSize_eq_ok {fc fc' : FlowControl} {newSize : Nat} :
    fc.updateInitialWindowSize newSize = .ok fc' ↔
      fc.sendWindow + ((newSize : Int) - fc.sendInitial) ≤ maxWindowSize ∧
        { fc with
          sendWindow := fc.sendWindow + ((newSize : Int) - fc.sendInitial)
          sendInitial := newSize } = fc' := by
  unfold updateInitialWindowSize
  by_cases hbig : fc.sendWindow + ((newSize : Int) - fc.sendInitial) > maxWindowSize
  · simp only [hbig, if_true, reduceCtorEq, false_iff]
    omega
  · have hle : fc.sendWindow + ((newSize : Int) - fc.sendInitial) ≤ maxWindowSize := by omega
    simp [hbig, hle]

end FlowControl

/-! ## Send buffer -/

/-- The queue of octets that wait for window; its capacity is `DEFAULT_INITIAL_WINDOW_SIZE`. -/
abbrev SendBuffer := Bytes

namespace SendBuffer

def canPush (b : SendBuffer) (size : Nat) : Bool := b.length + size ≤ defaultInitialWindowSize

/-- As much as fits; the source returns the number of octets left over, which `can_push` rules
out. -/
def push (b : SendBuffer) (data : Bytes) : SendBuffer :=
  b ++ data.take (defaultInitialWindowSize - b.length)

def pop (b : SendBuffer) (maxSize : Nat) : Bytes × SendBuffer := (b.take maxSize, b.drop maxSize)

theorem push_of_canPush {b : SendBuffer} {data : Bytes} (h : b.canPush data.length = true) :
    b.push data = b ++ data := by
  have hle : b.length + data.length ≤ defaultInitialWindowSize := by simpa [canPush] using h
  rw [push, List.take_of_length_le (by omega)]

end SendBuffer

/-! ## The record -/

/-- `Stream`, without the received headers and the receive buffer, which nothing reads. -/
structure Stream where
  id : Nat
  state : StreamState
  flowControl : FlowControl
  sendBuffer : SendBuffer
  pendingEndStream : Bool
  initialHeadersReceived : Bool
  expectedContentLength : Option Nat
  receivedContentLength : Nat
  connectEstablished : Bool
  requestMethod : Option Bytes
  hasProtocol : Bool
  protocol : Option Bytes
  noContent : Bool
  finalResponseSent : Bool
  deriving DecidableEq, Repr

def Stream.new (id sendInitialWindowSize recvInitialWindowSize : Nat) : Stream where
  id := id
  state := .idle
  flowControl := .withSeparateWindows sendInitialWindowSize recvInitialWindowSize
  sendBuffer := []
  pendingEndStream := false
  initialHeadersReceived := false
  expectedContentLength := none
  receivedContentLength := 0
  connectEstablished := false
  requestMethod := none
  hasProtocol := false
  protocol := none
  noContent := false
  finalResponseSent := false

end Http2
