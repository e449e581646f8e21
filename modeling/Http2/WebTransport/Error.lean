import Http2.Error

/-! The errors of `src/webtransport/error.rs`. A reason that the source formats keeps its
arguments here; `WtReason.text` is the text. -/
namespace Http2.WebTransport

inductive WtErrorKind
  | incomplete | bufferTooShort | invalidInput | capsuleDecode | invalidStreamId
  | streamStateError | flowControlError | sessionStateError
  deriving DecidableEq, Repr

/-- Why an operation failed. `fixed` is a text without arguments. -/
inductive WtReason
  | fixed (text : String)
  | varintTooLarge (value : Nat)
  | bufferTooShort (need got : Nat)
  | errorCodeTooLarge (capsule : String) (errorCode : Nat)
  | limitTooLarge (capsule : String) (maximum : Nat)
  | notIncreasing (capsule : String) (maximum : Nat) (context : String) (current : Nat)
  | maxStreamsTooLarge (label : String) (maximum : Nat)
  | maxStreamsNotIncreasing (label : String) (maximum : Nat) (context : String) (current : Nat)
  | incrementOverflow (capsule : String) (increment current : Nat)
  | resetUnknownStream (streamId : Nat)
  | reliableSizeMismatch (reliableSize recvOffset : Nat)
  | streamsBlockedTooLarge (maximum : Nat)
  | closedStream (streamId : Nat)
  deriving DecidableEq, Repr

namespace WtReason

/-- `varint::MAX_VALUE` as the messages print it. -/
def varintMaximum : Nat := 4611686018427387903

/-- Hexadecimal with its prefix (`{:#x}`). -/
def hex (n : Nat) : String := "0x" ++ String.ofList (Nat.toDigits 16 n)

def text : WtReason → String
  | fixed text => text
  | varintTooLarge value => s!"varint value {value} exceeds maximum {varintMaximum}"
  | bufferTooShort need got => s!"need {need} bytes, got {got}"
  | errorCodeTooLarge capsule errorCode =>
    s!"{capsule} error code {hex errorCode} exceeds maximum {hex 0xffffffff}"
  | limitTooLarge capsule maximum =>
    s!"{capsule} value {maximum} exceeds varint maximum {varintMaximum}"
  | notIncreasing capsule maximum context current =>
    s!"{capsule} value {maximum} does not increase the {context} maximum {current}"
  | maxStreamsTooLarge label maximum =>
    s!"WT_MAX_STREAMS ({label}) value {maximum} exceeds 2^60 limit"
  | maxStreamsNotIncreasing label maximum context current =>
    s!"WT_MAX_STREAMS ({label}) value {maximum} does not increase the {context} maximum {current}"
  | incrementOverflow capsule increment current =>
    s!"{capsule} increment {increment} from {current} overflows u64"
  | resetUnknownStream streamId => s!"WT_RESET_STREAM received for unknown stream {streamId}"
  | reliableSizeMismatch reliableSize recvOffset =>
    s!"WT_RESET_STREAM reliable_size {reliableSize} does not match recv_offset {recvOffset}"
  | streamsBlockedTooLarge maximum => s!"WT_STREAMS_BLOCKED maximum {maximum} exceeds 2^60 limit"
  | closedStream streamId => s!"WT_STREAM received for closed stream {streamId}"

end WtReason

/-- `WtError`, without the place in the program it was made at. -/
structure WtError where
  kind : WtErrorKind
  reason : WtReason
  deriving DecidableEq, Repr

namespace WtError

def invalidInput (reason : String) : WtError := ⟨.invalidInput, .fixed reason⟩

def capsuleDecode (reason : String) : WtError := ⟨.capsuleDecode, .fixed reason⟩

def invalidStreamId (reason : String) : WtError := ⟨.invalidStreamId, .fixed reason⟩

def streamStateError (reason : String) : WtError := ⟨.streamStateError, .fixed reason⟩

def flowControlError (reason : String) : WtError := ⟨.flowControlError, .fixed reason⟩

def sessionStateError (reason : String) : WtError := ⟨.sessionStateError, .fixed reason⟩

/-- Not an error of the peer: more octets are needed. -/
def incomplete : WtError := ⟨.incomplete, .fixed ""⟩

end WtError

abbrev WtResult (α : Type) : Type := Except WtError α

/-- `u64::MAX`. -/
def u64Max : Nat := 18446744073709551615

/-- `u64::saturating_add`. -/
def saturatingAdd (a b : Nat) : Nat := min (a + b) u64Max

/-- `u64::saturating_mul`. -/
def saturatingMul (a b : Nat) : Nat := min (a * b) u64Max

/-- `u64::checked_add`. -/
def checkedAdd (a b : Nat) : Option Nat := if a + b ≤ u64Max then some (a + b) else none

end Http2.WebTransport
