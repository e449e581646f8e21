/-! Error types of `src/error.rs`, with the structured errors of `src/hpack/error.rs`,
`src/validation.rs` and `src/settings.rs` that they report. A reason that the source renders
through `Display` keeps the structured value here; nothing in the library parses the text. -/
namespace Http2

/-- A byte string (`Vec<u8>`). -/
abbrev Bytes := List UInt8

/-- The bytes of an ASCII literal (`b"..."`). -/
def ascii (s : String) : Bytes := s.toList.map fun c => UInt8.ofNat c.toNat

/-- `isize::MAX`, 2^63 - 1: no `Vec<u8>` holds more bytes. -/
def isizeMax : Nat := 9223372036854775807

/-- HTTP/2 error codes, with the WebTransport codes of the draft. -/
inductive ErrorCode
  | noError | protocolError | internalError | flowControlError | settingsTimeout | streamClosed
  | frameSizeError | refusedStream | cancel | compressionError | connectError | enhanceYourCalm
  | inadequateSecurity | http11Required | wtError | wtStreamStateError | wtFlowControlError
  | unknown (code : Nat)
  deriving DecidableEq, Repr

namespace ErrorCode

def fromU32 : Nat → ErrorCode
  | 0x00 => noError
  | 0x01 => protocolError
  | 0x02 => internalError
  | 0x03 => flowControlError
  | 0x04 => settingsTimeout
  | 0x05 => streamClosed
  | 0x06 => frameSizeError
  | 0x07 => refusedStream
  | 0x08 => cancel
  | 0x09 => compressionError
  | 0x0a => connectError
  | 0x0b => enhanceYourCalm
  | 0x0c => inadequateSecurity
  | 0x0d => http11Required
  | 0x100 => wtError
  | 0x101 => wtStreamStateError
  | 0x102 => wtFlowControlError
  | n => unknown n

def asU32 : ErrorCode → Nat
  | noError => 0x00
  | protocolError => 0x01
  | internalError => 0x02
  | flowControlError => 0x03
  | settingsTimeout => 0x04
  | streamClosed => 0x05
  | frameSizeError => 0x06
  | refusedStream => 0x07
  | cancel => 0x08
  | compressionError => 0x09
  | connectError => 0x0a
  | enhanceYourCalm => 0x0b
  | inadequateSecurity => 0x0c
  | http11Required => 0x0d
  | wtError => 0x100
  | wtStreamStateError => 0x101
  | wtFlowControlError => 0x102
  | unknown n => n

end ErrorCode

/-- `HeaderFieldError` of `src/hpack/error.rs`. -/
inductive HeaderFieldError
  | emptyFieldName
  | uppercaseFieldName (name : Bytes)
  | invalidFieldNameByte (name : Bytes) (byte : UInt8)
  | invalidFieldValueByte (name : Bytes) (byte : UInt8)
  | fieldValueLeadingOrTrailingWhitespace (name : Bytes)
  | unknownPseudoHeader (name : Bytes)
  | invalidPseudoHeaderValue (name value : Bytes)
  deriving DecidableEq, Repr

/-- `ValidationError` of `src/validation.rs`. -/
inductive ValidationError
  | invalidHeaderField (e : HeaderFieldError)
  | missingPseudoHeader (name : String)
  | duplicatePseudoHeader (name : String)
  | pseudoHeaderAfterRegular
  | disallowedPseudoHeader (name : Bytes)
  | pseudoHeaderInTrailers (name : Bytes)
  | forbiddenHeader (name : Bytes)
  | invalidTeHeader
  | emptyPath
  | asteriskPathOnNonOptions
  | connectWithPathOrScheme
  | connectInvalidAuthority
  | nonConnectMissingPathOrScheme
  | extendedConnectMissingSchemeOrPath
  | extendedConnectInvalidAuthority
  | protocolOnNonConnect
  | hostAuthorityMismatch
  | authorityWithUserinfo
  | missingAuthority
  | status101NotSupported
  | webTransportRequiresHttps
  deriving DecidableEq, Repr

/-- `SettingError` of `src/settings.rs`. -/
inductive SettingError
  | enablePushNotBoolean (value : Nat)
  | initialWindowSizeOutOfRange (value max : Nat)
  | maxFrameSizeOutOfRange (value min max : Nat)
  | enableConnectProtocolNotBoolean (value : Nat)
  | noRfc7540PrioritiesNotBoolean (value : Nat)
  | wtEnabledNotBoolean (value : Nat)
  deriving DecidableEq, Repr

inductive ErrorKind
  | connectionError (code : ErrorCode)
  | streamError (code : ErrorCode)
  | hpackError
  deriving DecidableEq, Repr

inductive Reason
  | text (s : String)
  | validation (e : ValidationError)
  | setting (e : SettingError)
  deriving DecidableEq, Repr

structure Error where
  kind : ErrorKind
  reason : Reason
  deriving DecidableEq, Repr

namespace Error

def connectionError (code : ErrorCode) (reason : String) : Error :=
  ⟨.connectionError code, .text reason⟩

def streamError (code : ErrorCode) (reason : String) : Error := ⟨.streamError code, .text reason⟩

def hpackError (reason : String) : Error := ⟨.hpackError, .text reason⟩

def protocolError (reason : String) : Error := connectionError .protocolError reason

def frameSizeError (reason : String) : Error := connectionError .frameSizeError reason

/-- The text of a reason given as text (every HPACK error has one). -/
def reasonText (e : Error) : String :=
  match e.reason with
  | .text s => s
  | _ => ""

def isStreamError (e : Error) : Bool :=
  match e.kind with
  | .streamError _ => true
  | _ => false

def errorCode (e : Error) : Option ErrorCode :=
  match e.kind with
  | .connectionError code | .streamError code => some code
  | .hpackError => none

end Error

end Http2
