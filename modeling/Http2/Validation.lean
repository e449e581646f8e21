import Http2.FieldSyntax
import Mathlib.Tactic.Ring

/-! Header list validation: `src/validation.rs`. -/
namespace Http2

open Hpack

/-- `malformed_error`. -/
def malformedError (e : ValidationError) : Error := ⟨.streamError .protocolError, .validation e⟩

/-- `check_field`: the checks of `HeaderField::new` on a decoded field. -/
def checkField (h : HeaderField) : Except Error Unit :=
  (validateField h.name h.value).mapError fun e => malformedError (.invalidHeaderField e)

def validateForbiddenHeaderCommon (name : Bytes) : Except Error Unit :=
  if eqIgnoreAsciiCase name (ascii "connection") || eqIgnoreAsciiCase name (ascii "keep-alive") ||
      eqIgnoreAsciiCase name (ascii "proxy-connection") ||
      eqIgnoreAsciiCase name (ascii "transfer-encoding") || eqIgnoreAsciiCase name (ascii "upgrade")
  then .error (malformedError (.forbiddenHeader name))
  else .ok ()

def validateForbiddenHeaderForRequest (name value : Bytes) : Except Error Unit := do
  validateForbiddenHeaderCommon name
  if eqIgnoreAsciiCase name (ascii "te") && !eqIgnoreAsciiCase value (ascii "trailers") then
    .error (malformedError .invalidTeHeader)

def validateForbiddenHeaderForResponse (name : Bytes) : Except Error Unit := do
  validateForbiddenHeaderCommon name
  if eqIgnoreAsciiCase name (ascii "te") then
    .error (malformedError (.forbiddenHeader name))

/-! ## Authorities -/

def stripSuffix (s suffix : Bytes) : Bytes :=
  if suffix.isSuffixOf s then s.take (s.length - suffix.length) else s

def isScheme (scheme : Option Bytes) (name : String) : Bool :=
  match scheme with
  | some s => eqIgnoreAsciiCase s (ascii name)
  | none => false

def isHttpScheme (scheme : Option Bytes) : Bool := isScheme scheme "http" || isScheme scheme "https"

def stripDefaultPort (authority : Bytes) (scheme : Option Bytes) : Bytes :=
  if isScheme scheme "http" then stripSuffix authority (ascii ":80")
  else if isScheme scheme "https" then stripSuffix authority (ascii ":443")
  else authority

def isRegNameByte (b : UInt8) : Bool :=
  isAsciiAlphanumeric b || [0x2d, 0x2e, 0x5f, 0x7e, 0x21, 0x24, 0x26, 0x27, 0x28, 0x29, 0x2a, 0x2b,
    0x2c, 0x3b, 0x3d].contains b

/-- The loop of `is_valid_reg_name`. -/
def regNameBytes : Bytes → Bool
  | [] => true
  | b :: rest =>
    if b = 0x25 then
      match rest with
      | h0 :: h1 :: rest => isAsciiHexdigit h0 && isAsciiHexdigit h1 && regNameBytes rest
      | _ => false
    else isRegNameByte b && regNameBytes rest

def isValidRegName (host : Bytes) : Bool := !host.isEmpty && regNameBytes host

def isValidIpv6LiteralChars (inner : Bytes) : Bool :=
  !inner.isEmpty && inner.all fun b => isAsciiHexdigit b || b == 0x3a || b == 0x2e

/-- The value of a digit string, if it fits `w` bits (`str::parse` on an unsigned integer). -/
def parseDecimal (w : Nat) : Bytes → Nat → Option Nat
  | [], acc => some acc
  | b :: rest, acc =>
    let acc := acc * 10 + (b.toNat - 0x30)
    if isAsciiDigit b && acc < 2 ^ w then parseDecimal w rest acc else none

def isValidPort (port : Bytes) : Bool :=
  if port.isEmpty || !port.all isAsciiDigit then false
  else
    match parseDecimal 32 port 0 with
    | some n => n ≤ 65535
    | none => false

/-- Host and port around the last colon (`rposition`). -/
def splitLastColon (authority : Bytes) : Bytes × Option Bytes :=
  match authority.reverse.span (· != 0x3a) with
  | (portRev, _ :: hostRev) => (hostRev.reverse, some portRev.reverse)
  | (_, []) => (authority, none)

def isValidAuthority (authority : Bytes) (portRequired : Bool) : Bool :=
  match authority with
  | [] => false
  | 0x5b :: literal =>
    match literal.span (· != 0x5d) with
    | (_, []) => false
    | (inner, _ :: rest) =>
      isValidIpv6LiteralChars inner &&
        match rest with
        | [] => !portRequired
        | 0x3a :: port => isValidPort port
        | _ => false
  | _ =>
    let (host, port) := splitLastColon authority
    isValidRegName host &&
      match port with
      | some port => isValidPort port
      | none => !portRequired

def isValidConnectAuthority (authority : Bytes) : Bool := isValidAuthority authority true

def isValidExtendedConnectAuthority (authority : Bytes) : Bool := isValidAuthority authority false

/-! ## Requests -/

/-- The variables of the loop of `validate_request_headers`; a pseudo-header was seen when its
value is there. -/
structure RequestScan where
  method : Option Bytes := none
  scheme : Option Bytes := none
  authority : Option Bytes := none
  path : Option Bytes := none
  protocol : Option Bytes := none
  host : Option Bytes := none
  pastPseudo : Bool := false
  deriving DecidableEq, Repr

/-- A pseudo-header may appear once. -/
def recordOnce (slot : Option Bytes) (name : String) (value : Bytes) : Except Error (Option Bytes) :=
  if slot.isSome then .error (malformedError (.duplicatePseudoHeader name)) else .ok (some value)

def RequestScan.pseudo (s : RequestScan) (name value : Bytes) : Except Error RequestScan :=
  if name = ascii ":method" then
    (recordOnce s.method ":method" value).map fun v => { s with method := v }
  else if name = ascii ":scheme" then
    (recordOnce s.scheme ":scheme" value).map fun v => { s with scheme := v }
  else if name = ascii ":authority" then
    (recordOnce s.authority ":authority" value).map fun v => { s with authority := v }
  else if name = ascii ":path" then
    (recordOnce s.path ":path" value).map fun v => { s with path := v }
  else if name = ascii ":protocol" then
    (recordOnce s.protocol ":protocol" value).map fun v => { s with protocol := v }
  else .error (malformedError (.disallowedPseudoHeader name))

/-- One turn of the loop of `validate_request_headers`. -/
def RequestScan.field (s : RequestScan) (h : HeaderField) : Except Error RequestScan := do
  checkField h
  if isPseudo h.name then
    if s.pastPseudo then .error (malformedError .pseudoHeaderAfterRegular)
    s.pseudo h.name h.value
  else
    validateForbiddenHeaderForRequest h.name h.value
    let host := if eqIgnoreAsciiCase h.name (ascii "host") then some h.value else s.host
    return { s with pastPseudo := true, host := host }

/-- The checks for CONNECT, plain or extended. -/
def RequestScan.checkConnect (s : RequestScan) : Except Error Unit :=
  if s.protocol.isSome then
    if s.scheme.isNone || s.path.isNone then
      .error (malformedError .extendedConnectMissingSchemeOrPath)
    else
      match s.authority with
      | none => .error (malformedError (.missingPseudoHeader ":authority"))
      | some authority =>
        if !isValidExtendedConnectAuthority authority then
          .error (malformedError .extendedConnectInvalidAuthority)
        else if s.protocol = some (ascii "webtransport") ∧ !isScheme s.scheme "https" then
          .error (malformedError .webTransportRequiresHttps)
        else .ok ()
  else if s.path.isSome || s.scheme.isSome then .error (malformedError .connectWithPathOrScheme)
  else
    match s.authority with
    | none => .error (malformedError (.missingPseudoHeader ":authority"))
    | some authority =>
      if isValidConnectAuthority authority then .ok ()
      else .error (malformedError .connectInvalidAuthority)

/-- The checks for every other method. -/
def RequestScan.checkNonConnect (s : RequestScan) : Except Error Unit :=
  if s.protocol.isSome then .error (malformedError .protocolOnNonConnect)
  else if s.scheme.isNone then .error (malformedError (.missingPseudoHeader ":scheme"))
  else if s.path.isNone then .error (malformedError (.missingPseudoHeader ":path"))
  else if s.path = some (ascii "*") ∧ s.method ≠ some (ascii "OPTIONS") then
    .error (malformedError .asteriskPathOnNonOptions)
  else if isHttpScheme s.scheme ∧ s.path = some [] then .error (malformedError .emptyPath)
  else if isHttpScheme s.scheme ∧ s.authority.isNone ∧ s.host.isNone then
    .error (malformedError .missingAuthority)
  else .ok ()

/-- The last `host` field against `:authority`, both without the scheme's default port. -/
def RequestScan.hostAgrees (s : RequestScan) : Bool :=
  match s.authority, s.host with
  | some authority, some host =>
    eqIgnoreAsciiCase (stripDefaultPort authority s.scheme) (stripDefaultPort host s.scheme)
  | _, _ => true

def RequestScan.check (s : RequestScan) : Except Error Unit := do
  if !s.hostAgrees then .error (malformedError .hostAuthorityMismatch)
  if s.method.isNone then .error (malformedError (.missingPseudoHeader ":method"))
  let isConnect := s.method == some (ascii "CONNECT")
  if (s.authority.getD []).contains 0x40 && (isHttpScheme s.scheme || isConnect) then
    .error (malformedError .authorityWithUserinfo)
  if isConnect then s.checkConnect else s.checkNonConnect

def validateRequestHeaders (headers : List HeaderField) : Except Error Unit := do
  let s ← headers.foldlM RequestScan.field {}
  s.check

/-! ## Responses and trailers -/

/-- The variables of the loop of `validate_response_headers`. -/
structure ResponseScan where
  seenStatus : Bool := false
  pastPseudo : Bool := false
  deriving DecidableEq, Repr

/-- One turn of the loop of `validate_response_headers`. -/
def ResponseScan.field (s : ResponseScan) (h : HeaderField) : Except Error ResponseScan := do
  checkField h
  if isPseudo h.name then
    if s.pastPseudo then .error (malformedError .pseudoHeaderAfterRegular)
    if h.name = ascii ":status" then
      if s.seenStatus then .error (malformedError (.duplicatePseudoHeader ":status"))
      if h.value = ascii "101" then .error (malformedError .status101NotSupported)
      return { s with seenStatus := true }
    else .error (malformedError (.disallowedPseudoHeader h.name))
  else
    validateForbiddenHeaderForResponse h.name
    return { s with pastPseudo := true }

def validateResponseHeaders (headers : List HeaderField) : Except Error Unit := do
  let s ← headers.foldlM ResponseScan.field {}
  if !s.seenStatus then .error (malformedError (.missingPseudoHeader ":status"))

/-- One turn of the loop of `validate_trailers`. -/
def validateTrailer (h : HeaderField) : Except Error Unit := do
  checkField h
  if isPseudo h.name then .error (malformedError (.pseudoHeaderInTrailers h.name))
  validateForbiddenHeaderForResponse h.name

def validateTrailers (headers : List HeaderField) : Except Error Unit :=
  headers.forM validateTrailer

end Http2
