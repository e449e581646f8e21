import Http2.Hpack.Table

/-! Field names, field values and pseudo-headers: the run-time checks of `src/syntax.rs`. -/
namespace Http2

open Hpack

/-! ## Octet classes of the standard library -/

def isAsciiUppercase (b : UInt8) : Bool := 0x41 ≤ b && b ≤ 0x5a

def isAsciiLowercase (b : UInt8) : Bool := 0x61 ≤ b && b ≤ 0x7a

def isAsciiAlphabetic (b : UInt8) : Bool := isAsciiUppercase b || isAsciiLowercase b

def isAsciiDigit (b : UInt8) : Bool := 0x30 ≤ b && b ≤ 0x39

def isAsciiAlphanumeric (b : UInt8) : Bool := isAsciiAlphabetic b || isAsciiDigit b

def isAsciiHexdigit (b : UInt8) : Bool :=
  isAsciiDigit b || (0x41 ≤ b && b ≤ 0x46) || (0x61 ≤ b && b ≤ 0x66)

def toAsciiLowercase (b : UInt8) : UInt8 := if isAsciiUppercase b then b + 0x20 else b

def eqIgnoreAsciiCase (a b : Bytes) : Bool := a.map toAsciiLowercase == b.map toAsciiLowercase

/-! ## `src/syntax.rs` -/

/-- The octets `!#$%&'*+-.^_` and the grave accent, bar and tilde. -/
def isTokenMark (b : UInt8) : Bool :=
  [0x21, 0x23, 0x24, 0x25, 0x26, 0x27, 0x2a, 0x2b, 0x2d, 0x2e, 0x5e, 0x5f, 0x60, 0x7c, 0x7e].contains b

def isTokenCharLower (b : UInt8) : Bool := isTokenMark b || isAsciiDigit b || isAsciiLowercase b

def isTokenCharCaseInsensitive (b : UInt8) : Bool := isTokenCharLower b || isAsciiUppercase b

def isValidTokenCaseInsensitive (value : Bytes) : Bool :=
  !value.isEmpty && value.all isTokenCharCaseInsensitive

/-- `ALPHA *( ALPHA / DIGIT / "+" / "-" / "." )`. -/
def isValidScheme : Bytes → Bool
  | [] => false
  | first :: rest =>
    isAsciiAlphabetic first &&
      rest.all fun b => isAsciiAlphanumeric b || b == 0x2b || b == 0x2d || b == 0x2e

/-- The loop of `validate_field_name`; `first` holds at index 0, where a colon may stand. -/
def validateNameBytes (name : Bytes) (first : Bool) : Bytes → Except HeaderFieldError Unit
  | [] => .ok ()
  | b :: rest =>
    if isAsciiUppercase b then .error (.uppercaseFieldName name)
    else if b = 0x3a then
      if first then validateNameBytes name false rest else .error (.invalidFieldNameByte name b)
    else if isTokenCharLower b then validateNameBytes name false rest
    else .error (.invalidFieldNameByte name b)

def validateFieldName (name : Bytes) : Except HeaderFieldError Unit :=
  if name.isEmpty then .error .emptyFieldName else validateNameBytes name true name

def isBlank (b : Option UInt8) : Bool := b == some 0x20 || b == some 0x09

def validateFieldValue (name value : Bytes) : Except HeaderFieldError Unit :=
  if isBlank value.head? then .error (.fieldValueLeadingOrTrailingWhitespace name)
  else if isBlank value.getLast? then .error (.fieldValueLeadingOrTrailingWhitespace name)
  else
    match value.find? fun b => b == 0x00 || b == 0x0d || b == 0x0a with
    | some b => .error (.invalidFieldValueByte name b)
    | none => .ok ()

/-- Whether a defined pseudo-header admits the value; `none` for a name that is not defined. -/
def pseudoHeaderValue (name value : Bytes) : Option Bool :=
  if name = ascii ":method" then some (isValidTokenCaseInsensitive value)
  else if name = ascii ":scheme" then some (isValidScheme value)
  else if name = ascii ":path" then
    some (value.isEmpty || value == ascii "*" || value.head? == some 0x2f)
  else if name = ascii ":status" then some (value.length == 3 && value.all isAsciiDigit)
  else if name = ascii ":protocol" then some (isValidTokenCaseInsensitive value)
  else if name = ascii ":authority" then some true
  else none

def isPseudo (name : Bytes) : Bool := name.head? == some 0x3a

def validatePseudoHeader (name value : Bytes) : Except HeaderFieldError Unit :=
  if isPseudo name then
    match pseudoHeaderValue name value with
    | some true => .ok ()
    | some false => .error (.invalidPseudoHeaderValue name value)
    | none => .error (.unknownPseudoHeader name)
  else .ok ()

/-- The three checks in the order in which `HeaderField::new_with_sensitive` runs them. -/
def validateField (name value : Bytes) : Except HeaderFieldError Unit := do
  validateFieldName name
  validateFieldValue name value
  validatePseudoHeader name value

/-- `HeaderField::new_with_sensitive`. -/
def Hpack.HeaderField.newWithSensitive (name value : Bytes) (sensitive : Bool) :
    Except HeaderFieldError HeaderField := do
  validateField name value
  return ⟨name, value, sensitive⟩

end Http2
