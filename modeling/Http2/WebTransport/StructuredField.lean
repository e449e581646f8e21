import Http2.FieldSyntax
import Http2.Lib.Utf8
import Http2.WebTransport.Capsule

/-! The grammar of structured field values (RFC 9651) that the WebTransport header fields are written
in: bare items with their values, parameters, inner lists and dictionaries. -/
namespace Http2.WebTransport

/-- `SfValue` of `src/webtransport/init.rs`: of the values only integers matter. -/
inductive SfValue
  | integer (n : Int)
  | decimal
  | string
  | token
  | byteSequence
  | boolean
  | date
  | displayString
  | innerList
  deriving DecidableEq, Repr

namespace StructuredField

/-! ## Blanks and classes of octets -/

/-- `*SP`. -/
def Spaces (text : Bytes) : Prop := ∀ b ∈ text, b = 0x20

/-- `*( SP / HTAB )`. -/
def Ows (text : Bytes) : Prop := ∀ b ∈ text, b = 0x20 ∨ b = 0x09

/-- `%x20-7e`. -/
def Printable (b : UInt8) : Prop := 0x20 ≤ b ∧ b ≤ 0x7e

instance (b : UInt8) : Decidable (Printable b) := inferInstanceAs (Decidable (_ ∧ _))

/-- `lcalpha / DIGIT / "_" / "-" / "." / "*"`. -/
def isKeyByte (b : UInt8) : Bool :=
  isAsciiLowercase b || isAsciiDigit b || b == 0x5f || b == 0x2d || b == 0x2a || b == 0x2e

/-- `is_tchar` of `src/webtransport.rs`. -/
def isTchar (b : UInt8) : Bool := isTokenMark b || isAsciiDigit b || isAsciiAlphabetic b

/-- `tchar / ":" / "/"`. -/
def isTokenByte (b : UInt8) : Bool := isTchar b || b == 0x3a || b == 0x2f

/-- `ALPHA / DIGIT / "+" / "/" / "="`. -/
def isBase64Byte (b : UInt8) : Bool := isAsciiAlphanumeric b || b == 0x2b || b == 0x2f || b == 0x3d

/-- The value of a hexadecimal digit, whose letters are lower-case. -/
def lowerHex (b : UInt8) : Option UInt8 :=
  if 0x30 ≤ b ∧ b ≤ 0x39 then some (b - 0x30)
  else if 0x61 ≤ b ∧ b ≤ 0x66 then some (b - 0x61 + 10)
  else none

/-! ## Bare items -/

/-- At least `m` and at most `n` digits. -/
def Digits (m n : Nat) (text : Bytes) : Prop :=
  m ≤ text.length ∧ text.length ≤ n ∧ ∀ b ∈ text, isAsciiDigit b = true

def decimalValue (digits : Bytes) : Nat := digits.foldl (fun n b => n * 10 + (b.toNat - 0x30)) 0

/-- `[ "-" ] 1*15DIGIT`. -/
inductive SfInteger : Bytes → Int → Prop
  | plain {t : Bytes} : Digits 1 15 t → SfInteger t (decimalValue t)
  | minus {t : Bytes} : Digits 1 15 t → SfInteger (0x2d :: t) (-decimalValue t)

/-- `[ "-" ] 1*12DIGIT "." 1*3DIGIT`. -/
inductive SfDecimal : Bytes → Prop
  | plain {t f : Bytes} : Digits 1 12 t → Digits 1 3 f → SfDecimal (t ++ 0x2e :: f)
  | minus {t f : Bytes} : Digits 1 12 t → Digits 1 3 f → SfDecimal (0x2d :: (t ++ 0x2e :: f))

/-- What stands between the quotes, and the octets that it stands for. -/
inductive StringChars : Bytes → Bytes → Prop
  | nil : StringChars [] []
  | plain {b : UInt8} {t s : Bytes} : Printable b → b ≠ 0x22 → b ≠ 0x5c → StringChars t s →
      StringChars (b :: t) (b :: s)
  | escaped {b : UInt8} {t s : Bytes} : b = 0x5c ∨ b = 0x22 → StringChars t s →
      StringChars (0x5c :: b :: t) (b :: s)

/-- `DQUOTE *( unescaped / bs-escaped ) DQUOTE`. -/
inductive SfString : Bytes → Bytes → Prop
  | mk {t s : Bytes} : StringChars t s → SfString (0x22 :: (t ++ [0x22])) s

/-- `( ALPHA / "*" ) *( tchar / ":" / "/" )`. -/
inductive SfToken : Bytes → Prop
  | mk {b : UInt8} {t : Bytes} : isAsciiAlphabetic b = true ∨ b = 0x2a →
      (∀ c ∈ t, isTokenByte c = true) → SfToken (b :: t)

/-- `":" *base64 ":"`. -/
inductive SfByteSequence : Bytes → Prop
  | mk {t : Bytes} : (∀ c ∈ t, isBase64Byte c = true) → SfByteSequence (0x3a :: (t ++ [0x3a]))

/-- `"?" ( "0" / "1" )`. -/
inductive SfBoolean : Bytes → Prop
  | mk {b : UInt8} : b = 0x30 ∨ b = 0x31 → SfBoolean [0x3f, b]

/-- `"@" integer`. -/
inductive SfDate : Bytes → Prop
  | mk {t : Bytes} {n : Int} : SfInteger t n → SfDate (0x40 :: t)

/-- What stands between the quotes of a display string, and the octets that it stands for. -/
inductive DisplayChars : Bytes → Bytes → Prop
  | nil : DisplayChars [] []
  | plain {b : UInt8} {t s : Bytes} : Printable b → b ≠ 0x25 → b ≠ 0x22 → DisplayChars t s →
      DisplayChars (b :: t) (b :: s)
  | percent {a b high low : UInt8} {t s : Bytes} : lowerHex a = some high → lowerHex b = some low →
      DisplayChars t s → DisplayChars (0x25 :: a :: b :: t) ((high <<< 4 ||| low) :: s)

/-- `"%" DQUOTE *( unescaped / "\" / pct-encoded ) DQUOTE`, of octets that are UTF-8. -/
inductive SfDisplayString : Bytes → Prop
  | mk {t s : Bytes} : DisplayChars t s → (fromUtf8 s).isSome = true →
      SfDisplayString (0x25 :: 0x22 :: (t ++ [0x22]))

inductive BareItem : Bytes → SfValue → Prop
  | integer {t : Bytes} {n : Int} : SfInteger t n → BareItem t (.integer n)
  | decimal {t : Bytes} : SfDecimal t → BareItem t .decimal
  | string {t s : Bytes} : SfString t s → BareItem t .string
  | token {t : Bytes} : SfToken t → BareItem t .token
  | byteSequence {t : Bytes} : SfByteSequence t → BareItem t .byteSequence
  | boolean {t : Bytes} : SfBoolean t → BareItem t .boolean
  | date {t : Bytes} : SfDate t → BareItem t .date
  | displayString {t : Bytes} : SfDisplayString t → BareItem t .displayString

/-! ## Parameters, inner lists and dictionaries -/

/-- `( lcalpha / "*" ) *( lcalpha / DIGIT / "_" / "-" / "." / "*" )`. -/
inductive Key : Bytes → Prop
  | mk {b : UInt8} {t : Bytes} : isAsciiLowercase b = true ∨ b = 0x2a →
      (∀ c ∈ t, isKeyByte c = true) → Key (b :: t)

section
variable (Item : Bytes → Prop)

/-- `";" *SP key [ "=" bare-item ]`. -/
inductive Parameter : Bytes → Prop
  | flag {sp k : Bytes} : Spaces sp → Key k → Parameter (0x3b :: (sp ++ k))
  | value {sp k t : Bytes} : Spaces sp → Key k → Item t → Parameter (0x3b :: (sp ++ (k ++ 0x3d :: t)))

inductive Parameters : Bytes → Prop
  | nil : Parameters []
  | cons {t ts : Bytes} : Parameter Item t → Parameters ts → Parameters (t ++ ts)

end

/-- The parameters of a dictionary, whose values may be any bare items. -/
abbrev AnyParameters : Bytes → Prop := Parameters fun t => ∃ v, BareItem t v

/-- What stands behind `"(" *SP`, the closing bracket included. -/
inductive InnerItems : Bytes → Prop
  | close : InnerItems [0x29]
  | last {t ps : Bytes} {v : SfValue} : BareItem t v → AnyParameters ps →
      InnerItems (t ++ (ps ++ [0x29]))
  | next {t ps sp ts : Bytes} {v : SfValue} : BareItem t v → AnyParameters ps → Spaces sp → sp ≠ [] →
      InnerItems ts → InnerItems (t ++ (ps ++ (sp ++ ts)))

/-- `"(" *SP [ item *( 1*SP item ) *SP ] ")"`, where an item is a bare item with parameters. -/
inductive InnerList : Bytes → Prop
  | mk {sp t : Bytes} : Spaces sp → InnerItems t → InnerList (0x28 :: (sp ++ t))

/-- A key with its value: an item, an inner list, or true where none is given. -/
inductive Member : Bytes → Bytes × SfValue → Prop
  | flag {k ps : Bytes} : Key k → AnyParameters ps → Member (k ++ ps) (k, .boolean)
  | item {k t ps : Bytes} {v : SfValue} : Key k → BareItem t v → AnyParameters ps →
      Member (k ++ 0x3d :: (t ++ ps)) (k, v)
  | innerList {k t ps : Bytes} : Key k → InnerList t → AnyParameters ps →
      Member (k ++ 0x3d :: (t ++ ps)) (k, .innerList)

/-- Elements with commas between them; blanks may stand around each comma and behind the last
element, but no comma. -/
inductive Joined {α : Type} (G : Bytes → α → Prop) : Bytes → List α → Prop
  | last {t o : Bytes} {a : α} : G t a → Ows o → Joined G (t ++ o) [a]
  | cons {t o o' ts : Bytes} {a : α} {as : List α} : G t a → Ows o → Ows o' → Joined G ts as →
      Joined G (t ++ (o ++ 0x2c :: (o' ++ ts))) (a :: as)

/-- Elements behind blanks, which may be none at all. -/
inductive Listed {α : Type} (G : Bytes → α → Prop) : Bytes → List α → Prop
  | empty {o : Bytes} : Ows o → Listed G o []
  | elements {o t : Bytes} {as : List α} : Ows o → Joined G t as → Listed G (o ++ t) as

abbrev Dictionary : Bytes → List (Bytes × SfValue) → Prop := Listed Member

theorem Parameters.mono {Item Item' : Bytes → Prop} {text : Bytes} (h : Parameters Item text)
    (hItem : ∀ {t}, Item t → Item' t) : Parameters Item' text := by
  induction h with
  | nil => exact .nil
  | cons ht _ ih =>
    cases ht with
    | flag hsp hk => exact .cons (.flag hsp hk) ih
    | value hsp hk ht => exact .cons (.value hsp hk (hItem ht)) ih

theorem Listed.mono {α : Type} {G G' : Bytes → α → Prop} {text : Bytes} {as : List α}
    (h : Listed G text as) (hG : ∀ {t a}, G t a → G' t a) : Listed G' text as := by
  cases h with
  | empty ho => exact .empty ho
  | elements ho ht =>
    refine .elements ho ?_
    clear ho
    induction ht with
    | last ht ho => exact .last (hG ht) ho
    | cons ht ho ho' _ ih => exact .cons (hG ht) ho ho' ih

/-! ## Only ASCII -/

def Ascii (text : Bytes) : Prop := ∀ b ∈ text, b < 0x80

@[simp] theorem ascii_nil : Ascii [] := by
  intro b hb
  cases hb

@[simp] theorem ascii_cons {b : UInt8} {text : Bytes} : Ascii (b :: text) ↔ b < 0x80 ∧ Ascii text :=
  List.forall_mem_cons

@[simp] theorem ascii_append {t u : Bytes} : Ascii (t ++ u) ↔ Ascii t ∧ Ascii u :=
  List.forall_mem_append

/-- A fact about every octet, from its 256 cases. -/
theorem forall_octet {p : UInt8 → Prop} (h : ∀ n : Fin 256, p (UInt8.ofNat n)) (b : UInt8) : p b := by
  simpa using h ⟨b.toNat, b.toNat_lt⟩

/-- The octets of a class that ends below 0x80. -/
theorem ascii_of_class {p : UInt8 → Bool}
    (hp : ∀ n : Fin 256, p (UInt8.ofNat n) = true → UInt8.ofNat n < 0x80)
    {text : Bytes} (h : ∀ b ∈ text, p b = true) : Ascii text := by
  intro b hb
  exact forall_octet (p := fun b => p b = true → b < 0x80) hp b (h b hb)

theorem fromUtf8_ascii {text : Bytes} (h : Ascii text) :
    fromUtf8 text = some (String.ofList (text.map fun b => Char.ofNat b.toNat)) := by
  rw [← fromUtf8_encode, Lib.Utf8.encode_ascii h]

theorem Spaces.ascii {text : Bytes} (h : Spaces text) : Ascii text := by
  intro b hb
  rw [h b hb]
  decide

theorem Ows.ascii {text : Bytes} (h : Ows text) : Ascii text := by
  intro b hb
  obtain rfl | rfl := h b hb
  · decide
  · decide

theorem Printable.ascii {b : UInt8} (h : Printable b) : b < 0x80 :=
  UInt8.lt_of_le_of_lt h.2 (by decide)

theorem Digits.ascii {m n : Nat} {text : Bytes} (h : Digits m n text) : Ascii text :=
  ascii_of_class (by decide +kernel) h.2.2

theorem SfInteger.ascii {text : Bytes} {n : Int} (h : SfInteger text n) : Ascii text := by
  cases h with
  | plain ht => exact ht.ascii
  | minus ht => simp [ht.ascii]

theorem SfDecimal.ascii {text : Bytes} (h : SfDecimal text) : Ascii text := by
  cases h with
  | plain ht hf => simp [ht.ascii, hf.ascii]
  | minus ht hf => simp [ht.ascii, hf.ascii]

theorem StringChars.ascii {text s : Bytes} (h : StringChars text s) : Ascii text := by
  induction h with
  | nil => exact ascii_nil
  | plain hb _ _ _ ih => exact ascii_cons.2 ⟨hb.ascii, ih⟩
  | escaped hb _ ih => obtain rfl | rfl := hb <;> simp [ih]

theorem lowerHex_ascii {b n : UInt8} (h : lowerHex b = some n) : b < 0x80 := by
  unfold lowerHex at h
  split at h
  · rename_i hdigit
    exact UInt8.lt_of_le_of_lt hdigit.2 (by decide)
  · split at h
    · rename_i hletter
      exact UInt8.lt_of_le_of_lt hletter.2 (by decide)
    · cases h

theorem DisplayChars.ascii {text s : Bytes} (h : DisplayChars text s) : Ascii text := by
  induction h with
  | nil => exact ascii_nil
  | plain hb _ _ _ ih => exact ascii_cons.2 ⟨hb.ascii, ih⟩
  | percent hhigh hlow _ ih => simp [lowerHex_ascii hhigh, lowerHex_ascii hlow, ih]

theorem SfToken.ascii {text : Bytes} (h : SfToken text) : Ascii text := by
  cases h with
  | @mk b t hb ht =>
    have htail : Ascii t := ascii_of_class (by decide +kernel) ht
    refine ascii_cons.2 ⟨?_, htail⟩
    obtain hb | rfl := hb
    · exact (ascii_of_class (by decide +kernel) (List.forall_mem_singleton.2 hb)) b (List.mem_singleton.2 rfl)
    · decide

theorem BareItem.ascii {text : Bytes} {v : SfValue} (h : BareItem text v) : Ascii text := by
  cases h with
  | integer h => exact h.ascii
  | decimal h => exact h.ascii
  | string h =>
    cases h with
    | mk ht => simp [ht.ascii]
  | token h => exact h.ascii
  | byteSequence h =>
    cases h with
    | @mk t ht =>
      have htext : Ascii t := ascii_of_class (by decide +kernel) ht
      simp [htext]
  | boolean h =>
    cases h with
    | mk hb => obtain rfl | rfl := hb <;> simp
  | date h =>
    cases h with
    | mk hn => simp [hn.ascii]
  | displayString h =>
    cases h with
    | mk ht _ => simp [ht.ascii]

theorem Key.ascii {text : Bytes} (h : Key text) : Ascii text := by
  cases h with
  | @mk b t hb ht =>
    have htail : Ascii t := ascii_of_class (by decide +kernel) ht
    refine ascii_cons.2 ⟨?_, htail⟩
    obtain hb | rfl := hb
    · exact (ascii_of_class (by decide +kernel) (List.forall_mem_singleton.2 hb)) b (List.mem_singleton.2 rfl)
    · decide

theorem Parameters.ascii {Item : Bytes → Prop} (hItem : ∀ {t}, Item t → Ascii t) {text : Bytes}
    (h : Parameters Item text) : Ascii text := by
  induction h with
  | nil => exact ascii_nil
  | cons ht _ ih =>
    cases ht with
    | flag hsp hk => simp [hsp.ascii, hk.ascii, ih]
    | value hsp hk ht => simp [hsp.ascii, hk.ascii, hItem ht, ih]

theorem AnyParameters.ascii {text : Bytes} (h : AnyParameters text) : Ascii text :=
  Parameters.ascii (fun ⟨_, ht⟩ => ht.ascii) h

theorem InnerItems.ascii {text : Bytes} (h : InnerItems text) : Ascii text := by
  induction h with
  | close => simp
  | last ht hps => simp [ht.ascii, AnyParameters.ascii hps]
  | next ht hps hsp _ _ ih => simp [ht.ascii, AnyParameters.ascii hps, hsp.ascii, ih]

theorem Member.ascii {text : Bytes} {m : Bytes × SfValue} (h : Member text m) : Ascii text := by
  cases h with
  | flag hk hps => simp [hk.ascii, AnyParameters.ascii hps]
  | item hk ht hps => simp [hk.ascii, ht.ascii, AnyParameters.ascii hps]
  | innerList hk ht hps =>
    cases ht with
    | mk hsp ht => simp [hk.ascii, hsp.ascii, ht.ascii, AnyParameters.ascii hps]

theorem Joined.ascii {α : Type} {G : Bytes → α → Prop} (hG : ∀ {t a}, G t a → Ascii t) {text : Bytes}
    {as : List α} (h : Joined G text as) : Ascii text := by
  induction h with
  | last ht ho => simp [hG ht, ho.ascii]
  | cons ht ho ho' _ ih => simp [hG ht, ho.ascii, ho'.ascii, ih]

theorem Listed.ascii {α : Type} {G : Bytes → α → Prop} (hG : ∀ {t a}, G t a → Ascii t) {text : Bytes}
    {as : List α} (h : Listed G text as) : Ascii text := by
  cases h with
  | empty ho => exact ho.ascii
  | elements ho ht => simp [ho.ascii, ht.ascii hG]

end StructuredField

end Http2.WebTransport
