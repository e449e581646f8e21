import Http2.WebTransport.Scan

/-! The WebTransport-Init header field: `src/webtransport/init.rs`. The parser accepts the dictionaries
whose members `u`, `bl` and `br` are integers from 0 on, and takes the last one of each name. -/
namespace Http2.WebTransport

open Lib Lib.Scanner StructuredField

/-- What every message of the parser starts with. -/
def initLabel : String := "WebTransport-Init"

/-- `SfNumber`. -/
inductive SfNumber
  | integer (n : Int)
  | decimal
  deriving DecidableEq, Repr

/-- `str::parse::<i64>`. -/
def parseI64 (text : Bytes) : Option Int :=
  let digits := if text.head? = some 0x2d ∨ text.head? = some 0x2b then text.tail else text
  let n : Int := if text.head? = some 0x2d then -decimalValue digits else decimalValue digits
  if digits ≠ [] ∧ digits.all isAsciiDigit = true ∧ -2 ^ 63 ≤ n ∧ n < 2 ^ 63 then some n else none

/-- The integer of a text that has no more than 15 digits. -/
def convert (text : Bytes) : Scan SfNumber :=
  match fromUtf8 text with
  | none => invalid initLabel ": integer is not valid UTF-8"
  | some _ =>
    match parseI64 text with
    | none => invalid initLabel ": failed to parse integer"
    | some n => return .integer n

/-- `parse_number` behind the sign. -/
def numberBody (minus : Bool) : Scan SfNumber := do
  let digits ← takeWhile isAsciiDigit
  if digits.length = 0 then invalid initLabel ": integer must contain at least one digit"
  else if (← peek) = some 0x2e then
    if 12 < digits.length then invalid initLabel ": decimal integer part exceeds 12 digits"
    else do
      advance
      let fraction ← takeWhile isAsciiDigit
      if 1 ≤ fraction.length ∧ fraction.length ≤ 3 then return .decimal
      else invalid initLabel ": decimal fractional part must be 1-3 digits"
  else if 15 < digits.length then invalid initLabel ": integer exceeds 15 digits"
  else convert (if minus then 0x2d :: digits else digits)

/-- `parse_number`. -/
def parseNumber : Scan SfNumber := do
  let minus ← consumeIfEq 0x2d
  numberBody minus

/-- `skip_date`. -/
def skipDate : Scan Unit := do
  advance
  match ← parseNumber with
  | .integer _ => return ()
  | .decimal => invalid initLabel ": date must not be a decimal"

/-- `next_hex_digit`. -/
def nextHexDigit : Scan UInt8 := do
  match ← peek with
  | none => invalid initLabel ": percent encoding must contain two lowercase hexadecimal digits"
  | some b =>
    match lowerHex b with
    | some digit => do
      advance
      return digit
    | none => invalid initLabel ": percent encoding must use lowercase hexadecimal digits"

/-- A turn of the loop of `skip_display_string`, with the octets so far. -/
def displayTurn (bytes : Bytes) : Scan (Bytes ⊕ Bytes) := do
  match ← peek with
  | none => invalid initLabel ": unterminated display string"
  | some b => do
    advance
    if ¬ Printable b then invalid initLabel ": invalid character in display string"
    else if b = 0x25 then do
      let high ← nextHexDigit
      let low ← nextHexDigit
      return .inl (bytes ++ [high <<< 4 ||| low])
    else if b = 0x22 then return .inr bytes
    else return .inl (bytes ++ [b])

/-- `skip_display_string`. -/
def skipDisplayString : Scan Unit := do
  advance
  if !(← consumeIfEq 0x22) then invalid initLabel ": display string must start with percent-DQUOTE"
  else do
    let bytes ← loop stuck displayTurn []
    match fromUtf8 bytes with
    | none => invalid initLabel ": display string is not valid UTF-8"
    | some _ => return ()

/-- `parse_bare_item` behind the look at the first octet. -/
def itemFrom (b : UInt8) : Scan SfValue :=
  if b = 0x2d ∨ isAsciiDigit b = true then do
    match ← parseNumber with
    | .integer n => return .integer n
    | .decimal => return .decimal
  else if b = 0x22 then do
    skipString initLabel
    return .string
  else if b = 0x3f then do
    skipBoolean initLabel
    return .boolean
  else if b = 0x3a then do
    skipByteSequence initLabel
    return .byteSequence
  else if b = 0x40 then do
    skipDate
    return .date
  else if b = 0x25 then do
    skipDisplayString
    return .displayString
  else if b = 0x2a ∨ isAsciiAlphabetic b = true then do
    skipToken initLabel
    return .token
  else invalid initLabel ": unexpected character at start of bare item"

/-- `parse_bare_item`. -/
def parseBareItem : Scan SfValue := do
  match ← peek with
  | some b => itemFrom b
  | none => invalid initLabel ": unexpected character at start of bare item"

/-- `parse_key`. -/
def parseKey : Scan Bytes := scanKey initLabel ": dictionary key must start with lcalpha or '*'"

/-- `skip_parameters`. -/
def skipAnyParameters : Scan Unit :=
  skipParameters parseKey do
    let _ ← parseBareItem

/-- What comes behind an item of an inner list and its parameters. -/
def innerEnd : Scan (Unit ⊕ Unit) := do
  match ← peek with
  | some b =>
    if b = 0x20 then return .inl ()
    else if b = 0x29 then do
      advance
      return .inr ()
    else invalid initLabel ": invalid character in inner list"
  | none => invalid initLabel ": invalid character in inner list"

/-- A turn of the loop of `parse_inner_list`. -/
def innerTurn (_ : Unit) : Scan (Unit ⊕ Unit) := do
  skipSpaces
  if ← consumeIfEq 0x29 then return .inr ()
  else do
    let _ ← parseBareItem
    skipAnyParameters
    innerEnd

/-- `parse_inner_list`. -/
def parseInnerList : Scan SfValue := do
  if !(← consumeIfEq 0x28) then invalid initLabel ": inner list must start with '('"
  else do
    loop stuck innerTurn ()
    return .innerList

/-- `parse_value`. -/
def parseValue : Scan SfValue := do
  if (← peek) = some 0x28 then parseInnerList else parseBareItem

/-- A member of the dictionary with its parameters. -/
def scanMember : Scan (Bytes × SfValue) := do
  let key ← parseKey
  let value ← (do if ← consumeIfEq 0x3d then parseValue else return .boolean)
  skipAnyParameters
  return (key, value)

/-- `WtInit`. -/
structure WtInit where
  u : Option Nat
  bl : Option Nat
  br : Option Nat
  deriving DecidableEq, Repr

namespace WtInit

/-- `extract_nonneg_integer`. -/
def extractNonnegInteger (value : SfValue) (key : String) : WtResult Nat :=
  match value with
  | .integer n =>
    if 0 ≤ n then .ok n.toNat
    else .error (.invalidInput (initLabel ++ ": key '" ++ key ++ "' must be non-negative integer"))
  | _ => .error (.invalidInput (initLabel ++ ": key '" ++ key ++ "' must be an Integer"))

/-- What a member changes: only a key that is known counts. -/
def put (out : WtInit) (member : Bytes × SfValue) : WtResult WtInit :=
  if member.1 = ascii "u" then do return { out with u := some (← extractNonnegInteger member.2 "u") }
  else if member.1 = ascii "bl" then do return { out with bl := some (← extractNonnegInteger member.2 "bl") }
  else if member.1 = ascii "br" then do return { out with br := some (← extractNonnegInteger member.2 "br") }
  else .ok out

/-- A turn of the loop of `parse`. -/
def turn (out : WtInit) : Scan (WtInit ⊕ WtInit) := do
  if ← isEmpty then return .inr out
  else elementTurn scanMember put (separator initLabel ": expected ',' between dictionary members") out

/-- `WtInit::default`. -/
def default : WtInit := ⟨none, none, none⟩

/-- `parse` behind the check for ASCII. -/
def scan : Scan WtInit := do
  skipOws
  loop stuck turn default

/-- `WtInit::parse`. -/
def parse (value : Bytes) : WtResult WtInit :=
  if value.any fun b => decide (0x80 ≤ b) then
    .error (.invalidInput (initLabel ++ ": non-ASCII byte in header value"))
  else (scan value).map Prod.fst

end WtInit

/-! ## Numbers -/

theorem decimalValue_append (t : Bytes) (b : UInt8) :
    decimalValue (t ++ [b]) = decimalValue t * 10 + (b.toNat - 0x30) := by
  rw [decimalValue, List.foldl_append]
  rfl

theorem digit_le {b : UInt8} (h : isAsciiDigit b = true) : b.toNat ≤ 0x39 := by
  rw [isAsciiDigit, Bool.and_eq_true, decide_eq_true_eq, decide_eq_true_eq] at h
  exact UInt8.le_iff_toNat_le.1 h.2

theorem decimalValue_lt {t : Bytes} (h : ∀ b ∈ t, isAsciiDigit b = true) :
    decimalValue t < 10 ^ t.length := by
  induction t using List.reverseRecOn with
  | nil => decide
  | append_singleton t b ih =>
    have hlt := ih fun c hc => h c (List.mem_append_left _ hc)
    have hb := digit_le (h b (by simp))
    rw [decimalValue_append, List.length_append, List.length_singleton, Nat.pow_succ]
    omega

theorem digits_lt {m n : Nat} {t : Bytes} (h : Digits m n t) : decimalValue t < 10 ^ n :=
  lt_of_lt_of_le (decimalValue_lt h.2.2) (Nat.pow_le_pow_right (by decide) h.2.1)

/-- The number that digits with a sign stand for. -/
def signed (minus : Bool) (digits : Bytes) : Int :=
  if minus then -decimalValue digits else decimalValue digits

theorem parseI64_signed {t : Bytes} (h : Digits 1 15 t) (minus : Bool) :
    parseI64 (if minus then 0x2d :: t else t) = some (signed minus t) := by
  have hlt := digits_lt h
  have hne : t ≠ [] := List.length_pos_iff.1 h.1
  have hall : t.all isAsciiDigit = true := List.all_eq_true.2 h.2.2
  have hsmall : -2 ^ 63 ≤ signed minus t ∧ signed minus t < 2 ^ 63 := by
    rw [signed]
    split <;> omega
  cases minus with
  | true => exact if_pos ⟨hne, hall, hsmall⟩
  | false =>
    have hhead : t.head? ≠ some 0x2d ∧ ¬(t.head? = some 0x2d ∨ t.head? = some 0x2b) := by
      obtain ⟨b, t, rfl⟩ := List.exists_cons_of_ne_nil hne
      have hb := h.2.2 b (List.mem_cons_self ..)
      rw [List.head?_cons, Option.some_inj, Option.some_inj, ne_eq, Option.some_inj, not_or]
      have hminus : b ≠ 0x2d := by
        rintro rfl
        exact absurd hb (by decide)
      have hplus : b ≠ 0x2b := by
        rintro rfl
        exact absurd hb (by decide)
      exact ⟨hminus, hminus, hplus⟩
    simp only [Bool.false_eq_true, if_false]
    rw [parseI64, if_neg hhead.1, if_neg hhead.2]
    exact if_pos ⟨hne, hall, hsmall⟩

theorem convert_signed {t : Bytes} (h : Digits 1 15 t) (minus : Bool) :
    convert (if minus then 0x2d :: t else t) = pure (.integer (signed minus t)) := by
  have hascii : Ascii (if minus = true then 0x2d :: t else t) := by
    split
    · simp [h.ascii]
    · exact h.ascii
  rw [convert, fromUtf8_ascii hascii, parseI64_signed h]

/-- What `parse_number` takes behind the sign. -/
def Unsigned (minus : Bool) (text : Bytes) : SfNumber → Prop
  | .integer n => Digits 1 15 text ∧ n = signed minus text
  | .decimal => ∃ t f, text = t ++ 0x2e :: f ∧ Digits 1 12 t ∧ Digits 1 3 f

theorem ends_not_digit {rest : Bytes} (h : Ends rest) : ∀ b ∈ rest.head?, isAsciiDigit b = false :=
  h.stops (by decide +kernel)

theorem reads_numberBody (minus : Bool) : Reads (numberBody minus) (Unsigned minus) Ends := by
  constructor
  · intro input rest r h
    obtain ⟨digits, mid, hdigits, hbody⟩ := bind_eq_ok.1 h
    obtain ⟨rfl, hall, _⟩ := takeWhile_ok hdigits
    by_cases hzero : digits.length = 0
    · rw [if_pos hzero] at hbody
      cases hbody
    rw [if_neg hzero, bind_of_ok (peek_apply _)] at hbody
    split at hbody
    · rename_i hdot
      obtain ⟨tail, rfl⟩ := List.head?_eq_some_iff.1 hdot
      split at hbody
      · cases hbody
      · rw [bind_of_ok (advance_apply _), List.tail_cons] at hbody
        obtain ⟨fraction, last, hfraction, hret⟩ := bind_eq_ok.1 hbody
        obtain ⟨rfl, hfall, _⟩ := takeWhile_ok hfraction
        split at hret
        · rename_i hlong hlen
          cases hret
          exact ⟨digits ++ 0x2e :: fraction, by simp, digits, fraction, rfl,
            ⟨by omega, by omega, hall⟩, hlen.1, hlen.2, hfall⟩
        · cases hret
    · split at hbody
      · cases hbody
      · rename_i hlong
        have hd : Digits 1 15 digits := ⟨by omega, by omega, hall⟩
        rw [convert_signed hd] at hbody
        cases hbody
        exact ⟨digits, rfl, hd, rfl⟩
  · intro text rest r h hends
    cases r with
    | integer n =>
      obtain ⟨hd, rfl⟩ := h
      have hdot : rest.head? ≠ some 0x2e := fun hhead => absurd (hends _ hhead) (by decide)
      have hpos := hd.1
      have hle := hd.2.1
      rw [numberBody, bind_of_ok (takeWhile_apply hd.2.2 (ends_not_digit hends)), if_neg (by omega),
        bind_of_ok (peek_apply _), if_neg hdot, if_neg (by omega), convert_signed hd]
      rfl
    | decimal =>
      obtain ⟨t, f, rfl, ⟨hpos, hle, hall⟩, hfpos, hfle, hfall⟩ := h
      have hdot : ∀ b ∈ (0x2e :: (f ++ rest)).head?, isAsciiDigit b = false := by
        rintro b ⟨⟩
        decide
      rw [List.append_assoc, List.cons_append, numberBody, bind_of_ok (takeWhile_apply hall hdot),
        if_neg (by omega), bind_of_ok (peek_apply _), if_pos (List.head?_cons ..), if_neg (by omega),
        bind_of_ok (advance_apply _), List.tail_cons,
        bind_of_ok (takeWhile_apply hfall (ends_not_digit hends)), if_pos ⟨hfpos, hfle⟩]
      rfl

/-- What `parse_number` takes. -/
def Number (text : Bytes) : SfNumber → Prop
  | .integer n => SfInteger text n
  | .decimal => SfDecimal text

theorem reads_parseNumber : Reads parseNumber Number Ends := by
  constructor
  · intro input rest r h
    obtain ⟨minus, mid, hminus, hbody⟩ := bind_eq_ok.1 h
    obtain ⟨text, rfl, htext⟩ := (reads_numberBody minus).sound hbody
    obtain ⟨rfl, rfl⟩ | ⟨rfl, rfl, _⟩ := consumeIfEq_ok hminus
    · refine ⟨0x2d :: text, rfl, ?_⟩
      cases r with
      | integer n =>
        obtain ⟨hd, rfl⟩ := htext
        exact .minus hd
      | decimal =>
        obtain ⟨t, f, rfl, ht, hf⟩ := htext
        exact .minus ht hf
    · refine ⟨text, rfl, ?_⟩
      cases r with
      | integer n =>
        obtain ⟨hd, rfl⟩ := htext
        exact .plain hd
      | decimal =>
        obtain ⟨t, f, rfl, ht, hf⟩ := htext
        exact .plain ht hf
  · intro text rest r h hends
    have hplain : ∀ {t u : Bytes} {m n : Nat}, Digits (m + 1) n t →
        (consumeIfEq 0x2d : Scan Bool) (t ++ u) = .ok (false, t ++ u) := by
      intro t u m n hd
      apply consumeIfEq_other
      obtain ⟨b, t, rfl⟩ := List.exists_cons_of_length_pos (lt_of_lt_of_le (Nat.succ_pos m) hd.1)
      rintro ⟨⟩
      exact absurd (hd.2.2 0x2d (List.mem_cons_self ..)) (by decide)
    cases r with
    | integer n =>
      cases h with
      | plain hd =>
        rw [parseNumber, bind_of_ok (hplain hd)]
        exact (reads_numberBody false).complete (a := .integer _) ⟨hd, rfl⟩ hends
      | minus hd =>
        rw [parseNumber, List.cons_append, bind_of_ok (consumeIfEq_cons _ _)]
        exact (reads_numberBody true).complete (a := .integer _) ⟨hd, rfl⟩ hends
    | decimal =>
      cases h with
      | @plain t f ht hf =>
        rw [parseNumber, List.append_assoc, bind_of_ok (hplain ht), ← List.append_assoc]
        exact (reads_numberBody false).complete (a := .decimal) ⟨t, f, rfl, ht, hf⟩ hends
      | @minus t f ht hf =>
        rw [parseNumber, List.cons_append, bind_of_ok (consumeIfEq_cons _ _)]
        exact (reads_numberBody true).complete (a := .decimal) ⟨t, f, rfl, ht, hf⟩ hends

/-! ## Dates and display strings -/

theorem skipDate_ok {input rest : Bytes} {u : Unit} (h : skipDate (0x40 :: input) = .ok (u, rest)) :
    ∃ t, 0x40 :: input = t ++ rest ∧ SfDate t := by
  rw [skipDate, bind_of_ok (advance_apply _), List.tail_cons] at h
  obtain ⟨r, mid, hnumber, hret⟩ := bind_eq_ok.1 h
  obtain ⟨t, rfl, ht⟩ := reads_parseNumber.sound hnumber
  cases r with
  | integer n =>
    cases hret
    exact ⟨0x40 :: t, rfl, .mk ht⟩
  | decimal => cases hret

theorem skipDate_apply {text rest : Bytes} (h : SfDate text) (hends : Ends rest) :
    skipDate (text ++ rest) = .ok ((), rest) := by
  cases h with
  | @mk t n ht =>
    have hnumber := reads_parseNumber.complete (a := .integer n) ht hends
    rw [skipDate, bind_of_ok (advance_apply _), List.cons_append, List.tail_cons, bind_of_ok hnumber]
    rfl

theorem nextHexDigit_ok {input rest : Bytes} {n : UInt8} (h : nextHexDigit input = .ok (n, rest)) :
    ∃ b, input = b :: rest ∧ lowerHex b = some n := by
  cases input with
  | nil => cases h
  | cons b input =>
    rw [nextHexDigit, bind_of_ok (peek_apply _)] at h
    simp only [List.head?_cons] at h
    cases hdigit : lowerHex b with
    | none =>
      rw [hdigit] at h
      cases h
    | some digit =>
      rw [hdigit] at h
      cases h
      exact ⟨b, rfl, hdigit⟩

theorem nextHexDigit_apply {b n : UInt8} (h : lowerHex b = some n) (rest : Bytes) :
    nextHexDigit (b :: rest) = .ok (n, rest) := by
  rw [nextHexDigit, bind_of_ok (peek_apply _)]
  simp only [List.head?_cons, h]
  rfl

/-- What a turn of `skip_display_string` takes. -/
inductive DisplayTurn (bytes : Bytes) : Bytes → Bytes ⊕ Bytes → Prop
  | close : DisplayTurn bytes [0x22] (.inr bytes)
  | plain {b : UInt8} : Printable b → b ≠ 0x25 → b ≠ 0x22 → DisplayTurn bytes [b] (.inl (bytes ++ [b]))
  | percent {a b high low : UInt8} : lowerHex a = some high → lowerHex b = some low →
      DisplayTurn bytes [0x25, a, b] (.inl (bytes ++ [high <<< 4 ||| low]))

theorem reads_displayTurn (bytes : Bytes) (F : Bytes → Prop) :
    Reads (displayTurn bytes) (DisplayTurn bytes) F := by
  constructor
  · intro input rest r h
    cases input with
    | nil => cases h
    | cons b input =>
      rw [displayTurn, bind_of_ok (peek_apply _)] at h
      simp only [List.head?_cons] at h
      rw [bind_of_ok (advance_apply _), List.tail_cons] at h
      split at h
      · cases h
      · rename_i hprint
        split at h
        · rename_i hpercent
          obtain ⟨high, mid, hhigh, hnext⟩ := bind_eq_ok.1 h
          obtain ⟨low, last, hlow, hret⟩ := bind_eq_ok.1 hnext
          obtain ⟨a, rfl, ha⟩ := nextHexDigit_ok hhigh
          obtain ⟨c, rfl, hc⟩ := nextHexDigit_ok hlow
          cases hret
          rw [hpercent]
          exact ⟨[0x25, a, c], rfl, .percent ha hc⟩
        · rename_i hpercent
          split at h
          · rename_i hquote
            cases h
            rw [hquote]
            exact ⟨[0x22], rfl, .close⟩
          · rename_i hquote
            cases h
            exact ⟨[b], rfl, .plain (not_not.1 hprint) hpercent hquote⟩
  · intro text rest r h _
    cases h with
    | close => rfl
    | @plain b hprint hpercent hquote =>
      rw [displayTurn, bind_of_ok (peek_apply _)]
      simp only [List.cons_append, List.nil_append, List.head?_cons]
      rw [bind_of_ok (advance_apply _), if_neg (not_not.2 hprint), if_neg hpercent, if_neg hquote]
      rfl
    | @percent a b high low hhigh hlow =>
      rw [displayTurn, bind_of_ok (peek_apply _)]
      simp only [List.cons_append, List.nil_append, List.head?_cons]
      rw [bind_of_ok (advance_apply _), if_neg (by decide), if_pos trivial, List.tail_cons,
        bind_of_ok (nextHexDigit_apply hhigh _), bind_of_ok (nextHexDigit_apply hlow _)]
      rfl

theorem turns_display (bytes text out : Bytes) :
    Scanner.Turns DisplayTurn bytes text out ↔
      ∃ t s, text = t ++ [0x22] ∧ DisplayChars t s ∧ out = bytes ++ s := by
  constructor
  · intro hturns
    induction hturns with
    | stop hturn =>
      cases hturn
      exact ⟨[], [], rfl, .nil, (List.append_nil _).symm⟩
    | turn hturn _ ih =>
      obtain ⟨t, s, rfl, hts, rfl⟩ := ih
      cases hturn with
      | @plain b hprint hpercent hquote =>
        exact ⟨b :: t, b :: s, rfl, .plain hprint hpercent hquote hts, by simp⟩
      | percent hhigh hlow => exact ⟨_, _, rfl, .percent hhigh hlow hts, by simp⟩
  · rintro ⟨t, s, rfl, hts, rfl⟩
    induction hts generalizing bytes with
    | nil =>
      rw [List.append_nil]
      exact .stop .close
    | @plain b t s hprint hpercent hquote _ ih =>
      have hrest := ih (bytes ++ [b])
      rw [List.append_assoc] at hrest
      exact Scanner.Turns.turn (t := [b]) (.plain hprint hpercent hquote) hrest
    | @percent a b high low t s hhigh hlow _ ih =>
      have hrest := ih (bytes ++ [high <<< 4 ||| low])
      rw [List.append_assoc] at hrest
      exact Scanner.Turns.turn (t := [0x25, a, b]) (.percent hhigh hlow) hrest

theorem reads_displayChars (F : Bytes → Prop) :
    Reads (loop stuck displayTurn [])
      (fun text s => ∃ t, text = t ++ [0x22] ∧ DisplayChars t s) F := by
  have hloop := reads_loop (e := stuck) (f := displayTurn) (G := DisplayTurn) (F := F)
    (fun h => (reads_displayTurn _ F).sound h)
    (by
      rintro _ _ _ hturn rfl
      cases hturn)
    (by
      intro _ _ _ _ _ _ hturn _ _
      exact (reads_displayTurn _ fun _ => True).complete hturn trivial)
    (fun hturn hf => (reads_displayTurn _ F).complete hturn hf) []
  apply hloop.mono
  · intro text s
    rw [turns_display]
    constructor
    · rintro ⟨t, s, rfl, hts, rfl⟩
      exact ⟨t, rfl, hts⟩
    · rintro ⟨t, rfl, hts⟩
      exact ⟨t, s, rfl, hts, rfl⟩
  · exact id

theorem skipDisplayString_ok {input rest : Bytes} {u : Unit}
    (h : skipDisplayString (0x25 :: input) = .ok (u, rest)) :
    ∃ t, 0x25 :: input = t ++ rest ∧ SfDisplayString t := by
  rw [skipDisplayString, bind_of_ok (advance_apply _), List.tail_cons] at h
  obtain ⟨taken, mid, htaken, hloop⟩ := bind_eq_ok.1 h
  obtain ⟨rfl, rfl⟩ | ⟨rfl, rfl, _⟩ := consumeIfEq_ok htaken
  · rw [if_neg (by decide)] at hloop
    obtain ⟨bytes, last, hbytes, hcheck⟩ := bind_eq_ok.1 hloop
    obtain ⟨_, rfl, t, rfl, ht⟩ := (reads_displayChars fun _ => True).sound hbytes
    cases hutf : fromUtf8 bytes with
    | none =>
      rw [hutf] at hcheck
      cases hcheck
    | some s =>
      rw [hutf] at hcheck
      cases hcheck
      exact ⟨0x25 :: 0x22 :: (t ++ [0x22]), rfl, .mk ht (by rw [hutf]; rfl)⟩
  · cases hloop

theorem skipDisplayString_apply {text : Bytes} (h : SfDisplayString text) (rest : Bytes) :
    skipDisplayString (text ++ rest) = .ok ((), rest) := by
  cases h with
  | @mk t s ht hutf =>
    have hloop := (reads_displayChars fun _ => True).complete (r := rest) ⟨t, rfl, ht⟩ trivial
    obtain ⟨str, hstr⟩ := Option.isSome_iff_exists.1 hutf
    rw [skipDisplayString, bind_of_ok (advance_apply _), List.cons_append, List.tail_cons,
      List.cons_append, bind_of_ok (consumeIfEq_cons _ _), if_neg (by decide), bind_of_ok hloop, hstr]
    rfl

/-! ## Bare items -/

/-- The octets that a bare item starts with. -/
def isItemStart (b : UInt8) : Bool :=
  isAsciiDigit b || isAsciiAlphabetic b || [0x2d, 0x22, 0x3f, 0x3a, 0x40, 0x25, 0x2a].contains b

theorem StructuredField.SfInteger.start {text : Bytes} {n : Int} (h : SfInteger text n) :
    ∃ b t, text = b :: t ∧ (b = 0x2d ∨ isAsciiDigit b = true) := by
  cases h with
  | plain ht =>
    obtain ⟨b, t, rfl⟩ := List.exists_cons_of_length_pos ht.1
    exact ⟨b, t, rfl, .inr (ht.2.2 b (List.mem_cons_self ..))⟩
  | minus _ => exact ⟨_, _, rfl, .inl rfl⟩

theorem StructuredField.SfDecimal.start {text : Bytes} (h : SfDecimal text) :
    ∃ b t, text = b :: t ∧ (b = 0x2d ∨ isAsciiDigit b = true) := by
  cases h with
  | plain ht _ =>
    obtain ⟨b, t, rfl⟩ := List.exists_cons_of_length_pos ht.1
    exact ⟨b, _, rfl, .inr (ht.2.2 b (List.mem_cons_self ..))⟩
  | minus _ _ => exact ⟨_, _, rfl, .inl rfl⟩

theorem itemStart_of_number : ∀ b, b = 0x2d ∨ isAsciiDigit b = true → isItemStart b = true :=
  forall_octet (by decide +kernel)

theorem StructuredField.BareItem.start {text : Bytes} {v : SfValue} (h : BareItem text v) :
    ∃ b t, text = b :: t ∧ isItemStart b = true := by
  cases h with
  | integer h =>
    obtain ⟨b, t, rfl, hb⟩ := h.start
    exact ⟨b, t, rfl, itemStart_of_number b hb⟩
  | decimal h =>
    obtain ⟨b, t, rfl, hb⟩ := h.start
    exact ⟨b, t, rfl, itemStart_of_number b hb⟩
  | string h => cases h with | mk => exact ⟨_, _, rfl, by decide⟩
  | token h =>
    cases h with
    | @mk b t hb _ =>
      refine ⟨b, t, rfl, ?_⟩
      obtain hb | rfl := hb
      · simp [isItemStart, hb]
      · decide
  | byteSequence h => cases h with | mk => exact ⟨_, _, rfl, by decide⟩
  | boolean h => cases h with | mk => exact ⟨_, _, rfl, by decide⟩
  | date h => cases h with | mk => exact ⟨_, _, rfl, by decide⟩
  | displayString h => cases h with | mk => exact ⟨_, _, rfl, by decide⟩

theorem parseBareItem_cons (b : UInt8) (rest : Bytes) :
    parseBareItem (b :: rest) = itemFrom b (b :: rest) := rfl

theorem itemFrom_ok {b : UInt8} {input rest : Bytes} {v : SfValue}
    (h : itemFrom b (b :: input) = .ok (v, rest)) :
    ∃ t, b :: input = t ++ rest ∧ BareItem t v := by
  unfold itemFrom at h
  split at h
  · obtain ⟨r, mid, hnumber, hret⟩ := bind_eq_ok.1 h
    obtain ⟨t, heq, ht⟩ := reads_parseNumber.sound hnumber
    cases r with
    | integer n =>
      cases hret
      exact ⟨t, heq, .integer ht⟩
    | decimal =>
      cases hret
      exact ⟨t, heq, .decimal ht⟩
  split at h
  · obtain ⟨_, mid, hskip, hret⟩ := bind_eq_ok.1 h
    obtain ⟨t, heq, s, ht⟩ := (reads_skipString initLabel fun _ => True).sound hskip
    cases hret
    exact ⟨t, heq, .string ht⟩
  split at h
  · obtain ⟨_, mid, hskip, hret⟩ := bind_eq_ok.1 h
    obtain ⟨t, heq, ht⟩ := (reads_skipBoolean initLabel fun _ => True).sound hskip
    cases hret
    exact ⟨t, heq, .boolean ht⟩
  split at h
  · obtain ⟨_, mid, hskip, hret⟩ := bind_eq_ok.1 h
    obtain ⟨t, heq, ht⟩ := (reads_skipByteSequence initLabel fun _ => True).sound hskip
    cases hret
    exact ⟨t, heq, .byteSequence ht⟩
  split at h
  · rename_i hat
    subst hat
    obtain ⟨_, mid, hskip, hret⟩ := bind_eq_ok.1 h
    obtain ⟨t, heq, ht⟩ := skipDate_ok hskip
    cases hret
    exact ⟨t, heq, .date ht⟩
  split at h
  · rename_i hpercent
    subst hpercent
    obtain ⟨_, mid, hskip, hret⟩ := bind_eq_ok.1 h
    obtain ⟨t, heq, ht⟩ := skipDisplayString_ok hskip
    cases hret
    exact ⟨t, heq, .displayString ht⟩
  split at h
  · obtain ⟨_, mid, hskip, hret⟩ := bind_eq_ok.1 h
    obtain ⟨t, heq, ht⟩ := (reads_skipToken initLabel).sound hskip
    cases hret
    exact ⟨t, heq, .token ht⟩
  · cases h

/-- The first octet of a token leads past all the other kinds. -/
theorem itemFrom_token : ∀ b, isAsciiAlphabetic b = true ∨ b = 0x2a →
    ¬(b = 0x2d ∨ isAsciiDigit b = true) ∧ b ≠ 0x22 ∧ b ≠ 0x3f ∧ b ≠ 0x3a ∧ b ≠ 0x40 ∧ b ≠ 0x25 ∧
      (b = 0x2a ∨ isAsciiAlphabetic b = true) :=
  forall_octet (by decide +kernel)

theorem parseBareItem_apply {text rest : Bytes} {v : SfValue} (h : BareItem text v) (hends : Ends rest) :
    parseBareItem (text ++ rest) = .ok (v, rest) := by
  cases h with
  | integer ht =>
    obtain ⟨b, t, rfl, hb⟩ := ht.start
    have hnumber := reads_parseNumber.complete (a := .integer _) ht hends
    rw [List.cons_append] at hnumber ⊢
    rw [parseBareItem_cons, itemFrom, if_pos hb, bind_of_ok hnumber]
    rfl
  | decimal ht =>
    obtain ⟨b, t, rfl, hb⟩ := ht.start
    have hnumber := reads_parseNumber.complete (a := .decimal) ht hends
    rw [List.cons_append] at hnumber ⊢
    rw [parseBareItem_cons, itemFrom, if_pos hb, bind_of_ok hnumber]
    rfl
  | string ht =>
    have hskip := ((reads_skipString initLabel fun _ => True).map fun _ => SfValue.string).complete
      (r := rest) ⟨(), ⟨_, ht⟩, rfl⟩ trivial
    cases ht with
    | mk => exact hskip
  | token ht =>
    have hskip := ((reads_skipToken initLabel).map fun _ => SfValue.token).complete
      ⟨(), ht, rfl⟩ hends
    cases ht with
    | @mk b t hb _ =>
      obtain ⟨hnumber, hquote, hquestion, hcolon, hat, hpercent, hstart⟩ := itemFrom_token b hb
      rw [List.cons_append, parseBareItem_cons, itemFrom, if_neg hnumber, if_neg hquote,
        if_neg hquestion, if_neg hcolon, if_neg hat, if_neg hpercent, if_pos hstart]
      exact hskip
  | byteSequence ht =>
    have hskip :=
      ((reads_skipByteSequence initLabel fun _ => True).map fun _ => SfValue.byteSequence).complete
      (r := rest) ⟨(), ht, rfl⟩ trivial
    cases ht with
    | mk => exact hskip
  | boolean ht =>
    have hskip := ((reads_skipBoolean initLabel fun _ => True).map fun _ => SfValue.boolean).complete
      (r := rest) ⟨(), ht, rfl⟩ trivial
    cases ht with
    | mk => exact hskip
  | date ht =>
    have hskip := skipDate_apply ht hends
    cases ht with
    | mk => exact (bind_of_ok hskip : (skipDate >>= fun _ => pure SfValue.date) _ = _)
  | displayString ht =>
    have hskip := skipDisplayString_apply ht rest
    cases ht with
    | mk => exact (bind_of_ok hskip : (skipDisplayString >>= fun _ => pure SfValue.displayString) _ = _)

theorem reads_parseBareItem : Reads parseBareItem BareItem Ends := by
  constructor
  · intro input rest v h
    cases input with
    | nil => cases h
    | cons b input => exact itemFrom_ok h
  · intro text rest v h hends
    exact parseBareItem_apply h hends

theorem reads_skipAnyParameters :
    Reads skipAnyParameters (fun text _ => AnyParameters text) ParameterEnds := by
  apply reads_skipParameters (reads_scanKey _ _)
  apply (reads_parseBareItem.map fun _ => ()).mono
  · intro text u
    constructor
    · rintro ⟨v, ht, _⟩
      exact ⟨v, ht⟩
    · rintro ⟨v, ht⟩
      exact ⟨v, ht, rfl⟩
  · exact id

/-! ## Inner lists -/

/-- An item starts with neither a blank nor a bracket. -/
theorem itemStart_distinct : ∀ b, isItemStart b = true → isOws b = false ∧ b ≠ 0x28 ∧ b ≠ 0x29 :=
  forall_octet (by decide +kernel)

theorem skipSpaces_apply {sp rest : Bytes} (hsp : Spaces sp)
    (hrest : ∀ b ∈ rest.head?, (b == 0x20) = false) : skipSpaces (sp ++ rest) = .ok ((), rest) :=
  reads_skipSpaces.complete (a := ()) hsp hrest

/-- What follows an item of an inner list. -/
theorem innerEnds {ps : Bytes} {b : UInt8} (hps : AnyParameters ps) (hb : b ∈ [0x20, 0x29]) (rest : Bytes) :
    Ends (ps ++ b :: rest) ∧ ParameterEnds (b :: rest) := by
  have hends : ∀ b ∈ [0x20, 0x29], b ∈ ends ∧ some b ≠ some 0x3b := by decide +kernel
  obtain ⟨hmem, hsemi⟩ := hends b hb
  exact ⟨hps.ends (ends_cons hmem rest), ends_cons hmem rest, hsemi⟩

theorem innerTurn_item {sp t ps rest : Bytes} {v : SfValue} {b : UInt8} (hsp : Spaces sp)
    (ht : BareItem t v) (hps : AnyParameters ps) (hb : b ∈ [0x20, 0x29]) :
    innerTurn () (sp ++ (t ++ (ps ++ b :: rest))) = innerEnd (b :: rest) := by
  obtain ⟨hitem, hparams⟩ := innerEnds hps hb rest
  have hskip := reads_skipAnyParameters.complete (a := ()) hps hparams
  have hparse := parseBareItem_apply ht hitem
  obtain ⟨c, t, rfl, hc⟩ := ht.start
  obtain ⟨hows, _, hclose⟩ := itemStart_distinct c hc
  have hspace : ∀ d ∈ (c :: t ++ (ps ++ b :: rest)).head?, (d == 0x20) = false := by
    rintro d ⟨⟩
    exact not_space hows
  have hother : (c :: t ++ (ps ++ b :: rest)).head? ≠ some 0x29 := by
    rintro ⟨⟩
    exact hclose rfl
  rw [innerTurn, bind_of_ok (skipSpaces_apply hsp hspace), bind_of_ok (consumeIfEq_other hother),
    if_neg Bool.false_ne_true, bind_of_ok hparse, bind_of_ok hskip]

theorem innerTurn_close {sp : Bytes} (hsp : Spaces sp) (rest : Bytes) :
    innerTurn () (sp ++ 0x29 :: rest) = .ok (.inr (), rest) := by
  have hspace : ∀ d ∈ (0x29 :: rest).head?, (d == 0x20) = false := by
    rintro d ⟨⟩
    decide
  rw [innerTurn, bind_of_ok (skipSpaces_apply hsp hspace), bind_of_ok (consumeIfEq_cons _ _)]
  rfl

theorem innerEnd_ok {input rest : Bytes} {r : Unit ⊕ Unit} (h : innerEnd input = .ok (r, rest)) :
    (r = .inr () ∧ input = 0x29 :: rest) ∨ r = .inl () ∧ input = rest ∧ rest.head? = some 0x20 := by
  rw [innerEnd, bind_of_ok (peek_apply _)] at h
  cases input with
  | nil => cases h
  | cons b input =>
    simp only [List.head?_cons] at h
    split at h
    · rename_i hspace
      cases h
      exact .inr ⟨rfl, rfl, congrArg some hspace⟩
    · split at h
      · rename_i hbracket
        cases h
        exact .inl ⟨rfl, by rw [hbracket]; rfl⟩
      · cases h

/-- What a turn of `parse_inner_list` has taken. -/
theorem innerTurn_ok {input rest : Bytes} {r : Unit ⊕ Unit} (h : innerTurn () input = .ok (r, rest)) :
    ∃ sp, Spaces sp ∧
      ((r = .inr () ∧ input = sp ++ 0x29 :: rest) ∨
        ∃ t ps v, BareItem t v ∧ AnyParameters ps ∧
          ((r = .inr () ∧ input = sp ++ (t ++ (ps ++ 0x29 :: rest))) ∨
            r = .inl () ∧ input = sp ++ (t ++ (ps ++ rest)) ∧ rest.head? = some 0x20)) := by
  obtain ⟨_, mid, hskip, hclose⟩ := bind_eq_ok.1 h
  obtain ⟨sp, rfl, hsp⟩ := reads_skipSpaces.sound hskip
  refine ⟨sp, hsp, ?_⟩
  obtain ⟨closed, mid', hclosed, hitem⟩ := bind_eq_ok.1 hclose
  obtain ⟨rfl, rfl⟩ | ⟨rfl, rfl, _⟩ := consumeIfEq_ok hclosed
  · cases hitem
    exact .inl ⟨rfl, rfl⟩
  · rw [if_neg Bool.false_ne_true] at hitem
    obtain ⟨v, after, hparse, hparams⟩ := bind_eq_ok.1 hitem
    obtain ⟨t, rfl, ht⟩ := reads_parseBareItem.sound hparse
    obtain ⟨_, last, hskip', hend⟩ := bind_eq_ok.1 hparams
    obtain ⟨ps, rfl, hps⟩ := reads_skipAnyParameters.sound hskip'
    obtain ⟨rfl, rfl⟩ | ⟨rfl, rfl, hhead⟩ := innerEnd_ok hend
    · exact .inr ⟨t, ps, v, ht, hps, .inl ⟨rfl, rfl⟩⟩
    · exact .inr ⟨t, ps, v, ht, hps, .inr ⟨rfl, rfl, hhead⟩⟩

theorem innerTurn_shorter {s s' : Unit} {input rest : Bytes}
    (h : innerTurn s input = .ok (.inl s', rest)) : rest.length < input.length := by
  obtain ⟨sp, _, ⟨hr, _⟩ | ⟨t, ps, v, ht, _, ⟨hr, _⟩ | ⟨_, rfl, _⟩⟩⟩ := innerTurn_ok h
  · cases hr
  · cases hr
  · obtain ⟨b, t, rfl, _⟩ := ht.start
    simp only [List.length_append, List.length_cons]
    omega

theorem StructuredField.InnerItems.start {text : Bytes} (h : InnerItems text) :
    ∃ b t, text = b :: t ∧ b ≠ 0x20 := by
  have hitem : ∀ {t rest : Bytes} {v : SfValue}, BareItem t v → ∃ b u, t ++ rest = b :: u ∧ b ≠ 0x20 := by
    intro t rest v ht
    obtain ⟨b, t, rfl, hb⟩ := ht.start
    refine ⟨b, t ++ rest, rfl, ?_⟩
    rintro rfl
    exact absurd hb (by decide)
  cases h with
  | close => exact ⟨_, _, rfl, by decide⟩
  | last ht _ => exact hitem ht
  | next ht _ _ _ _ => exact hitem ht

theorem innerLoop_apply {text : Bytes} (h : InnerItems text) {sp : Bytes} (hsp : Spaces sp) (rest : Bytes) :
    loop stuck innerTurn () (sp ++ (text ++ rest)) = .ok ((), rest) := by
  induction h generalizing sp with
  | close =>
    rw [loop_apply innerTurn_shorter, bind_apply, List.singleton_append, innerTurn_close hsp]
    rfl
  | last ht hps =>
    rw [List.append_assoc, List.append_assoc, loop_apply innerTurn_shorter, bind_apply,
      List.singleton_append, innerTurn_item hsp ht hps (by decide)]
    rfl
  | @next t ps sp' ts v ht hps hsp' hne _ ih =>
    have hrest := ih hsp'
    obtain ⟨b, sp', rfl⟩ := List.exists_cons_of_ne_nil hne
    obtain rfl := hsp' b (List.mem_cons_self ..)
    rw [List.append_assoc, List.append_assoc, loop_apply innerTurn_shorter, bind_apply,
      List.append_assoc, List.cons_append, innerTurn_item hsp ht hps (by decide)]
    exact hrest

theorem innerLoop_ok {input rest : Bytes} {u : Unit} (h : loop stuck innerTurn () input = .ok (u, rest)) :
    ∃ sp t, input = sp ++ (t ++ rest) ∧ Spaces sp ∧ InnerItems t := by
  induction hn : input.length using Nat.strong_induction_on generalizing input with
  | _ n ih =>
    rw [loop_apply innerTurn_shorter] at h
    obtain ⟨r, mid, hstep, hgo⟩ := bind_eq_ok.1 h
    have hshorter := hstep
    obtain ⟨sp, hsp, ⟨rfl, rfl⟩ | ⟨t, ps, v, ht, hps, ⟨rfl, rfl⟩ | ⟨rfl, rfl, hhead⟩⟩⟩ := innerTurn_ok hstep
    · cases hgo
      exact ⟨sp, [0x29], rfl, hsp, .close⟩
    · cases hgo
      exact ⟨sp, t ++ (ps ++ [0x29]), by simp, hsp, .last ht hps⟩
    · obtain ⟨sp', ts, rfl, hsp', hts⟩ := ih _ (hn ▸ innerTurn_shorter hshorter) hgo rfl
      refine ⟨sp, t ++ (ps ++ (sp' ++ ts)), by simp, hsp, .next ht hps hsp' ?_ hts⟩
      rintro rfl
      obtain ⟨b, ts, rfl, hb⟩ := hts.start
      exact hb (Option.some.inj hhead)

theorem parseInnerList_apply {text : Bytes} (h : InnerList text) (rest : Bytes) :
    parseInnerList (text ++ rest) = .ok (.innerList, rest) := by
  cases h with
  | @mk sp t hsp ht =>
    rw [parseInnerList, List.cons_append, bind_of_ok (consumeIfEq_cons _ _), if_neg (by decide),
      List.append_assoc, bind_of_ok (innerLoop_apply ht hsp rest)]
    rfl

theorem parseInnerList_ok {input rest : Bytes} {v : SfValue} (h : parseInnerList input = .ok (v, rest)) :
    ∃ t, input = t ++ rest ∧ InnerList t ∧ v = .innerList := by
  obtain ⟨taken, mid, htaken, hitems⟩ := bind_eq_ok.1 h
  obtain ⟨rfl, rfl⟩ | ⟨rfl, rfl, _⟩ := consumeIfEq_ok htaken
  · rw [if_neg (by decide)] at hitems
    obtain ⟨_, last, hloop, hret⟩ := bind_eq_ok.1 hitems
    obtain ⟨sp, t, rfl, hsp, ht⟩ := innerLoop_ok hloop
    cases hret
    exact ⟨0x28 :: (sp ++ t), by simp, .mk hsp ht, rfl⟩
  · cases hitems

end Http2.WebTransport
