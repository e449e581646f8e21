import Http2.WebTransport.Scan

/-! The WT-Available-Protocols header field, a list of strings, and the string of WT-Protocol:
`src/webtransport/protocols.rs`. What is written as a member of such a list is read back from it. -/
namespace Http2.WebTransport

open Lib Lib.Scanner StructuredField

/-- What every message of the parser starts with. -/
def protocolsLabel : String := "WT-Available-Protocols"

/-- `parse_string`. -/
def parseString : Scan String := do
  match ← peek with
  | some b =>
    if b = 0x22 then do
      advance
      let out ← (stringBody protocolsLabel : Scan Bytes)
      match fromUtf8 out with
      | some s => return s
      | none => fail stuck
    else if b = 0x2d ∨ isAsciiDigit b = true then
      invalid protocolsLabel ": list member must be a String, got Integer/Decimal"
    else if b = 0x3f then invalid protocolsLabel ": list member must be a String, got Boolean"
    else if b = 0x3a then invalid protocolsLabel ": list member must be a String, got Byte Sequence"
    else if b = 0x28 then invalid protocolsLabel ": list member must be a String, got Inner List"
    else if b = 0x2a ∨ isAsciiAlphabetic b = true then
      invalid protocolsLabel ": list member must be a String, got Token"
    else invalid protocolsLabel ": list member must be a String"
  | none => invalid protocolsLabel ": list member must be a String"

/-- `skip_number` behind the sign. It sets no limit to the digits. -/
def skipDigits : Scan Unit := do
  let digits ← takeWhile isAsciiDigit
  if digits = [] then invalid protocolsLabel ": integer must contain at least one digit"
  else if (← peek) = some 0x2e then do
    advance
    let fraction ← takeWhile isAsciiDigit
    if fraction = [] then invalid protocolsLabel ": decimal fractional part must contain digits"
    else return ()
  else return ()

/-- `skip_number`. -/
def skipNumber : Scan Unit := do
  let _ ← consumeIfEq 0x2d
  skipDigits

/-- `skip_bare_item` behind the look at the first octet. -/
def skipFrom (b : UInt8) : Scan Unit :=
  if b = 0x2d ∨ isAsciiDigit b = true then skipNumber
  else if b = 0x22 then skipString protocolsLabel
  else if b = 0x3f then skipBoolean protocolsLabel
  else if b = 0x3a then skipByteSequence protocolsLabel
  else if b = 0x2a ∨ isAsciiAlphabetic b = true then skipToken protocolsLabel
  else invalid protocolsLabel ": unexpected character in parameter value"

/-- `skip_bare_item`. -/
def skipBareItem : Scan Unit := do
  match ← peek with
  | some b => skipFrom b
  | none => invalid protocolsLabel ": unexpected character in parameter value"

/-- A string of the list with its parameters. -/
def scanProtocol : Scan String := do
  let s ← parseString
  skipParameters (scanKey protocolsLabel ": parameter key must start with lcalpha or '*'") skipBareItem
  return s

namespace WtAvailableProtocols

/-- A turn of the loop of `parse`. -/
def turn (protocols : List String) : Scan (List String ⊕ List String) :=
  elementTurn scanProtocol (fun protocols s => .ok (protocols ++ [s]))
    (separator protocolsLabel ": expected ',' between list members") protocols

/-- `parse` behind the check for ASCII. -/
def scan : Scan (List String) := do
  skipOws
  if ← isEmpty then return []
  else loop stuck turn []

/-- `WtAvailableProtocols::parse`. -/
def parse (value : Bytes) : WtResult (List String) :=
  if value.any fun b => decide (0x80 ≤ b) then
    .error (.invalidInput (protocolsLabel ++ ": non-ASCII byte in header value"))
  else (scan value).map Prod.fst

end WtAvailableProtocols

/-- The escapes of `serialize_wt_protocol`. -/
def escape (value : Bytes) : Bytes :=
  value.flatMap fun b => if b = 0x22 ∨ b = 0x5c then [0x5c, b] else [b]

def serializeWtProtocol (value : Bytes) : WtResult Bytes :=
  if value.any fun b => !decide (Printable b) then
    .error (.invalidInput "wt-protocol value contains non-printable byte")
  else .ok (0x22 :: (escape value ++ [0x22]))

/-! ## Parameter values -/

/-- `1*DIGIT`. -/
def DigitRow (text : Bytes) : Prop := text ≠ [] ∧ ∀ b ∈ text, isAsciiDigit b = true

/-- `1*DIGIT [ "." 1*DIGIT ]`. -/
inductive LooseDigits : Bytes → Prop
  | integer {t : Bytes} : DigitRow t → LooseDigits t
  | decimal {t f : Bytes} : DigitRow t → DigitRow f → LooseDigits (t ++ 0x2e :: f)

/-- `[ "-" ] 1*DIGIT [ "." 1*DIGIT ]`. -/
inductive LooseNumber : Bytes → Prop
  | plain {t : Bytes} : LooseDigits t → LooseNumber t
  | minus {t : Bytes} : LooseDigits t → LooseNumber (0x2d :: t)

/-- What `skip_bare_item` takes. -/
inductive LooseItem : Bytes → Prop
  | number {t : Bytes} : LooseNumber t → LooseItem t
  | string {t s : Bytes} : SfString t s → LooseItem t
  | token {t : Bytes} : SfToken t → LooseItem t
  | byteSequence {t : Bytes} : SfByteSequence t → LooseItem t
  | boolean {t : Bytes} : SfBoolean t → LooseItem t

/-- The bare items that a parameter of the list may have. -/
def PlainItem (text : Bytes) : Prop := ∃ v, BareItem text v ∧ v ≠ .date ∧ v ≠ .displayString

theorem reads_skipDigits : Reads skipDigits (fun text _ => LooseDigits text) Ends := by
  constructor
  · intro input rest u h
    obtain ⟨digits, mid, hdigits, hbody⟩ := bind_eq_ok.1 h
    obtain ⟨rfl, hall, _⟩ := takeWhile_ok hdigits
    by_cases hnil : digits = []
    · rw [if_pos hnil] at hbody
      cases hbody
    rw [if_neg hnil, bind_of_ok (peek_apply _)] at hbody
    split at hbody
    · rename_i hdot
      obtain ⟨tail, rfl⟩ := List.head?_eq_some_iff.1 hdot
      rw [bind_of_ok (advance_apply _), List.tail_cons] at hbody
      obtain ⟨fraction, last, hfraction, hret⟩ := bind_eq_ok.1 hbody
      obtain ⟨rfl, hfall, _⟩ := takeWhile_ok hfraction
      split at hret
      · cases hret
      · rename_i hfnil
        cases hret
        exact ⟨digits ++ 0x2e :: fraction, by simp, .decimal ⟨hnil, hall⟩ ⟨hfnil, hfall⟩⟩
    · cases hbody
      exact ⟨digits, rfl, .integer ⟨hnil, hall⟩⟩
  · intro text rest u h hends
    have hstop := hends.stops (p := isAsciiDigit) (by decide +kernel)
    cases h with
    | integer ht =>
      have hdot : rest.head? ≠ some 0x2e := fun hhead => absurd (hends _ hhead) (by decide)
      rw [skipDigits, bind_of_ok (takeWhile_apply ht.2 hstop), if_neg ht.1, bind_of_ok (peek_apply _),
        if_neg hdot]
      rfl
    | @decimal t f ht hf =>
      have hdot : ∀ b ∈ (0x2e :: (f ++ rest)).head?, isAsciiDigit b = false := by
        rintro b ⟨⟩
        decide
      rw [List.append_assoc, List.cons_append, skipDigits, bind_of_ok (takeWhile_apply ht.2 hdot),
        if_neg ht.1, bind_of_ok (peek_apply _), if_pos (List.head?_cons ..), bind_of_ok (advance_apply _),
        List.tail_cons, bind_of_ok (takeWhile_apply hf.2 hstop), if_neg hf.1]
      rfl

theorem LooseDigits.start {text : Bytes} (h : LooseDigits text) :
    ∃ b t, text = b :: t ∧ isAsciiDigit b = true := by
  have hrow : ∀ {t r : Bytes}, DigitRow t → ∃ b u, t ++ r = b :: u ∧ isAsciiDigit b = true := by
    intro t r ht
    obtain ⟨b, u, rfl⟩ := List.exists_cons_of_ne_nil ht.1
    exact ⟨b, u ++ r, rfl, ht.2 b (List.mem_cons_self ..)⟩
  cases h with
  | integer ht =>
    obtain ⟨b, u, heq, hb⟩ := hrow (r := []) ht
    rw [List.append_nil] at heq
    exact ⟨b, u, heq, hb⟩
  | decimal ht _ => exact hrow ht

theorem reads_skipNumber : Reads skipNumber (fun text _ => LooseNumber text) Ends := by
  constructor
  · intro input rest u h
    obtain ⟨minus, mid, hminus, hdigits⟩ := bind_eq_ok.1 h
    obtain ⟨t, rfl, ht⟩ := reads_skipDigits.sound hdigits
    obtain ⟨_, rfl⟩ | ⟨_, rfl, _⟩ := consumeIfEq_ok hminus
    · exact ⟨0x2d :: t, rfl, .minus ht⟩
    · exact ⟨t, rfl, .plain ht⟩
  · intro text rest u h hends
    cases h with
    | plain ht =>
      have hskip := reads_skipDigits.complete (a := ()) ht hends
      obtain ⟨b, t, rfl, hb⟩ := ht.start
      have hother : (b :: t ++ rest).head? ≠ some 0x2d := by
        rintro ⟨⟩
        exact absurd hb (by decide)
      rw [skipNumber, bind_of_ok (consumeIfEq_other hother)]
      exact hskip
    | minus ht =>
      rw [skipNumber, List.cons_append, bind_of_ok (consumeIfEq_cons _ _)]
      exact reads_skipDigits.complete ht hends

theorem LooseNumber.start {text : Bytes} (h : LooseNumber text) :
    ∃ b t, text = b :: t ∧ (b = 0x2d ∨ isAsciiDigit b = true) := by
  cases h with
  | plain ht =>
    obtain ⟨b, t, rfl, hb⟩ := ht.start
    exact ⟨b, t, rfl, .inr hb⟩
  | minus _ => exact ⟨_, _, rfl, .inl rfl⟩

/-- The first octet of a token leads past all the other kinds. -/
theorem skipFrom_token : ∀ b, isAsciiAlphabetic b = true ∨ b = 0x2a →
    ¬(b = 0x2d ∨ isAsciiDigit b = true) ∧ b ≠ 0x22 ∧ b ≠ 0x3f ∧ b ≠ 0x3a ∧
      (b = 0x2a ∨ isAsciiAlphabetic b = true) :=
  forall_octet (by decide +kernel)

theorem reads_skipBareItem : Reads skipBareItem (fun text _ => LooseItem text) Ends := by
  constructor
  · intro input rest u h
    cases input with
    | nil => cases h
    | cons b input =>
      have hfrom : skipFrom b (b :: input) = .ok (u, rest) := h
      unfold skipFrom at hfrom
      split at hfrom
      · obtain ⟨t, heq, ht⟩ := reads_skipNumber.sound hfrom
        exact ⟨t, heq, .number ht⟩
      split at hfrom
      · obtain ⟨t, heq, s, ht⟩ := (reads_skipString protocolsLabel fun _ => True).sound hfrom
        exact ⟨t, heq, .string ht⟩
      split at hfrom
      · obtain ⟨t, heq, ht⟩ := (reads_skipBoolean protocolsLabel fun _ => True).sound hfrom
        exact ⟨t, heq, .boolean ht⟩
      split at hfrom
      · obtain ⟨t, heq, ht⟩ := (reads_skipByteSequence protocolsLabel fun _ => True).sound hfrom
        exact ⟨t, heq, .byteSequence ht⟩
      split at hfrom
      · obtain ⟨t, heq, ht⟩ := (reads_skipToken protocolsLabel).sound hfrom
        exact ⟨t, heq, .token ht⟩
      · cases hfrom
  · intro text rest u h hends
    cases h with
    | number ht =>
      have hskip := reads_skipNumber.complete (a := u) ht hends
      obtain ⟨b, t, rfl, hb⟩ := ht.start
      have hfrom : skipFrom b = skipNumber := if_pos hb
      rw [← hfrom] at hskip
      exact hskip
    | string ht =>
      have hskip :=
        (reads_skipString protocolsLabel fun _ => True).complete (r := rest) (a := u) ⟨_, ht⟩ trivial
      cases ht with
      | mk => exact hskip
    | token ht =>
      have hskip := (reads_skipToken protocolsLabel).complete (a := u) ht hends
      cases ht with
      | @mk b t hb _ =>
        obtain ⟨hnumber, hquote, hquestion, hcolon, hstart⟩ := skipFrom_token b hb
        have hfrom : skipFrom b = skipToken protocolsLabel := by
          rw [skipFrom, if_neg hnumber, if_neg hquote, if_neg hquestion, if_neg hcolon, if_pos hstart]
        rw [← hfrom] at hskip
        exact hskip
    | byteSequence ht =>
      have hskip :=
        (reads_skipByteSequence protocolsLabel fun _ => True).complete (r := rest) (a := u) ht trivial
      cases ht with
      | mk => exact hskip
    | boolean ht =>
      have hskip := (reads_skipBoolean protocolsLabel fun _ => True).complete (r := rest) (a := u) ht trivial
      cases ht with
      | mk => exact hskip

theorem Digits.row {m n : Nat} {text : Bytes} (h : Digits (m + 1) n text) : DigitRow text :=
  ⟨List.length_pos_iff.1 (lt_of_lt_of_le (Nat.succ_pos m) h.1), h.2.2⟩

theorem PlainItem.loose {text : Bytes} (h : PlainItem text) : LooseItem text := by
  obtain ⟨v, ht, hdate, hdisplay⟩ := h
  cases ht with
  | integer ht =>
    cases ht with
    | plain hd => exact .number (.plain (.integer (Digits.row hd)))
    | minus hd => exact .number (.minus (.integer (Digits.row hd)))
  | decimal ht =>
    cases ht with
    | plain hd hf => exact .number (.plain (.decimal (Digits.row hd) (Digits.row hf)))
    | minus hd hf => exact .number (.minus (.decimal (Digits.row hd) (Digits.row hf)))
  | string ht => exact .string ht
  | token ht => exact .token ht
  | byteSequence ht => exact .byteSequence ht
  | boolean ht => exact .boolean ht
  | date _ => exact absurd rfl hdate
  | displayString _ => exact absurd rfl hdisplay

theorem DigitRow.ascii {text : Bytes} (h : DigitRow text) : Ascii text :=
  ascii_of_class (by decide +kernel) h.2

theorem LooseNumber.ascii {text : Bytes} (h : LooseNumber text) : Ascii text := by
  have hdigits : ∀ {t : Bytes}, LooseDigits t → Ascii t := by
    intro t ht
    cases ht with
    | integer ht => exact ht.ascii
    | decimal ht hf => simp [ht.ascii, hf.ascii]
  cases h with
  | plain ht => exact hdigits ht
  | minus ht => simp [hdigits ht]

theorem LooseItem.ascii {text : Bytes} (h : LooseItem text) : Ascii text := by
  cases h with
  | number ht => exact ht.ascii
  | string ht => exact (BareItem.string ht).ascii
  | token ht => exact ht.ascii
  | byteSequence ht => exact (BareItem.byteSequence ht).ascii
  | boolean ht => exact (BareItem.boolean ht).ascii

/-! ## Members -/

/-- What `parse_string` takes. -/
def Quoted (text : Bytes) (s : String) : Prop := ∃ out, SfString text out ∧ fromUtf8 out = some s

theorem StringChars.printable {t out : Bytes} (h : StringChars t out) : ∀ b ∈ out, Printable b := by
  induction h with
  | nil => exact List.forall_mem_nil _
  | plain hb _ _ _ ih => exact List.forall_mem_cons.2 ⟨hb, ih⟩
  | escaped hb _ ih =>
    refine List.forall_mem_cons.2 ⟨?_, ih⟩
    obtain rfl | rfl := hb
    · decide
    · decide

/-- The octets of a string are UTF-8, as `parse_string` expects them to be. -/
theorem fromUtf8_stringBody {label : String} {input rest out : Bytes}
    (h : stringBody label input = .ok (out, rest)) : (fromUtf8 out).isSome = true := by
  obtain ⟨t, _, ht⟩ := stringBody_sound h
  rw [fromUtf8_ascii fun b hb => (StringChars.printable ht b hb).ascii]
  rfl

theorem reads_parseString (F : Bytes → Prop) : Reads parseString Quoted F := by
  constructor
  · intro input rest s h
    cases input with
    | nil => cases h
    | cons b input =>
      rw [parseString, bind_of_ok (peek_apply _)] at h
      simp only [List.head?_cons] at h
      split at h
      · rename_i hquote
        subst hquote
        rw [bind_of_ok (advance_apply _), List.tail_cons] at h
        obtain ⟨out, mid, hbody, hret⟩ := bind_eq_ok.1 h
        obtain ⟨t, rfl, ht⟩ := stringBody_sound hbody
        obtain ⟨str, hutf⟩ := Option.isSome_iff_exists.1 (fromUtf8_stringBody hbody)
        rw [hutf] at hret
        cases hret
        exact ⟨0x22 :: (t ++ [0x22]), by simp, out, .mk ht, hutf⟩
      all_goals
        repeat' split at h
        all_goals cases h
  · rintro text rest s ⟨out, ht, hutf⟩ _
    cases ht with
    | @mk t _ ht =>
      have hbody : stringBody protocolsLabel (t ++ 0x22 :: rest) = .ok (out, rest) :=
        stringBody_complete ht rest
      have htext : 0x22 :: (t ++ [0x22]) ++ rest = 0x22 :: (t ++ 0x22 :: rest) := by simp
      rw [htext, parseString, bind_of_ok (peek_apply _)]
      simp only [List.head?_cons]
      rw [if_pos trivial, bind_of_ok (advance_apply _), List.tail_cons,
        bind_of_ok (p := (stringBody protocolsLabel : Scan Bytes)) hbody, hutf]
      rfl

/-- What the loop of `parse` takes in a turn. -/
def ProtocolText (text : Bytes) (s : String) : Prop :=
  ∃ t ps, text = t ++ ps ∧ Quoted t s ∧ Parameters LooseItem ps

theorem reads_scanProtocol : Reads scanProtocol ProtocolText ParameterEnds := by
  have hparams := fun s : String =>
    (reads_skipParameters (reads_scanKey protocolsLabel ": parameter key must start with lcalpha or '*'")
      reads_skipBareItem).map fun _ => s
  apply ((reads_parseString fun _ => True).bind hparams fun _ _ => trivial).mono
  · intro text s
    constructor
    · rintro ⟨t, _, ps, rfl, ht, _, hps, rfl⟩
      exact ⟨t, ps, rfl, ht, hps⟩
    · rintro ⟨t, ps, rfl, ht, hps⟩
      exact ⟨t, s, ps, rfl, ht, (), hps, rfl⟩
  · exact id

theorem Quoted.start {text : Bytes} {s : String} (h : Quoted text s) : ∃ t, text = 0x22 :: t := by
  obtain ⟨out, ht, _⟩ := h
  cases ht with
  | mk _ => exact ⟨_, rfl⟩

theorem ProtocolText.start {text : Bytes} {s : String} (h : ProtocolText text s) :
    ∃ b t, text = b :: t ∧ isOws b = false := by
  obtain ⟨t, ps, rfl, ht, _⟩ := h
  obtain ⟨t, rfl⟩ := ht.start
  exact ⟨0x22, t ++ ps, rfl, by decide⟩

theorem ProtocolText.ascii {text : Bytes} {s : String} (h : ProtocolText text s) : Ascii text := by
  obtain ⟨t, ps, rfl, ⟨out, ht, _⟩, hps⟩ := h
  exact ascii_append.2 ⟨(BareItem.string ht).ascii, hps.ascii LooseItem.ascii⟩

namespace WtAvailableProtocols

theorem fold_append (ss protocols : List String) :
    ss.foldlM (fun protocols s => (.ok (protocols ++ [s]) : WtResult (List String))) protocols =
      .ok (protocols ++ ss) := by
  induction ss generalizing protocols with
  | nil => rw [List.append_nil]; rfl
  | cons s ss ih =>
    rw [List.append_cons, ← ih (protocols ++ [s])]
    rfl

theorem turn_eq (protocols : List String) (input : Bytes) (_ : input ≠ []) :
    turn protocols input =
      elementTurn scanProtocol (fun protocols s => .ok (protocols ++ [s]))
        (separator protocolsLabel ": expected ',' between list members") protocols input := rfl

theorem turn_nil_stops (protocols protocols' : List String) (rest : Bytes) :
    turn protocols [] ≠ .ok (.inl protocols', rest) := by
  intro h
  cases h

/-- The parser reads the lists of strings with parameters, and returns their strings. -/
theorem parse_iff {v : Bytes} {ss : List String} : parse v = .ok ss ↔ Listed ProtocolText v ss := by
  constructor
  · intro h
    unfold parse at h
    split at h
    · cases h
    · obtain ⟨⟨_, rest⟩, hscan, rfl⟩ := map_eq_ok.1 h
      obtain ⟨_, mid, hskip, hloop⟩ := bind_eq_ok.1 hscan
      obtain ⟨o, rfl, ho⟩ := reads_skipOws.sound hskip
      cases mid with
      | nil =>
        rw [bind_of_ok isEmpty_nil] at hloop
        cases hloop
        rw [List.append_nil]
        exact .empty ho
      | cons b mid =>
        rw [bind_of_ok (isEmpty_cons _ _), if_neg Bool.false_ne_true] at hloop
        obtain ⟨as, has, hfold, _⟩ := elements_ok reads_scanProtocol turn_eq turn_nil_stops
          (List.cons_ne_nil b mid) hloop
        rw [fold_append] at hfold
        cases hfold
        exact .elements ho has
  · intro h
    have hscan : (scan v).map Prod.fst = .ok ss := by
      cases h with
      | empty ho =>
        have hskip := skipOws_apply (r := []) ho (by rintro _ ⟨⟩)
        rw [List.append_nil] at hskip
        rw [scan, bind_of_ok hskip, bind_of_ok isEmpty_nil]
        rfl
      | @elements o t _ ho ht =>
        have hloop := elements_apply reads_scanProtocol (fun hm => hm.start) turn_eq turn_nil_stops ht []
        obtain ⟨b, t, rfl, hb⟩ := ht.head fun hm => hm.start
        rw [scan, bind_of_ok (skipOws_apply ho (by rintro _ ⟨⟩; exact hb)), bind_of_ok (isEmpty_cons _ _),
          if_neg Bool.false_ne_true, hloop, fold_append]
        rfl
    have hascii := h.ascii fun hm => hm.ascii
    rw [parse, if_neg, hscan]
    rw [List.any_eq_true]
    rintro ⟨b, hb, hge⟩
    rw [decide_eq_true_eq] at hge
    exact absurd (hascii b hb) (UInt8.not_lt.2 hge)

end WtAvailableProtocols

/-! ## What is written -/

theorem escape_chars {value : Bytes} (h : ∀ b ∈ value, Printable b) : StringChars (escape value) value := by
  induction value with
  | nil => exact .nil
  | cons b value ih =>
    obtain ⟨hb, hvalue⟩ := List.forall_mem_cons.1 h
    rw [escape, List.flatMap_cons]
    split
    · rename_i hmark
      exact .escaped hmark.symm (ih hvalue)
    · rename_i hmark
      rw [not_or] at hmark
      exact .plain hb hmark.1 hmark.2 (ih hvalue)

theorem serializeWtProtocol_ok {value quoted : Bytes} (h : serializeWtProtocol value = .ok quoted) :
    SfString quoted value := by
  unfold serializeWtProtocol at h
  split at h
  · cases h
  · rename_i hprint
    cases h
    apply SfString.mk
    apply escape_chars
    intro b hb
    by_contra hnot
    exact hprint (List.any_eq_true.2 ⟨b, hb, by simpa using hnot⟩)

theorem serializeWtProtocol_fails {value : Bytes} :
    (∃ e, serializeWtProtocol value = .error e) ↔ ∃ b ∈ value, ¬ Printable b := by
  unfold serializeWtProtocol
  constructor
  · rintro ⟨e, h⟩
    split at h
    · rename_i hany
      simpa using hany
    · cases h
  · intro h
    rw [if_pos (by simpa using h)]
    exact ⟨_, rfl⟩

/-- A string as it is written, with parameters behind it. -/
def Written (text : Bytes) (s : String) : Prop :=
  ∃ quoted ps, text = quoted ++ ps ∧ serializeWtProtocol (utf8 s) = .ok quoted ∧ Parameters PlainItem ps

theorem Written.protocolText {text : Bytes} {s : String} (h : Written text s) : ProtocolText text s := by
  obtain ⟨quoted, ps, rfl, hquoted, hps⟩ := h
  exact ⟨quoted, ps, rfl, ⟨utf8 s, serializeWtProtocol_ok hquoted, fromUtf8_utf8 s⟩, hps.mono PlainItem.loose⟩

namespace WtAvailableProtocols

/-- A list of written strings is read back, whatever parameters and blanks are put between them; and
every string of printable octets, but no other one, can be written. -/
theorem parse_written :
    (∀ v ss, Listed Written v ss → parse v = .ok ss) ∧
      ∀ value, (∃ e, serializeWtProtocol value = .error e) ↔ ∃ b ∈ value, ¬ Printable b := by
  constructor
  · intro v ss h
    exact parse_iff.2 (h.mono Written.protocolText)
  · intro value
    exact serializeWtProtocol_fails

/-- Two strings, one with a quote and a parameter, and blanks around the comma. -/
theorem parse_written_two :
    Listed Written [0x22, 0x61, 0x5c, 0x22, 0x62, 0x22, 0x3b, 0x71, 0x3d, 0x31, 0x20, 0x2c, 0x09, 0x22,
      0x63, 0x22] ["a\"b", "c"] ∧
      parse [0x22, 0x61, 0x5c, 0x22, 0x62, 0x22, 0x3b, 0x71, 0x3d, 0x31, 0x20, 0x2c, 0x09, 0x22, 0x63,
        0x22] = .ok ["a\"b", "c"] := by
  have hone : PlainItem [0x31] :=
    ⟨_, .integer (.plain ⟨by decide, by decide, by decide +kernel⟩), by decide, by decide⟩
  have hspaces : Spaces [] := by simp [Spaces]
  have hparameter : Parameters PlainItem [0x3b, 0x71, 0x3d, 0x31] :=
    .cons (.value hspaces (.mk (t := []) (.inl (by decide +kernel)) (by simp)) hone) .nil
  have hfirst : Written [0x22, 0x61, 0x5c, 0x22, 0x62, 0x22, 0x3b, 0x71, 0x3d, 0x31] "a\"b" :=
    ⟨[0x22, 0x61, 0x5c, 0x22, 0x62, 0x22], _, rfl, by decide +kernel, hparameter⟩
  have hsecond : Written [0x22, 0x63, 0x22] "c" :=
    ⟨[0x22, 0x63, 0x22], [], rfl, by decide +kernel, .nil⟩
  have hnone : Ows [] := by simp [Ows]
  have hspace : Ows [0x20] := by simp [Ows]
  have htab : Ows [0x09] := by simp [Ows]
  have hlisted := Listed.elements hnone (.cons hfirst hspace htab (.last hsecond hnone))
  exact ⟨hlisted, parse_written.1 _ _ hlisted⟩

end WtAvailableProtocols

end Http2.WebTransport
