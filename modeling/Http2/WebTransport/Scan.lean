import Http2.Lib.Scanner
import Http2.WebTransport.StructuredField

/-! The scanners that `src/webtransport/init.rs` and `src/webtransport/protocols.rs` both have, each
under its own name for the header field in the messages. -/
namespace Http2.WebTransport

open Lib Lib.Scanner StructuredField

abbrev Scan (α : Type) : Type := Lib.Scanner UInt8 WtError α

/-- Fails with the message of the parser for the header field `label`. -/
def invalid {α : Type} (label message : String) : Scan α := fail (.invalidInput (label ++ message))

def isEmpty : Scan Bool := do return (← peek).isNone

def isOws (b : UInt8) : Bool := b == 0x20 || b == 0x09

def skipOws : Scan Unit := do
  let _ ← takeWhile isOws

/-- `while self.consume_if_eq(b' ') {}`. -/
def skipSpaces : Scan Unit := do
  let _ ← takeWhile (· == 0x20)

/-- `parse_key`. -/
def scanKey (label message : String) : Scan Bytes := do
  match ← peek with
  | some b => if isAsciiLowercase b || b == 0x2a then takeWhile isKeyByte else invalid label message
  | none => invalid label message

/-- The loop of `skip_string` behind the opening quote; what it passes over is the string. -/
def stringBody (label : String) : Bytes → WtResult (Bytes × Bytes)
  | [] => .error (.invalidInput (label ++ ": unterminated string"))
  | b :: rest =>
    if b = 0x5c then
      match rest with
      | c :: rest =>
        if c = 0x5c ∨ c = 0x22 then (stringBody label rest).map fun r => (c :: r.1, r.2)
        else .error (.invalidInput (label ++ ": invalid escape sequence in string"))
      | [] => .error (.invalidInput (label ++ ": invalid escape sequence in string"))
    else if b = 0x22 then .ok ([], rest)
    else if ¬ Printable b then .error (.invalidInput (label ++ ": invalid character in string"))
    else (stringBody label rest).map fun r => (b :: r.1, r.2)

def skipString (label : String) : Scan Unit := do
  if !(← consumeIfEq 0x22) then invalid label ": string must start with '\"'"
  else do
    let _ ← (stringBody label : Scan Bytes)
    return ()

def skipToken (label : String) : Scan Unit := do
  match ← peek with
  | some b =>
    if b == 0x2a || isAsciiAlphabetic b then do
      advance
      let _ ← takeWhile isTokenByte
      return ()
    else invalid label ": token must start with ALPHA or '*'"
  | none => invalid label ": token must start with ALPHA or '*'"

def skipByteSequence (label : String) : Scan Unit := do
  if !(← consumeIfEq 0x3a) then invalid label ": byte sequence must start with ':'"
  else do
    let _ ← takeWhile isBase64Byte
    if !(← consumeIfEq 0x3a) then invalid label ": byte sequence must end with ':'"
    else return ()

def skipBoolean (label : String) : Scan Unit := do
  if !(← consumeIfEq 0x3f) then invalid label ": boolean must start with '?'"
  else do
    match ← peek with
    | some b =>
      if b == 0x30 || b == 0x31 then advance
      else invalid label ": boolean value must be '0' or '1'"
    | none => invalid label ": boolean value must be '0' or '1'"

/-- A parameter behind its semicolon. -/
def skipParameter (key : Scan Bytes) (item : Scan Unit) : Scan Unit := do
  skipSpaces
  let _ ← key
  if ← consumeIfEq 0x3d then item else return ()

/-- A turn of `skip_parameters`. -/
def parameterTurn (key : Scan Bytes) (item : Scan Unit) : Scan (Unit ⊕ Unit) := do
  if (← peek) = some 0x3b then do
    advance
    skipParameter key item
    return .inl ()
  else return .inr ()

/-- The error that stands for a loop without an end, or for an `expect` that fails. -/
def stuck : WtError := .invalidInput ""

/-- `skip_parameters`, with the scanners for a key and for a value. -/
def skipParameters (key : Scan Bytes) (item : Scan Unit) : Scan Unit :=
  loop stuck (fun _ => parameterTurn key item) ()

/-- What stands behind an element: whether another one follows. -/
def separator (label between : String) : Scan Bool := do
  skipOws
  if ← isEmpty then return false
  else if !(← consumeIfEq 0x2c) then invalid label between
  else do
    skipOws
    if ← isEmpty then invalid label ": trailing comma not allowed"
    else return true

/-- A turn over an element and what separates it from the next one. -/
def elementTurn {α σ : Type} (element : Scan α) (put : σ → α → WtResult σ) (sep : Scan Bool) (s : σ) :
    Scan (σ ⊕ σ) := do
  let a ← element
  let s ← lift (put s a)
  if ← sep then return .inl s else return .inr s

/-! ## What may follow -/

/-- What an item may be followed by: blanks, a separator or a closing bracket. -/
def ends : List UInt8 := [0x20, 0x09, 0x2c, 0x3b, 0x29]

def Ends (rest : Bytes) : Prop := ∀ b ∈ rest.head?, b ∈ ends

/-- A key may have a value behind it. -/
def KeyEnds (rest : Bytes) : Prop := ∀ b ∈ rest.head?, b ∈ 0x3d :: ends

theorem Ends.keyEnds {rest : Bytes} (h : Ends rest) : KeyEnds rest :=
  fun b hb => List.mem_cons_of_mem _ (h b hb)

theorem ends_cons {b : UInt8} (h : b ∈ ends) (rest : Bytes) : Ends (b :: rest) := by
  intro c hc
  obtain rfl := Option.some.inj hc
  exact h

theorem ends_nil : Ends [] := by
  intro b hb
  cases hb

/-- A class that has none of the ends stops there. -/
theorem Ends.stops {rest : Bytes} (h : Ends rest) {p : UInt8 → Bool}
    (hp : ∀ b ∈ ends, p b = false) : ∀ b ∈ rest.head?, p b = false :=
  fun b hb => hp b (h b hb)

/-! ## What they read -/

theorem reads_skipWhile {p : UInt8 → Bool} {P : UInt8 → Prop} (hP : ∀ b, p b = true ↔ P b) :
    Reads (do let _ ← takeWhile p : Scan Unit) (fun text _ => ∀ b ∈ text, P b)
      (fun rest => ∀ b ∈ rest.head?, p b = false) := by
  apply ((reads_takeWhile p).map fun _ => ()).mono
  · intro text a
    constructor
    · rintro ⟨_, ⟨_, htext⟩, _⟩ b hb
      exact (hP b).1 (htext b hb)
    · intro htext
      exact ⟨text, ⟨rfl, fun b hb => (hP b).2 (htext b hb)⟩, rfl⟩
  · exact id

theorem reads_skipOws :
    Reads skipOws (fun text _ => Ows text) (fun rest => ∀ b ∈ rest.head?, isOws b = false) :=
  reads_skipWhile fun b => by simp [isOws]

theorem reads_skipSpaces :
    Reads skipSpaces (fun text _ => Spaces text) (fun rest => ∀ b ∈ rest.head?, (b == 0x20) = false) :=
  reads_skipWhile fun b => by simp

theorem reads_scanKey (label message : String) :
    Reads (scanKey label message) (fun text k => k = text ∧ Key text) KeyEnds := by
  have hstart : ∀ b, (isAsciiLowercase b || b == 0x2a) = true ↔ isAsciiLowercase b = true ∨ b = 0x2a := by
    intro b
    simp
  have hkey : ∀ b, isAsciiLowercase b = true ∨ b = 0x2a → isKeyByte b = true := by
    rintro b (hb | rfl)
    · simp [isKeyByte, hb]
    · decide
  constructor
  · intro input rest k h
    cases input with
    | nil => cases h
    | cons b input =>
      rw [scanKey, bind_of_ok (peek_apply _)] at h
      simp only [List.head?_cons] at h
      split at h
      · rename_i hb
        obtain ⟨heq, htaken, _⟩ := takeWhile_ok h
        refine ⟨k, heq, rfl, ?_⟩
        cases k with
        | nil =>
          have hstop := (takeWhile_ok h).2.2 b (by rw [show rest = b :: input from heq.symm]; rfl)
          rw [hkey b ((hstart b).1 hb)] at hstop
          cases hstop
        | cons c k =>
          obtain ⟨rfl, rfl⟩ := List.cons.inj heq
          exact .mk ((hstart b).1 hb) fun c hc => htaken c (List.mem_cons_of_mem _ hc)
      · cases h
  · rintro text rest k ⟨rfl, hkeyText⟩ hrest
    cases hkeyText with
    | @mk b t hb ht =>
      rw [scanKey, bind_of_ok (peek_apply _)]
      simp only [List.cons_append, List.head?_cons, (hstart b).2 hb, if_true]
      apply takeWhile_apply (t := b :: t)
      · exact List.forall_mem_cons.2 ⟨hkey b hb, ht⟩
      · intro c hc
        exact (by decide +kernel : ∀ c ∈ 0x3d :: ends, isKeyByte c = false) c (hrest c hc)

theorem map_eq_ok {α γ : Type} {x : WtResult α} {f : α → γ} {c : γ} :
    x.map f = .ok c ↔ ∃ a, x = .ok a ∧ f a = c := by
  cases x with
  | error e =>
    constructor
    · intro h
      cases h
    · rintro ⟨a, h, _⟩
      cases h
  | ok a =>
    constructor
    · intro h
      exact ⟨a, rfl, Except.ok.inj h⟩
    · rintro ⟨_, ⟨⟩, rfl⟩
      rfl

theorem stringBody_escape (label : String) (c : UInt8) (rest : Bytes) :
    stringBody label (0x5c :: c :: rest) =
      if c = 0x5c ∨ c = 0x22 then (stringBody label rest).map fun r => (c :: r.1, r.2)
      else .error (.invalidInput (label ++ ": invalid escape sequence in string")) := by
  rw [stringBody.eq_def]
  simp only [if_true]

theorem stringBody_cons {label : String} {b : UInt8} (hb : b ≠ 0x5c) (rest : Bytes) :
    stringBody label (b :: rest) =
      if b = 0x22 then .ok ([], rest)
      else if ¬ Printable b then .error (.invalidInput (label ++ ": invalid character in string"))
      else (stringBody label rest).map fun r => (b :: r.1, r.2) := by
  rw [stringBody.eq_def]
  simp only [if_neg hb]

theorem stringBody_sound {label : String} {input rest s : Bytes}
    (h : stringBody label input = .ok (s, rest)) :
    ∃ t, input = t ++ 0x22 :: rest ∧ StringChars t s := by
  induction input using stringBody.induct generalizing s with
  | case1 => cases h
  | case2 c input hc ih =>
    rw [stringBody_escape, if_pos hc] at h
    obtain ⟨r, hr, heq⟩ := map_eq_ok.1 h
    obtain ⟨rfl, rfl⟩ := Prod.mk.inj heq
    obtain ⟨t, rfl, ht⟩ := ih hr
    exact ⟨0x5c :: c :: t, rfl, .escaped hc ht⟩
  | case3 c input hc =>
    rw [stringBody_escape, if_neg hc] at h
    cases h
  | case4 => cases h
  | case5 input _ =>
    rw [stringBody_cons (by decide), if_pos rfl] at h
    cases h
    exact ⟨[], rfl, .nil⟩
  | case6 b input hslash hquote hprint =>
    rw [stringBody_cons hslash, if_neg hquote, if_pos hprint] at h
    cases h
  | case7 b input hslash hquote hprint ih =>
    rw [stringBody_cons hslash, if_neg hquote, if_neg hprint] at h
    obtain ⟨r, hr, heq⟩ := map_eq_ok.1 h
    obtain ⟨rfl, rfl⟩ := Prod.mk.inj heq
    obtain ⟨t, rfl, ht⟩ := ih hr
    exact ⟨b :: t, rfl, .plain (not_not.1 hprint) hquote hslash ht⟩

theorem stringBody_complete {label : String} {t s : Bytes} (h : StringChars t s) (rest : Bytes) :
    stringBody label (t ++ 0x22 :: rest) = .ok (s, rest) := by
  induction h with
  | nil => rw [List.nil_append, stringBody_cons (by decide), if_pos rfl]
  | plain hprint hquote hslash _ ih =>
    rw [List.cons_append, stringBody_cons hslash, if_neg hquote, if_neg (not_not.2 hprint), ih]
    rfl
  | escaped hb _ ih =>
    rw [List.cons_append, List.cons_append, stringBody_escape, if_pos hb, ih]
    rfl

theorem reads_stringBody (label : String) (F : Bytes → Prop) :
    Reads (stringBody label : Scan Bytes) (fun text s => ∃ t, text = t ++ [0x22] ∧ StringChars t s) F := by
  constructor
  · intro input rest s h
    obtain ⟨t, rfl, ht⟩ := stringBody_sound h
    exact ⟨t ++ [0x22], by simp, t, rfl, ht⟩
  · rintro _ rest s ⟨t, rfl, ht⟩ _
    rw [List.append_assoc]
    exact stringBody_complete ht rest

/-- A scanner that first asks for one symbol reads it in front of what it reads then. -/
theorem reads_expect {α : Type} {b : UInt8} {e : Scan α} {p : Scan α} {G : Bytes → α → Prop}
    {F : Bytes → Prop} (he : ∀ input rest a, e input ≠ .ok (a, rest)) (hp : Reads p G F) :
    Reads (do if !(← consumeIfEq b) then e else p) (fun text a => ∃ t, text = b :: t ∧ G t a) F := by
  constructor
  · intro input rest a h
    obtain ⟨taken, mid, htaken, hrest⟩ := bind_eq_ok.1 h
    obtain ⟨rfl, rfl⟩ | ⟨rfl, rfl, _⟩ := consumeIfEq_ok htaken
    · obtain ⟨t, rfl, hg⟩ := hp.sound hrest
      exact ⟨b :: t, rfl, t, rfl, hg⟩
    · exact absurd hrest (he _ _ _)
  · rintro _ rest a ⟨t, rfl, hg⟩ hf
    rw [List.cons_append, bind_of_ok (consumeIfEq_cons b _)]
    exact hp.complete hg hf

theorem invalid_ne_ok {α : Type} (label message : String) (input rest : Bytes) (a : α) :
    (invalid label message : Scan α) input ≠ .ok (a, rest) := by
  intro h
  cases h

theorem reads_skipString (label : String) (F : Bytes → Prop) :
    Reads (skipString label) (fun text _ => ∃ s, SfString text s) F := by
  have hbody := ((reads_stringBody label F).map fun _ => ())
  apply (reads_expect (b := 0x22) (invalid_ne_ok label _) hbody).mono
  · intro text a
    constructor
    · rintro ⟨_, rfl, s, ⟨t, rfl, ht⟩, _⟩
      exact ⟨s, .mk ht⟩
    · rintro ⟨s, h⟩
      cases h with
      | mk ht => exact ⟨_, rfl, s, ⟨_, rfl, ht⟩, rfl⟩
  · exact id

theorem reads_skipToken (label : String) :
    Reads (skipToken label) (fun text _ => SfToken text) Ends := by
  have hstart : ∀ b, (b == 0x2a || isAsciiAlphabetic b) = true ↔ isAsciiAlphabetic b = true ∨ b = 0x2a := by
    intro b
    simp [or_comm]
  have htail := (reads_takeWhile (ε := WtError) isTokenByte).map fun _ => ()
  constructor
  · intro input rest a h
    cases input with
    | nil => cases h
    | cons b input =>
      rw [skipToken, bind_of_ok (peek_apply _)] at h
      simp only [List.head?_cons] at h
      split at h
      · rename_i hb
        rw [bind_of_ok (advance_apply _)] at h
        obtain ⟨t, heq, taken, ⟨_, ht⟩, _⟩ := htail.sound h
        exact ⟨b :: t, by rw [List.cons_append, ← heq, List.tail_cons], .mk ((hstart b).1 hb) ht⟩
      · cases h
  · intro text rest a h hrest
    cases h with
    | @mk b t hb ht =>
      rw [skipToken, bind_of_ok (peek_apply _)]
      simp only [List.cons_append, List.head?_cons, (hstart b).2 hb, if_true]
      rw [bind_of_ok (advance_apply _), List.tail_cons]
      exact htail.complete ⟨t, ⟨rfl, ht⟩, rfl⟩ (hrest.stops (by decide +kernel))

theorem reads_skipByteSequence (label : String) (F : Bytes → Prop) :
    Reads (skipByteSequence label) (fun text _ => SfByteSequence text) F := by
  have hclose : Reads
      (do
        if !(← consumeIfEq 0x3a) then invalid label ": byte sequence must end with ':'"
        else return () : Scan Unit)
      (fun text _ => text = [0x3a]) F := by
    apply (reads_expect (b := 0x3a) (p := (pure () : Scan Unit)) (G := fun t _ => t = [])
      (invalid_ne_ok label _) ?_).mono
    · intro text a
      simp
    · exact id
    · constructor
      · intro input rest a h
        cases h
        exact ⟨[], rfl, rfl⟩
      · rintro _ rest a rfl _
        rfl
  have hbody := (reads_takeWhile (ε := WtError) isBase64Byte).bind (fun _ => hclose) (by
    rintro _ _ _ rest rfl _ b hb
    obtain rfl := Option.some.inj hb
    decide)
  apply (reads_expect (b := 0x3a) (invalid_ne_ok label _) hbody).mono
  · intro text a
    constructor
    · rintro ⟨_, rfl, t, _, _, rfl, ⟨_, ht⟩, rfl⟩
      exact .mk ht
    · intro h
      cases h with
      | @mk t ht => exact ⟨_, rfl, t, t, [0x3a], rfl, ⟨rfl, ht⟩, rfl⟩
  · exact id

theorem reads_skipBoolean (label : String) (F : Bytes → Prop) :
    Reads (skipBoolean label) (fun text _ => SfBoolean text) F := by
  have hbit : ∀ b : UInt8, (b == 0x30 || b == 0x31) = true ↔ b = 0x30 ∨ b = 0x31 := by
    intro b
    simp
  constructor
  · intro input rest a h
    obtain ⟨taken, mid, htaken, hdigit⟩ := bind_eq_ok.1 h
    obtain ⟨rfl, rfl⟩ | ⟨rfl, rfl, _⟩ := consumeIfEq_ok htaken
    · simp only [Bool.not_true, Bool.false_eq_true, if_false] at hdigit
      rw [bind_of_ok (peek_apply _)] at hdigit
      cases mid with
      | nil => cases hdigit
      | cons b mid =>
        simp only [List.head?_cons] at hdigit
        split at hdigit
        · rename_i hb
          cases hdigit
          exact ⟨[0x3f, b], rfl, .mk ((hbit b).1 hb)⟩
        · cases hdigit
    · cases hdigit
  · intro text rest a h _
    cases h with
    | @mk b hb =>
      rw [skipBoolean, List.cons_append, bind_of_ok (consumeIfEq_cons _ _)]
      simp only [Bool.not_true, Bool.false_eq_true, if_false]
      rw [bind_of_ok (peek_apply _)]
      simp only [List.cons_append, List.nil_append, List.head?_cons, (hbit b).2 hb, if_true,
        advance_apply, List.tail_cons]

/-! ## Parameters -/

/-- What may follow behind parameters. -/
def ParameterEnds (rest : Bytes) : Prop := Ends rest ∧ rest.head? ≠ some 0x3b

/-- A value that may be left out, with the symbol that announces it. -/
theorem reads_optional {α : Type} {b : UInt8} {p : Scan α} {d : α} {G : Bytes → α → Prop}
    {F : Bytes → Prop} (hp : Reads p G F) :
    Reads (do if ← consumeIfEq b then p else return d)
      (fun text a => (∃ t, text = b :: t ∧ G t a) ∨ text = [] ∧ a = d)
      (fun rest => F rest ∧ rest.head? ≠ some b) := by
  constructor
  · intro input rest a h
    obtain ⟨taken, mid, htaken, hrest⟩ := bind_eq_ok.1 h
    obtain ⟨rfl, rfl⟩ | ⟨rfl, rfl, _⟩ := consumeIfEq_ok htaken
    · obtain ⟨t, rfl, hg⟩ := hp.sound hrest
      exact ⟨b :: t, rfl, .inl ⟨t, rfl, hg⟩⟩
    · cases hrest
      exact ⟨[], rfl, .inr ⟨rfl, rfl⟩⟩
  · rintro _ rest a (⟨t, rfl, hg⟩ | ⟨rfl, rfl⟩) ⟨hf, hhead⟩
    · rw [List.cons_append, bind_of_ok (consumeIfEq_cons b _)]
      exact hp.complete hg hf
    · rw [List.nil_append, bind_of_ok (consumeIfEq_other hhead)]
      rfl

theorem StructuredField.Parameters.ends {Item : Bytes → Prop} {ps rest : Bytes} (h : Parameters Item ps)
    (hrest : Ends rest) : Ends (ps ++ rest) := by
  cases h with
  | nil => exact hrest
  | cons ht _ =>
    cases ht with
    | flag => exact ends_cons (by decide) _
    | value => exact ends_cons (by decide) _

/-- No octet of the class is a blank. -/
theorem not_isOws_of_class {p : UInt8 → Bool} {b : UInt8} (hb : p b = true) (hspace : p 0x20 = false)
    (htab : p 0x09 = false) : isOws b = false := by
  by_contra hnot
  rw [Bool.not_eq_false, isOws, Bool.or_eq_true, beq_iff_eq, beq_iff_eq] at hnot
  obtain rfl | rfl := hnot
  · rw [hspace] at hb
    cases hb
  · rw [htab] at hb
    cases hb

theorem not_space {b : UInt8} (h : isOws b = false) : (b == 0x20) = false := by
  rw [isOws, Bool.or_eq_false_iff] at h
  exact h.1

theorem StructuredField.Key.head {k : Bytes} (h : Key k) : ∃ b t, k = b :: t ∧ isOws b = false := by
  cases h with
  | @mk b t hb _ =>
    refine ⟨b, t, rfl, ?_⟩
    obtain hb | rfl := hb
    · exact not_isOws_of_class hb (by decide) (by decide)
    · decide

/-- What a turn of `skip_parameters` takes, and whether it was a parameter. -/
def ParameterTurn (Item : Bytes → Prop) (_ : Unit) (text : Bytes) : Unit ⊕ Unit → Prop
  | .inl _ => Parameter Item text
  | .inr _ => text = []

theorem turns_parameters {Item : Bytes → Prop} {s u : Unit} {text : Bytes} :
    Scanner.Turns (ParameterTurn Item) s text u ↔ Parameters Item text := by
  constructor
  · intro hturns
    induction hturns with
    | stop hnil =>
      obtain rfl := hnil
      exact .nil
    | turn ht _ ih => exact .cons ht ih
  · intro h
    induction h with
    | nil => exact .stop rfl
    | @cons t ts ht _ ih =>
      have hturn : ParameterTurn Item s t (.inl s) := ht
      exact .turn hturn ih

theorem parameterTurn_semicolon (key : Scan Bytes) (item : Scan Unit) (rest : Bytes) :
    parameterTurn key item (0x3b :: rest) = (skipParameter key item >>= fun _ => pure (.inl ())) rest := by
  rw [parameterTurn, bind_of_ok (peek_apply _), List.head?_cons, if_pos rfl,
    bind_of_ok (advance_apply _)]
  rfl

theorem parameterTurn_other (key : Scan Bytes) (item : Scan Unit) {rest : Bytes}
    (h : rest.head? ≠ some 0x3b) : parameterTurn key item rest = .ok (.inr (), rest) := by
  rw [parameterTurn, bind_of_ok (peek_apply _), if_neg h]
  rfl

section
variable {key : Scan Bytes} {item : Scan Unit} {Item : Bytes → Prop}
  (hkey : Reads key (fun text k => k = text ∧ Key text) KeyEnds)
  (hitem : Reads item (fun text _ => Item text) Ends)

include hkey hitem

theorem reads_skipParameter :
    Reads (skipParameter key item) (fun text _ => Parameter Item (0x3b :: text)) Ends := by
  have hvalue := reads_optional (b := 0x3d) (d := ()) hitem
  have hbody := reads_skipSpaces.bind (fun _ => hkey.bind (fun _ => hvalue) (by
    rintro _ _ _ rest (⟨t, rfl, _⟩ | ⟨rfl, _⟩) ⟨hends, _⟩ b hb
    · obtain rfl := Option.some.inj hb
      decide
    · exact hends.keyEnds b hb)) (by
    rintro _ _ _ rest ⟨k, _, t, rfl, ⟨_, hk⟩, _⟩ _ b hb
    obtain ⟨c, k, rfl, hc⟩ := hk.head
    obtain rfl := Option.some.inj hb
    exact not_space hc)
  apply hbody.mono
  · intro text a
    constructor
    · rintro ⟨sp, _, _, rfl, hsp, k, _, _, rfl, ⟨_, hk⟩, ⟨t, rfl, ht⟩ | ⟨rfl, _⟩⟩
      · exact .value hsp hk ht
      · rw [List.append_nil]
        exact .flag hsp hk
    · intro h
      cases h with
      | @flag sp k hsp hk => exact ⟨sp, (), k, rfl, hsp, k, k, [], by simp, ⟨rfl, hk⟩, .inr ⟨rfl, rfl⟩⟩
      | @value sp k t hsp hk ht =>
        exact ⟨sp, (), _, rfl, hsp, k, k, _, rfl, ⟨rfl, hk⟩, .inl ⟨t, rfl, ht⟩⟩
  · intro rest hends
    refine ⟨hends, ?_⟩
    intro hhead
    exact absurd (hends 0x3d hhead) (by decide)

theorem reads_skipParameters :
    Reads (skipParameters key item) (fun text _ => Parameters Item text) ParameterEnds := by
  have hparameter := reads_skipParameter hkey hitem
  have hloop := reads_loop (e := stuck) (f := fun _ : Unit => parameterTurn key item)
    (G := ParameterTurn Item) (F := ParameterEnds) (by
      intro _ input rest r h
      by_cases hhead : input.head? = some 0x3b
      · obtain ⟨tail, rfl⟩ := List.head?_eq_some_iff.1 hhead
        rw [parameterTurn_semicolon] at h
        obtain ⟨_, mid, hp, hret⟩ := bind_eq_ok.1 h
        cases hret
        obtain ⟨t, rfl, ht⟩ := hparameter.sound hp
        exact ⟨0x3b :: t, rfl, ht⟩
      · rw [parameterTurn_other key item hhead] at h
        cases h
        exact ⟨[], rfl, rfl⟩) (by
      rintro _ _ t ht rfl
      cases ht) (by
      rintro _ _ t t' _ rest ht hturns ⟨hends, _⟩
      have hfollow := (turns_parameters.1 hturns).ends hends
      obtain ⟨u, rfl⟩ : ∃ u, t = 0x3b :: u := by
        cases ht with
        | flag => exact ⟨_, rfl⟩
        | value => exact ⟨_, rfl⟩
      rw [List.cons_append, parameterTurn_semicolon, bind_of_ok (hparameter.complete (a := ()) ht hfollow)]
      rfl) (by
      rintro _ _ _ rest rfl ⟨_, hhead⟩
      exact parameterTurn_other key item hhead) ()
  exact hloop.mono turns_parameters id

end

/-! ## Elements between commas -/

theorem skipOws_apply {o r : Bytes} (ho : Ows o) (hrest : ∀ b ∈ r.head?, isOws b = false) :
    skipOws (o ++ r) = .ok ((), r) :=
  reads_skipOws.complete (a := ()) ho hrest

theorem isEmpty_nil : isEmpty [] = .ok (true, []) := rfl

theorem isEmpty_cons (b : UInt8) (rest : Bytes) : isEmpty (b :: rest) = .ok (false, b :: rest) := rfl

section
variable (label between : String)

theorem separator_end {o : Bytes} (ho : Ows o) : separator label between o = .ok (false, []) := by
  have hskip := skipOws_apply (r := []) ho (by rintro _ ⟨⟩)
  rw [List.append_nil] at hskip
  rw [separator, bind_of_ok hskip, bind_of_ok isEmpty_nil]
  rfl

theorem separator_more {o o' : Bytes} {b : UInt8} (ho : Ows o) (ho' : Ows o') (hb : isOws b = false)
    (rest : Bytes) :
    separator label between (o ++ 0x2c :: (o' ++ b :: rest)) = .ok (true, b :: rest) := by
  have hcomma : ∀ c ∈ (0x2c :: (o' ++ b :: rest)).head?, isOws c = false := by
    rintro c ⟨⟩
    decide
  have hhead : ∀ c ∈ (b :: rest).head?, isOws c = false := by
    rintro c ⟨⟩
    exact hb
  rw [separator, bind_of_ok (skipOws_apply ho hcomma), bind_of_ok (isEmpty_cons _ _),
    if_neg Bool.false_ne_true, bind_of_ok (consumeIfEq_cons 0x2c _), if_neg (by decide),
    bind_of_ok (skipOws_apply ho' hhead), bind_of_ok (isEmpty_cons _ _)]
  rfl

theorem separator_ok {input rest : Bytes} {more : Bool}
    (h : separator label between input = .ok (more, rest)) :
    (more = false ∧ Ows input ∧ rest = []) ∨
      more = true ∧ rest ≠ [] ∧ ∃ o o', Ows o ∧ Ows o' ∧ input = o ++ 0x2c :: (o' ++ rest) := by
  obtain ⟨_, mid, hskip, hcomma⟩ := bind_eq_ok.1 h
  obtain ⟨o, rfl, ho⟩ := reads_skipOws.sound hskip
  cases mid with
  | nil =>
    rw [bind_of_ok isEmpty_nil] at hcomma
    cases hcomma
    rw [List.append_nil]
    exact .inl ⟨rfl, ho, rfl⟩
  | cons c mid =>
    rw [bind_of_ok (isEmpty_cons _ _), if_neg Bool.false_ne_true] at hcomma
    obtain ⟨taken, mid', htaken, hblanks⟩ := bind_eq_ok.1 hcomma
    obtain ⟨rfl, heq⟩ | ⟨rfl, _, _⟩ := consumeIfEq_ok htaken
    · rw [if_neg (by decide)] at hblanks
      obtain ⟨_, last, hskip', hmore⟩ := bind_eq_ok.1 hblanks
      obtain ⟨o', rfl, ho'⟩ := reads_skipOws.sound hskip'
      cases last with
      | nil => cases hmore
      | cons d last =>
        rw [bind_of_ok (isEmpty_cons _ _), if_neg Bool.false_ne_true] at hmore
        cases hmore
        exact .inr ⟨rfl, List.cons_ne_nil _ _, o, o', ho, ho', by rw [heq]⟩
    · cases hblanks

end

/-- What follows an element: blanks, and then nothing or a comma. -/
theorem parameterEnds_of_ows {o r : Bytes} (ho : Ows o) (hrest : r = [] ∨ r.head? = some 0x2c) :
    ParameterEnds (o ++ r) := by
  cases o with
  | nil =>
    rw [List.nil_append]
    obtain rfl | hcomma := hrest
    · exact ⟨ends_nil, nofun⟩
    · refine ⟨?_, ?_⟩
      · rintro b hb
        rw [hcomma] at hb
        cases hb
        decide
      · rw [hcomma]
        decide
  | cons b o =>
    obtain rfl | rfl := ho b (List.mem_cons_self ..)
    · exact ⟨ends_cons (by decide) _, nofun⟩
    · exact ⟨ends_cons (by decide) _, nofun⟩

theorem StructuredField.Joined.head {α : Type} {G : Bytes → α → Prop} {text : Bytes} {as : List α}
    (h : Joined G text as) (hhead : ∀ {t a}, G t a → ∃ b t', t = b :: t' ∧ isOws b = false) :
    ∃ b t', text = b :: t' ∧ isOws b = false := by
  cases h with
  | last ht _ =>
    obtain ⟨b, t', rfl, hb⟩ := hhead ht
    exact ⟨b, _, rfl, hb⟩
  | cons ht _ _ _ =>
    obtain ⟨b, t', rfl, hb⟩ := hhead ht
    exact ⟨b, _, rfl, hb⟩

section
variable {α σ : Type} {element : Scan α} {put : σ → α → WtResult σ} {label between : String}
  {turn : σ → Scan (σ ⊕ σ)} {G : Bytes → α → Prop}
  (hreads : Reads element G ParameterEnds)
  (hhead : ∀ {t a}, G t a → ∃ b t', t = b :: t' ∧ isOws b = false)
  (hturn : ∀ s input, input ≠ [] → turn s input = elementTurn element put (separator label between) s input)
  (hend : ∀ s s' rest, turn s [] ≠ .ok (.inl s', rest))

include hreads in
/-- What an element turn that succeeds has taken. -/
theorem elementTurn_ok {s : σ} {input rest : Bytes} {r : σ ⊕ σ}
    (h : elementTurn element put (separator label between) s input = .ok (r, rest)) :
    ∃ t a s', G t a ∧ put s a = .ok s' ∧
      ((r = .inr s' ∧ rest = [] ∧ ∃ o, Ows o ∧ input = t ++ o) ∨
        r = .inl s' ∧ rest ≠ [] ∧
          ∃ o o', Ows o ∧ Ows o' ∧ input = t ++ (o ++ 0x2c :: (o' ++ rest))) := by
  obtain ⟨a, mid, hel, hput⟩ := bind_eq_ok.1 h
  obtain ⟨t, rfl, ht⟩ := hreads.sound hel
  obtain ⟨s', mid', hlift, hsep⟩ := bind_eq_ok.1 hput
  obtain ⟨hs', rfl⟩ := lift_eq_ok.1 hlift
  obtain ⟨more, last, hmore, hret⟩ := bind_eq_ok.1 hsep
  obtain ⟨rfl, ho, rfl⟩ | ⟨rfl, hne, o, o', ho, ho', rfl⟩ := separator_ok label between hmore
  · cases hret
    exact ⟨t, a, s', ht, hs', .inl ⟨rfl, rfl, mid', ho, rfl⟩⟩
  · cases hret
    exact ⟨t, a, s', ht, hs', .inr ⟨rfl, hne, o, o', ho, ho', rfl⟩⟩

include hreads in
theorem elementTurn_last {t o : Bytes} {a : α} (ht : G t a) (ho : Ows o) (s : σ) :
    elementTurn element put (separator label between) s (t ++ o) =
      (put s a).map fun s => (.inr s, []) := by
  have hel := hreads.complete ht (parameterEnds_of_ows ho (.inl rfl))
  rw [List.append_nil] at hel
  rw [elementTurn, bind_of_ok hel]
  cases put s a with
  | error e => rfl
  | ok s' =>
    rw [bind_of_ok (lift_eq_ok.2 ⟨rfl, rfl⟩), bind_of_ok (separator_end label between ho)]
    rfl

include hreads in
theorem elementTurn_next {t o o' : Bytes} {a : α} {b : UInt8} (ht : G t a) (ho : Ows o) (ho' : Ows o')
    (hb : isOws b = false) (s : σ) (rest : Bytes) :
    elementTurn element put (separator label between) s (t ++ (o ++ 0x2c :: (o' ++ b :: rest))) =
      (put s a).map fun s => (.inl s, b :: rest) := by
  have hel := hreads.complete ht
    (parameterEnds_of_ows (r := 0x2c :: (o' ++ b :: rest)) ho (.inr (List.head?_cons ..)))
  rw [elementTurn, bind_of_ok hel]
  cases put s a with
  | error e => rfl
  | ok s' =>
    rw [bind_of_ok (lift_eq_ok.2 ⟨rfl, rfl⟩), bind_of_ok (separator_more label between ho ho' hb rest)]
    rfl

include hreads hturn hend in
theorem elements_shorter {s s' : σ} {input rest : Bytes} (h : turn s input = .ok (.inl s', rest)) :
    rest.length < input.length := by
  by_cases hnil : input = []
  · rw [hnil] at h
    exact absurd h (hend _ _ _)
  · rw [hturn s input hnil] at h
    obtain ⟨t, a, s'', _, _, ⟨hr, _⟩ | ⟨_, _, o, o', _, _, rfl⟩⟩ := elementTurn_ok hreads h
    · cases hr
    · simp only [List.length_append, List.length_cons]
      omega

include hreads hhead hturn hend in
/-- Over elements between commas the loop puts them together one after the other. -/
theorem elements_apply {text : Bytes} {as : List α} (h : Joined G text as) (s : σ) :
    loop stuck turn s text = (as.foldlM put s).map fun s => (s, []) := by
  have hloop := fun s input => loop_apply (e := stuck) (f := turn)
    (elements_shorter hreads hturn hend) s input
  have hne : ∀ {t a} (rest : Bytes), G t a → t ++ rest ≠ [] := by
    intro t a rest ht
    obtain ⟨b, t', rfl, _⟩ := hhead ht
    exact List.cons_ne_nil _ _
  induction h generalizing s with
  | @last t o a ht ho =>
    rw [hloop, bind_apply, hturn _ _ (hne o ht), elementTurn_last hreads ht ho, List.foldlM_cons]
    cases put s a with
    | error e => rfl
    | ok s' => rfl
  | @cons t o o' ts a as ht ho ho' hts ih =>
    obtain ⟨b, ts, rfl, hb⟩ := hts.head hhead
    rw [hloop, bind_apply, hturn _ _ (hne _ ht), elementTurn_next hreads ht ho ho' hb, List.foldlM_cons]
    cases put s a with
    | error e => rfl
    | ok s' => exact ih s'

include hreads hturn hend in
/-- What the loop accepts are elements between commas. -/
theorem elements_ok {s s' : σ} {input rest : Bytes} (hne : input ≠ [])
    (h : loop stuck turn s input = .ok (s', rest)) :
    ∃ as, Joined G input as ∧ as.foldlM put s = .ok s' ∧ rest = [] := by
  induction hn : input.length using Nat.strong_induction_on generalizing s input with
  | _ n ih =>
    have hshorter : ∀ {s s' input rest}, turn s input = .ok (.inl s', rest) → rest.length < input.length :=
      elements_shorter hreads hturn hend
    rw [loop_apply hshorter] at h
    obtain ⟨r, mid, hstep, hgo⟩ := bind_eq_ok.1 h
    have hel := hstep
    rw [hturn s input hne] at hel
    obtain ⟨t, a, s₁, ht, hput, ⟨rfl, rfl, o, ho, rfl⟩ | ⟨rfl, hmore, o, o', ho, ho', rfl⟩⟩ :=
      elementTurn_ok hreads hel
    · cases hgo
      refine ⟨[a], .last ht ho, ?_, rfl⟩
      rw [List.foldlM_cons, hput]
      rfl
    · obtain ⟨as, has, hfold, rfl⟩ := ih _ (hn ▸ hshorter hstep) hmore hgo rfl
      refine ⟨a :: as, .cons ht ho ho' has, ?_, rfl⟩
      rw [List.foldlM_cons, hput]
      exact hfold

end

end Http2.WebTransport
