import Http2.Validation.Section

/-! The field checks of `src/syntax.rs` that `HeaderField::from_static` runs at compile time, where a
broken rule is a panic with a message instead of an error. -/
namespace Http2

open Hpack Lib

/-- What the compiler evaluates: a value, or a panic with its message. -/
abbrev ConstEval (α : Type) : Type := Except String α

namespace ConstEval

variable {α β : Type}

@[simp] theorem pure_eq (a : α) : (pure a : ConstEval α) = .ok a := rfl

@[simp] theorem throw_eq (message : String) : (throw message : ConstEval α) = .error message := rfl

@[simp] theorem ok_bind (a : α) (f : α → ConstEval β) : (Except.ok a >>= f) = f a := rfl

@[simp] theorem error_bind (message : String) (f : α → ConstEval β) :
    (Except.error message >>= f) = .error message := rfl

end ConstEval

/-- `bytes[i]`, whose bounds are checked. -/
def index (bytes : Bytes) (i : Nat) : ConstEval UInt8 :=
  match bytes[i]? with
  | some b => .ok b
  | none => .error "index out of bounds"

/-- `while i < bytes.len()` with one check of the octet at `i` a turn. -/
def checkFrom (bytes : Bytes) (check : Nat → UInt8 → ConstEval Unit) (i : Nat) : ConstEval Unit :=
  if i < bytes.length then do
    let b ← index bytes i
    check i b
    checkFrom bytes check (i + 1)
  else return ()
termination_by bytes.length - i

def bytesEqFrom (a b : Bytes) (i : Nat) : ConstEval Bool :=
  if i < a.length then do
    let x ← index a i
    let y ← index b i
    if x ≠ y then return false else bytesEqFrom a b (i + 1)
  else return true
termination_by a.length - i

def bytesEq (a b : Bytes) : ConstEval Bool :=
  if a.length ≠ b.length then return false else bytesEqFrom a b 0

def checkFieldNameByte (i : Nat) (b : UInt8) : ConstEval Unit :=
  if isAsciiUppercase b then
    throw "HeaderField::from_static: field-name must be lowercase ASCII (RFC 9113 8.2.1)"
  else if b = 0x3a then
    if i ≠ 0 then
      throw "HeaderField::from_static: ':' is only allowed at the start of a pseudo-header name (RFC 9113 8.3)"
    else return ()
  else if !isTokenCharLower b then
    throw "HeaderField::from_static: field-name contains non-token byte (RFC 9110 5.6.2)"
  else return ()

def checkFieldNameConst (name : Bytes) : ConstEval Unit :=
  if name.isEmpty then
    throw "HeaderField::from_static: field-name must not be empty (RFC 9110 5.6.2)"
  else checkFrom name checkFieldNameByte 0

def checkFieldValueByte (_ : Nat) (b : UInt8) : ConstEval Unit :=
  if b = 0x00 ∨ b = 0x0d ∨ b = 0x0a then
    throw "HeaderField::from_static: field-value must not contain NUL, CR, or LF (RFC 9113 8.2.1)"
  else return ()

def checkFieldValueConst (value : Bytes) : ConstEval Unit := do
  if value.length > 0 then do
    let first ← index value 0
    if first = 0x20 ∨ first = 0x09 then
      throw "HeaderField::from_static: field-value must not start with SP or HTAB (RFC 9113 8.2.1)"
    let last ← index value (value.length - 1)
    if last = 0x20 ∨ last = 0x09 then
      throw "HeaderField::from_static: field-value must not end with SP or HTAB (RFC 9113 8.2.1)"
  checkFrom value checkFieldValueByte 0

def checkTokenByte (_ : Nat) (b : UInt8) : ConstEval Unit :=
  if !isTokenCharCaseInsensitive b then
    throw "HeaderField::from_static: pseudo-header value contains non-token byte"
  else return ()

def checkTokenNonemptyConst (value : Bytes) : ConstEval Unit :=
  if value.isEmpty then throw "HeaderField::from_static: pseudo-header value must not be empty"
  else checkFrom value checkTokenByte 0

def checkSchemeByte (_ : Nat) (b : UInt8) : ConstEval Unit :=
  if !(isAsciiAlphanumeric b || b == 0x2b || b == 0x2d || b == 0x2e) then
    throw "HeaderField::from_static: :scheme value contains invalid byte (RFC 3986 3.1)"
  else return ()

def checkSchemeConst (value : Bytes) : ConstEval Unit :=
  if value.isEmpty then
    throw "HeaderField::from_static: :scheme value must not be empty (RFC 3986 3.1)"
  else do
    let first ← index value 0
    if !isAsciiAlphabetic first then
      throw "HeaderField::from_static: :scheme value must start with ALPHA (RFC 3986 3.1)"
    else checkFrom value checkSchemeByte 1

def checkPathConst (value : Bytes) : ConstEval Unit :=
  if value.isEmpty then return ()
  else do
    let first ← index value 0
    if value.length = 1 ∧ first = 0x2a then return ()
    else if first ≠ 0x2f then
      throw "HeaderField::from_static: :path must start with '/' or be '*' (RFC 9113 8.3.1)"
    else return ()

def checkStatusByte (_ : Nat) (b : UInt8) : ConstEval Unit :=
  if !isAsciiDigit b then
    throw "HeaderField::from_static: :status value must be 3 ASCII digits (RFC 9112 4, RFC 9110 15)"
  else return ()

/-- The branch for `:status`; its loop runs to 3, which is the length by then. -/
def checkStatusConst (value : Bytes) : ConstEval Unit :=
  if value.length ≠ 3 then
    throw "HeaderField::from_static: :status value must be 3 ASCII digits (RFC 9112 4, RFC 9110 15)"
  else checkFrom value checkStatusByte 0

def checkPseudoHeaderConst (name value : Bytes) : ConstEval Unit :=
  if name.isEmpty then return ()
  else do
    let first ← index name 0
    if first ≠ 0x3a then return ()
    else if ← bytesEq name (ascii ":method") then checkTokenNonemptyConst value
    else if ← bytesEq name (ascii ":scheme") then checkSchemeConst value
    else if ← bytesEq name (ascii ":authority") then return ()
    else if ← bytesEq name (ascii ":path") then checkPathConst value
    else if ← bytesEq name (ascii ":protocol") then checkTokenNonemptyConst value
    else if ← bytesEq name (ascii ":status") then checkStatusConst value
    else throw "HeaderField::from_static: unknown pseudo-header name (RFC 9113 8.3, RFC 8441 4)"

/-- `HeaderField::from_static`. -/
def Hpack.HeaderField.fromStatic (name value : Bytes) : ConstEval HeaderField := do
  checkFieldNameConst name
  checkFieldValueConst value
  checkPseudoHeaderConst name value
  return ⟨name, value, false⟩

/-! ## The loops -/

theorem index_eq {bytes : Bytes} {i : Nat} {b : UInt8} (h : bytes[i]? = some b) :
    index bytes i = .ok b := by
  rw [index, h]

/-- A loop over the octets completes when each octet from the first index on passes. -/
theorem checkFrom_eq_ok {bytes : Bytes} {check : Nat → UInt8 → ConstEval Unit} {i : Nat} :
    checkFrom bytes check i = .ok () ↔
      ∀ j b, i ≤ j → bytes[j]? = some b → check j b = .ok () := by
  induction hn : bytes.length - i generalizing i with
  | zero =>
    have hend : bytes.length ≤ i := by omega
    rw [checkFrom, if_neg (by omega)]
    constructor
    · intro _ j b hij hj
      rw [List.getElem?_eq_none (by omega)] at hj
      cases hj
    · intro _
      rfl
  | succ n ih =>
    have hlt : i < bytes.length := by omega
    have hget := List.getElem?_eq_getElem hlt
    rw [checkFrom, if_pos hlt, index_eq hget]
    simp only [bind_eq_ok_iff]
    constructor
    · rintro ⟨b, hb, ⟨⟩, hcheck, hrest⟩ j c hij hj
      cases hb
      rcases Nat.eq_or_lt_of_le hij with rfl | hlt'
      · rw [hget] at hj
        cases hj
        exact hcheck
      · exact (ih (by omega)).1 hrest j c hlt' hj
    · intro hall
      refine ⟨_, rfl, (), hall i _ (Nat.le_refl i) hget, (ih (by omega)).2 ?_⟩
      intro j b hij hj
      exact hall j b (by omega) hj

theorem checkFrom_zero {check : Nat → UInt8 → ConstEval Unit} {p : UInt8 → Bool}
    (h : ∀ j b, check j b = .ok () ↔ p b = true) (bytes : Bytes) :
    checkFrom bytes check 0 = .ok () ↔ bytes.all p = true := by
  rw [checkFrom_eq_ok, List.all_eq_true]
  constructor
  · intro hall b hb
    obtain ⟨j, hj⟩ := List.mem_iff_getElem?.1 hb
    exact (h j b).1 (hall j b (Nat.zero_le j) hj)
  · intro hall j b _ hj
    exact (h j b).2 (hall b (List.mem_of_getElem? hj))

theorem checkFrom_one {check : Nat → UInt8 → ConstEval Unit} {p : UInt8 → Bool}
    (h : ∀ j b, check (j + 1) b = .ok () ↔ p b = true) (first : UInt8) (rest : Bytes) :
    checkFrom (first :: rest) check 1 = .ok () ↔ rest.all p = true := by
  rw [← checkFrom_zero h, checkFrom_eq_ok, checkFrom_eq_ok]
  constructor
  · intro hall j b _ hj
    exact hall (j + 1) b (by omega) hj
  · intro hall j b hij hj
    obtain ⟨k, rfl⟩ : ∃ k, j = k + 1 := ⟨j - 1, by omega⟩
    exact hall k b (Nat.zero_le k) hj

theorem bytesEqFrom_eq {a b : Bytes} (hlen : a.length = b.length) (i : Nat) :
    bytesEqFrom a b i = .ok (decide (a.drop i = b.drop i)) := by
  induction hn : a.length - i generalizing i with
  | zero =>
    rw [bytesEqFrom, if_neg (by omega), List.drop_eq_nil_of_le (by omega),
      List.drop_eq_nil_of_le (by omega)]
    rfl
  | succ n ih =>
    have ha : i < a.length := by omega
    have hb : i < b.length := by omega
    rw [bytesEqFrom, if_pos ha, index_eq (List.getElem?_eq_getElem ha),
      index_eq (List.getElem?_eq_getElem hb), List.drop_eq_getElem_cons ha,
      List.drop_eq_getElem_cons hb]
    by_cases heq : a[i] = b[i]
    · simp only [ConstEval.ok_bind, heq, ne_eq, not_true, if_false, ih (i + 1) (by omega),
        List.cons.injEq, true_and]
    · simp only [ConstEval.ok_bind, heq, ne_eq, not_false_eq_true, if_true, List.cons.injEq,
        false_and, decide_false, ConstEval.pure_eq]

theorem bytesEq_eq (a b : Bytes) : bytesEq a b = .ok (decide (a = b)) := by
  unfold bytesEq
  by_cases hlen : a.length = b.length
  · simpa [hlen] using bytesEqFrom_eq hlen 0
  · have hne : a ≠ b := fun h => hlen (congrArg List.length h)
    simp [hlen, hne]

/-! ## Each check against its run-time sibling -/

/-- Past the first octet the loop of `validate_field_name` asks for token octets only. -/
theorem validateNameBytes_eq_ok (name : Bytes) {l : Bytes} :
    validateNameBytes name false l = .ok () ↔
      l.all (fun b => !isAsciiUppercase b && b != 0x3a && isTokenCharLower b) = true := by
  induction l with
  | nil => simp [validateNameBytes]
  | cons b rest ih =>
    rw [validateNameBytes]
    repeat' split
    all_goals simp_all

theorem checkFieldNameByte_succ (j : Nat) (b : UInt8) :
    checkFieldNameByte (j + 1) b = .ok () ↔
      (!isAsciiUppercase b && b != 0x3a && isTokenCharLower b) = true := by
  unfold checkFieldNameByte
  repeat' split
  all_goals simp_all

theorem checkFieldNameConst_iff (name : Bytes) :
    checkFieldNameConst name = .ok () ↔ validateFieldName name = .ok () := by
  cases name with
  | nil => simp [checkFieldNameConst, validateFieldName]
  | cons b rest =>
    have hloop := checkFrom_one checkFieldNameByte_succ b rest
    have hstep : checkFrom (b :: rest) checkFieldNameByte 0 = .ok () ↔
        checkFieldNameByte 0 b = .ok () ∧
          checkFrom (b :: rest) checkFieldNameByte 1 = .ok () := by
      rw [checkFrom, if_pos (by simp), index_eq (b := b) rfl, ConstEval.ok_bind, bind_eq_ok_iff]
      exact ⟨fun ⟨_, hb, hrest⟩ => ⟨hb, hrest⟩, fun ⟨hb, hrest⟩ => ⟨(), hb, hrest⟩⟩
    rw [checkFieldNameConst, if_neg (by simp), hstep, hloop, validateFieldName, if_neg (by simp),
      ← validateNameBytes_eq_ok (b :: rest), validateNameBytes]
    unfold checkFieldNameByte
    repeat' split
    all_goals simp_all

theorem isBlank_some (b : UInt8) : isBlank (some b) = false ↔ ¬ (b = 0x20 ∨ b = 0x09) := by
  simp [isBlank]

theorem checkFieldValueConst_iff (name value : Bytes) :
    checkFieldValueConst value = .ok () ↔ validateFieldValue name value = .ok () := by
  have hbyte : ∀ j b, checkFieldValueByte j b = .ok () ↔
      (b != 0x00 && b != 0x0d && b != 0x0a) = true := by
    intro j b
    unfold checkFieldValueByte
    by_cases h0 : b = 0x00 <;> by_cases hcr : b = 0x0d <;> by_cases hlf : b = 0x0a <;>
      simp [h0, hcr, hlf]
  have hloop : checkFrom value checkFieldValueByte 0 = .ok () ↔
      ∀ b ∈ value, b ≠ 0x00 ∧ b ≠ 0x0d ∧ b ≠ 0x0a := by
    rw [checkFrom_zero hbyte]
    simp [and_assoc]
  rw [validateFieldValue_eq_ok, ← hloop]
  cases value with
  | nil => simp [checkFieldValueConst, isBlank]
  | cons first rest =>
    obtain ⟨last, hget⟩ : ∃ last, (first :: rest).getLast? = some last :=
      ⟨_, List.getLast?_cons ..⟩
    have hlast : (first :: rest)[(first :: rest).length - 1]? = some last := by
      rw [← List.getLast?_eq_getElem?, hget]
    rw [checkFieldValueConst, if_pos (by simp), index_eq (b := first) rfl, index_eq hlast, hget,
      List.head?_cons, isBlank_some, isBlank_some]
    by_cases hfirst : first = 0x20 ∨ first = 0x09
    · simp [hfirst]
    · by_cases hblank : last = 0x20 ∨ last = 0x09 <;> simp [hfirst, hblank]

theorem checkTokenNonemptyConst_iff (value : Bytes) :
    checkTokenNonemptyConst value = .ok () ↔ isValidTokenCaseInsensitive value = true := by
  have hbyte : ∀ j b, checkTokenByte j b = .ok () ↔ isTokenCharCaseInsensitive b = true := by
    intro j b
    unfold checkTokenByte
    cases isTokenCharCaseInsensitive b <;> simp
  have hloop := checkFrom_zero hbyte value
  unfold checkTokenNonemptyConst isValidTokenCaseInsensitive
  cases value with
  | nil => simp
  | cons b rest => simpa using hloop

theorem checkSchemeConst_iff (value : Bytes) :
    checkSchemeConst value = .ok () ↔ isValidScheme value = true := by
  have hbyte : ∀ j b, checkSchemeByte j b = .ok () ↔
      (isAsciiAlphanumeric b || b == 0x2b || b == 0x2d || b == 0x2e) = true := by
    intro j b
    unfold checkSchemeByte
    cases isAsciiAlphanumeric b || b == 0x2b || b == 0x2d || b == 0x2e <;> simp
  cases value with
  | nil => simp [checkSchemeConst, isValidScheme]
  | cons first rest =>
    have hloop := checkFrom_one (fun j => hbyte (j + 1)) first rest
    rw [checkSchemeConst, if_neg (by simp), index_eq (b := first) rfl, isValidScheme]
    cases hfirst : isAsciiAlphabetic first with
    | false => simp [hfirst]
    | true => simpa [hfirst] using hloop

theorem checkPathConst_iff (value : Bytes) :
    checkPathConst value = .ok () ↔
      (value.isEmpty || value == ascii "*" || value.head? == some 0x2f) = true := by
  have hstar : ascii "*" = [0x2a] := by decide
  cases value with
  | nil => simp [checkPathConst]
  | cons first rest =>
    rw [checkPathConst, if_neg (by simp), index_eq (b := first) rfl, hstar]
    by_cases hslash : first = 0x2f
    · simp [hslash]
    · by_cases hasterisk : first = 0x2a <;> cases rest <;> simp [hslash, hasterisk]

theorem checkStatusConst_iff (value : Bytes) :
    checkStatusConst value = .ok () ↔ (value.length == 3 && value.all isAsciiDigit) = true := by
  have hbyte : ∀ j b, checkStatusByte j b = .ok () ↔ isAsciiDigit b = true := by
    intro j b
    unfold checkStatusByte
    cases isAsciiDigit b <;> simp
  have hloop := checkFrom_zero hbyte value
  unfold checkStatusConst
  by_cases hlen : value.length = 3
  · simpa [hlen] using hloop
  · simp [hlen]

theorem validatePseudoHeader_eq_ok {name value : Bytes} (h : isPseudo name = true) :
    validatePseudoHeader name value = .ok () ↔ pseudoHeaderValue name value = some true := by
  rw [validatePseudoHeader, if_pos h]
  cases pseudoHeaderValue name value with
  | none => simp
  | some admits => cases admits <;> simp

/-- The defined names are tried in another order, which does not matter as they differ. -/
theorem checkPseudoHeaderConst_eq_ok {name value : Bytes} (h : isPseudo name = true) :
    checkPseudoHeaderConst name value = .ok () ↔ pseudoHeaderValue name value = some true := by
  obtain ⟨rest, rfl⟩ : ∃ rest, name = 0x3a :: rest :=
    List.head?_eq_some_iff.1 (by simpa [isPseudo] using h)
  rw [checkPseudoHeaderConst, if_neg (by simp), index_eq (b := 0x3a) rfl]
  simp only [bytesEq_eq, ConstEval.ok_bind, ne_eq, not_true, if_false, decide_eq_true_eq]
  generalize (0x3a :: rest : Bytes) = name
  unfold pseudoHeaderValue
  by_cases hmethod : name = ascii ":method"
  · rw [if_pos hmethod, if_pos hmethod, checkTokenNonemptyConst_iff, Option.some.injEq]
  by_cases hscheme : name = ascii ":scheme"
  · rw [if_neg hmethod, if_pos hscheme, if_neg hmethod, if_pos hscheme, checkSchemeConst_iff,
      Option.some.injEq]
  by_cases hpath : name = ascii ":path"
  · subst hpath
    rw [if_neg (by decide), if_neg (by decide), if_neg (by decide), if_pos rfl, if_neg (by decide),
      if_neg (by decide), if_pos rfl, checkPathConst_iff, Option.some.injEq]
  by_cases hstatus : name = ascii ":status"
  · subst hstatus
    rw [if_neg hmethod, if_neg hscheme, if_neg (by decide), if_neg hpath, if_neg (by decide),
      if_pos rfl, if_neg hmethod, if_neg hscheme, if_neg hpath, if_pos rfl, checkStatusConst_iff,
      Option.some.injEq]
  by_cases hprotocol : name = ascii ":protocol"
  · subst hprotocol
    rw [if_neg hmethod, if_neg hscheme, if_neg (by decide), if_neg hpath, if_pos rfl,
      if_neg hmethod, if_neg hscheme, if_neg hpath, if_neg hstatus, if_pos rfl,
      checkTokenNonemptyConst_iff, Option.some.injEq]
  by_cases hauthority : name = ascii ":authority"
  · rw [if_neg hmethod, if_neg hscheme, if_pos hauthority, if_neg hmethod, if_neg hscheme,
      if_neg hpath, if_neg hstatus, if_neg hprotocol, if_pos hauthority]
    exact ⟨fun _ => rfl, fun _ => rfl⟩
  · simp [hmethod, hscheme, hpath, hstatus, hprotocol, hauthority]

theorem checkPseudoHeaderConst_iff (name value : Bytes) :
    checkPseudoHeaderConst name value = .ok () ↔ validatePseudoHeader name value = .ok () := by
  cases h : isPseudo name with
  | true => rw [checkPseudoHeaderConst_eq_ok h, validatePseudoHeader_eq_ok h]
  | false =>
    cases name with
    | nil => simp [checkPseudoHeaderConst, validatePseudoHeader, isPseudo]
    | cons first rest =>
      have hcolon : first ≠ 0x3a := by simpa [isPseudo] using h
      rw [checkPseudoHeaderConst, if_neg (by simp), index_eq (b := first) rfl, validatePseudoHeader, h]
      simp [hcolon]

theorem fromStatic_eq_ok {name value : Bytes} {field : HeaderField} :
    HeaderField.fromStatic name value = .ok field ↔
      (checkFieldNameConst name = .ok () ∧ checkFieldValueConst value = .ok () ∧
        checkPseudoHeaderConst name value = .ok ()) ∧ field = ⟨name, value, false⟩ := by
  simp only [HeaderField.fromStatic, bind_eq_ok_iff, ConstEval.pure_eq, Except.ok.injEq]
  constructor
  · rintro ⟨_, hname, _, hvalue, _, hpseudo, hreturn⟩
    exact ⟨⟨hname, hvalue, hpseudo⟩, hreturn.symm⟩
  · rintro ⟨⟨hname, hvalue, hpseudo⟩, hreturn⟩
    exact ⟨(), hname, (), hvalue, (), hpseudo, hreturn.symm⟩

theorem new_eq_ok {name value : Bytes} {field : HeaderField} :
    HeaderField.new name value = .ok field ↔
      validateField name value = .ok () ∧ field = ⟨name, value, false⟩ := by
  rw [HeaderField.new, HeaderField.newWithSensitive, bind_eq_ok_iff]
  constructor
  · rintro ⟨_, hcheck, hreturn⟩
    exact ⟨hcheck, (Except.ok.inj hreturn).symm⟩
  · rintro ⟨hcheck, rfl⟩
    exact ⟨(), hcheck, rfl⟩

/-- `from_static` completes on the literals that `HeaderField::new` accepts, with the same field. -/
theorem fromStatic_iff_new (name value : Bytes) :
    ((∃ field, HeaderField.fromStatic name value = .ok field) ↔
      ∃ field, HeaderField.new name value = .ok field) ∧
    ∀ field, HeaderField.fromStatic name value = .ok field ↔
      HeaderField.new name value = .ok field := by
  have hfield : ∀ field, HeaderField.fromStatic name value = .ok field ↔
      HeaderField.new name value = .ok field := by
    intro field
    rw [fromStatic_eq_ok, new_eq_ok, validateField_eq_ok, checkFieldNameConst_iff,
      checkFieldValueConst_iff name, checkPseudoHeaderConst_iff]
  exact ⟨exists_congr hfield, hfield⟩

end Http2
