import Http2.Lib.Prog
import Http2.Validation

/-! What a header section is that the validators accept. -/
namespace Http2

open Hpack Lib

/-- `HeaderField::new`. -/
def Hpack.HeaderField.new (name value : Bytes) : Except HeaderFieldError HeaderField :=
  HeaderField.newWithSensitive name value false

/-- The fields that are about one connection and have no place in HTTP/2. -/
def connectionSpecific : List Bytes :=
  [ascii "connection", ascii "keep-alive", ascii "proxy-connection", ascii "transfer-encoding",
    ascii "upgrade"]

/-- A field that `HeaderField::new` builds and HTTP/2 has a place for. -/
structure Hpack.HeaderField.Clean (h : HeaderField) : Prop where
  accepted : HeaderField.new h.name h.value = .ok ⟨h.name, h.value, false⟩
  octets : ∀ b ∈ h.value, b ≠ 0x00 ∧ b ≠ 0x0d ∧ b ≠ 0x0a
  specific : h.name ∉ connectionSpecific

/-- The pseudo-headers stand first, each of them once. -/
def PseudoFirst (headers : List HeaderField) : Prop :=
  ∃ pseudo regular, headers = pseudo ++ regular ∧ (∀ h ∈ pseudo, isPseudo h.name = true) ∧
    (∀ h ∈ regular, isPseudo h.name = false) ∧ (pseudo.map HeaderField.name).Nodup

structure MessageSection (headers : List HeaderField) : Prop where
  clean : ∀ h ∈ headers, h.Clean
  ordered : PseudoFirst headers

structure TrailerSection (headers : List HeaderField) : Prop where
  clean : ∀ h ∈ headers, h.Clean
  regular : ∀ h ∈ headers, isPseudo h.name = false

/-! ## Single fields -/

theorem validateFieldValue_eq_ok {name value : Bytes} :
    validateFieldValue name value = .ok () ↔ isBlank value.head? = false ∧
      isBlank value.getLast? = false ∧ ∀ b ∈ value, b ≠ 0x00 ∧ b ≠ 0x0d ∧ b ≠ 0x0a := by
  have hfind : (value.find? fun b => b == 0x00 || b == 0x0d || b == 0x0a) = none ↔
      ∀ b ∈ value, b ≠ 0x00 ∧ b ≠ 0x0d ∧ b ≠ 0x0a := by
    simp [and_assoc]
  unfold validateFieldValue
  by_cases hhead : isBlank value.head? = true
  · simp [hhead]
  · by_cases hlast : isBlank value.getLast? = true
    · simp [hhead, hlast]
    · simp only [hhead, hlast, Bool.false_eq_true, if_false, ← hfind]
      cases value.find? fun b => b == 0x00 || b == 0x0d || b == 0x0a <;> simp

theorem validateField_eq_ok {name value : Bytes} :
    validateField name value = .ok () ↔ validateFieldName name = .ok () ∧
      validateFieldValue name value = .ok () ∧ validatePseudoHeader name value = .ok () := by
  simp only [validateField, bind_eq_ok_iff]
  constructor
  · rintro ⟨_, hname, _, hvalue, hpseudo⟩
    exact ⟨hname, hvalue, hpseudo⟩
  · rintro ⟨hname, hvalue, hpseudo⟩
    exact ⟨(), hname, (), hvalue, hpseudo⟩

theorem checkField_eq_ok {h : HeaderField} :
    checkField h = .ok () ↔ validateField h.name h.value = .ok () := by
  unfold checkField
  cases validateField h.name h.value with
  | ok u => exact ⟨fun _ => rfl, fun _ => rfl⟩
  | error e => constructor <;> intro herror <;> cases herror

theorem forbiddenCommon_eq_ok {name : Bytes} (h : validateForbiddenHeaderCommon name = .ok ()) :
    name ∉ connectionSpecific := by
  have heq : ∀ a : Bytes, eqIgnoreAsciiCase a a = true := fun a => by simp [eqIgnoreAsciiCase]
  intro hin
  simp only [connectionSpecific, List.mem_cons, List.not_mem_nil, or_false] at hin
  unfold validateForbiddenHeaderCommon at h
  obtain rfl | rfl | rfl | rfl | rfl := hin <;> simp [heq] at h

theorem clean_of_checked {h : HeaderField} (hcheck : validateField h.name h.value = .ok ())
    (hspecific : h.name ∉ connectionSpecific) : h.Clean where
  accepted := by
    simp only [HeaderField.new, HeaderField.newWithSensitive, hcheck]
    rfl
  octets := (validateFieldValue_eq_ok.1 (validateField_eq_ok.1 hcheck).2.1).2.2
  specific := hspecific

theorem specific_regular : ∀ name ∈ connectionSpecific, isPseudo name = false := by decide

/-! ## Scanning a section -/

/-- How a validator goes through a section: `past` holds once a regular field was seen, `has` tells
the pseudo-headers seen. -/
structure Scanner (σ : Type) where
  step : σ → HeaderField → Except Error σ
  past : σ → Bool
  has : σ → Bytes → Bool
  checked : ∀ {s h s'}, step s h = .ok s' → validateField h.name h.value = .ok ()
  pseudo : ∀ {s h s'}, step s h = .ok s' → isPseudo h.name = true →
    past s = false ∧ has s h.name = false ∧ has s' h.name = true ∧
      ∀ name, has s name = true → has s' name = true
  regular : ∀ {s h s'}, step s h = .ok s' → isPseudo h.name = false →
    past s' = true ∧ h.name ∉ connectionSpecific

namespace Scanner

variable {σ : Type} (scanner : Scanner σ)

theorem clean {headers : List HeaderField} {s s' : σ}
    (h : headers.foldlM scanner.step s = .ok s') : ∀ f ∈ headers, f.Clean := by
  induction headers generalizing s with
  | nil => simp
  | cons f headers ih =>
    obtain ⟨s₁, hstep, hrest⟩ := bind_eq_ok_iff.1 h
    intro g hg
    obtain rfl | hg := List.mem_cons.1 hg
    · refine clean_of_checked (scanner.checked hstep) fun hin => ?_
      exact (scanner.regular hstep (specific_regular _ hin)).2 hin
    · exact ih hrest g hg

/-- Once a regular field was seen, no pseudo-header is accepted. -/
theorem all_regular {headers : List HeaderField} {s s' : σ} (hpast : scanner.past s = true)
    (h : headers.foldlM scanner.step s = .ok s') : ∀ f ∈ headers, isPseudo f.name = false := by
  induction headers generalizing s with
  | nil => simp
  | cons f headers ih =>
    obtain ⟨s₁, hstep, hrest⟩ := bind_eq_ok_iff.1 h
    have hregular : isPseudo f.name = false := by
      refine Bool.eq_false_iff.2 fun hpseudo => ?_
      cases (scanner.pseudo hstep hpseudo).1.symm.trans hpast
    intro g hg
    obtain rfl | hg := List.mem_cons.1 hg
    · exact hregular
    · exact ih (scanner.regular hstep hregular).1 hrest g hg

theorem pseudoFirst {headers : List HeaderField} {s s' : σ}
    (h : headers.foldlM scanner.step s = .ok s') :
    ∃ pseudo regular, headers = pseudo ++ regular ∧ (∀ f ∈ pseudo, isPseudo f.name = true) ∧
      (∀ f ∈ regular, isPseudo f.name = false) ∧ (pseudo.map HeaderField.name).Nodup ∧
      ∀ f ∈ pseudo, scanner.has s f.name = false := by
  induction headers generalizing s with
  | nil => exact ⟨[], [], rfl, by simp, by simp, .nil, by simp⟩
  | cons f headers ih =>
    obtain ⟨s₁, hstep, hrest⟩ := bind_eq_ok_iff.1 h
    by_cases hpseudo : isPseudo f.name = true
    · obtain ⟨pseudo, regular, rfl, hall, hnone, hnodup, hnew⟩ := ih hrest
      obtain ⟨_, hfresh, hseen, hkeep⟩ := scanner.pseudo hstep hpseudo
      -- What was seen before is seen now, so a name that is new now was new before.
      have hbefore : ∀ g ∈ pseudo, scanner.has s g.name = false := by
        refine fun g hg => Bool.eq_false_iff.2 fun hhas => ?_
        cases (hnew g hg).symm.trans (hkeep g.name hhas)
      refine ⟨f :: pseudo, regular, rfl, ?_, hnone, ?_, ?_⟩
      · exact List.forall_mem_cons.2 ⟨hpseudo, hall⟩
      · refine List.nodup_cons.2 ⟨fun hin => ?_, hnodup⟩
        obtain ⟨g, hg, hname⟩ := List.mem_map.1 hin
        rw [← hname] at hseen
        cases (hnew g hg).symm.trans hseen
      · exact List.forall_mem_cons.2 ⟨hfresh, hbefore⟩
    · have hregular : isPseudo f.name = false := by simpa using hpseudo
      have hall := scanner.all_regular (scanner.regular hstep hregular).1 hrest
      exact ⟨[], f :: headers, rfl, by simp, List.forall_mem_cons.2 ⟨hregular, hall⟩, .nil, by simp⟩

theorem message {headers : List HeaderField} {s s' : σ}
    (h : headers.foldlM scanner.step s = .ok s') : MessageSection headers := by
  obtain ⟨pseudo, regular, heq, hall, hnone, hnodup, _⟩ := scanner.pseudoFirst h
  exact ⟨scanner.clean h, pseudo, regular, heq, hall, hnone, hnodup⟩

end Scanner

/-! ## Requests -/

def RequestScan.has (s : RequestScan) (name : Bytes) : Bool :=
  if name = ascii ":method" then s.method.isSome
  else if name = ascii ":scheme" then s.scheme.isSome
  else if name = ascii ":authority" then s.authority.isSome
  else if name = ascii ":path" then s.path.isSome
  else if name = ascii ":protocol" then s.protocol.isSome
  else false

/-- The slot of a pseudo-header was free and takes the value. -/
theorem recordOnce_map {slot : Option Bytes} {name : String} {value : Bytes} {s : RequestScan}
    {f : Option Bytes → RequestScan} (h : (recordOnce slot name value).map f = .ok s) :
    slot = none ∧ f (some value) = s := by
  unfold recordOnce at h
  cases slot with
  | none => simpa [Except.map] using h
  | some v => simp [Except.map] at h

theorem RequestScan.pseudo_records {s s' : RequestScan} {name value : Bytes}
    (h : s.pseudo name value = .ok s') : s.has name = false ∧ s'.has name = true ∧
      ∀ other, s.has other = true → s'.has other = true := by
  -- Each branch fills the slot of its own name.
  unfold RequestScan.pseudo at h
  split at h
  · obtain ⟨hnone, rfl⟩ := recordOnce_map h
    grind [RequestScan.has]
  split at h
  · obtain ⟨hnone, rfl⟩ := recordOnce_map h
    grind [RequestScan.has]
  split at h
  · obtain ⟨hnone, rfl⟩ := recordOnce_map h
    grind [RequestScan.has]
  split at h
  · obtain ⟨hnone, rfl⟩ := recordOnce_map h
    grind [RequestScan.has]
  split at h
  · obtain ⟨hnone, rfl⟩ := recordOnce_map h
    grind [RequestScan.has]
  · cases h

def requestScanner : Scanner RequestScan where
  step := RequestScan.field
  past := RequestScan.pastPseudo
  has := RequestScan.has
  checked := by
    intro s h s' hok
    obtain ⟨_, hcheck, _⟩ := bind_eq_ok_iff.1 hok
    exact checkField_eq_ok.1 hcheck
  pseudo := by
    intro s h s' hok hpseudo
    obtain ⟨_, _, hrest⟩ := bind_eq_ok_iff.1 hok
    rw [if_pos hpseudo] at hrest
    by_cases hpast : s.pastPseudo = true
    · simp [hpast] at hrest
      cases hrest
    · simp only [hpast, Bool.false_eq_true, if_false] at hrest
      exact ⟨by simpa using hpast, RequestScan.pseudo_records hrest⟩
  regular := by
    intro s h s' hok hregular
    obtain ⟨_, _, hrest⟩ := bind_eq_ok_iff.1 hok
    rw [if_neg (by simp [hregular])] at hrest
    obtain ⟨_, hforbidden, hs'⟩ := bind_eq_ok_iff.1 hrest
    obtain ⟨_, hcommon, _⟩ := bind_eq_ok_iff.1 hforbidden
    cases hs'
    exact ⟨rfl, forbiddenCommon_eq_ok hcommon⟩

theorem request_section {headers : List HeaderField} (h : validateRequestHeaders headers = .ok ()) :
    MessageSection headers := by
  obtain ⟨s, hscan, _⟩ := bind_eq_ok_iff.1 h
  exact requestScanner.message hscan

/-! ## Responses and trailers -/

def responseScanner : Scanner ResponseScan where
  step := ResponseScan.field
  past := ResponseScan.pastPseudo
  has := fun s name => s.seenStatus && name == ascii ":status"
  checked := by
    intro s h s' hok
    obtain ⟨_, hcheck, _⟩ := bind_eq_ok_iff.1 hok
    exact checkField_eq_ok.1 hcheck
  pseudo := by
    intro s h s' hok hpseudo
    obtain ⟨_, _, hrest⟩ := bind_eq_ok_iff.1 hok
    rw [if_pos hpseudo] at hrest
    by_cases hpast : s.pastPseudo = true
    · simp [hpast] at hrest
      cases hrest
    · simp only [hpast, Bool.false_eq_true, if_false] at hrest
      have hpast' : s.pastPseudo = false := by simpa using hpast
      by_cases hstatus : h.name = ascii ":status"
      · simp only [hstatus, if_true] at hrest
        by_cases hseen : s.seenStatus = true
        · simp [hseen] at hrest
          cases hrest
        · simp only [hseen, Bool.false_eq_true, if_false] at hrest
          by_cases h101 : h.value = ascii "101"
          · rw [if_pos h101] at hrest
            cases hrest
          · simp only [h101, if_false] at hrest
            cases hrest
            simp [hpast', hseen, hstatus]
      · simp [hstatus] at hrest
  regular := by
    intro s h s' hok hregular
    obtain ⟨_, _, hrest⟩ := bind_eq_ok_iff.1 hok
    rw [if_neg (by simp [hregular])] at hrest
    obtain ⟨_, hforbidden, hs'⟩ := bind_eq_ok_iff.1 hrest
    obtain ⟨_, hcommon, _⟩ := bind_eq_ok_iff.1 hforbidden
    cases hs'
    exact ⟨rfl, forbiddenCommon_eq_ok hcommon⟩

theorem response_section {headers : List HeaderField} (h : validateResponseHeaders headers = .ok ()) :
    MessageSection headers := by
  obtain ⟨s, hscan, _⟩ := bind_eq_ok_iff.1 h
  exact responseScanner.message hscan

/-- Only `:status` sets the flag that the validator asks for in the end. -/
theorem ResponseScan.field_status {s s' : ResponseScan} {h : HeaderField} (hok : s.field h = .ok s')
    (hseen : s'.seenStatus = true) : s.seenStatus = true ∨ h.name = ascii ":status" := by
  by_cases hstatus : h.name = ascii ":status"
  · exact .inr hstatus
  · obtain ⟨_, _, hrest⟩ := bind_eq_ok_iff.1 hok
    by_cases hpseudo : isPseudo h.name = true
    · rw [if_pos hpseudo] at hrest
      by_cases hpast : s.pastPseudo = true
      · simp [hpast] at hrest
        cases hrest
      · simp [hpast, hstatus] at hrest
    · rw [if_neg hpseudo] at hrest
      obtain ⟨_, _, hs'⟩ := bind_eq_ok_iff.1 hrest
      cases hs'
      exact .inl hseen

theorem response_status {headers : List HeaderField} (h : validateResponseHeaders headers = .ok ()) :
    ∃ f ∈ headers, f.name = ascii ":status" := by
  have hscan : ∀ {headers : List HeaderField} {s s' : ResponseScan},
      headers.foldlM ResponseScan.field s = .ok s' → s'.seenStatus = true →
        s.seenStatus = true ∨ ∃ f ∈ headers, f.name = ascii ":status" := by
    intro headers
    induction headers with
    | nil =>
      rintro s s' ⟨⟩ hseen
      exact .inl hseen
    | cons f headers ih =>
      intro s s' hfold hseen
      obtain ⟨s₁, hstep, hrest⟩ := bind_eq_ok_iff.1 hfold
      obtain hseen | ⟨g, hg, hname⟩ := ih hrest hseen
      · obtain hseen | hname := ResponseScan.field_status hstep hseen
        · exact .inl hseen
        · exact .inr ⟨f, List.mem_cons_self .., hname⟩
      · exact .inr ⟨g, List.mem_cons_of_mem _ hg, hname⟩
  obtain ⟨s, hfold, hend⟩ := bind_eq_ok_iff.1 h
  by_cases hseen : s.seenStatus = true
  · obtain hnot | hin := hscan hfold hseen
    · cases hnot
    · exact hin
  · simp [hseen] at hend

theorem trailers_section {headers : List HeaderField} (h : validateTrailers headers = .ok ()) :
    TrailerSection headers := by
  have hfield : ∀ f ∈ headers, f.Clean ∧ isPseudo f.name = false := by
    unfold validateTrailers at h
    induction headers with
    | nil => simp
    | cons f headers ih =>
      obtain ⟨_, hf, hrest⟩ := bind_eq_ok_iff.1 h
      refine List.forall_mem_cons.2 ⟨?_, ih hrest⟩
      obtain ⟨_, hcheck, hrest⟩ := bind_eq_ok_iff.1 hf
      by_cases hpseudo : isPseudo f.name = true
      · simp [hpseudo] at hrest
        cases hrest
      · simp only [hpseudo, Bool.false_eq_true, if_false] at hrest
        obtain ⟨_, hcommon, _⟩ := bind_eq_ok_iff.1 hrest
        have hspecific := forbiddenCommon_eq_ok hcommon
        exact ⟨clean_of_checked (checkField_eq_ok.1 hcheck) hspecific, by simpa using hpseudo⟩
  exact ⟨fun f hf => (hfield f hf).1, fun f hf => (hfield f hf).2⟩

end Http2
