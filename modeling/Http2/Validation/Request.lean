import Http2.Validation.Authority
import Http2.Validation.Section

/-! Which requests `validate_request_headers` accepts: the single pass with its slots against a
description that does not depend on the order in which the slots are filled. -/
namespace Http2

open Hpack Lib

/-! ## The description -/

/-- The pseudo-headers of a request. -/
def requestPseudoHeaders : List Bytes :=
  [ascii ":method", ascii ":scheme", ascii ":authority", ascii ":path", ascii ":protocol"]

/-- The value of the first field of that name. -/
def valueOf (headers : List HeaderField) (name : Bytes) : Option Bytes :=
  (headers.find? fun h => h.name == name).map HeaderField.value

/-- The values of the `host` fields. -/
def hosts (headers : List HeaderField) : List Bytes :=
  (headers.filter fun h => h.name == ascii "host").map HeaderField.value

/-- Two authorities are the same up to the case and the default port of the scheme. -/
def SameAuthority (scheme : Option Bytes) (a b : Bytes) : Prop :=
  eqIgnoreAsciiCase (stripDefaultPort a scheme) (stripDefaultPort b scheme) = true

/-- What a regular field of a request may be. -/
def AllowedInRequest (h : HeaderField) : Prop :=
  h.name ∉ connectionSpecific ∧
    (h.name = ascii "te" → eqIgnoreAsciiCase h.value (ascii "trailers") = true)

/-- The fields one by one, and the order and names of the pseudo-headers. -/
structure RequestFields (headers : List HeaderField) : Prop where
  valid : ∀ h ∈ headers, validateFieldName h.name = .ok () ∧
    validateFieldValue h.name h.value = .ok () ∧ validatePseudoHeader h.name h.value = .ok ()
  ordered : headers.Pairwise fun a b => isPseudo b.name = true → isPseudo a.name = true
  known : ∀ h ∈ headers, isPseudo h.name = true → h.name ∈ requestPseudoHeaders
  distinct : ((headers.filter fun h => isPseudo h.name).map HeaderField.name).Nodup
  allowed : ∀ h ∈ headers, isPseudo h.name = false → AllowedInRequest h

/-- The values of the pseudo-headers and of `host` together. -/
structure ControlData (method scheme authority path protocol host : Option Bytes) : Prop where
  hasMethod : method.isSome = true
  sameHost : ∀ a h, authority = some a → host = some h → SameAuthority scheme a h
  noUserinfo : ∀ a, authority = some a →
    isHttpScheme scheme = true ∨ method = some (ascii "CONNECT") → (0x40 : UInt8) ∉ a
  connect : method = some (ascii "CONNECT") → protocol = none →
    (∃ a port, authority = some a ∧ HostPort a (some port)) ∧ scheme = none ∧ path = none
  extendedConnect : method = some (ascii "CONNECT") → ∀ p, protocol = some p →
    scheme.isSome = true ∧ path.isSome = true ∧ (∃ a port, authority = some a ∧ HostPort a port) ∧
      (p = ascii "webtransport" → isScheme scheme "https" = true)
  other : method ≠ some (ascii "CONNECT") →
    protocol = none ∧ scheme.isSome = true ∧ path.isSome = true ∧
      (path = some (ascii "*") → method = some (ascii "OPTIONS")) ∧
      (isHttpScheme scheme = true →
        path ≠ some [] ∧ (authority.isSome = true ∨ host.isSome = true))

structure AcceptableRequest (headers : List HeaderField) : Prop where
  fields : RequestFields headers
  control : ControlData (valueOf headers (ascii ":method")) (valueOf headers (ascii ":scheme"))
    (valueOf headers (ascii ":authority")) (valueOf headers (ascii ":path"))
    (valueOf headers (ascii ":protocol")) (valueOf headers (ascii "host"))

/-! ## Names without capitals -/

theorem validateNameBytes_lower {name : Bytes} {first : Bool} {l : Bytes}
    (h : validateNameBytes name first l = .ok ()) : ∀ b ∈ l, isAsciiUppercase b = false := by
  induction l generalizing first with
  | nil => simp
  | cons b l ih =>
    rw [validateNameBytes] at h
    split at h
    · cases h
    · rename_i hupper
      refine List.forall_mem_cons.2 ⟨by simpa using hupper, ?_⟩
      split at h
      · split at h
        · exact ih h
        · cases h
      · split at h
        · exact ih h
        · cases h

theorem map_lower {name : Bytes} (h : validateFieldName name = .ok ()) :
    name.map toAsciiLowercase = name := by
  unfold validateFieldName at h
  split at h
  · cases h
  · have hlower := validateNameBytes_lower h
    calc name.map toAsciiLowercase = name.map id := by
          apply List.map_congr_left
          intro b hb
          simp [toAsciiLowercase, hlower b hb]
      _ = name := List.map_id name

/-- For names that pass, the comparisons are plain ones. -/
theorem eqIgnoreAsciiCase_iff {name : Bytes} (h : validateFieldName name = .ok ()) (lower : Bytes)
    (hlower : lower.map toAsciiLowercase = lower) :
    eqIgnoreAsciiCase name lower = true ↔ name = lower := by
  rw [eqIgnoreAsciiCase, map_lower h, hlower, beq_iff_eq]

theorem forbiddenForRequest_eq_ok {h : HeaderField} (hname : validateFieldName h.name = .ok ()) :
    validateForbiddenHeaderForRequest h.name h.value = .ok () ↔ AllowedInRequest h := by
  have hte := eqIgnoreAsciiCase_iff hname (ascii "te") (by decide)
  have hcommon : validateForbiddenHeaderCommon h.name = .ok () ↔ h.name ∉ connectionSpecific := by
    have h1 := eqIgnoreAsciiCase_iff hname (ascii "connection") (by decide)
    have h2 := eqIgnoreAsciiCase_iff hname (ascii "keep-alive") (by decide)
    have h3 := eqIgnoreAsciiCase_iff hname (ascii "proxy-connection") (by decide)
    have h4 := eqIgnoreAsciiCase_iff hname (ascii "transfer-encoding") (by decide)
    have h5 := eqIgnoreAsciiCase_iff hname (ascii "upgrade") (by decide)
    simp only [validateForbiddenHeaderCommon, Bool.or_eq_true, h1, h2, h3, h4, h5,
      connectionSpecific, List.mem_cons, List.not_mem_nil, or_false, or_assoc]
    split
    · rename_i hin
      simp [hin]
    · rename_i hout
      simp [hout]
  rw [validateForbiddenHeaderForRequest, bind_eq_ok_iff, AllowedInRequest, ← hcommon]
  constructor
  · rintro ⟨_, hc, hrest⟩
    refine ⟨hc, fun hn => ?_⟩
    rw [hte.2 hn] at hrest
    cases hv : eqIgnoreAsciiCase h.value (ascii "trailers") with
    | true => rfl
    | false => simp [hv] at hrest
  · rintro ⟨hc, htrailers⟩
    refine ⟨(), hc, ?_⟩
    by_cases hn : h.name = ascii "te"
    · simp [htrailers hn]
      rfl
    · have : eqIgnoreAsciiCase h.name (ascii "te") = false := by
        rw [Bool.eq_false_iff]
        exact fun h => hn (hte.1 h)
      simp [this]
      rfl

/-! ## The pass over the fields -/

namespace RequestScan

def slot (s : RequestScan) (name : Bytes) : Option Bytes :=
  if name = ascii ":method" then s.method
  else if name = ascii ":scheme" then s.scheme
  else if name = ascii ":authority" then s.authority
  else if name = ascii ":path" then s.path
  else if name = ascii ":protocol" then s.protocol
  else none

/-- A pseudo-header goes into its slot. -/
def record (s : RequestScan) (name value : Bytes) : RequestScan :=
  if name = ascii ":method" then { s with method := some value }
  else if name = ascii ":scheme" then { s with scheme := some value }
  else if name = ascii ":authority" then { s with authority := some value }
  else if name = ascii ":path" then { s with path := some value }
  else if name = ascii ":protocol" then { s with protocol := some value }
  else s

/-- What an accepted field does to the variables. -/
def note (s : RequestScan) (h : HeaderField) : RequestScan :=
  if isPseudo h.name then s.record h.name h.value
  else { s with pastPseudo := true, host := if h.name = ascii "host" then some h.value else s.host }

theorem slot_record {s : RequestScan} {name : Bytes} (h : name ∈ requestPseudoHeaders)
    (value other : Bytes) :
    (s.record name value).slot other = if other = name then some value else s.slot other := by
  simp only [requestPseudoHeaders, List.mem_cons, List.not_mem_nil, or_false] at h
  rcases h with rfl | rfl | rfl | rfl | rfl <;> grind [slot, record]

@[simp] theorem record_host (s : RequestScan) (name value : Bytes) :
    (s.record name value).host = s.host := by
  unfold record
  split_ifs <;> rfl

@[simp] theorem record_pastPseudo (s : RequestScan) (name value : Bytes) :
    (s.record name value).pastPseudo = s.pastPseudo := by
  unfold record
  split_ifs <;> rfl

theorem recordOnce_eq_ok {slot : Option Bytes} {name : String} {value : Bytes}
    {f : Option Bytes → RequestScan} {s : RequestScan} :
    (recordOnce slot name value).map f = .ok s ↔ slot = none ∧ s = f (some value) := by
  unfold recordOnce
  cases slot with
  | none =>
    show Except.ok (f (some value)) = .ok s ↔ _
    rw [Except.ok.injEq, eq_comm]
    simp
  | some v =>
    constructor
    · intro h
      cases h
    · rintro ⟨h, _⟩
      cases h

theorem pseudo_eq_ok {s s' : RequestScan} {name value : Bytes} :
    s.pseudo name value = .ok s' ↔
      name ∈ requestPseudoHeaders ∧ s.slot name = none ∧ s' = s.record name value := by
  unfold pseudo slot record
  by_cases h1 : name = ascii ":method"
  · simp only [if_pos h1, recordOnce_eq_ok]
    exact (and_iff_right (by rw [h1]; decide)).symm
  by_cases h2 : name = ascii ":scheme"
  · simp only [if_neg h1, if_pos h2, recordOnce_eq_ok]
    exact (and_iff_right (by rw [h2]; decide)).symm
  by_cases h3 : name = ascii ":authority"
  · simp only [if_neg h1, if_neg h2, if_pos h3, recordOnce_eq_ok]
    exact (and_iff_right (by rw [h3]; decide)).symm
  by_cases h4 : name = ascii ":path"
  · simp only [if_neg h1, if_neg h2, if_neg h3, if_pos h4, recordOnce_eq_ok]
    exact (and_iff_right (by rw [h4]; decide)).symm
  by_cases h5 : name = ascii ":protocol"
  · simp only [if_neg h1, if_neg h2, if_neg h3, if_neg h4, if_pos h5, recordOnce_eq_ok]
    exact (and_iff_right (by rw [h5]; decide)).symm
  · simp only [if_neg h1, if_neg h2, if_neg h3, if_neg h4, if_neg h5]
    constructor
    · intro h
      cases h
    · rintro ⟨hmem, _⟩
      simp [requestPseudoHeaders, h1, h2, h3, h4, h5] at hmem

theorem field_eq_ok {s s' : RequestScan} {h : HeaderField} :
    s.field h = .ok s' ↔ validateField h.name h.value = .ok () ∧
      (isPseudo h.name = true → s.pastPseudo = false ∧ h.name ∈ requestPseudoHeaders ∧
        s.slot h.name = none) ∧
      (isPseudo h.name = false → AllowedInRequest h) ∧ s' = s.note h := by
  rw [field, bind_eq_ok_iff]
  constructor
  · rintro ⟨_, hcheck, hrest⟩
    have hvalid := checkField_eq_ok.1 hcheck
    have hname := (validateField_eq_ok.1 hvalid).1
    refine ⟨hvalid, ?_⟩
    by_cases hp : isPseudo h.name = true
    · rw [if_pos hp] at hrest
      cases hpast : s.pastPseudo with
      | true =>
        simp [hpast] at hrest
        cases hrest
      | false =>
        simp only [hpast, Bool.false_eq_true, if_false] at hrest
        obtain ⟨hmem, hslot, rfl⟩ := pseudo_eq_ok.1 hrest
        refine ⟨fun _ => ⟨rfl, hmem, hslot⟩, fun hn => ?_, by rw [note, if_pos hp]⟩
        rw [hn] at hp
        cases hp
    · have hn : isPseudo h.name = false := by simpa using hp
      rw [if_neg hp] at hrest
      obtain ⟨_, hforbidden, hs'⟩ := bind_eq_ok_iff.1 hrest
      cases hs'
      refine ⟨fun h => absurd h hp, fun _ => (forbiddenForRequest_eq_ok hname).1 hforbidden, ?_⟩
      rw [note, if_neg hp]
      simp only [eqIgnoreAsciiCase_iff hname (ascii "host") (by decide)]
  · rintro ⟨hvalid, hpseudo, hregular, rfl⟩
    have hname := (validateField_eq_ok.1 hvalid).1
    refine ⟨(), checkField_eq_ok.2 hvalid, ?_⟩
    by_cases hp : isPseudo h.name = true
    · obtain ⟨hpast, hmem, hslot⟩ := hpseudo hp
      rw [if_pos hp, note, if_pos hp, hpast]
      exact pseudo_eq_ok.2 ⟨hmem, hslot, rfl⟩
    · have hn : isPseudo h.name = false := by simpa using hp
      rw [if_neg hp, note, if_neg hp]
      refine bind_eq_ok_iff.2 ⟨(), (forbiddenForRequest_eq_ok hname).2 (hregular hn), ?_⟩
      simp only [eqIgnoreAsciiCase_iff hname (ascii "host") (by decide)]
      rfl

/-- What a field asks of itself and of those behind it. -/
theorem requestFields_cons {f : HeaderField} {headers : List HeaderField} :
    RequestFields (f :: headers) ↔ validateField f.name f.value = .ok () ∧
      (isPseudo f.name = true → f.name ∈ requestPseudoHeaders ∧
        ∀ h ∈ headers, isPseudo h.name = true → h.name ≠ f.name) ∧
      (isPseudo f.name = false → AllowedInRequest f ∧ ∀ h ∈ headers, isPseudo h.name = false) ∧
      RequestFields headers := by
  have hnodup : ((f :: headers).filter fun h => isPseudo h.name).map HeaderField.name =
      if isPseudo f.name then f.name :: (headers.filter fun h => isPseudo h.name).map HeaderField.name
      else (headers.filter fun h => isPseudo h.name).map HeaderField.name := by
    rw [List.filter_cons]
    split <;> rfl
  have hfresh : f.name ∉ (headers.filter fun h => isPseudo h.name).map HeaderField.name ↔
      ∀ h ∈ headers, isPseudo h.name = true → h.name ≠ f.name := by
    simp only [List.mem_map, List.mem_filter, not_exists, not_and, and_imp]
  constructor
  · rintro ⟨hvalid, hordered, hknown, hdistinct, hallowed⟩
    obtain ⟨hf, hvalid⟩ := List.forall_mem_cons.1 hvalid
    obtain ⟨hbehind, hordered⟩ := List.pairwise_cons.1 hordered
    obtain ⟨hfknown, hknown⟩ := List.forall_mem_cons.1 hknown
    obtain ⟨hfallowed, hallowed⟩ := List.forall_mem_cons.1 hallowed
    rw [hnodup] at hdistinct
    refine ⟨validateField_eq_ok.2 hf, ?_, ?_, hvalid, hordered, hknown, ?_, hallowed⟩
    · intro hp
      rw [if_pos hp, List.nodup_cons, hfresh] at hdistinct
      exact ⟨hfknown hp, hdistinct.1⟩
    · intro hp
      refine ⟨hfallowed hp, fun h hh => ?_⟩
      rw [Bool.eq_false_iff]
      intro hph
      rw [hbehind h hh hph] at hp
      cases hp
    · split at hdistinct
      · exact (List.nodup_cons.1 hdistinct).2
      · exact hdistinct
  · rintro ⟨hf, hpseudo, hregular, hvalid, hordered, hknown, hdistinct, hallowed⟩
    refine ⟨List.forall_mem_cons.2 ⟨validateField_eq_ok.1 hf, hvalid⟩,
      List.pairwise_cons.2 ⟨?_, hordered⟩, List.forall_mem_cons.2 ⟨fun hp => (hpseudo hp).1, hknown⟩,
      ?_, List.forall_mem_cons.2 ⟨fun hp => (hregular hp).1, hallowed⟩⟩
    · intro h hh hph
      by_contra hp
      have hn : isPseudo f.name = false := by simpa using hp
      rw [(hregular hn).2 h hh] at hph
      cases hph
    · rw [hnodup]
      split
      · rename_i hp
        exact List.nodup_cons.2 ⟨hfresh.2 (hpseudo hp).2, hdistinct⟩
      · exact hdistinct

/-- The pass from any values of the variables. -/
theorem foldlM_field_eq_ok {headers : List HeaderField} {s s' : RequestScan} :
    headers.foldlM field s = .ok s' ↔ RequestFields headers ∧
      (∀ h ∈ headers, isPseudo h.name = true → s.pastPseudo = false ∧ s.slot h.name = none) ∧
      s' = headers.foldl note s := by
  induction headers generalizing s with
  | nil =>
    have hnil : RequestFields [] := ⟨by simp, .nil, by simp, by simp, by simp⟩
    constructor
    · intro h
      cases h
      exact ⟨hnil, by simp, rfl⟩
    · rintro ⟨_, _, rfl⟩
      rfl
  | cons f headers ih =>
    rw [List.foldlM_cons, bind_eq_ok_iff, requestFields_cons, List.foldl_cons]
    simp only [ih, field_eq_ok, List.forall_mem_cons]
    constructor
    · rintro ⟨_, ⟨hf, hpseudo, hregular, rfl⟩, hfields, hfree, rfl⟩
      refine ⟨⟨hf, ?_, ?_, hfields⟩, ⟨fun hp => ⟨(hpseudo hp).1, (hpseudo hp).2.2⟩, ?_⟩, rfl⟩
      · intro hp
        refine ⟨(hpseudo hp).2.1, fun h hh hph hname => ?_⟩
        have hslot := (hfree h hh hph).2
        rw [note, if_pos hp, slot_record (hpseudo hp).2.1, if_pos hname] at hslot
        cases hslot
      · intro hn
        refine ⟨hregular hn, fun h hh => ?_⟩
        rw [Bool.eq_false_iff]
        intro hph
        have hpast := (hfree h hh hph).1
        rw [note, if_neg (by simp [hn])] at hpast
        cases hpast
      · intro h hh hph
        have hfree := hfree h hh hph
        by_cases hp : isPseudo f.name = true
        · rw [note, if_pos hp, slot_record (hpseudo hp).2.1, record_pastPseudo] at hfree
          refine ⟨hfree.1, ?_⟩
          by_cases hname : h.name = f.name
          · rw [if_pos hname] at hfree
            cases hfree.2
          · rw [if_neg hname] at hfree
            exact hfree.2
        · rw [note, if_neg hp] at hfree
          cases hfree.1
    · rintro ⟨⟨hf, hpseudo, hregular, hfields⟩, ⟨hfirst, hfree⟩, rfl⟩
      refine ⟨s.note f, ⟨hf, ?_, fun hn => (hregular hn).1, rfl⟩, hfields, ?_, rfl⟩
      · intro hp
        exact ⟨(hfirst hp).1, (hpseudo hp).1, (hfirst hp).2⟩
      · intro h hh hph
        by_cases hp : isPseudo f.name = true
        · rw [note, if_pos hp, slot_record (hpseudo hp).1, record_pastPseudo,
            if_neg ((hpseudo hp).2 h hh hph)]
          exact hfree h hh hph
        · have hn : isPseudo f.name = false := by simpa using hp
          rw [(hregular hn).2 h hh] at hph
          cases hph

theorem isPseudo_of_mem : ∀ name ∈ requestPseudoHeaders, isPseudo name = true := by decide

theorem valueOf_eq_none {headers : List HeaderField} {name : Bytes}
    (h : ∀ f ∈ headers, f.name ≠ name) : valueOf headers name = none := by
  have hnone : (headers.find? fun f => f.name == name) = none := by
    rw [List.find?_eq_none]
    intro f hf
    simpa using h f hf
  rw [valueOf, hnone]
  rfl

/-- The slots hold what the list says. -/
theorem slot_foldl_note {headers : List HeaderField} (hfields : RequestFields headers)
    {name : Bytes} (hname : name ∈ requestPseudoHeaders) (s : RequestScan) :
    (headers.foldl note s).slot name = (valueOf headers name).or (s.slot name) := by
  induction headers generalizing s with
  | nil => rfl
  | cons f headers ih =>
    obtain ⟨_, hpseudo, hregular, hrest⟩ := requestFields_cons.1 hfields
    have hp := isPseudo_of_mem name hname
    rw [List.foldl_cons, ih hrest]
    by_cases hf : f.name = name
    · have hfp : isPseudo f.name = true := by rw [hf]; exact hp
      have hnone : valueOf headers name = none := by
        apply valueOf_eq_none
        intro g hg hgname
        exact (hpseudo hfp).2 g hg (by rw [hgname]; exact hp) (hgname.trans hf.symm)
      have hvalue : valueOf (f :: headers) name = some f.value := by simp [valueOf, hf]
      rw [hnone, hvalue, note, if_pos hfp, slot_record (hpseudo hfp).1, if_pos hf.symm]
      rfl
    · have hvalue : valueOf (f :: headers) name = valueOf headers name := by simp [valueOf, hf]
      have hslot : (s.note f).slot name = s.slot name := by
        unfold note
        split
        · rename_i hfp
          rw [slot_record (hpseudo hfp).1, if_neg (Ne.symm hf)]
        · rfl
      rw [hvalue, hslot]

theorem host_foldl_note (headers : List HeaderField) (s : RequestScan) :
    (headers.foldl note s).host = (hosts headers).getLast?.or s.host := by
  induction headers generalizing s with
  | nil => rfl
  | cons f headers ih =>
    have hhost : isPseudo (ascii "host") = false := by decide
    rw [List.foldl_cons, ih]
    by_cases hf : f.name = ascii "host"
    · have hn : ¬ isPseudo f.name = true := by simp [hf, hhost]
      have hcons : hosts (f :: headers) = f.value :: hosts headers := by simp [hosts, hf]
      rw [note, if_neg hn, if_pos hf, hcons, List.getLast?_cons]
      cases (hosts headers).getLast? <;> rfl
    · have hcons : hosts (f :: headers) = hosts headers := by simp [hosts, hf]
      rw [hcons, note]
      split
      · rw [record_host]
      · rfl

theorem foldl_note_slots {headers : List HeaderField} (hfields : RequestFields headers) :
    (headers.foldl note {}).method = valueOf headers (ascii ":method") ∧
    (headers.foldl note {}).scheme = valueOf headers (ascii ":scheme") ∧
    (headers.foldl note {}).authority = valueOf headers (ascii ":authority") ∧
    (headers.foldl note {}).path = valueOf headers (ascii ":path") ∧
    (headers.foldl note {}).protocol = valueOf headers (ascii ":protocol") := by
  have hslot : ∀ name ∈ requestPseudoHeaders,
      (headers.foldl note {}).slot name = valueOf headers name := by
    intro name hname
    have hfree : slot {} name = none := by
      unfold slot
      split_ifs <;> rfl
    rw [slot_foldl_note hfields hname, hfree, Option.or_none]
  generalize headers.foldl note {} = s at hslot
  refine ⟨?_, ?_, ?_, ?_, ?_⟩
  · rw [← hslot (ascii ":method") (by decide), slot, if_pos rfl]
  · rw [← hslot (ascii ":scheme") (by decide), slot, if_neg (by decide), if_pos rfl]
  · rw [← hslot (ascii ":authority") (by decide), slot, if_neg (by decide), if_neg (by decide),
      if_pos rfl]
  · rw [← hslot (ascii ":path") (by decide), slot, if_neg (by decide), if_neg (by decide),
      if_neg (by decide), if_pos rfl]
  · rw [← hslot (ascii ":protocol") (by decide), slot, if_neg (by decide), if_neg (by decide),
      if_neg (by decide), if_neg (by decide), if_pos rfl]

end RequestScan

/-! ## The checks after the pass -/

theorem RequestScan.hostAgrees_iff (s : RequestScan) :
    s.hostAgrees = true ↔
      ∀ a h, s.authority = some a → s.host = some h → SameAuthority s.scheme a h := by
  unfold RequestScan.hostAgrees
  cases s.authority with
  | none => simp
  | some a =>
    cases s.host with
    | none => simp
    | some h => simp [SameAuthority]

theorem RequestScan.checkConnect_eq_ok (s : RequestScan) :
    s.checkConnect = .ok () ↔
      (s.protocol = none → (∃ a port, s.authority = some a ∧ HostPort a (some port)) ∧
        s.scheme = none ∧ s.path = none) ∧
      ∀ p, s.protocol = some p → s.scheme.isSome = true ∧ s.path.isSome = true ∧
        (∃ a port, s.authority = some a ∧ HostPort a port) ∧
        (p = ascii "webtransport" → isScheme s.scheme "https" = true) := by
  have hplain : ∀ a, isValidConnectAuthority a = true ↔ ∃ port, HostPort a (some port) := by
    intro a
    rw [isValidConnectAuthority, isValidAuthority_iff]
    constructor
    · rintro ⟨port, h, hsome⟩
      obtain ⟨p, rfl⟩ := Option.isSome_iff_exists.1 (hsome rfl)
      exact ⟨p, h⟩
    · rintro ⟨port, h⟩
      exact ⟨some port, h, fun _ => rfl⟩
  have hextended : ∀ a, isValidExtendedConnectAuthority a = true ↔ ∃ port, HostPort a port := by
    intro a
    rw [isValidExtendedConnectAuthority, isValidAuthority_iff]
    simp
  unfold RequestScan.checkConnect
  cases s.protocol with
  | none =>
    cases s.path with
    | some path => simp
    | none =>
      cases s.scheme with
      | some scheme => simp
      | none =>
        cases s.authority with
        | none => simp
        | some a =>
          have hiff := hplain a
          cases hv : isValidConnectAuthority a <;> rw [hv] at hiff <;> simp [← hiff, hv]
  | some p =>
    cases s.scheme with
    | none => simp
    | some scheme =>
      cases s.path with
      | none => simp
      | some path =>
        cases s.authority with
        | none => simp
        | some a =>
          have hiff := hextended a
          cases hv : isValidExtendedConnectAuthority a <;> rw [hv] at hiff
          · simp [← hiff, hv]
          · by_cases hp : p = ascii "webtransport" <;>
              cases isScheme (some scheme) "https" <;> simp [← hiff, hv, hp]

theorem RequestScan.checkNonConnect_eq_ok (s : RequestScan) :
    s.checkNonConnect = .ok () ↔ s.protocol = none ∧ s.scheme.isSome = true ∧
      s.path.isSome = true ∧ (s.path = some (ascii "*") → s.method = some (ascii "OPTIONS")) ∧
      (isHttpScheme s.scheme = true →
        s.path ≠ some [] ∧ (s.authority.isSome = true ∨ s.host.isSome = true)) := by
  unfold RequestScan.checkNonConnect
  cases s.protocol with
  | some p => simp
  | none =>
    cases s.scheme with
    | none => simp
    | some scheme =>
      cases s.path with
      | none => simp
      | some path =>
        simp only [Option.isSome_some, Option.isSome_none, Option.isNone_some, Bool.false_eq_true,
          if_false]
        cases s.authority <;> cases s.host <;> split_ifs <;> simp_all

/-- An early return that is not taken. -/
theorem guard_eq_ok {c : Bool} {e : Error} {rest : Except Error Unit} :
    ((if c = true then do Except.error e; rest else rest) : Except Error Unit) = .ok () ↔
      c = false ∧ rest = .ok () := by
  cases c with
  | true => simp [bind, Except.bind]
  | false => simp

theorem RequestScan.check_eq_ok (s : RequestScan) :
    s.check = .ok () ↔ ControlData s.method s.scheme s.authority s.path s.protocol s.host := by
  have huserinfo : ((s.authority.getD []).contains 0x40 &&
      (isHttpScheme s.scheme || s.method == some (ascii "CONNECT"))) = false ↔
      ∀ a, s.authority = some a →
        isHttpScheme s.scheme = true ∨ s.method = some (ascii "CONNECT") →
        (0x40 : UInt8) ∉ a := by
    cases s.authority with
    | none => simp
    | some a => simp [imp_not_comm]
  have hmethod : s.method.isNone = false ↔ s.method.isSome = true := by
    cases s.method <;> simp
  unfold RequestScan.check
  simp only [guard_eq_ok, huserinfo, hmethod, Bool.not_eq_false', s.hostAgrees_iff, beq_iff_eq]
  by_cases hconnect : s.method = some (ascii "CONNECT")
  · rw [if_pos hconnect, s.checkConnect_eq_ok]
    constructor
    · rintro ⟨hhost, hsome, huser, hplain, hextended⟩
      exact ⟨hsome, hhost, huser, fun _ => hplain, fun _ => hextended, fun h => absurd hconnect h⟩
    · rintro ⟨hsome, hhost, huser, hplain, hextended, _⟩
      exact ⟨hhost, hsome, huser, hplain hconnect, hextended hconnect⟩
  · rw [if_neg hconnect, s.checkNonConnect_eq_ok]
    constructor
    · rintro ⟨hhost, hsome, huser, hother⟩
      exact ⟨hsome, hhost, huser, fun h => absurd h hconnect, fun h => absurd h hconnect,
        fun _ => hother⟩
    · rintro ⟨hsome, hhost, huser, _, _, hother⟩
      exact ⟨hhost, hsome, huser, hother hconnect⟩

/-! ## The validator -/

/-- The validator accepts the fields one by one and what they say together, read with the last
`host` field. -/
theorem validateRequestHeaders_eq_ok (headers : List HeaderField) :
    validateRequestHeaders headers = .ok () ↔ RequestFields headers ∧
      ControlData (valueOf headers (ascii ":method")) (valueOf headers (ascii ":scheme"))
        (valueOf headers (ascii ":authority")) (valueOf headers (ascii ":path"))
        (valueOf headers (ascii ":protocol")) (hosts headers).getLast? := by
  have hscan : ∀ s', headers.foldlM RequestScan.field {} = .ok s' ↔
      RequestFields headers ∧ s' = headers.foldl RequestScan.note {} := by
    intro s'
    rw [RequestScan.foldlM_field_eq_ok]
    constructor
    · rintro ⟨hfields, _, rfl⟩
      exact ⟨hfields, rfl⟩
    · rintro ⟨hfields, rfl⟩
      refine ⟨hfields, fun h hh hp => ⟨rfl, ?_⟩, rfl⟩
      unfold RequestScan.slot
      split_ifs <;> rfl
  have hhost : (headers.foldl RequestScan.note {}).host = (hosts headers).getLast? := by
    rw [RequestScan.host_foldl_note]
    exact Option.or_none
  have hcontrol : RequestFields headers →
      (RequestScan.check (headers.foldl RequestScan.note {}) = .ok () ↔
        ControlData (valueOf headers (ascii ":method")) (valueOf headers (ascii ":scheme"))
          (valueOf headers (ascii ":authority")) (valueOf headers (ascii ":path"))
          (valueOf headers (ascii ":protocol")) (hosts headers).getLast?) := by
    intro hfields
    obtain ⟨hm, hs, ha, hp, hr⟩ := RequestScan.foldl_note_slots hfields
    rw [RequestScan.check_eq_ok, hm, hs, ha, hp, hr, hhost]
  rw [validateRequestHeaders, bind_eq_ok_iff]
  simp only [hscan]
  constructor
  · rintro ⟨s, ⟨hfields, rfl⟩, hcheck⟩
    exact ⟨hfields, (hcontrol hfields).1 hcheck⟩
  · rintro ⟨hfields, hdata⟩
    exact ⟨_, ⟨hfields, rfl⟩, (hcontrol hfields).2 hdata⟩

/-- Among at most one `host` field the last is the first. -/
theorem getLast?_hosts {headers : List HeaderField} (h : (hosts headers).length ≤ 1) :
    (hosts headers).getLast? = valueOf headers (ascii "host") := by
  have hhead : valueOf headers (ascii "host") = (hosts headers).head? := by
    rw [valueOf, hosts, List.head?_map, List.head?_filter]
  rw [hhead]
  cases hl : hosts headers with
  | nil => rfl
  | cons v l =>
    rw [hl] at h
    have : l = [] := List.length_eq_zero_iff.1 (by simp only [List.length_cons] at h; omega)
    subst this
    rfl

/-- Exact request validation, for lists with at most one `host` field. -/
theorem validateRequestHeaders_iff {headers : List HeaderField}
    (h : (hosts headers).length ≤ 1) :
    validateRequestHeaders headers = .ok () ↔ AcceptableRequest headers := by
  rw [validateRequestHeaders_eq_ok, getLast?_hosts h]
  constructor
  · rintro ⟨hfields, hcontrol⟩
    exact ⟨hfields, hcontrol⟩
  · rintro ⟨hfields, hcontrol⟩
    exact ⟨hfields, hcontrol⟩

theorem validateRequestHeaders_iff_get :
    validateRequestHeaders [⟨ascii ":method", ascii "GET", false⟩,
        ⟨ascii ":path", ascii "/", false⟩, ⟨ascii ":scheme", ascii "https", false⟩,
        ⟨ascii "host", ascii "example.com", false⟩] = .ok () ↔
      AcceptableRequest [⟨ascii ":method", ascii "GET", false⟩,
        ⟨ascii ":path", ascii "/", false⟩, ⟨ascii ":scheme", ascii "https", false⟩,
        ⟨ascii "host", ascii "example.com", false⟩] :=
  validateRequestHeaders_iff (by decide)

/-! ## Repeated `host` fields -/

/-- Only the last `host` field is compared with `:authority`: all of them agree with it exactly
when they agree with one another. -/
theorem hosts_agree_iff {headers : List HeaderField} {authority : Bytes}
    (h : validateRequestHeaders headers = .ok ())
    (hauthority : valueOf headers (ascii ":authority") = some authority) :
    (∀ host ∈ hosts headers,
      SameAuthority (valueOf headers (ascii ":scheme")) authority host) ↔
      ∀ host ∈ hosts headers, ∀ other ∈ hosts headers,
        SameAuthority (valueOf headers (ascii ":scheme")) host other := by
  have hlast := ((validateRequestHeaders_eq_ok headers).1 h).2.sameHost authority
  constructor
  · intro hall host hhost other hother
    have h1 := hall host hhost
    have h2 := hall other hother
    unfold SameAuthority eqIgnoreAsciiCase at *
    rw [beq_iff_eq] at *
    rw [← h1, h2]
  · intro hall host hhost
    have hne : hosts headers ≠ [] := List.ne_nil_of_mem hhost
    have hmem := List.getLast_mem hne
    have h1 := hlast _ hauthority (List.getLast?_eq_some_getLast hne)
    have h2 := hall _ hmem host hhost
    unfold SameAuthority eqIgnoreAsciiCase at *
    rw [beq_iff_eq] at *
    rw [h1, h2]

/-- Two fields that say the same, in their own ways. -/
theorem hosts_agree_iff_two :
    (∀ host ∈ [ascii "example.com:443", ascii "EXAMPLE.com"],
      SameAuthority (some (ascii "https")) (ascii "example.com") host) ↔
      ∀ host ∈ [ascii "example.com:443", ascii "EXAMPLE.com"],
        ∀ other ∈ [ascii "example.com:443", ascii "EXAMPLE.com"],
          SameAuthority (some (ascii "https")) host other := by
  have hvalid : validateRequestHeaders [⟨ascii ":method", ascii "GET", false⟩,
      ⟨ascii ":path", ascii "/", false⟩, ⟨ascii ":scheme", ascii "https", false⟩,
      ⟨ascii ":authority", ascii "example.com", false⟩,
      ⟨ascii "host", ascii "example.com:443", false⟩,
      ⟨ascii "host", ascii "EXAMPLE.com", false⟩] = .ok () := by decide +kernel
  exact hosts_agree_iff hvalid (by decide +kernel)

/-- The first of two `host` fields goes unchecked. -/
theorem hosts_agree_any_false :
    ¬ ∀ (headers : List HeaderField) (authority : Bytes), validateRequestHeaders headers = .ok () →
      valueOf headers (ascii ":authority") = some authority →
      ∀ host ∈ hosts headers,
        SameAuthority (valueOf headers (ascii ":scheme")) authority host := by
  intro h
  have hsame := h [⟨ascii ":method", ascii "GET", false⟩, ⟨ascii ":path", ascii "/", false⟩,
    ⟨ascii ":scheme", ascii "https", false⟩, ⟨ascii ":authority", ascii "example.com", false⟩,
    ⟨ascii "host", ascii "internal.example", false⟩, ⟨ascii "host", ascii "example.com", false⟩]
    (ascii "example.com") (by decide +kernel) (by decide +kernel) (ascii "internal.example")
    (by decide +kernel)
  unfold SameAuthority at hsame
  revert hsame
  decide +kernel

end Http2
