import Http2.Connection.Trace
import Http2.Validation.Section

/-! The header sections that are delivered hold nothing that the application could not have built. -/
namespace Http2

open Hpack Lib Lib.Prog Connection

/-! ## Cookies -/

/-- The separator does not bring blanks to the ends. -/
theorem joinCookies_ends {values : List Bytes} (h : values ≠ []) (hne : ∀ v ∈ values, v ≠ []) :
    (joinCookies values).head? = (values.head h).head? ∧
      (joinCookies values).getLast? = (values.getLast h).getLast? := by
  induction values with
  | nil => exact absurd rfl h
  | cons v vs ih =>
    have hv : v ≠ [] := hne v (List.mem_cons_self ..)
    cases vs with
    | nil => exact ⟨rfl, rfl⟩
    | cons w ws =>
      have hrest : ∀ u ∈ w :: ws, u ≠ [] := fun u hu => hne u (List.mem_cons_of_mem _ hu)
      obtain ⟨hhead, hlast⟩ := ih (by simp) hrest
      have hjoin : joinCookies (w :: ws) ≠ [] := by
        intro hnil
        rw [hnil] at hhead
        have := hrest w (List.mem_cons_self ..)
        cases w <;> simp at hhead this
      constructor
      · cases v with
        | nil => exact absurd rfl hv
        | cons b v => rfl
      · have hcons : joinCookies (v :: w :: ws) = v ++ ascii "; " ++ joinCookies (w :: ws) := rfl
        rw [hcons, List.getLast?_append_of_ne_nil _ hjoin, hlast]
        simp

theorem mem_joinCookies {values : List Bytes} {b : UInt8} (h : b ∈ joinCookies values) :
    b ∈ ascii "; " ∨ ∃ v ∈ values, b ∈ v := by
  induction values with
  | nil => cases h
  | cons v vs ih =>
    cases vs with
    | nil => exact .inr ⟨v, by simp, h⟩
    | cons w ws =>
      simp only [joinCookies, List.mem_append] at h
      obtain (hin | hin) | hin := h
      · exact .inr ⟨v, by simp, hin⟩
      · exact .inl hin
      · obtain hsep | ⟨u, hu, hb⟩ := ih hin
        · exact .inl hsep
        · exact .inr ⟨u, List.mem_cons_of_mem _ hu, hb⟩

/-- The field that several cookies become. -/
theorem cookie_clean {values : List Bytes} {sensitive : Bool} (h : values ≠ [])
    (hne : ∀ v ∈ values, v ≠ [])
    (hvalid : ∀ v ∈ values, validateFieldValue (ascii "cookie") v = .ok ()) :
    (⟨ascii "cookie", joinCookies values, sensitive⟩ : HeaderField).Clean := by
  obtain ⟨hhead, hlast⟩ := joinCookies_ends h hne
  have hfirst := validateFieldValue_eq_ok.1 (hvalid _ (List.head_mem h))
  have hend := validateFieldValue_eq_ok.1 (hvalid _ (List.getLast_mem h))
  have hoctets : ∀ b ∈ joinCookies values, b ≠ 0x00 ∧ b ≠ 0x0d ∧ b ≠ 0x0a := by
    intro b hb
    obtain hsep | ⟨v, hv, hb⟩ := mem_joinCookies hb
    · exact (by decide +kernel : ∀ b ∈ ascii "; ", b ≠ 0x00 ∧ b ≠ 0x0d ∧ b ≠ 0x0a) b hsep
    · exact (validateFieldValue_eq_ok.1 (hvalid v hv)).2.2 b hb
  have hname : validateFieldName (ascii "cookie") = .ok () := by decide
  have hspecific : ascii "cookie" ∉ connectionSpecific := by decide
  refine clean_of_checked (validateField_eq_ok.2 ⟨hname, ?_, rfl⟩) hspecific
  exact validateFieldValue_eq_ok.2 ⟨hhead ▸ hfirst.1, hlast ▸ hend.2.1, hoctets⟩

theorem Hpack.HeaderField.Clean.value_ok {h : HeaderField} (hclean : h.Clean) :
    validateFieldValue h.name h.value = .ok () := by
  obtain ⟨_, hcheck, _⟩ := bind_eq_ok_iff.1 hclean.accepted
  exact (validateField_eq_ok.1 hcheck).2.1

/-- The value check does not depend on the name. -/
theorem validateFieldValue_name {name name' value : Bytes}
    (h : validateFieldValue name value = .ok ()) : validateFieldValue name' value = .ok () :=
  validateFieldValue_eq_ok.2 (validateFieldValue_eq_ok.1 h)

/-- What `concatenate_cookies` returns: the list, or its other fields and perhaps one cookie. -/
theorem concatenateCookies_cases (headers : List HeaderField) :
    let isCookie := fun h : HeaderField => eqIgnoreAsciiCase h.name (ascii "cookie")
    concatenateCookies headers = headers ∨
      concatenateCookies headers = headers.filter (!isCookie ·) ∨
      ∃ values sensitive, values ≠ [] ∧ (∀ v ∈ values, v ≠ [] ∧ ∃ h ∈ headers, h.value = v) ∧
        concatenateCookies headers =
          headers.filter (!isCookie ·) ++ [⟨ascii "cookie", joinCookies values, sensitive⟩] := by
  intro isCookie
  simp only [concatenateCookies]
  split
  · exact .inl rfl
  · split
    · exact .inr (.inl rfl)
    · rename_i hvalues
      refine .inr (.inr ⟨_, _, by simpa using hvalues, fun v hv => ?_, rfl⟩)
      obtain ⟨hmem, hne⟩ := List.mem_filter.1 hv
      obtain ⟨h, hh, rfl⟩ := List.mem_map.1 hmem
      exact ⟨by simpa using hne, h, List.mem_of_mem_filter hh, rfl⟩

theorem mem_concatenateCookies {headers : List HeaderField} {f : HeaderField}
    (h : f ∈ concatenateCookies headers) :
    f ∈ headers ∨ ∃ values sensitive, values ≠ [] ∧
      (∀ v ∈ values, v ≠ [] ∧ ∃ h ∈ headers, h.value = v) ∧
      f = ⟨ascii "cookie", joinCookies values, sensitive⟩ := by
  obtain heq | heq | ⟨values, sensitive, hne, hvalues, heq⟩ := concatenateCookies_cases headers
  · exact .inl (heq ▸ h)
  · rw [heq] at h
    exact .inl (List.mem_of_mem_filter h)
  · rw [heq] at h
    obtain h | h := List.mem_append.1 h
    · exact .inl (List.mem_of_mem_filter h)
    · exact .inr ⟨values, sensitive, hne, hvalues, List.mem_singleton.1 h⟩

theorem concatenateCookies_clean {headers : List HeaderField} (h : ∀ f ∈ headers, f.Clean) :
    ∀ f ∈ concatenateCookies headers, f.Clean := by
  intro f hf
  obtain hf | ⟨values, sensitive, hne, hvalues, rfl⟩ := mem_concatenateCookies hf
  · exact h f hf
  · refine cookie_clean hne (fun v hv => (hvalues v hv).1) fun v hv => ?_
    obtain ⟨_, g, hg, rfl⟩ := hvalues v hv
    exact validateFieldValue_name (h g hg).value_ok

theorem pseudo_not_cookie {name : Bytes} (h : isPseudo name = true) :
    eqIgnoreAsciiCase name (ascii "cookie") = false := by
  cases name with
  | nil => cases h
  | cons b name =>
    obtain rfl : b = 0x3a := by simpa [isPseudo] using h
    simp [eqIgnoreAsciiCase, toAsciiLowercase, isAsciiUppercase, ascii]

theorem concatenateCookies_pseudoFirst {headers : List HeaderField} (h : PseudoFirst headers) :
    PseudoFirst (concatenateCookies headers) := by
  obtain ⟨pseudo, regular, rfl, hall, hnone, hnodup⟩ := h
  have hkeep : pseudo.filter (fun f => !eqIgnoreAsciiCase f.name (ascii "cookie")) = pseudo :=
    List.filter_eq_self.2 fun f hf => by simp [pseudo_not_cookie (hall f hf)]
  obtain heq | heq | ⟨values, sensitive, _, _, heq⟩ := concatenateCookies_cases (pseudo ++ regular)
  · rw [heq]
    exact ⟨pseudo, regular, rfl, hall, hnone, hnodup⟩
  · rw [heq, List.filter_append, hkeep]
    refine ⟨pseudo, _, rfl, hall, fun f hf => ?_, hnodup⟩
    exact hnone f (List.mem_of_mem_filter hf)
  · rw [heq, List.filter_append, hkeep, List.append_assoc]
    refine ⟨pseudo, _, rfl, hall, fun f hf => ?_, hnodup⟩
    obtain hf | hf := List.mem_append.1 hf
    · exact hnone f (List.mem_of_mem_filter hf)
    · obtain rfl := List.mem_singleton.1 hf
      rfl

/-! ## Delivery -/

/-- What may be delivered. -/
def Event.Safe : Event → Prop
  | .headersReceived _ headers _ _ => MessageSection headers
  | .trailersReceived _ trailers => TrailerSection trailers
  | _ => True

theorem tells_safe {c : Core} {l : Label} {e : Event} (h : Tells c l e) : e.Safe := by
  cases e with
  | headersReceived sid headers endStream protocol =>
    obtain ⟨_, raw, rfl, hvalid⟩ := h
    have hsection : MessageSection raw := by
      cases hrole : c.role with
      | server =>
        rw [hrole] at hvalid
        exact request_section hvalid
      | client =>
        rw [hrole] at hvalid
        exact response_section hvalid
    exact ⟨concatenateCookies_clean hsection.clean, concatenateCookies_pseudoFirst hsection.ordered⟩
  | trailersReceived sid headers =>
    obtain ⟨_, raw, rfl, hvalid⟩ := h
    have hsection := trailers_section hvalid
    refine ⟨concatenateCookies_clean hsection.clean, fun f hf => ?_⟩
    obtain hf | ⟨_, _, _, _, rfl⟩ := mem_concatenateCookies hf
    · exact hsection.regular f hf
    · rfl
  | _ => trivial

theorem evolves_safe {T : Terms} {role : Role} {limits : Limits} {c : Core}
    (h : Evolves T (Core.new role limits) c) (e : Event) (he : .event e ∈ c.trace) : e.Safe := by
  induction h with
  | refl => cases he
  | tail _ hchange ih =>
    obtain ⟨l, _, hchange⟩ := hchange
    obtain htells | hcause | he := hchange.extends.mem he
    · exact tells_safe htells
    · cases l <;> simp [Label.cause] at hcause
    · exact ih he

/-- Whatever is received, every header section that reaches the application is one that it could have
built itself. -/
theorem delivered_safe {role : Role} {limits : Limits} {history : List Record} {c : Connection}
    (h : Run (Connection.new role limits) history c) (e : Event) (he : .event e ∈ c.trace) : e.Safe :=
  evolves_safe (run_evolves h.any) e he

/-- A request with two cookies. -/
theorem delivered_safe_cookies :
    Event.Safe (.headersReceived 1 (getRequest ++ [⟨ascii "cookie", ascii "x; y", false⟩]) true none) := by
  let block := getBlock ++ [0x0f, 0x11, 0x01, 0x78] ++ [0x0f, 0x11, 0x01, 0x79]
  have hrun := Run.execAll (c := Connection.new .server .default) .start
    [.feed (clientBytes [.headers ⟨1, true, true, none, block, none⟩]), .process .listed]
  exact delivered_safe hrun _ (by decide +kernel)

end Http2
