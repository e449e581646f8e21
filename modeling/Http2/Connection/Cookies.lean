import Http2.Connection.Injection

/-! The law of `concatenate_cookies` of `src/connection.rs`. -/
namespace Http2

open Hpack Lib Connection

def isCookie (h : HeaderField) : Bool := eqIgnoreAsciiCase h.name (ascii "cookie")

/-- The values that the merged cookie is made of: those of the cookies that are not empty. -/
def cookieValues (headers : List HeaderField) : List Bytes :=
  ((headers.filter isCookie).map HeaderField.value).filter (!·.isEmpty)

theorem joinCookies_eq (values : List Bytes) :
    joinCookies values = (ascii "; ").intercalate values := by
  induction values with
  | nil => rfl
  | cons v vs ih =>
    cases vs with
    | nil => simp [joinCookies, List.intercalate]
    | cons w ws =>
      rw [joinCookies, ih]
      · simp [List.intercalate]
      · intro h
        cases h

/-- The three ways in which `concatenate_cookies` returns. -/
theorem concatenateCookies_eq (headers : List HeaderField) :
    concatenateCookies headers =
      if (headers.filter isCookie).length ≤ 1 then headers
      else if cookieValues headers = [] then headers.filter (!isCookie ·)
      else headers.filter (!isCookie ·) ++ [⟨ascii "cookie", (ascii "; ").intercalate (cookieValues headers),
        (headers.filter isCookie).any HeaderField.sensitive⟩] := by
  rw [← joinCookies_eq]
  unfold concatenateCookies cookieValues
  simp only [List.isEmpty_iff]
  rfl

theorem isCookie_merged (value : Bytes) (sensitive : Bool) :
    isCookie ⟨ascii "cookie", value, sensitive⟩ = true := by
  simp [isCookie, eqIgnoreAsciiCase]

theorem filter_others (headers : List HeaderField) :
    (headers.filter (!isCookie ·)).filter isCookie = [] := by
  simp [List.filter_filter]

theorem concatenateCookies_others (headers : List HeaderField) :
    (concatenateCookies headers).filter (!isCookie ·) = headers.filter (!isCookie ·) := by
  rw [concatenateCookies_eq]
  split
  · rfl
  · split
    · simp
    · simp [List.filter_append, isCookie_merged]

theorem concatenateCookies_single (headers : List HeaderField) :
    ((concatenateCookies headers).filter isCookie).length ≤ 1 := by
  rw [concatenateCookies_eq]
  split
  · assumption
  · split
    · rw [filter_others]
      exact Nat.zero_le 1
    · rw [List.filter_append, filter_others, List.filter_cons, if_pos (isCookie_merged _ _)]
      exact Nat.le_refl 1

/-- Once a single cookie is left there is nothing to merge. -/
theorem concatenateCookies_idem (headers : List HeaderField) :
    concatenateCookies (concatenateCookies headers) = concatenateCookies headers := by
  rw [concatenateCookies_eq (concatenateCookies headers), if_pos (concatenateCookies_single headers)]

theorem concatenateCookies_valid {headers : List HeaderField}
    (h : ∀ f ∈ headers, validateField f.name f.value = .ok ()) :
    ∀ f ∈ concatenateCookies headers, validateField f.name f.value = .ok () := by
  intro f hf
  obtain hf | ⟨values, sensitive, hne, hvalues, rfl⟩ := mem_concatenateCookies hf
  · exact h f hf
  · have hclean := @cookie_clean values sensitive hne (fun v hv => (hvalues v hv).1)
    have hchecked : ∀ v ∈ values, validateFieldValue (ascii "cookie") v = .ok () := by
      intro v hv
      obtain ⟨_, g, hg, rfl⟩ := hvalues v hv
      exact validateFieldValue_name (validateField_eq_ok.1 (h g hg)).2.1
    obtain ⟨_, hcheck, _⟩ := bind_eq_ok_iff.1 (hclean hchecked).accepted
    exact hcheck

/-- The other fields stay as they are and in order, and at most one cookie is left. Where there
were several it is the last field, made of the values that are not empty, and there is none if all
of them were empty. What comes out is valid, and merging it again changes nothing. -/
theorem cookie_law (headers : List HeaderField)
    (hvalid : ∀ h ∈ headers, HeaderField.newWithSensitive h.name h.value h.sensitive = .ok h) :
    (concatenateCookies headers).filter (!isCookie ·) = headers.filter (!isCookie ·) ∧
    ((concatenateCookies headers).filter isCookie).length ≤ 1 ∧
    (2 ≤ (headers.filter isCookie).length →
      ((concatenateCookies headers).filter isCookie = [] ↔
        ∀ h ∈ headers, isCookie h = true → h.value = []) ∧
      ∀ c ∈ concatenateCookies headers, isCookie c = true →
        concatenateCookies headers = headers.filter (!isCookie ·) ++ [c] ∧
        c.name = ascii "cookie" ∧
        c.value = (ascii "; ").intercalate
          (((headers.filter isCookie).map HeaderField.value).filter (!·.isEmpty)) ∧
        (c.sensitive = true ↔ ∃ h ∈ headers, isCookie h = true ∧ h.sensitive = true)) ∧
    (∀ h ∈ concatenateCookies headers,
      HeaderField.newWithSensitive h.name h.value h.sensitive = .ok h) ∧
    concatenateCookies (concatenateCookies headers) = concatenateCookies headers := by
  have hchecked : ∀ h ∈ headers, validateField h.name h.value = .ok () := by
    intro h hh
    obtain ⟨_, hcheck, _⟩ := bind_eq_ok_iff.1 (hvalid h hh)
    exact hcheck
  refine ⟨concatenateCookies_others headers, concatenateCookies_single headers, ?_, ?_,
    concatenateCookies_idem headers⟩
  · intro hseveral
    have hnone : cookieValues headers = [] ↔ ∀ h ∈ headers, isCookie h = true → h.value = [] := by
      simp only [cookieValues, List.filter_eq_nil_iff, List.mem_map, List.mem_filter]
      constructor
      · intro hall h hh hcookie
        simpa using hall h.value ⟨h, ⟨hh, hcookie⟩, rfl⟩
      · rintro hall v ⟨h, ⟨hh, hcookie⟩, rfl⟩
        simpa using hall h hh hcookie
    rw [concatenateCookies_eq, if_neg (by omega), ← hnone]
    by_cases hempty : cookieValues headers = []
    · rw [if_pos hempty, filter_others]
      constructor
      · exact ⟨fun _ => hempty, fun _ => rfl⟩
      · intro c hc hcookie
        simp [hcookie] at hc
    · rw [if_neg hempty]
      constructor
      · rw [List.filter_append, filter_others, List.filter_cons, if_pos (isCookie_merged _ _)]
        simp [hempty]
      · intro c hc hcookie
        obtain hc | hc := List.mem_append.1 hc
        · simp [hcookie] at hc
        · obtain rfl := List.mem_singleton.1 hc
          refine ⟨rfl, rfl, rfl, ?_⟩
          simp
  · intro h hh
    rw [HeaderField.newWithSensitive, concatenateCookies_valid hchecked h hh]
    rfl

/-- Two cookies, one of them empty and one sensitive, around another field. -/
theorem cookie_law_two :
    (concatenateCookies [⟨ascii "cookie", [], true⟩, ⟨ascii "accept", ascii "*", false⟩,
      ⟨ascii "cookie", ascii "a=1", false⟩]).filter (!isCookie ·) =
      [⟨ascii "accept", ascii "*", false⟩] ∧
    ∀ h ∈ concatenateCookies [⟨ascii "cookie", [], true⟩, ⟨ascii "accept", ascii "*", false⟩,
      ⟨ascii "cookie", ascii "a=1", false⟩],
      HeaderField.newWithSensitive h.name h.value h.sensitive = .ok h := by
  have h := cookie_law [⟨ascii "cookie", [], true⟩, ⟨ascii "accept", ascii "*", false⟩,
    ⟨ascii "cookie", ascii "a=1", false⟩] (by
      intro h hh
      simp only [List.mem_cons, List.not_mem_nil, or_false] at hh
      obtain rfl | rfl | rfl := hh <;> rfl)
  exact ⟨h.1.trans (by decide), h.2.2.2.1⟩

end Http2
