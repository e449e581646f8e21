import Http2.Connection.Admission
import Http2.Connection.Injection
import Http2.Connection.Moves
import Http2.Lib.History

/-! A message that announces its length has it, by the time its end is delivered. -/
namespace Http2

open Hpack Lib Lib.Prog Connection

namespace Content

/-! ## What a history says about a message -/

def isOpened : Item → Bool
  | .opened _ => true
  | _ => false

/-- What happened to a stream since its record was created. -/
def life (items : List Item) : List Item := items.takeWhile (!isOpened ·)

def octets : Item → Nat
  | .event (.dataReceived _ data _) => data.length
  | _ => 0

/-- The octets that were delivered. -/
def received (items : List Item) : Nat := (items.map octets).sum

/-- The header section that is the message's: a request, or a response that is not interim. -/
def opening (role : Role) : Item → Option (List HeaderField)
  | .event (.headersReceived _ headers _ _) =>
    if role = .client ∧ isInformational headers = true then none else some headers
  | _ => none

def message (role : Role) (items : List Item) : Option (List HeaderField) := items.findSome? (opening role)

/-- The section announces `length` octets. -/
def Announces (headers : List HeaderField) (length : Nat) : Prop :=
  ∃ h ∈ headers, h.name = ascii "content-length" ∧ parseDecimal 64 h.value 0 = some length

def AskedHead (items : List Item) : Prop :=
  ∃ sid fields, .encoded sid fields ∈ items ∧ findValue fields ":method" = some (ascii "HEAD")

/-- The responses that announce a length and have no content. -/
def Exempt (role : Role) (items : List Item) : Prop :=
  role = .client ∧
    ((∃ headers, message role items = some headers ∧ noContentStatus headers = true) ∨ AskedHead items)

/-- The item delivers the end of a message. -/
def Ends : Item → Prop
  | .event (.headersReceived _ _ endStream _) | .event (.dataReceived _ _ endStream) => endStream = true
  | .event (.trailersReceived _ _) => True
  | _ => False

/-- If the item ends the message, all that was announced has been delivered. -/
def Complete (role : Role) (i : Item) (earlier : List Item) : Prop :=
  Ends i → ¬ Exempt role (life (i :: earlier)) → ∀ headers length,
    message role (life (i :: earlier)) = some headers → Announces headers length →
      received (life (i :: earlier)) = length

/-- The record allows a header block with this result to end its message. -/
def Ready (s : Stream) (raw : List HeaderField) : Prop :=
  (s.state.recvHeaders true).isOk = true →
    if s.initialHeadersReceived = true then
      validateTrailers raw = .ok () → contentLengthViolated s true = false
    else
      validateResponseHeaders raw = .ok () → isInformational (concatenateCookies raw) = false →
        extractContentLength raw none = .ok (some 0) → noContentStatus raw = false →
          isHead s = false → s.receivedContentLength = 0

def ReadyAfter (s : Stream) : Except Error (List HeaderField) → Prop
  | .ok raw => Ready s raw
  | .error _ => True

/-- Where a header block that is taken ends the message of a live stream, the record allows it. -/
def terms : Terms where
  frame c f :=
    match f with
    | .headers f => c.Takes (.headers f) → f.endHeaders = true → f.endStream = true →
        ∀ s ∈ c.stream? f.streamId, ReadyAfter s (c.hpackDecoder.decode f.headerBlockFragment).1
    | .continuation f => c.Takes (.continuation f) → f.endHeaders = true → c.headerEndStream = true →
        ∀ s ∈ c.stream? f.streamId,
          ReadyAfter s (c.hpackDecoder.decode (c.headerBlockFragment ++ f.headerBlockFragment)).1
    | _ => True
  refusal _ _ := True
  api _ _ := True

instance (s : Stream) (raw : List HeaderField) : Decidable (Ready s raw) := by
  unfold Ready
  exact inferInstance

instance (s : Stream) : (r : Except Error (List HeaderField)) → Decidable (ReadyAfter s r)
  | .ok raw => inferInstanceAs (Decidable (Ready s raw))
  | .error _ => inferInstanceAs (Decidable True)

instance (c : Core) : (f : Frame) → Decidable (terms.frame c f)
  | .headers f => inferInstanceAs (Decidable (c.Takes (.headers f) → f.endHeaders = true →
      f.endStream = true → ∀ s ∈ c.stream? f.streamId, ReadyAfter s _))
  | .continuation f => inferInstanceAs (Decidable (c.Takes (.continuation f) → f.endHeaders = true →
      c.headerEndStream = true → ∀ s ∈ c.stream? f.streamId, ReadyAfter s _))
  | .data _ | .priority _ _ | .rstStream _ _ | .settings _ | .pushPromise _ | .ping _ _ | .goaway _
  | .windowUpdate _ _ | .priorityUpdate _ _ | .unknown _ _ => inferInstanceAs (Decidable True)

instance (c : Core) (sid : Nat) : Decidable (terms.refusal c sid) := inferInstanceAs (Decidable True)

instance (c : Core) (k : Call) : Decidable (terms.api c k) := inferInstanceAs (Decidable True)

theorem Completes.ready {c : Core} {l : Label} {sid : Nat} {raw : List HeaderField} {s : Stream}
    (h : Completes c l sid raw true) (hl : terms.taken.Meets c l) (hlive : c.stream? sid = some s) :
    Ready s raw := by
  generalize hend : true = endStream at h
  cases h with
  | whole f _ _ hlast hdecode =>
    have hready := hl.2 hl.1 hlast hend.symm s hlive
    rwa [hdecode] at hready
  | last f _ hlast hdecode =>
    have hready := hl.2 hl.1 hlast hend.symm s hlive
    rwa [hdecode] at hready

/-! ## Header sections -/

/-- What is extracted is what any of the fields announces. -/
theorem extractContentLength_announced {headers : List HeaderField} {found result : Option Nat}
    (h : extractContentLength headers found = .ok result) :
    (∀ n, found = some n → result = some n) ∧ ∀ length, Announces headers length → result = some length := by
  induction headers generalizing found with
  | nil =>
    obtain rfl : found = result := by simpa [extractContentLength] using h
    exact ⟨fun _ h => h, fun _ ⟨_, hin, _⟩ => absurd hin (by simp)⟩
  | cons f headers ih =>
    simp only [extractContentLength] at h
    by_cases hname : f.name = ascii "content-length"
    · rw [if_pos hname] at h
      cases hvalue : if f.value.isEmpty then none else parseDecimal 64 f.value 0 with
      | none =>
        rw [hvalue] at h
        cases h
      | some len =>
        have hparse : parseDecimal 64 f.value 0 = some len := by
          by_cases hempty : f.value.isEmpty = true
          · simp [hempty] at hvalue
          · simpa [hempty] using hvalue
        rw [hvalue] at h
        have hrest : extractContentLength headers (some len) = .ok result ∧
            ∀ n, found = some n → n = len := by
          cases found with
          | none => exact ⟨h, by simp⟩
          | some existing =>
            by_cases hsame : existing = len
            · subst hsame
              simp only [if_true] at h
              exact ⟨h, by simp⟩
            · simp [hsame] at h
        obtain ⟨hfound, hannounced⟩ := ih hrest.1
        refine ⟨fun n hn => ?_, fun length => ?_⟩
        · rw [hrest.2 n hn]
          exact hfound len rfl
        · rintro ⟨g, hg, hgname, hgvalue⟩
          obtain rfl | hg := List.mem_cons.1 hg
          · rw [← hgvalue, hparse]
            exact hfound len rfl
          · exact hannounced length ⟨g, hg, hgname, hgvalue⟩
    · rw [if_neg hname] at h
      obtain ⟨hfound, hannounced⟩ := ih h
      refine ⟨hfound, fun length => ?_⟩
      rintro ⟨g, hg, hgname, hgvalue⟩
      obtain rfl | hg := List.mem_cons.1 hg
      · exact absurd hgname hname
      · exact hannounced length ⟨g, hg, hgname, hgvalue⟩

/-- Joining cookies makes up no length. -/
theorem announces_of_concatenated {headers : List HeaderField} {length : Nat}
    (h : Announces (concatenateCookies headers) length) : Announces headers length := by
  obtain ⟨f, hf, hname, hvalue⟩ := h
  obtain hf | ⟨_, _, _, _, rfl⟩ := mem_concatenateCookies hf
  · exact ⟨f, hf, hname, hvalue⟩
  · have hne : ascii "cookie" ≠ ascii "content-length" := by decide
    exact absurd hname hne

/-- Joining cookies keeps the status. -/
theorem findStatus_concatenated (headers : List HeaderField) :
    findValue (concatenateCookies headers) ":status" = findValue headers ":status" := by
  have hkeep : (headers.filter (fun h => !eqIgnoreAsciiCase h.name (ascii "cookie"))).find?
      (fun h => h.name == ascii ":status") = headers.find? (fun h => h.name == ascii ":status") := by
    rw [List.find?_filter]
    congr 1
    funext h
    by_cases hstatus : h.name = ascii ":status"
    · rw [hstatus]
      decide
    · simp [hstatus]
  unfold findValue
  obtain heq | heq | ⟨values, sensitive, _, _, heq⟩ := concatenateCookies_cases headers
  · rw [heq]
  · rw [heq, hkeep]
  · have hcookie : ([⟨ascii "cookie", joinCookies values, sensitive⟩] : List HeaderField).find?
        (fun h => h.name == ascii ":status") = none := by
      have hne : (ascii "cookie" == ascii ":status") = false := by decide
      simp [hne]
    rw [heq, List.find?_append, hcookie, Option.or_none, hkeep]

/-! ## The record keeps the count -/

/-- Neither the beginning of a message nor data of it. -/
def Neutral : Item → Prop
  | .event (.headersReceived _ _ _ _) | .event (.dataReceived _ _ _) | .opened _ => False
  | _ => True

/-- What the record knows of the message. -/
structure Tallies (role : Role) (s : Stream) (items : List Item) : Prop where
  count : received items = s.receivedContentLength
  early : s.initialHeadersReceived = false → message role items = none
  begun : s.initialHeadersReceived = true → ∃ headers, message role items = some headers ∧
    ∀ length, Announces headers length → s.expectedContentLength = some length
  exempt : s.noContent = true → Exempt role items
  head : role = .client → isHead s = true → AskedHead items

/-- The receiving half of a record did not change, its window apart. -/
structure SameMessage (s s' : Stream) : Prop where
  count : s'.receivedContentLength = s.receivedContentLength
  expected : s'.expectedContentLength = s.expectedContentLength
  initial : s'.initialHeadersReceived = s.initialHeadersReceived
  noContent : s'.noContent = s.noContent
  method : s'.requestMethod = s.requestMethod

section

variable {role : Role} {new items : List Item} {s s' : Stream}

theorem life_cons {i : Item} (h : isOpened i = false) : life (i :: items) = i :: life items := by
  simp [life, h]

theorem life_unopened (h : ∀ i ∈ new, isOpened i = false) : life (new ++ items) = new ++ life items := by
  apply List.takeWhile_append_of_pos
  intro i hi
  rw [h i hi]
  rfl

theorem life_append (h : ∀ i ∈ new, Neutral i) : life (new ++ items) = new ++ life items := by
  apply life_unopened
  intro i hi
  cases i with
  | opened sid => exact absurd (h _ hi) id
  | _ => rfl

theorem received_cons (i : Item) (items : List Item) : received (i :: items) = octets i + received items := by
  simp [received]

theorem received_neutral (h : ∀ i ∈ new, Neutral i) : received (new ++ items) = received items := by
  induction new with
  | nil => rfl
  | cons i new ih =>
    obtain ⟨hi, hnew⟩ := List.forall_mem_cons.1 h
    have hzero : octets i = 0 := by
      unfold octets
      split
      · exact absurd hi id
      · rfl
    rw [List.cons_append, received_cons, hzero, ih hnew, Nat.zero_add]

theorem message_neutral (h : ∀ i ∈ new, Neutral i) : message role (new ++ items) = message role items := by
  have hnone : new.findSome? (opening role) = none := by
    apply List.findSome?_eq_none_iff.2
    intro i hi
    have hneutral := h i hi
    unfold opening
    split
    · exact absurd hneutral id
    · rfl
  rw [message, List.findSome?_append, hnone, Option.none_or]
  rfl

theorem AskedHead.later (h : AskedHead items) : AskedHead (new ++ items) := by
  obtain ⟨sid, fields, hin, hmethod⟩ := h
  exact ⟨sid, fields, List.mem_append_right _ hin, hmethod⟩

/-- The history goes on without the message. -/
theorem Tallies.neutral (h : Tallies role s items) (hnew : ∀ i ∈ new, Neutral i)
    (hsame : SameMessage s s') : Tallies role s' (new ++ items) where
  count := by rw [received_neutral hnew, h.count, hsame.count]
  early := by
    rw [hsame.initial, message_neutral hnew]
    exact h.early
  begun := by
    rw [hsame.initial, message_neutral hnew, hsame.expected]
    exact h.begun
  exempt := by
    intro hno
    rw [hsame.noContent] at hno
    obtain ⟨hrole, hstatus | hhead⟩ := h.exempt hno
    · refine ⟨hrole, .inl ?_⟩
      rw [message_neutral hnew]
      exact hstatus
    · exact ⟨hrole, .inr hhead.later⟩
  head := by
    intro hrole hhead
    rw [isHead, hsame.method] at hhead
    exact (h.head hrole hhead).later

/-- Data that was delivered is counted. -/
theorem Tallies.data (h : Tallies role s items) (sid : Nat) (data : Bytes) (endStream : Bool)
    (hs : s' = { s with
      state := s'.state
      flowControl := s'.flowControl
      receivedContentLength := s.receivedContentLength + data.length }) :
    Tallies role s' (.event (.dataReceived sid data endStream) :: items) where
  count := by
    rw [received_cons, h.count, hs]
    exact Nat.add_comm ..
  early := by
    rw [hs]
    exact h.early
  begun := by
    rw [hs]
    exact h.begun
  exempt := by
    intro hno
    rw [hs] at hno
    obtain ⟨hrole, hstatus | ⟨asked, fields, hin, hmethod⟩⟩ := h.exempt hno
    · exact ⟨hrole, .inl hstatus⟩
    · exact ⟨hrole, .inr ⟨asked, fields, List.mem_cons_of_mem _ hin, hmethod⟩⟩
  head := by
    intro hrole hhead
    rw [hs] at hhead
    obtain ⟨asked, fields, hin, hmethod⟩ := h.head hrole hhead
    exact ⟨asked, fields, List.mem_cons_of_mem _ hin, hmethod⟩

theorem informational_concatenated (headers : List HeaderField) :
    isInformational (concatenateCookies headers) = isInformational headers := by
  unfold isInformational statusClass
  rw [findStatus_concatenated]

theorem noContentStatus_concatenated (headers : List HeaderField) :
    noContentStatus (concatenateCookies headers) = noContentStatus headers := by
  unfold noContentStatus
  rw [findStatus_concatenated]

/-- 204 and 304 are final. -/
theorem noContent_final {headers : List HeaderField} (h : noContentStatus headers = true) :
    isInformational headers = false := by
  unfold isInformational statusClass
  obtain hstatus | hstatus : findValue headers ":status" = some (ascii "204") ∨
      findValue headers ":status" = some (ascii "304") := by simpa [noContentStatus] using h
  · rw [hstatus]
    decide
  · rw [hstatus]
    decide

/-- What a received section changes of what is known about content. -/
theorem noted_content (c : Core) (sid : Nat) (s : Stream) (raw : List HeaderField) :
    ((c.noted sid s raw).noContent = true → s.noContent = true ∨
      c.role = .client ∧ (noContentStatus raw = true ∨ isHead s = true)) ∧
    (c.role = .client → (c.noted sid s raw).requestMethod = s.requestMethod) := by
  unfold Core.noted
  cases hrole : c.role with
  | server =>
    have hkeep : (noteRequest s raw).noContent = s.noContent := by
      unfold noteRequest
      split <;> rfl
    exact ⟨fun hno => .inl (hkeep.symm.trans hno), by simp⟩
  | client =>
    simp only
    split
    · refine ⟨fun hno => ?_, fun _ => rfl⟩
      simp only [noteResponse, Bool.or_eq_true] at hno
      obtain (hno | hstatus) | hhead := hno
      · exact .inl hno
      · exact .inr ⟨trivial, .inl hstatus⟩
      · exact .inr ⟨trivial, .inr hhead⟩
    · exact ⟨.inl, fun _ => rfl⟩

theorem tallies_new (role : Role) (c : Core) (sid : Nat) : Tallies role (c.newStream sid) [] where
  count := rfl
  early _ := rfl
  begun := by
    intro h
    cases h
  exempt := by
    intro h
    cases h
  head := by
    intro _ h
    cases h

theorem message_section {sid : Nat} {headers : List HeaderField} {endStream : Bool}
    {protocol : Option Bytes} (h : ¬ (role = .client ∧ isInformational headers = true)) :
    message role (.event (.headersReceived sid headers endStream protocol) :: items) = some headers := by
  simp [message, opening, h]

/-- A header section that begins the message, or an interim response. -/
theorem Tallies.headers {c : Core} {sid : Nat} {raw : List HeaderField} (h : Tallies c.role s items)
    (hinitial : s.initialHeadersReceived = false)
    (hlength : extractContentLength raw none = .ok s'.expectedContentLength)
    (hs : s' = { c.noted sid s raw with
      state := s'.state
      expectedContentLength := s'.expectedContentLength
      initialHeadersReceived := !(c.role == .client && isInformational (concatenateCookies raw)) })
    (endStream : Bool) (protocol : Option Bytes) :
    Tallies c.role s'
        (.event (.headersReceived sid (concatenateCookies raw) endStream protocol) :: items) := by
  obtain ⟨_, _, _, hcount, _⟩ := noted_keeps c sid s raw
  obtain ⟨hcontent, hmethod⟩ := noted_content c sid s raw
  have hearly := h.early hinitial
  let told : Item := .event (.headersReceived sid (concatenateCookies raw) endStream protocol)
  have hasked : AskedHead items → AskedHead (told :: items) := @AskedHead.later [told] items
  refine ⟨?_, fun hnot => ?_, fun hdone => ?_, fun hno => ?_, fun hrole hhead => ?_⟩
  · rw [received_cons, h.count, hs]
    exact (Nat.zero_add _).trans hcount.symm
  · have hinterim : c.role = .client ∧ isInformational (concatenateCookies raw) = true := by
      rw [hs] at hnot
      simpa using hnot
    have hskip : opening c.role told = none := if_pos hinterim
    rw [message, List.findSome?_cons, hskip]
    exact hearly
  · refine ⟨_, message_section fun hinterim => ?_, fun length hannounces => ?_⟩
    · rw [hs] at hdone
      simp [hinterim.1, hinterim.2] at hdone
    · exact (extractContentLength_announced hlength).2 length (announces_of_concatenated hannounces)
  · rw [hs] at hno
    obtain hno | ⟨hrole, hstatus | hhead⟩ := hcontent hno
    · obtain ⟨hrole, ⟨headers, hmessage, _⟩ | hhead⟩ := h.exempt hno
      · cases hearly.symm.trans hmessage
      · exact ⟨hrole, .inr (hasked hhead)⟩
    · refine ⟨hrole, .inl ⟨_, message_section fun hinterim => ?_, ?_⟩⟩
      · rw [informational_concatenated, noContent_final hstatus] at hinterim
        cases hinterim.2
      · rw [noContentStatus_concatenated, hstatus]
    · exact ⟨hrole, .inr (hasked (h.head hrole hhead))⟩
  · rw [hs] at hhead
    simp only [isHead, hmethod hrole] at hhead
    exact hasked (h.head hrole hhead)

end

/-! ## Every end is complete -/

/-- The record tells what its life was, and every message was complete. -/
structure Counted (role : Role) (record : Option Stream) (items : List Item) : Prop where
  live : ∀ s, record = some s → Tallies role s (life items)
  served : role = .server → ∀ s, record = some s → s.initialHeadersReceived = true
  ends : Always (Complete role) items

section

variable {role : Role} {new items : List Item} {s s' : Stream}

theorem always_silent (h : Always (Complete role) items) (hnew : ∀ i ∈ new, ¬ Ends i) :
    Always (Complete role) (new ++ items) :=
  h.append fun i hi _ hends => absurd hends (hnew i hi)

theorem farewell_neutral (s : Stream) (sid : Nat) : ∀ i ∈ s.farewell sid, Neutral i ∧ ¬ Ends i := by
  unfold Stream.farewell
  split <;> simp [Neutral, Ends]

theorem kept_eq {s s' : Stream} (h : s.kept = some s') : s' = s := by
  unfold Stream.kept at h
  split at h
  · cases h
  · exact (Option.some.inj h).symm

/-- The stream goes on without its message. -/
theorem Counted.neutral {record record' : Option Stream} (h : Counted role record items)
    (hnew : ∀ i ∈ new, Neutral i ∧ ¬ Ends i)
    (hrecord : ∀ s', record' = some s' → ∃ s, record = some s ∧ SameMessage s s') :
    Counted role record' (new ++ items) where
  live := by
    intro s' hs'
    obtain ⟨s, hs, hsame⟩ := hrecord s' hs'
    have hneutral : ∀ i ∈ new, Neutral i := fun i hi => (hnew i hi).1
    rw [life_append hneutral]
    exact (h.live s hs).neutral hneutral hsame
  served := by
    intro hrole s' hs'
    obtain ⟨s, hs, hsame⟩ := hrecord s' hs'
    rw [hsame.initial]
    exact h.served hrole s hs
  ends := always_silent h.ends fun i hi => (hnew i hi).2

/-- The stream goes. -/
theorem Counted.gone {record : Option Stream} (h : Counted role record items)
    (hnew : ∀ i ∈ new, ¬ Ends i) : Counted role none (new ++ items) where
  live := by
    intro s' hs'
    cases hs'
  served := by
    intro _ s' hs'
    cases hs'
  ends := always_silent h.ends hnew

/-- An item that is told, and the stream may go. -/
theorem Counted.told {i : Item} (h : Always (Complete role) items) (hi : isOpened i = false)
    (hcomplete : Complete role i items) (htallies : Tallies role s (i :: life items))
    (hserved : role = .server → s.initialHeadersReceived = true) (sid : Nat) :
    Counted role s.kept (s.farewell sid ++ i :: items) where
  live := by
    intro s' hs'
    have hneutral : ∀ i ∈ s.farewell sid, Neutral i := fun i hi => (farewell_neutral s sid i hi).1
    rw [kept_eq hs', life_append hneutral, life_cons hi]
    exact htallies.neutral hneutral ⟨rfl, rfl, rfl, rfl, rfl⟩
  served := by
    intro hrole s' hs'
    rw [kept_eq hs']
    exact hserved hrole
  ends := always_silent (always_cons.2 ⟨hcomplete, h⟩) fun i hi => (farewell_neutral s sid i hi).2

theorem violated_of {expected : Nat} {endStream : Bool} (h : contentLengthViolated s endStream = false)
    (hend : endStream = true) (hexpected : s.expectedContentLength = some expected) :
    s.noContent = true ∨ s.receivedContentLength = expected := by
  subst hend
  unfold contentLengthViolated at h
  rw [hexpected] at h
  cases hno : s.noContent with
  | true => exact .inl rfl
  | false =>
    right
    obtain ⟨_, hcount⟩ : s.receivedContentLength ≤ expected ∧ s.receivedContentLength = expected := by
      simpa [hno] using h
    exact hcount

/-- Where the record finds nothing wrong, the message is complete. -/
theorem Tallies.complete {i : Item} (h : Tallies role s (i :: life items)) (hi : isOpened i = false)
    (hlength : Ends i → contentLengthViolated s true = false) : Complete role i items := by
  intro hends hexempt headers length hmessage hannounces
  rw [life_cons hi] at hexempt hmessage ⊢
  cases hinitial : s.initialHeadersReceived with
  | false =>
    cases (h.early hinitial).symm.trans hmessage
  | true =>
    obtain ⟨headers', hmessage', hexpected⟩ := h.begun hinitial
    obtain rfl : headers' = headers := Option.some.inj (hmessage'.symm.trans hmessage)
    obtain hno | hcount := violated_of (hlength hends) rfl (hexpected length hannounces)
    · exact absurd (h.exempt hno) hexempt
    · rw [h.count, hcount]

/-- A section that ends its message announces nothing, or was not announced to have content. -/
theorem headers_complete {c : Core} {sid : Nat} {raw : List HeaderField} {endStream : Bool}
    {protocol : Option Bytes} (h : Tallies c.role s (life items))
    (hready : endStream = true → extractContentLength raw none = .ok (some 0) →
      (c.role = .client → noContentStatus raw = false ∧ isHead s = false) → s.receivedContentLength = 0)
    (hinitial : s.initialHeadersReceived = false)
    (hlength : extractContentLength raw none = .ok s'.expectedContentLength)
    (hmatch : lengthMismatch c.role s' (concatenateCookies raw) endStream
      s'.expectedContentLength = false)
    (hend : endStream = true → s'.initialHeadersReceived = true)
    (hs : s' = { c.noted sid s raw with
      state := s'.state
      expectedContentLength := s'.expectedContentLength
      initialHeadersReceived := !(c.role == .client && isInformational (concatenateCookies raw)) }) :
    Complete c.role (.event (.headersReceived sid (concatenateCookies raw) endStream protocol)) items := by
  intro hends hexempt headers length hmessage hannounces
  have hends' : endStream = true := hends
  have htallies := h.headers hinitial hlength hs endStream protocol
  rw [life_cons rfl] at hexempt hmessage ⊢
  obtain ⟨headers', hmessage', hexpected⟩ := htallies.begun (hend hends')
  obtain rfl : headers' = headers := Option.some.inj (hmessage'.symm.trans hmessage)
  have hfinal : ¬ (c.role = .client ∧ isInformational (concatenateCookies raw) = true) := by
    intro hinterim
    have hdone := hend hends'
    rw [hs] at hdone
    simp [hinterim.1, hinterim.2] at hdone
  have hsection : message c.role (.event (.headersReceived sid (concatenateCookies raw) endStream
      protocol) :: life items) = some (concatenateCookies raw) := message_section hfinal
  have hexempt' : ∀ flag : Bool, (c.role = .client → flag = true → Exempt c.role
      (.event (.headersReceived sid (concatenateCookies raw) endStream protocol) :: life items)) →
      c.role = .client → flag = false := by
    intro flag hflag hrole
    by_contra htrue
    exact hexempt (hflag hrole (by simpa using htrue))
  have hstatus := hexempt' (noContentStatus (concatenateCookies raw)) fun hrole hstatus =>
    ⟨hrole, .inl ⟨_, hsection, hstatus⟩⟩
  have hhead := hexempt' (isHead s') fun hrole hhead => ⟨hrole, .inr (htallies.head hrole hhead)⟩
  rw [hexpected length hannounces] at hmatch hlength
  have hzero : length = 0 := by
    by_contra hpos
    cases hrole : c.role with
    | server => simp [lengthMismatch, hends', hpos, hrole] at hmatch
    | client => simp [lengthMismatch, hends', hpos, hrole, hstatus hrole, hhead hrole] at hmatch
  obtain ⟨_, _, _, hcount, _⟩ := noted_keeps c sid s raw
  obtain ⟨_, hmethod⟩ := noted_content c sid s raw
  rw [htallies.count, hs]
  refine hcount.trans ((hready hends' (hzero ▸ hlength) fun hrole => ⟨?_, ?_⟩).trans hzero.symm)
  · rw [← noContentStatus_concatenated]
    exact hstatus hrole
  · have hsame : isHead s' = isHead s := by
      rw [hs]
      simp only [isHead, hmethod hrole]
    exact hsame ▸ hhead hrole

theorem passing_neutral {i : Item} (h : i.Passing) : Neutral i ∧ ¬ Ends i := by
  unfold Item.Passing at h
  split at h <;> first | exact ⟨trivial, id⟩ | cases h

theorem burst_neutral {sid : Nat} {headers : List HeaderField} {endStream : Bool}
    (h : Burst sid headers endStream new) : ∀ i ∈ new, Neutral i ∧ ¬ Ends i := by
  obtain ⟨f, fs, _, _, _, rfl⟩ := h
  intro i hi
  simp only [List.mem_append, List.mem_reverse, List.mem_map, List.mem_cons, List.not_mem_nil,
    or_false] at hi
  obtain ⟨g, _, rfl⟩ | rfl | rfl := hi
  · exact ⟨trivial, id⟩
  · exact ⟨trivial, id⟩
  · exact ⟨trivial, id⟩

/-- A record that stays, on a way that the message has no part in. -/
theorem Counted.same (h : Counted role (some s) items) (hnew : ∀ i ∈ new, Neutral i ∧ ¬ Ends i)
    (hsame : SameMessage s s') : Counted role (some s') (new ++ items) :=
  h.neutral hnew fun _ ht => ⟨s, rfl, Option.some.inj ht ▸ hsame⟩

/-- The same for one that may go. -/
theorem Counted.sameKept {sid : Nat} (h : Counted role (some s) items)
    (hnew : ∀ i ∈ new, Neutral i ∧ ¬ Ends i) (hsame : SameMessage s s') :
    Counted role s'.kept (s'.farewell sid ++ new ++ items) := by
  refine h.neutral (fun i hi => ?_) fun t ht => ⟨s, rfl, kept_eq ht ▸ hsame⟩
  obtain hi | hi := List.mem_append.1 hi
  · exact farewell_neutral s' sid i hi
  · exact hnew i hi

theorem request_counted {sid : Nat} {c : Core} {headers : List HeaderField} {endStream : Bool}
    {record : Option Stream} (h : Counted c.role record items) (hrole : c.role = .client)
    (hs : s = requestStream { c.newStream sid with state := s.state } headers)
    (hnew : Burst sid headers endStream new) :
    Counted c.role (some s) (new ++ [.opened sid] ++ items) := by
  have hneutral : ∀ i ∈ new, Neutral i := fun i hi => (burst_neutral hnew i hi).1
  have hlife : life (new ++ [.opened sid] ++ items) = new ++ [] := by
    rw [List.append_assoc, life_append hneutral]
    rfl
  have hkeeps : s.receivedContentLength = 0 ∧ s.initialHeadersReceived = false ∧ s.noContent = false ∧
      s.requestMethod = findValue headers ":method" := by
    rw [hs]
    unfold requestStream
    split
    · rename_i hmethod
      exact ⟨rfl, rfl, rfl, hmethod.symm⟩
    · rename_i method hmethod
      exact ⟨rfl, rfl, rfl, hmethod.symm⟩
  obtain ⟨hcount, hinitial, hcontent, hmethod⟩ := hkeeps
  have hrecord : Tallies c.role s (new ++ []) := by
    refine ⟨?_, fun _ => ?_, fun hdone => ?_, fun hno => ?_, fun _ hhead => ?_⟩
    · rw [received_neutral hneutral, hcount]
      rfl
    · rw [message_neutral hneutral]
      rfl
    · cases hinitial.symm.trans hdone
    · cases hcontent.symm.trans hno
    · obtain ⟨f, fs, _, _, _, rfl⟩ := hnew
      refine ⟨sid, headers, by simp, ?_⟩
      rw [← hmethod]
      simpa [isHead] using hhead
  refine ⟨fun t ht => ?_, fun hserver => ?_, ?_⟩
  · rw [hlife, ← Option.some.inj ht]
    exact hrecord
  · cases hrole.symm.trans hserver
  · refine always_silent h.ends fun i hi => ?_
    obtain hi | hi := List.mem_append.1 hi
    · exact (burst_neutral hnew i hi).2
    · obtain rfl := List.mem_singleton.1 hi
      exact id

theorem moves_counted {c : Core} {l : Label} {sid : Nat} {record record' : Option Stream}
    (hmoves : Moves c l sid record new record') (hlive : c.stream? sid = record)
    (hl : terms.taken.Meets c l) (h : Counted c.role record items) :
    Counted c.role record' (new ++ items) := by
  cases hmoves with
  | rest => exact h
  | pass _ hitems => exact h.gone fun i hi => (passing_neutral (hitems i hi)).2
  | retune | chunk | queue | update | credit =>
    exact h.same (by simp [Neutral, Ends]) ⟨rfl, rfl, rfl, rfl, rfl⟩
  | reset code consumed cause hcause =>
    refine h.gone fun i hi => ?_
    obtain rfl | rfl | hi : _ ∨ _ ∨ i ∈ cause := by simpa using hi
    · exact id
    · exact id
    · exact (passing_neutral (hcause i hi)).2
  | refuse | peerReset => exact h.gone (by simp [Ends])
  | @deliver s s' f _ _ _ _ _ hlength hs =>
    have htallies : Tallies c.role s' (_ :: life items) :=
      (h.live s rfl).data sid f.data f.endStream (by rw [hs])
    rw [List.append_assoc]
    refine Counted.told h.ends rfl (htallies.complete rfl fun hends => ?_) htallies (fun hserver => ?_) sid
    · have hend : f.endStream = true := hends
      rwa [hend] at hlength
    · rw [hs]
      exact h.served hserver s rfl
  | @headers s s' raw endStream _ opened protocol hblock hclosed hfinds hinitial hstate hvalid hlength
      hmatch hend hs =>
    have hends : Always (Complete c.role) (opened ++ items) := by
      refine always_silent h.ends fun i hi => ?_
      obtain ⟨_, rfl⟩ | ⟨_, _, rfl⟩ := hfinds
      · cases hi
      · obtain rfl := List.mem_singleton.1 hi
        exact id
    have htallies : Tallies c.role s (life (opened ++ items)) := by
      obtain ⟨rfl, rfl⟩ | ⟨_, rfl, rfl⟩ := hfinds
      · exact h.live s rfl
      · exact tallies_new c.role c sid
    have hready : endStream = true → extractContentLength raw none = .ok (some 0) →
        (c.role = .client → noContentStatus raw = false ∧ isHead s = false) →
        s.receivedContentLength = 0 := by
      intro hends' hextract hexempt
      obtain ⟨rfl, rfl⟩ | ⟨_, rfl, rfl⟩ := hfinds
      · cases hrole : c.role with
        | server => cases hinitial.symm.trans (h.served hrole s rfl)
        | client =>
          have hrecord := Completes.ready (hends' ▸ hblock) hl hlive
          rw [Ready, hinitial] at hrecord
          rw [hrole] at hvalid
          have hready : (s.state.recvHeaders true).isOk = true := by
            rw [hends'] at hstate
            rw [hstate]
            rfl
          have hfinal : isInformational (concatenateCookies raw) = false := by
            have hdone := hend hends'
            rw [hs] at hdone
            simpa [hrole] using hdone
          exact hrecord hready hvalid hfinal hextract (hexempt hrole).1 (hexempt hrole).2
      · rfl
    rw [List.append_assoc, List.cons_append]
    refine Counted.told hends rfl ?_ (htallies.headers hinitial hlength hs _ _) (fun hserver => ?_) sid
    · exact headers_complete htallies hready hinitial hlength hmatch hend hs
    · rw [hs, hserver]
      rfl
  | @trailers s s' raw hblock hclosed hinitial hvalid hstate hs =>
    have hrecord := Completes.ready hblock hl hlive
    rw [Ready, if_pos hinitial, hstate] at hrecord
    have hsame : SameMessage s s' := by
      rw [hs]
      exact ⟨rfl, rfl, rfl, rfl, rfl⟩
    let told : Item := .event (.trailersReceived sid (concatenateCookies raw))
    have hneutral : ∀ i ∈ [told], Neutral i := by simp [told, Neutral]
    have htallies := (h.live s rfl).neutral hneutral hsame
    rw [List.append_assoc]
    refine Counted.told h.ends rfl (htallies.complete rfl fun _ => ?_) htallies (fun hserver => ?_) sid
    · rw [hs]
      exact hrecord rfl hvalid
    · rw [hs]
      exact hinitial
  | request _ _ hrole _ _ _ _ hs hitems => exact request_counted h hrole hs hitems
  | @respond s s' headers endStream new _ _ _ _ _ _ hs hitems =>
    have hsame : SameMessage s s' := by
      rw [hs]
      exact ⟨rfl, rfl, rfl, rfl, rfl⟩
    exact h.sameKept (burst_neutral hitems) hsame
  | @trail s s' headers new _ _ _ _ _ _ hs hitems =>
    have hsame : SameMessage s s' := by
      rw [hs]
      exact ⟨rfl, rfl, rfl, rfl, rfl⟩
    exact h.sameKept (burst_neutral hitems) hsame
  | @emptyEnd s s' _ _ _ _ hs | @last s s' _ _ _ _ _ _ _ hs =>
    have hsame : SameMessage s s' := by
      rw [hs]
      exact ⟨rfl, rfl, rfl, rfl, rfl⟩
    exact h.sameKept (by simp [Neutral, Ends]) hsame

theorem stalls_counted {record record' : Option Stream} (hstalls : Stalls record new record')
    (h : Counted role record items) : Counted role record' (new ++ items) := by
  cases hstalls with
  | gone _ hitems => exact h.gone fun i hi => (passing_neutral (hitems i hi)).2
  | windows _ _ hitems =>
    exact h.same (fun i hi => passing_neutral (hitems i hi)) ⟨rfl, rfl, rfl, rfl, rfl⟩

theorem change_counted {c d : Core} {l : Label} {sid : Nat} (ht : Tidy c)
    (hl : terms.taken.Meets c l) (hchange : Change c l d)
    (h : Counted c.role (c.stream? sid) (history sid c.trace)) :
    Counted d.role (d.stream? sid) (history sid d.trace) := by
  obtain ⟨new, hnew, hmoves | hstalls⟩ := hchange.moved ht sid
  · rw [hnew, hchange.role]
    exact moves_counted hmoves rfl hl h
  · rw [hnew, hchange.role]
    exact stalls_counted hstalls h

/-- A frame that is recorded is no part of a message. -/
theorem Counted.heard {record : Option Stream} {sid : Nat} {trace : List Item}
    (h : Counted role record (history sid trace)) (f : Frame) :
    Counted role record (history sid (.received f :: trace)) := by
  rw [history_cons]
  split
  · have hone : ∀ i ∈ [Item.received f], Neutral i ∧ ¬ Ends i := by simp [Neutral, Ends]
    exact h.neutral hone fun s hs => ⟨s, hs, rfl, rfl, rfl, rfl, rfl⟩
  · exact h

theorem settles_counted {c d : Core} {sid : Nat} (ht : Tidy c)
    (h : Counted c.role (c.stream? sid) (history sid c.trace)) (hsettles : Settles terms c d) :
    Counted d.role (d.stream? sid) (history sid d.trace) := by
  cases hsettles with
  | change hl hchange => exact change_counted ht hl hchange h
  | refuse f => exact h.heard f
  | overrun f => exact h.heard (.continuation f)

theorem run_counted {limits : Limits} {records : List Record} {c : Connection}
    (h : RunOf terms (Connection.new role limits) records c) (sid : Nat) :
    Counted c.role (c.stream? sid) (history sid c.trace) := by
  have hnew : Counted (Core.new role limits).role ((Core.new role limits).stream? sid)
      (history sid (Core.new role limits).trace) := by
    refine ⟨fun s hs => ?_, fun _ s hs => ?_, trivial⟩
    · cases hs
    · cases hs
  exact settles_invariant (P := fun c => Counted c.role (c.stream? sid) (history sid c.trace))
    (Tidy.new role limits) hnew (fun _ _ => settles_counted) (run_settles h)

end

/-- A message that announced its length is delivered whole, whatever else is received and called. -/
theorem delivered_complete {role : Role} {limits : Limits} {records : List Record} {c : Connection}
    (h : RunOf terms (Connection.new role limits) records c) {sid : Nat} {later earlier : List Item}
    {i : Item} (heq : history sid c.trace = later ++ i :: earlier) : Complete role i earlier := by
  have hrole : c.role = role := evolves_role (run_evolves h)
  have hends := (run_counted h sid).ends
  rw [hrole, heq] at hends
  exact hends.at

/-- A request with `content-length: 5`. -/
def postFrame : Frame :=
  .headers ⟨1, false, true, none, [0x83, 0x87, 0x41, 0x01, 0x61, 0x84, 0x0f, 0x0d, 0x01, 0x35], none⟩

def postFields : List HeaderField :=
  [⟨ascii ":method", ascii "POST", false⟩, ⟨ascii ":scheme", ascii "https", false⟩,
    ⟨ascii ":authority", ascii "a", false⟩, ⟨ascii ":path", ascii "/", false⟩,
    ⟨ascii "content-length", ascii "5", false⟩]

def trailerFrame : Frame := .headers ⟨1, true, true, none, [0x00, 0x01, 0x78, 0x01, 0x79], none⟩

def trailersItem : Item := .event (.trailersReceived 1 [⟨ascii "x", ascii "y", false⟩])

/-- A server receives the request, `data` and trailers. -/
def postCalls (data : String) : List Call :=
  [.feed (clientBytes [postFrame, .data ⟨1, false, ascii data, none⟩, trailerFrame]), .process .listed]

theorem delivered_complete_trailers :
    ∃ records c earlier, RunOf terms (Connection.new .server .default) records c ∧
      history 1 c.trace = trailersItem :: earlier ∧ Complete .server trailersItem earlier := by
  have hheeds : HeedsAll terms (postCalls "hello") (Connection.new .server .default) := by decide +kernel
  have hrun := RunOf.execAll .start hheeds
  let items := history 1 (execAll (postCalls "hello") [] (Connection.new .server .default)).2.trace
  have heq : items = [] ++ trailersItem :: items.tail := by decide +kernel
  exact ⟨_, _, items.tail, hrun, heq, delivered_complete hrun heq⟩

/-- Trailers end a message whose data is too short. -/
theorem delivered_complete_any_false :
    ∃ records c earlier, Run (Connection.new .server .default) records c ∧
      history 1 c.trace = trailersItem :: earlier ∧ ¬ Complete .server trailersItem earlier := by
  have hrun := Run.execAll (c := Connection.new .server .default) .start (postCalls "hey")
  let items := history 1 (execAll (postCalls "hey") [] (Connection.new .server .default)).2.trace
  have heq : items = trailersItem :: items.tail := by decide +kernel
  refine ⟨_, _, items.tail, hrun, heq, fun hcomplete => ?_⟩
  have hmessage : message .server (life (trailersItem :: items.tail)) = some postFields := by
    decide +kernel
  have hexempt : ¬ Exempt .server (life (trailersItem :: items.tail)) := fun h => by cases h.1
  have hannounces : Announces postFields 5 :=
    ⟨⟨ascii "content-length", ascii "5", false⟩, by simp [postFields], rfl, by decide⟩
  have hfive := hcomplete trivial hexempt _ 5 hmessage hannounces
  have hthree : received (life (trailersItem :: items.tail)) = 3 := by decide +kernel
  omega

end Content

end Http2
