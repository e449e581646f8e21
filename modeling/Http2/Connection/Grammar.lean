import Http2.Connection.Accounts
import Http2.Connection.Admission
import Http2.Connection.Moves

/-! The events of a stream are those of one message. A client takes data before the response it
belongs to has come: only the handler of headers asks for it. -/
namespace Http2

open Hpack Lib Lib.Prog Connection

namespace Grammar

/-! ## Messages -/

/-- An interim response. -/
def Interim (role : Role) : Event → Prop
  | .headersReceived _ headers endStream _ =>
    role = .client ∧ isInformational headers = true ∧ endStream = false
  | _ => False

/-- The header section of the message itself. -/
def Final (role : Role) : Event → Prop
  | .headersReceived _ headers _ _ => ¬ (role = .client ∧ isInformational headers = true)
  | _ => False

def IsData : Event → Prop
  | .dataReceived _ _ _ => True
  | _ => False

def IsTrailers : Event → Prop
  | .trailersReceived _ _ => True
  | _ => False

/-- The event tells of END_STREAM. -/
def ends : Event → Bool
  | .headersReceived _ _ endStream _ | .dataReceived _ _ endStream => endStream
  | .trailersReceived _ _ => true
  | _ => false

/-- A message whose header section has come and whose end has not. -/
inductive Body (role : Role) : List Event → Prop
  | mk (interim : List Event) (final : Event) (data : List Event)
      (hinterim : ∀ e ∈ interim, Interim role e) (hfinal : Final role final)
      (hdata : ∀ e ∈ data, IsData e) (hopen : ∀ e ∈ final :: data, ends e = false) :
      Body role (interim ++ final :: data)

/-- A message as far as it has come. END_STREAM is on its last event, if it is on any. -/
inductive Message (role : Role) : List Event → Prop
  | early (interim : List Event) (hinterim : ∀ e ∈ interim, Interim role e) : Message role interim
  | body (events : List Event) (h : Body role events) : Message role events
  | headers (interim : List Event) (final : Event) (hinterim : ∀ e ∈ interim, Interim role e)
      (hfinal : Final role final) : Message role (interim ++ [final])
  | data (events : List Event) (last : Event) (h : Body role events) (hlast : IsData last) :
      Message role (events ++ [last])
  | trailers (events : List Event) (last : Event) (h : Body role events) (hlast : IsTrailers last) :
      Message role (events ++ [last])

/-- The events of a stream since the last that told of its end, in order. -/
def told : List Item → List Event
  | .event (.streamReset _ _ _) :: _ | .event (.streamClosed _) :: _ => []
  | .event e :: earlier => told earlier ++ [e]
  | _ :: earlier => told earlier
  | [] => []

/-- Data is taken for streams whose header section has come, and a request replaces no record for
which it has. -/
def terms : Terms where
  frame c f :=
    match f with
    | .data f => c.Takes (.data f) → (f.flowControlSize : Int) ≤ c.flowControl.recvWindow →
        ∀ s ∈ c.stream? f.streamId, Accounts.accepts s f = true → s.initialHeadersReceived = true
    | _ => True
  refusal _ _ := True
  api c k :=
    match k with
    | .startStream headers _ => c.Grants headers → ∀ s ∈ c.stream? c.nextStreamId,
        s.initialHeadersReceived = false
    | _ => True

instance (c : Core) : (f : Frame) → Decidable (terms.frame c f)
  | .data f => inferInstanceAs (Decidable (c.Takes (.data f) → _ → ∀ s ∈ c.stream? f.streamId, _ → _))
  | .headers _ | .priority _ _ | .rstStream _ _ | .settings _ | .pushPromise _ | .ping _ _ | .goaway _
  | .windowUpdate _ _ | .continuation _ | .priorityUpdate _ _ | .unknown _ _ =>
    inferInstanceAs (Decidable True)

instance (c : Core) (sid : Nat) : Decidable (terms.refusal c sid) := inferInstanceAs (Decidable True)

instance (c : Core) : (k : Call) → Decidable (terms.api c k)
  | .startStream headers _ => inferInstanceAs (Decidable (c.Grants headers → _))
  | .initiate | .feed _ | .markPrefaceReceived | .markPrefaceSent | .sendSettings | .process _
  | .pollEvent | .pollOutput | .sendResponse _ _ _ | .sendTrailers _ _ | .sendData _ _ _
  | .resetStream _ _ | .sendPing _ | .sendGoaway _ _ | .sendWindowUpdate _ _ =>
    inferInstanceAs (Decidable True)

/-! ## What the record knows of the message -/

/-- The peer may still send. -/
def canRecv (state : StreamState) : Bool := (state.recvHeaders false).isOk

structure Hears (role : Role) (s : Stream) (events : List Event) : Prop where
  early : s.initialHeadersReceived = false → ∀ e ∈ events, Interim role e
  begun : s.initialHeadersReceived = true → canRecv s.state = true → Body role events

structure Heard (role : Role) (record : Option Stream) (items : List Item) : Prop where
  live : ∀ s, record = some s → Hears role s (told items)
  served : role = .server → ∀ s, record = some s → s.initialHeadersReceived = true
  gone : record = none → told items = []
  always : Always (fun i earlier => Message role (told (i :: earlier))) items

section

variable {role : Role} {record record' : Option Stream} {new items : List Item} {s s' : Stream}

/-- Not an event. -/
def Silent (i : Item) : Prop := ∀ e, i ≠ .event e

theorem told_silent (h : ∀ i ∈ new, Silent i) : told (new ++ items) = told items := by
  induction new with
  | nil => rfl
  | cons i new ih =>
    obtain ⟨hi, hnew⟩ := List.forall_mem_cons.1 h
    rw [List.cons_append, ← ih hnew]
    cases i with
    | event e => exact absurd rfl (hi e)
    | _ => rfl

theorem message_of_always (h : Always (fun i earlier => Message role (told (i :: earlier))) items) :
    Message role (told items) := by
  cases items with
  | nil => exact .early [] (by simp)
  | cons i earlier => exact h.1

theorem always_silent (h : Always (fun i earlier => Message role (told (i :: earlier))) items)
    (hnew : ∀ i ∈ new, Silent i) :
    Always (fun i earlier => Message role (told (i :: earlier))) (new ++ items) := by
  induction new with
  | nil => exact h
  | cons i new ih =>
    obtain ⟨_, hrest⟩ := List.forall_mem_cons.1 hnew
    have hsame : told (i :: (new ++ items)) = told items := told_silent hnew
    refine ⟨?_, ih hrest⟩
    change Message role (told (i :: (new ++ items)))
    rw [hsame]
    exact message_of_always h

/-- A record that stays, on a way that the message has no part in. -/
theorem Heard.same (h : Heard role (some s) items) (hnew : ∀ i ∈ new, Silent i)
    (hinitial : s'.initialHeadersReceived = s.initialHeadersReceived)
    (hrecv : canRecv s'.state = true → canRecv s.state = true) : Heard role (some s') (new ++ items) := by
  have hs := h.live s rfl
  refine ⟨fun t ht => ?_, fun hserver t ht => ?_, (by simp), always_silent h.always hnew⟩
  · obtain rfl := Option.some.inj ht
    rw [told_silent hnew]
    exact ⟨fun hno => hs.early (hinitial ▸ hno), fun hyes hcan => hs.begun (hinitial ▸ hyes) (hrecv hcan)⟩
  · obtain rfl := Option.some.inj ht
    exact hinitial.trans (h.served hserver s rfl)

/-- The stream ended: the next message starts anew. -/
theorem Heard.ended {i : Item} (hitems : Always (fun i earlier => Message role (told (i :: earlier))) items)
    (hi : told (i :: items) = []) : Heard role none (i :: items) := by
  refine ⟨by simp, by simp, fun _ => hi, ?_, hitems⟩
  change Message role (told (i :: items))
  rw [hi]
  exact .early [] (by simp)

/-- A record that goes when that closed it. -/
theorem Heard.kept (h : Heard role (some s) items) (sid : Nat) :
    Heard role s.kept (s.farewell sid ++ items) := by
  unfold Stream.kept Stream.farewell
  split
  · exact .ended h.always rfl
  · exact h

/-- An event of the message is delivered. -/
theorem Heard.tell {e : Event} (h : Always (fun i earlier => Message role (told (i :: earlier))) items)
    (htold : told (.event e :: items) = told items ++ [e]) (hs : Hears role s (told items ++ [e]))
    (hserved : role = .server → s.initialHeadersReceived = true)
    (hmessage : Message role (told items ++ [e])) : Heard role (some s) (.event e :: items) := by
  refine ⟨fun t ht => ?_, fun hserver t ht => ?_, by simp, ?_, h⟩
  · obtain rfl := Option.some.inj ht
    rw [htold]
    exact hs
  · obtain rfl := Option.some.inj ht
    exact hserved hserver
  · change Message role (told (.event e :: items))
    rw [htold]
    exact hmessage

/-- Data keeps the message open, unless it ends it. -/
theorem Body.data {events : List Event} {e : Event} (h : Body role events) (he : IsData e)
    (hopen : ends e = false) : Body role (events ++ [e]) := by
  obtain ⟨interim, final, data, hinterim, hfinal, hdata, hends⟩ := h
  rw [List.append_assoc, List.cons_append]
  refine .mk interim final (data ++ [e]) hinterim hfinal ?_ ?_
  · intro e' he'
    obtain he' | he' := List.mem_append.1 he'
    · exact hdata e' he'
    · obtain rfl := List.mem_singleton.1 he'
      exact he
  · intro e' he'
    rw [← List.cons_append, List.mem_append] at he'
    obtain he' | he' := he'
    · exact hends e' he'
    · obtain rfl := List.mem_singleton.1 he'
      exact hopen

/-! ## What moves do to it -/

theorem recvData_canRecv {a b : StreamState} {endStream : Bool} (h : a.recvData endStream = .ok b) :
    canRecv a = true ∧ (canRecv b = true → endStream = false) := by
  cases a <;> cases endStream <;> cases h <;> decide

theorem recvHeaders_canRecv {a b : StreamState} {endStream : Bool}
    (h : a.recvHeaders endStream = .ok b) : canRecv a = true ∧ (canRecv b = true → endStream = false) := by
  cases a <;> cases endStream <;> cases h <;> decide

theorem sendHeaders_canRecv {a b : StreamState} {endStream : Bool}
    (h : a.sendHeaders endStream = .ok b) : canRecv b = true → canRecv a = true := by
  cases a <;> cases endStream <;> cases h <;> decide

theorem completeSendData_canRecv {a b : StreamState} (h : a.completeSendData = .ok b) :
    canRecv b = true → canRecv a = true := by
  cases a <;> cases h <;> decide

theorem passing_silent {i : Item} (h : i.Passing) : Silent i := by
  rintro e rfl
  exact h

theorem burst_silent {sid : Nat} {headers : List HeaderField} {endStream : Bool}
    (h : Burst sid headers endStream new) : ∀ i ∈ new, Silent i := by
  obtain ⟨f, fs, _, _, _, rfl⟩ := h
  rintro i hi e rfl
  simp at hi

/-- A stream that is done for now: what passes is about no message. -/
theorem Heard.pass (h : Heard role none items) (hnew : ∀ i ∈ new, Silent i) :
    Heard role none (new ++ items) := by
  refine ⟨by simp, by simp, fun _ => ?_, always_silent h.always hnew⟩
  rw [told_silent hnew]
  exact h.gone rfl

/-- A reset ends the message, wherever it is. -/
theorem Heard.reset (h : Heard role record items) (hnew : ∀ i ∈ new, Silent i) (sid : Nat) (code : ErrorCode)
    (consumed : Nat) : Heard role none (.event (.streamReset sid code consumed) :: (new ++ items)) :=
  .ended (always_silent h.always hnew) rfl

theorem Heard.data {e : Event} {endStream : Bool} (h : Heard role (some s) items)
    (hinitial : s.initialHeadersReceived = true) (hstate : s.state.recvData endStream = .ok s'.state)
    (hsame : s'.initialHeadersReceived = s.initialHeadersReceived) (he : IsData e)
    (htold : told (.event e :: items) = told items ++ [e]) (hends : ends e = endStream) :
    Heard role (some s') (.event e :: items) := by
  obtain ⟨hcan, hopen⟩ := recvData_canRecv hstate
  have hbody := (h.live s rfl).begun hinitial hcan
  refine .tell h.always htold ⟨fun hno => ?_, fun _ hcan' => ?_⟩ (fun _ => hsame.trans hinitial) ?_
  · cases (hsame.trans hinitial).symm.trans hno
  · exact hbody.data he (hends.trans (hopen hcan'))
  · exact .data _ e hbody he

theorem Heard.trailers {e : Event} (h : Heard role (some s) items)
    (hinitial : s.initialHeadersReceived = true) (hstate : s.state.recvHeaders true = .ok s'.state)
    (hsame : s'.initialHeadersReceived = s.initialHeadersReceived) (he : IsTrailers e)
    (htold : told (.event e :: items) = told items ++ [e]) : Heard role (some s') (.event e :: items) := by
  obtain ⟨hcan, hopen⟩ := recvHeaders_canRecv hstate
  have hbody := (h.live s rfl).begun hinitial hcan
  refine .tell h.always htold ⟨fun hno => ?_, fun _ hcan' => ?_⟩ (fun _ => hsame.trans hinitial) ?_
  · cases (hsame.trans hinitial).symm.trans hno
  · cases hopen hcan'
  · exact .trailers _ e hbody he

/-- A header section comes before anything else of its message. -/
theorem Heard.headers {sid : Nat} {headers : List HeaderField} {endStream : Bool}
    {protocol : Option Bytes}
    (halways : Always (fun i earlier => Message role (told (i :: earlier))) items)
    (hearly : ∀ e ∈ told items, Interim role e)
    (hstate : s.state.recvHeaders endStream = .ok s'.state)
    (hend : endStream = true → s'.initialHeadersReceived = true)
    (hinitial : s'.initialHeadersReceived = !(role == .client && isInformational headers)) :
    Heard role (some s') (.event (.headersReceived sid headers endStream protocol) :: items) := by
  obtain ⟨_, hopen⟩ := recvHeaders_canRecv hstate
  by_cases hinterim : role = .client ∧ isInformational headers = true
  · have hno : s'.initialHeadersReceived = false := by
      rw [hinitial]
      simp [hinterim.1, hinterim.2]
    have hmore : endStream = false := by
      by_contra hends
      cases hno.symm.trans (hend (by simpa using hends))
    have hall : ∀ e ∈ told items ++ [.headersReceived sid headers endStream protocol], Interim role e := by
      intro e he
      obtain he | he := List.mem_append.1 he
      · exact hearly e he
      · obtain rfl := List.mem_singleton.1 he
        exact ⟨hinterim.1, hinterim.2, hmore⟩
    refine .tell halways rfl ⟨fun _ => hall, fun hyes => ?_⟩ (fun hserver => ?_) (.early _ hall)
    · cases hno.symm.trans hyes
    · cases hinterim.1.symm.trans hserver
  · have hyes : s'.initialHeadersReceived = true := by
      rw [hinitial]
      by_contra hno
      exact hinterim (by simpa using hno)
    have hfinal : Final role (.headersReceived sid headers endStream protocol) := hinterim
    refine .tell halways rfl ⟨fun hno => ?_, fun _ hcan => ?_⟩ (fun _ => hyes) ?_
    · cases hyes.symm.trans hno
    · refine .mk _ _ [] hearly hfinal (by simp) ?_
      intro e he
      obtain rfl := List.mem_singleton.1 he
      exact hopen hcan
    · exact .headers _ _ hearly hfinal

theorem moves_heard {c : Core} {l : Label} {sid : Nat} (hmoves : Moves c l sid record new record')
    (hlive : c.stream? sid = record) (hl : terms.taken.Meets c l)
    (hconn : ∀ f, l = .frame (.data f) → (f.flowControlSize : Int) ≤ c.flowControl.recvWindow)
    (h : Heard c.role record items) : Heard c.role record' (new ++ items) := by
  cases hmoves with
  | rest => exact h
  | pass _ hitems => exact h.pass fun i hi => passing_silent (hitems i hi)
  | retune | chunk | queue | update | credit => exact h.same (by simp [Silent]) rfl id
  | reset code consumed cause hcause =>
    have hsilent : ∀ i ∈ .sent (.rstStream sid code.asU32) :: cause, Silent i := by
      intro i hi
      obtain rfl | hi := List.mem_cons.1 hi
      · simp [Silent]
      · exact passing_silent (hcause i hi)
    exact h.reset hsilent sid code consumed
  | refuse code =>
    have hsilent : ∀ i ∈ [Item.sent (.rstStream sid code.asU32), .opened sid], Silent i := by simp [Silent]
    exact h.reset hsilent sid code 0
  | peerReset code =>
    have hsilent : ∀ i ∈ ([] : List Item), Silent i := by simp
    exact h.reset hsilent sid (.fromU32 code) 0
  | @deliver s s' f hframe hsid hstream hstate hcontent hlength hs =>
    subst hframe hsid
    obtain ⟨htakes, hterms⟩ := hl
    have haccepts := Accounts.accepts_of_delivered hstream hstate hcontent hlength hs
    have hinitial := hterms htakes (hconn f rfl) s hlive haccepts
    rw [List.append_assoc]
    exact (h.data (e := .dataReceived f.streamId f.data f.endStream) hinitial hstate (by rw [hs]) trivial
      rfl rfl).kept f.streamId
  | @headers s s' raw endStream _ opened protocol hblock hclosed hfinds hinitial hstate hvalid hlength
      hmatch hend hs =>
    rw [List.append_assoc, List.cons_append]
    obtain ⟨hsilent, hearly⟩ : (∀ i ∈ opened, Silent i) ∧ ∀ e ∈ told (opened ++ items), Interim c.role e := by
      obtain ⟨rfl, rfl⟩ | ⟨rfl, _, rfl⟩ := hfinds
      · exact ⟨by simp, (h.live s rfl).early hinitial⟩
      · have hnone : told ([.opened sid] ++ items) = [] := h.gone rfl
        refine ⟨by simp [Silent], ?_⟩
        rw [hnone]
        simp
    exact (Heard.headers (s := s) (always_silent h.always hsilent) hearly hstate hend (by rw [hs])).kept sid
  | @trailers s s' raw hblock hclosed hinitial hvalid hstate hs =>
    rw [List.append_assoc]
    exact (h.trailers (e := .trailersReceived sid _) hinitial hstate (by rw [hs]) trivial rfl).kept sid
  | @request s _ headers endStream burst hcall hsid hrole hgoaway hmax hvalid hstate hs hitems =>
    subst hcall hsid
    have hno : s.initialHeadersReceived = false := by
      rw [hs]
      unfold requestStream
      split <;> rfl
    have hsilent : ∀ i ∈ burst ++ [.opened c.nextStreamId], Silent i := by
      intro i hi
      obtain hi | hi := List.mem_append.1 hi
      · exact burst_silent hitems i hi
      · obtain rfl := List.mem_singleton.1 hi
        simp [Silent]
    have hearly : ∀ e ∈ told items, Interim c.role e := by
      cases record with
      | none => simp [h.gone rfl]
      | some old => exact (h.live old rfl).early (hl.2 (hl.1 _ _ rfl) old hlive)
    refine ⟨fun t ht => ?_, fun hserver => ?_, by simp, always_silent h.always hsilent⟩
    · obtain rfl := Option.some.inj ht
      rw [told_silent hsilent]
      exact ⟨fun _ => hearly, fun hyes => by cases hno.symm.trans hyes⟩
    · cases hrole.symm.trans hserver
  | @respond s s' headers endStream new hcall htunnel hvalid hstate hempty hfinal hs hitems =>
    rw [List.append_assoc]
    exact (h.same (burst_silent hitems) (by rw [hs]; rfl) (sendHeaders_canRecv hstate)).kept sid
  | @trail s s' headers new hcall htunnel hvalid hstate hempty hfinal hs hitems =>
    rw [List.append_assoc]
    exact (h.same (burst_silent hitems) (by rw [hs]) (sendHeaders_canRecv hstate)).kept sid
  | @emptyEnd s s' hcall hpending hempty hstate hs =>
    rw [List.append_assoc]
    exact (h.same (by simp [Silent]) (by rw [hs]) (completeSendData_canRecv hstate)).kept sid
  | @last s s' hcall hdata hpending hconn hstream hframe hstate hs =>
    rw [List.append_assoc]
    exact (h.same (by simp [Silent]) (by rw [hs]) (completeSendData_canRecv hstate)).kept sid

theorem stalls_heard (hstalls : Stalls record new record') (h : Heard role record items) :
    Heard role record' (new ++ items) := by
  cases hstalls with
  | gone _ hitems => exact h.pass fun i hi => passing_silent (hitems i hi)
  | windows _ _ hitems => exact h.same (fun i hi => passing_silent (hitems i hi)) rfl id

/-- Data that is handled fits the window of the connection. -/
theorem step_window {c d : Core} {f : DataFrame} (h : Step c (.frame (.data f)) d) :
    (f.flowControlSize : Int) ≤ c.flowControl.recvWindow := by
  cases h with
  | calm h =>
    cases h with
    | receive _ hinert => cases hinert
    | discardData _ _ hconn | reportData _ _ hconn | refuseData _ _ _ hconn | deliverData _ _ hconn =>
      exact hconn
    | credit _ _ hl => obtain hl | hl := hl <;> cases hl
  | wake h => cases h

theorem settles_heard {c d : Core} {sid : Nat} (ht : Tidy c) (hsettles : Settles terms c d)
    (h : Heard c.role (c.stream? sid) (history sid c.trace)) :
    Heard d.role (d.stream? sid) (history sid d.trace) := by
  have hrecorded : ∀ f : Frame, Heard c.role (c.stream? sid) (history sid (.received f :: c.trace)) := by
    intro f
    rw [← List.singleton_append, history_append]
    have hitems := received_passing f sid
    cases hlive : c.stream? sid with
    | none => exact stalls_heard (.gone _ hitems) (hlive ▸ h)
    | some s => exact stalls_heard (.windows s.flowControl _ hitems) (hlive ▸ h)
  cases hsettles with
  | @change l _ hl hchange =>
    rw [hchange.role]
    cases hchange with
    | step hstep =>
      obtain ⟨new, hnew, hmoves⟩ := hstep.moved ht sid
      rw [hnew]
      refine moves_heard hmoves rfl hl (fun f hf => ?_) h
      subst hf
      exact step_window hstep
    | fault hfault =>
      obtain ⟨new, hnew, hstalls⟩ := fault_stalls hfault sid
      rw [hnew]
      exact stalls_heard hstalls h
  | refuse f => exact hrecorded f
  | overrun f => exact hrecorded (.continuation f)

end

theorem run_heard {role : Role} {limits : Limits} {records : List Record} {c : Connection}
    (h : RunOf terms (Connection.new role limits) records c) (sid : Nat) :
    Heard c.role (c.stream? sid) (history sid c.trace) := by
  refine settles_invariant (P := fun c => Heard c.role (c.stream? sid) (history sid c.trace))
    (Tidy.new role limits) ?_ (fun c d ht hc hsettles => settles_heard ht hsettles hc) (run_settles h)
  refine ⟨fun s hs => ?_, fun _ s hs => ?_, fun _ => rfl, trivial⟩
  · cases hs
  · cases hs

/-- At any time the events of a stream since its last end are those of a message, as far as it has
come. -/
theorem message_order {role : Role} {limits : Limits} {records : List Record} {c : Connection}
    (h : RunOf terms (Connection.new role limits) records c) (sid : Nat) {later earlier : List Item}
    (heq : history sid c.trace = later ++ earlier) : Message role (told earlier) := by
  have hrole : c.role = role := evolves_role (run_evolves h)
  have halways := (run_heard h sid).always
  rw [hrole, heq] at halways
  cases earlier with
  | nil => exact .early [] (by simp)
  | cons i earlier => exact halways.at

/-- The first event is a header section. -/
theorem Message.head {role : Role} {e : Event} {rest : List Event} (h : Message role (e :: rest)) :
    Interim role e ∨ Final role e := by
  have hbody : ∀ {events : List Event}, Body role events → ∃ e' rest', events = e' :: rest' ∧
      (Interim role e' ∨ Final role e') := by
    rintro _ ⟨interim, final, data, hinterim, hfinal⟩
    cases interim with
    | nil => exact ⟨final, data, rfl, .inr hfinal⟩
    | cons e' interim => exact ⟨e', _, rfl, .inl (hinterim e' List.mem_cons_self)⟩
  generalize heq : e :: rest = events at h
  cases h with
  | early interim hinterim =>
    subst heq
    exact .inl (hinterim e List.mem_cons_self)
  | body events h =>
    obtain ⟨e', _, rfl, he⟩ := hbody h
    obtain ⟨rfl, _⟩ := List.cons.inj heq
    exact he
  | headers interim final hinterim hfinal =>
    cases interim with
    | nil =>
      obtain ⟨rfl, _⟩ := List.cons.inj heq
      exact .inr hfinal
    | cons e' interim =>
      obtain ⟨rfl, _⟩ := List.cons.inj heq
      exact .inl (hinterim e List.mem_cons_self)
  | data events last h | trailers events last h =>
    obtain ⟨e', _, rfl, he⟩ := hbody h
    obtain ⟨rfl, _⟩ := List.cons.inj heq
    exact he

/-- A client sends a request and is sent these frames. -/
def exchangeCalls (frames : List Frame) : List Call :=
  [.startStream getRequest true, .feed (serverBytes frames), .process .listed]

/-- 103, then 200, data and trailers. -/
def answer : List Frame :=
  [.headers ⟨1, false, true, none, [0x08, 0x03, 0x31, 0x30, 0x33], none⟩,
    .headers ⟨1, false, true, none, [0x88], none⟩, .data ⟨1, false, ascii "hi", none⟩,
    .headers ⟨1, true, true, none, [0x00, 0x01, 0x78, 0x01, 0x79], none⟩]

theorem message_order_answer :
    ∃ records c later earlier, RunOf terms (Connection.new .client .default) records c ∧
      history 1 c.trace = later ++ earlier ∧ (told earlier).length = 4 ∧ Message .client (told earlier) := by
  have hheeds : HeedsAll terms (exchangeCalls answer) (Connection.new .client .default) := by decide +kernel
  have hrun := RunOf.execAll .start hheeds
  let items := history 1 (execAll (exchangeCalls answer) [] (Connection.new .client .default)).2.trace
  have heq : items = [.event (.streamClosed 1)] ++ items.tail := by decide +kernel
  exact ⟨_, _, _, items.tail, hrun, heq, by decide +kernel, message_order hrun 1 heq⟩

/-- Data is delivered before any response. -/
theorem message_order_any_false :
    ∃ records c, Run (Connection.new .client .default) records c ∧
      ¬ Message .client (told (history 1 c.trace)) := by
  have hrun := Run.execAll (c := Connection.new .client .default) .start
    (exchangeCalls [.data ⟨1, false, ascii "hi", none⟩])
  have htold : told (history 1 (execAll (exchangeCalls [.data ⟨1, false, ascii "hi", none⟩]) []
      (Connection.new .client .default)).2.trace) = [.dataReceived 1 (ascii "hi") false] := by
    decide +kernel
  refine ⟨_, _, hrun, fun h => ?_⟩
  rw [htold] at h
  obtain h | h := h.head
  · exact h
  · exact h

end Grammar

end Http2
