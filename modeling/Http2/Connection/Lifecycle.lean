import Http2.Connection.Life

/-! Every transition takes a stream through its life: the record of a stream, as far as there is
one, is where its history has led. It depends on nothing but that a record is begun for a stream
that is as good as new. -/
namespace Http2

open Hpack Lib Connection

namespace Life

/-- The state of a record, by what has ended. -/
def stateOf (remoteEnded localEnded : Bool) : StreamState :=
  match remoteEnded, localEnded with
  | false, false => .open
  | true, false => .halfClosedRemote
  | false, true => .halfClosedLocal
  | true, true => .closed

/-- The record of a stream in this phase. A server keeps none before the headers have come. -/
def Fits (role : Role) : Phase → Option Stream → Prop
  | .unborn, record | .gone, record => record = none
  | .live remoteEnded localEnded unsent, record => ∃ s, record = some s ∧
      s.state = stateOf remoteEnded localEnded ∧ s.sendBuffer = unsent ∧
      (role = .server → s.initialHeadersReceived = true)
  | .born, _ | .aborted, _ => False

/-- The history leads to a phase that fits the record. -/
def Stands (role : Role) (record : Option Stream) (items : List Item) : Prop :=
  ∃ p, phase role items = some p ∧ Fits role p record

/-! ## States -/

section

variable {r l : Bool} {s' : StreamState} {endStream : Bool}

theorem stateOf_sendHeaders (h : (stateOf r l).sendHeaders endStream = .ok s') :
    l = false ∧ s' = stateOf r endStream := by
  cases r <;> cases l <;> cases endStream <;> cases h <;> exact ⟨rfl, rfl⟩

theorem stateOf_recvHeaders (h : (stateOf r l).recvHeaders endStream = .ok s') :
    r = false ∧ s' = stateOf endStream l := by
  cases r <;> cases l <;> cases endStream <;> cases h <;> exact ⟨rfl, rfl⟩

theorem stateOf_recvData (h : (stateOf r l).recvData endStream = .ok s') :
    r = false ∧ s' = stateOf endStream l := by
  cases r <;> cases l <;> cases endStream <;> cases h <;> exact ⟨rfl, rfl⟩

theorem stateOf_completeSendData (h : (stateOf r l).completeSendData = .ok s') :
    l = false ∧ s' = stateOf r true := by
  cases r <;> cases l <;> cases h <;> exact ⟨rfl, rfl⟩

theorem stateOf_canSend (h : (stateOf r l).canSend = true) : l = false := by
  cases r <;> cases l <;> first | rfl | cases h

theorem stateOf_closed (h : (stateOf r l).isClosed = true) : r = true ∧ l = true := by
  cases r <;> cases l <;> first | exact ⟨rfl, rfl⟩ | cases h

end

/-! ## Moves -/

section

variable {role : Role} {p q : Phase} {record record' : Option Stream} {items new : List Item}
  {s s' : Stream} {sid : Nat}

theorem fits_live (h : Fits role p (some s)) : ∃ r l, p = .live r l s.sendBuffer ∧
    s.state = stateOf r l ∧ (role = .server → s.initialHeadersReceived = true) := by
  cases p with
  | live r l u =>
    obtain ⟨t, ht, hstate, hbuffer, hinitial⟩ := h
    obtain rfl := Option.some.inj ht
    exact ⟨r, l, by rw [hbuffer], hstate, hinitial⟩
  | unborn | gone => cases h
  | born | aborted => exact h.elim

theorem fits_none (h : Fits role p none) : p = .unborn ∨ p = .gone := by
  cases p with
  | unborn => exact .inl rfl
  | gone => exact .inr rfl
  | live r l u =>
    obtain ⟨_, ht, _⟩ := h
    cases ht
  | born | aborted => exact h.elim

/-- The phase of a live stream, as its history goes on. -/
theorem stands_live (h : Stands role (some s) items) : ∃ r l,
    phase role items = some (.live r l s.sendBuffer) ∧ s.state = stateOf r l ∧
      (role = .server → s.initialHeadersReceived = true) := by
  obtain ⟨p, hp, hfits⟩ := h
  obtain ⟨r, l, rfl, hstate, hinitial⟩ := fits_live hfits
  exact ⟨r, l, hp, hstate, hinitial⟩

theorem kept_stands {r l : Bool} (hp : phase role items = some (.live r l s.sendBuffer))
    (hstate : s.state = stateOf r l) (hinitial : role = .server → s.initialHeadersReceived = true) :
    Stands role s.kept (s.farewell sid ++ items) := by
  unfold Stream.kept Stream.farewell
  split
  · rename_i hclosed
    rw [hstate] at hclosed
    obtain ⟨rfl, rfl⟩ := stateOf_closed hclosed
    exact ⟨.gone, reads_cons_iff.2 ⟨_, hp, rfl⟩, rfl⟩
  · exact ⟨_, hp, s, rfl, hstate, rfl, hinitial⟩

theorem reads_burst {headers : List HeaderField} {endStream : Bool}
    (hitems : Burst sid headers endStream new) (hp : p.speaks = some p)
    (hsaid : p.saysHeaders endStream = some q) (hq : q.speaks = some q) :
    reads (step role) p new = some q := by
  obtain ⟨f, fs, _, rfl, hfs, rfl⟩ := hitems
  refine reads_append_of (u := q) ?_ (reads_same fun i hi => ?_)
  · exact reads_cons_iff.2 ⟨p, reads_cons_iff.2 ⟨p, rfl, hp⟩, hsaid⟩
  · obtain ⟨g, hg, rfl⟩ := List.mem_map.1 (List.mem_reverse.1 hi)
    obtain ⟨cf, rfl, _⟩ := hfs g hg
    exact hq

/-- A record that stays, in the phase it was in. -/
theorem Stands.same (h : Stands role (some s) items) (hstate : s'.state = s.state)
    (hbuffer : s'.sendBuffer = s.sendBuffer)
    (hinitial : s'.initialHeadersReceived = s.initialHeadersReceived) :
    Stands role (some s') items := by
  obtain ⟨r, l, hp, hs, hheard⟩ := stands_live h
  exact ⟨_, hp, s', rfl, hstate.trans hs, hbuffer, fun hserver => hinitial.trans (hheard hserver)⟩

/-- A header section leaves that a call sends on a live stream. -/
theorem Stands.answer {headers : List HeaderField} {endStream : Bool}
    (h : Stands role (some s) items) (hstate : s.state.sendHeaders endStream = .ok s'.state)
    (hempty : endStream = true → s.sendBuffer = []) (hbuffer : s'.sendBuffer = s.sendBuffer)
    (hinitial : s'.initialHeadersReceived = s.initialHeadersReceived)
    (hitems : Burst sid headers endStream new) :
    Stands role s'.kept (s'.farewell sid ++ (new ++ items)) := by
  obtain ⟨r, l, hp, hs, hheard⟩ := stands_live h
  rw [hs] at hstate
  obtain ⟨rfl, hs'⟩ := stateOf_sendHeaders hstate
  have hsaid : (Phase.live r false s.sendBuffer).saysHeaders endStream =
      some (.live r endStream s'.sendBuffer) := by
    rw [hbuffer]
    exact if_pos hempty
  refine kept_stands (reads_append_of hp (reads_burst hitems rfl hsaid rfl)) hs' ?_
  exact fun hserver => hinitial.trans (hheard hserver)

/-- The application is told of something that the peer sent. -/
theorem Stands.hear {e : Event} (h : Stands role (some s) items) (endStream : Bool)
    (hrecv : ∀ r l, s.state = stateOf r l → r = false ∧ s'.state = stateOf endStream l)
    (hbuffer : s'.sendBuffer = s.sendBuffer)
    (hinitial : s'.initialHeadersReceived = s.initialHeadersReceived)
    (he : ∀ p, step role p (.event e) = p.hears endStream) :
    Stands role s'.kept (s'.farewell sid ++ (.event e :: items)) := by
  obtain ⟨r, l, hp, hs, hheard⟩ := stands_live h
  obtain ⟨rfl, hs'⟩ := hrecv r l hs
  refine kept_stands (r := endStream) (l := l) (reads_cons_iff.2 ⟨_, hp, ?_⟩) hs' ?_
  · rw [he, hbuffer]
    rfl
  · exact fun hserver => hinitial.trans (hheard hserver)

/-- DATA leaves. -/
theorem Stands.say (h : Stands role (some s) items) (s' : Stream) {f : DataFrame}
    (hsend : ∀ r l, s.state = stateOf r l → l = false ∧ s'.state = stateOf r f.endStream)
    (hbuffer : s.sendBuffer = f.data ++ s'.sendBuffer)
    (hend : f.endStream = true → s'.sendBuffer = [])
    (hinitial : s'.initialHeadersReceived = s.initialHeadersReceived) :
    ∃ r, phase role (.sent (.data f) :: items) = some (.live r f.endStream s'.sendBuffer) ∧
      s'.state = stateOf r f.endStream ∧ (role = .server → s'.initialHeadersReceived = true) := by
  obtain ⟨r, l, hp, hs, hheard⟩ := stands_live h
  obtain ⟨rfl, hs'⟩ := hsend r l hs
  refine ⟨r, reads_cons_iff.2 ⟨_, hp, ?_⟩, hs', fun hserver => hinitial.trans (hheard hserver)⟩
  have hsaid : f.data <+: s.sendBuffer ∧ (f.endStream = true → s.sendBuffer = f.data) := by
    refine ⟨⟨_, hbuffer.symm⟩, fun he => ?_⟩
    rw [hbuffer, hend he, List.append_nil]
  simp only [step, Phase.saysData, if_pos hsaid]
  rw [hbuffer, List.drop_left]

/-- Passing items leave a stream without a record without one. -/
theorem passing_reads (role : Role) (hnew : ∀ i ∈ new, i.Passing) (hp : p = .unborn ∨ p = .gone) :
    ∃ q, reads (step role) p new = some q ∧ (q = .unborn ∨ q = .gone) := by
  induction new with
  | nil => exact ⟨p, rfl, hp⟩
  | cons i new ih =>
    obtain ⟨hi, hrest⟩ := List.forall_mem_cons.1 hnew
    obtain ⟨u, hu, hphase⟩ := ih hrest
    have hone : ∃ q, step role u i = some q ∧ (q = .unborn ∨ q = .gone) := by
      unfold Item.Passing at hi
      split at hi
      · exact ⟨u, rfl, hphase⟩
      · exact ⟨u, rfl, hphase⟩
      · obtain rfl | rfl := hphase <;> exact ⟨.gone, rfl, .inr rfl⟩
      · exact hi.elim
    obtain ⟨q, hq, hphase'⟩ := hone
    exact ⟨q, reads_cons_iff.2 ⟨u, hu, hq⟩, hphase'⟩

/-- Items that may pass before a live stream is reset. -/
theorem passing_cause (role : Role) (r l : Bool) (u : Bytes) (hnew : ∀ i ∈ new, i.Passing) :
    ∃ q, reads (step role) (.live r l u) new = some q ∧ (q = .live r l u ∨ q = .aborted) := by
  induction new with
  | nil => exact ⟨_, rfl, .inl rfl⟩
  | cons i new ih =>
    obtain ⟨hi, hrest⟩ := List.forall_mem_cons.1 hnew
    obtain ⟨p, hp, hphase⟩ := ih hrest
    have hone : ∃ q, step role p i = some q ∧ (q = .live r l u ∨ q = .aborted) := by
      unfold Item.Passing at hi
      split at hi
      · exact ⟨p, rfl, hphase⟩
      · exact ⟨p, rfl, hphase⟩
      · obtain rfl | rfl := hphase <;> exact ⟨.aborted, rfl, .inr rfl⟩
      · exact hi.elim
    obtain ⟨q, hq, hphase'⟩ := hone
    exact ⟨q, reads_cons_iff.2 ⟨p, hp, hq⟩, hphase'⟩

theorem Stands.plain {i : Item} (h : Stands role record items) (hi : isPlain i = true) :
    Stands role record (i :: items) := by
  obtain ⟨p, hp, hfits⟩ := h
  exact ⟨p, reads_cons_iff.2 ⟨p, hp, plain_step hi⟩, hfits⟩

theorem Stands.pass (h : Stands role none items) (hnew : ∀ i ∈ new, i.Passing) :
    Stands role none (new ++ items) := by
  obtain ⟨p, hp, hfits⟩ := h
  obtain ⟨q, hq, hphase⟩ := passing_reads role hnew (fits_none hfits)
  refine ⟨q, reads_append_of hp hq, ?_⟩
  obtain rfl | rfl := hphase <;> rfl

theorem Stands.reset {cause : List Item} (h : Stands role (some s) items)
    (hcause : ∀ i ∈ cause, i.Passing) (code : ErrorCode) (consumed : Nat) :
    Stands role none (.event (.streamReset sid code consumed) ::
      .sent (.rstStream sid code.asU32) :: (cause ++ items)) := by
  obtain ⟨r, l, hp, _⟩ := stands_live h
  obtain ⟨q, hq, hphase⟩ := passing_cause role r l s.sendBuffer hcause
  have habort : step role q (.sent (.rstStream sid code.asU32)) = some .aborted := by
    obtain rfl | rfl := hphase <;> rfl
  refine ⟨.gone, reads_cons_iff.2 ⟨.aborted, reads_cons_iff.2 ⟨q, ?_, habort⟩, rfl⟩, rfl⟩
  exact reads_append_of hp hq

/-- A header section comes to a stream that is just opened. -/
theorem stands_first {headers : List HeaderField} {endStream : Bool} {protocol : Option Bytes}
    (h : phase role items = some .unborn) (hidle : s.state = .idle)
    (hstate : s.state.recvHeaders endStream = .ok s'.state) (hbuffer : s'.sendBuffer = [])
    (hinitial : role = .server → s'.initialHeadersReceived = true) :
    Stands role s'.kept (s'.farewell sid ++
      (.event (.headersReceived sid headers endStream protocol) :: .opened sid :: items)) := by
  have hs' : s'.state = stateOf endStream false := by
    rw [hidle] at hstate
    cases endStream <;> exact (Except.ok.inj hstate).symm
  refine kept_stands (r := endStream) (l := false) ?_ hs' hinitial
  rw [hbuffer]
  exact reads_cons_iff.2 ⟨.born, reads_cons_iff.2 ⟨.unborn, h, rfl⟩, rfl⟩

/-- Another one comes to a live stream of a client. -/
theorem Stands.next {headers : List HeaderField} {endStream : Bool} {protocol : Option Bytes}
    (h : Stands .client (some s) items) (hstate : s.state.recvHeaders endStream = .ok s'.state)
    (hbuffer : s'.sendBuffer = s.sendBuffer) : Stands .client s'.kept (s'.farewell sid ++
      (.event (.headersReceived sid headers endStream protocol) :: items)) := by
  obtain ⟨r, l, hp, hs, _⟩ := stands_live h
  rw [hs] at hstate
  obtain ⟨rfl, hs'⟩ := stateOf_recvHeaders hstate
  refine kept_stands (r := endStream) (l := l) (reads_cons_iff.2 ⟨_, hp, ?_⟩) hs' (by simp)
  rw [hbuffer]
  rfl

/-- What is queued waits. -/
theorem Stands.queue (h : Stands role (some s) items)
    (hcan : ∀ r l, s.state = stateOf r l → l = false)
    (data : Bytes) (hbuffer : s'.sendBuffer = s.sendBuffer ++ data) (hstate : s'.state = s.state)
    (hinitial : s'.initialHeadersReceived = s.initialHeadersReceived) :
    Stands role (some s') (.queued sid data :: items) := by
  obtain ⟨r, l, hp, hs, hheard⟩ := stands_live h
  obtain rfl := hcan r l hs
  have hq : phase role (.queued sid data :: items) = some (.live r false s'.sendBuffer) := by
    refine reads_cons_iff.2 ⟨_, hp, ?_⟩
    rw [hbuffer]
    rfl
  exact ⟨_, hq, s', rfl, hstate.trans hs, rfl, fun hserver => hinitial.trans (hheard hserver)⟩

theorem completeSendData_stateOf (h : s.state.completeSendData = .ok s'.state) :
    ∀ r l, s.state = stateOf r l → l = false ∧ s'.state = stateOf r true := by
  intro r l hs
  rw [hs] at h
  exact stateOf_completeSendData h

/-- Where the record was begun anew, its history has led nowhere yet. -/
theorem moves_stands {c : Core} {lab : Label} (hmoves : Moves c lab sid record new record')
    (h : Stands c.role record items)
    (hfresh : Begins c lab sid → record = none → phase c.role items = some .unborn)
    (howns : ∀ headers endStream, lab = .api (.startStream headers endStream) → sid = c.nextStreamId →
      record = none)
    (hqueued : ∀ s, record = some s → s.sendBuffer ≠ [] → s.state.canSend = true) :
    Stands c.role record' (new ++ items) := by
  cases hmoves with
  | rest => exact h
  | pass _ hitems => exact h.pass hitems
  | retune => exact h.same rfl rfl rfl
  | reset code consumed cause hcause => exact h.reset hcause code consumed
  | refuse code hblock hclosed =>
    have hunborn := hfresh (hblock.begins hclosed) rfl
    refine ⟨.gone, ?_, rfl⟩
    exact reads_cons_iff.2
      ⟨.aborted, reads_cons_iff.2 ⟨.born, reads_cons_iff.2 ⟨_, hunborn, rfl⟩, rfl⟩, rfl⟩
  | @peerReset s code =>
    obtain ⟨r, l, hp, _⟩ := stands_live h
    exact ⟨.gone, reads_cons_iff.2 ⟨_, hp, rfl⟩, rfl⟩
  | @deliver s s' f hframe hsid hstream hstate hcontent hlength hs =>
    rw [List.append_assoc]
    refine h.hear f.endStream (fun r l hstateOf => ?_) (by rw [hs]) (by rw [hs])
      fun _ => rfl
    exact stateOf_recvData (hstateOf ▸ hstate)
  | @headers s s' raw endStream _ opened protocol hblock hclosed hfinds hinitial hstate hvalid hlength
      hmatch hend hs =>
    rw [List.append_assoc, List.cons_append]
    obtain ⟨hqueue, _, _⟩ := noted_keeps c sid s raw
    have hbuffer : s'.sendBuffer = s.sendBuffer := by
      rw [hs]
      exact hqueue.sendBuffer
    have hheard : c.role = .server → s'.initialHeadersReceived = true := by
      intro hserver
      rw [hs]
      simp [hserver]
    obtain ⟨rfl, rfl⟩ | ⟨rfl, rfl, rfl⟩ := hfinds
    · cases hrole : c.role with
      | server =>
        obtain ⟨_, _, _, _, hyes⟩ := stands_live h
        cases (hyes hrole).symm.trans hinitial
      | client =>
        rw [hrole] at h
        exact h.next hstate hbuffer
    · exact stands_first (s := c.newStream sid)
        (hfresh (hblock.begins hclosed) rfl) rfl hstate hbuffer hheard
  | @trailers s s' raw hblock hclosed hinitial hvalid hstate hs =>
    rw [List.append_assoc]
    refine h.hear true (fun r l hstateOf => ?_) (by rw [hs]) (by rw [hs]) fun _ => rfl
    exact stateOf_recvHeaders (hstateOf ▸ hstate)
  | @update s increment =>
    have hsame :
        Stands c.role (some { s with flowControl := s.flowControl.addSend increment }) items :=
      h.same rfl rfl rfl
    exact hsame.plain rfl
  | @credit s increment =>
    have hsame :
        Stands c.role (some { s with flowControl := s.flowControl.addRecv increment }) items :=
      h.same rfl rfl rfl
    exact hsame.plain rfl
  | @request s _ headers endStream items' hcall hsid hrole hgoaway hmax hvalid hstate hs hitems =>
    subst hcall hsid
    obtain rfl := howns headers endStream rfl rfl
    have hunborn := hfresh (.request headers endStream hrole hgoaway hmax) rfl
    have hfields : s.sendBuffer = [] := by
      rw [hs]
      exact (requestStream_keeps _ headers).1.sendBuffer
    have hstate' : s.state = stateOf false endStream := by
      rw [hstate]
      cases endStream <;> rfl
    have hborn : phase c.role (.opened c.nextStreamId :: items) = some .born :=
      reads_cons_iff.2 ⟨_, hunborn, rfl⟩
    refine ⟨.live false endStream [], ?_, s, rfl, hstate', hfields, fun hserver => ?_⟩
    · rw [List.append_assoc]
      exact reads_append_of hborn (reads_burst hitems rfl rfl rfl)
    · cases hrole.symm.trans hserver
  | @respond s s' headers endStream items' hcall htunnel hvalid hstate hempty hfinal hs hitems =>
    rw [List.append_assoc]
    exact h.answer hstate hempty (by rw [hs]; rfl) (by rw [hs]; rfl) hitems
  | @trail s s' headers items' hcall htunnel hvalid hstate hempty hfinal hs hitems =>
    rw [List.append_assoc]
    exact h.answer hstate (fun _ => hempty) (by rw [hs]) (by rw [hs]) hitems
  | @queue s data endStream hcall hpending hcan hsome =>
    exact h.queue (fun r l hs => stateOf_canSend (hs ▸ hcan)) data rfl rfl rfl
  | @emptyEnd s s' hcall hpending hempty hstate hs =>
    rw [List.append_assoc]
    have hqueued : Stands c.role (some s) (.queued sid [] :: items) := by
      refine h.queue (fun r l hstateOf => ?_) [] (List.append_nil _).symm rfl rfl
      exact (completeSendData_stateOf hstate r l hstateOf).1
    obtain ⟨r, hp, hs', hheard⟩ := hqueued.say s' (f := ⟨sid, true, [], none⟩)
      (completeSendData_stateOf hstate) (by rw [hs]; rfl) (fun _ => by rw [hs]; exact hempty)
        (by rw [hs])
    exact kept_stands hp hs' hheard
  | @chunk s data rest hcall hbuffer hdata =>
    have hcan := hqueued s rfl (by simp [hbuffer, hdata])
    obtain ⟨r, l, hp, hs, hheard⟩ := stands_live h
    obtain rfl := stateOf_canSend (hs ▸ hcan)
    refine ⟨.live r false rest, reads_cons_iff.2 ⟨_, hp, ?_⟩, _, rfl, hs, rfl, hheard⟩
    have hprefix : data <+: s.sendBuffer ∧ (false = true → s.sendBuffer = data) :=
      ⟨⟨rest, hbuffer.symm⟩, by simp⟩
    simp only [step, Phase.saysData, if_pos hprefix]
    rw [hbuffer, List.drop_left]
  | @last s s' hcall hdata hpending hconn hstream hframe hstate hs =>
    rw [List.append_assoc]
    have hempty : s'.sendBuffer = [] := by rw [hs]
    obtain ⟨r, hp, hs', hheard⟩ := h.say s' (f := ⟨sid, true, s.sendBuffer, none⟩)
      (completeSendData_stateOf hstate) (by simp [hempty]) (fun _ => hempty) (by rw [hs])
    exact kept_stands hp hs' hheard

end

/-! ## Transitions -/

/-- Every stream stands where its history has led. -/
def Alive (c : Core) : Prop := ∀ sid, Stands c.role (c.stream? sid) (history sid c.trace)

/-- The stream was opened, or reset before that. -/
def Known (sid : Nat) (trace : List Item) : Prop := ∃ i ∈ history sid trace, marks i = true

theorem new_alive (role : Role) (limits : Limits) : Alive (Core.new role limits) :=
  fun _ => ⟨.unborn, rfl, rfl⟩

/-- The lives go on, as long as records are begun for new streams only. -/
theorem step_alive {c d : Core} {l : Label} (ht : Tidy c) (h : Alive c)
    (hfresh : ∀ sid, Begins c l sid → c.stream? sid = none → ¬ Known sid c.trace)
    (howns : ∀ headers endStream, l = .api (.startStream headers endStream) →
      c.stream? c.nextStreamId = none) (hstep : Step c l d) : Alive d := by
  intro sid
  obtain ⟨new, hnew, hmoves⟩ := hstep.moved ht sid
  rw [hnew, (Change.step hstep).role]
  refine moves_stands hmoves (h sid) (fun hbegins hnone => ?_) (fun headers endStream hl hsid => ?_)
    fun s hs => (ht.streams sid s hs).2.queued
  · obtain ⟨p, hp, _⟩ := h sid
    have hunborn : p = .unborn := by
      refine (unborn_iff hp).2 fun i hi => ?_
      by_contra hmark
      exact hfresh sid hbegins hnone ⟨i, hi, by simpa using hmark⟩
    exact hunborn ▸ hp
  · rw [hsid]
    exact howns headers endStream hl

theorem known_cons {sid : Nat} {i : Item} {trace : List Item} :
    Known sid (i :: trace) ↔ i.streamId? = some sid ∧ marks i = true ∨ Known sid trace := by
  unfold Known
  rw [history_cons]
  split
  · rename_i hsid
    simp [hsid]
  · rename_i hsid
    simp [hsid]

theorem known_append {sid : Nat} {new trace : List Item} :
    Known sid (new ++ trace) ↔ Known sid new ∨ Known sid trace := by
  unfold Known
  rw [history_append]
  simp only [List.mem_append, or_and_right, exists_or]

theorem not_known {sid : Nat} {items : List Item} (h : ∀ i ∈ items, marks i = false) :
    ¬ Known sid items := by
  rintro ⟨i, hi, hmark⟩
  cases (h i (List.mem_filter.1 hi).1).symm.trans hmark

theorem burst_marks {sid : Nat} {headers : List HeaderField} {endStream : Bool} {items : List Item}
    (h : Burst sid headers endStream items) : ∀ i ∈ items, marks i = false := by
  obtain ⟨f, fs, _, _, hfs, rfl⟩ := h
  intro i hi
  simp only [List.mem_append, List.mem_reverse, List.mem_map, List.mem_cons, List.not_mem_nil,
    or_false] at hi
  obtain ⟨g, hg, rfl⟩ | rfl | rfl := hi
  · obtain ⟨cf, rfl, _⟩ := hfs g hg
    rfl
  · rfl
  · rfl

theorem sendBlock_known {c : Core} {sid sid' : Nat} {headers : List HeaderField} {endStream : Bool} :
    Known sid (c.sendBlock sid' headers endStream).trace ↔ Known sid c.trace := by
  obtain ⟨items, hitems, htrace⟩ := sendBlock_burst c sid' headers endStream
  rw [htrace, known_append]
  exact or_iff_right (not_known (burst_marks hitems))

theorem closeIf_known {c : Core} {sid sid' : Nat} {closed : Bool} :
    Known sid (c.closeIf sid' closed).trace ↔ Known sid c.trace := by
  unfold Core.closeIf
  split
  · simp [known_cons, marks]
  · rfl

/-- A frame makes a stream known that it begins, or resets. -/
theorem frame_known {c d : Core} {l : Label} {sid : Nat} (hstep : Step c l d)
    (hknown : Known sid d.trace) :
    Known sid c.trace ∨ Begins c l sid ∨ ∃ code, Sends c l (.rstStream sid code) := by
  obtain ⟨new, heq, hnew⟩ := step_extends hstep
  rw [heq, known_append, known_append] at hknown
  obtain ⟨i, hi, hmark⟩ | hcause | hknown := hknown
  · obtain ⟨hin, hsid⟩ := List.mem_filter.1 hi
    have hrecords := hnew i hin
    unfold marks at hmark
    split at hmark
    · rename_i sid'
      obtain rfl : sid' = sid := by simpa [Item.streamId?] using hsid
      exact .inr (.inl hrecords)
    · rename_i sid' code
      obtain rfl : sid' = sid := by simpa [Item.streamId?] using hsid
      exact .inr (.inr ⟨code, hrecords⟩)
    · cases hmark
  · refine absurd hcause (not_known fun i hi => ?_)
    cases l <;> simp [Label.cause] at hi <;> simp [hi, marks]
  · exact .inl hknown

/-- Anything else makes a stream known by a request or by a reset. -/
theorem call_known {c d : Core} {l : Label} {sid : Nat} (hstep : Step c l d) (hl : ∀ f, l ≠ .frame f)
    (hknown : Known sid d.trace) : Known sid c.trace ∨
      (∃ headers endStream, l = .api (.startStream headers endStream) ∧ sid = c.nextStreamId) ∨
      (∃ code, l = .api (.resetStream sid code)) ∨ l = .refusal sid := by
  cases hstep with
  | calm h =>
    cases h with
    | notify e => exact .inl (by simpa [known_cons, marks] using hknown)
    | activate => exact .inl hknown
    | pong | announce | ping | credit | creditStream | creditGone =>
      exact .inl (by simpa [known_cons, marks] using hknown)
    | goaway => exact .inl (by simpa [known_cons, marks] using hknown)
    | reset sid' code =>
      simp only [Core.resetWith, Core.dropStream_trace, Core.log_trace, known_cons, Item.streamId?,
        marks, Option.some.injEq] at hknown
      obtain ⟨_, hfalse⟩ | ⟨rfl, _⟩ | hknown := hknown
      · cases hfalse
      · exact .inr (.inr (.inl ⟨code, rfl⟩))
      · exact .inl hknown
    | resetGone sid' code =>
      simp only [Core.log_trace, known_cons, Item.streamId?, marks, Option.some.injEq] at hknown
      obtain ⟨rfl, _⟩ | hknown := hknown
      · exact .inr (.inr (.inl ⟨code, rfl⟩))
      · exact .inl hknown
    | reject sid' code =>
      simp only [Core.resetWith, Core.dropStream_trace, Core.log_trace, known_cons, Item.streamId?,
        marks, Option.some.injEq] at hknown
      obtain ⟨_, hfalse⟩ | ⟨rfl, _⟩ | ⟨_, hfalse⟩ | hknown := hknown
      · cases hfalse
      · exact .inr (.inr (.inr rfl))
      · cases hfalse
      · exact .inl hknown
    | rejectGone sid' code =>
      simp only [Core.log_trace, known_cons, Item.streamId?, marks, Option.some.injEq] at hknown
      obtain ⟨rfl, _⟩ | ⟨_, hfalse⟩ | hknown := hknown
      · exact .inr (.inr (.inr rfl))
      · cases hfalse
      · exact .inl hknown
    | respond | trail => exact .inl (by simpa [closeIf_known, sendBlock_known] using hknown)
    | _ => exact absurd rfl (hl _)
  | wake => exact absurd rfl (hl _)
  | emit h =>
    cases h with
    | chunk => exact .inl (by simpa [known_cons, marks, Core.chargeSend] using hknown)
    | last => exact .inl (by simpa [closeIf_known, known_cons, marks, Core.chargeSend] using hknown)
  | @start headers endStream _ h =>
    cases h with
    | request s =>
      simp only [sendBlock_known, Core.openStream, Core.putStream_trace, Core.log_trace, known_cons,
        Item.streamId?, Option.some.injEq] at hknown
      obtain ⟨rfl, _⟩ | hknown := hknown
      · exact .inr (.inl ⟨headers, endStream, rfl, rfl⟩)
      · exact .inl hknown
  | push h =>
    cases h with
    | queue => exact .inl (by simpa [known_cons, marks] using hknown)
    | emptyEnd => exact .inl (by simpa [closeIf_known, known_cons, marks] using hknown)

/-- What a transition adds to the history of a stream is what it adds to that of the connection. -/
theorem mem_moved {c d : Core} {l : Label} {sid : Nat} {new moved : List Item} {i : Item}
    (heq : d.trace = new ++ (l.cause ++ c.trace))
    (hmoved : history sid d.trace = moved ++ history sid c.trace)
    (hi : i ∈ new) (hsid : i.streamId? = some sid) : i ∈ moved := by
  rw [heq, history_append, history_append, ← List.append_assoc] at hmoved
  rw [← List.append_cancel_right hmoved]
  exact List.mem_append_left _ (List.mem_filter.2 ⟨hi, by simp [hsid]⟩)

/-- The application hears of the end of a stream when the frame that ends it has come. -/
theorem step_hears {c d : Core} {l : Label} {sid : Nat} {new : List Item} {i : Item} (ht : Tidy c)
    (hstep : Step c l d) (heq : d.trace = new ++ (l.cause ++ c.trace)) (hi : i ∈ new)
    (hsid : i.streamId? = some sid) (hends : hearsEnd i = true) :
    (∃ f, l = .frame (.data f) ∧ f.streamId = sid ∧ f.endStream = true) ∨
      ∃ raw, Completes c l sid raw true := by
  obtain ⟨moved, hmoved, hmoves⟩ := hstep.moved ht sid
  have hin : i ∈ moved := mem_moved heq hmoved hi hsid
  clear hmoved
  have hfarewell : ∀ s : Stream, i ∉ s.farewell sid := by
    intro s hmem
    unfold Stream.farewell at hmem
    split at hmem
    · obtain rfl := List.mem_singleton.1 hmem
      cases hends
    · cases hmem
  have hpassing : ∀ items : List Item, (∀ j ∈ items, j.Passing) → i ∉ items := by
    intro items hitems hmem
    have hpass := hitems i hmem
    unfold Item.Passing at hpass
    split at hpass
    · cases hends
    · cases hends
    · cases hends
    · exact hpass
  have hburst : ∀ {headers : List HeaderField} {endStream : Bool} {items : List Item},
      Burst sid headers endStream items → i ∉ items := by
    rintro _ _ _ ⟨f, fs, _, _, _, rfl⟩ hmem
    simp only [List.mem_append, List.mem_reverse, List.mem_map, List.mem_cons, List.not_mem_nil,
      or_false] at hmem
    obtain ⟨g, _, rfl⟩ | rfl | rfl := hmem <;> cases hends
  generalize c.stream? sid = old, d.stream? sid = next at hmoves
  cases hmoves with
  | rest | retune => cases hin
  | pass _ hitems => exact absurd hin (hpassing _ hitems)
  | reset code consumed cause hcause =>
    obtain rfl | rfl | hin := by simpa using hin
    · cases hends
    · cases hends
    · exact absurd hin (hpassing _ hcause)
  | refuse =>
    obtain rfl | rfl | rfl := by simpa using hin
    all_goals cases hends
  | peerReset | update | credit | queue | chunk =>
    obtain rfl := List.mem_singleton.1 hin
    cases hends
  | deliver f hl hfsid =>
    obtain hin | hin := List.mem_append.1 hin
    · exact absurd hin (hfarewell _)
    · obtain rfl := List.mem_singleton.1 hin
      exact .inl ⟨f, hl, hfsid, hends⟩
  | headers protocol hblock _ hfinds =>
    obtain hin | hin := List.mem_append.1 hin
    · exact absurd hin (hfarewell _)
    · obtain rfl | hin := List.mem_cons.1 hin
      · obtain rfl : _ = true := hends
        exact .inr ⟨_, hblock⟩
      · obtain ⟨_, rfl⟩ | ⟨_, _, rfl⟩ := hfinds
        · cases hin
        · obtain rfl := List.mem_singleton.1 hin
          cases hends
  | trailers hblock => exact .inr ⟨_, hblock⟩
  | request _ _ _ _ _ _ _ _ hitems =>
    obtain hin | hin := List.mem_append.1 hin
    · exact absurd hin (hburst hitems)
    · obtain rfl := List.mem_singleton.1 hin
      cases hends
  | respond _ _ _ _ _ _ _ hitems | trail _ _ _ _ _ _ _ hitems =>
    obtain hin | hin := List.mem_append.1 hin
    · exact absurd hin (hfarewell _)
    · exact absurd hin (hburst hitems)
  | emptyEnd =>
    obtain hin | hin := List.mem_append.1 hin
    · exact absurd hin (hfarewell _)
    · obtain rfl | rfl := by simpa using hin
      all_goals cases hends
  | last =>
    obtain hin | hin := List.mem_append.1 hin
    · exact absurd hin (hfarewell _)
    · obtain rfl := List.mem_singleton.1 hin
      cases hends

end Life

end Http2
