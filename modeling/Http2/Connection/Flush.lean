import Http2.Connection.Tidy

/-! Sending what is queued: `flush_stream_data` and its callers run through `Emit` transitions and
leave the streams they flush drained. -/
namespace Http2

open Hpack Lib Lib.Prog Connection

/-! ## Rules for the operations -/

section Rules

variable {c : Connection}

@[simp] theorem setCore_toCore (core : Core) : (c.setCore core).toCore = core := rfl

@[simp] theorem addEvent_toCore (e : Event) : (c.addEvent e).toCore = c.toCore.log (.event e) := rfl

@[simp] theorem addOutput_toCore (f : Frame) (bytes : Bytes) :
    (c.addOutput f bytes).toCore = c.toCore.log (.sent f) := rfl

variable {Q : Except Error Unit → Connection → Prop}

@[simp] theorem ensures_update {g : Core → Core} :
    Ensures (update g) c Q ↔ Q (.ok ()) (c.setCore (g c.toCore)) := Iff.rfl

@[simp] theorem ensures_pushEvent {e : Event} :
    Ensures (pushEvent e) c Q ↔ Q (.ok ()) (c.addEvent e) := Iff.rfl

theorem ensures_sendFrame {f : Frame} {bytes : Bytes} (h : f.encode = .ok bytes) :
    Ensures (sendFrame f) c Q ↔ Q (.ok ()) (c.addOutput f bytes) := by
  unfold sendFrame
  rw [h]
  exact Iff.rfl

@[simp] theorem ensures_sendData {f : DataFrame} :
    Ensures (sendFrame (.data f)) c Q ↔ Q (.ok ()) (c.addOutput (.data f) f.encode) :=
  ensures_sendFrame rfl

/-- `closeStream` and `closeIf` do to the core what the transitions say. -/
theorem ensures_closeIf {sid : Nat} {closed : Bool}
    (h : ∀ c', c'.toCore = c.toCore.closeIf sid closed → Q (.ok ()) c') :
    Ensures (Connection.closeIf sid closed) c Q := by
  cases closed with
  | true => exact h _ rfl
  | false => exact h _ rfl

end Rules

/-! ## One stream -/

/-- Nothing is left to send, so the stream goes if END_STREAM closed it. -/
def Flushed (c : Core) (sid : Nat) (e : Core) : Prop :=
  ∃ s, e.stream? sid = some s ∧ s.sendBuffer = [] ∧ s.pendingEndStream = false ∧
    Emit c (e.closeIf sid s.state.isClosed)

/-- The octets that wait on a stream. -/
def queuedLength (c : Core) (sid : Nat) : Nat := ((c.stream? sid).map (·.sendBuffer.length)).getD 0

/-- How a turn of the flush loop ends. -/
def TurnSpec (c : Core) (sid : Nat) (r : Except Error Turn) (e : Core) : Prop :=
  match r with
  | .ok .done => e = c ∧ Drained c sid
  | .ok .again => Emit c e ∧ queuedLength e sid < queuedLength c sid
  | .ok .leave => Flushed c sid e
  | .error _ => False

/-- The size of a chunk is within both windows and within a frame. -/
theorem available_le {c : Core} {s : Stream} {size : Nat}
    (h : size ≤ min (min c.flowControl.sendAvailable s.flowControl.sendAvailable)
      c.remoteSettings.maxFrameSize) (hpos : size ≠ 0) :
    (size : Int) ≤ c.flowControl.sendWindow ∧ (size : Int) ≤ s.flowControl.sendWindow ∧
      size ≤ c.remoteSettings.maxFrameSize := by
  simp only [FlowControl.sendAvailable] at h
  omega

theorem consumeSend_ok {fc : FlowControl} {size : Nat} {maxFrameSize : MaxFrameSize}
    (hframe : size ≤ maxFrameSize) (hwindow : (size : Int) ≤ fc.sendWindow) :
    fc.consumeSend size = .ok (fc.addSend (-size)) := by
  apply FlowControl.consumeSend_eq_ok.2
  refine ⟨⟨?_, hwindow⟩, rfl⟩
  have hmax := maxFrameSize.2.2
  simp only [isizeMax]
  omega

theorem drained_of_unavailable {c : Core} {sid : Nat} {s : Stream} (hlive : c.stream? sid = some s)
    (h : min (min c.flowControl.sendAvailable s.flowControl.sendAvailable)
      c.remoteSettings.maxFrameSize = 0) : Drained c sid := by
  intro s' hlive' _
  obtain rfl : s = s' := Option.some.inj (hlive.symm.trans hlive')
  have hframe := c.remoteSettings.maxFrameSize.2.1
  omega

theorem flushTurn_spec (sid : Nat) {c : Connection} (ht : Tidy c.toCore) :
    Ensures (flushTurn sid) c fun r c' => TurnSpec c.toCore sid r c'.toCore := by
  simp only [flushTurn, ensures_bind, ensures_get]
  cases hlive : c.stream? sid with
  | none =>
    refine ⟨rfl, fun s hs => ?_⟩
    rw [hlive] at hs
    cases hs
  | some s =>
    obtain ⟨_, htidy⟩ := ht.streams sid s hlive
    by_cases hempty : s.sendBuffer = []
    · have hpending : s.pendingEndStream = false := by
        by_contra hp
        exact htidy.pending (by simpa using hp) hempty
      simp only [hempty, List.isEmpty_nil, if_true, hpending, Bool.false_eq_true, if_false,
        ensures_pure]
      refine ⟨rfl, fun s' hs' hne => ?_⟩
      obtain rfl : s = s' := Option.some.inj (hlive.symm.trans hs')
      exact absurd hempty hne
    · by_cases havail : min (min c.flowControl.sendAvailable s.flowControl.sendAvailable)
          c.remoteSettings.maxFrameSize = 0
      · simp only [List.isEmpty_iff, hempty, havail, if_true, if_false, ensures_pure]
        exact ⟨rfl, drained_of_unavailable hlive havail⟩
      · simp only [List.isEmpty_iff, hempty, havail, if_false, SendBuffer.pop, ensures_bind,
          ensures_update, setCore_toCore, ensures_lift]
        generalize hsize : min s.sendBuffer.length (min (min c.flowControl.sendAvailable
          s.flowControl.sendAvailable) c.remoteSettings.maxFrameSize) = size
        have hlen : 0 < s.sendBuffer.length := List.length_pos_of_ne_nil hempty
        have hpos : size ≠ 0 := by omega
        have htake : (s.sendBuffer.take size).length = size := by
          rw [List.length_take]
          omega
        have hle : size ≤ min (min c.flowControl.sendAvailable s.flowControl.sendAvailable)
            c.remoteSettings.maxFrameSize := by omega
        obtain ⟨hconn, hstream, hframe⟩ := available_le hle hpos
        rw [htake, consumeSend_ok hframe hconn]
        simp only [consumeSend_ok hframe hstream, Core.putStream_setFlow, Core.putStream_putStream]
        by_cases hlast : s.pendingEndStream = true ∧ s.sendBuffer.drop size = []
        · obtain ⟨hpending, hrest⟩ := hlast
          have hall : s.sendBuffer.take size = s.sendBuffer :=
            List.take_of_length_le (List.drop_eq_nil_iff.1 hrest)
          obtain ⟨state, hstate⟩ := completeSendData_ok (htidy.queued hempty)
          rw [hall] at htake
          simp only [hpending, hrest, hall, List.isEmpty_nil, Bool.and_self, if_true, ensures_bind,
            ensures_lift, hstate, ensures_update, setCore_toCore, Core.putStream_putStream,
            ensures_sendData, ensures_pure, addOutput_toCore]
          refine ⟨_, lookup_insert_ite _ _ _ _ |>.trans (if_pos rfl), rfl, rfl, ?_⟩
          subst htake
          exact .last sid hlive hempty hpending hconn hstream hframe hstate
        · have hnot : (s.pendingEndStream && (s.sendBuffer.drop size).isEmpty) = false := by
            rw [Bool.and_eq_false_iff, ← Bool.not_eq_true, ← Bool.not_eq_true, List.isEmpty_iff]
            exact not_and_or.1 hlast
          simp only [hnot, Bool.false_eq_true, if_false, ensures_bind, ensures_sendData,
            ensures_pure, addOutput_toCore, setCore_toCore]
          have hdata : s.sendBuffer.take size ≠ [] := List.ne_nil_of_length_pos (by omega)
          have hemit := Emit.chunk sid (s.sendBuffer.take size) (s.sendBuffer.drop size) hlive
            (List.take_append_drop _ _).symm hdata (by rwa [htake]) (by rwa [htake]) (by rwa [htake])
            fun hpending hrest => hlast ⟨hpending, hrest⟩
          rw [htake] at hemit
          by_cases hrest : s.sendBuffer.drop size = []
          · rw [if_pos hrest]
            have hpending : s.pendingEndStream = false := by
              by_contra hp
              exact hlast ⟨by simpa using hp, hrest⟩
            refine ⟨_, lookup_insert_ite _ _ _ _ |>.trans (if_pos rfl), hrest, hpending, ?_⟩
            simpa only [Core.closeIf, htidy.notClosed, Bool.false_eq_true, if_false] using! hemit
          · rw [if_neg hrest]
            refine ⟨hemit, ?_⟩
            simp only [queuedLength, hlive, Core.stream?_eq, Core.log_streams, Core.putStream_streams,
              AList.lookup_insert, Option.map_some, Option.getD_some, List.length_drop]
            omega

/-! ## The loop -/

/-- How the flush loop ends. -/
def LoopSpec (c : Core) (sid : Nat) (r : Except Error Turn) (e : Core) : Prop :=
  match r with
  | .ok .done => Emits c e ∧ Drained e sid
  | .ok .leave => ∃ d, Emits c d ∧ Flushed d sid e
  | _ => False

/-- What a loop does that begins with sending. -/
theorem LoopSpec.head {c d e : Core} {sid : Nat} {r : Except Error Turn} (h : LoopSpec d sid r e)
    (hemit : Emit c d) : LoopSpec c sid r e := by
  cases r with
  | error err => exact absurd h id
  | ok turn =>
    cases turn with
    | done =>
      obtain ⟨hemits, hdrained⟩ := h
      exact ⟨.head hemit hemits, hdrained⟩
    | leave =>
      obtain ⟨d', hemits, hflushed⟩ := h
      exact ⟨d', .head hemit hemits, hflushed⟩
    | again => exact absurd h id

theorem emits_tidy {c d : Core} (h : Tidy c) (hemits : Emits c d) : Tidy d := by
  induction hemits with
  | refl => exact h
  | tail _ hemit ih => exact emit_tidy ih hemit

theorem flushLoop_spec (sid fuel : Nat) {c : Connection} (ht : Tidy c.toCore)
    (hfuel : queuedLength c.toCore sid < fuel) :
    Ensures (flushLoop sid fuel) c fun r c' => LoopSpec c.toCore sid r c'.toCore := by
  induction fuel generalizing c with
  | zero => omega
  | succ fuel ih =>
    simp only [flushLoop, ensures_bind]
    apply ensures_mono (flushTurn_spec sid ht)
    intro r c' hturn
    cases r with
    | error e => exact absurd hturn id
    | ok turn =>
      cases turn with
      | done =>
        obtain ⟨heq, hdrained⟩ := hturn
        rw [← heq] at hdrained
        exact ⟨heq ▸ .refl, hdrained⟩
      | leave => exact ⟨_, .refl, hturn⟩
      | again =>
        obtain ⟨hemit, hless⟩ := hturn
        apply ensures_mono (ih (emit_tidy ht hemit) (by omega))
        intro r' c'' hloop
        exact hloop.head hemit

theorem drained_of_flushed {c : Core} {sid : Nat} {s : Stream} (hlive : c.stream? sid = some s)
    (hempty : s.sendBuffer = []) : Drained c sid := by
  intro s' hlive' hne
  obtain rfl : s = s' := Option.some.inj (hlive.symm.trans hlive')
  exact absurd hempty hne

/-- A flushed stream that END_STREAM closed reports it and goes. -/
theorem tryRemove_flushed {sid : Nat} {d : Core} {c : Connection} (h : Flushed d sid c.toCore) :
    Ensures (tryRemoveClosedStream sid) c fun r c' =>
      r = .ok () ∧ Emit d c'.toCore ∧ Drained c'.toCore sid := by
  obtain ⟨s, hlive, hempty, hpending, hemit⟩ := h
  simp only [tryRemoveClosedStream, ensures_bind, ensures_get, hlive]
  cases hclosed : s.state.isClosed with
  | true =>
    simp only [hempty, hpending, List.isEmpty_nil, Bool.and_self, Bool.not_false, if_true]
    rw [hclosed] at hemit
    refine ⟨rfl, hemit, fun s' hs' => ?_⟩
    have hgone : (c.toCore.dropStream sid).stream? sid = none := by simp
    cases hgone.symm.trans hs'
  | false =>
    rw [hclosed] at hemit
    simp only [Bool.false_and, Bool.false_eq_true, if_false, ensures_pure]
    exact ⟨trivial, hemit, drained_of_flushed hlive hempty⟩

/-- What flushing a stream and letting it go comes to. -/
def FlushSpec (c : Core) (sid : Nat) (r : Except Error Unit) (c' : Connection) : Prop :=
  r = .ok () ∧ Emits c c'.toCore ∧ Drained c'.toCore sid

theorem flushAndRemove_spec (sid : Nat) {c : Connection} (ht : Tidy c.toCore) :
    Ensures (flushAndRemove sid) c (FlushSpec c.toCore sid) := by
  simp only [flushAndRemove, flushStreamData, ensures_bind, ensures_get]
  apply ensures_mono (flushLoop_spec sid _ ht (Nat.lt_succ_self _))
  intro r c' hloop
  cases r with
  | error e => exact absurd hloop id
  | ok turn =>
    cases turn with
    | done =>
      obtain ⟨hemits, hdrained⟩ := hloop
      have ht' := emits_tidy ht hemits
      simp only [ensures_pure, tryRemoveClosedStream, ensures_bind, ensures_get]
      cases hlive : c'.stream? sid with
      | none => exact ⟨rfl, hemits, hdrained⟩
      | some s =>
        simp only [(ht'.streams sid s hlive).2.notClosed, Bool.false_and, Bool.false_eq_true,
          if_false, ensures_pure]
        exact ⟨rfl, hemits, hdrained⟩
    | leave =>
      obtain ⟨d, hemits, hflushed⟩ := hloop
      obtain ⟨s, hlive, hempty, hpending, _⟩ := id hflushed
      simp only [flushEnd, ensures_bind, ensures_get, hlive, hpending, Bool.false_and,
        Bool.false_eq_true, if_false, ensures_pure]
      apply ensures_mono (tryRemove_flushed hflushed)
      rintro r c'' ⟨hr, hemit, hdrained⟩
      exact ⟨hr, hemits.tail hemit, hdrained⟩
    | again => exact absurd hloop id

/-! ## Every stream -/

theorem Drained.mono {c c' : Core} {sid : Nat} (h : Drained c sid)
    (hconn : c'.flowControl.sendWindow ≤ c.flowControl.sendWindow)
    (hstream : ∀ s', c'.stream? sid = some s' → s'.sendBuffer ≠ [] →
      ∃ s, c.stream? sid = some s ∧ s.sendBuffer ≠ [] ∧
        s'.flowControl.sendWindow ≤ s.flowControl.sendWindow) : Drained c' sid := by
  intro s' hlive' hne'
  obtain ⟨s, hlive, hne, hwindow⟩ := hstream s' hlive' hne'
  have hdry := h s hlive hne
  simp only [FlowControl.sendAvailable] at hdry ⊢
  omega

/-- Sending only lowers windows and shortens queues. -/
theorem emit_drained {c c' : Core} {sid : Nat} (h : Drained c sid) (hemit : Emit c c') :
    Drained c' sid := by
  cases hemit with
  | @chunk s sid' data rest hlive hbuffer hdata _ _ _ _ =>
    apply h.mono
    · simp [Core.chargeSend]
    · intro s' hlive' hne'
      simp only [Core.stream?_eq, Core.log_streams, Core.putStream_streams, lookup_insert_ite] at hlive'
      by_cases heq : sid = sid'
      · obtain rfl := Option.some.inj ((if_pos heq).symm.trans hlive')
        refine ⟨s, heq ▸ hlive, ?_, by simp⟩
        rw [hbuffer]
        simp [hdata]
      · exact ⟨s', (if_neg heq).symm.trans hlive', hne', Int.le_refl _⟩
  | @last s state sid' hlive _ _ _ _ _ _ =>
    apply h.mono
    · simp [Core.chargeSend]
    · intro s' hlive' hne'
      simp only [Core.stream?_eq, Core.closeIf_lookup, Core.log_streams, Core.putStream_streams,
        lookup_insert_ite] at hlive'
      by_cases heq : sid = sid'
      · cases hclosed : state.isClosed with
        | true => simp [heq, hclosed] at hlive'
        | false =>
          simp only [heq, hclosed, Bool.false_eq_true, and_false, if_false, if_true,
            Option.some.injEq] at hlive'
          rw [← hlive'] at hne'
          exact absurd rfl hne'
      · simp only [heq, false_and, if_false] at hlive'
        exact ⟨s', hlive', hne', Int.le_refl _⟩

theorem emits_drained {c c' : Core} {sid : Nat} (h : Drained c sid) (hemits : Emits c c') :
    Drained c' sid := by
  induction hemits with
  | refl => exact h
  | tail _ hemit ih => exact emit_drained ih hemit

theorem flushEach_spec (sids : List Nat) {c : Connection} (ht : Tidy c.toCore) :
    Ensures (flushEach sids) c fun r c' =>
      r = .ok () ∧ Emits c.toCore c'.toCore ∧ ∀ sid ∈ sids, Drained c'.toCore sid := by
  induction sids generalizing c with
  | nil => exact ⟨rfl, .refl, by simp⟩
  | cons sid sids ih =>
    simp only [flushEach, ensures_bind]
    apply ensures_mono (flushAndRemove_spec sid ht)
    rintro r c' ⟨rfl, hemits, hdrained⟩
    apply ensures_mono (ih (emits_tidy ht hemits))
    rintro r c'' ⟨rfl, hemits', hdrained'⟩
    refine ⟨rfl, hemits.trans hemits', fun sid' hsid' => ?_⟩
    obtain rfl | hin := List.mem_cons.1 hsid'
    · exact emits_drained hdrained hemits'
    · exact hdrained' sid' hin

/-- Whatever the order of the map, no stream is left that could still send. -/
theorem flushAllStreamData_spec (it : IterOrder) {c : Connection} (ht : Tidy c.toCore) :
    Ensures (flushAllStreamData it) c fun r c' =>
      r = .ok () ∧ Emits c.toCore c'.toCore ∧ ∀ sid, Drained c'.toCore sid := by
  simp only [flushAllStreamData, ensures_bind, ensures_get]
  apply ensures_mono (flushEach_spec _ ht)
  rintro r c' ⟨rfl, hemits, hdrained⟩
  refine ⟨rfl, hemits, fun sid => ?_⟩
  cases hlive : c.stream? sid with
  | none =>
    refine emits_drained (fun s hs => ?_) hemits
    cases hlive.symm.trans hs
  | some s =>
    by_cases hempty : s.sendBuffer = []
    · exact emits_drained (drained_of_flushed hlive hempty) hemits
    · apply hdrained
      rw [List.mem_filter]
      constructor
      · rw [(it.perm _ _).mem_iff, ← AList.mem_keys, ← AList.lookup_isSome]
        simp only [Core.stream?_eq] at hlive
        simp [hlive]
      · rw [hlive]
        simp [hempty]

/-! ## END_STREAM without data -/

/-- With END_STREAM queued behind nothing the loop breaks at once. -/
theorem flushLoop_pendingEmpty {sid fuel : Nat} {s : Stream} {c : Connection}
    {Q : Except Error Turn → Connection → Prop} (hlive : c.stream? sid = some s)
    (hempty : s.sendBuffer = []) (hpending : s.pendingEndStream = true) (hQ : Q (.ok .leave) c) :
    Ensures (flushLoop sid (fuel + 1)) c Q := by
  simp only [flushLoop, flushTurn, ensures_bind, ensures_get]
  rw [hlive]
  simp only [hempty, hpending, List.isEmpty_nil, if_true, ensures_pure]
  exact hQ

theorem flushEnd_pendingEmpty {sid : Nat} {s : Stream} {state : StreamState} {c : Connection}
    {Q : Except Error Unit → Connection → Prop} (hlive : c.stream? sid = some s)
    (hempty : s.sendBuffer = []) (hpending : s.pendingEndStream = true)
    (hstate : s.state.completeSendData = .ok state)
    (hQ : ∀ c', c'.toCore = (c.toCore.putStream sid { s with
        pendingEndStream := false, state := state }).log (.sent (.data ⟨sid, true, [], none⟩)) →
      Q (.ok ()) c') :
    Ensures (flushEnd sid) c Q := by
  simp only [flushEnd, ensures_bind, ensures_get]
  rw [hlive]
  simp only [hempty, hpending, List.isEmpty_nil, Bool.and_self, if_true, ensures_bind, ensures_update,
    ensures_lift, hstate, ensures_sendData, setCore_toCore, Core.putStream_putStream]
  apply hQ
  rw [addOutput_toCore, setCore_toCore, ← hempty]

/-- A queue that holds nothing but END_STREAM is flushed at once. -/
theorem flushAndRemove_emptyEnd {sid : Nat} {s : Stream} {state : StreamState} {c : Connection}
    {Q : Except Error Unit → Connection → Prop} (hlive : c.stream? sid = some s)
    (hempty : s.sendBuffer = []) (hpending : s.pendingEndStream = true)
    (hstate : s.state.completeSendData = .ok state)
    (hQ : ∀ c', c'.toCore = ((c.toCore.putStream sid { s with
        pendingEndStream := false, state := state }).log
          (.sent (.data ⟨sid, true, [], none⟩))).closeIf sid state.isClosed → Q (.ok ()) c') :
    Ensures (flushAndRemove sid) c Q := by
  simp only [flushAndRemove, flushStreamData, ensures_bind, ensures_get]
  apply flushLoop_pendingEmpty hlive hempty hpending
  apply flushEnd_pendingEmpty hlive hempty hpending hstate
  intro c' hc'
  have hlive' : c'.stream? sid = some { s with pendingEndStream := false, state := state } := by
    simp [hc']
  simp only [tryRemoveClosedStream, ensures_bind, ensures_get]
  rw [hlive']
  cases hclosed : state.isClosed with
  | true =>
    simp only [hclosed, hempty, List.isEmpty_nil, Bool.and_self, Bool.not_false, if_true]
    apply hQ
    rw [← hc', hclosed]
    rfl
  | false =>
    simp only [hclosed, Bool.false_and, Bool.false_eq_true, if_false, ensures_pure]
    apply hQ
    rw [← hc', hclosed]
    rfl

end Http2
