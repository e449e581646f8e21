import Http2.Connection.Admission
import Http2.Connection.Fragments

/-! What HEADERS note of their stream is used up when their block ends, however many frames it takes and
whatever is called in between. -/
namespace Http2

open Hpack Lib Lib.Prog Connection

namespace Marks

/-- The stream has no record, and no call gives it one. -/
structure Vacant (c : Core) (sid : Nat) : Prop where
  unused : ¬ c.Used sid
  begun : c.role = .client → sid < c.nextStreamId

/-- Between two blocks nothing is noted. Within one at most the limit on streams is, and then its stream
has no record, or the tunnel is. -/
structure Marked (c : Connection) : Prop where
  idle : c.headerContinuationStream = none → c.headerFields = .idle
  refused : ∀ sid, c.headerContinuationStream = some sid → c.headerConcurrentLimitExceeded = true →
    c.connectEstablishedHeadersReceived = false ∧ Vacant c.toCore sid

/-- The peer of a client sends HEADERS only for streams that the client has begun. -/
def answers : Terms where
  frame c f :=
    match f with
    | .headers f => c.role = .client → f.streamId < c.nextStreamId
    | _ => True
  refusal _ _ := True
  api _ _ := True

instance (c : Core) : (f : Frame) → Decidable (answers.frame c f)
  | .headers f => inferInstanceAs (Decidable (c.role = .client → f.streamId < c.nextStreamId))
  | .data _ | .priority _ _ | .rstStream _ _ | .settings _ | .pushPromise _ | .ping _ _ | .goaway _
  | .windowUpdate _ _ | .continuation _ | .priorityUpdate _ _ | .unknown _ _ =>
    inferInstanceAs (Decidable True)

instance (c : Core) (sid : Nat) : Decidable (answers.refusal c sid) := inferInstanceAs (Decidable True)

instance (c : Core) (k : Call) : Decidable (answers.api c k) := inferInstanceAs (Decidable True)

/-- No frame is received. -/
def deaf : Terms where
  frame _ _ := False
  refusal _ _ := True
  api _ _ := True

/-! ## Calls -/

section

variable {c d : Core} {sid : Nat}

theorem change_next {l : Label} (h : Change c l d) : c.nextStreamId ≤ d.nextStreamId := by
  have hturns := h.turns
  rw [← d.status_nextStreamId, ← c.status_nextStreamId]
  generalize d.status = status at hturns
  cases hturns with
  | request => exact Nat.le_add_right _ _
  | same | activate | peerGoaway | goaway | settings | beginBlock | wholeBlock | endBlock =>
    exact Nat.le_refl _

theorem settles_vacant (hc : Vacant c sid) (h : Settles deaf c d) : Vacant d sid := by
  cases h with
  | @change l _ hl hchange =>
    refine ⟨fun hused => ?_, fun hclient => ?_⟩
    · obtain hused | hbegins := hchange.touches.used hused
      · exact hc.unused hused
      · cases hbegins with
        | request headers endStream hrole => exact Nat.lt_irrefl _ (hc.begun hrole)
        | whole f | last f => exact hl.2
    · rw [hchange.role] at hclient
      exact Nat.lt_of_lt_of_le (hc.begun hclient) (change_next hchange)
  | refuse f hl => exact hl.elim
  | overrun f => exact ⟨hc.unused, hc.begun⟩

theorem settlesAll_vacant (hc : Vacant c sid) (h : Relation.ReflTransGen (Settles deaf) c d) :
    Vacant d sid := by
  induction h with
  | refl => exact hc
  | tail _ hstep ih => exact settles_vacant ih hstep

end

section

variable {c d : Connection} {sid : Nat}

theorem marked_of_idle (h : c.headerFields = .idle) : Marked c := by
  have hcont : c.headerContinuationStream = none := congrArg HeaderFields.headerContinuationStream h
  refine ⟨fun _ => h, fun sid hopen => ?_⟩
  cases hcont.symm.trans hopen

/-- What leaves header blocks alone, and gives no stream a record that is not the application's. -/
theorem Marked.kept (hc : Marked c) (hfields : d.headerFields = c.headerFields)
    (hsettles : Relation.ReflTransGen (Settles deaf) c.toCore d.toCore) : Marked d := by
  have hcont : d.headerContinuationStream = c.headerContinuationStream :=
    congrArg HeaderFields.headerContinuationStream hfields
  have hlimit : d.headerConcurrentLimitExceeded = c.headerConcurrentLimitExceeded :=
    congrArg HeaderFields.headerConcurrentLimitExceeded hfields
  have htunnel : d.connectEstablishedHeadersReceived = c.connectEstablishedHeadersReceived :=
    congrArg HeaderFields.connectEstablishedHeadersReceived hfields
  refine ⟨fun hnone => ?_, fun sid hopen hexceeded => ?_⟩
  · rw [hfields]
    exact hc.idle (hcont ▸ hnone)
  · obtain ⟨hno, hvacant⟩ := hc.refused sid (hcont ▸ hopen) (hlimit ▸ hexceeded)
    exact ⟨htunnel.trans hno, settlesAll_vacant hvacant hsettles⟩

theorem exec_marked {k : Call} (hk : ∀ it, k ≠ .process it) (ht : Tidy c.toCore) (hc : Marked c) :
    Marked (k.exec c).2 := by
  have hheeds : k.Heeds deaf c := by
    cases k with
    | process it => exact absurd rfl (hk it)
    | _ => trivial
  exact hc.kept (exec_spares hk c).1.headerFields (exec_settles k ht trivial hheeds)

theorem rejectFrame_marked {e : Error} {r : Except Error Unit} (ht : Tidy c.toCore) (hc : Marked c)
    (he : e.ofDecoder = true) (hrun : rejectFrame e c = (r, d)) : Marked d := by
  have hfields : d.headerFields = c.headerFields :=
    congrArg Guards.headerFields ((rejectFrame_keeps e).run hrun)
  have hsettles := (ensures_run hrun).1 (rejectFrame_settles (T := deaf) ht (fun _ _ _ => trivial) he)
  exact hc.kept hfields hsettles

/-! ## Blocks -/

@[grind ←] theorem resetRefused_keeps (sid : Nat) : Keeps guards (resetRefusedConcurrentStream sid) := by
  unfold resetRefusedConcurrentStream
  grind

/-- When the limit is noted the stream has no record, so it is not taken for one that was closed. -/
theorem finishBlock_idle {headers : List HeaderField} {endStream ignored : Bool}
    (hc : c.headerConcurrentLimitExceeded = true → c.connectEstablishedHeadersReceived = false ∧
      ignored = false ∧ c.isStreamClosed sid = false) :
    Ensures (finishBlock sid headers endStream ignored) c fun _ d =>
      d.headerFields =
          ⟨c.headerContinuationStream, c.headerBlockFragment, c.headerEndStream, false, false⟩ := by
  have hkeeps : ∀ {m : Conn Unit} {c' : Connection}, Keeps guards m → c'.headerFields =
      ⟨c.headerContinuationStream, c.headerBlockFragment, c.headerEndStream, false, false⟩ →
        Ensures m c' fun _ d => d.headerFields =
          ⟨c.headerContinuationStream, c.headerBlockFragment, c.headerEndStream, false, false⟩ := by
    intro m c' hm hfields
    exact (congrArg Guards.headerFields (hm c')).trans hfields
  simp only [finishBlock, ensures_bind, ensures_get, ensures_ite, ensures_modify]
  refine ⟨fun hgone => ?_, fun hlive =>
    ⟨fun hlimit => ?_, fun hlimit => ⟨fun htunnel => ?_, fun htunnel => ?_⟩⟩⟩
  · have hlimit : c.headerConcurrentLimitExceeded = false := by
      by_contra hlimit
      obtain ⟨_, hignored, hopen⟩ := hc (by simpa using hlimit)
      simp [hignored, hopen] at hgone
    simp [headerFields, hlimit]
  · refine hkeeps (resetRefused_keeps sid) ?_
    simp [headerFields, (hc hlimit).1]
  · refine hkeeps (resetStreamInternal_keeps sid _ 0) ?_
    simp [headerFields, hlimit]
  · have hfields : c.headerFields =
        ⟨c.headerContinuationStream, c.headerBlockFragment, c.headerEndStream, false, false⟩ := by
      simp [headerFields, hlimit, htunnel]
    have hboth : Keeps guards (do
        processHeaders sid headers endStream
        update (·.noteSuccessful sid)) :=
          keeps_bind (processHeaders_keeps _ _ _) fun _ => update_keeps fun _ => rfl
    have hdone := hkeeps hboth hfields
    simpa only [ensures_bind, ensures_update] using hdone

theorem concurrentLimit_vacant {c : Core} (h : c.concurrentLimitExceeded sid = true) :
    c.stream? sid = none := by
  unfold Core.concurrentLimitExceeded at h
  split at h
  · cases h
  · rename_i hgone
    simpa using hgone

/-- What HEADERS note, of a stream that is not closed. -/
theorem notedHeaders_refused (sid : Nat) (hidle : c.headerFields = .idle)
    (h : (c.notedHeaders sid).headerConcurrentLimitExceeded = true) :
    (c.notedHeaders sid).connectEstablishedHeadersReceived = false ∧
      c.closedStreams.contains sid = false ∧ c.stream? sid = none := by
  have hlimit : c.headerConcurrentLimitExceeded = false :=
    congrArg HeaderFields.headerConcurrentLimitExceeded hidle
  have htunnel : c.connectEstablishedHeadersReceived = false :=
    congrArg HeaderFields.connectEstablishedHeadersReceived hidle
  cases hclosed : c.closedStreams.contains sid with
  | true => simp [notedHeaders, hclosed, hlimit] at h
  | false =>
    have hgone : c.stream? sid = none := by
      apply concurrentLimit_vacant
      simpa [notedHeaders, hclosed, noteHeaders, hlimit] using h
    refine ⟨?_, rfl, hgone⟩
    rw [Core.stream?_eq] at hgone
    simp [notedHeaders, hclosed, noteHeaders, htunnel, hgone]

theorem decodeBlock_ends {fragment : Bytes} {m : List HeaderField → Conn Unit}
    {Q : Connection → Prop} (h : ∀ headers d, Ensures (m headers) (c.setCore { c.toCore with
      hpackDecoder := d
      trace := .decoded sid headers :: c.trace }) fun _ c' => Q c') :
    Ensures (decodeBlock sid fragment >>= m) c fun r c' => r = .ok () → Q c' := by
  simp only [decodeBlock, ensures_bind, ensures_get, ensures_update]
  cases (c.hpackDecoder.decode fragment).1 with
  | error e =>
    simp only [ensures_throw]
    intro hok
    cases hok
  | ok headers =>
    simp only [ensures_bind, ensures_update, ensures_pure]
    exact ensures_mono (h headers _) fun r c' hc' _ => hc'

theorem collectHeaders_marked {f : HeadersFrame} (hidle : c.headerFields = .idle)
    (hbegun : c.role = .client → f.streamId < c.nextStreamId) :
    Ensures (collectHeaders f (c.closedStreams.contains f.streamId)) (c.notedHeaders f.streamId)
      fun r d => r = .ok () → Marked d := by
  have hcore := notedHeaders_toCore c f.streamId
  have hrefused := notedHeaders_refused f.streamId hidle
  generalize c.notedHeaders f.streamId = d at hcore hrefused
  have hcont : c.headerContinuationStream = none := congrArg HeaderFields.headerContinuationStream hidle
  have hfragment : c.headerBlockFragment = [] := congrArg HeaderFields.headerBlockFragment hidle
  have hend : c.headerEndStream = false := congrArg HeaderFields.headerEndStream hidle
  simp only [collectHeaders, ensures_bind, ensures_update, ensures_ite]
  refine ⟨fun hwhole => ?_, fun hmore => ?_⟩
  · rw [← ensures_bind]
    apply decodeBlock_ends
    intro headers decoder
    have hnoted : d.headerConcurrentLimitExceeded = true → d.connectEstablishedHeadersReceived = false ∧
        c.closedStreams.contains f.streamId = false ∧ d.isStreamClosed f.streamId = false := by
      intro hlimit
      obtain ⟨htunnel, hopen, hgone⟩ := hrefused hlimit
      refine ⟨htunnel, hopen, ?_⟩
      rw [hcore, Core.isStreamClosed, hgone]
    refine ensures_mono (finishBlock_idle hnoted) fun r d' hfields => ?_
    simp only [setCore_toCore, hcore, hcont, hfragment, hend] at hfields
    exact marked_of_idle hfields
  · simp only [ensures_bind, checkHeaderBlockFragmentSize, ensures_get, ensures_require]
    refine ⟨fun _ _ => ⟨(fun hnone => by cases hnone), fun sid hopen hlimit => ?_⟩, fun _ hok => by cases hok⟩
    obtain rfl : f.streamId = sid := Option.some.inj hopen
    obtain ⟨htunnel, hclosed, hgone⟩ := hrefused hlimit
    refine ⟨htunnel, fun hused => ?_, fun hclient => ?_⟩
    · change (d.stream? f.streamId).isSome = true ∨ d.closedStreams.contains f.streamId = true at hused
      rw [hcore, hgone, hclosed] at hused
      simp at hused
    · change d.role = .client at hclient
      change f.streamId < d.nextStreamId
      rw [hcore] at hclient ⊢
      exact hbegun hclient

theorem handleHeaders_marked {f : HeadersFrame} (hidle : c.headerFields = .idle)
    (hbegun : c.role = .client → f.streamId < c.nextStreamId) :
    Ensures (handleHeaders f) c fun r d => r = .ok () → Marked d := by
  by_cases hadmits : c.toCore.Admits f.streamId
  · rw [Ensures, handleHeaders_admits hadmits]
    exact collectHeaders_marked hidle hbegun
  · rw [Ensures, handleHeaders_refuses hadmits]
    intro hok
    cases hok

theorem handleContinuation_marked {f : ContinuationFrame} (hc : Marked c) :
    Ensures (handleContinuation f) c fun r d => r = .ok () → Marked d := by
  simp only [handleContinuation, ensures_bind, ensures_get]
  cases hopen : c.headerContinuationStream with
  | none =>
    simp only [ensures_throw]
    intro hok
    cases hok
  | some sid =>
    simp only [ensures_bind, ensures_update, checkHeaderBlockFragmentSize, ensures_get, ensures_require]
    refine ⟨fun _ => ⟨fun _ => ?_, fun _ hok => by cases hok⟩, fun _ hok => by cases hok⟩
    rw [ensures_ite]
    refine ⟨fun hlast => ?_, fun hmore => ?_⟩
    · apply decodeBlock_ends
      intro headers decoder
      rw [ensures_bind, ensures_update]
      refine ensures_mono (finishBlock_idle fun hlimit => ?_) fun r d hfields => ?_
      · obtain ⟨htunnel, hvacant⟩ := hc.refused sid hopen hlimit
        obtain ⟨hgone, hclosed⟩ := not_or.1 hvacant.unused
        refine ⟨htunnel, by simpa using hclosed, ?_⟩
        have hnone : c.stream? sid = none := by simpa using hgone
        simp only [Core.isStreamClosed, setCore_toCore]
        rw [hnone]
      · simp only [setCore_toCore] at hfields
        exact marked_of_idle hfields
    · intro _
      refine ⟨fun hnone => ?_, fun sid' hopen' hlimit => ?_⟩
      · cases hopen.symm.trans hnone
      · obtain ⟨htunnel, hvacant⟩ := hc.refused sid' hopen' hlimit
        exact ⟨htunnel, hvacant.unused, hvacant.begun⟩

theorem handleFrame_marked {it : IterOrder} {f : Frame} (hc : Marked c) (hl : answers.frame c.toCore f)
    (hrun : handleFrame it f c = (.ok (), d)) : Marked d := by
  obtain ⟨_, _, hcont, hdispatch⟩ := handleFrame_ok hrun
  have hlogged : Marked (c.setCore (c.toCore.log (.received f))) := by
    refine ⟨hc.idle, fun sid hopen hlimit => ?_⟩
    obtain ⟨htunnel, hvacant⟩ := hc.refused sid hopen hlimit
    exact ⟨htunnel, hvacant.unused, hvacant.begun⟩
  have hidle : (∀ g, f ≠ .continuation g) → c.headerFields = .idle := by
    intro hother
    apply hc.idle
    cases hopen : c.headerContinuationStream with
    | none => rfl
    | some sid =>
      rw [hopen] at hcont
      cases f with
      | continuation g => exact absurd rfl (hother g)
      | _ => cases hcont
  by_cases hheaders : ∃ g, f = .headers g
  · obtain ⟨g, rfl⟩ := hheaders
    have hmarked := handleHeaders_marked (c := c.setCore (c.toCore.log (.received (.headers g))))
      (hidle fun _ h => by cases h) hl
    exact (ensures_run hdispatch).1 hmarked rfl
  by_cases hcontinuation : ∃ g, f = .continuation g
  · obtain ⟨g, rfl⟩ := hcontinuation
    exact (ensures_run hdispatch).1 (handleContinuation_marked hlogged) rfl
  · have hother : ∀ g, f ≠ .continuation g := fun g h => hcontinuation ⟨g, h⟩
    have hkeeps := dispatchFrame_headerFields it (fun g h => hheaders ⟨g, h⟩) hother
    exact marked_of_idle ((hkeeps.run hdispatch).trans (hidle hother))

/-! ## Runs -/

theorem turn_marked {it : IterOrder} (ht : Tidy c.toCore) (hc : Marked c) (h : Turn answers it c d) :
    Tidy d.toCore ∧ Marked d := by
  obtain ⟨hnext, hpasses⟩ := h
  cases hpasses with
  | @frame f rest _ hdecode hrun =>
    have hl := next_frame hnext hdecode
    have hsettles := (ensures_run hrun).1 (handleFrame_settles (c := c.take rest) ht hl)
    have hmarked : Marked (c.take rest) := ⟨hc.idle, hc.refused⟩
    exact ⟨settlesAll_tidy ht hsettles, handleFrame_marked hmarked hl hrun⟩
  | @reject e rest _ hdecode hrun =>
    have hl := next_error hnext hdecode
    have he : e.ofDecoder = true := c.frameDecoder.decode_complains e (by rw [hdecode])
    have hsettles := (ensures_run hrun).1 (rejectFrame_settles (c := c.take rest) ht hl he)
    have hmarked : Marked (c.take rest) := ⟨hc.idle, hc.refused⟩
    exact ⟨settlesAll_tidy ht hsettles, rejectFrame_marked (c := c.take rest) ht hmarked he hrun⟩

theorem turns_marked {it : IterOrder} (ht : Tidy c.toCore) (hc : Marked c)
    (h : Relation.ReflTransGen (Turn answers it) c d) : Tidy d.toCore ∧ Marked d := by
  induction h with
  | refl => exact ⟨ht, hc⟩
  | tail _ hturn ih => exact turn_marked ih.1 ih.2 hturn

theorem process_marked {it : IterOrder} (ht : Tidy c.toCore) (hc : Marked c)
    (h : (Call.process it).Heeds answers c) (hrun : process it c = (.ok (), d)) : Marked d := by
  obtain ⟨c', hpasses, hfinishes⟩ := process_iff.1 hrun
  obtain ⟨hturns, _⟩ := turns_of_heeds ht hpasses (left_lt_fuel _) h
  obtain ⟨rest, _, rfl⟩ := hfinishes
  have hc' := (turns_marked ht hc hturns).2
  exact ⟨hc'.idle, hc'.refused⟩

def isProcess : Call → Bool
  | .process _ => true
  | _ => false

/-- No `process` has failed. -/
def Unbroken (history : List Record) : Prop := ∀ r ∈ history, isProcess r.call = true → r.ok = true

theorem run_marked {role : Role} {limits : Limits} {history : List Record}
    (h : RunOf answers (Connection.new role limits) history c) (hunbroken : Unbroken history) :
    Marked c := by
  induction h with
  | start => exact marked_of_idle rfl
  | @call history c k _ hheeds hrun ih =>
    have hc := ih fun r hmem => hunbroken r (List.mem_cons_of_mem _ hmem)
    have ht := run_tidy hrun
    by_cases hprocess : ∃ it, k = .process it
    · obtain ⟨it, rfl⟩ := hprocess
      have hok := hunbroken _ List.mem_cons_self rfl
      cases hdone : process it c with
      | mk r d =>
        have hexec : (Call.process it).exec c = Call.unitValue (process it) c := rfl
        cases r with
        | error e =>
          rw [hexec, Call.unitValue, bind_error hdone] at hok
          cases hok
        | ok u =>
          rw [hexec, Call.unitValue, bind_ok hdone]
          exact process_marked ht hc hheeds hdone
    · exact exec_marked (fun it h => hprocess ⟨it, h⟩) ht hc

end

end Marks

end Http2
