import Http2.Connection.Content
import Http2.Connection.Progress
import Http2.Connection.Windows

/-! The flow-control windows as accounts: each holds what the history of the connection says. -/
namespace Http2.Accounts

open Hpack Lib Lib.Prog Connection

/-! ## What an item weighs -/

/-- Credit that the peer gave, for a stream or for the connection. -/
def granted (sid : Nat) : Item → Nat
  | .received (.windowUpdate sid' increment) => if sid' = sid then increment else 0
  | _ => 0

/-- Credit given to the peer. -/
def given (sid : Nat) : Item → Nat
  | .sent (.windowUpdate sid' increment) => if sid' = sid then increment else 0
  | _ => 0

/-- Octets of data that left. -/
def spent : Item → Nat
  | .sent (.data f) => f.data.length
  | _ => 0

/-- What DATA received counts, padding included. -/
def charged : Item → Nat
  | .received (.data f) => f.flowControlSize
  | _ => 0

/-- What the events tell the application of it. -/
def reported : Item → Nat
  | .event (.dataReceived _ data _) => data.length
  | .event (.dataDiscarded _ consumed) | .event (.streamReset _ _ consumed) => consumed
  | _ => 0

/-! ## The windows of the connection -/

/-- What the accounts of the connection began with, and what was charged and not reported. -/
structure Ledger where
  send : Int
  recv : Int
  unreported : Int

def ledger (c : Core) : Ledger where
  send := c.flowControl.sendWindow + tally spent c.trace - tally (granted 0) c.trace
  recv := c.flowControl.recvWindow + tally charged c.trace - tally (given 0) c.trace
  unreported := tally charged c.trace - tally reported c.trace

/-- No octets of data and no credit for the connection. -/
def Light (i : Item) : Prop :=
  granted 0 i = 0 ∧ given 0 i = 0 ∧ spent i = 0 ∧ charged i = 0 ∧ reported i = 0

/-- The windows of the connection stayed as they were and nothing was recorded that weighs. -/
def Aside (c d : Core) : Prop :=
  d.flowControl = c.flowControl ∧ ∃ new, d.trace = new ++ c.trace ∧ ∀ i ∈ new, Light i

variable {c d e : Core} {l : Label} {sid : Nat}

theorem Aside.ledger (h : Aside c d) : ledger d = ledger c := by
  obtain ⟨hflow, new, htrace, hlight⟩ := h
  have hgranted : ∀ i ∈ new, granted 0 i = 0 := fun i hi => (hlight i hi).1
  have hgiven : ∀ i ∈ new, given 0 i = 0 := fun i hi => (hlight i hi).2.1
  have hspent : ∀ i ∈ new, spent i = 0 := fun i hi => (hlight i hi).2.2.1
  have hcharged : ∀ i ∈ new, charged i = 0 := fun i hi => (hlight i hi).2.2.2.1
  have hreported : ∀ i ∈ new, reported i = 0 := fun i hi => (hlight i hi).2.2.2.2
  simp only [Accounts.ledger, hflow, htrace, tally_light hgranted, tally_light hgiven,
    tally_light hspent, tally_light hcharged, tally_light hreported]

namespace Aside

theorem refl : Aside c c := ⟨rfl, [], rfl, by simp⟩

theorem congr (h : Aside c d) (hflow : e.flowControl = d.flowControl) (htrace : e.trace = d.trace) :
    Aside c e := by
  obtain ⟨hold, new, hnew, hlight⟩ := h
  exact ⟨hflow.trans hold, new, htrace.trans hnew, hlight⟩

theorem log {i : Item} (h : Aside c d) (hi : Light i) : Aside c (d.log i) := by
  obtain ⟨hflow, new, htrace, hlight⟩ := h
  refine ⟨hflow, i :: new, by simp [htrace], ?_⟩
  exact List.forall_mem_cons.2 ⟨hi, hlight⟩

theorem closeIf (h : Aside c d) (closed : Bool) : Aside c (d.closeIf sid closed) := by
  unfold Core.closeIf
  split
  · have hlog : Aside c (d.log (.event (.streamClosed sid))) := h.log ⟨rfl, rfl, rfl, rfl, rfl⟩
    exact hlog.congr rfl rfl
  · exact h

theorem reset (h : Aside c d) (code : ErrorCode) : Aside c (d.resetWith sid code 0) := by
  have hsent : Aside c (d.log (.sent (.rstStream sid code.asU32))) := h.log ⟨rfl, rfl, rfl, rfl, rfl⟩
  have htold := hsent.log (i := .event (.streamReset sid code 0)) ⟨rfl, rfl, rfl, rfl, rfl⟩
  exact htold.congr rfl rfl

theorem block (h : Aside c d) (headers : List HeaderField) (endStream : Bool) :
    Aside c (d.sendBlock sid headers endStream) := by
  obtain ⟨hflow, new, hnew, hlight⟩ := h
  obtain ⟨f, fs, _, _, hfs, htrace⟩ := sendBlock_trace d sid headers endStream
  refine ⟨(sendBlock_flowControl headers endStream).trans hflow,
    (fs.map Item.sent).reverse ++ .sent (.headers f) :: .encoded sid headers :: new, ?_, ?_⟩
  · simp [htrace, hnew]
  · intro i hi
    simp only [List.mem_append, List.mem_reverse, List.mem_map, List.mem_cons] at hi
    obtain ⟨g, hg, rfl⟩ | rfl | rfl | hi := hi
    · obtain ⟨cf, rfl, _⟩ := hfs g hg
      exact ⟨rfl, rfl, rfl, rfl, rfl⟩
    · exact ⟨rfl, rfl, rfl, rfl, rfl⟩
    · exact ⟨rfl, rfl, rfl, rfl, rfl⟩
    · exact hlight i hi

theorem opens {base : Core} {s : Stream} (h : Aside c d) (hopens : d.Opens sid s base) :
    Aside c base := by
  obtain ⟨_, rfl⟩ | ⟨_, _, rfl⟩ := hopens
  · exact h
  · have hlog : Aside c (d.log (.opened sid)) := h.log ⟨rfl, rfl, rfl, rfl, rfl⟩
    exact hlog.congr rfl rfl

end Aside

theorem outcome_aside {c' : Core} {raw : List HeaderField} {endStream : Bool}
    (houtcome : Outcome sid raw endStream d c') (h : Aside c d) : Aside c c' := by
  cases houtcome with
  | ignored => exact h
  | reset code _ _ hopens => exact ((h.opens hopens).reset code).congr rfl rfl
  | tunnel => exact h.reset _
  | gone => exact h.log ⟨rfl, rfl, rfl, rfl, rfl⟩
  | @headers s s' base protocol _ hopens =>
    let told : Item := .event (.headersReceived sid (concatenateCookies raw) endStream protocol)
    have hlog : Aside c ((base.putStream sid s').log told) :=
      ((h.opens hopens).congr rfl rfl).log ⟨rfl, rfl, rfl, rfl, rfl⟩
    exact (hlog.closeIf s'.state.isClosed).congr rfl rfl
  | @trailers s state =>
    let told : Item := .event (.trailersReceived sid (concatenateCookies raw))
    have hlog : Aside c ((d.putStream sid { s with state := state }).log told) :=
      (h.congr rfl rfl).log ⟨rfl, rfl, rfl, rfl, rfl⟩
    exact (hlog.closeIf state.isClosed).congr rfl rfl

/-- A frame that is about no data and no credit for the connection. -/
theorem received_light {f : Frame} (hdata : ∀ df, f ≠ .data df)
    (hwindow : ∀ increment, f ≠ .windowUpdate 0 increment) : Light (.received f) := by
  cases f with
  | data df => exact absurd rfl (hdata df)
  | windowUpdate sid increment =>
    have hne : sid ≠ 0 := by
      rintro rfl
      exact hwindow increment rfl
    exact ⟨if_neg hne, rfl, rfl, rfl, rfl⟩
  | _ => exact ⟨rfl, rfl, rfl, rfl, rfl⟩

/-! ## Data that is accepted -/

/-- The stream takes the frame: it may receive data, within its window and the length announced. -/
def accepts (s : Stream) (f : DataFrame) : Bool :=
  (s.state.recvData f.endStream).isOk && decide ((f.flowControlSize : Int) ≤ s.flowControl.recvWindow) &&
    !(s.noContent && !f.data.isEmpty) &&
    !contentLengthViolated
      { s with receivedContentLength := s.receivedContentLength + f.data.length } f.endStream

/-- Data that is delivered was accepted. -/
theorem accepts_of_delivered {s s' : Stream} {f : DataFrame}
    (hstream : (f.flowControlSize : Int) ≤ s.flowControl.recvWindow)
    (hstate : s.state.recvData f.endStream = .ok s'.state) (hcontent : s.noContent = true → f.data = [])
    (hlength : contentLengthViolated s' f.endStream = false)
    (hs : s' = { s with
      state := s'.state
      flowControl := s.flowControl.addRecv (-f.flowControlSize)
      receivedContentLength := s.receivedContentLength + f.data.length }) : accepts s f = true := by
  have hviolated : contentLengthViolated
      { s with receivedContentLength := s.receivedContentLength + f.data.length } f.endStream = false := by
    rw [hs] at hlength
    exact hlength
  have hsilent : (s.noContent && !f.data.isEmpty) = false := by
    cases hno : s.noContent with
    | false => rfl
    | true => simp [hcontent hno]
  simp [accepts, hstate, hstream, hviolated, hsilent, Except.isOk, Except.toBool]

/-- The octets of a frame that its stream takes are those of the data, and of the padding. -/
theorem size_le (f : DataFrame) : f.data.length ≤ f.flowControlSize := by
  unfold DataFrame.flowControlSize
  split <;> omega

theorem size_eq_iff (f : DataFrame) : f.flowControlSize = f.data.length ↔ f.padLength = none := by
  unfold DataFrame.flowControlSize
  cases f.padLength with
  | none => simp
  | some n =>
    simp only [reduceCtorEq, iff_false]
    omega

/-- The accounts go on; what a stream took with padding is not reported in full. -/
def Entered (c : Core) (l : Label) (d : Core) : Prop :=
  ∃ padding : Nat, ledger d = { ledger c with unreported := (ledger c).unreported + padding } ∧
    (padding ≠ 0 → ∃ (f : DataFrame) (s : Stream), l = .frame (.data f) ∧
      c.stream? f.streamId = some s ∧ accepts s f = true ∧ f.padLength ≠ none)

theorem Aside.entered (h : Aside c d) : Entered c l d := by
  refine ⟨0, ?_, fun hne => absurd rfl hne⟩
  rw [h.ledger]
  simp

theorem entered_of_eq (h : ledger d = ledger c) : Entered c l d := by
  refine ⟨0, ?_, fun hne => absurd rfl hne⟩
  rw [h]
  simp

/-- A frame of data is charged before anything else becomes of it. -/
theorem charge_ledger (c : Core) (f : DataFrame) :
    ledger ((c.log (.received (.data f))).chargeRecv f.flowControlSize) =
      { ledger c with unreported := (ledger c).unreported + f.flowControlSize } := by
  simp only [ledger, Core.chargeRecv, Core.setFlow_trace, Core.setFlow_flowControl, Core.log_trace,
    Core.log_flowControl, FlowControl.addRecv_sendWindow, FlowControl.addRecv_recvWindow, tally_cons,
    spent, granted, given, charged, reported, Ledger.mk.injEq]
  omega

/-- An event that reports what was charged. -/
theorem report_ledger (c : Core) (size : Nat) {i : Item} (hi : reported i = size)
    (hlight : granted 0 i = 0 ∧ given 0 i = 0 ∧ spent i = 0 ∧ charged i = 0) :
    ledger (c.log i) = { ledger c with unreported := (ledger c).unreported - size } := by
  obtain ⟨hgranted, hgiven, hspent, hcharged⟩ := hlight
  simp only [ledger, Core.log_trace, Core.log_flowControl, tally_cons, hgranted, hgiven, hspent,
    hcharged, hi, Ledger.mk.injEq]
  omega

theorem calm_entered (h : Calm c l d) : Entered c l d := by
  cases h with
  | receive f hinert =>
    refine (Aside.refl.log (received_light ?_ ?_)).entered
    · rintro df rfl
      exact hinert
    · rintro increment rfl
      exact hinert.1 rfl
  | peerGoaway f =>
    have hlog : Aside c (c.log (.received (.goaway f))) := Aside.refl.log ⟨rfl, rfl, rfl, rfl, rfl⟩
    refine Aside.entered (Aside.log (hlog.congr rfl rfl) ⟨rfl, rfl, rfl, rfl, rfl⟩)
  | notify e he =>
    refine (Aside.refl.log ?_).entered
    cases e <;> first | exact ⟨rfl, rfl, rfl, rfl, rfl⟩ | cases he
  | activate => exact (Aside.refl.congr rfl rfl).entered
  | pong | resetGone | announce | ping =>
    exact (Aside.refl.log ⟨rfl, rfl, rfl, rfl, rfl⟩).entered
  | creditGone sid increment hsid =>
    have hgiven : given 0 (.sent (.windowUpdate sid increment)) = 0 := if_neg hsid
    exact (Aside.refl.log ⟨rfl, hgiven, rfl, rfl, rfl⟩).entered
  | discardData f _ _ hsize =>
    apply entered_of_eq
    rw [charge_ledger, hsize]
    simp
  | reportData f =>
    apply entered_of_eq
    rw [report_ledger _ f.flowControlSize rfl ⟨rfl, rfl, rfl, rfl⟩, charge_ledger]
    simp
  | refuseData f code =>
    apply entered_of_eq
    let charge := (c.log (.received (.data f))).chargeRecv f.flowControlSize
    let rst : Item := .sent (.rstStream f.streamId code.asU32)
    have hrst : ledger (charge.log rst) = ledger charge :=
      (Aside.refl.log (i := rst) ⟨rfl, rfl, rfl, rfl, rfl⟩).ledger
    change ledger ((charge.log rst).log (.event (.streamReset f.streamId code f.flowControlSize))) = _
    rw [report_ledger _ f.flowControlSize rfl ⟨rfl, rfl, rfl, rfl⟩, hrst, charge_ledger]
    simp
  | @deliverData s s' f hlive _ hstream hstate hcontent hlength hs =>
    let charge := (c.log (.received (.data f))).chargeRecv f.flowControlSize
    let told : Item := .event (.dataReceived f.streamId f.data f.endStream)
    have hput : Aside (charge.log told) ((charge.putStream f.streamId s').log told) :=
      ⟨rfl, [], rfl, by simp⟩
    have hsize := size_le f
    refine ⟨f.flowControlSize - f.data.length, ?_, fun hpadding => ⟨f, s, rfl, hlive, ?_, fun hnone => ?_⟩⟩
    · rw [(hput.closeIf _).ledger, report_ledger _ f.data.length rfl ⟨rfl, rfl, rfl, rfl⟩, charge_ledger]
      simp only [Ledger.mk.injEq, true_and]
      omega
    · exact accepts_of_delivered hstream hstate hcontent hlength hs
    · rw [(size_eq_iff f).2 hnone, Nat.sub_self] at hpadding
      exact hpadding rfl
  | peerReset sid code =>
    have hlog : Aside c (c.log (.received (.rstStream sid code))) :=
      Aside.refl.log ⟨rfl, rfl, rfl, rfl, rfl⟩
    have htold := hlog.log (i := .event (.streamReset sid (.fromU32 code) 0)) ⟨rfl, rfl, rfl, rfl, rfl⟩
    exact (htold.congr rfl rfl).entered
  | reset sid code => exact (Aside.refl.reset code).entered
  | reject sid code =>
    have hlog : Aside c (c.log (.rejected sid)) := Aside.refl.log ⟨rfl, rfl, rfl, rfl, rfl⟩
    exact (hlog.reset code).entered
  | rejectGone sid code =>
    have hlog : Aside c (c.log (.rejected sid)) := Aside.refl.log ⟨rfl, rfl, rfl, rfl, rfl⟩
    exact (hlog.log ⟨rfl, rfl, rfl, rfl, rfl⟩).entered
  | tunnel header payload =>
    have hlog : Aside c (c.log (.received (.unknown header payload))) :=
      Aside.refl.log ⟨rfl, rfl, rfl, rfl, rfl⟩
    exact (hlog.reset _).entered
  | overflow sid increment hsid =>
    have hgranted : granted 0 (.received (.windowUpdate sid increment)) = 0 := if_neg hsid
    have hlog : Aside c (c.log (.received (.windowUpdate sid increment))) :=
      Aside.refl.log ⟨hgranted, rfl, rfl, rfl, rfl⟩
    exact (hlog.reset _).entered
  | beginBlock f =>
    have hlog : Aside c (c.log (.received (.headers f))) := Aside.refl.log ⟨rfl, rfl, rfl, rfl, rfl⟩
    exact (hlog.congr rfl rfl).entered
  | extendBlock f =>
    have hlog : Aside c (c.log (.received (.continuation f))) :=
      Aside.refl.log ⟨rfl, rfl, rfl, rfl, rfl⟩
    exact (hlog.congr rfl rfl).entered
  | wholeBlock f headers d _ _ _ _ houtcome =>
    have hlog : Aside c (c.log (.received (.headers f))) := Aside.refl.log ⟨rfl, rfl, rfl, rfl, rfl⟩
    have hdecode : Aside c ((c.log (.received (.headers f))).decodeWhole f.streamId d) :=
      hlog.congr rfl rfl
    exact (outcome_aside houtcome (hdecode.log ⟨rfl, rfl, rfl, rfl, rfl⟩)).entered
  | endBlock f headers d _ _ _ houtcome =>
    have hlog : Aside c (c.log (.received (.continuation f))) :=
      Aside.refl.log ⟨rfl, rfl, rfl, rfl, rfl⟩
    have hdecode : Aside c ((c.log (.received (.continuation f))).decodeLast d) := hlog.congr rfl rfl
    exact (outcome_aside houtcome (hdecode.log ⟨rfl, rfl, rfl, rfl, rfl⟩)).entered
  | goaway errorCode debugData =>
    have hlog := Aside.refl.log (c := c)
      (i := .sent (.goaway ⟨c.goawayStreamId, errorCode.asU32, debugData⟩)) ⟨rfl, rfl, rfl, rfl, rfl⟩
    exact (hlog.congr rfl rfl).entered
  | credit _ increment =>
    apply entered_of_eq
    simp only [ledger, Core.setFlow_trace, Core.setFlow_flowControl, Core.log_trace, Core.log_flowControl,
      FlowControl.addRecv_sendWindow, FlowControl.addRecv_recvWindow, tally_cons, spent, granted, given,
      charged, reported, if_true, Ledger.mk.injEq]
    omega
  | @creditStream s sid increment hsid =>
    let s' : Stream := { s with flowControl := s.flowControl.addRecv increment }
    have hgiven : given 0 (.sent (.windowUpdate sid increment)) = 0 := if_neg hsid
    have hput : Aside c (c.putStream sid s') := Aside.refl.congr rfl rfl
    exact (hput.log ⟨rfl, hgiven, rfl, rfl, rfl⟩).entered
  | @respond s s' sid headers endStream =>
    have hput : Aside c (c.putStream sid s') := Aside.refl.congr rfl rfl
    exact ((hput.block headers endStream).closeIf _).entered
  | @trail s state sid headers =>
    have hput : Aside c (c.putStream sid { s with state := state }) := Aside.refl.congr rfl rfl
    exact ((hput.block headers true).closeIf _).entered

/-! ## Every transition keeps the accounts -/

theorem wake_entered {f : Frame} {S : Nat → Prop} (h : Wake c f S d) : Entered c (.frame f) d := by
  cases h with
  | update increment =>
    apply entered_of_eq
    simp only [ledger, Core.setFlow_trace, Core.setFlow_flowControl, Core.log_trace,
      FlowControl.addSend_sendWindow, FlowControl.addSend_recvWindow, tally_cons, spent, granted, given,
      charged, reported, if_true, Ledger.mk.injEq]
    omega
  | updateStream sid increment hsid =>
    have hgranted : granted 0 (.received (.windowUpdate sid increment)) = 0 := if_neg hsid
    have hlog : Aside c (c.log (.received (.windowUpdate sid increment))) :=
      Aside.refl.log ⟨hgranted, rfl, rfl, rfl, rfl⟩
    exact (hlog.congr rfl rfl).entered
  | settings f streams =>
    have hlog : Aside c (c.log (.received (.settings f))) := Aside.refl.log ⟨rfl, rfl, rfl, rfl, rfl⟩
    have hremote : Aside c ((c.log (.received (.settings f))).applyRemote f.settings streams) :=
      hlog.congr rfl rfl
    exact (hremote.log ⟨rfl, rfl, rfl, rfl, rfl⟩).entered

/-- Data that leave are taken from the window of the connection. -/
theorem spend_ledger (c : Core) (s : Stream) (f : DataFrame) :
    ledger (((c.chargeSend f.data.length).putStream f.streamId s).log (.sent (.data f))) = ledger c := by
  simp only [ledger, Core.chargeSend, Core.putStream_trace, Core.putStream_flowControl, Core.setFlow_trace,
    Core.setFlow_flowControl, Core.log_trace, Core.log_flowControl, FlowControl.addSend_sendWindow,
    FlowControl.addSend_recvWindow, tally_cons, spent, granted, given, charged, reported,
    Ledger.mk.injEq]
  omega

theorem emit_entered (h : Emit c d) : Entered c .flush d := by
  cases h with
  | chunk sid data rest => exact entered_of_eq (spend_ledger c _ ⟨sid, false, data, none⟩)
  | @last s state sid =>
    apply entered_of_eq
    rw [(Aside.refl.closeIf _).ledger]
    exact spend_ledger c _ ⟨sid, true, s.sendBuffer, none⟩

theorem start_entered {headers : List HeaderField} {endStream : Bool}
    (h : Start c headers endStream d) : Entered c l d := by
  cases h with
  | request s =>
    have hlog : Aside c (c.log (.opened c.nextStreamId)) := Aside.refl.log ⟨rfl, rfl, rfl, rfl, rfl⟩
    have hopen : Aside c (Core.openStream { c with nextStreamId := c.nextStreamId + 2 }
        c.nextStreamId s) := hlog.congr rfl rfl
    exact (hopen.block headers endStream).entered

theorem push_entered {data : Bytes} {endStream : Bool} (h : Push c sid data endStream d) :
    Entered c l d := by
  have hlog : ∀ data, Aside c (c.log (.queued sid data)) :=
    fun _ => Aside.refl.log ⟨rfl, rfl, rfl, rfl, rfl⟩
  cases h with
  | queue => exact ((hlog _).congr rfl rfl).entered
  | @emptyEnd s state =>
    have hput : Aside c ((c.log (.queued sid [])).putStream sid { s with state := state }) :=
      (hlog []).congr rfl rfl
    exact ((hput.log ⟨rfl, rfl, rfl, rfl, rfl⟩).closeIf _).entered

theorem step_entered (h : Step c l d) : Entered c l d := by
  cases h with
  | calm h => exact calm_entered h
  | wake h => exact wake_entered h
  | emit h => exact emit_entered h
  | start h => exact start_entered h
  | push h => exact push_entered h

/-! ## Runs -/

/-- The accounts began with the default windows, and nothing is reported that was not charged. -/
structure Kept (c : Core) : Prop where
  send : (ledger c).send = defaultInitialWindowSize
  recv : (ledger c).recv = defaultInitialWindowSize
  reported : 0 ≤ (ledger c).unreported

theorem new_kept (role : Role) (limits : Limits) : Kept (Core.new role limits) :=
  ⟨rfl, rfl, Int.le_refl _⟩

theorem steps_kept {T : Terms} (h : Kept c) (hsteps : Steps T c d) : Kept d := by
  induction hsteps with
  | refl => exact h
  | tail _ hstep ih =>
    obtain ⟨l, _, hstep⟩ := hstep
    obtain ⟨padding, hledger, _⟩ := step_entered hstep
    refine ⟨?_, ?_, ?_⟩
    · rw [hledger]
      exact ih.send
    · rw [hledger]
      exact ih.recv
    · rw [hledger]
      have hle := ih.reported
      simp only
      omega

/-- Data for a live stream that takes them have no padding. -/
def terms : Terms where
  frame c f :=
    match f with
    | .data f => ∀ s ∈ c.stream? f.streamId, accepts s f = true → f.padLength = none
    | _ => True
  refusal _ _ := True
  api _ _ := True

instance (c : Core) : (f : Frame) → Decidable (terms.frame c f)
  | .data f => inferInstanceAs (Decidable (∀ s ∈ c.stream? f.streamId, accepts s f = true →
      f.padLength = none))
  | .headers _ | .priority _ _ | .rstStream _ _ | .settings _ | .pushPromise _ | .ping _ _ | .goaway _
  | .windowUpdate _ _ | .continuation _ | .priorityUpdate _ _ | .unknown _ _ =>
    inferInstanceAs (Decidable True)

instance (c : Core) (sid : Nat) : Decidable (terms.refusal c sid) := inferInstanceAs (Decidable True)

instance (c : Core) (k : Call) : Decidable (terms.api c k) := inferInstanceAs (Decidable True)

theorem steps_reported (h : (ledger c).unreported = 0) (hsteps : Steps terms c d) :
    (ledger d).unreported = 0 := by
  induction hsteps with
  | refl => exact h
  | @tail d e _ hstep ih =>
    obtain ⟨l, hl, hstep⟩ := hstep
    obtain ⟨padding, hledger, hpadded⟩ := step_entered hstep
    have hnone : padding = 0 := by
      by_contra hne
      obtain ⟨f, s, rfl, hlive, haccepts, hpad⟩ := hpadded hne
      exact hpad (hl s hlive haccepts)
    rw [hledger, hnone]
    simpa using ih

/-- As long as no stream takes padding, the events report all that was charged to the window of the
connection, so that the window is full again once as much was given back. -/
theorem charges_reported {role : Role} {limits : Limits} {history : List Record} {c : Connection}
    (hrun : RunOf terms (Connection.new role limits) history c) (hsound : Sound history) :
    tally charged c.trace = tally reported c.trace ∧
      c.flowControl.recvWindow =
        defaultInitialWindowSize + tally (given 0) c.trace - tally reported c.trace := by
  have hsteps := (run_course hrun hsound).steps
  have hkept := steps_kept (new_kept role limits) hsteps
  have hrecv := hkept.recv
  have hreported := steps_reported (c := Core.new role limits) rfl hsteps
  simp only [ledger] at hrecv hreported
  constructor
  · omega
  · omega

/-- A request with a message of five octets. -/
def uploadCalls (padLength : Option UInt8) : List Call :=
  [.feed (clientBytes [.headers ⟨1, false, true, none, [0x83, 0x87, 0x41, 0x01, 0x61, 0x84], none⟩,
    .data ⟨1, false, ascii "hello", padLength⟩]), .process .listed]

theorem charges_reported_upload :
    ∃ history c, RunOf terms (Connection.new .server .default) history c ∧ Sound history ∧
      tally charged c.trace = 5 ∧ c.flowControl.recvWindow = 65530 ∧
      tally charged c.trace = tally reported c.trace ∧
      c.flowControl.recvWindow =
        defaultInitialWindowSize + tally (given 0) c.trace - tally reported c.trace := by
  have hheeds : HeedsAll terms (uploadCalls none) (Connection.new .server .default) := by
    decide +kernel
  have hrun := RunOf.execAll .start hheeds
  have hsound : Sound (execAll (uploadCalls none) [] (Connection.new .server .default)).1 := by
    unfold Sound
    decide +kernel
  exact ⟨_, _, hrun, hsound, by decide +kernel, by decide +kernel, charges_reported hrun hsound⟩

/-- With three octets of padding the same message costs nine octets, of which five are reported. -/
theorem charges_reported_any_false :
    ∃ history c, Run (Connection.new .server .default) history c ∧ Sound history ∧
      tally charged c.trace = 9 ∧ tally reported c.trace = 5 ∧
      c.flowControl.recvWindow ≠
        defaultInitialWindowSize + tally (given 0) c.trace - tally reported c.trace := by
  have hrun := Run.execAll (c := Connection.new .server .default) .start (uploadCalls (some 3))
  have hsound : Sound (execAll (uploadCalls (some 3)) [] (Connection.new .server .default)).1 := by
    unfold Sound
    decide +kernel
  exact ⟨_, _, hrun, hsound, by decide +kernel, by decide +kernel, by decide +kernel⟩

end Http2.Accounts
