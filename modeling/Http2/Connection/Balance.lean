import Http2.Connection.Accounts

/-! Flow control is conserved: every window of a connection and of its live streams is what was
granted and taken since it came into being, in bounds, and data leave only within both windows. -/
namespace Http2.Accounts

open Hpack Lib Lib.Prog Connection Content

/-! ## The windows of a stream -/

/-- The windows of a stream, by what happened since its record was created. -/
structure Balanced (sid : Nat) (s : Stream) (items : List Item) : Prop where
  initial : s.flowControl.sendInitial ≤ maxWindowSize
  send : s.flowControl.sendWindow =
    s.flowControl.sendInitial + tally (granted sid) items - tally spent items
  floor : -(maxWindowSize : Int) ≤ tally (granted sid) items - tally spent items
  recvFloor : 0 ≤ s.flowControl.recvWindow
  recvCeiling : s.flowControl.recvWindow ≤ maxWindowSize

variable {c d : Core} {l : Label} {sid : Nat} {s s' : Stream} {new items : List Item}

/-- The history of the record goes on, and its send window with it. -/
theorem Balanced.turn (h : Balanced sid s items)
    (hsend : s'.flowControl.sendWindow =
      s.flowControl.sendWindow + tally (granted sid) new - tally spent new)
    (hinitial : s'.flowControl.sendInitial = s.flowControl.sendInitial)
    (hfloor : tally spent new = 0 ∨ 0 ≤ s'.flowControl.sendWindow)
    (hrecv : 0 ≤ s'.flowControl.recvWindow ∧ s'.flowControl.recvWindow ≤ maxWindowSize) :
    Balanced sid s' (new ++ items) where
  initial := hinitial ▸ h.initial
  send := by
    rw [hsend, hinitial, h.send, tally_append, tally_append]
    omega
  floor := by
    have hle := h.floor
    have hmax := h.initial
    have hold := h.send
    rw [tally_append, tally_append]
    omega
  recvFloor := hrecv.1
  recvCeiling := hrecv.2

/-- An item that moves no window of a stream. -/
def Still (sid : Nat) (i : Item) : Prop := isOpened i = false ∧ granted sid i = 0 ∧ spent i = 0

/-- A record whose windows did not move. -/
theorem Balanced.still (h : Balanced sid s (life items)) (hflow : s'.flowControl = s.flowControl)
    (hnew : ∀ i ∈ new, Still sid i) : Balanced sid s' (life (new ++ items)) := by
  have hgranted : tally (granted sid) new = 0 := tally_eq_zero fun i hi => (hnew i hi).2.1
  have hspent : tally spent new = 0 := tally_eq_zero fun i hi => (hnew i hi).2.2
  rw [life_unopened fun i hi => (hnew i hi).1]
  refine h.turn ?_ ?_ (.inl hspent) ?_
  · rw [hflow, hgranted, hspent]
    omega
  · rw [hflow]
  · rw [hflow]
    exact ⟨h.recvFloor, h.recvCeiling⟩

theorem farewell_still (s : Stream) (sid : Nat) : ∀ i ∈ s.farewell sid, Still sid i := by
  unfold Stream.farewell
  split
  · simp [Still, isOpened, granted, spent]
  · simp

theorem burst_still {sid' : Nat} {headers : List HeaderField} {endStream : Bool} {burst : List Item}
    (h : Burst sid' headers endStream burst) : ∀ i ∈ burst, Still sid i := by
  obtain ⟨f, fs, _, _, hfs, rfl⟩ := h
  intro i hi
  simp only [List.mem_append, List.mem_reverse, List.mem_map, List.mem_cons, List.not_mem_nil,
    or_false] at hi
  obtain ⟨g, hg, rfl⟩ | rfl | rfl := hi
  · obtain ⟨cf, rfl, _⟩ := hfs g hg
    exact ⟨rfl, rfl, rfl⟩
  · exact ⟨rfl, rfl, rfl⟩
  · exact ⟨rfl, rfl, rfl⟩

theorem still_append {more : List Item} (hnew : ∀ i ∈ new, Still sid i)
    (hmore : ∀ i ∈ more, Still sid i) : ∀ i ∈ new ++ more, Still sid i :=
  List.forall_mem_append.2 ⟨hnew, hmore⟩

/-- A fresh record has the initial windows. -/
theorem new_balanced (c : Core) (sid : Nat) (hs : s.flowControl = (c.newStream sid).flowControl) :
    Balanced sid s [] := by
  have hremote := c.remoteSettings.initialWindowSize.2
  have hlocal := c.localSettings.initialWindowSize.2
  simp only [Core.newStream, Stream.new, FlowControl.withSeparateWindows] at hs
  refine ⟨?_, ?_, ?_, ?_, ?_⟩
  · rw [hs]
    exact hremote
  · rw [hs]
    simp
  · simp
  · rw [hs]
    exact Int.natCast_nonneg _
  · rw [hs]
    exact Int.ofNat_le.2 hlocal

/-- The record of a stream whose history begins. -/
theorem Balanced.begin (hs : s.flowControl = (c.newStream sid).flowControl)
    (hnew : ∀ i ∈ new, Still sid i) (sid' : Nat) :
    Balanced sid s (life (new ++ .opened sid' :: items)) := by
  have hfresh : Balanced sid s (life ([.opened sid'] ++ items)) := by
    simpa [life, isOpened] using new_balanced c sid hs
  exact hfresh.still rfl hnew

theorem moves_balanced {record record' : Option Stream} (hmoves : Moves c l sid record new record')
    (h : ∀ s ∈ record, Balanced sid s (life items)) :
    ∀ s ∈ record', Balanced sid s (life (new ++ items)) := by
  cases hmoves with
  | rest => exact h
  | pass => simp
  | @retune s fc f _ hflow =>
    have hold := h s rfl
    obtain ⟨_, rfl⟩ := FlowControl.updateInitialWindowSize_eq_ok.1 hflow
    rintro s' ⟨⟩
    have hsend := hold.send
    refine ⟨?_, ?_, hold.floor, hold.recvFloor, hold.recvCeiling⟩
    · exact (Settings.initialWindowSize _).2
    · simp only [List.nil_append]
      omega
  | reset | refuse | peerReset => simp
  | @deliver s s' f _ _ hstream _ _ _ hs =>
    have hold := h s rfl
    intro t ht
    obtain rfl := kept_eq ht
    have hfarewell := farewell_still t sid
    have hnew : ∀ i ∈ t.farewell sid ++ [.event (.dataReceived sid f.data f.endStream)], Still sid i :=
      still_append hfarewell (by simp [Still, isOpened, granted, spent])
    have hgranted := tally_eq_zero fun i hi => (hnew i hi).2.1
    have hspent := tally_eq_zero fun i hi => (hnew i hi).2.2
    have hceiling := hold.recvCeiling
    rw [life_unopened fun i hi => (hnew i hi).1]
    refine hold.turn ?_ ?_ (.inl hspent) ?_
    · rw [hgranted, hspent, hs]
      simp
    · rw [hs]
      rfl
    · rw [hs]
      simp only [FlowControl.addRecv_recvWindow]
      omega
  | @headers s s' raw endStream _ opened protocol _ _ hfinds _ _ _ _ _ _ hs =>
    have hflow : s'.flowControl = s.flowControl := (headers_sameQueue hs).flowControl
    intro t ht
    obtain rfl := kept_eq ht
    have htold : ∀ i ∈ t.farewell sid ++
        [.event (.headersReceived sid (concatenateCookies raw) endStream protocol)], Still sid i :=
      still_append (farewell_still t sid) (by simp [Still, isOpened, granted, spent])
    obtain ⟨rfl, rfl⟩ | ⟨_, rfl, rfl⟩ := hfinds
    · exact (h s rfl).still hflow htold
    · have hbegin : Balanced sid t (life (_ ++ .opened sid :: items)) := .begin hflow htold sid
      simpa using hbegin
  | @trailers s s' raw _ _ _ _ _ hs =>
    intro t ht
    obtain rfl := kept_eq ht
    refine (h s rfl).still (by rw [hs]) (still_append (farewell_still t sid) ?_)
    simp [Still, isOpened, granted, spent]
  | @update s increment _ hmax =>
    rintro s' ⟨⟩
    have hold := h s rfl
    rw [life_unopened (by simp [isOpened])]
    refine hold.turn ?_ rfl (.inl rfl) ⟨hold.recvFloor, hold.recvCeiling⟩
    simp [granted, spent]
  | @credit s increment _ _ hmax =>
    rintro s' ⟨⟩
    have hold := h s rfl
    have hfloor := hold.recvFloor
    rw [life_unopened (by simp [isOpened])]
    refine hold.turn ?_ rfl (.inl rfl) ⟨?_, hmax⟩
    · simp [granted, spent]
    · simp only [FlowControl.addRecv_recvWindow]
      omega
  | @request s _ headers endStream burst _ _ _ _ _ _ _ hs hitems =>
    rintro s' ⟨⟩
    rw [List.append_assoc]
    exact Balanced.begin (start_sameQueue hs).flowControl (burst_still hitems) sid
  | @respond s s' headers endStream burst _ _ _ _ _ _ hs hitems =>
    intro t ht
    obtain rfl := kept_eq ht
    refine (h s rfl).still ?_ (still_append (farewell_still t sid) (burst_still hitems))
    rw [hs]
    rfl
  | @trail s s' headers burst _ _ _ _ _ _ hs hitems =>
    intro t ht
    obtain rfl := kept_eq ht
    refine (h s rfl).still ?_ (still_append (farewell_still t sid) (burst_still hitems))
    rw [hs]
  | @queue s data endStream =>
    rintro s' ⟨⟩
    exact (h s rfl).still rfl (by simp [Still, isOpened, granted, spent])
  | @emptyEnd s s' _ _ _ _ hs =>
    intro t ht
    obtain rfl := kept_eq ht
    refine (h s rfl).still (by rw [hs]) (still_append (farewell_still t sid) ?_)
    simp [Still, isOpened, granted, spent]
  | @chunk s data rest _ _ _ _ hstream =>
    rintro s' ⟨⟩
    have hold := h s rfl
    rw [life_unopened (by simp [isOpened])]
    refine hold.turn ?_ rfl (.inr ?_) ⟨hold.recvFloor, hold.recvCeiling⟩
    · simp [granted, spent]
      omega
    · simp only [FlowControl.addSend_sendWindow]
      omega
  | @last s s' _ _ _ _ hstream _ _ hs =>
    intro t ht
    obtain rfl := kept_eq ht
    have hold := h s rfl
    have hfarewell := farewell_still t sid
    have hgranted : tally (granted sid) (t.farewell sid) = 0 := tally_eq_zero fun i hi => (hfarewell i hi).2.1
    have hspent : tally spent (t.farewell sid) = 0 := tally_eq_zero fun i hi => (hfarewell i hi).2.2
    let told : Item := .sent (.data ⟨sid, true, s.sendBuffer, none⟩)
    have hopened : ∀ i ∈ t.farewell sid ++ [told], isOpened i = false :=
      List.forall_mem_append.2 ⟨fun i hi => (hfarewell i hi).1, by simp [told, isOpened]⟩
    rw [life_unopened hopened]
    refine hold.turn ?_ ?_ (.inr ?_) ?_
    · rw [tally_append, tally_append, hgranted, hspent, hs]
      simp [told, granted, spent]
      omega
    · rw [hs]
      rfl
    · rw [hs]
      simp only [FlowControl.addSend_sendWindow]
      omega
    · rw [hs]
      exact ⟨hold.recvFloor, hold.recvCeiling⟩

/-- The items about a stream since its record was created. -/
def since (sid : Nat) (trace : List Item) : List Item := life (history sid trace)

/-- The windows of every live stream. -/
def AllBalanced (c : Core) : Prop :=
  ∀ sid, ∀ s ∈ c.stream? sid, Balanced sid s (since sid c.trace)

theorem new_allBalanced (role : Role) (limits : Limits) : AllBalanced (Core.new role limits) := by
  intro sid s hlive
  simp [Core.new] at hlive

theorem steps_balanced {T : Terms} (ht : Tidy c) (h : AllBalanced c) (hsteps : Steps T c d) :
    AllBalanced d := by
  induction hsteps with
  | refl => exact h
  | tail hsteps hstep ih =>
    obtain ⟨l, _, hstep⟩ := hstep
    intro sid
    obtain ⟨new, hnew, hmoves⟩ := hstep.moved (steps_tidy ht hsteps) sid
    rw [since, hnew]
    exact moves_balanced hmoves (ih sid)

/-! ## The windows of the connection in bounds -/

structure Bounded (fc : FlowControl) : Prop where
  sendFloor : 0 ≤ fc.sendWindow
  sendCeiling : fc.sendWindow ≤ maxWindowSize
  recvFloor : 0 ≤ fc.recvWindow
  recvCeiling : fc.recvWindow ≤ maxWindowSize

theorem Bounded.chargeRecv {size : Nat} (h : Bounded c.flowControl)
    (hsize : (size : Int) ≤ c.flowControl.recvWindow) : Bounded (c.chargeRecv size).flowControl := by
  have hceiling := h.recvCeiling
  refine ⟨h.sendFloor, h.sendCeiling, ?_, ?_⟩
  · simp only [Core.chargeRecv, Core.setFlow_flowControl, FlowControl.addRecv_recvWindow]
    omega
  · simp only [Core.chargeRecv, Core.setFlow_flowControl, FlowControl.addRecv_recvWindow]
    omega

theorem Bounded.chargeSend {size : Nat} (h : Bounded c.flowControl)
    (hsize : (size : Int) ≤ c.flowControl.sendWindow) : Bounded (c.chargeSend size).flowControl := by
  have hceiling := h.sendCeiling
  refine ⟨?_, ?_, h.recvFloor, h.recvCeiling⟩
  · simp only [Core.chargeSend, Core.setFlow_flowControl, FlowControl.addSend_sendWindow]
    omega
  · simp only [Core.chargeSend, Core.setFlow_flowControl, FlowControl.addSend_sendWindow]
    omega

theorem calm_bounded (hcalm : Calm c l d) (h : Bounded c.flowControl) : Bounded d.flowControl := by
  cases hcalm with
  | wholeBlock _ _ _ _ _ _ _ houtcome | endBlock _ _ _ _ _ _ houtcome =>
    have hflow := outcome_flowControl houtcome
    rw [hflow]
    exact h
  | respond | trail =>
    rw [Core.closeIf_flowControl, sendBlock_flowControl]
    exact h
  | discardData f _ hconn | reportData f _ hconn | refuseData f _ _ hconn => exact h.chargeRecv hconn
  | deliverData f _ hconn =>
    rw [Core.closeIf_flowControl]
    exact h.chargeRecv hconn
  | credit _ increment _ _ hmax =>
    have hfloor := h.recvFloor
    refine ⟨h.sendFloor, h.sendCeiling, ?_, hmax⟩
    simp only [Core.log_flowControl, Core.setFlow_flowControl, FlowControl.addRecv_recvWindow]
    omega
  | _ => exact h

theorem step_bounded (hstep : Step c l d) (h : Bounded c.flowControl) : Bounded d.flowControl := by
  cases hstep with
  | calm hcalm => exact calm_bounded hcalm h
  | wake hwake =>
    cases hwake with
    | update increment hmax =>
      have hfloor := h.sendFloor
      refine ⟨?_, hmax, h.recvFloor, h.recvCeiling⟩
      simp only [Core.setFlow_flowControl, FlowControl.addSend_sendWindow]
      omega
    | updateStream | settings => exact h
  | emit hemit =>
    cases hemit with
    | chunk _ _ _ _ _ _ hconn => exact h.chargeSend hconn
    | last _ _ _ _ hconn =>
      rw [Core.closeIf_flowControl]
      exact h.chargeSend hconn
  | start hstart =>
    cases hstart with
    | request =>
      rw [sendBlock_flowControl]
      exact h
  | push hpush =>
    cases hpush with
    | queue => exact h
    | emptyEnd =>
      rw [Core.closeIf_flowControl]
      exact h

theorem steps_bounded {T : Terms} (h : Bounded c.flowControl) (hsteps : Steps T c d) :
    Bounded d.flowControl := by
  induction hsteps with
  | refl => exact h
  | tail _ hstep ih =>
    obtain ⟨l, _, hstep⟩ := hstep
    exact step_bounded hstep ih

/-! ## Data leave within the windows -/

/-- Both windows have room for the frame. -/
def Covered (c : Core) (f : DataFrame) : Prop :=
  (f.data.length : Int) ≤ c.flowControl.sendWindow ∧
    ∃ s, c.stream? f.streamId = some s ∧ (f.data.length : Int) ≤ s.flowControl.sendWindow

/-- The data among the items had room when they left. -/
def AllCovered (c : Core) (new : List Item) : Prop :=
  ∀ later f earlier, new = later ++ .sent (.data f) :: earlier → f.data ≠ [] → earlier = [] ∧ Covered c f

theorem allCovered_none (h : ∀ f, .sent (.data f) ∈ new → f.data = []) : AllCovered c new := by
  intro later f earlier heq hdata
  have hin : .sent (.data f) ∈ new := by
    rw [heq]
    simp
  exact absurd (h f hin) hdata

/-- Only the oldest item is a frame of data. -/
theorem allCovered_last {f : DataFrame} (hnew : ∀ i ∈ new, ∀ f, i ≠ .sent (.data f)) (h : Covered c f) :
    AllCovered c (new ++ [.sent (.data f)]) := by
  intro later f' earlier heq _
  obtain ⟨a, rfl, ha⟩ | ⟨b, rfl, hb⟩ := List.append_eq_append_iff.1 heq
  · cases a with
    | nil =>
      obtain ⟨hsame, rfl⟩ := List.cons.inj ha
      cases hsame
      exact ⟨rfl, h⟩
    | cons i a => simp at ha
  · cases b with
    | nil =>
      obtain ⟨hsame, rfl⟩ := List.cons.inj hb
      cases hsame
      exact ⟨rfl, h⟩
    | cons i b =>
      obtain ⟨rfl, _⟩ := List.cons.inj hb
      exact absurd rfl (hnew (.sent (.data f')) (by simp) f')

theorem extends_covered (h : Extends c l d) (hl : ∀ f, ¬ Records c l (.sent (.data f))) :
    ∃ new, d.trace = new ++ c.trace ∧ AllCovered c new := by
  obtain ⟨new, hnew, hrecords⟩ := h
  refine ⟨new ++ l.cause, by rw [hnew, List.append_assoc], allCovered_none fun f hin => ?_⟩
  obtain hin | hin := List.mem_append.1 hin
  · exact absurd (hrecords _ hin) (hl f)
  · cases l <;> simp [Label.cause] at hin

theorem farewell_frames (s : Stream) (sid : Nat) : ∀ i ∈ s.farewell sid, ∀ f, i ≠ .sent (.data f) := by
  unfold Stream.farewell
  split <;> simp

theorem step_covered (h : Step c l d) : ∃ new, d.trace = new ++ c.trace ∧ AllCovered c new := by
  have hextends := step_extends h
  cases h with
  | calm hcalm =>
    apply extends_covered hextends
    rintro f ⟨_, rfl | ⟨sid, data, endStream, rfl⟩⟩
    · obtain h | ⟨_, _, _, h⟩ | ⟨_, _, h⟩ := calm_quiet hcalm <;> cases h
    · obtain h | ⟨_, _, _, h⟩ | ⟨_, _, h⟩ := calm_quiet hcalm <;> cases h
  | wake =>
    apply extends_covered hextends
    rintro f ⟨_, h | ⟨_, _, _, h⟩⟩ <;> cases h
  | start =>
    apply extends_covered hextends
    rintro f ⟨_, h | ⟨_, _, _, h⟩⟩ <;> cases h
  | emit hemit =>
    cases hemit with
    | @chunk s sid data rest hlive _ _ hconn hstream =>
      exact ⟨[] ++ [_], rfl, allCovered_last (by simp) ⟨hconn, s, hlive, hstream⟩⟩
    | @last s state sid hlive _ _ hconn hstream =>
      let s' : Stream := { s with state := state }
      have hroom : Covered c ⟨sid, true, s.sendBuffer, none⟩ := ⟨hconn, s, hlive, hstream⟩
      refine ⟨s'.farewell sid ++ [_], ?_, allCovered_last (farewell_frames s' sid) hroom⟩
      rw [List.append_assoc]
      exact closeIf_trace _ sid s'
  | @push sid data endStream _ hpush =>
    cases hpush with
    | queue => exact ⟨[_], rfl, allCovered_none (by simp)⟩
    | @emptyEnd s state =>
      let s' : Stream := { s with state := state }
      let told : Item := .sent (.data ⟨sid, true, [], none⟩)
      refine ⟨s'.farewell sid ++ [told, .queued sid []], ?_, allCovered_none fun f hin => ?_⟩
      · rw [List.append_assoc]
        exact closeIf_trace _ sid s'
      · obtain hin | hin := List.mem_append.1 hin
        · exact absurd rfl (farewell_frames s' sid _ hin f)
        · obtain rfl : f = ⟨sid, true, [], none⟩ := by simpa [told] using hin
          rfl

/-- Whatever data was sent, the core just before was one of the run and had room for it. -/
theorem steps_covered {T : Terms} {c₀ : Core} (hnone : ∀ f, .sent (.data f) ∉ c₀.trace)
    (hsteps : Steps T c₀ c) (later : List Item) (f : DataFrame) (earlier : List Item)
    (htrace : c.trace = later ++ .sent (.data f) :: earlier) (hdata : f.data ≠ []) :
    ∃ d, Steps T c₀ d ∧ Steps T d c ∧ d.trace = earlier ∧ Covered d f := by
  induction hsteps generalizing later with
  | refl =>
    have hin : .sent (.data f) ∈ c₀.trace := by
      rw [htrace]
      simp
    exact absurd hin (hnone f)
  | @tail c d hsteps hstep ih =>
    obtain ⟨l, hl, hstep⟩ := hstep
    obtain ⟨new, hnew, hcovered⟩ := step_covered hstep
    rw [hnew] at htrace
    obtain ⟨a, rfl, ha⟩ | ⟨b, rfl, hb⟩ := List.append_eq_append_iff.1 htrace
    · obtain ⟨e, hbefore, hafter, heq, hroom⟩ := ih a ha
      exact ⟨e, hbefore, hafter.tail ⟨l, hl, hstep⟩, heq, hroom⟩
    · cases b with
      | nil =>
        obtain ⟨e, hbefore, hafter, heq, hroom⟩ := ih [] hb.symm
        exact ⟨e, hbefore, hafter.tail ⟨l, hl, hstep⟩, heq, hroom⟩
      | cons i b =>
        obtain ⟨rfl, rfl⟩ := List.cons.inj hb
        obtain ⟨rfl, hroom⟩ := hcovered later f b rfl hdata
        exact ⟨c, hsteps, .single ⟨l, hl, hstep⟩, rfl, hroom⟩

/-! ## Conservation -/

/-- The windows of `c` and how they came about in a run from `c₀`: what was granted and what was taken
since the connection or the record of a stream came into being, their bounds, and for all data sent the
room there was for them. -/
structure Conserved (c₀ c : Core) : Prop where
  connectionSend : c.flowControl.sendWindow =
    defaultInitialWindowSize + tally (granted 0) c.trace - tally spent c.trace
  connectionRecv : c.flowControl.recvWindow =
    defaultInitialWindowSize + tally (given 0) c.trace - tally charged c.trace
  streamInitial : ∀ sid s, c.stream? sid = some s →
    s.flowControl.sendInitial = c.remoteSettings.initialWindowSize
  streamSend : ∀ sid s, c.stream? sid = some s → s.flowControl.sendWindow =
    c.remoteSettings.initialWindowSize + tally (granted sid) (since sid c.trace) -
      tally spent (since sid c.trace)
  connectionBounds : -(maxWindowSize : Int) ≤ c.flowControl.sendWindow ∧
    c.flowControl.sendWindow ≤ maxWindowSize ∧ 0 ≤ c.flowControl.recvWindow ∧
    c.flowControl.recvWindow ≤ maxWindowSize
  streamBounds : ∀ sid s, c.stream? sid = some s → -(maxWindowSize : Int) ≤ s.flowControl.sendWindow ∧
    s.flowControl.sendWindow ≤ maxWindowSize ∧ 0 ≤ s.flowControl.recvWindow ∧
    s.flowControl.recvWindow ≤ maxWindowSize
  covered : ∀ later f earlier, c.trace = later ++ .sent (.data f) :: earlier → f.data ≠ [] →
    ∃ d, Steps Terms.any c₀ d ∧ Steps Terms.any d c ∧ d.trace = earlier ∧ Covered d f

theorem steps_conserved {role : Role} {limits : Limits}
    (hsteps : Steps Terms.any (Core.new role limits) c) : Conserved (Core.new role limits) c := by
  have ht := Tidy.new role limits
  have hkept := steps_kept (new_kept role limits) hsteps
  have hbalanced := steps_balanced ht (new_allBalanced role limits) hsteps
  have hwindowed : Windowed maxWindowSize c :=
    steps_windowed ht (new_windowed role limits)
      (fun d _ => Int.ofNat_le.2 d.remoteSettings.initialWindowSize.2)
      (.inl rfl) hsteps
  have hbounded : Bounded c.flowControl := by
    have hnew : Bounded (FlowControl.new defaultInitialWindowSize) := by constructor <;> decide
    exact steps_bounded (c := Core.new role limits) hnew hsteps
  have hsend : ∀ sid s, c.stream? sid = some s → s.flowControl.sendWindow =
      c.remoteSettings.initialWindowSize + tally (granted sid) (since sid c.trace) -
        tally spent (since sid c.trace) := by
    intro sid s hlive
    rw [← (hwindowed sid s hlive).1]
    exact (hbalanced sid s hlive).send
  refine ⟨?_, ?_, fun sid s hlive => (hwindowed sid s hlive).1, hsend, ?_, fun sid s hlive => ?_, ?_⟩
  · have hconnection := hkept.send
    simp only [ledger] at hconnection
    omega
  · have hconnection := hkept.recv
    simp only [ledger] at hconnection
    omega
  · have hfloor := hbounded.sendFloor
    exact ⟨by omega, hbounded.sendCeiling, hbounded.recvFloor, hbounded.recvCeiling⟩
  · have hold := hbalanced sid s hlive
    have hfloor := hold.floor
    have hwindow := hsend sid s hlive
    exact ⟨by omega, (hwindowed sid s hlive).2, hold.recvFloor, hold.recvCeiling⟩
  · exact steps_covered (by simp [Core.new]) hsteps

/-- Flow control is conserved as long as nothing received was refused, and `consume_send` never
fails. -/
theorem windows_conserved {role : Role} {limits : Limits} {history : List Record} {c : Connection}
    (hrun : Run (Connection.new role limits) history c) (hsound : Sound history) :
    Conserved (Core.new role limits) c.toCore ∧
      ∀ k : Call, k.flushes = true → ∀ (fc : FlowControl) (size : Nat) (e : Error), size ≤ isizeMax →
        fc.consumeSend size = .error e → (k.exec c).1 ≠ .error e := by
  refine ⟨steps_conserved (run_course hrun.any hsound).steps, ?_⟩
  intro k hk fc size e hsize hconsume herror
  have hplain := exec_plain (run_tidy hrun.any) hk herror
  have hexhausted : e = .connectionError .flowControlError "send window exhausted" := by
    unfold FlowControl.consumeSend FlowControl.checkSize at hconsume
    split at hconsume
    · omega
    · split at hconsume <;> cases hconsume
      rfl
  rw [hexhausted] at hplain
  obtain h | h := hplain <;> cases h

/-- A client that may send three octets, then one more, and has five. -/
def partialCalls : List Call :=
  [.startStream getRequest false,
    .feed (serverBytes [.settings ⟨false, [.initialWindowSize ⟨3, by decide⟩]⟩]), .process .listed,
    .sendData 1 (ascii "hello") false, .feed (Frame.wire (.windowUpdate 1 1)), .process .listed]

theorem windows_conserved_partial :
    ∃ history c, Run (Connection.new .client .default) history c ∧ Sound history ∧
      c.flowControl.sendWindow = 65531 ∧ (c.stream? 1).map Stream.sendBuffer = some (ascii "o") ∧
      Conserved (Core.new .client .default) c.toCore ∧
      ((Call.sendData 1 [] false).exec c).1 ≠
        .error (.connectionError .flowControlError "send window exhausted") := by
  have hrun := Run.execAll (c := Connection.new .client .default) .start partialCalls
  have hsound : Sound (execAll partialCalls [] (Connection.new .client .default)).1 := by
    unfold Sound
    decide +kernel
  obtain ⟨hconserved, hconsume⟩ := windows_conserved hrun hsound
  refine ⟨_, _, hrun, hsound, by decide +kernel, by decide +kernel, hconserved, ?_⟩
  exact hconsume _ rfl (FlowControl.new 0) 1 _ (by decide) rfl

end Http2.Accounts
