import Http2.Connection.Sequence
import Http2.Frame.RoundTrip
import Http2.WebTransport.Session

/-! What one side announces with `initiate` is what the other side holds after its first frame. -/
namespace Http2.Negotiation

open Hpack Lib Lib.Prog Connection

/-! ## The frame that is announced -/

/-- The first SETTINGS frame of a side with these limits. -/
def announcement (role : Role) (limits : Limits) : SettingsFrame :=
  ⟨false, settingsToSend role (.fromLimits limits)⟩

section Announcement

variable {role : Role} {limits : Limits}

/-- Leaving ENABLE_PUSH=0 out changes nothing. -/
theorem foldl_filter {p : Setting → Bool} (hp : ∀ x, p x = false → ∃ b, x = .enablePush b)
    {settings : List Setting} (hsettings : ∀ b, .enablePush b ∈ settings → b = false) {s : Settings}
    (hs : s.enablePush = false) :
    (settings.filter p).foldl Settings.apply s = settings.foldl Settings.apply s := by
  induction settings generalizing s with
  | nil => rfl
  | cons x settings ih =>
    have hrest : ∀ b, .enablePush b ∈ settings → b = false :=
      fun b hb => hsettings b (List.mem_cons_of_mem x hb)
    cases hx : p x with
    | true =>
      have happly : (s.apply x).enablePush = false := by
        cases x with
        | enablePush b => exact hsettings b List.mem_cons_self
        | _ => exact hs
      rw [List.filter_cons_of_pos hx]
      exact ih hrest happly
    | false =>
      obtain ⟨b, rfl⟩ := hp x hx
      obtain rfl := hsettings b List.mem_cons_self
      have happly : s.apply (.enablePush false) = s := by
        rw [Settings.apply, ← hs]
      rw [List.filter_cons_of_neg (by rw [hx]; exact Bool.false_ne_true), List.foldl_cons, happly]
      exact ih hrest hs

/-- What a server leaves out is the default. -/
theorem foldl_settingsToSend (role : Role) {s : Settings} (hpush : s.enablePush = false) :
    (settingsToSend role s).foldl Settings.apply Settings.new = s := by
  unfold settingsToSend
  rw [foldl_filter ?_ (fun b hb => (Settings.sends_of_mem hb).trans hpush) rfl]
  · exact s.foldl_toSettingsList
  · intro x hx
    cases x with
    | enablePush b => exact ⟨b, rfl⟩
    | _ => cases hx

theorem mem_settingsToSend {s : Settings} {x : Setting} (h : x ∈ settingsToSend role s) : s.Sends x := by
  unfold settingsToSend at h
  exact Settings.sends_of_mem (List.mem_of_mem_filter h)

theorem announcement_foldl : (announcement role limits).settings.foldl Settings.apply Settings.new =
    Settings.fromLimits limits := foldl_settingsToSend role rfl

theorem announcement_sends {x : Setting} (h : x ∈ (announcement role limits).settings) :
    (Settings.fromLimits limits).Sends x := mem_settingsToSend h

theorem announcement_encodable : (Frame.settings (announcement role limits)).Encodable := by
  intro x hx
  refine ⟨_, _, Setting.fromWire_asWire ?_⟩
  cases x with
  | unknown id value => exact (announcement_sends hx).elim
  | _ => trivial

theorem announcement_payload : (Frame.settings (announcement role limits)).payload.length ≤ 16384 := by
  have hpayload : (Frame.settings (announcement role limits)).payload =
      (announcement role limits).settings.flatMap Setting.encode :=
    payload_of_encode (f := .settings (announcement role limits)) rfl
  have hlength : (announcement role limits).settings.length ≤ 15 :=
    (List.length_filter_le _ _).trans (Settings.length_toSettingsList _)
  rw [hpayload, length_flatMap_encode]
  omega

/-- Flags are announced as set or not at all, so nothing in the frame offends. -/
theorem announcement_clean (role' : Role) :
    Clean role' (fixedPriorities [(announcement role limits).settings]) []
      (announcement role limits).settings := by
  intro before x after hsplit
  have hmem : x ∈ (announcement role limits).settings := by
    rw [hsplit]
    exact List.mem_append_right before List.mem_cons_self
  have hsends := announcement_sends hmem
  cases x with
  | enablePush b =>
    rintro ⟨_, rfl⟩
    cases hsends
  | enableConnectProtocol b =>
    rintro ⟨rfl, _⟩
    cases hsends
  | noRfc7540Priorities b =>
    obtain rfl : b = true := hsends
    -- Every value that the frame may have is the same.
    have hfixed : fixedPriorities [(announcement role limits).settings] = true := by
      cases hfirst : firstPriorities (announcement role limits).settings with
      | none =>
        have hnone := List.findSome?_eq_none_iff.1 hfirst _ hmem
        cases hnone
      | some b =>
        obtain ⟨y, hy, hb⟩ := List.exists_of_findSome?_eq_some hfirst
        have hone := announcement_sends hy
        cases y with
        | noRfc7540Priorities value =>
          obtain rfl : value = true := hone
          rw [fixedPriorities, List.head?_cons, Option.bind_some, hfirst, ← hb]
          rfl
        | _ => cases hb
    exact fun hne => hne hfixed.symm
  | _ => exact id

end Announcement

/-! ## The octets of `initiate` -/

/-- What a side sends before its first frame. -/
def prologue : Role → Bytes
  | .client => connectionPreface
  | .server => []

theorem sendFrame_output (f : Frame) (c : Connection) :
    Ensures (sendFrame f) c fun _ d => c.outputBuffer <+: d.outputBuffer := by
  unfold sendFrame
  split
  · exact List.prefix_refl _
  · exact List.prefix_append _ _

theorem sendWindowUpdate_output (increment : Nat) (c : Connection) :
    Ensures (sendWindowUpdate 0 increment) c fun _ d => c.outputBuffer <+: d.outputBuffer := by
  simp only [sendWindowUpdate, ensures_bind, ensures_get, ensures_require, if_true, ensures_lift]
  refine ⟨fun _ => ⟨fun _ => ?_, fun _ => List.prefix_refl _⟩, fun _ => List.prefix_refl _⟩
  cases c.flowControl.addRecvWindow increment with
  | error e => exact List.prefix_refl _
  | ok fc => exact sendFrame_output _ (c.setCore (c.toCore.setFlow fc))

theorem sendInitialConnectionWindowUpdate_output (c : Connection) :
    Ensures sendInitialConnectionWindowUpdate c fun _ d => c.outputBuffer <+: d.outputBuffer := by
  simp only [sendInitialConnectionWindowUpdate, ensures_bind, ensures_get, ensures_ite]
  refine ⟨fun _ => List.prefix_refl _, fun _ => ⟨fun _ => ?_, fun _ => List.prefix_refl _⟩⟩
  generalize c.connectionWindowSize - defaultInitialWindowSize = increment
  apply ensures_mono (sendWindowUpdate_output increment c)
  intro r d hd
  cases r <;> exact hd

/-- The preface and the SETTINGS frame leave first. -/
theorem initiate_output {c : Connection} (h : c.prefaceSent = false) :
    c.outputBuffer ++ prologue c.role ++
      Frame.wire (.settings ⟨false, settingsToSend c.role c.localSettings⟩) <+:
        (initiate c).2.outputBuffer := by
  have hensures : Ensures initiate c fun _ d => c.outputBuffer ++ prologue c.role ++
      Frame.wire (.settings ⟨false, settingsToSend c.role c.localSettings⟩) <+: d.outputBuffer := by
    simp only [initiate, ensures_bind, ensures_get, ensures_ite, ensures_modify]
    refine ⟨fun hsent => absurd hsent (by simp [h]), fun _ => ?_⟩
    rw [ensures_sendFrame (f := .settings _) rfl]
    apply ensures_mono (sendInitialConnectionWindowUpdate_output _)
    intro r d hd
    cases hrole : c.role <;> simpa [hrole, prologue, addOutput, Frame.wire, Frame.encode] using hd
  exact hensures

/-! ## A side that has received nothing -/

/-- What holds until the first frame. -/
structure Fresh (c : Core) : Prop where
  windowed : Windowed 65535 c
  remote : c.remoteSettings = Settings.new
  continuation : c.headerContinuationStream = none

theorem new_fresh (role : Role) (limits : Limits) : Fresh (Core.new role limits) :=
  ⟨new_windowed role limits, rfl, rfl⟩

theorem Fresh.size {c : Core} (h : Fresh c) : (c.remoteSettings.initialWindowSize : Int) = 65535 := by
  rw [h.remote]
  rfl

theorem steps_fresh {T : Terms} {c d : Core} (ht : Tidy c) (h : Fresh c) (hsteps : Steps T c d)
    (hnone : ∀ f, .received f ∉ d.trace) : Fresh d := by
  induction hsteps with
  | refl => exact h
  | tail hsteps hstep ih =>
    obtain ⟨l, _, hstep⟩ := hstep
    obtain ⟨new, htrace, _⟩ := step_extends hstep
    rw [htrace] at hnone
    have hl : ∀ f, l ≠ .frame f := by
      rintro f rfl
      exact hnone f (List.mem_append_right new List.mem_cons_self)
    have hbefore := ih fun f hf =>
      hnone f (List.mem_append_right new (List.mem_append_right l.cause hf))
    refine ⟨?_, ?_, ?_⟩
    · exact step_windowed (steps_tidy ht hsteps) hbefore.windowed hbefore.size.le (.inr hl) hstep
    · exact (step_same (fun f heq => absurd heq (hl f)) hstep).remote.trans hbefore.remote
    · exact ((Change.step hstep).headerContinuationStream hl).trans hbefore.continuation

/-- No window that WINDOW_UPDATE never raised can overflow. -/
theorem Fresh.fits {c : Core} (h : Fresh c) (settings : List Setting) : ¬ Overflows c settings := by
  rintro ⟨sid, s, hlive, hbig⟩
  have hwindow := (h.windowed sid s hlive).2
  have hsize := h.size
  have hmax : ((settings.foldl Settings.apply c.remoteSettings).initialWindowSize : Int) ≤ maxWindowSize :=
    Int.ofNat_le.2 (settings.foldl Settings.apply c.remoteSettings).initialWindowSize.2
  omega

theorem frames_none {items : List Item} (h : ∀ f, .received f ∉ items) : frames items = [] := by
  induction items with
  | nil => rfl
  | cons i items ih =>
    have hitems := ih fun f hf => h f (List.mem_cons_of_mem i hf)
    cases i with
    | received f => exact absurd List.mem_cons_self (h f)
    | _ => exact hitems

theorem decode_maxFrameSize {d d' : FrameDecoder} {r : Except Error (Option Frame)}
    (h : d.decode = (r, d')) : d'.maxFrameSize = d.maxFrameSize := by
  have hpayload : ∀ (d : FrameDecoder) header, (d.decodePayload header).2.maxFrameSize = d.maxFrameSize := by
    intro d header
    unfold FrameDecoder.decodePayload
    split <;> rfl
  have hsame : d.decode.2.maxFrameSize = d.maxFrameSize := by
    unfold FrameDecoder.decode
    split
    · exact hpayload _ _
    · split
      · rfl
      · split
        · rfl
        · split
          · rfl
          · exact hpayload _ _
  rw [h] at hsame
  exact hsame

theorem passes_maxFrameSize {it : IterOrder} {c d : Connection} (h : Passes it c d) :
    d.frameDecoder.maxFrameSize = c.frameDecoder.maxFrameSize := by
  cases h with
  | frame hdecode hrun =>
    have hkept : d.frameDecoder = _ := congrArg Prod.fst ((handleFrame_intake it _).run hrun)
    rw [hkept]
    exact decode_maxFrameSize hdecode
  | reject hdecode hrun =>
    have hkept : d.frameDecoder = _ := congrArg Guards.frameDecoder ((rejectFrame_keeps _).run hrun)
    rw [hkept]
    exact decode_maxFrameSize hdecode

theorem process_maxFrameSize {it : IterOrder} {c d : Connection} (h : process it c = (.ok (), d)) :
    d.frameDecoder.maxFrameSize = c.frameDecoder.maxFrameSize := by
  obtain ⟨c', hreach, rest, hdecode, rfl⟩ := process_iff.1 h
  have hsame : c'.frameDecoder.maxFrameSize = c.frameDecoder.maxFrameSize := by
    clear hdecode h
    induction hreach with
    | refl => rfl
    | tail _ hpasses ih => exact (passes_maxFrameSize hpasses).trans ih
  exact (decode_maxFrameSize hdecode).trans hsame

theorem run_maxFrameSize {role : Role} {limits : Limits} {history : List Record} {c : Connection}
    (h : Run (Connection.new role limits) history c) (hsound : Sound history) :
    c.frameDecoder.maxFrameSize = limits.maxFrameSize := by
  induction h with
  | start => rfl
  | @call _ c k _ ih =>
    refine Eq.trans ?_ (ih hsound.tail)
    by_cases hprocess : ∃ it, k = .process it
    · obtain ⟨it, rfl⟩ := hprocess
      obtain ⟨v, hv⟩ := hsound.head rfl
      exact process_maxFrameSize (exec_process_ok hv)
    · exact (exec_spares (fun it heq => hprocess ⟨it, heq⟩) c).1.maxFrameSize

/-! ## From one side to the other -/

open WebTransport (WtConfig)

/-- `d` holds what `s` announced, and both sides derive the same WebTransport limits from it. -/
structure Agrees (limits : Limits) (s d : Connection) : Prop where
  remote : d.remoteSettings = Settings.fromLimits limits
  config : ∀ config : WtConfig, config.applyAdvertisedSettings s.localSettings =
    WtConfig.peerDefault.overlaySettings d.remoteSettings

/-- What the frame does to a side that has received nothing and whose decoder has come to it. -/
theorem announcement_passes {role peerRole : Role} {limits peerLimits : Limits}
    {history : List Record} {r : Connection} (it : IterOrder)
    (hreceiver : Run (Connection.new peerRole peerLimits) history r) (hsound : Sound history)
    (hnone : ∀ f, .received f ∉ r.trace) {rest : Bytes}
    (hawaits : FrameDecoder.Awaits r.frameDecoder.maxFrameSize r.frameDecoder
      (Frame.wire (.settings (announcement role limits)) ++ rest)) :
    ∃ d, Passes it r d ∧ FrameDecoder.Awaits r.frameDecoder.maxFrameSize d.frameDecoder rest ∧
      d.remoteSettings = Settings.fromLimits limits := by
  have hnegotiated : Negotiated False peerRole r :=
    run_negotiated (T := .any) (fun h => h.elim) hreceiver.any hsound
  have hfresh : Fresh r.toCore := steps_fresh (Tidy.new _ _) (new_fresh _ _)
    (run_course hreceiver.any hsound).steps hnone
  have hframes : frames r.trace = [] := frames_none hnone
  have hlimit := run_maxFrameSize hreceiver hsound
  have hbounds := peerLimits.maxFrameSize.2
  rw [← hlimit] at hbounds
  have hreader := @FrameDecoder.reader r.frameDecoder.maxFrameSize (by omega)
  obtain ⟨left, hdecode, hleft⟩ := hreader.whole _
    ⟨announcement_encodable, announcement_payload.trans hbounds.1⟩ hawaits
  have hclean : Admissible r (announcement role limits) (announcement role limits).settings := by
    rw [Admissible, hframes]
    exact announcement_clean r.role
  obtain ⟨_, d, hrun⟩ | ⟨hover, _⟩ :=
    offered_result it hnegotiated (.inr hframes) rfl hfresh.continuation hdecode hclean
  · obtain ⟨hd, hreceived⟩ := passes_settings hnegotiated hdecode rfl hrun
    have hkept : d.frameDecoder = left := congrArg Prod.fst ((handleFrame_intake it _).run hrun)
    refine ⟨d, .frame hdecode hrun, hkept ▸ hleft, ?_⟩
    rw [hd.remote, hreceived, hframes, List.nil_append, List.flatten_singleton]
    exact announcement_foldl
  · exact absurd hover (hfresh.fits _)

/-- The value that a call returns makes no difference to what it leaves. -/
theorem return_state {α β : Type} (m : Conn α) (g : α → β) (c : Connection) :
    ((do return g (← m)) c : Except Error β × Connection).2 = (m c).2 := by
  cases hrun : m c with
  | mk r d =>
    cases r with
    | ok a => exact congrArg Prod.snd (bind_ok hrun _)
    | error e => exact congrArg Prod.snd (bind_error hrun _)

/-- What the sender of the first SETTINGS derives from its own limits and the other side from what
it reads is the same. -/
theorem settings_transfer {role peerRole : Role} {limits peerLimits : Limits}
    {history peerHistory : List Record} {s r : Connection} (it : IterOrder)
    (hsender : Run (Connection.new role limits) history s) (hsent : s.prefaceSent = false)
    (hreceiver : Run (Connection.new peerRole peerLimits) peerHistory r) (hsound : Sound peerHistory)
    (hnone : ∀ f, .received f ∉ r.trace) :
    s.outputBuffer ++ prologue role ++ Frame.wire (.settings (announcement role limits)) <+:
        (initiate s).2.outputBuffer ∧
      ∀ rest, FrameDecoder.Awaits r.frameDecoder.maxFrameSize r.frameDecoder
          (Frame.wire (.settings (announcement role limits)) ++ rest) →
        ∃ d, Passes it r d ∧ FrameDecoder.Awaits r.frameDecoder.maxFrameSize d.frameDecoder rest ∧
          Agrees limits (initiate s).2 d := by
  have hrole : s.role = role := evolves_role (run_evolves hsender.any)
  have hbefore : s.localSettings = Settings.fromLimits limits :=
    evolves_localSettings (run_evolves hsender.any)
  have hafter : (initiate s).2.localSettings = Settings.fromLimits limits := by
    have hlocal := evolves_localSettings (run_evolves (hsender.call .initiate).any)
    exact (congrArg (·.localSettings) (return_state initiate (fun _ => Value.unit) s)).symm.trans hlocal
  constructor
  · have houtput := initiate_output hsent
    rw [hrole, hbefore] at houtput
    exact houtput
  · intro rest hawaits
    obtain ⟨d, hpasses, hleft, hd⟩ := announcement_passes it hreceiver hsound hnone hawaits
    refine ⟨d, hpasses, hleft, hd, ?_⟩
    intro config
    rw [WtConfig.applyAdvertisedSettings, hafter, hd]

/-- A server takes the preface off what its client sends first. -/
theorem feed_preface (limits : Limits) (octets : Bytes) :
    (feed (connectionPreface ++ octets) (Connection.new .server limits)).2.frameDecoder =
      (FrameDecoder.new limits.maxFrameSize).feed octets := by
  have hlength : connectionPreface.length = connectionPrefaceLen := rfl
  have hconsume : min (connectionPreface ++ octets).length connectionPrefaceLen =
      connectionPrefaceLen := by
    rw [List.length_append]
    omega
  have htake : (connectionPreface ++ octets).take connectionPrefaceLen = connectionPreface :=
    List.take_left' hlength
  have hdrop : (connectionPreface ++ octets).drop connectionPrefaceLen = octets :=
    List.drop_left' hlength
  have hensures : Ensures (feed (connectionPreface ++ octets)) (Connection.new .server limits)
      fun _ d => d.frameDecoder = (FrameDecoder.new limits.maxFrameSize).feed octets := by
    simp only [feed, ensures_bind, ensures_get, ensures_ite, ensures_modify, ensures_require,
      ensures_pure, Connection.new, List.length_nil, Nat.sub_zero, List.nil_append, hconsume, htake,
      hdrop]
    refine ⟨fun _ => ⟨fun _ => ⟨fun hshort => ?_, fun _ => trivial⟩, fun hbad => ?_⟩, fun hrole => ?_⟩
    · omega
    · exact absurd (List.take_length (l := connectionPreface)).symm hbad
    · exact absurd ⟨rfl, trivial⟩ hrole
  exact hensures

/-- A client with limits of its own for WebTransport. -/
def announced : Limits :=
  { Limits.default with
    connectionWindowSize := ⟨131070, by decide⟩
    enableConnectProtocol := true
    noRfc7540Priorities := true
    wtEnabled := true
    wtInitialMaxData := some 1000000
    wtInitialMaxStreamDataUni := some 7
    wtInitialMaxStreamsUni := some 3
    wtInitialMaxStreamsBidi := some 5
    wtInitialMaxStreamDataBidiRemote := some 9
    window_ge := by decide
    connect_of_wt := by decide
    wt_of_settings := by decide }

/-- The server that was fed with all that this client sends first. -/
def announcedTo : Connection :=
  ((Call.feed (initiate (Connection.new .client announced)).2.outputBuffer).exec
    (Connection.new .server .default)).2

theorem settings_transfer_announced :
    ∃ d, Passes .listed announcedTo d ∧ d.remoteSettings.wtInitialMaxData = some 1000000 ∧
      WtConfig.default.applyAdvertisedSettings
          (initiate (Connection.new .client announced)).2.localSettings =
        WtConfig.peerDefault.overlaySettings d.remoteSettings := by
  have hreceiver : Run (Connection.new .server .default) _ announcedTo := .call (.feed _) .start
  have hsound : Sound [⟨.feed (initiate (Connection.new .client announced)).2.outputBuffer,
      ((Call.feed (initiate (Connection.new .client announced)).2.outputBuffer).exec
        (Connection.new .server .default)).1⟩] := by
    unfold Sound
    decide +kernel
  have hnone : ∀ f, .received f ∉ announcedTo.trace := by
    have htrace : announcedTo.trace = [] := by decide +kernel
    rw [htrace]
    exact fun _ h => by cases h
  have hsender : Run (Connection.new .client announced) [] (Connection.new .client announced) := .start
  obtain ⟨⟨rest, hoctets⟩, htransfer⟩ :=
    settings_transfer .listed hsender rfl hreceiver hsound hnone
  have hdecoder : announcedTo.frameDecoder = (FrameDecoder.new 16384).feed
      (Frame.wire (.settings (announcement .client announced)) ++ rest) := by
    rw [announcedTo, ← hoctets]
    refine (congrArg (·.frameDecoder) (return_state (feed _) Value.length _)).trans ?_
    exact (congrArg (fun o => (feed o _).2.frameDecoder) (List.append_assoc _ _ _)).trans
      (feed_preface .default _)
  obtain ⟨d, hpasses, _, hagrees⟩ := htransfer rest (by
    rw [hdecoder]
    exact FrameDecoder.awaits_feed _ (FrameDecoder.awaits_new 16384))
  refine ⟨d, hpasses, ?_, hagrees.config .default⟩
  rw [hagrees.remote]
  rfl

end Http2.Negotiation
