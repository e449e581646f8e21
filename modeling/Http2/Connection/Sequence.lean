import Http2.Connection.Negotiation

/-! The SETTINGS frames of the peer one after the other: what they have left, and what comes of the
next one. -/
namespace Http2.Negotiation

open Hpack Lib Lib.Prog Connection

/-! ## One frame after others -/

section Frame

variable {it : IterOrder} {f : SettingsFrame} {c d : Connection} {frames : List (List Setting)}
  {settings part rest : List Setting}

/-- The parameter after `before` is refused when it offends. -/
theorem refuses_after_iff {before after : List Setting} {s : Setting} (h : Remembers c frames [])
    (hsplit : settings = before ++ s :: after) :
    refuses (before.foldl accept c) s = true ↔
      Offends c.role (fixedPriorities (frames ++ [settings])) (frames.flatten ++ before) s := by
  have hrole : (before.foldl accept c).role = c.role := by rw [foldl_accept_toCore]
  rw [hsplit, refuses_iff (remembers_foldl h before), hrole]
  rfl

theorem clean_refuses (h : Remembers c frames []) (hsplit : settings = part ++ rest)
    (hclean : Clean c.role (fixedPriorities (frames ++ [settings])) frames.flatten part) :
    ∀ before s after, part = before ++ s :: after → refuses (before.foldl accept c) s = false := by
  intro before s after hpart
  rw [hpart, List.append_assoc, List.cons_append] at hsplit
  have hnot := hclean before s after hpart
  rw [← refuses_after_iff h hsplit] at hnot
  simpa using hnot

/-- Either no parameter of a frame is refused or there is a first one. -/
theorem refuses_cases (settings : List Setting) (c : Connection) :
    (∀ before s after, settings = before ++ s :: after → refuses (before.foldl accept c) s = false) ∨
      ∃ before s after, settings = before ++ s :: after ∧
        (∀ b s' a, before = b ++ s' :: a → refuses (b.foldl accept c) s' = false) ∧
        refuses (before.foldl accept c) s = true := by
  induction settings generalizing c with
  | nil => exact .inl fun before s after h => absurd h (by simp)
  | cons s settings ih =>
    cases hs : refuses c s with
    | true => exact .inr ⟨[], s, settings, rfl, fun b s' a h => absurd h (by simp), hs⟩
    | false =>
      -- The frame without its first parameter, after that one was accepted.
      have hcons : ∀ {part : List Setting},
          (∀ b s' a, part = b ++ s' :: a → refuses (b.foldl accept (accept c s)) s' = false) →
          ∀ b s' a, s :: part = b ++ s' :: a → refuses (b.foldl accept c) s' = false := by
        intro part hpart b s' a hsplit
        cases b with
        | nil =>
          obtain ⟨rfl, _⟩ := List.cons.inj hsplit
          exact hs
        | cons s'' b =>
          obtain ⟨rfl, htail⟩ := List.cons.inj hsplit
          exact hpart b s' a htail
      obtain hall | ⟨before, s', after, rfl, hbefore, hs'⟩ := ih (accept c s)
      · exact .inl (hcons hall)
      · exact .inr ⟨s :: before, s', after, rfl, hcons hbefore, hs'⟩

theorem handleSettings_refused {before after : List Setting} {s : Setting} (hack : f.ack = false)
    (hsplit : f.settings = before ++ s :: after)
    (hbefore : ∀ b s' a, before = b ++ s' :: a → refuses (b.foldl accept c) s' = false)
    (hs : refuses (before.foldl accept c) s = true) :
    handleSettings it f c =
      (.error (.connectionError .protocolError (complaint s)), before.foldl accept c) := by
  unfold handleSettings
  rw [if_neg (by simp [hack])]
  refine (bind_ok (m := get) rfl _).trans (bind_error ?_ _)
  rw [hsplit]
  exact applySettings_refuses hbefore hs

/-- What is remembered once the frame was accepted: a first frame that says nothing of
NO_RFC7540_PRIORITIES means 0. -/
theorem remembers_settled (h : Remembers c frames []) (hd : Accepted f c d)
    (hwaiting : frames = [] → c.state = .waitingPreface) : Remembers d (frames ++ [f.settings]) [] := by
  obtain ⟨hconnect, hpriorities⟩ := remembers_foldl h f.settings
  refine ⟨?_, ?_⟩
  · rw [hd.connect, hconnect]
    simp
  · rw [hd.priorities, hpriorities]
    cases frames with
    | nil =>
      have hstate := hwaiting rfl
      cases hfirst : firstPriorities f.settings <;> simp [hstate, hfirst]
    | cons first frames => simp

end Frame

/-! ## The invariant -/

def isGoaway : Call → Bool
  | .sendGoaway _ _ => true
  | _ => false

/-- `send_goaway` waits for the peer's first SETTINGS. -/
def patient : Terms where
  frame _ _ := True
  refusal _ _ := True
  api c k := isGoaway k = true → frames c.trace ≠ []

/-- What holds as long as nothing received was refused, if `waits` says that `send_goaway` waits. -/
structure Negotiated (waits : Prop) (role : Role) (c : Connection) : Prop where
  tidy : Tidy c.toCore
  windowed : Windowed maxWindowSize c.toCore
  role : c.role = role
  remote : c.remoteSettings = (frames c.trace).flatten.foldl Settings.apply Settings.new
  acks : acks c.trace = (frames c.trace).length
  remembers : waits ∨ frames c.trace = [] → Remembers c (frames c.trace) []
  waiting : waits → frames c.trace = [] → c.state = .waitingPreface
  -- A server decodes nothing before the preface.
  preface : c.role = .server → c.prefaceReceived = false →
    c.frameDecoder.decode = (.ok none, c.frameDecoder)

section Invariant

variable {waits : Prop} {role : Role} {limits : Limits} {it : IterOrder} {c d : Connection}

theorem new_negotiated : Negotiated waits role (Connection.new role limits) where
  tidy := Tidy.new role limits
  windowed := new_windowed role limits
  role := rfl
  remote := rfl
  acks := rfl
  remembers _ := ⟨iff_of_false Bool.false_ne_true List.not_mem_nil, rfl⟩
  waiting _ _ := rfl
  preface _ _ := rfl

theorem remote_le (c : Core) : (c.remoteSettings.initialWindowSize : Int) ≤ maxWindowSize :=
  Int.ofNat_le.2 c.remoteSettings.initialWindowSize.2

/-- Transitions that take no SETTINGS in. -/
theorem Negotiated.quiet {T : Terms} (h : Negotiated waits role c)
    (hT : ∀ c f, T.frame c f → isInitialSettings f = false) (hsteps : Steps T c.toCore d.toCore)
    (hpriorities : d.initialNoRfc7540Priorities = c.initialNoRfc7540Priorities)
    (hconnect : d.peerSentEnableConnectProtocol = c.peerSentEnableConnectProtocol)
    (hwaiting : waits → frames c.trace = [] → d.state = c.state)
    (hpreface : d.role = .server → d.prefaceReceived = false →
      d.frameDecoder.decode = (.ok none, d.frameDecoder)) : Negotiated waits role d := by
  have hsame := steps_same hT hsteps
  refine ⟨steps_tidy h.tidy hsteps, ?_, ?_, ?_, ?_, ?_, ?_, hpreface⟩
  · exact steps_windowed h.tidy h.windowed (fun c _ => remote_le c) (.inl rfl) hsteps
  · exact (evolves_role (steps_evolves hsteps)).trans h.role
  · rw [hsame.remote, hsame.frames, h.remote]
  · rw [hsame.acks, hsame.frames, h.acks]
  · rw [hsame.frames]
    intro hwaits
    obtain ⟨hc, hp⟩ := h.remembers hwaits
    exact ⟨hconnect ▸ hc, hpriorities ▸ hp⟩
  · rw [hsame.frames]
    exact fun hwaits hnone => (hwaiting hwaits hnone).trans (h.waiting hwaits hnone)

/-- The terms that only the frame `f` meets. -/
def exactly (f : Frame) : Terms where
  frame _ g := g = f
  refusal _ _ := True
  api _ _ := True

/-- The terms that no frame meets. -/
def unheard : Terms where
  frame _ _ := False
  refusal _ _ := True
  api _ _ := True

theorem handleFrame_steps {f : Frame} (ht : Tidy c.toCore) (h : handleFrame it f c = (.ok (), d)) :
    Steps (exactly f) c.toCore d.toCore := by
  have hfollows : Ensures (handleFrame it f) c (Follows (exactly f) c.toCore) :=
    handleFrame_follows it f ht rfl
  rw [ensures_run h] at hfollows
  exact hfollows.steps

theorem rejectFrame_steps {e : Error} (ht : Tidy c.toCore) (he : e.ofDecoder = true)
    (h : rejectFrame e c = (.ok (), d)) : Steps unheard c.toCore d.toCore := by
  have hfollows : Ensures (rejectFrame e) c (Follows unheard c.toCore) :=
    rejectFrame_follows ht (fun _ _ _ => trivial) he
  rw [ensures_run h] at hfollows
  exact hfollows.steps

/-- A SETTINGS frame that was accepted. -/
theorem handleSettings_ok {f : SettingsFrame} {c₀ : Core} (ht : Tidy c₀)
    (hw : Windowed maxWindowSize c₀) (hack : f.ack = false)
    (hc : c.toCore = c₀.log (.received (.settings f)))
    (h : handleSettings it f c = (.ok (), d)) : Accepted f c d := by
  obtain hall | ⟨before, s, after, hsplit, hbefore, hs⟩ := refuses_cases f.settings c
  · have hresult := handleSettings_result it ht hw hack hc hall
    rw [ensures_run h] at hresult
    obtain ⟨_, _, haccepted⟩ | ⟨herror, _⟩ := hresult
    · exact haccepted
    · cases herror
  · cases h.symm.trans (handleSettings_refused hack hsplit hbefore hs)

/-- Before the preface a server has nothing to decode. -/
theorem Negotiated.prefaced {r : Except Error (Option Frame)} {rest : FrameDecoder}
    (h : Negotiated waits role c) (hdecode : c.frameDecoder.decode = (r, rest)) (hr : r ≠ .ok none)
    (hserver : c.role = .server) : c.prefaceReceived ≠ false := by
  intro hnone
  exact hr (congrArg Prod.fst (hdecode.symm.trans (h.preface hserver hnone)))

theorem passes_reject {e : Error} {rest : FrameDecoder} (h : Negotiated waits role c)
    (hdecode : c.frameDecoder.decode = (.error e, rest))
    (hrun : rejectFrame e (c.take rest) = (.ok (), d)) : Negotiated waits role d := by
  have hguards := (rejectFrame_keeps e).run hrun
  have he := c.frameDecoder.decode_complains e (congrArg Prod.fst hdecode)
  have hsteps := rejectFrame_steps (c := c.take rest) h.tidy he hrun
  have hrole : d.role = c.role := evolves_role (steps_evolves hsteps)
  refine h.quiet (T := unheard) (fun _ _ h => h.elim) hsteps
    (congrArg Guards.initialNoRfc7540Priorities hguards)
    (congrArg Guards.peerSentEnableConnectProtocol hguards)
    (fun _ _ => congrArg Guards.state hguards) fun hserver hnone => ?_
  have hpreface : d.prefaceReceived = c.prefaceReceived := congrArg Guards.prefaceReceived hguards
  exact absurd (hpreface ▸ hnone) (h.prefaced hdecode (by simp) (hrole ▸ hserver))

theorem passes_frame {f : Frame} {rest : FrameDecoder} (h : Negotiated waits role c)
    (hdecode : c.frameDecoder.decode = (.ok (some f), rest)) (hf : isInitialSettings f = false)
    (hrun : handleFrame it f (c.take rest) = (.ok (), d)) : Negotiated waits role d := by
  obtain ⟨_, hfirst, _, hdispatch⟩ := handleFrame_ok hrun
  obtain ⟨state, fields, hguards⟩ := dispatchFrame_guards it hf
    ((c.take rest).setCore ((c.take rest).toCore.log (.received f)))
  rw [hdispatch] at hguards
  have hsteps := handleFrame_steps (c := c.take rest) h.tidy hrun
  have hrole : d.role = c.role := evolves_role (steps_evolves hsteps)
  refine h.quiet (T := exactly f) (fun _ g hg => hg ▸ hf) hsteps
    (congrArg Guards.initialNoRfc7540Priorities hguards)
    (congrArg Guards.peerSentEnableConnectProtocol hguards) (fun hwaits hnone => ?_)
    fun hserver hnone => ?_
  · have hinitial := hfirst (h.waiting hwaits hnone)
    rw [hf] at hinitial
    cases hinitial
  · have hpreface : d.prefaceReceived = c.prefaceReceived := congrArg Guards.prefaceReceived hguards
    exact absurd (hpreface ▸ hnone) (h.prefaced hdecode (by simp) (hrole ▸ hserver))

theorem passes_settings {f : SettingsFrame} {rest : FrameDecoder} (h : Negotiated waits role c)
    (hdecode : c.frameDecoder.decode = (.ok (some (.settings f)), rest)) (hack : f.ack = false)
    (hrun : handleFrame it (.settings f) (c.take rest) = (.ok (), d)) :
    Negotiated waits role d ∧ frames d.trace = frames c.trace ++ [f.settings] := by
  obtain ⟨_, _, _, hdispatch⟩ := handleFrame_ok hrun
  have haccepted := handleSettings_ok h.tidy h.windowed hack rfl hdispatch
  have hsteps := handleFrame_steps (c := c.take rest) h.tidy hrun
  have hrole : d.role = c.role := evolves_role (steps_evolves hsteps)
  have hframes : frames d.trace = frames c.trace ++ [f.settings] := by
    rw [haccepted.frames]
    simp [frames, hack, setCore, Connection.take]
  have hacks : acks d.trace = acks c.trace + 1 := haccepted.acks
  have hremote : d.remoteSettings = f.settings.foldl Settings.apply c.remoteSettings := haccepted.remote
  refine ⟨⟨steps_tidy h.tidy hsteps, ?_, hrole.trans h.role, ?_, ?_, ?_, ?_, ?_⟩, hframes⟩
  · exact steps_windowed h.tidy h.windowed (fun c _ => remote_le c) (.inl rfl) hsteps
  · rw [hremote, hframes, h.remote]
    simp
  · rw [hacks, hframes, h.acks]
    simp
  · intro hwaits
    rw [hframes] at hwaits ⊢
    have hpatient : waits := hwaits.resolve_right (by simp)
    obtain ⟨hconnect, hpriorities⟩ := h.remembers (.inl hpatient)
    have hreceived : Remembers ((c.take rest).setCore ((c.take rest).toCore.log
        (.received (.settings f)))) (frames c.trace) [] := ⟨hconnect, hpriorities⟩
    exact remembers_settled hreceived haccepted (h.waiting hpatient)
  · rw [hframes]
    exact fun _ hnone => absurd hnone (by simp)
  · intro hserver hnone
    have hpreface : d.prefaceReceived = c.prefaceReceived :=
      congrArg (·.2.1) ((handleFrame_intake it _).run hrun)
    exact absurd (hpreface ▸ hnone) (h.prefaced hdecode (by simp) (hrole ▸ hserver))

theorem passes_negotiated (h : Negotiated waits role c) (hpasses : Passes it c d) :
    Negotiated waits role d := by
  cases hpasses with
  | reject hdecode hrun => exact passes_reject h hdecode hrun
  | @frame f rest _ hdecode hrun =>
    cases hf : isInitialSettings f with
    | false => exact passes_frame h hdecode hf hrun
    | true =>
      cases f with
      | settings f => exact (passes_settings h hdecode (by simpa [isInitialSettings] using hf) hrun).1
      | _ => cases hf

theorem passes_run_negotiated (h : Negotiated waits role c)
    (hreach : Relation.ReflTransGen (Passes it) c d) : Negotiated waits role d := by
  induction hreach with
  | refl => exact h
  | tail _ hpasses ih => exact passes_negotiated ih hpasses

/-! ## Calls -/

theorem take_negotiated {rest : FrameDecoder} (h : Negotiated waits role c)
    (hdecode : c.frameDecoder.decode = (.ok none, rest)) : Negotiated waits role (c.take rest) where
  tidy := h.tidy
  windowed := h.windowed
  role := h.role
  remote := h.remote
  acks := h.acks
  remembers hwaits := ⟨(h.remembers hwaits).connect, (h.remembers hwaits).priorities⟩
  waiting := h.waiting
  preface hserver hnone := by
    have hsame := h.preface hserver hnone
    obtain rfl : rest = c.frameDecoder := congrArg Prod.snd (hdecode.symm.trans hsame)
    exact hsame

theorem process_negotiated (h : Negotiated waits role c) (hrun : process it c = (.ok (), d)) :
    Negotiated waits role d := by
  obtain ⟨c', hreach, rest, hdecode, rfl⟩ := process_iff.1 hrun
  exact take_negotiated (passes_run_negotiated h hreach) hdecode

theorem exec_negotiated {k : Call} (h : Negotiated waits role c)
    (hk : waits → isGoaway k = true → frames c.trace ≠ [])
    (hsound : k.isInput = true → ∃ v, (k.exec c).1 = .ok v) : Negotiated waits role (k.exec c).2 := by
  by_cases hprocess : ∃ it, k = .process it
  · obtain ⟨it, rfl⟩ := hprocess
    obtain ⟨v, hv⟩ := hsound rfl
    exact process_negotiated h (exec_process_ok hv)
  · have hother : ∀ it, k ≠ .process it := fun it heq => hprocess ⟨it, heq⟩
    obtain ⟨⟨hpriorities, hconnect, _, _, _, hpreface⟩, hstate⟩ := exec_spares hother c
    have hheeds : k.Heeds unheard c := by
      cases k with
      | process it => exact absurd rfl (hother it)
      | _ => trivial
    have hperforms := exec_performs (T := unheard) k h.tidy trivial hheeds
    have hsteps := (performs_course (T := unheard) .refl trivial hperforms hsound).steps
    have hrole : (k.exec c).2.role = c.role := evolves_role (steps_evolves hsteps)
    refine h.quiet (T := unheard) (fun _ _ h => h.elim) hsteps hpriorities hconnect
      (fun hwaits hnone => ?_) fun hserver hnone => ?_
    · obtain hsame | ⟨errorCode, debugData, rfl⟩ := hstate
      · exact hsame
      · exact absurd hnone (hk hwaits rfl)
    · obtain ⟨hbefore, hdecoder⟩ := hpreface hnone
      rw [hdecoder (hrole ▸ hserver)]
      exact h.preface (hrole ▸ hserver) hbefore

theorem run_negotiated {T : Terms} {history : List Record}
    (hT : waits → ∀ c k, T.api c k → isGoaway k = true → frames c.trace ≠ [])
    (hrun : RunOf T (Connection.new role limits) history c) (hsound : Sound history) :
    Negotiated waits role c := by
  induction hrun with
  | start => exact new_negotiated
  | call k hk _ _ ih =>
    exact exec_negotiated (ih hsound.tail) (fun hwaits => hT hwaits _ k hk) hsound.head

end Invariant

/-! ## The whole sequence -/

/-- A SETTINGS frame that the decoder is about to deliver, outside any header block. -/
def Offered (d : Connection) (f : SettingsFrame) : Prop :=
  f.ack = false ∧ d.headerContinuationStream = none ∧
    ∃ rest, d.frameDecoder.decode = (.ok (some (.settings f)), rest)

/-- None of these parameters may be refused, coming next in the frame `f`. -/
def Admissible (d : Connection) (f : SettingsFrame) (part : List Setting) : Prop :=
  Clean d.role (fixedPriorities (frames d.trace ++ [f.settings])) (frames d.trace).flatten part

/-- What the frames so far have left, and what comes of the next one when the call of `process` that
began at `c` has got to `d`. -/
structure Sequenced (it : IterOrder) (c d : Connection) : Prop where
  remote : d.remoteSettings = (frames d.trace).flatten.foldl Settings.apply Settings.new
  acks : acks d.trace = (frames d.trace).length
  refused : ∀ f, Offered d f → ∀ before s after, f.settings = before ++ s :: after →
    Admissible d f before →
    Offends d.role (fixedPriorities (frames d.trace ++ [f.settings]))
      ((frames d.trace).flatten ++ before) s →
    ∃ c', process it c = (.error (.connectionError .protocolError (complaint s)), c') ∧
      c'.remoteSettings = before.foldl Settings.apply d.remoteSettings
  overflowed : ∀ f, Offered d f → Admissible d f f.settings → Overflows d.toCore f.settings →
    ∃ c', process it c = (.error overflowError, c')
  accepted : ∀ f, Offered d f → Admissible d f f.settings → ¬ Overflows d.toCore f.settings →
    ∃ d', Passes it d d' ∧ frames d'.trace = frames d.trace ++ [f.settings]

section Sequence

variable {waits : Prop} {it : IterOrder} {role : Role} {c d : Connection} {f : SettingsFrame}

/-- The frame as its handler sees it. -/
def received (d : Connection) (rest : FrameDecoder) (f : SettingsFrame) : Connection :=
  (d.take rest).setCore ((d.take rest).toCore.log (.received (.settings f)))

theorem offered_handled {rest : FrameDecoder} (h : Negotiated waits role d) (hack : f.ack = false)
    (hcont : d.headerContinuationStream = none)
    (hdecode : d.frameDecoder.decode = (.ok (some (.settings f)), rest)) :
    handleFrame it (.settings f) (d.take rest) = handleSettings it f (received d rest f) := by
  refine handleFrame_admitted ?_ (fun _ => by simp [isInitialSettings, hack]) ?_
  · rintro ⟨_, hserver, hnone⟩
    exact h.prefaced hdecode (by simp) hserver hnone
  · change continues d.headerContinuationStream _ = true
    rw [hcont]
    rfl

theorem received_remembers (h : Negotiated waits role d) (hwaits : waits ∨ frames d.trace = [])
    (rest : FrameDecoder) (f : SettingsFrame) : Remembers (received d rest f) (frames d.trace) [] := by
  obtain ⟨hconnect, hpriorities⟩ := h.remembers hwaits
  exact ⟨hconnect, hpriorities⟩

/-- Without an offending parameter the windows decide. -/
theorem offered_result (it : IterOrder) {rest : FrameDecoder} (h : Negotiated waits role d)
    (hwaits : waits ∨ frames d.trace = []) (hack : f.ack = false)
    (hcont : d.headerContinuationStream = none)
    (hdecode : d.frameDecoder.decode = (.ok (some (.settings f)), rest))
    (hclean : Admissible d f f.settings) :
    (¬ Overflows d.toCore f.settings ∧
      ∃ d', handleFrame it (.settings f) (d.take rest) = (.ok (), d')) ∨
      (Overflows d.toCore f.settings ∧
        ∃ d', handleFrame it (.settings f) (d.take rest) = (.error overflowError, d')) := by
  have hall := clean_refuses (received_remembers h hwaits rest f)
    (List.append_nil f.settings).symm hclean
  have hresult := handleSettings_result it h.tidy h.windowed hack rfl hall
  rw [offered_handled h hack hcont hdecode]
  cases hrun : handleSettings it f (received d rest f) with
  | mk r d' =>
    rw [ensures_run hrun] at hresult
    obtain ⟨rfl, hfits, _⟩ | ⟨rfl, hover⟩ := hresult
    · exact .inl ⟨hfits, d', rfl⟩
    · exact .inr ⟨hover, d', rfl⟩

theorem sequenced (h : Negotiated True role d) (hreach : Relation.ReflTransGen (Passes it) c d) :
    Sequenced it c d where
  remote := h.remote
  acks := h.acks
  refused := by
    rintro f ⟨hack, hcont, rest, hdecode⟩ before s after hsplit hclean hoffends
    have hremembers := received_remembers h (.inl trivial) rest f
    have hs := (refuses_after_iff hremembers hsplit).2 hoffends
    have hbefore := clean_refuses hremembers hsplit hclean
    refine ⟨before.foldl accept (received d rest f), ?_, ?_⟩
    · refine process_iff.2 ⟨d, hreach, .frame hdecode ?_⟩
      rw [offered_handled h hack hcont hdecode]
      exact handleSettings_refused hack hsplit hbefore hs
    · rw [foldl_accept_toCore]
      rfl
  overflowed := by
    rintro f ⟨hack, hcont, rest, hdecode⟩ hclean hover
    obtain ⟨hfits, _⟩ | ⟨_, d', hrun⟩ := offered_result it h (.inl trivial) hack hcont hdecode hclean
    · exact absurd hover hfits
    · exact ⟨d', process_iff.2 ⟨d, hreach, .frame hdecode hrun⟩⟩
  accepted := by
    rintro f ⟨hack, hcont, rest, hdecode⟩ hclean hfits
    obtain ⟨_, d', hrun⟩ | ⟨hover, _⟩ := offered_result it h (.inl trivial) hack hcont hdecode hclean
    · exact ⟨d', .frame hdecode hrun, (passes_settings h hdecode hack hrun).2⟩
    · exact absurd hover hfits

end Sequence

/-- Whatever was called and received before without a refusal, and wherever in its input `process`
stands. -/
theorem settings_sequence {role : Role} {limits : Limits} {history : List Record} {it : IterOrder}
    {c d : Connection} (hrun : RunOf patient (Connection.new role limits) history c)
    (hsound : Sound history) (hreach : Relation.ReflTransGen (Passes it) c d) : Sequenced it c d :=
  sequenced (passes_run_negotiated (run_negotiated (fun _ _ _ h => h) hrun hsound) hreach) hreach

/-- ENABLE_CONNECT_PROTOCOL of 1, a GOAWAY of ours, and then the same parameter with 0. -/
def revocation : List Call :=
  [.feed (Frame.wire (.settings ⟨false, [.enableConnectProtocol true]⟩)), .process .listed,
    .sendGoaway .noError [],
    .feed (Frame.wire (.settings ⟨false, [.unknown 0x2a 1, .enableConnectProtocol false]⟩))]

instance (c : Core) (f : Frame) : Decidable (patient.frame c f) := inferInstanceAs (Decidable True)

instance (c : Core) (sid : Nat) : Decidable (patient.refusal c sid) := inferInstanceAs (Decidable True)

instance (c : Core) (k : Call) : Decidable (patient.api c k) :=
  inferInstanceAs (Decidable (isGoaway k = true → frames c.trace ≠ []))

theorem settings_sequence_revocation :
    ∃ history c c', RunOf patient (Connection.new .client .default) history c ∧ Sound history ∧
      process .listed c = (.error (.connectionError .protocolError
        "SETTINGS_ENABLE_CONNECT_PROTOCOL cannot be set to 0 after sending 1"), c') := by
  obtain ⟨history, c, hrun, hsound, hdecode, hcont, hfirst⟩ : ∃ history c,
      RunOf patient (Connection.new .client .default) history c ∧ Sound history ∧
        c.frameDecoder.decode.1 =
          .ok (some (.settings ⟨false, [.unknown 0x2a 1, .enableConnectProtocol false]⟩)) ∧
        c.headerContinuationStream = none ∧
        .enableConnectProtocol true ∈ (frames c.trace).flatten ++ [.unknown 0x2a 1] := by
    have hheeds : HeedsAll patient revocation (Connection.new .client .default) := by decide +kernel
    refine ⟨_, _, RunOf.execAll .start hheeds, ?_, ?_, ?_, ?_⟩
    · unfold Sound
      decide +kernel
    all_goals decide +kernel
  have hclean : Admissible c ⟨false, [.unknown 0x2a 1, .enableConnectProtocol false]⟩
      [.unknown 0x2a 1] := by
    intro before s after hsplit
    cases before with
    | nil =>
      obtain ⟨rfl, _⟩ := List.cons.inj hsplit
      exact id
    | cons => simp at hsplit
  obtain ⟨c', hc', _⟩ := (settings_sequence hrun hsound .refl).refused _
    ⟨rfl, hcont, _, Prod.ext hdecode rfl⟩ [.unknown 0x2a 1] (.enableConnectProtocol false) [] rfl hclean
    ⟨rfl, hfirst⟩
  exact ⟨history, c, c', hrun, hsound, hc'⟩

end Http2.Negotiation
