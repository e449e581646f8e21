import Http2.Connection.Passes
import Http2.Connection.Tuning
import Http2.Connection.Windows

/-! The peer's SETTINGS over a whole connection: which parameter ends it, and what the others leave. -/
namespace Http2.Negotiation

open Hpack Lib Lib.Prog Connection

/-! ## What the peer may send -/

/-- The parameters of the SETTINGS frames received, oldest frame first. -/
def frames : List Item → List (List Setting)
  | [] => []
  | .received (.settings f) :: items =>
    if f.ack then frames items else frames items ++ [f.settings]
  | _ :: items => frames items

/-- The number of acknowledgements sent. -/
def acks : List Item → Nat
  | [] => 0
  | .sent (.settings f) :: items => if f.ack then acks items + 1 else acks items
  | _ :: items => acks items

/-- What these parameters first say of NO_RFC7540_PRIORITIES. -/
def firstPriorities (settings : List Setting) : Option Bool :=
  settings.findSome? fun
    | .noRfc7540Priorities value => some value
    | _ => none

/-- The value that the first frame fixes: 0 if it says nothing. -/
def fixedPriorities (frames : List (List Setting)) : Bool :=
  (frames.head?.bind firstPriorities).getD false

/-- The parameters that may not follow `earlier` ones. -/
def Offends (role : Role) (fixed : Bool) (earlier : List Setting) : Setting → Prop
  | .enablePush value => role = .client ∧ value = true
  | .enableConnectProtocol value => value = false ∧ .enableConnectProtocol true ∈ earlier
  | .noRfc7540Priorities value => value ≠ fixed
  | _ => False

def Clean (role : Role) (fixed : Bool) (earlier settings : List Setting) : Prop :=
  ∀ before s after, settings = before ++ s :: after → ¬ Offends role fixed (earlier ++ before) s

/-- The text of the error that answers such a parameter. -/
def complaint : Setting → String
  | .enablePush _ => "server sent ENABLE_PUSH=1 to client"
  | .noRfc7540Priorities _ => "NO_RFC7540_PRIORITIES cannot be changed after initial setting"
  | _ => "SETTINGS_ENABLE_CONNECT_PROTOCOL cannot be set to 0 after sending 1"

/-- The last INITIAL_WINDOW_SIZE of the frame takes the window of a live stream too far. -/
def Overflows (c : Core) (settings : List Setting) : Prop :=
  ∃ sid s, c.stream? sid = some s ∧ (maxWindowSize : Int) < s.flowControl.sendWindow +
    (((settings.foldl Settings.apply c.remoteSettings).initialWindowSize : Int) -
      c.remoteSettings.initialWindowSize)

/-! ## One parameter -/

/-- What the code checks of a parameter. -/
def refuses (c : Connection) : Setting → Bool
  | .enablePush value => c.role == .client && value
  | .noRfc7540Priorities value => c.initialNoRfc7540Priorities.any (value != ·)
  | .enableConnectProtocol value => !value && c.peerSentEnableConnectProtocol
  | _ => false

def notePriorities (known : Option Bool) : Setting → Option Bool
  | .noRfc7540Priorities value => known.or (some value)
  | _ => known

def noteConnect (sent : Bool) : Setting → Bool
  | .enableConnectProtocol value => sent || value
  | _ => sent

/-- What a parameter leaves that is accepted. -/
def accept (c : Connection) (s : Setting) : Connection :=
  { c with
    remoteSettings := c.remoteSettings.apply s
    initialNoRfc7540Priorities := notePriorities c.initialNoRfc7540Priorities s
    peerSentEnableConnectProtocol := noteConnect c.peerSentEnableConnectProtocol s }

theorem applySetting_refuses {s : Setting} {c : Connection} (h : refuses c s = true) :
    applySetting s c = (.error (.connectionError .protocolError (complaint s)), c) := by
  refine (bind_ok (m := get) rfl _).trans ?_
  cases s with
  | enablePush value =>
    have hpush : c.role = .client ∧ value = true := by simpa [refuses] using h
    refine bind_error (require_error _ (not_not.2 ⟨hpush.1, ?_⟩)) _
    rw [hpush.2]
  | noRfc7540Priorities value =>
    refine (bind_ok (require_ok _ (by simp)) _).trans ?_
    cases hknown : c.initialNoRfc7540Priorities with
    | none => simp [refuses, hknown] at h
    | some initial =>
      have hne : value ≠ initial := by simpa [refuses, hknown] using h
      simp only
      exact bind_error (require_error _ hne) _
  | enableConnectProtocol value =>
    refine (bind_ok (require_ok _ (by simp)) _).trans ?_
    have hsent : value = false ∧ c.peerSentEnableConnectProtocol = true := by simpa [refuses] using h
    obtain ⟨rfl, hsent⟩ := hsent
    refine bind_error (require_error _ ?_) _
    rw [hsent]
    decide
  | _ => cases h

theorem applySetting_accepts {s : Setting} {c : Connection} (h : refuses c s = false) :
    applySetting s c = (.ok (), accept c s) := by
  refine (bind_ok (m := get) rfl _).trans ?_
  cases s with
  | enablePush value =>
    have hpush : ¬ (c.role = .client ∧ Setting.enablePush value = .enablePush true) := by
      simpa [refuses] using h
    exact bind_ok (require_ok _ hpush) _
  | noRfc7540Priorities value =>
    refine (bind_ok (require_ok _ (by simp)) _).trans ?_
    cases hknown : c.initialNoRfc7540Priorities with
    | none =>
      simp only
      rw [accept, hknown]
      rfl
    | some initial =>
      have heq : value = initial := by simpa [refuses, hknown] using h
      simp only
      refine (bind_ok (require_ok _ heq) _).trans ?_
      rw [accept, hknown, notePriorities, Option.some_or, ← hknown]
      rfl
  | enableConnectProtocol value =>
    refine (bind_ok (require_ok _ (by simp)) _).trans ?_
    cases value with
    | true =>
      rw [accept, noteConnect, Bool.or_true]
      rfl
    | false =>
      have hsent : c.peerSentEnableConnectProtocol = false := by simpa [refuses] using h
      refine (bind_ok (require_ok _ hsent) _).trans ?_
      rw [accept, noteConnect, Bool.or_false]
      rfl
  | _ => exact bind_ok (require_ok _ (by simp)) _

/-! ## A frame of parameters -/

theorem applySettings_append {part : List Setting} {c : Connection}
    (hpart : ∀ before s after, part = before ++ s :: after → refuses (before.foldl accept c) s = false)
    (rest : List Setting) :
    applySettings (part ++ rest) c = applySettings rest (part.foldl accept c) := by
  induction part generalizing c with
  | nil => rfl
  | cons s part ih =>
    have hs : applySetting s c = (.ok (), accept c s) := applySetting_accepts (hpart [] s part rfl)
    rw [List.cons_append, applySettings, bind_ok hs, List.foldl_cons]
    refine ih fun before s' after hsplit => ?_
    exact hpart (s :: before) s' after (by rw [hsplit, List.cons_append])

/-- The first parameter that is refused ends the loop; those before it are in force. -/
theorem applySettings_refuses {part after : List Setting} {s : Setting} {c : Connection}
    (hpart : ∀ before s after, part = before ++ s :: after → refuses (before.foldl accept c) s = false)
    (hs : refuses (part.foldl accept c) s = true) :
    applySettings (part ++ s :: after) c =
      (.error (.connectionError .protocolError (complaint s)), part.foldl accept c) := by
  rw [applySettings_append hpart, applySettings, bind_error (applySetting_refuses hs)]

theorem applySettings_accepts {settings : List Setting} {c : Connection}
    (hall : ∀ before s after, settings = before ++ s :: after →
      refuses (before.foldl accept c) s = false) :
    applySettings settings c = (.ok (), settings.foldl accept c) := by
  have happend := applySettings_append hall []
  rw [List.append_nil] at happend
  exact happend

theorem foldl_accept_toCore (settings : List Setting) (c : Connection) :
    (settings.foldl accept c).toCore =
      { c.toCore with remoteSettings := settings.foldl Settings.apply c.remoteSettings } := by
  induction settings generalizing c with
  | nil => rfl
  | cons s settings ih => exact ih (accept c s)

/-- What is remembered of the frames before and of a part of the next one. -/
structure Remembers (c : Connection) (frames : List (List Setting)) (part : List Setting) : Prop where
  connect : c.peerSentEnableConnectProtocol = true ↔
    Setting.enableConnectProtocol true ∈ frames.flatten ++ part
  priorities : c.initialNoRfc7540Priorities =
    (frames.head?.map fun first => (firstPriorities first).getD false).or (firstPriorities part)

theorem firstPriorities_append (as bs : List Setting) :
    firstPriorities (as ++ bs) = (firstPriorities as).or (firstPriorities bs) :=
  List.findSome?_append

section Remembers

variable {c : Connection} {frames : List (List Setting)} {part : List Setting}

theorem remembers_accept (h : Remembers c frames part) (s : Setting) :
    Remembers (accept c s) frames (part ++ [s]) := by
  obtain ⟨hconnect, hpriorities⟩ := h
  refine ⟨?_, ?_⟩
  · rw [← List.append_assoc, List.mem_append, ← hconnect]
    simp only [accept]
    cases s with
    | enableConnectProtocol value => cases value <;> simp [noteConnect]
    | _ => simp [noteConnect]
  · rw [firstPriorities_append, ← Option.or_assoc, ← hpriorities]
    simp only [accept]
    cases s with
    | noRfc7540Priorities value => rfl
    | _ => exact (Option.or_none ..).symm

theorem remembers_foldl (h : Remembers c frames part) (more : List Setting) :
    Remembers (more.foldl accept c) frames (part ++ more) := by
  induction more generalizing c part with
  | nil =>
    rw [List.append_nil]
    exact h
  | cons s more ih =>
    have hmore := ih (remembers_accept h s)
    rw [List.append_assoc] at hmore
    exact hmore

/-- What is remembered tells the parameters that offend. -/
theorem refuses_iff {s : Setting} {after : List Setting} (h : Remembers c frames part) :
    refuses c s = true ↔
      Offends c.role (fixedPriorities (frames ++ [part ++ s :: after])) (frames.flatten ++ part) s := by
  obtain ⟨hconnect, hpriorities⟩ := h
  cases s with
  | enablePush value => simp [refuses, Offends]
  | enableConnectProtocol value => simp [refuses, Offends, ← hconnect]
  | noRfc7540Priorities value =>
    simp only [refuses, Offends, hpriorities]
    cases frames with
    | cons first frames =>
      simp [fixedPriorities]
    | nil =>
      have hfirst : fixedPriorities ([] ++ [part ++ .noRfc7540Priorities value :: after]) =
          (firstPriorities part).getD value := by
        simp only [fixedPriorities, List.nil_append, List.head?_cons, Option.bind_some,
          firstPriorities_append]
        cases firstPriorities part <;> rfl
      rw [hfirst]
      cases firstPriorities part <;> simp
  | _ => simp [refuses, Offends]

end Remembers

/-! ## Windows -/

def overflowError : Error :=
  .connectionError .flowControlError "window size overflow after SETTINGS update"

/-- The window of this stream has room for the new initial size. -/
def Fits (size : Nat) (s : Stream) : Prop :=
  s.flowControl.sendWindow + ((size : Int) - s.flowControl.sendInitial) ≤ maxWindowSize

theorem updateInitialWindowSize_error {size : Nat} {s : Stream} {e : Error}
    (h : s.flowControl.updateInitialWindowSize size = .error e) : e = overflowError ∧ ¬ Fits size s := by
  unfold FlowControl.updateInitialWindowSize at h
  simp only at h
  split at h
  · rename_i hbig
    exact ⟨(Except.error.inj h).symm, not_le.2 hbig⟩
  · cases h

/-- The windows move unless one of them overflows. -/
theorem updateStreamWindows_result (size : Nat) {sids : List Nat} (hnodup : sids.Nodup)
    (c : Connection) :
    Ensures (updateStreamWindows size sids) c fun r _ =>
      (r = .ok () ∧ ∀ sid ∈ sids, ∀ s, c.stream? sid = some s → Fits size s) ∨
        (r = .error overflowError ∧ ∃ sid ∈ sids, ∃ s, c.stream? sid = some s ∧ ¬ Fits size s) := by
  induction sids generalizing c with
  | nil => exact .inl ⟨rfl, by simp⟩
  | cons sid₀ sids ih =>
    obtain ⟨hnotin, hnodup'⟩ := List.nodup_cons.1 hnodup
    simp only [updateStreamWindows, ensures_bind, ensures_get]
    cases hlive₀ : c.stream? sid₀ with
    | none =>
      apply ensures_mono (ih hnodup' c)
      rintro r c' (⟨hr, hfits⟩ | ⟨hr, sid, hmem, hover⟩)
      · refine .inl ⟨hr, fun sid hmem s hlive => ?_⟩
        obtain rfl | hmem := List.mem_cons.1 hmem
        · cases hlive₀.symm.trans hlive
        · exact hfits sid hmem s hlive
      · exact .inr ⟨hr, sid, List.mem_cons_of_mem _ hmem, hover⟩
    | some s₀ =>
      simp only [ensures_bind, ensures_lift]
      cases hflow : s₀.flowControl.updateInitialWindowSize size with
      | error e =>
        obtain ⟨rfl, hbig⟩ := updateInitialWindowSize_error hflow
        exact .inr ⟨rfl, sid₀, List.mem_cons_self, s₀, hlive₀, hbig⟩
      | ok fc =>
        have hfits₀ : Fits size s₀ := (FlowControl.updateInitialWindowSize_eq_ok.1 hflow).1
        -- The records of the rest are as they were.
        have hothers : ∀ sid ∈ sids,
            (c.setCore (c.toCore.putStream sid₀ { s₀ with flowControl := fc })).stream? sid =
              c.stream? sid := by
          intro sid hmem
          have hne : sid ≠ sid₀ := fun heq => hnotin (heq ▸ hmem)
          simp [setCore, hne]
        simp only [ensures_update]
        apply ensures_mono (ih hnodup' _)
        rintro r c' (⟨hr, hfits⟩ | ⟨hr, sid, hmem, s, hlive, hbig⟩)
        · refine .inl ⟨hr, fun sid hmem s hlive => ?_⟩
          obtain rfl | hmem := List.mem_cons.1 hmem
          · obtain rfl := Option.some.inj (hlive₀.symm.trans hlive)
            exact hfits₀
          · exact hfits sid hmem s ((hothers sid hmem).trans hlive)
        · exact .inr ⟨hr, sid, List.mem_cons_of_mem _ hmem, s, (hothers sid hmem).symm.trans hlive, hbig⟩

/-- What follows the loop fails for such a window only, as long as every live stream took part in all
changes before. -/
theorem settleSettings_result {it : IterOrder} {old : Settings} {c : Connection}
    (hwindows : ∀ sid s, c.stream? sid = some s →
      s.flowControl.sendInitial = old.initialWindowSize ∧ s.flowControl.sendWindow ≤ maxWindowSize) :
    Ensures (settleSettings it old) c fun r _ =>
      (r = .ok () ∧ ∀ sid s, c.stream? sid = some s → Fits c.remoteSettings.initialWindowSize s) ∨
        (r = .error overflowError ∧
          ∃ sid s, c.stream? sid = some s ∧ ¬ Fits c.remoteSettings.initialWindowSize s) := by
  simp only [settleSettings, ensures_bind, ensures_modify, ensures_update, ensures_get, setCore_toCore,
    ensures_ite]
  constructor
  · intro _
    have hperm := it.perm c.trace.length c.streams.keys
    apply ensures_mono (updateStreamWindows_result _ (hperm.nodup_iff.2 c.streams.keys_nodup) _)
    rintro r c' (⟨rfl, hfits⟩ | ⟨rfl, sid, _, s, hlive, hbig⟩)
    · refine .inl ⟨trivial, fun sid s hlive => hfits sid ?_ s hlive⟩
      rw [hperm.mem_iff, ← AList.mem_keys, ← AList.lookup_isSome]
      exact Option.isSome_of_eq_some hlive
    · exact .inr ⟨rfl, sid, s, hlive, hbig⟩
  · intro hsame
    refine .inl ⟨trivial, fun sid s hlive => ?_⟩
    obtain ⟨hinitial, hle⟩ := hwindows sid s hlive
    have hsize : c.remoteSettings.initialWindowSize = old.initialWindowSize := not_not.1 hsame
    rw [Fits, hinitial, hsize]
    omega

theorem settleSettings_guards (it : IterOrder) (old : Settings) (c : Connection) :
    Ensures (settleSettings it old) c fun _ d =>
      d.peerSentEnableConnectProtocol = c.peerSentEnableConnectProtocol ∧
        d.initialNoRfc7540Priorities =
          if c.state = .waitingPreface ∧ c.initialNoRfc7540Priorities = none then some false
          else c.initialNoRfc7540Priorities := by
  simp only [settleSettings, ensures_bind, ensures_modify, ensures_update, ensures_get, ensures_ite]
  refine ⟨fun _ => ?_, fun _ => ⟨rfl, rfl⟩⟩
  refine ensures_mono ((updateStreamWindows_keeps _ _).ensures _) fun r d hd => ?_
  have hconnect := congrArg Guards.peerSentEnableConnectProtocol hd
  have hpriorities := congrArg Guards.initialNoRfc7540Priorities hd
  cases r <;> exact ⟨hconnect, hpriorities⟩

/-! ## A frame that is accepted -/

section Quiet

variable {T : Terms} {c d : Core}

theorem frames_marks (items : List Item) : frames (items.filter Item.isMark) = frames items := by
  induction items with
  | nil => rfl
  | cons i items ih =>
    cases i with
    | received f =>
      cases f with
      | settings f => cases hack : f.ack <;> simp [frames, Item.isMark, hack, ih]
      | _ => exact ih
    | sent f =>
      cases f with
      | settings f => cases hack : f.ack <;> simp [frames, Item.isMark, hack, ih]
      | _ => exact ih
    | rejected | encoded | event | opened | queued | decoded => exact ih

theorem acks_marks (items : List Item) : acks (items.filter Item.isMark) = acks items := by
  induction items with
  | nil => rfl
  | cons i items ih =>
    cases i with
    | received f =>
      cases f with
      | settings f => cases hack : f.ack <;> simp [acks, Item.isMark, hack, ih]
      | _ => exact ih
    | sent f =>
      cases f with
      | settings f => cases hack : f.ack <;> simp [acks, Item.isMark, hack, ih]
      | _ => exact ih
    | rejected | encoded | event | opened | queued | decoded => exact ih

/-- What nothing but a SETTINGS frame of the peer changes. -/
structure Same (c d : Core) : Prop where
  remote : d.remoteSettings = c.remoteSettings
  frames : frames d.trace = frames c.trace
  acks : acks d.trace = acks c.trace

theorem step_same {l : Label} (hl : ∀ f, l = .frame f → isInitialSettings f = false)
    (h : Step c l d) : Same c d := by
  have htunes := step_tunes h
  have hmarks : ∀ {t : Tuning}, d.tuning = t → t.remoteSettings = c.remoteSettings →
      frames t.marks = frames c.tuning.marks → acks t.marks = acks c.tuning.marks → Same c d := by
    rintro _ rfl hremote hframes hacks
    refine ⟨hremote, ?_, ?_⟩
    · rw [← frames_marks, ← frames_marks c.trace]
      exact hframes
    · rw [← acks_marks, ← acks_marks c.trace]
      exact hacks
  generalize ht : d.tuning = t at htunes
  cases htunes with
  | same => exact hmarks ht rfl rfl rfl
  | settings f hack =>
    have hinitial := hl _ rfl
    simp [isInitialSettings, hack] at hinitial
  | block k sid headers => exact hmarks ht rfl rfl rfl

theorem steps_same (hT : ∀ c f, T.frame c f → isInitialSettings f = false) (h : Steps T c d) :
    Same c d := by
  induction h with
  | refl => exact ⟨rfl, rfl, rfl⟩
  | tail _ hstep ih =>
    obtain ⟨l, hl, hstep⟩ := hstep
    obtain ⟨hremote, hframes, hacks⟩ := step_same (fun f heq => by
      subst heq
      exact hT _ f hl) hstep
    exact ⟨hremote.trans ih.remote, hframes.trans ih.frames, hacks.trans ih.acks⟩

end Quiet

/-- What an accepted frame leaves, from its arrival on. -/
structure Accepted (f : SettingsFrame) (c d : Connection) : Prop where
  remote : d.remoteSettings = f.settings.foldl Settings.apply c.remoteSettings
  frames : frames d.trace = frames c.trace
  acks : acks d.trace = acks c.trace + 1
  connect : d.peerSentEnableConnectProtocol = (f.settings.foldl accept c).peerSentEnableConnectProtocol
  priorities : d.initialNoRfc7540Priorities =
    if c.state = .waitingPreface ∧ (f.settings.foldl accept c).initialNoRfc7540Priorities = none then
      some false
    else (f.settings.foldl accept c).initialNoRfc7540Priorities

section Handler

variable {f : SettingsFrame} {c₀ : Core} {c : Connection}

theorem overflows_iff (hw : Windowed maxWindowSize c₀) : Overflows c₀ f.settings ↔
    ∃ sid s, c₀.stream? sid = some s ∧
      ¬ Fits (f.settings.foldl Settings.apply c₀.remoteSettings).initialWindowSize s := by
  have hiff : ∀ sid s, c₀.stream? sid = some s →
      (¬ Fits (f.settings.foldl Settings.apply c₀.remoteSettings).initialWindowSize s ↔
        (maxWindowSize : Int) < s.flowControl.sendWindow +
          (((f.settings.foldl Settings.apply c₀.remoteSettings).initialWindowSize : Int) -
            c₀.remoteSettings.initialWindowSize)) := by
    intro sid s hlive
    rw [Fits, (hw sid s hlive).1, not_le]
  constructor
  · rintro ⟨sid, s, hlive, hbig⟩
    exact ⟨sid, s, hlive, (hiff sid s hlive).2 hbig⟩
  · rintro ⟨sid, s, hlive, hbig⟩
    exact ⟨sid, s, hlive, (hiff sid s hlive).1 hbig⟩

/-- A frame without a parameter that is refused fails for a window only. -/
theorem handleSettings_result (it : IterOrder) (ht : Tidy c₀) (hw : Windowed maxWindowSize c₀)
    (hack : f.ack = false)
    (hc : c.toCore = c₀.log (.received (.settings f)))
    (hclean : ∀ before s after, f.settings = before ++ s :: after →
      refuses (before.foldl accept c) s = false) :
    Ensures (handleSettings it f) c fun r d =>
      (r = .ok () ∧ ¬ Overflows c₀ f.settings ∧ Accepted f c d) ∨
        (r = .error overflowError ∧ Overflows c₀ f.settings) := by
  have hp : (f.settings.foldl accept c).toCore = { c₀ with
      remoteSettings := f.settings.foldl Settings.apply c₀.remoteSettings }.log
        (.received (.settings f)) := by
    rw [foldl_accept_toCore, hc]
    rfl
  have hwindows : ∀ sid s, (f.settings.foldl accept c).stream? sid = some s →
      s.flowControl.sendInitial = c₀.remoteSettings.initialWindowSize ∧
        s.flowControl.sendWindow ≤ maxWindowSize := by
    rw [hp]
    exact hw
  unfold handleSettings
  rw [if_neg (by simp [hack])]
  simp only [ensures_bind, ensures_get]
  rw [ensures_run (applySettings_accepts hclean), hc]
  simp only [Core.log_remoteSettings]
  apply ensures_mono (ensures_and (settleSettings_spec it f hp hack)
    (ensures_and (settleSettings_result hwindows) (settleSettings_guards it _ _)))
  rintro r q ⟨hspec, hresult, hconnect, hpriorities⟩
  rw [hp] at hresult hpriorities
  cases r with
  | error e =>
    obtain ⟨hr, _⟩ | ⟨hr, hbig⟩ := hresult
    · cases hr
    · exact .inr ⟨hr, (overflows_iff hw).2 hbig⟩
  | ok u =>
    obtain ⟨_, hfits⟩ | ⟨hr, _⟩ := hresult
    · obtain ⟨streams, hq, hstreams⟩ := hspec
      have hwake := Wake.settings f streams hack hstreams
      have ht' := wake_tidy ht hwake
      rw [← hq] at ht'
      simp only
      rw [ensures_sendFrame rfl]
      apply ensures_mono (ensures_and (flushAllStreamData_spec it ht')
        ((flushAllStreamData_keeps it).ensures _))
      rintro r d ⟨⟨rfl, hemits, _⟩, hkept⟩
      have hsame := steps_same (T := ⟨fun _ _ => False, fun _ _ => True, fun _ _ => True⟩)
        (fun _ _ h => h.elim) (emits_steps hemits)
      have hdone : Accepted f c d := by
        refine ⟨hsame.remote.trans ?_, hsame.frames.trans ?_, hsame.acks.trans ?_, ?_, ?_⟩
        · rw [hc]
          exact congrArg Core.remoteSettings hq
        · rw [hc, addOutput_toCore, hq]
          rfl
        · rw [hc, addOutput_toCore, hq]
          rfl
        · exact (congrArg Guards.peerSentEnableConnectProtocol hkept).trans hconnect
        · rw [hc]
          exact (congrArg Guards.initialNoRfc7540Priorities hkept).trans hpriorities
      have hfit : ¬ Overflows c₀ f.settings := by
        rw [overflows_iff hw]
        rintro ⟨sid, s, hlive, hbig⟩
        exact hbig (hfits sid s hlive)
      obtain ⟨hremote, hframes, hacks, hconnect', hpriorities'⟩ := hdone
      simp only [ensures_pushEvent, ensures_bind, ensures_ite, ensures_update, ensures_pure]
      exact ⟨fun _ => .inl ⟨trivial, hfit, hremote, hframes, hacks, hconnect', hpriorities'⟩,
        fun _ => .inl ⟨trivial, hfit, hremote, hframes, hacks, hconnect', hpriorities'⟩⟩
    · cases hr

end Handler

end Http2.Negotiation
