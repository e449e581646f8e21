import Http2.Connection.Chunking
import Http2.Connection.Output

/-! A side that is fed the octets of frames receives these frames, in order, as far as they have come. -/
namespace Http2

open Hpack Lib Lib.Prog Connection Wire
open Negotiation (prologue)
open Expected (fed exec_preface)
open Chunking (Started push push_started push_preface give begin prefaceWith)

/-- The other side. -/
def Role.peer : Role → Role
  | .client => .server
  | .server => .client

@[simp] theorem Role.peer_peer (role : Role) : role.peer.peer = role := by
  cases role <;> rfl

@[simp] theorem Role.peer_ne (role : Role) : role.peer ≠ role := by
  cases role <;> exact nofun

theorem Role.eq_peer {role other : Role} (h : other ≠ role) : other = role.peer := by
  cases role <;> cases other <;> first | rfl | exact absurd rfl h

namespace Delivery

/-! ## A decoder that is fed frames -/

/-- A frame that a decoder with this limit reads. -/
def Good (maxFrameSize : Nat) (f : Frame) : Prop := f.Encodable ∧ f.payload.length ≤ maxFrameSize

/-- What is fed goes to the decoder. -/
def Opened (role : Role) (d : Connection) : Prop := role = .server → d.prefaceReceived = true

/-- `left` are the frames that are yet to be received, if `rest` follows what was fed: either the
decoder holds the octets of a part of them, or a part of the preface is there. -/
structure Expects (role : Role) (maxFrameSize : Nat) (d : Connection) (left : List Frame) (rest : Bytes) :
    Prop where
  opened : Opened role d → ∃ unread, FrameDecoder.Awaits maxFrameSize d.frameDecoder unread ∧
    unread ++ rest = left.flatMap Frame.wire
  closed : ¬ Opened role d → FrameDecoder.Awaits maxFrameSize d.frameDecoder [] ∧ ∃ due, due ≠ [] ∧
    d.prefaceBuffer ++ due = connectionPreface ∧ rest = due ++ left.flatMap Frame.wire

section

variable {role : Role} {maxFrameSize : Nat} {it : IterOrder} {c d : Connection} {left more : List Frame}
  {rest data : Bytes}

theorem Expects.congr (h : Expects role maxFrameSize c left rest) (hdecoder : d.frameDecoder = c.frameDecoder)
    (hreceived : d.prefaceReceived = c.prefaceReceived) (hbuffer : d.prefaceBuffer = c.prefaceBuffer) :
    Expects role maxFrameSize d left rest := by
  have hopened : Opened role d ↔ Opened role c := by rw [Opened, Opened, hreceived]
  constructor
  · intro hd
    rw [hdecoder]
    exact h.opened (hopened.1 hd)
  · intro hd
    rw [hdecoder, hbuffer]
    exact h.closed fun hc => hd (hopened.2 hc)

/-- Frames that follow make no difference to those before. -/
theorem Expects.append (h : Expects role maxFrameSize d left rest) (more : List Frame) :
    Expects role maxFrameSize d (left ++ more) (rest ++ more.flatMap Frame.wire) := by
  constructor
  · intro hd
    obtain ⟨unread, hawaits, hoctets⟩ := h.opened hd
    exact ⟨unread, hawaits, by rw [← List.append_assoc, hoctets, List.flatMap_append]⟩
  · intro hd
    obtain ⟨hawaits, due, hdue, hpreface, hrest⟩ := h.closed hd
    exact ⟨hawaits, due, hdue, hpreface, by rw [hrest, List.append_assoc, List.flatMap_append]⟩

/-- The decoder waits for what has not come, or the next frame is there. -/
theorem expects_turn (hmax : maxFrameSize < 2 ^ 24) (hgood : ∀ f ∈ left, Good maxFrameSize f)
    (h : Expects role maxFrameSize c left rest) :
    (∃ d, c.frameDecoder.decode = (.ok none, d) ∧ Expects role maxFrameSize (c.take d) left rest ∧
        (rest = [] → left = [])) ∨
      ∃ f later d, left = f :: later ∧ c.frameDecoder.decode = (.ok (some f), d) ∧ Opened role c ∧
        Expects role maxFrameSize (c.take d) later rest := by
  by_cases hc : Opened role c
  · obtain ⟨unread, hawaits, hoctets⟩ := h.opened hc
    obtain ⟨d, hdecode, hd, hlast⟩ | ⟨f, later, d, unread', rfl, hdecode, hd, hoctets'⟩ :=
      Framer.decodes_arrived (FrameDecoder.reader hmax) hgood hawaits hoctets
    · exact .inl ⟨d, hdecode, ⟨fun _ => ⟨unread, hd, hoctets⟩, fun hclosed => absurd hc hclosed⟩, hlast⟩
    · exact .inr ⟨f, later, d, rfl, hdecode, hc,
        ⟨fun _ => ⟨unread', hd, hoctets'⟩, fun hclosed => absurd hc hclosed⟩⟩
  · obtain ⟨hawaits, due, hdue, hpreface, hrest⟩ := h.closed hc
    obtain ⟨d, hdecode, hd⟩ := (FrameDecoder.reader hmax).empty hawaits
    refine .inl ⟨d, hdecode,
      ⟨fun hopened => absurd hopened hc, fun _ => ⟨hd, due, hdue, hpreface, hrest⟩⟩, ?_⟩
    intro hnone
    rw [hnone] at hrest
    exact absurd (List.append_eq_nil_iff.1 hrest.symm).1 hdue

/-- A turn of `process` takes the next frame in. -/
theorem expects_passes (hmax : maxFrameSize < 2 ^ 24) (hgood : ∀ f ∈ left, Good maxFrameSize f)
    (hrange : c.frameDecoder.InRange) (h : Expects role maxFrameSize c left rest) (hpasses : Passes it c d) :
    ∃ f later, left = f :: later ∧ Expects role maxFrameSize d later rest ∧ d.frameDecoder.InRange ∧
      receivedFrames d.trace = receivedFrames c.trace ++ [f] := by
  obtain ⟨d', hdecode, _⟩ | ⟨f, later, d', rfl, hdecode, _, hlater⟩ := expects_turn hmax hgood h
  · cases hpasses with
    | frame hsome _ => cases hdecode.symm.trans hsome
    | reject herror _ => cases hdecode.symm.trans herror
  · cases hpasses with
    | frame hsome hrun =>
      cases hdecode.symm.trans hsome
      obtain ⟨⟨hrange', _⟩, _, hreceived⟩ := frame_wired hrange hdecode hrun
      have hkept := (handleFrame_intake it f).run hrun
      have hpreface := congrArg Prod.snd hkept
      exact ⟨f, later, rfl, hlater.congr (congrArg Prod.fst hkept) (congrArg Prod.fst hpreface)
        (congrArg Prod.snd hpreface), hrange', hreceived⟩
    | reject herror _ => cases hdecode.symm.trans herror

/-- What `process` leaves of the frames that are expected, and that it fails on a frame only. -/
theorem expects_process {r : Except Error Unit} (hmax : maxFrameSize < 2 ^ 24)
    (hgood : ∀ f ∈ left, Good maxFrameSize f) (hrange : c.frameDecoder.InRange)
    (h : Expects role maxFrameSize c left rest) (hrun : process it c = (r, d)) :
    ∃ taken later, left = taken ++ later ∧ receivedFrames d.trace = receivedFrames c.trace ++ taken ∧
      (r = .ok () → Expects role maxFrameSize d later rest ∧ (rest = [] → later = [])) ∧
      ∀ e, r = .error e → ∃ f before, taken.getLast? = some f ∧ handleFrame it f before = (.error e, d) := by
  obtain ⟨c', hreach, hfinishes⟩ := process_iff.1 hrun
  have hreached : ∃ taken later, left = taken ++ later ∧ Expects role maxFrameSize c' later rest ∧
      c'.frameDecoder.InRange ∧ receivedFrames c'.trace = receivedFrames c.trace ++ taken := by
    clear hfinishes hrun
    induction hreach with
    | refl => exact ⟨[], left, rfl, h, hrange, (List.append_nil _).symm⟩
    | tail _ hpasses ih =>
      obtain ⟨taken, later, rfl, hlater, hrange', hreceived⟩ := ih
      obtain ⟨f, later, rfl, hnext, hrange'', hmore⟩ :=
        expects_passes hmax (fun f hf => hgood f (List.mem_append_right taken hf)) hrange' hlater hpasses
      exact ⟨taken ++ [f], later, by simp, hnext, hrange'', by rw [hmore, hreceived, List.append_assoc]⟩
  obtain ⟨taken, later, rfl, hlater, hrange', hreceived⟩ := hreached
  have hturn := expects_turn hmax (fun f hf => hgood f (List.mem_append_right taken hf)) hlater
  cases r with
  | ok u =>
    obtain ⟨left, hdecode, rfl⟩ := hfinishes
    obtain ⟨d', hnone, hwaits, hlast⟩ | ⟨f, _, d', _, hsome, _⟩ := hturn
    · cases hdecode.symm.trans hnone
      exact ⟨taken, later, rfl, hreceived, fun _ => ⟨hwaits, hlast⟩, fun e h => by cases h⟩
    · cases hdecode.symm.trans hsome
  | error e =>
    obtain ⟨d', hnone, _⟩ | ⟨f, later, d', rfl, hsome, _, _⟩ := hturn
    · cases hfinishes with
      | frame hdecode _ => cases hdecode.symm.trans hnone
      | reject hdecode _ => cases hdecode.symm.trans hnone
    · cases hfinishes with
      | frame hdecode hstop =>
        cases hdecode.symm.trans hsome
        obtain ⟨_, _, hmore⟩ := frame_wired hrange' hsome hstop
        refine ⟨taken ++ [f], later, by simp, by rw [hmore, hreceived, List.append_assoc], nofun, ?_⟩
        intro e' he
        cases he
        exact ⟨f, _, by simp, hstop⟩
      | reject hdecode _ => cases hdecode.symm.trans hsome

theorem feed_push {n : Except Error Unit} (h : push data c = (n, d)) (hok : n = .ok ()) :
    ∃ v, (Call.feed data).exec c = (.ok v, d) := by
  subst hok
  cases hfeed : feed data c with
  | mk r c' =>
    cases r with
    | ok n =>
      have hpush : push data c = (.ok (), c') := bind_ok hfeed _
      cases hpush.symm.trans h
      exact ⟨.length n, bind_ok hfeed _⟩
    | error e =>
      have hpush : push data c = (.error e, c') := bind_error hfeed _
      cases hpush.symm.trans h

/-- The octets that come next are never refused. -/
theorem expects_feed (hrole : c.role = role) (h : Expects role maxFrameSize c left (data ++ rest)) :
    ∃ v d, (Call.feed data).exec c = (.ok v, d) ∧ Expects role maxFrameSize d left rest := by
  by_cases hc : Opened role c
  · have hstarted : Started c := by
      rintro ⟨hserver, hreceived⟩
      cases (hc (hrole.symm.trans hserver)).symm.trans hreceived
    obtain ⟨unread, hawaits, hoctets⟩ := h.opened hc
    obtain ⟨v, hexec⟩ := feed_push (push_started hstarted data) rfl
    refine ⟨v, _, hexec, fun _ => ⟨unread ++ data, FrameDecoder.awaits_feed data hawaits, ?_⟩, ?_⟩
    · rw [List.append_assoc, hoctets]
    · exact fun hclosed => absurd hc hclosed
  · obtain ⟨hserver, hreceived⟩ : role = .server ∧ c.prefaceReceived = false := by
      rw [Opened, Classical.not_imp, Bool.not_eq_true] at hc
      exact hc
    have hstarted : ¬ Started c := not_not.2 ⟨hrole.trans hserver, hreceived⟩
    obtain ⟨hawaits, due, hdue, hpreface, hrest⟩ := h.closed hc
    have hlength : c.prefaceBuffer.length + due.length = connectionPrefaceLen := by
      rw [← List.length_append, hpreface]
      rfl
    have hsub : connectionPrefaceLen - c.prefaceBuffer.length = due.length := by omega
    have hwith : prefaceWith c data = c.prefaceBuffer ++ data.take due.length := by
      rw [prefaceWith, hsub]
    have hpush := push_preface hstarted data
    rw [hwith, hsub] at hpush
    by_cases hshort : data.length < due.length
    · -- The piece ends within the preface.
      obtain ⟨due', rfl⟩ : data <+: due := by
        apply List.prefix_of_prefix_length_le (List.prefix_append data rest) _ hshort.le
        rw [hrest]
        exact List.prefix_append _ _
      rw [List.take_of_length_le hshort.le] at hpush
      have hpart : c.prefaceBuffer ++ data = connectionPreface.take (c.prefaceBuffer ++ data).length := by
        rw [← hpreface, ← List.append_assoc]
        exact (List.take_left' rfl).symm
      have hless : (c.prefaceBuffer ++ data).length < connectionPrefaceLen := by
        rw [List.length_append]
        omega
      rw [if_pos hpart, if_pos hless] at hpush
      obtain ⟨v, hexec⟩ := feed_push hpush rfl
      refine ⟨v, _, hexec, fun hopened => absurd hopened hc, fun _ => ⟨hawaits, due', ?_, ?_, ?_⟩⟩
      · rintro rfl
        simp at hshort
      · rw [List.append_assoc]
        exact hpreface
      · rw [List.append_assoc] at hrest
        exact List.append_cancel_left hrest
    · obtain ⟨more, rfl⟩ : due <+: data := by
        apply List.prefix_of_prefix_length_le _ (List.prefix_append data rest) (Nat.le_of_not_lt hshort)
        rw [hrest]
        exact List.prefix_append _ _
      have hlong : ¬ connectionPreface.length < connectionPrefaceLen := Nat.lt_irrefl _
      rw [List.take_left' rfl, List.drop_left' rfl, hpreface, if_pos List.take_length.symm,
        if_neg hlong] at hpush
      obtain ⟨v, hexec⟩ := feed_push hpush rfl
      rw [List.append_assoc] at hrest
      have hrest := List.append_cancel_left hrest
      refine ⟨v, _, hexec, fun _ => ⟨more, FrameDecoder.awaits_feed more hawaits, hrest⟩, ?_⟩
      exact fun hclosed => absurd (fun _ => rfl) hclosed

/-- Calls that neither feed nor process leave what is expected. -/
theorem expects_call {k : Call} (hfeed : ∀ data, k ≠ .feed data) (hprocess : ∀ it, k ≠ .process it)
    (hmark : role = .server → k ≠ .markPrefaceReceived) (h : Expects role maxFrameSize c left rest) :
    Expects role maxFrameSize (k.exec c).2 left rest := by
  have hdecoder := exec_decoder (c := c) hfeed hprocess
  by_cases hmarks : k = .markPrefaceReceived
  · have hclient : role ≠ .server := fun hserver => hmark hserver hmarks
    obtain ⟨unread, hawaits, hunread⟩ := h.opened fun hserver => absurd hserver hclient
    refine ⟨fun _ => ⟨unread, by rw [hdecoder]; exact hawaits, hunread⟩, fun hclosed => ?_⟩
    exact absurd (fun hserver => absurd hserver hclient) hclosed
  · obtain ⟨hreceived, hbuffer⟩ := exec_preface hfeed hmarks c
    exact h.congr hdecoder hreceived hbuffer

end

/-! ## Runs -/

section

variable {T : Terms} {role : Role} {limits : Limits} {history : List Record} {d : Connection}
  {fs : List Frame} {rest : Bytes}

theorem initiated_guards (role : Role) (limits : Limits) :
    (initiated role limits).guards = (Connection.new role limits).guards :=
  exec_keeps (k := .initiate) nofun nofun nofun nofun (Connection.new role limits)

theorem initiated_role (h : RunOf T (initiated role limits) history d) : d.role = role :=
  evolves_role (run_evolves (Output.initiated_run trivial h.run.any))

theorem initiated_received (role : Role) (limits : Limits) :
    receivedFrames (initiated role limits).trace = [] := by
  have hexec : initiated role limits = (initiate (Connection.new role limits)).2 := exec_value
  have hensures : Ensures initiate (Connection.new role limits) fun _ d => receivedFrames d.trace = [] := by
    simp only [initiate, ensures_bind, ensures_get, ensures_ite, ensures_modify]
    refine ⟨fun _ => rfl, fun _ => ?_⟩
    rw [ensures_sendFrame (f := .settings _) rfl]
    apply ensures_mono (sendInitialConnectionWindowUpdate_wired.ensures _)
    intro r d hd
    have hsame : receivedFrames d.trace = _ := congrArg Prod.snd hd
    rw [hsame]
    rfl
  rw [hexec]
  exact hensures

/-- A side that has only opened waits for all that comes. -/
theorem initiated_expects (hoctets : rest = prologue role.peer ++ fs.flatMap Frame.wire) :
    Expects role limits.maxFrameSize (initiated role limits) fs rest := by
  have hguards := initiated_guards role limits
  have hdecoder : (initiated role limits).frameDecoder = .new limits.maxFrameSize :=
    congrArg Guards.frameDecoder hguards
  have hreceived : (initiated role limits).prefaceReceived = false := congrArg Guards.prefaceReceived hguards
  have hbuffer : (initiated role limits).prefaceBuffer = [] := congrArg Guards.prefaceBuffer hguards
  have hawaits : FrameDecoder.Awaits limits.maxFrameSize (initiated role limits).frameDecoder [] := by
    rw [hdecoder]
    exact FrameDecoder.awaits_new _
  cases role with
  | client => exact ⟨fun _ => ⟨[], hawaits, hoctets⟩, fun hclosed => absurd nofun hclosed⟩
  | server =>
    refine ⟨fun hopened => ?_, fun _ => ⟨hawaits, connectionPreface, nofun, ?_, hoctets⟩⟩
    · cases hreceived.symm.trans (hopened rfl)
    · rw [hbuffer, List.nil_append]

/-- What was received begins the frames that were fed, and what is held is a part of the next ones. -/
theorem run_expects (h : RunOf T (initiated role limits) history d) (hsound : Sound history)
    (hmark : role = .server → ∀ r ∈ history, r.call ≠ .markPrefaceReceived)
    (htyped : ∀ r ∈ history, typed r.call)
    (hgood : ∀ f ∈ fs, Good limits.maxFrameSize f)
    (hoctets : fed history ++ rest = prologue role.peer ++ fs.flatMap Frame.wire) :
    ∃ left, fs = receivedFrames d.trace ++ left ∧ Expects role limits.maxFrameSize d left rest := by
  have hmax : (limits.maxFrameSize : Nat) < 2 ^ 24 := by
    have hle := limits.maxFrameSize.2.2
    omega
  induction h generalizing rest with
  | start =>
    refine ⟨fs, ?_, initiated_expects hoctets⟩
    rw [initiated_received, List.nil_append]
  | @call history c k _ _ hrun ih =>
    obtain ⟨hk, htyped⟩ := List.forall_mem_cons.1 htyped
    have hbefore : ∀ {rest : Bytes}, fed history ++ rest = prologue role.peer ++ fs.flatMap Frame.wire →
        ∃ left, fs = receivedFrames c.trace ++ left ∧ Expects role limits.maxFrameSize c left rest :=
      ih hsound.tail (fun hserver r hr => hmark hserver r (List.mem_cons_of_mem _ hr)) htyped
    obtain ⟨⟨_, _, hsent⟩, hrange⟩ := run_octets hrun htyped
    by_cases hfeed : ∃ data, k = .feed data
    · obtain ⟨data, rfl⟩ := hfeed
      have hfed : fed history ++ (data ++ rest) = prologue role.peer ++ fs.flatMap Frame.wire := by
        rw [← List.append_assoc]
        exact hoctets
      obtain ⟨left, hframes, hexpects⟩ := hbefore hfed
      obtain ⟨v, d, hexec, hd⟩ := expects_feed (initiated_role hrun) hexpects
      refine ⟨left, ?_, by rw [hexec]; exact hd⟩
      have hsame := congrArg Prod.snd (exec_wired hk nofun nofun hsent)
      exact hframes.trans (congrArg (· ++ left) hsame.symm)
    by_cases hprocess : ∃ it, k = .process it
    · obtain ⟨it, rfl⟩ := hprocess
      obtain ⟨left, rfl, hexpects⟩ := hbefore hoctets
      obtain ⟨v, hv⟩ := hsound.head rfl
      obtain ⟨taken, later, rfl, hreceived, hok, _⟩ :=
        expects_process hmax (fun f hf => hgood f (List.mem_append_right _ hf)) hrange hexpects
          (exec_process_ok hv)
      exact ⟨later, by rw [hreceived, List.append_assoc], (hok rfl).1⟩
    · have hfed : fed (⟨k, (k.exec c).1⟩ :: history) = fed history := by
        cases k with
        | feed data => exact absurd ⟨data, rfl⟩ hfeed
        | _ => rfl
      rw [hfed] at hoctets
      obtain ⟨left, hframes, hexpects⟩ := hbefore hoctets
      have hsame : receivedFrames (k.exec c).2.trace = receivedFrames c.trace := by
        by_cases hpoll : k = .pollOutput
        · subst hpoll
          rfl
        · exact congrArg Prod.snd (exec_wired hk hpoll (fun it h => hprocess ⟨it, h⟩) hsent)
      refine ⟨left, by rw [hsame]; exact hframes, ?_⟩
      exact expects_call (fun data h => hfeed ⟨data, h⟩) (fun it h => hprocess ⟨it, h⟩)
        (fun hserver => hmark hserver _ List.mem_cons_self) hexpects

end

end Delivery

end Http2
