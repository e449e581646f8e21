import Http2.Connection.Compression

/-! Header compression between two connections: the lists that one side encodes are those that the
other decodes. -/
namespace Http2.Pair

open Hpack Lib Lib.Prog Connection Wire Compression
open Negotiation (announcement)

/-! ## The first frame of a side -/

theorem sentFrames_append (later earlier : List Item) :
    sentFrames (later ++ earlier) = sentFrames earlier ++ sentFrames later := by
  induction later with
  | nil => exact (List.append_nil _).symm
  | cons i later ih => cases i <;> simp [sentFrames, ih]

theorem evolves_sentFrames {T : Terms} {c d : Core} (h : Evolves T c d) :
    sentFrames c.trace <+: sentFrames d.trace := by
  induction h with
  | refl => exact List.prefix_refl _
  | tail _ hchange ih =>
    obtain ⟨l, _, hchange⟩ := hchange
    obtain ⟨new, htrace, _⟩ := hchange.extends
    refine ih.trans ?_
    rw [htrace, ← List.append_assoc, sentFrames_append]
    exact List.prefix_append _ _

theorem initiated_sentFrames (role : Role) (limits : Limits) :
    [.settings (announcement role limits)] <+: sentFrames (initiated role limits).trace := by
  have hexec : initiated role limits = (initiate (Connection.new role limits)).2 := exec_value
  have hensures : Ensures initiate (Connection.new role limits) fun _ d =>
      [.settings (announcement role limits)] <+: sentFrames d.trace := by
    simp only [initiate, ensures_bind, ensures_get, ensures_ite, ensures_modify]
    refine ⟨fun hsent => absurd hsent Bool.false_ne_true, fun _ => ?_⟩
    rw [ensures_sendFrame (f := .settings _) rfl]
    apply ensures_mono (initialWindowUpdate_leads (T := .any))
    intro r d hd
    have hchain : Chain .any _ d.toCore := hd
    exact evolves_sentFrames (steps_evolves hchain.steps)
  rw [hexec]
  exact hensures

section

variable {limits : Role → Limits} {histories : Role → List Record} {p : Pair}

theorem Runs.first (h : Runs limits histories p) (role : Role) :
    ∃ rest, sentFrames (p.side role).trace = .settings (announcement role (limits role)) :: rest := by
  obtain ⟨hrun, _, _⟩ := h.side role
  have htidy : Tidy (initiated role (limits role)).toCore :=
    run_tidy (Output.initiated_run (T := .any) trivial .start)
  obtain ⟨rest, hrest⟩ := (initiated_sentFrames role (limits role)).trans
    (evolves_sentFrames (hrun.evolves htidy))
  exact ⟨rest, hrest.symm⟩

theorem Runs.steps (h : Runs limits histories p) (hsound : ∀ role, Sound (histories role)) (role : Role) :
    Steps Output.terms (Core.new role (limits role)) (p.side role).toCore := by
  obtain ⟨history, hrun, hhistory⟩ := h.course role
  exact (run_course hrun (hhistory (hsound role))).steps

/-- What a side received begins what the other sent. -/
theorem Runs.received (h : Runs limits histories p) (hsound : ∀ role, Sound (histories role)) (role : Role) :
    receivedFrames (p.side role.peer).trace <+: sentFrames (p.side role).trace := by
  obtain ⟨left, hflight⟩ := delivered_in_order h hsound role
  exact ⟨left, hflight.frames.symm⟩

theorem Runs.announced (h : Runs limits histories p) (hsound : ∀ role, Sound (histories role)) (role : Role) :
    ∀ f, .settings f ∈ receivedFrames (p.side role).trace →
      f.ack = true ∨ f = announcement role.peer (limits role.peer) := by
  intro f hf
  have hreceived := h.received hsound role.peer
  rw [Role.peer_peer] at hreceived
  exact h.announces role.peer f (hreceived.subset hf)

/-- A server sends no list before it has had the SETTINGS of the client. -/
theorem Runs.early_server (h : Runs limits histories p) (hsound : ∀ role, Sound (histories role)) :
    early (p.side .server).trace = [] := by
  refine (steps_early (h.steps hsound .server) fun f rest hrest => ?_).1
  obtain ⟨rest', hfirst⟩ := h.first .client
  have hreceived : receivedFrames (p.side .server).trace <+: sentFrames (p.side .client).trace :=
    h.received hsound .client
  rw [hrest, hfirst] at hreceived
  exact ⟨announcement .client (limits .client), (List.cons_prefix_cons.1 hreceived).1, rfl⟩

/-- A list such as a side with these limits takes. -/
def Takes (limits : Limits) (headers : List HeaderField) : Prop :=
  (∀ f ∈ headers, f.Representable) ∧
    ∀ m, limits.maxHeaderListSize = some m → Budget.total HeaderField.size headers ≤ m.toNat

/-- The block that the last of these frames goes on with is too long. -/
def Oversized (limit : Nat) (fs : List Frame) : Prop :=
  ∃ before f piece last, fs = before ++ [f] ∧ fragment f = some (piece, last) ∧
    limit < ((blocks before).2 ++ piece).length

/-- The lists that came out so far are the first ones that went in. That holds after `process` as
well, and it fails on a header block only if that is longer than the limit of the side. -/
structure Agrees (limits : Role → Limits) (p : Pair) (role : Role) : Prop where
  lists : decoded (p.side role.peer).trace <+: encoded (p.side role).trace
  all : (decoded (p.side role.peer).trace).length = (received (p.side role.peer).trace).1.length
  process : ∀ it r d, Connection.process it (p.side role.peer) = (r, d) →
    decoded d.trace <+: encoded (p.side role).trace ∧
      ∀ e, r = .error e → e.kind = .connectionError .compressionError →
        Oversized (effectiveMaxFragment (.fromLimits (limits role.peer))) (receivedFrames d.trace)

theorem Runs.spoken (h : Runs limits histories p) (hsound : ∀ role, Sound (histories role)) (role : Role)
    (hfits : ∀ headers ∈ encoded (p.side role).trace, Takes (limits role.peer) headers)
    (hsize : role = .client → (limits .client).headerTableSize ≤ (limits .server).headerTableSize ∨
      early (p.side .client).trace = []) :
    Spoken (limits role).headerTableSize.toNat (Core.new role.peer (limits role.peer)).hpackDecoder
      (coding (p.side role).toCore) := by
  refine steps_spoken (h.steps hsound role) (h.announced hsound role) (fun headers hmem => ?_) ?_
  · obtain ⟨hr, hlist⟩ := hfits headers hmem
    refine ⟨hr, fun m hm => ?_⟩
    obtain ⟨size, hsize, rfl⟩ := Option.map_eq_some_iff.1 hm
    exact hlist size hsize
  · cases role with
    | client => exact hsize rfl
    | server => exact .inr (h.early_server hsound)

theorem heard_new (role : Role) (limits : Limits) :
    Heard (Core.new role limits).hpackDecoder (coding (Core.new role limits)) := ⟨rfl, rfl⟩

/-- What the blocks received give is what the sender put into them. -/
theorem heard_spoken {d : Decoder} {own : Nat} {c e : Core} (hheard : Heard d (coding c))
    (hspoken : Spoken own d (coding e)) (h : receivedFrames c.trace <+: sentFrames e.trace) :
    decoded c.trace <+: encoded e.trace := by
  obtain ⟨left, hleft⟩ := h
  obtain ⟨d', hreplay, _⟩ := hspoken.replay
  have hprefix : (received c.trace).1 <+: (sent e.trace).1 := by
    rw [received_eq, sent_eq, ← hleft]
    exact blocks_append _ _
  obtain ⟨more, hmore⟩ := hprefix
  rw [coding_sent, ← hmore] at hreplay
  obtain ⟨later, hlater, _⟩ := replay_prefix hheard.replay hreplay
  exact ⟨later, hlater.symm⟩

/-- A block that was sent is decoded. -/
theorem decodes {d : Decoder} {own : Nat} {c e : Core} {f : Frame} {piece : Bytes}
    (hheard : Heard d (coding c)) (hspoken : Spoken own d (coding e))
    (h : receivedFrames c.trace ++ [f] <+: sentFrames e.trace) (hlast : fragment f = some (piece, true)) :
    ∃ headers d', c.hpackDecoder.decode (part c ++ piece) = (.ok headers, d') := by
  obtain ⟨left, hleft⟩ := h
  obtain ⟨last, hreplay, _⟩ := hspoken.replay
  have hnext : (blocks (receivedFrames c.trace ++ [f])).1 =
      (received c.trace).1 ++ [(received c.trace).2 ++ piece] := by
    rw [blocks_snoc, ← received_eq, gather_last _ hlast]
  obtain ⟨more, hmore⟩ := blocks_append (receivedFrames c.trace ++ [f]) left
  rw [hleft, ← sent_eq, hnext, List.append_assoc] at hmore
  rw [coding_sent, ← hmore] at hreplay
  obtain ⟨later, _, hlater⟩ := replay_prefix hheard.replay hreplay
  have hpart : part c = (received c.trace).2 := hheard.part
  rw [hpart]
  exact replay_next hlater

/-- A frame that a side fails on brings no list, and HPACK refuses none of its blocks. -/
theorem fault_agrees {d : Decoder} {own : Nat} {c c' e : Core} {error : Error} {l : Label}
    (hfault : Fault c error l c') (hheard : Heard d (coding c)) (hspoken : Spoken own d (coding e))
    (h : receivedFrames c'.trace <+: sentFrames e.trace) :
    decoded c'.trace <+: encoded e.trace ∧ (error.kind = .connectionError .compressionError →
      Oversized (effectiveMaxFragment c.localSettings) (receivedFrames c'.trace)) := by
  have hpart : part c = (blocks (receivedFrames c.trace)).2 := by
    rw [← received_eq]
    exact hheard.part
  have hsame : decoded c'.trace = decoded c.trace := by cases hfault <;> rfl
  have hbefore : receivedFrames c.trace <+: receivedFrames c'.trace := by
    cases hfault with
    | decoder => exact List.prefix_refl _
    | _ => exact List.prefix_append _ _
  refine ⟨hsame ▸ heard_spoken hheard hspoken (hbefore.trans h), fun hkind => ?_⟩
  have hnot : error.plain ≠ true := by simp [Error.plain, hkind]
  cases hfault with
  | decoder hplain => exact absurd hplain hnot
  | refused _ hplain => exact absurd hplain hnot
  | settings _ _ _ _ hplain => exact absurd hplain hnot
  | badBlock f d' _ hcont _ hlast hdecode =>
    obtain ⟨headers, d'', hok⟩ := decodes hheard hspoken h (fragment_headers hlast)
    rw [part, hcont] at hok
    cases hdecode.symm.trans hok
  | badLast f d' _ hcont hlast hdecode =>
    obtain ⟨headers, d'', hok⟩ := decodes hheard hspoken h (fragment_continuation hlast)
    rw [part, hcont] at hok
    cases hdecode.symm.trans hok
  | longBlock f _ hcont _ _ hlong =>
    refine ⟨_, .headers f, _, _, rfl, rfl, ?_⟩
    rw [← hpart, part, hcont]
    exact hlong
  | longNext f _ hcont hlong =>
    refine ⟨_, .continuation f, _, _, rfl, rfl, ?_⟩
    rw [← hpart, part, hcont]
    exact hlong

/-- Each side decodes the lists that the other encoded, in order, as long as they fit it and the
client uses no larger table than the server has before it knows of that. -/
theorem lists_agree (h : Runs limits histories p) (hsound : ∀ role, Sound (histories role)) (role : Role)
    (hfits : ∀ headers ∈ encoded (p.side role).trace, Takes (limits role.peer) headers)
    (hsize : role = .client → (limits .client).headerTableSize ≤ (limits .server).headerTableSize ∨
      early (p.side .client).trace = []) : Agrees limits p role := by
  have hspoken := h.spoken hsound role hfits hsize
  have hsteps := h.steps hsound role.peer
  have hheard := steps_heard (heard_new role.peer (limits role.peer)) hsteps
  refine ⟨heard_spoken hheard hspoken (h.received hsound role), replay_length hheard.replay, ?_⟩
  intro it r d hprocess
  obtain ⟨left, hflight⟩ := delivered_in_order h hsound role
  obtain ⟨taken, later, hleft, hreceived, _⟩ := hflight.process it r d hprocess
  have hframes : receivedFrames d.trace <+: sentFrames (p.side role).trace := by
    rw [hflight.frames, hleft, ← List.append_assoc, ← hreceived]
    exact List.prefix_append _ _
  have htidy : Tidy (p.side role.peer).toCore := steps_tidy (Tidy.new role.peer (limits role.peer)) hsteps
  have hfollows := process_follows (T := Output.callTerms) it htidy
    (Output.callTerms_heeds (.process it) (p.side role.peer))
  rw [Ensures, hprocess] at hfollows
  cases r with
  | ok u =>
    have hchain : Chain Output.callTerms (p.side role.peer).toCore d.toCore := hfollows
    exact ⟨heard_spoken (steps_heard hheard hchain.steps) hspoken hframes, fun e he => by cases he⟩
  | error e =>
    obtain ⟨c, l, hchain, _, hfault⟩ := hfollows
    have hc := steps_heard hheard hchain.steps
    have hlocal : c.localSettings = .fromLimits (limits role.peer) :=
      (evolves_localSettings (steps_evolves hchain.steps)).trans
        (evolves_localSettings (steps_evolves hsteps))
    obtain ⟨hlists, hlong⟩ := fault_agrees hfault hc hspoken hframes
    refine ⟨hlists, fun e' he hkind => ?_⟩
    cases he
    rw [hlocal] at hlong
    exact hlong hkind

end

/-! ## A run that is computed -/

/-- The server answers, and the client hears of it. -/
def answer : List (Role × (Pair → Call)) :=
  (.server, fun _ => .sendResponse 1 [⟨ascii ":status", ascii "200", false⟩] true) ::
    (arrive .client ++ [(.client, fun _ => .pollEvent)])

theorem admits_answer (p : Pair) : AdmitsAll answer p := by
  have hpoll : ∀ p, AdmitsAll [(.client, fun _ => .pollEvent)] p :=
    fun p => ⟨admits_plain ⟨trivial, nofun⟩ rfl nofun, trivial⟩
  have htyped : typed (.sendResponse 1 [⟨ascii ":status", ascii "200", false⟩] true) :=
    (by decide : 1 < 2 ^ 31)
  exact ⟨admits_plain ⟨htyped, nofun⟩ rfl nofun, admits_arrive hpoll .client _⟩

/-- The client asks before it has heard from the server. -/
def conversation : List (Role × (Pair → Call)) :=
  (.client, fun _ => .startStream getRequest true) :: (arrive .server ++ answer)

theorem takes_getRequest {limits : Limits} (h : limits.maxHeaderListSize = some 16384) :
    Takes limits getRequest := by
  have hsmall : Budget.total HeaderField.size getRequest ≤ 16384 := by decide +kernel
  refine ⟨by simp only [HeaderField.Representable]; decide +kernel, fun m hm => ?_⟩
  obtain rfl := Option.some.inj (h.symm.trans hm)
  exact hsmall

theorem lists_agree_conversation :
    let r := play conversation (fun _ => []) (new fun _ => .default)
    encoded (r.2.side .client).trace = [getRequest] ∧ decoded (r.2.side .server).trace = [getRequest] ∧
      (decoded (r.2.side .client).trace).length = 1 ∧ Agrees (fun _ => .default) r.2 .client := by
  have hadmits : AdmitsAll conversation (new fun _ => .default) :=
    ⟨admits_plain ⟨trivial, nofun⟩ rfl nofun, admits_arrive admits_answer .server _⟩
  have hsound : ∀ role, Sound ((play conversation (fun _ => []) (new fun _ => .default)).1 role) := by
    intro role
    unfold Sound
    cases role <;> decide +kernel
  have hencoded : encoded ((play conversation (fun _ => []) (new fun _ => .default)).2.side .client).trace =
      [getRequest] := by decide +kernel
  refine ⟨hencoded, by decide +kernel, by decide +kernel, ?_⟩
  refine lists_agree (Runs.play .start hadmits) hsound .client ?_ fun _ => .inl (UInt32.le_refl _)
  rw [hencoded]
  intro headers hmem
  obtain rfl := List.mem_singleton.1 hmem
  exact takes_getRequest rfl

/-- A server that keeps no table. -/
def tableless : Role → Limits
  | .client => .default
  | .server => { Limits.default with headerTableSize := 0 }

/-- Two requests leave before the client has heard from the server, the second of which refers to a
field of the first. -/
def hasty : List (Role × (Pair → Call)) :=
  [(.client, fun _ => .startStream getRequest true), (.client, fun _ => .startStream getRequest true),
    (.client, fun _ => .pollOutput), (.server, fun p => .feed (p.inbox .server))]

theorem Oversized.last {limit : Nat} {fs : List Frame} (h : Oversized limit fs) :
    limit < ((blocks fs.dropLast).2 ++ ((fs.getLast?.bind fragment).elim [] Prod.fst)).length := by
  obtain ⟨before, f, piece, last, rfl, hfragment, hlimit⟩ := h
  rw [List.dropLast_concat, List.getLast?_concat, Option.bind_some, hfragment]
  exact hlimit

/-- With a table that is larger than the server's such a client is not understood. -/
theorem lists_agree_any_false :
    ∃ histories p, Runs tableless histories p ∧ (∀ role, Sound (histories role)) ∧
      (∀ headers ∈ encoded (p.side .client).trace, Takes (tableless .server) headers) ∧
      ¬ Agrees tableless p .client := by
  have hadmits : AdmitsAll hasty (new tableless) :=
    ⟨admits_plain ⟨trivial, nofun⟩ rfl nofun, admits_plain ⟨trivial, nofun⟩ rfl nofun,
      admits_plain ⟨trivial, nofun⟩ rfl nofun, admits_feed (List.prefix_refl _), trivial⟩
  have hencoded : encoded ((play hasty (fun _ => []) (new tableless)).2.side .client).trace =
      [getRequest, getRequest] := by decide +kernel
  refine ⟨_, _, Runs.play .start hadmits, ?_, ?_, fun hagrees => ?_⟩
  · intro role
    unfold Sound
    cases role <;> decide +kernel
  · rw [hencoded]
    intro headers hmem
    obtain rfl : headers = getRequest := by simpa using hmem
    exact takes_getRequest rfl
  · have herror : (Connection.process .listed ((play hasty (fun _ => []) (new tableless)).2.side
        Role.client.peer)).1 =
        .error (.connectionError .compressionError "HPACK decode error: invalid dynamic table index") := by
      decide +kernel
    have hlong := (hagrees.process .listed _ _ Prod.mk.eta.symm).2 _ herror rfl
    exact absurd hlong.last (by decide +kernel)

end Http2.Pair
