import Http2.Connection.Delivery

/-! Two connections and a channel each way: what one side sends the other receives, in order and once,
whatever the sides call and however the octets are cut. -/
namespace Http2

open Hpack Lib Lib.Prog Connection Wire
open Negotiation (announcement announcement_foldl frames prologue)
open Expected (fed)
open Delivery (Good Expects expects_process expects_feed run_expects)

/-- Two connections and the octets on their way to each of them. -/
structure Pair where
  side : Role → Connection
  inbox : Role → Bytes

namespace Pair

/-- Both sides have opened. -/
def new (limits : Role → Limits) : Pair where
  side role := initiated role (limits role)
  inbox _ := []

/-- The octets that a call takes off the channel. -/
def taken : Call → Bytes
  | .feed data => data
  | _ => []

/-- A side makes a call. What it feeds comes off its channel, what it polls goes onto the other one. -/
def perform (p : Pair) (role : Role) (k : Call) : Pair where
  side := Function.update p.side role (k.exec (p.side role)).2
  inbox other :=
    if other = role then (p.inbox other).drop (taken k).length
    else p.inbox other ++ handed ⟨k, (k.exec (p.side role)).1⟩

/-- Only the next octets of the channel are fed; arguments are what their types allow, and GOAWAY fits
a frame of the peer. -/
structure Admits (p : Pair) (role : Role) (k : Call) : Prop where
  args : Output.terms.api (p.side role).toCore k
  next : taken k <+: p.inbox role
  preface : role = .server → k ≠ .markPrefaceReceived

/-- The pairs that calls of both sides lead to, in any order, with the calls of each. -/
inductive Runs (limits : Role → Limits) : (Role → List Record) → Pair → Prop
  | start : Runs limits (fun _ => []) (new limits)
  | call {histories : Role → List Record} {p : Pair} (role : Role) (k : Call) (hk : p.Admits role k) :
      Runs limits histories p → Runs limits
        (Function.update histories role (⟨k, (k.exec (p.side role)).1⟩ :: histories role)) (p.perform role k)

section

variable {limits : Role → Limits} {histories : Role → List Record} {p : Pair} {role other : Role} {k : Call}

@[simp] theorem perform_self : (p.perform role k).side role = (k.exec (p.side role)).2 :=
  Function.update_self role _ p.side

@[simp] theorem perform_other (h : other ≠ role) : (p.perform role k).side other = p.side other :=
  Function.update_of_ne h _ p.side

theorem Runs.sound_tail {r : Record}
    (h : ∀ other, Sound (Function.update histories role (r :: histories role) other)) :
    ∀ other, Sound (histories other) := by
  intro other
  have hother := h other
  by_cases heq : other = role
  · subst heq
    rw [Function.update_self] at hother
    exact hother.tail
  · rwa [Function.update_of_ne heq] at hother

/-- Each side goes through a run of its own. -/
theorem Runs.side (h : Runs limits histories p) (role : Role) :
    RunOf Output.callTerms (initiated role (limits role)) (histories role) (p.side role) ∧
      (∀ r ∈ histories role, typed r.call) ∧
          (role = .server → ∀ r ∈ histories role, r.call ≠ .markPrefaceReceived) := by
  induction h with
  | start => exact ⟨.start, (fun r hr => by cases hr), (fun _ r hr => by cases hr)⟩
  | @call histories p mover k hk _ ih =>
    by_cases heq : role = mover
    · subst heq
      rw [Function.update_self, perform_self]
      obtain ⟨hrun, htyped, hmark⟩ := ih
      exact ⟨.call k hk.args (Output.callTerms_heeds k _) hrun, List.forall_mem_cons.2 ⟨hk.args.1, htyped⟩,
        fun hserver => List.forall_mem_cons.2 ⟨hk.preface hserver, hmark hserver⟩⟩
    · rw [Function.update_of_ne heq, perform_other heq]
      exact ih

/-- What a side has polled is what the other was fed and what is on its way. -/
theorem Runs.channel (h : Runs limits histories p) (role : Role) :
    polled (histories role) = fed (histories role.peer) ++ p.inbox role.peer := by
  induction h with
  | start => rfl
  | @call histories p mover k hk _ ih =>
    by_cases heq : role = mover
    · subst heq
      rw [Function.update_self, Function.update_of_ne role.peer_ne, polled, ih, List.append_assoc]
      exact congrArg (fed (histories role.peer) ++ ·) (if_neg role.peer_ne).symm
    · obtain rfl : mover = role.peer := Role.eq_peer (Ne.symm heq)
      rw [Function.update_of_ne heq, Function.update_self, ih]
      obtain ⟨rest, hrest⟩ := hk.next
      have hinbox : (p.perform role.peer k).inbox role.peer = rest := by
        change (if role.peer = role.peer then _ else _) = rest
        rw [if_pos rfl, ← hrest, List.drop_left' rfl]
      have hfed : fed (⟨k, (k.exec (p.side role.peer)).1⟩ :: histories role.peer) =
          fed (histories role.peer) ++ taken k := by
        cases k with
        | feed data => rfl
        | _ => exact (List.append_nil _).symm
      rw [hinbox, hfed, List.append_assoc, hrest]

end

/-! ## What the SETTINGS of the other side allow -/

theorem foldl_same {settings : List Setting} {s : Settings} (h : ∀ x ∈ settings, s.apply x = s) :
    settings.foldl Settings.apply s = s := by
  induction settings with
  | nil => rfl
  | cons x settings ih =>
    obtain ⟨hx, hsettings⟩ := List.forall_mem_cons.1 h
    rw [List.foldl_cons, hx]
    exact ih hsettings

/-- The SETTINGS of a side that announces only its limits are in force once they came. -/
theorem announced_settings {items : List Item} {role : Role} {limits : Limits}
    (h : ∀ f, .settings f ∈ receivedFrames items → f.ack = true ∨ f = announcement role limits) :
    (frames items).flatten.foldl Settings.apply Settings.new =
      if frames items = [] then Settings.new else Settings.fromLimits limits := by
  induction items with
  | nil => rfl
  | cons i items ih =>
    cases i with
    | received f =>
      have hbefore := ih fun g hg => h g (List.mem_append_left _ hg)
      cases f with
      | settings f =>
        by_cases hack : f.ack = true
        · rw [frames, if_pos hack]
          exact hbefore
        · have hf := (h f (List.mem_append_right _ List.mem_cons_self)).resolve_left hack
          rw [frames, if_neg hack, if_neg (List.append_ne_nil_of_right_ne_nil _ (List.cons_ne_nil _ _)),
            List.flatten_append, List.foldl_append, hbefore, List.flatten_singleton, hf]
          by_cases hnone : frames items = []
          · rw [if_pos hnone]
            exact announcement_foldl
          · rw [if_neg hnone]
            exact foldl_same fun x hx => Settings.apply_of_mem (List.mem_filter.1 hx).1
      | _ => exact hbefore
    | _ => exact ih h

theorem allowed_le {items : List Item} {role : Role} {limits : Limits}
    (h : ∀ f, .settings f ∈ receivedFrames items → f.ack = true ∨ f = announcement role limits) :
    Output.allowed items ≤ limits.maxFrameSize := by
  rw [Output.allowed, announced_settings h]
  split
  · exact limits.maxFrameSize.2.1
  · exact Nat.le_refl _

/-! ## From one side to the other -/

section

variable {limits : Role → Limits} {histories : Role → List Record} {p : Pair}

theorem Runs.wellFormed (h : Runs limits histories p) (role : Role) :
    Output.WellFormed role (histories role) (p.side role) :=
  Output.output_wellFormed (h.side role).1

/-- The run of a side from its beginning, as far as its frames are concerned. -/
theorem Runs.course (h : Runs limits histories p) (role : Role) :
    ∃ history, RunOf Output.terms (Connection.new role (limits role)) history (p.side role) ∧
      (Sound (histories role) → Sound history) := by
  obtain ⟨hrun, _, _⟩ := h.side role
  have hterms := (Output.run_terms (initiated_inRange role (limits role)) hrun).1
  refine ⟨_, Output.initiated_run ⟨trivial, fun _ _ h => by cases h⟩ hterms, fun hsound r hr => ?_⟩
  obtain hr | hr := List.mem_append.1 hr
  · exact hsound r hr
  · obtain rfl := List.mem_singleton.1 hr
    exact fun hinput => by cases hinput

theorem Runs.whole (h : Runs limits histories p) (role : Role) :
    ∀ f ∈ sentFrames (p.side role).trace, isWhole f = true := by
  obtain ⟨hrun, htyped, _⟩ := h.side role
  exact (run_octets hrun htyped).1.2.1

/-- The SETTINGS of a side are acknowledgements and what its limits say. -/
theorem Runs.announces (h : Runs limits histories p) (role : Role) :
    ∀ f, .settings f ∈ sentFrames (p.side role).trace → f.ack = true ∨ f = announcement role
        (limits role) := by
  intro f hf
  obtain ⟨history, hrun, _⟩ := h.course role
  have hreadable := (Output.evolves_readable (run_evolves hrun)).1
  exact (hreadable _ (Output.mem_sentFrames.1 hf) (h.whole role _ hf)).2.2

/-- A side that has received what the other announces keeps to it. -/
theorem Runs.heeds (h : Runs limits histories p) (hsound : ∀ role, Sound (histories role)) (role : Role)
    (hreceived : ∀ f, .settings f ∈ receivedFrames (p.side role).trace →
      f.ack = true ∨ f = announcement role.peer (limits role.peer)) :
    ∀ f ∈ sentFrames (p.side role).trace, Good (limits role.peer).maxFrameSize f := by
  intro f hf
  obtain ⟨history, hrun, hhistory⟩ := h.course role
  have hmeasured := (Output.steps_measured (run_course hrun (hhistory (hsound role))).steps).1
  obtain ⟨later, earlier, htrace⟩ := List.append_of_mem (Output.mem_sentFrames.1 hf)
  obtain ⟨hencodable, hpayload, _⟩ := hmeasured.allowed later f earlier htrace (h.whole role f hf)
  refine ⟨hencodable, hpayload.trans (allowed_le fun g hg => hreceived g ?_)⟩
  rw [htrace, receivedFrames_append]
  exact List.mem_append_left _ hg

/-- What a side received begins what the other sent, if the frames are such as it reads. -/
theorem Runs.delivery (h : Runs limits histories p) (hsound : ∀ role, Sound (histories role)) (role : Role)
    (hgood : ∀ f ∈ sentFrames (p.side role).trace, Good (limits role.peer).maxFrameSize f) :
    ∃ left, sentFrames (p.side role).trace = receivedFrames (p.side role.peer).trace ++ left ∧
      Expects role.peer (limits role.peer).maxFrameSize (p.side role.peer) left
        (p.inbox role.peer ++ (p.side role).outputBuffer) := by
  obtain ⟨hrun, htyped, hmark⟩ := h.side role.peer
  refine run_expects hrun (hsound role.peer) hmark htyped hgood ?_
  have hoctets := (h.wellFormed role).octets
  rw [h.channel role, List.append_assoc] at hoctets
  rw [Role.peer_peer]
  exact hoctets

/-- All frames are such as the other side reads. -/
theorem Runs.good (h : Runs limits histories p) (hsound : ∀ role, Sound (histories role)) (role : Role) :
    ∀ f ∈ sentFrames (p.side role).trace, Good (limits role.peer).maxFrameSize f := by
  induction h generalizing role with
  | start =>
    refine Runs.heeds .start hsound role fun f hf => ?_
    have hnone : receivedFrames ((new limits).side role).trace = [] :=
      Delivery.initiated_received role (limits role)
    rw [hnone] at hf
    cases hf
  | @call histories p mover k hk hrun ih =>
    have hbefore := ih (sound_tail hsound)
    by_cases heq : role = mover
    · subst heq
      have hcall := Runs.call role k hk hrun
      have hpeer : (p.perform role k).side role.peer = p.side role.peer := perform_other role.peer_ne
      refine hcall.heeds hsound role fun f hf => ?_
      obtain ⟨left, hframes, _⟩ := hcall.delivery hsound role.peer (by rw [hpeer]; exact hbefore role.peer)
      apply hcall.announces role.peer
      rw [hframes, Role.peer_peer]
      exact List.mem_append_left left hf
    · rw [perform_other heq]
      exact hbefore role

/-- What a side sent and the other did not receive yet is on its way, whole and in order; the other
refuses none of the octets, and what it fails on is a frame that was sent. -/
structure InFlight (limits : Role → Limits) (p : Pair) (role : Role) (left : List Frame) : Prop where
  frames : sentFrames (p.side role).trace = receivedFrames (p.side role.peer).trace ++ left
  octets : Expects role.peer (limits role.peer).maxFrameSize (p.side role.peer) left
    (p.inbox role.peer ++ (p.side role).outputBuffer)
  feed : ∀ data, data <+: p.inbox role.peer → ∃ v, ((Call.feed data).exec (p.side role.peer)).1 = .ok v
  process : ∀ it r d, Connection.process it (p.side role.peer) = (r, d) → ∃ taken later,
    left = taken ++ later ∧
    receivedFrames d.trace = receivedFrames (p.side role.peer).trace ++ taken ∧
    (r = .ok () → p.inbox role.peer ++ (p.side role).outputBuffer = [] → later = []) ∧
    ∀ e, r = .error e → ∃ f before, taken.getLast? = some f ∧ handleFrame it f before = (.error e, d)

/-- As long as neither side has failed on what it was fed, each side receives what the other sent, in
order, nothing twice and nothing lost. -/
theorem delivered_in_order (h : Runs limits histories p) (hsound : ∀ role, Sound (histories role))
    (role : Role) :
    ∃ left, InFlight limits p role left := by
  have hgood := h.good hsound role
  obtain ⟨left, hframes, hexpects⟩ := h.delivery hsound role hgood
  obtain ⟨hrun, htyped, _⟩ := h.side role.peer
  have hrange := (run_octets hrun htyped).2
  have hleft : ∀ f ∈ left, Good (limits role.peer).maxFrameSize f := by
    intro f hf
    apply hgood
    rw [hframes]
    exact List.mem_append_right _ hf
  refine ⟨left, hframes, hexpects, fun data hdata => ?_, fun it r d hprocess => ?_⟩
  · obtain ⟨rest, hrest⟩ := hdata
    rw [← hrest, List.append_assoc] at hexpects
    obtain ⟨v, d, hexec, _⟩ := expects_feed (Delivery.initiated_role hrun) hexpects
    exact ⟨v, by rw [hexec]⟩
  · have hmax : ((limits role.peer).maxFrameSize : Nat) < 2 ^ 24 := by
      have hle := (limits role.peer).maxFrameSize.2.2
      omega
    obtain ⟨taken, later, hsplit, hreceived, hok, herror⟩ :=
      expects_process hmax hleft hrange hexpects hprocess
    exact ⟨taken, later, hsplit, hreceived, fun hr => (hok hr).2, herror⟩

end

/-! ## Runs that are computed -/

/-- Make calls, each of which may depend on what is there. -/
def play : List (Role × (Pair → Call)) → (Role → List Record) → Pair → (Role → List Record) × Pair
  | [], histories, p => (histories, p)
  | (role, k) :: steps, histories, p =>
    play steps (Function.update histories role (⟨k p, ((k p).exec (p.side role)).1⟩ :: histories role))
      (p.perform role (k p))

def AdmitsAll : List (Role × (Pair → Call)) → Pair → Prop
  | [], _ => True
  | (role, k) :: steps, p => p.Admits role (k p) ∧ AdmitsAll steps (p.perform role (k p))

theorem Runs.play {limits : Role → Limits} {histories : Role → List Record} {p : Pair}
    {steps : List (Role × (Pair → Call))} (h : Runs limits histories p) (hadmits : AdmitsAll steps p) :
    Runs limits (Pair.play steps histories p).1 (Pair.play steps histories p).2 := by
  induction steps generalizing histories p with
  | nil => exact h
  | cons step steps ih =>
    obtain ⟨hk, hadmits⟩ := hadmits
    exact ih (.call step.1 (step.2 p) hk h) hadmits

theorem admits_plain {p : Pair} {role : Role} {k : Call} (hargs : Output.terms.api (p.side role).toCore k)
    (hfeed : taken k = []) (hmark : k ≠ .markPrefaceReceived) : p.Admits role k :=
  ⟨hargs, hfeed ▸ List.nil_prefix, fun _ => hmark⟩

theorem admits_feed {p : Pair} {role : Role} {data : Bytes} (h : data <+: p.inbox role) :
    p.Admits role (.feed data) := ⟨⟨trivial, nofun⟩, h, fun _ => nofun⟩

/-- All that is on its way to a side is fed and handled. -/
def arrive (role : Role) : List (Role × (Pair → Call)) :=
  [(role.peer, fun _ => .pollOutput), (role, fun p => .feed (p.inbox role)),
    (role, fun _ => .process .listed)]

theorem admits_arrive {steps : List (Role × (Pair → Call))} (h : ∀ p, AdmitsAll steps p)
    (role : Role) (p : Pair) :
    AdmitsAll (arrive role ++ steps) p :=
  ⟨admits_plain ⟨trivial, nofun⟩ rfl nofun, admits_feed (List.prefix_refl _),
    admits_plain ⟨trivial, nofun⟩ rfl nofun, h _⟩

/-- A request and a PING leave, and the first octets of them arrive. -/
def request : List (Role × (Pair → Call)) :=
  [(.client, fun _ => .startStream getRequest true), (.client, fun _ => .sendPing (List.replicate 8 0)),
    (.client, fun _ => .pollOutput), (.server, fun p => .feed ((p.inbox .server).take 20)),
    (.server, fun _ => .process .listed)]

theorem admits_request (p : Pair) : AdmitsAll request p :=
  ⟨admits_plain ⟨trivial, nofun⟩ rfl nofun, admits_plain ⟨rfl, nofun⟩ rfl nofun,
    admits_plain ⟨trivial, nofun⟩ rfl nofun, admits_feed (List.take_prefix _ _),
    admits_plain ⟨trivial, nofun⟩ rfl nofun, trivial⟩

/-- Both sides have opened before. -/
def exchange : List (Role × (Pair → Call)) := arrive .server ++ (arrive .client ++ request)

theorem delivered_in_order_exchange :
    let r := play exchange (fun _ => []) (new fun _ => .default)
    (sentFrames (r.2.side .client).trace).length = 4 ∧ (receivedFrames (r.2.side .server).trace).length = 2 ∧
      ∃ left, InFlight (fun _ => .default) r.2 .client left := by
  have hadmits : AdmitsAll exchange (new fun _ => .default) :=
    admits_arrive (admits_arrive admits_request .client) .server _
  have hsound : ∀ role, Sound ((play exchange (fun _ => []) (new fun _ => .default)).1 role) := by
    intro role
    unfold Sound
    cases role <;> decide +kernel
  exact ⟨by decide +kernel, by decide +kernel, delivered_in_order (Runs.play .start hadmits) hsound .client⟩

end Pair

end Http2
