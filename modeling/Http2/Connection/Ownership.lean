import Http2.Connection.Admission
import Http2.Connection.Moves

/-! The streams of a client are those that it began. A HEADERS frame may begin one as well: nothing
asks which side it is that receives it. -/
namespace Http2

open Hpack Lib Lib.Prog Connection

namespace Ownership

/-- `start_stream` returned this id. -/
def Returned (history : List Record) (sid : Nat) : Prop :=
  ∃ r ∈ history, ∃ headers endStream, r.call = .startStream headers endStream ∧
    r.result = .ok (.streamId sid)

/-- What a client may rely on. -/
structure Owned (T : Terms) (history : List Record) (c : Connection) : Prop where
  used : ∀ sid, c.Used sid → Returned history sid ∧ sid < c.nextStreamId
  told : ∀ e sid, Item.event e ∈ c.trace → e.lifeStream? = some sid → Returned history sid
  fresh : ∀ headers endStream sid,
    ((Call.startStream headers endStream).exec c).1 = .ok (.streamId sid) → ¬ c.Used sid ∧
      ∀ sid', (c.stream? sid').isSome = true →
        ((Call.startStream headers endStream).exec c).2.stream? sid' = c.stream? sid'
  /-- HEADERS for a stream that the client has not begun, wherever `process` comes to it. -/
  refused : ∀ it, (Call.process it).Heeds T c → ∀ d f rest,
    Relation.ReflTransGen (Passes it) c d → d.frameDecoder.decode = (.ok (some (.headers f)), rest) →
      f.streamId % 2 = 1 → ¬ Returned history f.streamId →
        ∃ (e : Error) (code : ErrorCode) (c' : Connection), process it c = (.error e, c') ∧
          e.kind = .connectionError code ∧ c'.streams = d.streams ∧ c'.events = d.events

/-- Something else refuses the frame: it comes first or into another block, it begins a stream after
GOAWAY or below one that was received, or its fragment is refused. -/
def Refuses (c : Core) (f : HeadersFrame) : Prop :=
  ¬ c.Takes (.headers f) ∨ c.state = .goawaySent ∨ f.streamId ≤ c.lastRecvStreamId ∨
    if f.endHeaders then (c.hpackDecoder.decode f.headerBlockFragment).1.isOk = false
    else effectiveMaxFragment c.localSettings < f.headerBlockFragment.length

instance (c : Core) (f : HeadersFrame) : Decidable (Refuses c f) := by
  unfold Refuses
  infer_instance

/-- No HEADERS for a stream that the client has not begun, unless something else refuses it. -/
def terms : Terms where
  frame c f :=
    match f with
    | .headers f => f.streamId % 2 = 1 → c.nextStreamId ≤ f.streamId → Refuses c f
    | _ => True
  refusal _ _ := True
  api _ _ := True

instance (c : Core) : (f : Frame) → Decidable (terms.frame c f)
  | .headers f => inferInstanceAs (Decidable (f.streamId % 2 = 1 → _ → _))
  | .data _ | .continuation _ | .goaway _ | .priority _ _ | .rstStream _ _ | .settings _
  | .pushPromise _ | .ping _ _ | .windowUpdate _ _ | .priorityUpdate _ _ | .unknown _ _ =>
    inferInstanceAs (Decidable True)

instance (c : Core) (sid : Nat) : Decidable (terms.refusal c sid) := inferInstanceAs (Decidable True)

instance (c : Core) (k : Call) : Decidable (terms.api c k) := inferInstanceAs (Decidable True)

/-! ## The ids that were given away -/

section

variable {c d : Core} {l : Label}

/-- Only `start_stream` takes an id. -/
theorem change_next (h : Change c l d) (hl : ∀ headers endStream, l ≠ .api (.startStream headers endStream)) :
    d.nextStreamId = c.nextStreamId := by
  have hturns := h.turns
  rw [← d.status_nextStreamId, ← c.status_nextStreamId]
  generalize d.status = status at hturns
  cases hturns with
  | request headers endStream => exact absurd rfl (hl headers endStream)
  | same | activate | peerGoaway | goaway | settings | beginBlock | wholeBlock | endBlock => rfl

theorem calm_next (h : Calm c l d) : d.nextStreamId = c.nextStreamId := by
  apply change_next (.step (.calm h))
  rintro headers endStream rfl
  cases h with
  | announce _ hk => obtain hk | hk := hk <;> cases hk
  | credit _ _ hl => obtain hl | hl := hl <;> cases hl

theorem emits_next (h : Emits c d) : d.nextStreamId = c.nextStreamId := by
  induction h with
  | refl => rfl
  | tail _ hemit ih => exact (change_next (.step (.emit hemit)) (by simp)).trans ih

theorem chain_next {T : Terms} (h : Chain T c d) : d.nextStreamId = c.nextStreamId := by
  induction h with
  | refl => rfl
  | calm _ hcalm _ ih => exact (calm_next hcalm).trans ih
  | wake _ hwake _ hemits _ ih =>
    exact (emits_next hemits).trans ((change_next (.step (.wake hwake)) (by simp)).trans ih)

theorem fault_next {e : Error} (h : Fault c e l d) : d.nextStreamId = c.nextStreamId := by
  apply change_next (.fault h)
  rintro headers endStream rfl
  cases h

theorem broken_next {T : Terms} {e : Error} (h : Broken T c e d) : d.nextStreamId = c.nextStreamId := by
  obtain ⟨d', l, hchain, _, hfault⟩ := h
  exact (fault_next hfault).trans (chain_next hchain)

theorem follows_next {T : Terms} {r : Except Error Unit} {c' : Connection} (h : Follows T c r c') :
    c'.nextStreamId = c.nextStreamId := by
  cases r with
  | ok v => exact chain_next h
  | error e => exact broken_next h

end

theorem passes_next {it : IterOrder} {c d : Connection} (ht : Tidy c.toCore) (h : Passes it c d) :
    d.nextStreamId = c.nextStreamId := by
  cases h with
  | @frame f rest _ hdecode hrun =>
    exact follows_next ((ensures_run hrun).1
      (handleFrame_follows (T := .any) (c := c.take rest) it f ht trivial))
  | @reject e rest _ hdecode hrun =>
    have he : e.ofDecoder = true := c.frameDecoder.decode_complains e (by rw [hdecode])
    exact follows_next ((ensures_run hrun).1
      (rejectFrame_follows (T := .any) (c := c.take rest) ht (fun _ _ _ => trivial) he))

/-- A call leaves the next id as it was, unless it is a `start_stream` that returns it. -/
theorem performs_next {T : Terms} {c d : Core} {k : Call} {r : Except Error Value}
    (h : Performs T c k r d) :
    (∃ headers endStream, k = .startStream headers endStream ∧ r = .ok (.streamId c.nextStreamId) ∧
      d.nextStreamId = c.nextStreamId + 2) ∨
    d.nextStreamId = c.nextStreamId ∧ ∀ headers endStream v, k = .startStream headers endStream →
        r ≠ .ok v := by
  unfold Performs at h
  split at h
  · obtain ⟨rfl, hstart⟩ := h
    refine .inl ⟨_, _, rfl, rfl, ?_⟩
    cases hstart
    simp [Core.openStream]
  · obtain ⟨e, hpush, hemits, _⟩ := h
    refine .inr ⟨(emits_next hemits).trans (change_next (.step (.push hpush)) (by simp)), ?_⟩
    rintro _ _ _ hk
    cases hk
  · exact .inr ⟨broken_next h, by simp⟩
  · exact .inr ⟨broken_next h, by simp⟩
  · rename_i hother _ _ _
    refine .inr ⟨chain_next h, ?_⟩
    rintro headers endStream v rfl rfl
    exact hother headers endStream v rfl rfl

/-- A client returned every odd id below its next one. -/
theorem returned_below {limits : Limits} {history : List Record} {c : Connection}
    (h : Run (Connection.new .client limits) history c) {sid : Nat} (hodd : sid % 2 = 1) :
    Returned history sid ↔ sid < c.nextStreamId := by
  induction h with
  | start =>
    have hnext : (Connection.new .client limits).nextStreamId = 1 := rfl
    rw [hnext]
    constructor
    · rintro ⟨_, hr, _⟩
      cases hr
    · intro hlt
      omega
  | @call history c k hrun ih =>
    have ht := run_tidy hrun.any
    have hodd' : c.nextStreamId % 2 = 1 := ht.next (evolves_role (run_evolves hrun.any))
    have hperforms : Performs .any c.toCore k (k.exec c).1 (k.exec c).2.toCore := by
      refine exec_performs k ht trivial ?_
      cases k <;> first | trivial | exact heeds_any _ _ _
    have hcons : Returned (⟨k, (k.exec c).1⟩ :: history) sid ↔
        (∃ headers endStream, k = .startStream headers endStream ∧ (k.exec c).1 = .ok (.streamId sid)) ∨
          Returned history sid := by
      constructor
      · rintro ⟨r, hr, hreturned⟩
        obtain rfl | hr := List.mem_cons.1 hr
        · exact .inl hreturned
        · exact .inr ⟨r, hr, hreturned⟩
      · rintro (hreturned | ⟨r, hr, hreturned⟩)
        · exact ⟨_, List.mem_cons_self, hreturned⟩
        · exact ⟨r, List.mem_cons_of_mem _ hr, hreturned⟩
    rw [hcons, ih]
    obtain ⟨headers, endStream, rfl, hresult, hnext⟩ | ⟨hnext, hnone⟩ := performs_next hperforms
    · rw [hnext, hresult]
      constructor
      · rintro (⟨_, _, _, hsid⟩ | hlt)
        · obtain rfl : c.nextStreamId = sid := by simpa using hsid
          omega
        · omega
      · intro hlt
        by_cases heq : sid = c.nextStreamId
        · exact .inl ⟨headers, endStream, rfl, by rw [heq]⟩
        · exact .inr (by omega)
    · rw [hnext]
      refine ⟨fun h => h.resolve_left ?_, .inr⟩
      rintro ⟨headers, endStream, hk, hresult⟩
      exact hnone headers endStream _ hk hresult

/-! ## Nothing but the ids that were given away -/

/-- No stream that the client has not begun is known, told of or being begun. -/
structure Own (c : Core) : Prop where
  client : c.role = .client
  used : ∀ sid, c.Used sid → sid % 2 = 1 ∧ sid < c.nextStreamId
  told : ∀ e sid, Item.event e ∈ c.trace → e.lifeStream? = some sid → sid % 2 = 1 ∧ sid < c.nextStreamId
  block : ∀ sid, c.headerContinuationStream = some sid → sid < c.nextStreamId ∨
    effectiveMaxFragment c.localSettings < c.headerBlockFragment.length

theorem new_own (limits : Limits) : Own (Core.new .client limits) where
  client := rfl
  used := by
    rintro sid (hlive | hclosed)
    · cases hlive
    · cases hclosed
  told := by
    intro e sid hin
    cases hin
  block := by
    intro sid h
    cases h

section

variable {c d : Core} {l : Label}

theorem change_next_le (h : Change c l d) : c.nextStreamId ≤ d.nextStreamId := by
  have hturns := h.turns
  rw [← d.status_nextStreamId, ← c.status_nextStreamId]
  generalize d.status = status at hturns
  cases hturns with
  | request => exact Nat.le_add_right _ _
  | same | activate | peerGoaway | goaway | settings | beginBlock | wholeBlock | endBlock =>
    exact Nat.le_refl _

theorem own_fresh (h : Own c) {sid : Nat} (hnext : c.nextStreamId ≤ sid) :
    c.stream? sid = none ∧ c.closedStreams.contains sid = false := by
  constructor
  · cases hlive : c.stream? sid with
    | none => rfl
    | some s =>
      have hown := h.used sid (.inl (by simp [hlive]))
      omega
  · by_contra hclosed
    have hown := h.used sid (.inr (by simpa using hclosed))
    omega

/-- A frame that no stream admits, or whose block is refused. -/
theorem refuses_admits {f : HeadersFrame} (h : Own c) (htakes : c.Takes (.headers f))
    (hnext : c.nextStreamId ≤ f.streamId) (hrefuses : Refuses c f) :
    ¬ c.Admits f.streamId ∨
      if f.endHeaders then (c.hpackDecoder.decode f.headerBlockFragment).1.isOk = false
      else effectiveMaxFragment c.localSettings < f.headerBlockFragment.length := by
  obtain ⟨hgone, hclosed⟩ := own_fresh h hnext
  have hadmits : c.Admits f.streamId → c.lastRecvStreamId < f.streamId ∧ c.state ≠ .goawaySent := by
    rintro ⟨_, hin | hlive | hnew⟩
    · cases hclosed.symm.trans hin
    · rw [hgone] at hlive
      cases hlive
    · exact hnew
  obtain hother | hsent | hlast | hblock := hrefuses
  · exact absurd htakes hother
  · exact .inl fun h => (hadmits h).2 hsent
  · exact .inl fun h => absurd (hadmits h).1 (by omega)
  · exact .inr hblock

/-- Such a frame changes nothing, unless it leaves a block behind that is too long. -/
theorem refuses_change {f : HeadersFrame} (hchange : Change c (.frame (.headers f)) d)
    (h : ¬ c.Admits f.streamId ∨
      if f.endHeaders then (c.hpackDecoder.decode f.headerBlockFragment).1.isOk = false
      else effectiveMaxFragment c.localSettings < f.headerBlockFragment.length) :
    d.streams = c.streams ∧ d.closedStreams = c.closedStreams ∧ d.trace = .received (.headers f) :: c.trace ∧
      (d.headerContinuationStream = c.headerContinuationStream ∧
          d.headerBlockFragment = c.headerBlockFragment ∨
        effectiveMaxFragment d.localSettings < d.headerBlockFragment.length) := by
  cases hchange with
  | step hstep =>
    cases hstep with
    | calm hcalm =>
      cases hcalm with
      | receive _ hinert => cases hinert
      | beginBlock _ _ hadmits hfirst =>
        have hlong := h.resolve_left fun hno => hno hadmits
        rw [if_neg (by simp [hfirst])] at hlong
        exact ⟨rfl, rfl, rfl, .inr hlong⟩
      | wholeBlock _ headers _ _ hadmits hlast hdecode =>
        have hbad := h.resolve_left fun hno => hno hadmits
        rw [if_pos hlast, hdecode] at hbad
        cases hbad
      | credit _ _ hl => obtain hl | hl := hl <;> cases hl
    | wake hwake => cases hwake
  | fault hfault =>
    cases hfault with
    | refused => exact ⟨rfl, rfl, rfl, .inl ⟨rfl, rfl⟩⟩
    | badBlock => exact ⟨rfl, rfl, rfl, .inl ⟨rfl, rfl⟩⟩
    | longBlock _ _ _ _ _ hlong => exact ⟨rfl, rfl, rfl, .inr hlong⟩

/-- HEADERS for a stream that the client has not begun. -/
def Unopened (c : Core) (l : Label) : Prop :=
  ∃ f, l = .frame (.headers f) ∧ f.streamId % 2 = 1 ∧ c.nextStreamId ≤ f.streamId

/-- Otherwise a record is begun for an id that the client gave away. -/
theorem begins_own (h : Own c) (ht : Tidy c) (hl : terms.taken.Meets c l) (hchange : Change c l d)
    (hknown : ¬ Unopened c l) {sid : Nat} (hbegins : Begins c l sid) :
    sid % 2 = 1 ∧ sid < d.nextStreamId := by
  have hle := change_next_le hchange
  cases hbegins with
  | request headers endStream =>
    have hodd := ht.next h.client
    have hnext : d.nextStreamId = c.nextStreamId + 2 := by
      cases change_request hchange
      simp [Core.openStream]
    omega
  | whole f _ hadmits =>
    have hless : f.streamId < c.nextStreamId := by
      by_contra hnot
      exact hknown ⟨f, rfl, hadmits.1, by omega⟩
    exact ⟨hadmits.1, by omega⟩
  | last f hcont =>
    obtain ⟨htakes, _⟩ := hl
    have hfits := htakes.2
    simp only [hcont, List.length_append] at hfits
    obtain hless | hlong := h.block _ hcont
    · exact ⟨(ht.block _ hcont).1, by omega⟩
    · omega

/-- A stream without a record is told of when its record is begun. -/
theorem moves_told {sid : Nat} {new : List Item} {record' : Option Stream} {e : Event}
    (h : Moves c l sid none new record') (hin : Item.event e ∈ new) : Begins c l sid := by
  cases h with
  | rest => cases hin
  | pass _ hitems => exact (hitems _ hin).elim
  | refuse code hblock hclosed => exact hblock.begins hclosed
  | headers protocol hblock hclosed => exact hblock.begins hclosed
  | request _ _ _ _ _ _ _ _ hitems =>
    obtain ⟨f, fs, _, _, _, rfl⟩ := hitems
    simp at hin

theorem stalls_told {new : List Item} {record record' : Option Stream} {e : Event}
    (h : Stalls record new record') : Item.event e ∉ new := by
  intro hin
  cases h with
  | gone _ hitems => exact hitems _ hin
  | windows _ _ hitems => exact hitems _ hin

theorem closeIf_block (c : Core) (sid : Nat) (closed : Bool) :
    (c.closeIf sid closed).headerContinuationStream = c.headerContinuationStream ∧
      (c.closeIf sid closed).headerBlockFragment = c.headerBlockFragment := by
  unfold Core.closeIf
  split <;> exact ⟨rfl, rfl⟩

theorem sendBlock_block (c : Core) (sid : Nat) (headers : List HeaderField) (endStream : Bool) :
    (c.sendBlock sid headers endStream).headerContinuationStream = c.headerContinuationStream ∧
      (c.sendBlock sid headers endStream).headerBlockFragment = c.headerBlockFragment := by
  simp [Core.sendBlock, Core.logSent_eq]

/-- A block in progress was in progress before, with no more of it there, or begins. -/
theorem change_block (hchange : Change c l d) {sid : Nat} (hcont : d.headerContinuationStream = some sid) :
    c.headerContinuationStream = some sid ∧ c.headerBlockFragment.length ≤ d.headerBlockFragment.length ∨
      ∃ f, l = .frame (.headers f) ∧ f.streamId = sid ∧ c.Admits sid := by
  have hsame : ∀ e : Core, d.headerContinuationStream = e.headerContinuationStream ∧
      d.headerBlockFragment = e.headerBlockFragment →
      e.headerContinuationStream = c.headerContinuationStream ∧
        e.headerBlockFragment = c.headerBlockFragment →
      c.headerContinuationStream = some sid ∧ c.headerBlockFragment.length ≤ d.headerBlockFragment.length ∨
        ∃ f, l = .frame (.headers f) ∧ f.streamId = sid ∧ c.Admits sid := by
    rintro e ⟨hblock, hfragment⟩ ⟨hblock', hfragment'⟩
    exact .inl ⟨(hblock.trans hblock').symm.trans hcont, by rw [hfragment, hfragment']⟩
  cases hchange with
  | step hstep =>
    cases hstep with
    | calm hcalm =>
      cases hcalm with
      | beginBlock f _ hadmits =>
        obtain rfl : f.streamId = sid := by simpa using hcont
        exact .inr ⟨f, rfl, rfl, hadmits⟩
      | extendBlock f => exact .inl ⟨hcont, by simp⟩
      | wholeBlock f _ _ hnone _ _ _ houtcome =>
        obtain ⟨_, _, hstatus⟩ := outcome_status houtcome
        have hend : d.headerContinuationStream = c.headerContinuationStream :=
          congrArg Status.headerContinuationStream hstatus
        cases (hcont.symm.trans hend).trans hnone
      | endBlock f _ _ _ _ _ houtcome =>
        obtain ⟨_, _, hstatus⟩ := outcome_status houtcome
        have hend : d.headerContinuationStream = none :=
          congrArg Status.headerContinuationStream hstatus
        cases hcont.symm.trans hend
      | respond | trail => exact hsame _ (closeIf_block ..) (sendBlock_block ..)
      | deliverData => exact hsame _ (closeIf_block ..) ⟨rfl, rfl⟩
      | _ => exact hsame c ⟨rfl, rfl⟩ ⟨rfl, rfl⟩
    | wake hwake => cases hwake <;> exact hsame c ⟨rfl, rfl⟩ ⟨rfl, rfl⟩
    | emit hemit =>
      cases hemit with
      | chunk => exact hsame c ⟨rfl, rfl⟩ ⟨rfl, rfl⟩
      | last => exact hsame _ (closeIf_block ..) ⟨rfl, rfl⟩
    | start hstart =>
      cases hstart
      exact hsame _ (sendBlock_block ..) ⟨rfl, rfl⟩
    | push hpush =>
      cases hpush with
      | queue => exact hsame c ⟨rfl, rfl⟩ ⟨rfl, rfl⟩
      | emptyEnd => exact hsame _ (closeIf_block ..) ⟨rfl, rfl⟩
  | fault hfault =>
    cases hfault with
    | badLast => cases hcont
    | longBlock f _ _ hadmits =>
      obtain rfl : f.streamId = sid := by simpa using hcont
      exact .inr ⟨f, rfl, rfl, hadmits⟩
    | longNext f => exact .inl ⟨hcont, by simp⟩
    | decoder | refused | settings | badBlock => exact hsame c ⟨rfl, rfl⟩ ⟨rfl, rfl⟩

theorem change_own (h : Own c) (ht : Tidy c) (hl : terms.taken.Meets c l)
    (hchange : Change c l d) : Own d := by
  have hle := change_next_le hchange
  have hrole := hchange.role.trans h.client
  by_cases hunopened : Unopened c l
  · obtain ⟨f, rfl, hodd, hnext⟩ := hunopened
    obtain ⟨htakes, hterms⟩ := hl
    obtain ⟨hstreams, hclosed, htrace, hblock⟩ :=
      refuses_change hchange (refuses_admits h htakes hnext (hterms hodd hnext))
    refine ⟨hrole, fun sid hused => ?_, fun e sid hin hsid => ?_, fun sid hcont => ?_⟩
    · have hown := h.used sid (by simpa [Core.Used, hstreams, hclosed] using hused)
      omega
    · have hown := h.told e sid (by simpa [htrace] using hin) hsid
      omega
    · obtain ⟨hsame, hfragment⟩ | hlong := hblock
      · rw [hsame] at hcont
        rw [hfragment, hchange.localSettings]
        exact (h.block sid hcont).imp_left fun hless => by omega
      · exact .inr hlong
  · have hbegins : ∀ {sid}, Begins c l sid → sid % 2 = 1 ∧ sid < d.nextStreamId :=
      fun hbegins => begins_own h ht hl hchange hunopened hbegins
    refine ⟨hrole, fun sid hused => ?_, fun e sid hin hsid => ?_, fun sid hcont => ?_⟩
    · obtain hused | hbegan := hchange.touches.used hused
      · have hown := h.used sid hused
        omega
      · exact hbegins hbegan
    · have hmem : Item.event e ∈ history sid d.trace := by simp [history, hin, Item.streamId?, hsid]
      obtain ⟨new, hnew, hmoved⟩ := hchange.moved ht sid
      rw [hnew, List.mem_append] at hmem
      obtain hmem | hmem := hmem
      · obtain hmoves | hstalls := hmoved
        · cases hlive : c.stream? sid with
          | some s =>
            have hown := h.used sid (.inl (by simp [hlive]))
            omega
          | none =>
            rw [hlive] at hmoves
            exact hbegins (moves_told hmoves hmem)
        · exact absurd hmem (stalls_told hstalls)
      · have hown := h.told e sid (List.mem_of_mem_filter hmem) hsid
        omega
    · obtain ⟨hsame, hlonger⟩ | ⟨f, rfl, rfl, hadmits⟩ := change_block hchange hcont
      · rw [hchange.localSettings]
        exact (h.block sid hsame).imp (fun hless => by omega) fun hlong => by omega
      · refine .inl ?_
        by_contra hnot
        exact hunopened ⟨f, rfl, hadmits.1, by omega⟩

theorem settles_own (ht : Tidy c) (h : Own c) (hsettles : Settles terms c d) : Own d := by
  cases hsettles with
  | change hl hchange => exact change_own h ht hl hchange
  | refuse f => exact ⟨h.client, h.used, fun e sid hin => h.told e sid (by simpa using hin), h.block⟩
  | overrun f hlong =>
    refine ⟨h.client, h.used, fun e sid hin => h.told e sid (by simpa using hin), fun sid hcont => ?_⟩
    exact .inr hlong

end

theorem run_own {limits : Limits} {history : List Record} {c : Connection}
    (h : RunOf terms (Connection.new .client limits) history c) : Own c.toCore :=
  settles_invariant (Tidy.new .client limits) (new_own limits) (fun _ _ => settles_own) (run_settles h)

/-! ## HEADERS for a stream that was not begun -/

/-- A connection error with no record and no event. -/
def Rejected (c : Connection) (r : Except Error Unit) (c' : Connection) : Prop :=
  ∃ (e : Error) (code : ErrorCode), r = .error e ∧ e.kind = .connectionError code ∧
    c'.streams = c.streams ∧ c'.events = c.events

/-- The first fragment of a block, or the whole of it, is refused. -/
theorem collectHeaders_rejected {f : HeadersFrame} {c : Connection} (closed : Bool)
    (h : if f.endHeaders then (c.hpackDecoder.decode f.headerBlockFragment).1.isOk = false
      else effectiveMaxFragment c.localSettings < f.headerBlockFragment.length) :
    Ensures (collectHeaders f closed) c (Rejected c) := by
  simp only [collectHeaders, ensures_bind, ensures_update, ensures_ite]
  refine ⟨fun hwhole => ?_, fun hmore => ?_⟩
  · rw [if_pos hwhole] at h
    apply decodeBlock_spec
    · intro headers d hdecode
      rw [setCore_toCore] at hdecode
      rw [hdecode] at h
      cases h
    · intro e e' d hkind _
      exact ⟨e, _, rfl, hkind, rfl, rfl⟩
  · rw [if_neg hmore] at h
    simp only [checkHeaderBlockFragmentSize, ensures_bind, ensures_get, ensures_require]
    refine ⟨fun hfits => absurd hfits (Nat.not_le.2 h), fun _ => ?_⟩
    exact ⟨_, _, rfl, rfl, rfl, rfl⟩

theorem handleHeaders_rejected {f : HeadersFrame} {c : Connection} (h : Own c.toCore)
    (htakes : c.toCore.Takes (.headers f)) (hnext : c.nextStreamId ≤ f.streamId)
    (hrefuses : Refuses c.toCore f) :
    Ensures (handleHeaders f) (c.setCore (c.toCore.log (.received (.headers f)))) (Rejected c) := by
  obtain ⟨hgone, hclosed⟩ := own_fresh h hnext
  have hrejected : ∀ reason, Rejected c (.error (.connectionError .protocolError reason))
      (c.setCore (c.toCore.log (.received (.headers f)))) :=
    fun _ => ⟨_, _, rfl, rfl, rfl, rfl⟩
  simp only [handleHeaders, ensures_bind, ensures_get, ensures_require, ensures_ite, ensures_modify]
  refine ⟨fun hodd => ⟨fun hsent => ⟨fun hin => ?_, fun _ => ⟨fun hnew => ?_, fun _ => hrejected _⟩⟩,
    fun _ => hrejected _⟩, fun _ => hrejected _⟩
  · cases hclosed.symm.trans hin
  · have hblock := (refuses_admits h htakes hnext hrefuses).resolve_left fun hno => ?_
    · exact collectHeaders_rejected (c := noteHeaders _ f.streamId) false hblock
    · have hless : c.lastRecvStreamId < f.streamId := by
        by_contra hle
        exact hnew ⟨hgone, by simpa using hle⟩
      refine hno ⟨hodd, .inr (.inr ⟨hless, fun hstate => ?_⟩)⟩
      exact hsent ⟨hstate, hless, hgone, hclosed⟩

theorem handleFrame_rejected (it : IterOrder) {f : HeadersFrame} {c : Connection} (h : Own c.toCore)
    (hnext : c.nextStreamId ≤ f.streamId) (hrefuses : Refuses c.toCore f) :
    Ensures (handleFrame it (.headers f)) c (Rejected c) := by
  have hrejected : ∀ reason, Rejected c (.error (.connectionError .protocolError reason))
      (c.setCore (c.toCore.log (.received (.headers f)))) :=
    fun _ => ⟨_, _, rfl, rfl, rfl, rfl⟩
  simp only [handleFrame, ensures_bind, ensures_update, ensures_get, ensures_require]
  refine ⟨fun _ => ⟨fun hfirst => ⟨fun hcont => ?_, fun _ => hrejected _⟩, fun _ => hrejected _⟩,
    fun _ => hrejected _⟩
  refine handleHeaders_rejected h ⟨hfirst, ?_⟩ hnext hrefuses
  cases hblock : c.headerContinuationStream with
  | none => trivial
  | some sid =>
    have hcont' : continues c.headerContinuationStream (.headers f) = true := hcont
    simp [continues, hblock] at hcont'

/-! ## The law -/

theorem turns_next {it : IterOrder} {c d : Connection} (ht : Tidy c.toCore)
    (h : Relation.ReflTransGen (Passes it) c d) : Tidy d.toCore ∧ d.nextStreamId = c.nextStreamId := by
  induction h with
  | refl => exact ⟨ht, rfl⟩
  | tail _ hpasses ih =>
    obtain ⟨hsettles, _⟩ := passes_settles (T := .any) ih.1 hpasses (heeds_any _ 1 _)
    exact ⟨settlesAll_tidy ih.1 hsettles, (passes_next ih.1 hpasses).trans ih.2⟩

/-- The id that `start_stream` returns is the next one, and its record the only one that is new. -/
theorem startStream_fresh {c : Connection} (h : Own c.toCore) (ht : Tidy c.toCore)
    {headers : List HeaderField} {endStream : Bool} {sid : Nat}
    (hok : ((Call.startStream headers endStream).exec c).1 = .ok (.streamId sid)) :
    ¬ c.Used sid ∧ ∀ sid', (c.stream? sid').isSome = true →
      ((Call.startStream headers endStream).exec c).2.stream? sid' = c.stream? sid' := by
  have hexec := exec_performs (T := .any) (.startStream headers endStream) ht trivial trivial
  rw [Ensures, hok] at hexec
  obtain ⟨hsid, hstart⟩ := hexec
  obtain rfl : sid = c.nextStreamId := by simpa using hsid
  refine ⟨fun hused => absurd (h.used _ hused).2 (Nat.lt_irrefl _), fun sid' hlive => ?_⟩
  have hne : sid' ≠ c.nextStreamId := Nat.ne_of_lt (h.used sid' (.inl hlive)).2
  generalize ((Call.startStream headers endStream).exec c).2.toCore = d at hstart
  cases hstart
  simp [Core.openStream, hne]

/-- A client owns its streams as long as it receives no HEADERS for one that it has not begun. -/
theorem owned {limits : Limits} {history : List Record} {c : Connection}
    (h : RunOf terms (Connection.new .client limits) history c) : Owned terms history c := by
  have hown := run_own h
  have ht := run_tidy h
  have hreturned : ∀ {sid}, sid % 2 = 1 → (Returned history sid ↔ sid < c.nextStreamId) :=
    fun hodd => returned_below h.run hodd
  refine ⟨fun sid hused => ?_, fun e sid hin hsid => ?_, fun headers endStream sid hok => ?_, ?_⟩
  · obtain ⟨hodd, hless⟩ := hown.used sid hused
    exact ⟨(hreturned hodd).2 hless, hless⟩
  · obtain ⟨hodd, hless⟩ := hown.told e sid hin hsid
    exact (hreturned hodd).2 hless
  · exact startStream_fresh hown ht hok
  · intro it hheeds d f rest hpasses hdecode hodd hunopened
    obtain ⟨hsettles, fuel, hheeds'⟩ := turns_settle ht hpasses (left_lt_fuel _) hheeds
    have hown' : Own d.toCore := settles_invariant ht hown (fun _ _ => settles_own) hsettles
    have hnext : d.nextStreamId ≤ f.streamId := by
      rw [(turns_next ht hpasses).2]
      exact Nat.le_of_not_lt fun hless => hunopened ((hreturned hodd).2 hless)
    obtain ⟨hterms, _⟩ := heeds_frame hheeds' hdecode
    have hrejected := handleFrame_rejected it (c := d.take rest) hown' hnext (hterms hodd hnext)
    cases hrun : handleFrame it (.headers f) (d.take rest) with
    | mk r c' =>
      obtain ⟨e, code, rfl, hkind, hstreams, hevents⟩ := (ensures_run hrun).1 hrejected
      exact ⟨e, code, c', process_iff.2 ⟨d, hpasses, .frame hdecode hrun⟩, hkind, hstreams, hevents⟩

/-- `:status: 200` on a stream. -/
def responseFrame (sid : Nat) : Frame := .headers ⟨sid, false, true, none, [0x88], none⟩

/-- A request, its response, and HEADERS for a second stream whose block is cut off. -/
def answeredCalls : List Call :=
  [.startStream getRequest true, .feed (serverBytes [responseFrame 1,
    .headers ⟨3, true, true, none, [0x41], none⟩]), .process .listed]

theorem owned_answered :
    ∃ history c, RunOf terms (Connection.new .client .default) history c ∧ c.Used 1 ∧
      Owned terms history c := by
  have hheeds : HeedsAll terms answeredCalls (Connection.new .client .default) := by decide +kernel
  have hrun := RunOf.execAll .start hheeds
  exact ⟨_, _, hrun, by decide +kernel, owned hrun⟩

/-- A server begins stream 1, and the client begins it again. -/
theorem owned_any_false :
    ∃ history c, Run (Connection.new .client .default) history c ∧ ¬ Owned Terms.any history c := by
  have hrun := Run.execAll (c := Connection.new .client .default) .start
    [.feed (serverBytes [responseFrame 1]), .process .listed]
  refine ⟨_, _, hrun, fun h => ?_⟩
  obtain ⟨hfresh, _⟩ := h.fresh getRequest true 1 (by decide +kernel)
  exact hfresh (by decide +kernel)

end Ownership

end Http2
