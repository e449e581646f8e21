import Http2.Connection.Simulation

/-! Header blocks of the peer: `handle_headers` and `handle_continuation` collect and decode them,
and what becomes of a decoded one is an `Outcome`. -/
namespace Http2

open Hpack Lib Lib.Prog Connection

/-! ## A stream to hold the message -/

/-- The core `d` on the way from a decoded block in `c` to its outcome: the stream has the record `s`
where it was found, or created, with the record `s₀`. -/
structure Prepared (c : Core) (sid : Nat) (s₀ : Stream) (base : Core) (s : Stream) (d : Core) :
    Prop where
  opens : c.Opens sid s₀ base
  live : d.stream? sid = some s
  role : d.role = c.role
  put : ∀ s', d.putStream sid s' = base.putStream sid s'
  reset : ∀ code, d.resetWith sid code 0 = base.resetWith sid code 0

namespace Prepared

variable {c d base : Core} {sid : Nat} {s₀ s : Stream}

theorem found (hlive : c.stream? sid = some s) : Prepared c sid s c s c where
  opens := .inl ⟨hlive, rfl⟩
  live := hlive
  role := rfl
  put _ := rfl
  reset _ := rfl

theorem created (hgone : c.stream? sid = none) :
    Prepared c sid (c.newStream sid) (c.openStream sid (c.newStream sid)) (c.newStream sid)
      (c.openStream sid (c.newStream sid)) where
  opens := .inr ⟨hgone, rfl, rfl⟩
  live := by simp [Core.openStream]
  role := rfl
  put _ := rfl
  reset _ := rfl

/-- The record is rewritten. -/
theorem rewrite (h : Prepared c sid s₀ base s d) (s' : Stream) :
    Prepared c sid s₀ base s' (d.putStream sid s') where
  opens := h.opens
  live := by simp
  role := h.role
  put s'' := by rw [Core.putStream_putStream, h.put]
  reset code := by rw [Core.putStream_resetWith, h.reset]

end Prepared

/-- A block is decoded and its record at most annotated. -/
def Underway (c : Core) (sid : Nat) (note : Stream → Stream) (d : Core) : Prop :=
  (d = c ∧ ∀ s₀ base, c.Opens sid s₀ base → note s₀ = s₀) ∨
    ∃ s₀ base, Prepared c sid s₀ base (note s₀) d

theorem underway_refl (c : Core) (sid : Nat) : Underway c sid id c := .inl ⟨rfl, fun _ _ _ => rfl⟩

/-- What a handler of decoded blocks comes to, up to the note of the stream id. -/
def Ends (c : Core) (sid : Nat) (raw : List HeaderField) (endStream : Bool) (r : Except Error Unit)
    (c' : Connection) : Prop :=
  r = .ok () ∧ Outcome sid raw endStream c (c'.toCore.noteSuccessful sid)

section Outcomes

variable {c₀ base : Core} {c : Connection} {sid : Nat} {s₀ s : Stream} {raw : List HeaderField}
  {endStream : Bool} {note : Stream → Stream}

theorem ensureStream_prepared {Q : Except Error Stream → Connection → Prop}
    (h : Underway c₀ sid note c.toCore)
    (hQ : ∀ s₀ base c', Prepared c₀ sid s₀ base (note s₀) c'.toCore → Q (.ok (note s₀)) c') :
    Ensures (ensureStream sid) c Q := by
  simp only [ensureStream, ensures_bind, ensures_get]
  obtain ⟨rfl, hsame⟩ | ⟨s₀, base, hprep⟩ := h
  · cases hlive : c.stream? sid with
    | none =>
      have hnote := hsame _ _ (.inr ⟨hlive, rfl, rfl⟩)
      have hready := hQ (c.newStream sid) (c.toCore.openStream sid (c.newStream sid))
        (c.setCore (c.toCore.openStream sid (c.newStream sid)))
      rw [hnote] at hready
      exact hready (.created hlive)
    | some s =>
      have hnote := hsame _ _ (.inl ⟨hlive, rfl⟩)
      have hready := hQ s c.toCore c
      rw [hnote] at hready
      exact hready (.found hlive)
  · rw [hprep.live]
    exact hQ _ _ c hprep

theorem initial_of_opens (hopens : c₀.Opens sid s₀ base)
    (hinit : ∀ s, c₀.stream? sid = some s → s.initialHeadersReceived = false) :
    s₀.initialHeadersReceived = false := by
  obtain ⟨hlive, _⟩ | ⟨_, rfl, _⟩ := hopens
  · exact hinit _ hlive
  · rfl

theorem recvHeaders_closed {s s' : StreamState} (h : s.recvHeaders endStream = .ok s') :
    (endStream && s'.isClosed) = s'.isClosed := by
  cases s <;> cases endStream <;> simp [StreamState.recvHeaders] at h <;>
    simp [← h, StreamState.isClosed]

variable (hsid : sid ≠ 0) (hclosed : c₀.closedStreams.contains sid = false)

include hsid hclosed

theorem prepared_reset (h : Prepared c₀ sid s₀ base s c.toCore) {code : ErrorCode}
    (hcode : code ≠ .flowControlError) :
    Ensures (resetStreamInternal sid code 0) c (Ends c₀ sid raw endStream) := by
  apply ensures_reset hsid h.live
  intro c' hc'
  refine ⟨rfl, ?_⟩
  rw [hc', h.reset]
  exact .reset code hcode hclosed h.opens

theorem validationError_ends (h : Underway c₀ sid note c.toCore) :
    Ensures (resetHeadersValidationError sid) c (Ends c₀ sid raw endStream) := by
  simp only [resetHeadersValidationError, ensures_bind]
  apply ensureStream_prepared h
  intro s₀ base c' hprep
  exact prepared_reset hsid hclosed hprep (by simp)

theorem receiveHeaders_ends {contentLength : Option Nat}
    (h : Underway c₀ sid (c₀.noted sid · raw) c.toCore)
    (hinit : ∀ s, c₀.stream? sid = some s → s.initialHeadersReceived = false)
    (hvalid : match c₀.role with
      | .server => validateRequestHeaders raw = .ok ()
      | .client => validateResponseHeaders raw = .ok ())
    (hlength : extractContentLength raw none = .ok contentLength) :
    Ensures (receiveHeaders sid raw endStream contentLength) c (Ends c₀ sid raw endStream) := by
  simp only [receiveHeaders, ensures_bind]
  apply ensureStream_prepared h
  intro s₀ base c' hprep
  have hfirst := initial_of_opens hprep.opens hinit
  obtain ⟨_, hsame, hinitial, _⟩ := noted_keeps c₀ sid s₀ raw
  simp only [ensures_get, hinitial, hfirst, hprep.role, Bool.not_false, Bool.true_and, Bool.false_or]
  cases hstate : (c₀.noted sid s₀ raw).state.recvHeaders endStream with
  | error e => exact prepared_reset hsid hclosed hprep (by simp)
  | ok state =>
    simp only [ensures_ite]
    refine ⟨fun _ => prepared_reset hsid hclosed hprep (by simp), fun hend => ⟨fun _ => ?_, fun hmatch => ?_⟩⟩
    · exact prepared_reset hsid hclosed hprep (by simp)
    · rw [recvHeaders_closed hstate]
      simp only [ensures_bind, ensures_update, ensures_pushEvent]
      apply ensures_closeIf
      intro c'' hc''
      refine ⟨rfl, ?_⟩
      rw [hc'', addEvent_toCore, setCore_toCore, hprep.put]
      rw [hsame] at hstate
      refine .headers _ hclosed hprep.opens hfirst hstate hvalid hlength ?_ ?_ rfl
      · exact Bool.eq_false_iff.2 hmatch
      · intro hlast
        rw [hlast, Bool.and_true] at hend
        change (!(_ && _)) = true
        rw [Bool.not_eq_true']
        exact Bool.eq_false_iff.2 hend

theorem receiveMessage_ends (h : Underway c₀ sid (c₀.noted sid · raw) c.toCore)
    (hinit : ∀ s, c₀.stream? sid = some s → s.initialHeadersReceived = false)
    (hvalid : match c₀.role with
      | .server => validateRequestHeaders raw = .ok ()
      | .client => validateResponseHeaders raw = .ok ()) :
    Ensures (receiveMessage sid raw endStream) c (Ends c₀ sid raw endStream) := by
  unfold receiveMessage
  cases hlength : extractContentLength raw none with
  | error e => exact validationError_ends hsid hclosed h
  | ok contentLength => exact receiveHeaders_ends hsid hclosed h hinit hvalid hlength

theorem receiveRequest_ends (hc : c.toCore = c₀) (hrole : c₀.role = .server)
    (hinit : ∀ s, c₀.stream? sid = some s → s.initialHeadersReceived = false) :
    Ensures (receiveRequest sid raw endStream) c (Ends c₀ sid raw endStream) := by
  have hrefl : Underway c₀ sid id c.toCore := hc ▸ underway_refl c.toCore sid
  simp only [receiveRequest, ensures_bind, ensures_get]
  cases hvalid : validateRequestHeaders raw with
  | error e => exact validationError_ends hsid hclosed hrefl
  | ok u =>
    simp only [ensures_ite]
    refine ⟨fun _ => validationError_ends hsid hclosed hrefl, fun _ => ?_⟩
    have hnoted : ∀ s, c₀.noted sid s raw = noteRequest s raw := by
      intro s
      rw [Core.noted, hrole]
    cases hmethod : findValue raw ":method" with
    | none =>
      refine receiveMessage_ends hsid hclosed (.inl ⟨hc, fun s _ _ => ?_⟩) hinit (by rw [hrole]; exact hvalid)
      simp only [hnoted, noteRequest, hmethod]
    | some method =>
      simp only [ensures_bind]
      apply ensureStream_prepared hrefl
      intro s₀ base c' hprep
      simp only [ensures_update]
      refine receiveMessage_ends hsid hclosed (.inr ⟨s₀, base, ?_⟩) hinit (by rw [hrole]; exact hvalid)
      simp only [hnoted]
      exact hprep.rewrite _

theorem receiveResponse_ends (hc : c.toCore = c₀) (hrole : c₀.role = .client)
    (hinit : ∀ s, c₀.stream? sid = some s → s.initialHeadersReceived = false) :
    Ensures (receiveResponse sid raw endStream) c (Ends c₀ sid raw endStream) := by
  subst hc
  simp only [receiveResponse, ensures_bind, ensures_get]
  cases hvalid : validateResponseHeaders raw with
  | error e => exact validationError_ends hsid hclosed (underway_refl _ _)
  | ok u =>
    have hnoted : ∀ s, c.noted sid s raw =
        if (c.stream? sid).isSome then noteResponse s raw else s := by
      intro s
      rw [Core.noted, hrole]
    cases hlive : c.stream? sid with
    | none =>
      refine receiveMessage_ends hsid hclosed (.inl ⟨rfl, fun s _ _ => ?_⟩) hinit
        (by rw [hrole]; exact hvalid)
      simp [hnoted, hlive]
    | some s =>
      simp only [ensures_bind, ensures_update]
      refine receiveMessage_ends hsid hclosed (.inr ⟨s, c.toCore, ?_⟩) hinit (by rw [hrole]; exact hvalid)
      simp only [hnoted, hlive]
      exact (Prepared.found hlive).rewrite _

theorem receiveTrailers_ends (hc : c.toCore = c₀) (hlive : c₀.stream? sid = some s)
    (hinit : s.initialHeadersReceived = true) (hend : endStream = true)
    (hvalid : validateTrailers raw = .ok ()) :
    Ensures (receiveTrailers sid raw endStream) c (Ends c₀ sid raw endStream) := by
  subst hc
  simp only [receiveTrailers, ensureStream, ensures_bind, ensures_get]
  rw [hlive]
  simp only [ensures_pure]
  cases hstate : s.state.recvHeaders endStream with
  | error e => exact prepared_reset hsid hclosed (.found hlive) (by simp)
  | ok state =>
    simp only [recvHeaders_closed hstate, ensures_bind, ensures_update, ensures_pushEvent]
    apply ensures_closeIf
    intro c' hc'
    refine ⟨rfl, ?_⟩
    rw [hc']
    exact .trailers hclosed hlive hinit hend hvalid hstate

theorem processHeaders_ends (hc : c.toCore = c₀) :
    Ensures (processHeaders sid raw endStream) c (Ends c₀ sid raw endStream) := by
  have herror : Ensures (resetHeadersValidationError sid) c (Ends c₀ sid raw endStream) := by
    subst hc
    exact validationError_ends hsid hclosed (underway_refl _ _)
  simp only [processHeaders, ensures_bind, ensures_get, ensures_ite]
  refine ⟨fun _ => herror, fun h₁ => ⟨fun _ => herror, fun h₂ => ⟨fun hnone => ?_, fun hsome => ?_⟩⟩⟩
  · -- No pseudo-header: trailers of a message that has begun.
    cases hvalid : validateTrailers raw with
    | error e => exact herror
    | ok u =>
      simp only [ensures_ite]
      refine ⟨fun _ => herror, fun hend => ?_⟩
      have hbegun : initialReceived c.toCore sid = true := by simpa [hnone] using h₁
      unfold initialReceived at hbegun
      cases hlive : c.stream? sid with
      | none => simp [hlive] at hbegun
      | some s =>
        rw [hlive] at hbegun
        rw [hc] at hlive
        exact receiveTrailers_ends hsid hclosed hc hlive hbegun (by simpa using hend) hvalid
  · have hpseudo : (raw.any fun h => isPseudo h.name) = true := by simpa using hsome
    have hfresh : initialReceived c.toCore sid = false := by simpa [hpseudo] using h₂
    have hinit : ∀ s, c₀.stream? sid = some s → s.initialHeadersReceived = false := by
      intro s hlive
      rw [← hc] at hlive
      rw [initialReceived, hlive] at hfresh
      exact hfresh
    cases hrole : c.role with
    | server => exact receiveRequest_ends hsid hclosed hc (hc ▸ hrole) hinit
    | client => exact receiveResponse_ends hsid hclosed hc (hc ▸ hrole) hinit

/-- What becomes of a decoded block. -/
def Concludes (c : Core) (sid : Nat) (raw : List HeaderField) (endStream : Bool)
    (r : Except Error Unit) (c' : Connection) : Prop :=
  r = .ok () ∧ Outcome sid raw endStream c c'.toCore

theorem finishBlock_open (hc : c.toCore = c₀) (hidle : c₀.isIdleStream sid = false) (ht : Tidy c₀) :
    Ensures (finishBlock sid raw endStream false) c (Concludes c₀ sid raw endStream) := by
  subst hc
  have hopen : c.isStreamClosed sid = false := by
    rw [Core.isStreamClosed]
    cases hlive : c.stream? sid with
    | none => rfl
    | some s => exact (ht.streams sid s hlive).2.notClosed
  simp only [finishBlock, ensures_bind, ensures_get, ensures_ite, hopen, Bool.or_self,
    Bool.false_eq_true, false_implies, true_and, not_false_iff, true_implies, ensures_modify]
  refine ⟨fun _ => ?_, fun _ => ⟨fun _ => ?_, fun _ => ?_⟩⟩
  · simp only [resetRefusedConcurrentStream, ensures_bind]
    apply ensureStream_prepared (underway_refl _ _)
    intro s₀ base c' hprep
    apply ensures_mono (prepared_reset hsid hclosed hprep (by simp))
    rintro r c'' ⟨rfl, houtcome⟩
    exact ⟨rfl, houtcome⟩
  · simp only [resetConnectEstablishedHeaders]
    cases hlive : c.stream? sid with
    | none =>
      refine ensures_resetGone hsid hlive hidle fun c' hc' => ⟨rfl, ?_⟩
      rw [hc']
      exact .gone hclosed hlive
    | some s =>
      refine ensures_reset hsid hlive fun c' hc' => ⟨rfl, ?_⟩
      rw [hc']
      exact .tunnel hclosed hlive
  · apply ensures_mono (processHeaders_ends hsid hclosed rfl)
    rintro r c' ⟨rfl, houtcome⟩
    exact ⟨rfl, houtcome⟩

end Outcomes

/-- A block for a closed stream is decoded and dropped. -/
theorem finishBlock_ignored {sid : Nat} {raw : List HeaderField} {endStream : Bool}
    {c : Connection} (hclosed : c.closedStreams.contains sid = true) :
    Ensures (finishBlock sid raw endStream true) c (Concludes c.toCore sid raw endStream) := by
  simp only [finishBlock, ensures_bind, ensures_get, Bool.true_or, if_true, ensures_modify]
  exact ⟨rfl, .ignored hclosed⟩

theorem finishBlock_spec (c₀ : Core) {sid : Nat} {raw : List HeaderField} {endStream : Bool}
    {c : Connection} (hc : c.toCore = c₀) (hlast : sid % 2 = 1 ∧ sid ≤ c₀.lastRecvStreamId)
    (ht : Tidy c₀) :
    Ensures (finishBlock sid raw endStream (c₀.closedStreams.contains sid)) c
      (Concludes c₀ sid raw endStream) := by
  subst hc
  obtain ⟨hodd, hle⟩ := hlast
  cases hclosed : c.closedStreams.contains sid with
  | true => exact finishBlock_ignored hclosed
  | false =>
    have hsid : sid ≠ 0 := by omega
    refine finishBlock_open hsid hclosed rfl ?_ ht
    unfold Core.isIdleStream
    simp only [hclosed, Bool.false_eq_true, if_false]
    split
    · rfl
    · rw [if_neg (by omega)]
      simpa using hle

/-! ## Collecting and decoding -/

theorem decodeBlock_spec {sid : Nat} {fragment : Bytes} {c : Connection}
    {Q : Except Error (List HeaderField) → Connection → Prop}
    (hok : ∀ headers d, c.hpackDecoder.decode fragment = (.ok headers, d) →
      Q (.ok headers) (c.setCore ({ c.toCore with hpackDecoder := d }.log (.decoded sid headers))))
    (herror : ∀ e e' d, e.kind = .connectionError .compressionError →
      c.hpackDecoder.decode fragment = (.error e', d) → Q (.error e)
        (c.setCore { c.toCore with hpackDecoder := d })) :
    Ensures (decodeBlock sid fragment) c Q := by
  simp only [decodeBlock, ensures_bind, ensures_get, ensures_update]
  cases hdecode : c.hpackDecoder.decode fragment with
  | mk result d =>
    cases result with
    | error e => exact herror _ e d rfl hdecode
    | ok headers => exact hok headers d hdecode

theorem collectHeaders_follows {T : Terms} {c₀ : Core} {c : Connection} (f : HeadersFrame)
    (hl : T.Meets c₀ (.frame (.headers f))) (ht : Tidy c₀)
    (hcont : c₀.headerContinuationStream = none) (hadmits : c₀.Admits f.streamId)
    (hc : c.toCore = c₀.log (.received (.headers f))) :
    Ensures (collectHeaders f (c₀.closedStreams.contains f.streamId)) c (Follows T c₀) := by
  simp only [collectHeaders, ensures_bind, ensures_update, ensures_ite]
  rw [hc]
  constructor
  · intro hwhole
    have hmax : c₀.lastRecvStreamId ≤ max c₀.lastRecvStreamId f.streamId := Nat.le_max_left _ _
    apply decodeBlock_spec
    · intro headers d hdecode
      let c₁ := ((c₀.log (.received (.headers f))).decodeWhole f.streamId d).log
        (.decoded f.streamId headers)
      have ht₁ : Tidy c₁ := ht.congr rfl ⟨rfl, rfl, rfl, rfl, hmax⟩
      apply ensures_mono (finishBlock_spec c₁ rfl ⟨hadmits.1, Nat.le_max_right _ _⟩ ht₁)
      rintro r c' ⟨rfl, houtcome⟩
      exact .single (.wholeBlock f headers d hcont hadmits hwhole hdecode houtcome) hl
    · intro e e' d hkind hdecode
      exact broken_of_fault hl (.badBlock f d hkind hcont hadmits hwhole hdecode)
  · intro hmore
    simp only [checkHeaderBlockFragmentSize, ensures_bind, ensures_get, ensures_require]
    constructor
    · intro _
      exact .single (.beginBlock f hcont hadmits (by simpa using hmore)) hl
    · intro hlong
      exact broken_of_fault hl (.longBlock f rfl hcont hadmits (by simpa using hmore) (by simpa using hlong))

theorem handleHeaders_follows {T : Terms} {c : Connection} (f : HeadersFrame) (ht : Tidy c.toCore)
    (hl : T.Meets c.toCore (.frame (.headers f)))
    (hcont : c.headerContinuationStream = none) :
    Ensures (handleHeaders f) (c.setCore (c.toCore.log (.received (.headers f))))
      (Follows T c.toCore) := by
  have hrefused : ∀ e : Error, e.plain = true → Broken T c.toCore e (c.toCore.log (.received (.headers f))) :=
    fun _ he => broken_of_fault hl (.refused _ he)
  simp only [handleHeaders, ensures_bind, ensures_get, ensures_require, setCore_toCore,
    Core.stream?_eq, Core.log_streams, Core.log_closedStreams, Core.log_state,
    Core.log_lastRecvStreamId, ensures_ite, ensures_modify]
  refine ⟨fun hodd =>
    ⟨fun hgoaway => ⟨fun hclosed => ?_, fun hclosed => ⟨fun hnew => ?_, fun _ => hrefused _ rfl⟩⟩,
    fun _ => hrefused _ rfl⟩, fun _ => hrefused _ rfl⟩
  · rw [← hclosed]
    exact collectHeaders_follows f hl ht hcont ⟨hodd, .inl hclosed⟩ rfl
  · have hopen : c.closedStreams.contains f.streamId = false := by simpa using hclosed
    rw [← hopen]
    refine collectHeaders_follows f hl ht hcont ⟨hodd, .inr ?_⟩ rfl
    cases hlive : c.streams.lookup f.streamId with
    | some s => exact .inl (by simp [hlive])
    | none =>
      have hless : c.lastRecvStreamId < f.streamId := by
        by_contra hle
        exact hnew ⟨hlive, by omega⟩
      exact .inr ⟨hless, fun hstate => hgoaway ⟨hstate, hless, hlive, hopen⟩⟩

theorem handleContinuation_follows {T : Terms} {c : Connection} (f : ContinuationFrame)
    (ht : Tidy c.toCore) (hl : T.Meets c.toCore (.frame (.continuation f))) :
    Ensures (handleContinuation f) (c.setCore (c.toCore.log (.received (.continuation f))))
      (Follows T c.toCore) := by
  have hrefused : ∀ e : Error, e.plain = true →
      Broken T c.toCore e (c.toCore.log (.received (.continuation f))) :=
    fun _ he => broken_of_fault hl (.refused _ he)
  simp only [handleContinuation, ensures_bind, ensures_get, setCore_toCore,
    Core.log_headerContinuationStream]
  cases hcont : c.headerContinuationStream with
  | none => exact hrefused _ rfl
  | some sid =>
    have hodd := ht.block sid hcont
    simp only [ensures_bind, ensures_require, ensures_update, checkHeaderBlockFragmentSize,
      ensures_get, ensures_ite, setCore_toCore]
    refine ⟨fun hsid => ⟨fun _ => ⟨fun hlast => ?_, fun hmore => ?_⟩, fun hlong => ?_⟩,
      fun _ => hrefused _ rfl⟩
    · subst hsid
      apply decodeBlock_spec
      · intro headers d hdecode
        simp only
        let c₁ := ((c.toCore.log (.received (.continuation f))).decodeLast d).log
          (.decoded f.streamId headers)
        have ht₁ : Tidy c₁ := ⟨ht.streams, ht.closed, by simp [c₁], ht.next⟩
        apply ensures_mono (finishBlock_spec c₁ rfl hodd ht₁)
        rintro r c' ⟨rfl, houtcome⟩
        exact .single (.endBlock f headers d hcont hlast hdecode houtcome) hl
      · intro e e' d hkind hdecode
        exact broken_of_fault hl (.badLast f d hkind hcont hlast hdecode)
    · subst hsid
      exact .single (.extendBlock f hcont (by simpa using hmore)) hl
    · subst hsid
      exact broken_of_fault hl (.longNext f rfl hcont (by simpa using hlong))

end Http2
