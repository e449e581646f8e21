import Http2.Connection.Calls
import Http2.Frame.RoundTrip

/-! `send_header_block` cuts a header block into frames, and `handle_headers` and
`handle_continuation` join the fragments again. -/
namespace Http2

open Hpack Lib Lib.Prog Connection

/-! ## Cutting -/

/-- HEADERS and the CONTINUATIONs after it carry a block. -/
structure Fragmented (sid : Nat) (endStream : Bool) (maxFrameSize : Nat) (block : Bytes)
    (first : HeadersFrame) (rest : List ContinuationFrame) : Prop where
  plain : first.padLength = none ∧ first.priorityFields = none
  streamId : first.streamId = sid ∧ ∀ f ∈ rest, f.streamId = sid
  endStream : first.endStream = endStream
  payload : ∀ f ∈ Frame.headers first :: rest.map .continuation, f.payload.length ≤ maxFrameSize
  joined : first.headerBlockFragment ++ rest.flatMap (·.headerBlockFragment) = block
  last : first.endHeaders :: rest.map (·.endHeaders) = List.replicate rest.length false ++ [true]
  nonempty : ∀ f ∈ rest, f.headerBlockFragment ≠ []

theorem payload_headers {f : HeadersFrame} (h : f.padLength = none) :
    (Frame.headers f).payload = f.headerBlockFragment := by
  have hpayload : (Frame.headers f).payload = padPayload f.padLength f.headerBlockFragment :=
    payload_of_encode (f := .headers f) rfl
  rw [hpayload, h]
  rfl

theorem payload_continuation (f : ContinuationFrame) :
    (Frame.continuation f).payload = f.headerBlockFragment :=
  payload_of_encode (f := .continuation f) rfl

/-- The CONTINUATIONs carry what HEADERS left over, and the last of them closes the block. -/
theorem continuationFrames_spec (sid : Nat) {maxFrameSize fuel : Nat} {remaining : Bytes}
    (hmax : 0 < maxFrameSize) (hfuel : remaining.length ≤ fuel) :
    ∃ rest : List ContinuationFrame,
      continuationFrames sid maxFrameSize fuel remaining = rest.map .continuation ∧
      rest.flatMap (·.headerBlockFragment) = remaining ∧
      (∀ f ∈ rest, f.streamId = sid ∧ f.headerBlockFragment ≠ [] ∧
        f.headerBlockFragment.length ≤ maxFrameSize) ∧
      (remaining ≠ [] → ∃ n, rest.length = n + 1 ∧
        rest.map (·.endHeaders) = List.replicate n false ++ [true]) := by
  induction fuel generalizing remaining with
  | zero =>
    obtain rfl : remaining = [] := List.length_eq_zero_iff.1 (by omega)
    exact ⟨[], rfl, rfl, by simp, by simp⟩
  | succ fuel ih =>
    unfold continuationFrames
    by_cases hempty : remaining = []
    · subst hempty
      exact ⟨[], rfl, rfl, by simp, by simp⟩
    · have hpos : 0 < remaining.length := List.length_pos_iff.2 hempty
      have hfuel : (remaining.drop maxFrameSize).length ≤ fuel := by
        rw [List.length_drop]
        omega
      obtain ⟨rest, heq, hjoined, hrest, hlast⟩ := ih hfuel
      let first : ContinuationFrame :=
        ⟨sid, (remaining.drop maxFrameSize).isEmpty, remaining.take maxFrameSize⟩
      refine ⟨first :: rest, ?_, ?_, ?_, fun _ => ?_⟩
      · rw [if_neg (by simpa using hempty), heq]
        rfl
      · rw [List.flatMap_cons, hjoined]
        exact List.take_append_drop maxFrameSize remaining
      · intro f hf
        obtain rfl | hf := List.mem_cons.1 hf
        · refine ⟨rfl, ?_, ?_⟩
          · refine List.ne_nil_of_length_pos ?_
            simp only [first, List.length_take]
            omega
          · simp only [first, List.length_take]
            omega
        · exact hrest f hf
      · by_cases hmore : remaining.drop maxFrameSize = []
        · have hnone : rest = [] := by
            rw [hmore] at hjoined
            refine List.eq_nil_iff_forall_not_mem.2 fun f hf => (hrest f hf).2.1 ?_
            exact List.flatMap_eq_nil_iff.1 hjoined f hf
          subst hnone
          exact ⟨0, rfl, by simp [first, hmore]⟩
        · obtain ⟨n, hlength, hflags⟩ := hlast hmore
          refine ⟨n + 1, by rw [List.length_cons, hlength], ?_⟩
          have hopen : first.endHeaders = false := by simpa [first] using hmore
          rw [List.map_cons, hflags, hopen, List.replicate_succ]
          rfl

theorem blockFrames_spec (sid : Nat) (endStream : Bool) {maxFrameSize : Nat} (block : Bytes)
    (hmax : 0 < maxFrameSize) :
    ∃ first rest, blockFrames sid endStream maxFrameSize block = .headers first :: rest.map .continuation ∧
      Fragmented sid endStream maxFrameSize block first rest := by
  unfold blockFrames
  by_cases hfits : block.length ≤ maxFrameSize
  · refine ⟨⟨sid, endStream, true, none, block, none⟩, [], by rw [if_pos hfits]; rfl, ?_⟩
    exact {
      plain := ⟨rfl, rfl⟩
      streamId := ⟨rfl, by simp⟩
      endStream := rfl
      payload := by
        intro f hf
        obtain rfl := List.mem_singleton.1 hf
        rw [payload_headers rfl]
        exact hfits
      joined := List.append_nil block
      last := rfl
      nonempty := by simp }
  · have hfuel : (block.drop maxFrameSize).length ≤ block.length := by
      rw [List.length_drop]
      omega
    obtain ⟨rest, heq, hjoined, hrest, hlast⟩ := continuationFrames_spec sid hmax hfuel
    refine ⟨⟨sid, endStream, false, none, block.take maxFrameSize, none⟩, rest,
      by rw [if_neg hfits, heq], ?_⟩
    obtain ⟨n, hlength, hflags⟩ := hlast
      (List.ne_nil_of_length_pos (by rw [List.length_drop]; omega))
    exact {
      plain := ⟨rfl, rfl⟩
      streamId := ⟨rfl, fun f hf => (hrest f hf).1⟩
      endStream := rfl
      payload := by
        intro f hf
        obtain rfl | hf := List.mem_cons.1 hf
        · rw [payload_headers rfl, List.length_take]
          exact Nat.min_le_left _ _
        · obtain ⟨g, hg, rfl⟩ := List.mem_map.1 hf
          rw [payload_continuation]
          exact (hrest g hg).2.2
      joined := by
        rw [hjoined]
        exact List.take_append_drop maxFrameSize block
      last := by rw [hflags, hlength, List.replicate_succ]; rfl
      nonempty := fun f hf => (hrest f hf).2.1 }

/-- The frames leave in order. -/
theorem sendFrames_output {fs : List Frame} (hfs : ∀ f ∈ fs, ∃ bytes, f.encode = .ok bytes)
    (c : Connection) :
    ∃ c', sendFrames fs c = (.ok (), c') ∧ c'.trace = (fs.map Item.sent).reverse ++ c.trace ∧
      c'.outputBuffer = c.outputBuffer ++ fs.flatMap Frame.wire := by
  induction fs generalizing c with
  | nil => exact ⟨c, rfl, rfl, (List.append_nil _).symm⟩
  | cons f fs ih =>
    obtain ⟨bytes, hbytes⟩ := hfs f List.mem_cons_self
    obtain ⟨c', hrun, htrace, houtput⟩ :=
      ih (fun g hg => hfs g (List.mem_cons_of_mem f hg)) (c.addOutput f bytes)
    refine ⟨c', ?_, ?_, ?_⟩
    · have hsend : sendFrame f c = (.ok (), c.addOutput f bytes) := by
        unfold sendFrame
        rw [hbytes]
        rfl
      change Prog.bind (sendFrame f) _ c = _
      rw [Prog.bind, hsend]
      exact hrun
    · rw [htrace]
      simp [addOutput]
    · rw [houtput]
      simp [addOutput, Frame.wire, hbytes]

/-! ## Joining -/

/-- The frames in order, up to the first that fails. -/
def Connection.handleFrames (it : IterOrder) : List Frame → Conn Unit
  | [] => pure ()
  | f :: fs => do
    handleFrame it f
    handleFrames it fs

/-- What a receiver does with the octets of a whole block. `kept` says that it had to keep some. -/
def Connection.takeBlock (sid : Nat) (block : Bytes) (endStream closed kept : Bool) : Conn Unit := do
  let headers ← decodeBlock sid block
  if kept then update ({ · with headerBlockFragment := [], headerEndStream := false }) else pure ()
  finishBlock sid headers endStream closed

/-- Nothing happened since `c` but the arrival of fragments. -/
structure Connection.Collects (c d : Connection) : Prop where
  hpackDecoder : d.hpackDecoder = c.hpackDecoder
  streams : d.streams = c.streams
  closedStreams : d.closedStreams = c.closedStreams
  events : d.events = c.events
  outputBuffer : d.outputBuffer = c.outputBuffer

theorem run_eq {α : Type} {m : Conn α} {c : Connection} {x : Except Error α × Connection}
    (h : Ensures m c fun r c' => (r, c') = x) : m c = x := h

section Step

variable {c : Connection} {it : IterOrder}

theorem handleFrames_one (it : IterOrder) (f : Frame) (c : Connection) :
    handleFrames it [f] c = handleFrame it f c := by
  change Prog.bind (handleFrame it f) (fun _ => Prog.pure ()) c = _
  unfold Prog.bind
  obtain ⟨r, c'⟩ := handleFrame it f c
  cases r <;> rfl

theorem handleFrames_cons {f : Frame} {c' : Connection} (h : handleFrame it f c = (.ok (), c'))
    (fs : List Frame) : handleFrames it (f :: fs) c = handleFrames it fs c' := by
  change Prog.bind (handleFrame it f) (fun _ => handleFrames it fs) c = _
  rw [Prog.bind, h]

theorem handleFrame_dispatch {f : Frame} (hstate : c.state ≠ .waitingPreface)
    (hcont : continues c.headerContinuationStream f = true) :
    handleFrame it f c = dispatchFrame it f (c.setCore (c.toCore.log (.received f))) := by
  apply run_eq
  simp only [handleFrame, ensures_bind, ensures_update, ensures_get, ensures_require, setCore_toCore,
    Core.log_state, Core.log_headerContinuationStream]
  refine ⟨fun _ => ⟨fun _ => ⟨fun _ => rfl, fun h => absurd hcont h⟩, fun h => ?_⟩, fun h => ?_⟩
  · exact absurd (fun hwaiting => absurd hwaiting hstate) h
  · exact absurd (fun hwaiting => hstate hwaiting.1) h

theorem checkSize_ok (h : c.headerBlockFragment.length ≤ effectiveMaxFragment c.localSettings) :
    checkHeaderBlockFragmentSize c = (.ok (), c) :=
  (bind_ok (m := get) rfl _).trans (require_ok _ h)

/-- Up to the size check every fragment is taken alike. -/
theorem handleContinuation_grown {f : ContinuationFrame}
    (hcont : c.headerContinuationStream = some f.streamId)
    (hlimit : (c.headerBlockFragment ++ f.headerBlockFragment).length ≤
      effectiveMaxFragment c.localSettings) :
    handleContinuation f c = (if f.endHeaders then do
        update ({ · with headerContinuationStream := none })
        takeBlock f.streamId (c.headerBlockFragment ++ f.headerBlockFragment) c.headerEndStream
          (c.closedStreams.contains f.streamId) true
      else pure ()) (c.setCore (c.toCore.growBlock f.headerBlockFragment)) := by
  rw [handleContinuation, bind_ok (m := get) rfl]
  simp only [hcont]
  rw [bind_ok (require_ok _ rfl), bind_ok (m := update _) rfl, bind_ok (checkSize_ok hlimit)]
  rfl

theorem continuation_more {f : ContinuationFrame} (hstate : c.state ≠ .waitingPreface)
    (hcont : c.headerContinuationStream = some f.streamId) (hmore : f.endHeaders = false)
    (hlimit : (c.headerBlockFragment ++ f.headerBlockFragment).length ≤
      effectiveMaxFragment c.localSettings) :
    handleFrame it (.continuation f) c = (.ok (), c.setCore
      ((c.toCore.log (.received (.continuation f))).growBlock f.headerBlockFragment)) := by
  have hgrown := handleContinuation_grown (c := c.setCore (c.toCore.log (.received (.continuation f))))
    hcont hlimit
  rw [handleFrame_dispatch hstate (by simp [continues, hcont]), dispatchFrame, hgrown, hmore]
  rfl

theorem continuation_last {f : ContinuationFrame} (hstate : c.state ≠ .waitingPreface)
    (hcont : c.headerContinuationStream = some f.streamId) (hlast : f.endHeaders = true)
    (hlimit : (c.headerBlockFragment ++ f.headerBlockFragment).length ≤
      effectiveMaxFragment c.localSettings) :
    handleFrame it (.continuation f) c =
      takeBlock f.streamId (c.headerBlockFragment ++ f.headerBlockFragment) c.headerEndStream
        (c.closedStreams.contains f.streamId) true (c.setCore
          { (c.toCore.log (.received (.continuation f))).growBlock f.headerBlockFragment with
            headerContinuationStream := none }) := by
  have hgrown := handleContinuation_grown (c := c.setCore (c.toCore.log (.received (.continuation f))))
    hcont hlimit
  rw [handleFrame_dispatch hstate (by simp [continues, hcont]), dispatchFrame, hgrown, hlast]
  rfl

/-- What HEADERS note before their block is collected. -/
def Connection.notedHeaders (c : Connection) (sid : Nat) : Connection :=
  if c.closedStreams.contains sid then c else noteHeaders c sid

/-- HEADERS for an admitted stream are collected, whatever is noted of the stream first. -/
theorem handleHeaders_admits {f : HeadersFrame} (hadmits : c.toCore.Admits f.streamId) :
    handleHeaders f c =
      collectHeaders f (c.closedStreams.contains f.streamId) (c.notedHeaders f.streamId) := by
  obtain ⟨hodd, hadmitted⟩ := hadmits
  have hgoaway : ¬ (c.state = .goawaySent ∧ c.lastRecvStreamId < f.streamId ∧
      c.stream? f.streamId = none ∧ c.closedStreams.contains f.streamId = false) := by
    rintro ⟨hsent, hlast, hgone, hopen⟩
    obtain hclosed | hlive | hnew := hadmitted
    · rw [hclosed] at hopen
      cases hopen
    · rw [hgone] at hlive
      cases hlive
    · exact hnew.2 hsent
  rw [handleHeaders, bind_ok (require_ok _ hodd), bind_ok (m := get) rfl, bind_ok (require_ok _ hgoaway),
    notedHeaders]
  cases hclosed : c.closedStreams.contains f.streamId with
  | true => rfl
  | false =>
    have hnew : ¬ (c.stream? f.streamId = none ∧ f.streamId ≤ c.lastRecvStreamId) := by
      rintro ⟨hgone, hle⟩
      obtain hin | hlive | hnew := hadmitted
      · rw [hclosed] at hin
        cases hin
      · rw [hgone] at hlive
        cases hlive
      · omega
    simp only [Bool.false_eq_true, if_false]
    rw [bind_ok (require_ok _ hnew), bind_ok (m := modify _) rfl]

/-- Why HEADERS are refused that no stream admits. -/
def Core.headersError (c : Core) (sid : Nat) : Error :=
  if ¬ sid % 2 = 1 then .connectionError .protocolError s!"server-initiated stream not supported: {sid}"
  else if c.state = .goawaySent ∧ c.lastRecvStreamId < sid ∧ c.stream? sid = none ∧
      c.closedStreams.contains sid = false then
    .connectionError .protocolError "new stream after GOAWAY sent"
  else
    let last := c.lastRecvStreamId
    .connectionError .protocolError s!"stream ID {sid} not greater than last received {last}"

theorem handleHeaders_refuses {f : HeadersFrame} (h : ¬ c.toCore.Admits f.streamId) :
    handleHeaders f c = (.error (c.toCore.headersError f.streamId), c) := by
  apply run_eq
  simp only [handleHeaders, ensures_bind, ensures_get, ensures_require, ensures_ite]
  refine ⟨fun hodd => ⟨fun hgoaway => ⟨fun hclosed => ?_, fun hopen => ⟨fun hnew => ?_, fun hold => ?_⟩⟩,
    fun hgoaway => ?_⟩, fun heven => ?_⟩
  · exact absurd ⟨hodd, .inl hclosed⟩ h
  · refine absurd ⟨hodd, ?_⟩ h
    cases hlive : c.stream? f.streamId with
    | some s => exact .inr (.inl rfl)
    | none =>
      have hlast : c.lastRecvStreamId < f.streamId := by
        by_contra hle
        exact hnew ⟨hlive, by omega⟩
      refine .inr (.inr ⟨hlast, fun hsent => ?_⟩)
      exact hgoaway ⟨hsent, hlast, hlive, by simpa using hopen⟩
  · rw [Core.headersError, if_neg (not_not.2 hodd), if_neg hgoaway]
  · rw [Core.headersError, if_neg (not_not.2 hodd), if_pos (not_not.1 hgoaway)]
  · rw [Core.headersError, if_pos heven]

theorem notedHeaders_toCore (c : Connection) (sid : Nat) : (c.notedHeaders sid).toCore = c.toCore := by
  unfold notedHeaders
  split <;> rfl

theorem notedHeaders_log (c : Connection) (sid : Nat) (i : Item) :
    (c.setCore (c.toCore.log i)).notedHeaders sid = (c.notedHeaders sid).setCore (c.toCore.log i) := by
  unfold notedHeaders
  simp only [setCore_toCore, Core.log_closedStreams]
  split <;> rfl

/-- The connection that has all the octets of a block. `kept` says that it had to keep some. -/
def Connection.gathered (c : Connection) (sid : Nat) (block : Bytes) (endStream kept : Bool)
    (trace : List Item) : Connection :=
  (c.notedHeaders sid).setCore { c.toCore with
    lastRecvStreamId := max c.lastRecvStreamId sid
    headerBlockFragment := if kept then block else c.headerBlockFragment
    headerEndStream := if kept then endStream else c.headerEndStream
    trace := trace }

theorem gathered_collects (c : Connection) (sid : Nat) (block : Bytes) (endStream kept : Bool)
    (trace : List Item) : c.Collects (c.gathered sid block endStream kept trace) := by
  unfold gathered notedHeaders
  split <;> exact ⟨rfl, rfl, rfl, rfl, rfl⟩

theorem headers_whole (it : IterOrder) {f : HeadersFrame} (hstate : c.state ≠ .waitingPreface)
    (hcont : c.headerContinuationStream = none) (hadmits : c.toCore.Admits f.streamId)
    (hwhole : f.endHeaders = true) :
    handleFrame it (.headers f) c =
      takeBlock f.streamId f.headerBlockFragment f.endStream (c.closedStreams.contains f.streamId) false
        (c.gathered f.streamId f.headerBlockFragment f.endStream false
            (.received (.headers f) :: c.trace)) := by
  have hrun := handleHeaders_admits (c := c.setCore (c.toCore.log (.received (.headers f)))) (f := f) hadmits
  rw [handleFrame_dispatch hstate (by simp [continues, hcont]), dispatchFrame, hrun, collectHeaders,
    notedHeaders_log, bind_ok (m := update _) rfl, if_pos hwhole]
  rfl

/-- The connection that has the first part of a block. -/
def Connection.begun (c : Connection) (f : HeadersFrame) : Connection :=
  (c.notedHeaders f.streamId).setCore ((c.toCore.log (.received (.headers f))).openBlock f)

theorem begun_gathered {f : HeadersFrame} {block : Bytes} {trace : List Item}
    (hcont : c.headerContinuationStream = none) :
    (c.begun f).setCore { (c.begun f).toCore with
        headerContinuationStream := none
        headerBlockFragment := block
        trace := trace } = c.gathered f.streamId block f.endStream true trace := by
  rw [← hcont]
  rfl

theorem headers_first (it : IterOrder) {f : HeadersFrame} (hstate : c.state ≠ .waitingPreface)
    (hcont : c.headerContinuationStream = none) (hadmits : c.toCore.Admits f.streamId)
    (hmore : f.endHeaders = false)
    (hlimit : f.headerBlockFragment.length ≤ effectiveMaxFragment c.localSettings) :
    handleFrame it (.headers f) c = (.ok (), c.begun f) := by
  have hrun := handleHeaders_admits (c := c.setCore (c.toCore.log (.received (.headers f)))) (f := f) hadmits
  rw [handleFrame_dispatch hstate (by simp [continues, hcont]), dispatchFrame, hrun, collectHeaders,
    notedHeaders_log, bind_ok (m := update _) rfl, hmore, if_neg Bool.false_ne_true,
    bind_ok (m := update _) rfl]
  exact checkSize_ok (c := c.begun f) hlimit

end Step

/-- The CONTINUATIONs of a block in progress. -/
theorem handleFrames_continuations (it : IterOrder) {sid : Nat} {rest : List ContinuationFrame}
    {c : Connection} {n : Nat} (hstate : c.state ≠ .waitingPreface)
    (hcont : c.headerContinuationStream = some sid) (hsid : ∀ f ∈ rest, f.streamId = sid)
    (hflags : rest.map (·.endHeaders) = List.replicate n false ++ [true])
    (hlimit : (c.headerBlockFragment ++ rest.flatMap (·.headerBlockFragment)).length ≤
      effectiveMaxFragment c.localSettings) :
    ∃ trace, handleFrames it (rest.map .continuation) c =
      takeBlock sid (c.headerBlockFragment ++ rest.flatMap (·.headerBlockFragment)) c.headerEndStream
        (c.closedStreams.contains sid) true (c.setCore { c.toCore with
          headerContinuationStream := none
          headerBlockFragment := c.headerBlockFragment ++ rest.flatMap (·.headerBlockFragment)
          trace := trace }) := by
  induction rest generalizing c n with
  | nil => cases n <;> simp at hflags
  | cons f rest ih =>
    obtain rfl := hsid f List.mem_cons_self
    rw [List.flatMap_cons, ← List.append_assoc] at hlimit ⊢
    have hlimit' : (c.headerBlockFragment ++ f.headerBlockFragment).length ≤
        effectiveMaxFragment c.localSettings := by
      rw [List.length_append] at hlimit
      omega
    cases n with
    | zero =>
      obtain ⟨hlast, hnone⟩ := List.cons.inj hflags
      obtain rfl : rest = [] := List.map_eq_nil_iff.1 hnone
      rw [List.flatMap_nil, List.append_nil]
      exact ⟨_, (handleFrames_one it _ c).trans (continuation_last hstate hcont hlast hlimit')⟩
    | succ n =>
      rw [List.replicate_succ] at hflags
      obtain ⟨hmore, hflags⟩ := List.cons.inj hflags
      obtain ⟨trace, hrun⟩ := ih (c := c.setCore ((c.toCore.log (.received (.continuation
        f))).growBlock f.headerBlockFragment)) hstate hcont
        (fun g hg => hsid g (List.mem_cons_of_mem f hg)) hflags hlimit
      exact ⟨trace, (handleFrames_cons (continuation_more hstate hcont hmore hlimit') _).trans hrun⟩

/-- The connection takes the block as a whole, however many frames brought it. -/
theorem handleFrames_gathers (it : IterOrder) (first : HeadersFrame) (rest : List ContinuationFrame)
    {c : Connection} (hsid : ∀ f ∈ rest, f.streamId = first.streamId)
    (hlast : first.endHeaders :: rest.map (·.endHeaders) = List.replicate rest.length false ++ [true])
    (hstate : c.state ≠ .waitingPreface) (hcont : c.headerContinuationStream = none)
    (hadmits : c.toCore.Admits first.streamId)
    (hlimit : (first.headerBlockFragment ++ rest.flatMap (·.headerBlockFragment)).length ≤
      effectiveMaxFragment c.localSettings) :
    ∃ trace, handleFrames it (.headers first :: rest.map .continuation) c =
      takeBlock first.streamId (first.headerBlockFragment ++ rest.flatMap (·.headerBlockFragment))
        first.endStream (c.closedStreams.contains first.streamId) (!rest.isEmpty)
        (c.gathered first.streamId (first.headerBlockFragment ++ rest.flatMap (·.headerBlockFragment))
          first.endStream (!rest.isEmpty) trace) := by
  cases rest with
  | nil =>
    have hrun := headers_whole it hstate hcont hadmits (List.cons.inj hlast).1
    rw [List.flatMap_nil, List.append_nil]
    exact ⟨_, (handleFrames_one it _ c).trans hrun⟩
  | cons f rest =>
    rw [List.length_cons, List.replicate_succ] at hlast
    obtain ⟨hmore, hflags⟩ := List.cons.inj hlast
    have hfits : first.headerBlockFragment.length ≤ effectiveMaxFragment c.localSettings := by
      rw [List.length_append] at hlimit
      omega
    have hrun := headers_first it hstate hcont hadmits hmore hfits
    obtain ⟨trace, hrest⟩ := handleFrames_continuations it (c := c.begun first) hstate rfl hsid hflags hlimit
    refine ⟨trace, ?_⟩
    rw [handleFrames_cons hrun, hrest, begun_gathered hcont]
    rfl

/-- A receiver that takes the block hands its octets to the decoder and its flag to what follows. -/
theorem handleFrames_joins (it : IterOrder) {sid maxFrameSize : Nat} {endStream : Bool} {block : Bytes}
    {first : HeadersFrame} {rest : List ContinuationFrame}
    (hfrag : Fragmented sid endStream maxFrameSize block first rest) {c : Connection}
    (hstate : c.state ≠ .waitingPreface) (hcont : c.headerContinuationStream = none)
    (hadmits : c.toCore.Admits sid)
    (hlimit : block.length ≤ effectiveMaxFragment c.localSettings) :
    ∃ d, c.Collects d ∧ handleFrames it (.headers first :: rest.map .continuation) c =
      takeBlock sid block endStream (c.closedStreams.contains sid) (!rest.isEmpty) d := by
  obtain ⟨_, ⟨rfl, hsid⟩, rfl, _, rfl, hlast, _⟩ := hfrag
  obtain ⟨trace, hrun⟩ := handleFrames_gathers it first rest hsid hlast hstate hcont hadmits hlimit
  exact ⟨_, gathered_collects c _ _ _ _ trace, hrun⟩

/-- A header block leaves in frames that the peer may take, and whoever takes them gets the block and
its flag back. -/
theorem sendHeaderBlock_fragmented (c : Connection) (sid : Nat) (encodedHeaders : Bytes)
    (endStream : Bool) :
    ∃ (first : HeadersFrame) (rest : List ContinuationFrame) (c' : Connection),
      sendHeaderBlock sid encodedHeaders endStream c = (.ok (), c') ∧
      c'.trace = ((Frame.headers first :: rest.map .continuation).map Item.sent).reverse ++ c.trace ∧
      c'.outputBuffer =
        c.outputBuffer ++ (Frame.headers first :: rest.map .continuation).flatMap Frame.wire ∧
      Fragmented sid endStream c.remoteSettings.maxFrameSize
        (c.hpackEncoder.encodePending c.pendingTableSizeUpdate ++ encodedHeaders) first rest ∧
      ∀ (it : IterOrder) (d : Connection), d.state ≠ .waitingPreface →
        d.headerContinuationStream = none → d.toCore.Admits sid →
        (c.hpackEncoder.encodePending c.pendingTableSizeUpdate ++ encodedHeaders).length ≤
          effectiveMaxFragment d.localSettings →
        ∃ d', d.Collects d' ∧ handleFrames it (.headers first :: rest.map .continuation) d =
          takeBlock sid (c.hpackEncoder.encodePending c.pendingTableSizeUpdate ++ encodedHeaders)
            endStream (d.closedStreams.contains sid) (!rest.isEmpty) d' := by
  let block := c.hpackEncoder.encodePending c.pendingTableSizeUpdate ++ encodedHeaders
  have hmax : 0 < c.remoteSettings.maxFrameSize.val := by
    have := c.remoteSettings.maxFrameSize.2.1
    omega
  obtain ⟨first, rest, hframes, hfrag⟩ := blockFrames_spec sid endStream block hmax
  have hencode : ∀ f ∈ blockFrames sid endStream c.remoteSettings.maxFrameSize block,
      ∃ bytes, f.encode = .ok bytes := blockFrames_encode
  obtain ⟨c', hrun, htrace, houtput⟩ := sendFrames_output hencode
    (c.setCore { c.toCore with pendingTableSizeUpdate := none })
  rw [hframes] at htrace houtput
  refine ⟨first, rest, c', ?_, htrace, houtput, hfrag, ?_⟩
  · rw [sendHeaderBlock, bind_ok (m := get) rfl, bind_ok (m := update _) rfl]
    exact hrun
  · intro it d hstate hcont hadmits hlimit
    exact handleFrames_joins it hfrag hstate hcont hadmits hlimit

/-- A request with a field that fills more than a frame. -/
def longBlock : Bytes :=
  getBlock ++ [0x00, 0x01, 0x78, 0x7f, 0xa1, 0x9b, 0x01] ++ List.replicate 20000 0x61

/-- Such a request of a client, taken by a server that has had the client's SETTINGS. -/
theorem sendHeaderBlock_fragmented_long :
    let client := Connection.new .client Limits.default
    let limits := { Limits.default with maxHeaderListSize := some 65536 }
    let server := (Connection.new .server limits).setCore
      ((Core.new .server limits).setState .active)
    ∃ (first : HeadersFrame) (rest : List ContinuationFrame) (client' server' : Connection),
      rest ≠ [] ∧ sendHeaderBlock 1 longBlock true client = (.ok (), client') ∧
        server.Collects server' ∧
        handleFrames .listed (.headers first :: rest.map .continuation) server =
          takeBlock 1 longBlock true false true server' := by
  intro client limits server
  obtain ⟨first, rest, client', hrun, _, _, hfrag, hjoin⟩ :=
    sendHeaderBlock_fragmented client 1 longBlock true
  have hlength : longBlock.length = 20013 := by
    rw [longBlock, List.length_append, List.length_replicate]
    rfl
  have hmore : rest ≠ [] := by
    rintro rfl
    have hwhole : first.headerBlockFragment ++ [] = longBlock := hfrag.joined
    rw [List.append_nil] at hwhole
    have hfits := hfrag.payload (.headers first) (List.mem_cons_self ..)
    rw [payload_headers hfrag.plain.1, hwhole, hlength] at hfits
    exact absurd hfits (by decide)
  have hlimit : longBlock.length ≤ effectiveMaxFragment server.localSettings := by
    rw [hlength]
    decide
  obtain ⟨server', hcollects, htake⟩ := hjoin .listed server (by decide) rfl
    ⟨by decide, .inr (.inr ⟨by decide, by decide⟩)⟩ hlimit
  have hcontinued : (!rest.isEmpty) = true := by simpa using hmore
  rw [hcontinued] at htake
  exact ⟨first, rest, client', server', hmore, hrun, hcollects, htake⟩

end Http2
