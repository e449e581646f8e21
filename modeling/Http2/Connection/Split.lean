import Http2.Connection.Blind
import Http2.Connection.Marks

/-! A header block is taken alike in one frame or cut into any number of them. -/
namespace Http2

open Hpack Lib Lib.Prog Connection

namespace Split

/-- CONTINUATION for every piece, the last with END_HEADERS. -/
def continuations (sid : Nat) : List Bytes → List ContinuationFrame
  | [] => []
  | piece :: pieces => ⟨sid, pieces.isEmpty, piece⟩ :: continuations sid pieces

/-- The frames of a header block: HEADERS with the first piece, and CONTINUATION for the others. -/
def blockOf (first : HeadersFrame) (pieces : List Bytes) : List Frame :=
  .headers { first with endHeaders := pieces.isEmpty } ::
    (continuations first.streamId pieces).map .continuation

/-- The same outcome. What has happened differs, since the frames do. -/
structure Alike (x y : Except Error Unit × Connection) : Prop where
  result : y.1 = x.1
  events : y.2.events = x.2.events
  outputBuffer : y.2.outputBuffer = x.2.outputBuffer
  state : x.1 = .ok () → ∃ items, y.2 = x.2.setCore { x.2.toCore with trace := items }
  idle : x.1 = .ok () → x.2.headerFields = .idle

/-- The states between two frames of a run in which no `process` has failed. -/
def Reached (role : Role) (limits : Limits) (c : Connection) : Prop :=
  ∃ history c₀ it, RunOf Marks.answers (Connection.new role limits) history c₀ ∧
    Marks.Unbroken history ∧
    Relation.ReflTransGen (Turn Marks.answers it) c₀ c

/-- Nothing is seen of what has happened. -/
def timeless : Blur where
  decoder d := d
  trace _ := []
  decoder_decoder _ := rfl
  trace_trace _ := rfl
  trace_cons _ _ := rfl

section

variable {c d d' : Connection} {sid : Nat} {block : Bytes} {endStream closed kept : Bool}

theorem continuations_spec (sid : Nat) (pieces : List Bytes) :
    (∀ f ∈ continuations sid pieces, f.streamId = sid) ∧
      (continuations sid pieces).flatMap (·.headerBlockFragment) = pieces.flatten ∧
      ((continuations sid pieces).isEmpty = pieces.isEmpty) ∧
      pieces.isEmpty :: (continuations sid pieces).map (·.endHeaders) =
        List.replicate (continuations sid pieces).length false ++ [true] := by
  induction pieces with
  | nil => exact ⟨by simp [continuations], rfl, rfl, rfl⟩
  | cons piece pieces ih =>
    obtain ⟨hsid, hjoined, _, hlast⟩ := ih
    refine ⟨?_, ?_, rfl, ?_⟩
    · rintro f hf
      obtain rfl | hf := List.mem_cons.1 hf
      · rfl
      · exact hsid f hf
    · rw [continuations, List.flatMap_cons, hjoined]
      rfl
    · rw [continuations, List.map_cons, hlast]
      rfl

/-! ## The block as a whole -/

/-- What is left when the octets of a block have gone through the decoder. -/
def decoded (d : Connection) (sid : Nat) (headers : List HeaderField) (decoder : Decoder)
    (kept : Bool) :
    Connection :=
  d.setCore { d.toCore with
    hpackDecoder := decoder
    headerBlockFragment := if kept then [] else d.headerBlockFragment
    headerEndStream := if kept then false else d.headerEndStream
    trace := .decoded sid headers :: d.trace }

theorem takeBlock_ok {headers : List HeaderField} {decoder : Decoder}
    (h : d.hpackDecoder.decode block = (.ok headers, decoder)) :
    takeBlock sid block endStream closed kept d =
      finishBlock sid headers endStream closed (decoded d sid headers decoder kept) := by
  have hdecode : decodeBlock sid block d = (.ok headers, d.setCore { d.toCore with
      hpackDecoder := decoder
      trace := .decoded sid headers :: d.trace }) := by
    rw [decodeBlock, bind_ok (m := get) rfl, bind_ok (m := update _) rfl, h]
    rfl
  rw [takeBlock, bind_ok hdecode]
  cases kept <;> rfl

theorem takeBlock_error {e : Error} {decoder : Decoder}
    (h : d.hpackDecoder.decode block = (.error e, decoder)) :
    takeBlock sid block endStream closed kept d =
      (.error (.connectionError .compressionError s!"HPACK decode error: {e.reasonText}"),
        d.setCore { d.toCore with hpackDecoder := decoder }) := by
  have hdecode : decodeBlock sid block d =
      (.error (.connectionError .compressionError s!"HPACK decode error: {e.reasonText}"),
        d.setCore { d.toCore with hpackDecoder := decoder }) := by
    rw [decodeBlock, bind_ok (m := get) rfl, bind_ok (m := update _) rfl, h]
    rfl
  rw [takeBlock, bind_error hdecode]

/-- The same decoder gets the same octets, and nothing that it keeps in between is left. -/
theorem decoded_gathered (sid : Nat) (block : Bytes) (endStream kept : Bool)
    (headers : List HeaderField)
    (decoder : Decoder) (items items' : List Item) (hidle : c.headerFields = .idle) :
    timeless.view (decoded (c.gathered sid block endStream kept items) sid headers decoder kept) =
      timeless.view
          (decoded (c.gathered sid block endStream false items') sid headers decoder false) := by
  have hfragment : c.headerBlockFragment = [] := congrArg HeaderFields.headerBlockFragment hidle
  have hend : c.headerEndStream = false := congrArg HeaderFields.headerEndStream hidle
  cases kept with
  | true => simp [Blur.view, masked, timeless, decoded, gathered, setCore, hfragment, hend]
  | false => rfl

theorem gathered_idle (sid : Nat) (block : Bytes) (endStream : Bool) (headers : List HeaderField)
    (decoder : Decoder) (items : List Item) (hidle : c.headerFields = .idle) :
    Ensures (finishBlock sid headers endStream (c.closedStreams.contains sid))
      (decoded (c.gathered sid block endStream false items) sid headers decoder false) fun _ d =>
        d.headerFields = .idle := by
  have hcont : c.headerContinuationStream = none :=
    congrArg HeaderFields.headerContinuationStream hidle
  have hfragment : c.headerBlockFragment = [] := congrArg HeaderFields.headerBlockFragment hidle
  have hend : c.headerEndStream = false := congrArg HeaderFields.headerEndStream hidle
  have hnoted : (c.notedHeaders sid).headerConcurrentLimitExceeded = true →
      (c.notedHeaders sid).connectEstablishedHeadersReceived = false ∧
        c.closedStreams.contains sid = false ∧ c.isStreamClosed sid = false := by
    intro hlimit
    obtain ⟨htunnel, hopen, hgone⟩ := Marks.notedHeaders_refused sid hidle hlimit
    refine ⟨htunnel, hopen, ?_⟩
    rw [Core.isStreamClosed, hgone]
  apply ensures_mono (Marks.finishBlock_idle hnoted)
  intro r d hfields
  rw [hfields]
  simp [decoded, gathered, setCore, hcont, hfragment, hend, HeaderFields.idle]

/-- What is done with a block does not depend on the frames that brought it. -/
theorem takeBlock_alike (hidle : c.headerFields = .idle) (items items' : List Item) :
    Alike (takeBlock sid block endStream (c.closedStreams.contains sid) false
        (c.gathered sid block endStream false items))
      (takeBlock sid block endStream (c.closedStreams.contains sid) kept
        (c.gathered sid block endStream kept items')) := by
  cases hdecode : c.hpackDecoder.decode block with
  | mk r decoder =>
    cases r with
    | error e =>
      rw [takeBlock_error (d := c.gathered sid block endStream false items) hdecode,
        takeBlock_error (d := c.gathered sid block endStream kept items') hdecode]
      exact ⟨rfl, rfl, rfl, (fun h => by cases h), fun h => by cases h⟩
    | ok headers =>
      have hfinish := gathered_idle sid block endStream headers decoder items hidle
      rw [takeBlock_ok (d := c.gathered sid block endStream false items) hdecode,
        takeBlock_ok (d := c.gathered sid block endStream kept items') hdecode]
      have hsame := decoded_gathered sid block endStream kept headers decoder items' items hidle
      obtain ⟨hresult, hstate⟩ :=
        blind_finishBlock sid headers endStream (c.closedStreams.contains sid) _ _ hsame
      rw [Ensures] at hfinish
      generalize finishBlock _ _ _ _
        (decoded (c.gathered sid block endStream false items) _ _ _ _) = x at *
      generalize finishBlock _ _ _ _ (decoded _ _ _ _ _) = y at *
      refine ⟨hresult, congrArg (·.events) hstate, congrArg (·.outputBuffer) hstate, fun _ => ?_,
        fun _ => hfinish⟩
      exact ⟨y.2.trace, congrArg (fun d => d.masked d.frameDecoder y.2.trace) hstate⟩

/-! ## The frames of the block -/

/-- The frames fail alike that nothing admits. -/
theorem alike_of_error {e : Error} {items items' : List Item}
    {x y : Except Error Unit × Connection}
    (hx : x = (.error e, c.setCore { c.toCore with trace := items }))
    (hy : y = (.error e, c.setCore { c.toCore with trace := items' })) : Alike x y := by
  subst hx hy
  exact ⟨rfl, rfl, rfl, (fun h => by cases h), fun h => by cases h⟩

/-- Why HEADERS are refused before the peer's SETTINGS. -/
def earlyError (c : Connection) : Error :=
  if c.role = .server ∧ c.prefaceReceived = false then
    .connectionError .protocolError "client connection preface not received"
  else .connectionError .protocolError "first frame must be SETTINGS"

theorem headers_early (it : IterOrder) (f : HeadersFrame) (hstate : c.state = .waitingPreface) :
    handleFrame it (.headers f) c =
        (.error (earlyError c), c.setCore (c.toCore.log (.received (.headers f)))) := by
  apply run_eq
  simp only [handleFrame, ensures_bind, ensures_update, ensures_get, ensures_require, setCore_toCore,
    Core.log_state, Core.log_role]
  refine ⟨fun hready => ⟨fun hinitial => ?_, fun _ => ?_⟩, fun hpreface => ?_⟩
  · cases hinitial hstate
  · have hno : ¬ (c.role = .server ∧ c.prefaceReceived = false) := fun h => hready ⟨hstate, h⟩
    rw [earlyError, if_neg hno]
  · have hmissing : c.role = .server ∧ c.prefaceReceived = false := (not_not.1 hpreface).2
    rw [earlyError, if_pos hmissing]

/-- HEADERS that are not admitted are refused for their stream, whatever they carry. -/
theorem headers_refused (it : IterOrder) {f : HeadersFrame} (hstate : c.state ≠ .waitingPreface)
    (hcont : c.headerContinuationStream = none) (hadmits : ¬ c.toCore.Admits f.streamId) :
    handleFrame it (.headers f) c = (.error (c.toCore.headersError f.streamId),
      c.setCore (c.toCore.log (.received (.headers f)))) := by
  rw [handleFrame_dispatch hstate (by simp [continues, hcont]), dispatchFrame]
  exact handleHeaders_refuses (c := c.setCore (c.toCore.log (.received (.headers f)))) hadmits

theorem handleFrames_error {it : IterOrder} {f : Frame} {e : Error}
    (h : handleFrame it f c = (.error e, d)) (fs : List Frame) :
    handleFrames it (f :: fs) c = (.error e, d) :=
  bind_error h _

theorem blockOf_alike (hidle : c.headerFields = .idle) (it : IterOrder) {whole first : HeadersFrame}
    {pieces : List Bytes} (hsid : whole.streamId = first.streamId)
    (hend : whole.endStream = first.endStream)
    (hjoined : whole.headerBlockFragment = first.headerBlockFragment ++ pieces.flatten)
    (hlimit : whole.headerBlockFragment.length ≤ effectiveMaxFragment c.localSettings) :
    Alike (handleFrames it (blockOf whole []) c) (handleFrames it (blockOf first pieces) c) := by
  have hcont : c.headerContinuationStream = none :=
    congrArg HeaderFields.headerContinuationStream hidle
  by_cases hstate : c.state = .waitingPreface
  · exact alike_of_error (handleFrames_error (headers_early it _ hstate) _)
      (handleFrames_error (headers_early it _ hstate) _)
  by_cases hadmits : c.toCore.Admits whole.streamId
  · obtain ⟨hrest, hflat, hempty, hlast⟩ := continuations_spec first.streamId pieces
    obtain ⟨items, hwhole⟩ := handleFrames_gathers it { whole with endHeaders := true } []
      (fun f hf => by cases hf) rfl hstate hcont hadmits (by simpa using hlimit)
    obtain ⟨items', hcut⟩ := handleFrames_gathers it { first with endHeaders := pieces.isEmpty }
      (continuations first.streamId pieces) hrest hlast hstate hcont (hsid ▸ hadmits)
      (by rw [hflat, ← hjoined]; exact hlimit)
    have hwhole' : handleFrames it (blockOf whole []) c =
        takeBlock whole.streamId whole.headerBlockFragment whole.endStream
          (c.closedStreams.contains whole.streamId) false
          (c.gathered whole.streamId whole.headerBlockFragment whole.endStream false items) := by
      rw [List.flatMap_nil, List.append_nil] at hwhole
      exact hwhole
    have hcut' : handleFrames it (blockOf first pieces) c =
        takeBlock whole.streamId whole.headerBlockFragment whole.endStream
          (c.closedStreams.contains whole.streamId) (!(continuations first.streamId pieces).isEmpty)
          (c.gathered whole.streamId whole.headerBlockFragment whole.endStream
            (!(continuations first.streamId pieces).isEmpty) items') := by
      rw [hsid, hend, hjoined, ← hflat]
      exact hcut
    rw [hwhole', hcut']
    exact takeBlock_alike hidle items items'
  · have hwhole : handleFrames it (blockOf whole []) c = _ :=
      handleFrames_error
        (headers_refused it (f := { whole with endHeaders := true }) hstate hcont hadmits) _
    have hcut : handleFrames it (blockOf first pieces) c = _ :=
      handleFrames_error
        (headers_refused it (f := { first with endHeaders := pieces.isEmpty }) hstate hcont
        (hsid ▸ hadmits)) _
    rw [hwhole, hcut]
    simp only [hsid]
    exact alike_of_error rfl rfl

end

theorem reached_marked {role : Role} {limits : Limits} {c : Connection} (h : Reached role limits c) :
    Marks.Marked c := by
  obtain ⟨history, c₀, it, hrun, hunbroken, hturns⟩ := h
  exact (Marks.turns_marked (run_tidy hrun) (Marks.run_marked hrun hunbroken) hturns).2

/-- Where no block is in progress, a block is taken alike whole or cut anywhere, empty pieces
included. -/
theorem split_invariance {role : Role} {limits : Limits} {c : Connection} (h : Reached role limits c)
    (hnone : c.headerContinuationStream = none) (it : IterOrder) {whole first : HeadersFrame}
    {pieces : List Bytes} (hsid : whole.streamId = first.streamId)
    (hend : whole.endStream = first.endStream)
    (hjoined : whole.headerBlockFragment = first.headerBlockFragment ++ pieces.flatten)
    (hlimit : whole.headerBlockFragment.length ≤ effectiveMaxFragment c.localSettings) :
    Alike (handleFrames it (blockOf whole []) c) (handleFrames it (blockOf first pieces) c) :=
  blockOf_alike ((reached_marked h).idle hnone) it hsid hend hjoined hlimit

/-- A request, whole or in three pieces of which one is empty, at a server that has the client's
SETTINGS. -/
theorem split_invariance_get :
    ∃ c, Reached .server .default c ∧
      Alike (handleFrames .listed (blockOf ⟨1, true, true, none, getBlock, none⟩ []) c)
        (handleFrames .listed
            (blockOf ⟨1, true, true, none, getBlock.take 2, none⟩ [[], getBlock.drop 2]) c) := by
  let calls := [Call.feed (clientBytes []), .process .listed]
  have hheeds : HeedsAll Marks.answers calls (Connection.new .server .default) := by decide +kernel
  have hrun := RunOf.execAll .start hheeds
  have hreached :
      Reached .server .default (execAll calls [] (Connection.new .server .default)).2 := by
    refine ⟨_, _, .listed, hrun, ?_, .refl⟩
    unfold Marks.Unbroken
    decide +kernel
  exact ⟨_, hreached, split_invariance hreached (by decide +kernel) .listed rfl rfl rfl
    (by decide +kernel)⟩

end Split

end Http2
