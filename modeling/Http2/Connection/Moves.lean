import Http2.Connection.Trace

/-! One stream at a time: what a transition does to the record of a stream, and what it adds to the
stream's part of the history. -/
namespace Http2

open Hpack Connection

/-! ## The history of a stream -/

/-- The stream of whose messages, or of whose end, an event tells. Data that was discarded, a priority
and credit are told of streams that may be over, or not begun. -/
def Event.lifeStream? : Event → Option Nat
  | .headersReceived sid _ _ _ | .dataReceived sid _ _ | .trailersReceived sid _
  | .streamReset sid _ _ | .streamClosed sid => some sid
  | _ => none

/-- The stream that an item is about. -/
def Item.streamId? : Item → Option Nat
  | .received (.windowUpdate sid _) | .sent (.windowUpdate sid _) | .sent (.rstStream sid _) => some sid
  | .sent (.data f) => some f.streamId
  | .sent (.headers f) => some f.streamId
  | .sent (.continuation f) => some f.streamId
  | .event e => e.lifeStream?
  | .opened sid | .queued sid _ | .encoded sid _ => some sid
  | _ => none

/-- The items about a stream, most recent first. -/
def history (sid : Nat) (trace : List Item) : List Item := trace.filter (·.streamId? == some sid)

@[simp] theorem history_nil (sid : Nat) : history sid [] = [] := rfl

theorem history_append (sid : Nat) (new trace : List Item) :
    history sid (new ++ trace) = history sid new ++ history sid trace := List.filter_append ..

theorem history_cons (sid : Nat) (i : Item) (trace : List Item) :
    history sid (i :: trace) =
      if i.streamId? = some sid then i :: history sid trace else history sid trace := by
  by_cases h : i.streamId? = some sid <;> simp [history, h]

/-- Credit that changed no record, and a reset of a stream that is gone. -/
def Item.Passing : Item → Prop
  | .received (.windowUpdate _ _) | .sent (.windowUpdate _ _) | .sent (.rstStream _ _) => True
  | _ => False

/-- A header list and the frames of its block. -/
def Burst (sid : Nat) (headers : List HeaderField) (endStream : Bool) (items : List Item) : Prop :=
  ∃ (f : HeadersFrame) (fs : List Frame), f.streamId = sid ∧ f.endStream = endStream ∧
    (∀ g ∈ fs, ∃ cf : ContinuationFrame, g = .continuation cf ∧ cf.streamId = sid) ∧
    items = (fs.map Item.sent).reverse ++ [.sent (.headers f), .encoded sid headers]

namespace Stream

/-- A record that goes when it is closed. -/
def kept (s : Stream) : Option Stream := if s.state.isClosed then none else some s

/-- What is reported then. -/
def farewell (s : Stream) (sid : Nat) : List Item :=
  if s.state.isClosed then [.event (.streamClosed sid)] else []

end Stream

/-! ## Moves -/

/-- The frame ends a header block, which is decoded. -/
inductive Completes (c : Core) : Label → Nat → List HeaderField → Bool → Prop
  | whole {d : Decoder} {headers : List HeaderField} (f : HeadersFrame)
      (hcont : c.headerContinuationStream = none) (hadmits : c.Admits f.streamId)
      (hlast : f.endHeaders = true)
      (hdecode : c.hpackDecoder.decode f.headerBlockFragment = (.ok headers, d)) :
      Completes c (.frame (.headers f)) f.streamId headers f.endStream
  | last {d : Decoder} {headers : List HeaderField} (f : ContinuationFrame)
      (hcont : c.headerContinuationStream = some f.streamId) (hlast : f.endHeaders = true)
      (hdecode : c.hpackDecoder.decode (c.headerBlockFragment ++ f.headerBlockFragment) =
        (.ok headers, d)) :
      Completes c (.frame (.continuation f)) f.streamId headers c.headerEndStream

theorem Completes.begins {c : Core} {l : Label} {sid : Nat} {headers : List HeaderField}
    {endStream : Bool} (h : Completes c l sid headers endStream)
    (hclosed : c.closedStreams.contains sid = false) : Begins c l sid := by
  cases h with
  | whole f hcont hadmits hlast => exact .whole f hcont hadmits hlast hclosed
  | last f hcont hlast => exact .last f hcont hlast hclosed

/-- The record that a header block finds, or a fresh one. -/
def Finds (c : Core) (sid : Nat) (s : Stream) (old : Option Stream) (opened : List Item) : Prop :=
  old = some s ∧ opened = [] ∨ old = none ∧ s = c.newStream sid ∧ opened = [.opened sid]

/-- What a transition does to the record of `sid`, and what it adds to its history. -/
inductive Moves (c : Core) (l : Label) (sid : Nat) : Option Stream → List Item → Option Stream → Prop
  | rest (old : Option Stream) : Moves c l sid old [] old
  | pass (items : List Item) (hitems : ∀ i ∈ items, i.Passing) : Moves c l sid none items none
  | retune {s : Stream} {fc : FlowControl} (f : SettingsFrame) (hl : l = .frame (.settings f))
      (hflow : s.flowControl.updateInitialWindowSize
        (f.settings.foldl Settings.apply c.remoteSettings).initialWindowSize = .ok fc) :
      Moves c l sid (some s) [] (some { s with flowControl := fc })
  -- Resets.
  | reset {s : Stream} (code : ErrorCode) (consumed : Nat) (cause : List Item)
      (hcause : ∀ i ∈ cause, i.Passing) :
      Moves c l sid (some s)
        (.event (.streamReset sid code consumed) :: .sent (.rstStream sid code.asU32) :: cause) none
  | refuse {raw : List HeaderField} {endStream : Bool} (code : ErrorCode)
      (hblock : Completes c l sid raw endStream) (hclosed : c.closedStreams.contains sid = false) :
      Moves c l sid none
        [.event (.streamReset sid code 0), .sent (.rstStream sid code.asU32), .opened sid] none
  | peerReset {s : Stream} (code : Nat) (hl : l = .frame (.rstStream sid code)) :
      Moves c l sid (some s) [.event (.streamReset sid (.fromU32 code) 0)] none
  -- What the peer sends.
  | deliver {s s' : Stream} (f : DataFrame) (hl : l = .frame (.data f)) (hsid : f.streamId = sid)
      (hstream : (f.flowControlSize : Int) ≤ s.flowControl.recvWindow)
      (hstate : s.state.recvData f.endStream = .ok s'.state)
      (hcontent : s.noContent = true → f.data = [])
      (hlength : contentLengthViolated s' f.endStream = false)
      (hs : s' = { s with
        state := s'.state
        flowControl := s.flowControl.addRecv (-f.flowControlSize)
        receivedContentLength := s.receivedContentLength + f.data.length }) :
      Moves c l sid (some s) (s'.farewell sid ++ [.event (.dataReceived sid f.data f.endStream)]) s'.kept
  | headers {s s' : Stream} {raw : List HeaderField} {endStream : Bool} {old : Option Stream}
      {opened : List Item} (protocol : Option Bytes) (hblock : Completes c l sid raw endStream)
      (hclosed : c.closedStreams.contains sid = false) (hfinds : Finds c sid s old opened)
      (hinitial : s.initialHeadersReceived = false)
      (hstate : s.state.recvHeaders endStream = .ok s'.state)
      (hvalid : match c.role with
        | .server => validateRequestHeaders raw = .ok ()
        | .client => validateResponseHeaders raw = .ok ())
      (hlength : extractContentLength raw none = .ok s'.expectedContentLength)
      (hmatch : lengthMismatch c.role s' (concatenateCookies raw) endStream
        s'.expectedContentLength = false)
      (hend : endStream = true → s'.initialHeadersReceived = true)
      (hs : s' = { c.noted sid s raw with
        state := s'.state
        expectedContentLength := s'.expectedContentLength
        initialHeadersReceived :=
          !(c.role == .client && isInformational (concatenateCookies raw)) }) :
      Moves c l sid old (s'.farewell sid ++
        .event (.headersReceived sid (concatenateCookies raw) endStream protocol) :: opened) s'.kept
  | trailers {s s' : Stream} {raw : List HeaderField} (hblock : Completes c l sid raw true)
      (hclosed : c.closedStreams.contains sid = false) (hinitial : s.initialHeadersReceived = true)
      (hvalid : validateTrailers raw = .ok ()) (hstate : s.state.recvHeaders true = .ok s'.state)
      (hs : s' = { s with state := s'.state }) :
      Moves c l sid (some s) (s'.farewell sid ++
        [.event (.trailersReceived sid (concatenateCookies raw))]) s'.kept
  | update {s : Stream} (increment : Nat) (hl : l = .frame (.windowUpdate sid increment))
      (hmax : s.flowControl.sendWindow + increment ≤ maxWindowSize) :
      Moves c l sid (some s) [.received (.windowUpdate sid increment)]
        (some { s with flowControl := s.flowControl.addSend increment })
  -- What this side sends.
  | credit {s : Stream} (increment : Nat) (hl : l = .api (.sendWindowUpdate sid increment))
      (hpos : 0 < increment) (hmax : s.flowControl.recvWindow + increment ≤ maxWindowSize) :
      Moves c l sid (some s) [.sent (.windowUpdate sid increment)]
        (some { s with flowControl := s.flowControl.addRecv increment })
  | request {s : Stream} {old : Option Stream} {headers : List HeaderField} {endStream : Bool}
      {items : List Item} (hl : l = .api (.startStream headers endStream)) (hsid : sid = c.nextStreamId)
      (hrole : c.role = .client) (hgoaway : c.state ≠ .goawayReceived)
      (hmax : c.nextStreamId ≤ streamIdMax) (hvalid : validateRequestHeaders headers = .ok ())
      (hstate : s.state = if endStream then .halfClosedLocal else .open)
      (hs : s = requestStream { c.newStream sid with state := s.state } headers)
      (hitems : Burst sid headers endStream items) :
      Moves c l sid old (items ++ [.opened sid]) (some s)
  | respond {s s' : Stream} {headers : List HeaderField} {endStream : Bool} {items : List Item}
      (hl : l = .api (.sendResponse sid headers endStream)) (htunnel : s.connectEstablished = false)
      (hvalid : validateResponseHeaders headers = .ok ())
      (hstate : s.state.sendHeaders endStream = .ok s'.state)
      (hempty : endStream = true → s.sendBuffer = [])
      (hfinal : isInformational headers = true ∧ endStream = false ∨
        isInformational headers = false ∧ s.finalResponseSent = false)
      (hs : s' = { responseStream headers s with state := s'.state })
      (hitems : Burst sid headers endStream items) :
      Moves c l sid (some s) (s'.farewell sid ++ items) s'.kept
  | trail {s s' : Stream} {headers : List HeaderField} {items : List Item}
      (hl : l = .api (.sendTrailers sid headers)) (htunnel : s.connectEstablished = false)
      (hvalid : validateTrailers headers = .ok ()) (hstate : s.state.sendHeaders true = .ok s'.state)
      (hempty : s.sendBuffer = []) (hfinal : c.role = .client ∨ s.finalResponseSent = true)
      (hs : s' = { s with state := s'.state }) (hitems : Burst sid headers true items) :
      Moves c l sid (some s) (s'.farewell sid ++ items) s'.kept
  | queue {s : Stream} (data : Bytes) (endStream : Bool) (hl : l = .api (.sendData sid data endStream))
      (hpending : s.pendingEndStream = false) (hcan : s.state.canSend = true)
      (hsome : endStream = true → s.sendBuffer ++ data ≠ []) :
      Moves c l sid (some s) [.queued sid data]
        (some { s with sendBuffer := s.sendBuffer ++ data, pendingEndStream := endStream })
  | emptyEnd {s s' : Stream} (hl : l = .api (.sendData sid [] true)) (hpending : s.pendingEndStream = false)
      (hempty : s.sendBuffer = []) (hstate : s.state.completeSendData = .ok s'.state)
      (hs : s' = { s with state := s'.state }) :
      Moves c l sid (some s)
        (s'.farewell sid ++ [.sent (.data ⟨sid, true, [], none⟩), .queued sid []]) s'.kept
  | chunk {s : Stream} (data rest : Bytes) (hl : l = .flush) (hbuffer : s.sendBuffer = data ++ rest)
      (hdata : data ≠ []) (hconn : (data.length : Int) ≤ c.flowControl.sendWindow)
      (hstream : (data.length : Int) ≤ s.flowControl.sendWindow)
      (hframe : data.length ≤ c.remoteSettings.maxFrameSize)
      (hmore : s.pendingEndStream = true → rest ≠ []) :
      Moves c l sid (some s) [.sent (.data ⟨sid, false, data, none⟩)]
        (some { s with
          sendBuffer := rest
          flowControl := s.flowControl.addSend (-data.length) })
  | last {s s' : Stream} (hl : l = .flush) (hdata : s.sendBuffer ≠ []) (hpending : s.pendingEndStream = true)
      (hconn : (s.sendBuffer.length : Int) ≤ c.flowControl.sendWindow)
      (hstream : (s.sendBuffer.length : Int) ≤ s.flowControl.sendWindow)
      (hframe : s.sendBuffer.length ≤ c.remoteSettings.maxFrameSize)
      (hstate : s.state.completeSendData = .ok s'.state)
      (hs : s' = { s with
        sendBuffer := []
        pendingEndStream := false
        state := s'.state
        flowControl := s.flowControl.addSend (-s.sendBuffer.length) }) :
      Moves c l sid (some s)
        (s'.farewell sid ++ [.sent (.data ⟨sid, true, s.sendBuffer, none⟩)]) s'.kept

/-- What a frame leaves behind that was refused: windows may have moved before the error. -/
inductive Stalls : Option Stream → List Item → Option Stream → Prop
  | gone (items : List Item) (hitems : ∀ i ∈ items, i.Passing) : Stalls none items none
  | windows {s : Stream} (fc : FlowControl) (items : List Item) (hitems : ∀ i ∈ items, i.Passing) :
      Stalls (some s) items (some { s with flowControl := fc })

/-- The record moves and its history grows. -/
def Moved (c : Core) (l : Label) (d : Core) (sid : Nat) : Prop :=
  ∃ new, history sid d.trace = new ++ history sid c.trace ∧ Moves c l sid (c.stream? sid) new (d.stream? sid)

/-! ## Every transition is a move -/

theorem history_none {sid : Nat} {items : List Item} (h : ∀ i ∈ items, i.streamId? = none) :
    history sid items = [] := by
  apply List.filter_eq_nil_iff.2
  intro i hi
  simp [h i hi]

theorem history_about {sid : Nat} {items : List Item} (h : ∀ i ∈ items, i.streamId? = some sid) :
    history sid items = items := by
  apply List.filter_eq_self.2
  intro i hi
  simp [h i hi]

theorem farewell_about {s : Stream} {sid : Nat} {i : Item} (h : i ∈ s.farewell sid) :
    i.streamId? = some sid := by
  unfold Stream.farewell at h
  split at h
  · obtain rfl := List.mem_singleton.1 h
    rfl
  · cases h

theorem closeIf_trace (c : Core) (sid : Nat) (s : Stream) :
    (c.closeIf sid s.state.isClosed).trace = s.farewell sid ++ c.trace := by
  unfold Core.closeIf Stream.farewell
  split <;> rfl

theorem closeIf_kept {c : Core} {sid : Nat} {s : Stream} (hlive : c.stream? sid = some s) :
    (c.closeIf sid s.state.isClosed).stream? sid = s.kept := by
  rw [Core.stream?_eq, Core.closeIf_lookup]
  unfold Stream.kept
  by_cases hclosed : s.state.isClosed = true
  · simp [hclosed]
  · simpa [hclosed] using hlive

theorem burst_about {sid : Nat} {headers : List HeaderField} {endStream : Bool} {items : List Item}
    (h : Burst sid headers endStream items) : ∀ i ∈ items, i.streamId? = some sid := by
  obtain ⟨f, fs, rfl, _, hfs, rfl⟩ := h
  intro i hi
  simp only [List.mem_append, List.mem_reverse, List.mem_map, List.mem_cons, List.not_mem_nil,
    or_false] at hi
  obtain ⟨g, hg, rfl⟩ | rfl | rfl := hi
  · obtain ⟨cf, rfl, hcf⟩ := hfs g hg
    simp [Item.streamId?, hcf]
  · rfl
  · rfl

theorem sendBlock_burst (c : Core) (sid : Nat) (headers : List HeaderField) (endStream : Bool) :
    ∃ items, Burst sid headers endStream items ∧
      (c.sendBlock sid headers endStream).trace = items ++ c.trace := by
  obtain ⟨f, fs, hsid, hend, hfs, htrace⟩ := sendBlock_trace c sid headers endStream
  exact ⟨_, ⟨f, fs, hsid, hend, hfs, rfl⟩, by simp [htrace]⟩

section

variable {c d : Core} {l : Label} {sid : Nat}

theorem Moved.congr {d' : Core} {sid' : Nat} (h : Moved c l d sid') (hstreams : d'.streams = d.streams)
    (htrace : d'.trace = d.trace) : Moved c l d' sid' := by
  unfold Moved
  rw [htrace, Core.stream?_eq d', hstreams]
  exact h

/-- The stream has no part in it. -/
theorem moved_same {sid' : Nat} (hhistory : history sid' d.trace = history sid' c.trace)
    (hstreams : d.streams = c.streams) : Moved c l d sid' := by
  refine ⟨[], hhistory, ?_⟩
  rw [Core.stream?_eq, Core.stream?_eq, hstreams]
  exact .rest _

/-- One stream moved; what was recorded before is about none. -/
theorem moved_one (sid : Nat) (mine rest : List Item) (htrace : d.trace = mine ++ (rest ++ c.trace))
    (hmine : ∀ i ∈ mine, i.streamId? = some sid) (hrest : ∀ i ∈ rest, i.streamId? = none)
    (hothers : ∀ sid' ≠ sid, d.streams.lookup sid' = c.streams.lookup sid')
    (h : Moves c l sid (c.stream? sid) mine (d.stream? sid)) {sid' : Nat} : Moved c l d sid' := by
  by_cases heq : sid' = sid
  · subst heq
    refine ⟨mine, ?_, h⟩
    rw [htrace, history_append, history_append, history_about hmine, history_none hrest, List.nil_append]
  · have hnone : ∀ i ∈ mine, i.streamId? ≠ some sid' := by
      intro i hi
      rw [hmine i hi]
      simpa using Ne.symm heq
    refine ⟨[], ?_, ?_⟩
    · rw [htrace, history_append, history_append, history_none hrest]
      simpa [history] using hnone
    · rw [Core.stream?_eq, Core.stream?_eq, hothers sid' heq]
      exact .rest _

/-- A record was rewritten, and went if that closed it. -/
theorem moved_put (s' : Stream) (mine rest : List Item) (htrace : d.trace = mine ++ (rest ++ c.trace))
    (hmine : ∀ i ∈ mine, i.streamId? = some sid) (hrest : ∀ i ∈ rest, i.streamId? = none)
    (hstreams : d.streams = c.streams.insert sid s')
    (h : Moves c l sid (c.stream? sid) (s'.farewell sid ++ mine) s'.kept) {sid' : Nat} :
    Moved c l (d.closeIf sid s'.state.isClosed) sid' := by
  have hlive : d.stream? sid = some s' := by simp [hstreams]
  refine moved_one sid (s'.farewell sid ++ mine) rest ?_ ?_ hrest (fun sid'' hne => ?_) ?_
  · rw [closeIf_trace, htrace, List.append_assoc]
  · intro i hi
    exact (List.mem_append.1 hi).elim farewell_about (hmine i)
  · simp [Core.closeIf_lookup, hstreams, hne]
  · rw [closeIf_kept hlive]
    exact h

/-- A record that stays open was rewritten. -/
theorem moved_open (s' : Stream) (mine rest : List Item) (htrace : d.trace = mine ++ (rest ++ c.trace))
    (hmine : ∀ i ∈ mine, i.streamId? = some sid) (hrest : ∀ i ∈ rest, i.streamId? = none)
    (hstreams : d.streams = c.streams.insert sid s')
    (h : Moves c l sid (c.stream? sid) mine (some s')) {sid' : Nat} : Moved c l d sid' := by
  refine moved_one sid mine rest htrace hmine hrest (fun sid'' hne => by simp [hstreams, hne]) ?_
  simpa [hstreams] using h

/-- A record went. -/
theorem moved_drop (mine rest : List Item) (htrace : d.trace = mine ++ (rest ++ c.trace))
    (hmine : ∀ i ∈ mine, i.streamId? = some sid) (hrest : ∀ i ∈ rest, i.streamId? = none)
    (hothers : ∀ sid' ≠ sid, d.streams.lookup sid' = c.streams.lookup sid')
    (h : Moves c l sid (c.stream? sid) mine none) {sid' : Nat} : Moved c l (d.dropStream sid) sid' := by
  refine moved_one (d := d.dropStream sid) sid mine rest htrace hmine hrest (fun sid'' hne => ?_) ?_
  · simp [hne, hothers sid'' hne]
  · simpa using h

/-- RST_STREAM went out for a live stream. -/
theorem moved_reset (code : ErrorCode) (consumed : Nat) (mine rest : List Item)
    (htrace : d.trace = mine ++ (rest ++ c.trace)) (hmine : ∀ i ∈ mine, i.streamId? = some sid)
    (hrest : ∀ i ∈ rest, i.streamId? = none)
    (hothers : ∀ sid' ≠ sid, d.streams.lookup sid' = c.streams.lookup sid')
    (h : Moves c l sid (c.stream? sid)
      (.event (.streamReset sid code consumed) :: .sent (.rstStream sid code.asU32) :: mine) none)
    {sid' : Nat} : Moved c l (d.resetWith sid code consumed) sid' := by
  let e := (d.log (.sent (.rstStream sid code.asU32))).log (.event (.streamReset sid code consumed))
  refine moved_drop (d := e) (_ :: _ :: mine) rest ?_ ?_ hrest hothers h
  · simp [e, htrace]
  · simpa [Item.streamId?, Event.lifeStream?] using hmine

/-- What a header block does when it went through the decoder; `c₁` is the state then. -/
theorem outcome_moved {c₁ c' : Core} {raw : List HeaderField} {endStream : Bool} (rest : List Item)
    (houtcome : Outcome sid raw endStream c₁ c') (hblock : Completes c l sid raw endStream)
    (hstreams : c₁.streams = c.streams) (hclosed : c₁.closedStreams = c.closedStreams)
    (hrole : c₁.role = c.role) (hnew : c₁.newStream sid = c.newStream sid)
    (htrace : c₁.trace = rest ++ c.trace) (hrest : ∀ i ∈ rest, i.streamId? = none) {sid' : Nat} :
    Moved c l c' sid' := by
  have hold : c₁.stream? sid = c.stream? sid := by rw [Core.stream?_eq, hstreams]
  have hothers : ∀ sid' ≠ sid, c₁.streams.lookup sid' = c.streams.lookup sid' := by simp [hstreams]
  cases houtcome with
  | ignored =>
    refine moved_same ?_ hstreams
    rw [htrace, history_append, history_none hrest, List.nil_append]
  | gone _ hgone =>
    let rst : Item := .sent (.rstStream sid ErrorCode.protocolError.asU32)
    refine moved_one sid [rst] rest ?_ (by simp [rst, Item.streamId?]) hrest (by simp [hstreams]) ?_
    · simp [htrace, rst]
    · have hgone' : (c₁.log rst).stream? sid = none := hgone
      rw [← hold, hgone', hgone]
      exact .pass _ (by simp [Item.Passing, rst])
  | @tunnel s _ hlive =>
    refine moved_reset _ 0 [] rest htrace (by simp) hrest hothers ?_
    rw [← hold, hlive]
    exact .reset _ _ [] (by simp)
  | @reset s base code _ hfree hopens =>
    rw [hclosed] at hfree
    refine Moved.congr (d := base.resetWith sid code 0) ?_ rfl rfl
    obtain ⟨hlive, rfl⟩ | ⟨hgone, rfl, rfl⟩ := hopens
    · refine moved_reset code 0 [] rest htrace (by simp) hrest hothers ?_
      rw [← hold, hlive]
      exact .reset _ _ [] (by simp)
    · refine moved_reset code 0 [.opened sid] rest ?_ (by simp [Item.streamId?]) hrest
        (fun sid'' hne => ?_) ?_
      · simp [Core.openStream, htrace]
      · simp [Core.openStream, hne, hothers sid'' hne]
      · rw [← hold, hgone]
        exact .refuse code hblock hfree
  | @headers s s' base protocol hfree hopens hinitial hstate hvalid hlength hmatch hend hs =>
    rw [hclosed] at hfree
    rw [hrole] at hvalid hmatch hs
    have hnoted : c₁.noted sid s raw = c.noted sid s raw := by
      unfold Core.noted
      rw [hrole, hold]
    rw [hnoted] at hs
    have hput : base.streams.insert sid s' = c.streams.insert sid s' := by
      rw [(opens_base hopens).1, hstreams]
    obtain ⟨opened, hfinds, hopened, hbase⟩ : ∃ opened, Finds c sid s (c.stream? sid) opened ∧
        (∀ i ∈ opened, i.streamId? = some sid) ∧ base.trace = opened ++ (rest ++ c.trace) := by
      obtain ⟨hlive, rfl⟩ | ⟨hgone, rfl, rfl⟩ := hopens
      · exact ⟨[], .inl ⟨hold ▸ hlive, rfl⟩, by simp, htrace⟩
      · exact ⟨[.opened sid], .inr ⟨hold ▸ hgone, hnew, rfl⟩, by simp [Item.streamId?],
          by simp [Core.openStream, htrace]⟩
    let told : Item := .event (.headersReceived sid (concatenateCookies raw) endStream protocol)
    let e := (base.putStream sid s').log told
    refine Moved.congr (moved_put (d := e) s' (told :: opened) rest ?_ ?_ hrest hput ?_) rfl rfl
    · simp [e, hbase]
    · simpa [Item.streamId?, Event.lifeStream?, told] using hopened
    · exact .headers protocol hblock hfree hfinds hinitial hstate hvalid hlength hmatch hend hs
  | @trailers s state hfree hlive hinitial hend hvalid hstate =>
    rw [hclosed] at hfree
    obtain rfl := hend
    let s' : Stream := { s with state := state }
    let told : Item := .event (.trailersReceived sid (concatenateCookies raw))
    let e := (c₁.putStream sid s').log told
    refine Moved.congr (moved_put (d := e) s' [told] rest ?_ ?_ hrest ?_ ?_) rfl rfl
    · simp [e, htrace]
    · simp [Item.streamId?, Event.lifeStream?, told]
    · simp [e, hstreams, s']
    · rw [← hold, hlive]
      exact .trailers hblock hfree hinitial hvalid hstate rfl

/-- A frame for a stream that is gone. -/
theorem moved_gone {sid' : Nat} (i : Item) (rest : List Item) (hgone : c.stream? sid = none)
    (htrace : d.trace = i :: (rest ++ c.trace)) (hi : i.streamId? = some sid)
    (hrest : ∀ j ∈ rest, j.streamId? = none) (hpass : i.Passing) (hstreams : d.streams = c.streams) :
    Moved c l d sid' := by
  refine moved_one sid [i] rest htrace (by simpa using hi) hrest (by simp [hstreams]) ?_
  have hgone' : d.stream? sid = none := by rw [Core.stream?_eq, hstreams]; exact hgone
  rw [hgone, hgone']
  exact .pass _ (by simpa using hpass)

/-- No record is that of the connection. -/
theorem gone_zero (ht : Tidy c) : c.stream? 0 = none := by
  cases hlive : c.stream? 0 with
  | none => rfl
  | some s => exact absurd rfl (ht.streams 0 s hlive).1

theorem calm_moved (h : Calm c l d) (ht : Tidy c) {sid' : Nat} : Moved c l d sid' := by
  cases h with
  | receive f hinert =>
    by_cases hwindow : ∃ sid increment, f = .windowUpdate sid increment
    · obtain ⟨sid, increment, rfl⟩ := hwindow
      exact moved_gone (.received (.windowUpdate sid increment)) [] hinert.2 (by rfl) rfl
        (by simp) trivial (by rfl)
    · have hnone : (Item.received f).streamId? = none := by
        cases f <;> first | rfl | exact absurd ⟨_, _, rfl⟩ hwindow
      refine moved_same ?_ rfl
      simp [history_cons, hnone]
  | peerGoaway | activate | pong | discardData | reportData | beginBlock | extendBlock | announce
  | ping | goaway =>
    refine moved_same ?_ rfl
    simp [history_cons, Item.streamId?, Event.lifeStream?, Core.chargeRecv]
  | notify e he =>
    refine moved_same ?_ rfl
    have hnone : e.lifeStream? = none := by cases e <;> first | rfl | cases he
    simp [history_cons, Item.streamId?, hnone]
  | @refuseData s f code hlive =>
    refine moved_reset (d := (c.log (.received (.data f))).chargeRecv f.flowControlSize) code _ []
      [.received (.data f)] rfl (by simp) (by simp [Item.streamId?]) (fun _ _ => rfl) ?_
    rw [hlive]
    exact .reset code _ [] (by simp)
  | @deliverData s s' f hlive hconn hstream hstate hcontent hlength hs =>
    let told : Item := .event (.dataReceived f.streamId f.data f.endStream)
    let e := (((c.log (.received (.data f))).chargeRecv f.flowControlSize).putStream f.streamId s').log told
    refine moved_put (d := e) s' [told] [.received (.data f)] rfl
      (by simp [told, Item.streamId?, Event.lifeStream?]) (by simp [Item.streamId?]) rfl ?_
    rw [hlive]
    exact .deliver f rfl rfl hstream hstate hcontent hlength hs
  | @peerReset s sid code hlive =>
    let told : Item := .event (.streamReset sid (.fromU32 code) 0)
    refine moved_drop (d := (c.log (.received (.rstStream sid code))).log told) [told]
      [.received (.rstStream sid code)] rfl (by simp [told, Item.streamId?, Event.lifeStream?])
      (by simp [Item.streamId?]) (fun _ _ => rfl) ?_
    rw [hlive]
    exact .peerReset code rfl
  | @reset s sid code hlive =>
    refine moved_reset code 0 [] [] rfl (by simp) (by simp) (fun _ _ => rfl) ?_
    rw [hlive]
    exact .reset code _ [] (by simp)
  | resetGone sid code hgone =>
    exact moved_gone (.sent (.rstStream sid code.asU32)) [] hgone (by rfl) rfl (by simp) trivial
      (by rfl)
  | @reject s sid code _ hlive =>
    refine moved_reset (d := c.log (.rejected sid)) code 0 [] [.rejected sid] rfl (by simp)
      (by simp [Item.streamId?]) (fun _ _ => rfl) ?_
    rw [hlive]
    exact .reset code _ [] (by simp)
  | rejectGone sid code hgone =>
    exact moved_gone (.sent (.rstStream sid code.asU32)) [.rejected sid] hgone (by rfl) rfl
      (by simp [Item.streamId?]) trivial (by rfl)
  | @tunnel s header payload _ hlive =>
    refine moved_reset (d := c.log (.received (.unknown header payload))) _ 0 []
      [.received (.unknown header payload)] rfl (by simp) (by simp [Item.streamId?]) (fun _ _ => rfl) ?_
    rw [hlive]
    exact .reset _ _ [] (by simp)
  | @overflow s e sid increment _ hlive =>
    let cause : Item := .received (.windowUpdate sid increment)
    refine moved_reset (d := c.log cause) _ 0 [cause] [] rfl (by simp [cause, Item.streamId?]) (by simp)
      (fun _ _ => rfl) ?_
    rw [hlive]
    exact .reset _ _ [cause] (by simp [cause, Item.Passing])
  | wholeBlock f headers d hcont hadmits hlast hdecode houtcome =>
    exact outcome_moved [.decoded f.streamId headers, .received (.headers f)] houtcome
      (.whole f hcont hadmits hlast hdecode) rfl rfl rfl rfl rfl (by simp [Item.streamId?])
  | endBlock f headers d hcont hlast hdecode houtcome =>
    exact outcome_moved [.decoded f.streamId headers, .received (.continuation f)] houtcome
      (.last f hcont hlast hdecode) rfl rfl rfl rfl rfl (by simp [Item.streamId?])
  | credit _ increment =>
    exact moved_gone (.sent (.windowUpdate 0 increment)) [] (gone_zero ht) (by rfl) rfl (by simp) trivial
      (by rfl)
  | @creditStream s sid increment _ hlive hpos hmax =>
    refine moved_open _ [_] [] rfl (by simp [Item.streamId?]) (by simp) rfl ?_
    rw [hlive]
    exact .credit increment rfl hpos hmax
  | creditGone sid increment _ hgone =>
    exact moved_gone (.sent (.windowUpdate sid increment)) [] hgone (by rfl) rfl (by simp) trivial (by rfl)
  | @respond s s' sid headers endStream hlive htunnel hvalid hstate hempty hfinal hs =>
    obtain ⟨items, hitems, htrace⟩ := sendBlock_burst (c.putStream sid s') sid headers endStream
    refine moved_put s' items [] htrace (burst_about hitems) (by simp) (by simp) ?_
    rw [hlive]
    exact .respond rfl htunnel hvalid hstate hempty hfinal hs hitems
  | @trail s state sid headers hlive htunnel hvalid hstate hempty hfinal =>
    let s' : Stream := { s with state := state }
    obtain ⟨items, hitems, htrace⟩ := sendBlock_burst (c.putStream sid s') sid headers true
    refine moved_put s' items [] htrace (burst_about hitems) (by simp) (by simp [s']) ?_
    rw [hlive]
    exact .trail rfl htunnel hvalid hstate hempty hfinal rfl hitems

theorem wake_moved {f : Frame} {S : Nat → Prop} (h : Wake c f S d) (ht : Tidy c) {sid' : Nat} :
    Moved c (.frame f) d sid' := by
  cases h with
  | update increment =>
    exact moved_gone (.received (.windowUpdate 0 increment)) [] (gone_zero ht) (by rfl) rfl (by simp)
      trivial (by rfl)
  | @updateStream s sid increment _ hlive hmax =>
    refine moved_open _ [_] [] rfl (by simp [Item.streamId?]) (by simp) rfl ?_
    rw [hlive]
    exact .update increment rfl hmax
  | settings f streams hack hstreams =>
    obtain ⟨_, rfl⟩ | ⟨_, hmap⟩ := hstreams
    · refine moved_same ?_ rfl
      simp [history_cons, Item.streamId?]
    · refine ⟨[], by simp [history_cons, Item.streamId?], ?_⟩
      obtain ⟨hold, hnew⟩ | ⟨s, fc, hold, hflow, hnew⟩ := hmap sid'
      · simp only [Core.stream?_eq, Core.log_streams, Core.applyRemote_streams, hold, hnew]
        exact .rest none
      · simp only [Core.stream?_eq, Core.log_streams, Core.applyRemote_streams, hold, hnew]
        exact .retune f rfl hflow

theorem emit_moved (h : Emit c d) {sid' : Nat} : Moved c .flush d sid' := by
  cases h with
  | @chunk s sid data rest hlive hbuffer hdata hconn hstream hframe hmore =>
    refine moved_open _ [_] [] rfl (by simp [Item.streamId?]) (by simp) rfl ?_
    rw [hlive]
    exact .chunk data rest rfl hbuffer hdata hconn hstream hframe hmore
  | @last s state sid hlive hdata hpending hconn hstream hframe hstate =>
    let s' : Stream := { s with
      sendBuffer := []
      pendingEndStream := false
      state := state
      flowControl := s.flowControl.addSend (-s.sendBuffer.length) }
    let told : Item := .sent (.data ⟨sid, true, s.sendBuffer, none⟩)
    let e := ((c.chargeSend s.sendBuffer.length).putStream sid s').log told
    refine moved_put (d := e) s' [told] [] rfl (by simp [told, Item.streamId?]) (by simp) rfl ?_
    rw [hlive]
    exact .last rfl hdata hpending hconn hstream hframe hstate rfl

theorem start_moved {headers : List HeaderField} {endStream : Bool} (h : Start c headers endStream d)
    {sid' : Nat} : Moved c (.api (.startStream headers endStream)) d sid' := by
  cases h with
  | request s hrole hgoaway hmax hvalid hstate hs =>
    let base := Core.openStream { c with nextStreamId := c.nextStreamId + 2 } c.nextStreamId s
    obtain ⟨items, hitems, htrace⟩ := sendBlock_burst base c.nextStreamId headers endStream
    have hlive : (base.sendBlock c.nextStreamId headers endStream).stream? c.nextStreamId = some s :=
      (congrArg _ (Core.sendBlock_streams ..)).trans (AList.lookup_insert _)
    refine moved_one c.nextStreamId (items ++ [.opened c.nextStreamId]) [] ?_ ?_ (by simp) ?_ ?_
    · rw [htrace, List.append_assoc]
      rfl
    · intro i hi
      obtain hi | hi := List.mem_append.1 hi
      · exact burst_about hitems i hi
      · obtain rfl := List.mem_singleton.1 hi
        rfl
    · intro sid' hne
      simp [Core.openStream, hne]
    · rw [hlive]
      exact .request rfl rfl hrole hgoaway hmax hvalid hstate hs hitems

theorem push_moved {sid : Nat} {data : Bytes} {endStream : Bool} (h : Push c sid data endStream d)
    {sid' : Nat} : Moved c (.api (.sendData sid data endStream)) d sid' := by
  cases h with
  | @queue s _ _ hlive hpending hcan hsome =>
    refine moved_open _ [_] [] rfl (by simp [Item.streamId?]) (by simp) rfl ?_
    rw [hlive]
    exact .queue data endStream rfl hpending hcan hsome
  | @emptyEnd s state hlive hpending hempty hstate =>
    let s' : Stream := { s with state := state }
    let told : Item := .sent (.data ⟨sid, true, [], none⟩)
    let e := ((c.log (.queued sid [])).putStream sid s').log told
    refine moved_put (d := e) s' [told, .queued sid []] [] rfl (by simp [told, Item.streamId?]) (by simp)
      rfl ?_
    rw [hlive]
    exact .emptyEnd rfl hpending hempty hstate rfl

theorem Step.moved (h : Step c l d) (ht : Tidy c) (sid' : Nat) : Moved c l d sid' := by
  cases h with
  | calm h => exact calm_moved h ht
  | wake h => exact wake_moved h ht
  | emit h => exact emit_moved h
  | start h => exact start_moved h
  | push h => exact push_moved h

theorem received_passing (f : Frame) (sid : Nat) : ∀ i ∈ history sid [.received f], i.Passing := by
  intro i hi
  rw [history_cons] at hi
  split at hi
  · obtain rfl := List.mem_singleton.1 hi
    cases f with
    | windowUpdate => trivial
    | _ => simp_all [Item.streamId?]
  · cases hi

theorem fault_stalls {e : Error} (h : Fault c e l d) (sid' : Nat) :
    ∃ new, history sid' d.trace = new ++ history sid' c.trace ∧
      Stalls (c.stream? sid') new (d.stream? sid') := by
  have hsame : ∀ items : List Item, (∀ i ∈ items, i.Passing) → d.streams = c.streams →
      Stalls (c.stream? sid') items (d.stream? sid') := by
    intro items hitems hstreams
    rw [Core.stream?_eq, Core.stream?_eq, hstreams]
    cases c.streams.lookup sid' with
    | none => exact .gone items hitems
    | some s => exact .windows s.flowControl items hitems
  have hreceived : ∀ f : Frame, d.trace = .received f :: c.trace →
      history sid' d.trace = history sid' [.received f] ++ history sid' c.trace := by
    intro f htrace
    rw [htrace, ← history_append, List.singleton_append]
  cases h with
  | decoder => exact ⟨[], rfl, hsame [] (by simp) rfl⟩
  | refused f => exact ⟨_, hreceived _ rfl, hsame _ (received_passing f sid') rfl⟩
  | settings f remote pending streams _ hstreams =>
    refine ⟨_, hreceived _ rfl, ?_⟩
    obtain ⟨hold, hnew⟩ | ⟨s, fc, hold, hnew⟩ := hstreams sid'
    · simp only [Core.stream?_eq, Core.log_streams, hold, hnew]
      exact .gone _ (received_passing _ sid')
    · simp only [Core.stream?_eq, Core.log_streams, hold, hnew]
      exact .windows fc _ (received_passing _ sid')
  | badBlock | badLast | longBlock | longNext =>
    exact ⟨_, hreceived _ rfl, hsame _ (received_passing _ sid') rfl⟩

/-- What any transition or failure does to a stream. -/
theorem Change.moved (h : Change c l d) (ht : Tidy c) (sid' : Nat) :
    ∃ new, history sid' d.trace = new ++ history sid' c.trace ∧
      (Moves c l sid' (c.stream? sid') new (d.stream? sid') ∨
        Stalls (c.stream? sid') new (d.stream? sid')) := by
  cases h with
  | step h =>
    obtain ⟨new, hnew, hmoves⟩ := h.moved ht sid'
    exact ⟨new, hnew, .inl hmoves⟩
  | fault h =>
    obtain ⟨new, hnew, hstalls⟩ := fault_stalls h sid'
    exact ⟨new, hnew, .inr hstalls⟩

end

end Http2
