import Http2.Connection.Admission
import Http2.Connection.Progress
import Http2.Validation.Section

/-! The order in which a server sends header sections and data on a stream. -/
namespace Http2

open Hpack Lib Lib.Prog Connection

namespace Response

/-- A header section or a DATA frame, with its END_STREAM flag. -/
inductive Piece
  | headers (fields : List HeaderField) (endStream : Bool)
  | data (endStream : Bool)
  deriving DecidableEq, Repr

/-- What one item adds; HEADERS without a list that was encoded for it has none. -/
def piece (sid : Nat) : Item → List Piece
  | .sent (.headers f) => if f.streamId = sid then [.headers [] f.endStream] else []
  | .sent (.data f) => if f.streamId = sid then [.data f.endStream] else []
  | _ => []

/-- What was sent on a stream, in order. A header list is encoded right before its HEADERS. -/
def pieces (sid : Nat) : List Item → List Piece
  | [] => []
  | .sent (.headers f) :: .encoded _ fields :: earlier =>
    pieces sid earlier ++ if f.streamId = sid then [.headers fields f.endStream] else []
  | i :: earlier => pieces sid earlier ++ piece sid i

/-- A status of three digits that is not 1xx. -/
def FinalStatus (fields : List HeaderField) : Prop :=
  (findValue fields ":status").isSome = true ∧ isInformational fields = false

/-- Interim responses only. -/
def Early (ps : List Piece) : Prop :=
  ∀ p ∈ ps, ∃ fields, p = .headers fields false ∧ isInformational fields = true

/-- Interim responses, the final one, and data. -/
def Body (ps : List Piece) : Prop :=
  ∃ interim fields endStream datas, ps = interim ++ .headers fields endStream :: datas ∧
    Early interim ∧ FinalStatus fields ∧ ∀ p ∈ datas, ∃ endStream, p = .data endStream

/-- All of it, and trailers. -/
def Ended (ps : List Piece) : Prop :=
  ∃ body fields, ps = body ++ [.headers fields true] ∧ Body body ∧
    ∀ f ∈ fields, isPseudo f.name = false

def Grammatical (ps : List Piece) : Prop := Early ps ∨ Body ps ∨ Ended ps

/-- `send_response` lets a 1xx response pass on the stream. -/
structure Interim (c : Core) (s : Stream) (headers : List HeaderField) (endStream : Bool) : Prop where
  informational : isInformational headers = true
  more : endStream = false
  valid : validateResponseHeaders headers = .ok ()
  tunnel : s.connectEstablished = false
  state : (s.state.sendHeaders endStream).isOk = true
  size : c.remoteSettings.maxHeaderListSize.all (calculateHeaderListSize headers ≤ ·.toNat) = true

/-- `send_data` takes something for the stream: data, or its end. -/
structure Accepts (s : Stream) (data : Bytes) (endStream : Bool) : Prop where
  some : data ≠ [] ∨ endStream = true
  pending : s.pendingEndStream = false
  state : s.state.canSend = true
  room : s.sendBuffer.canPush data.length = true

/-- The final response was sent on the stream, or nothing that is queued can leave. -/
def Held (window : Int) (s : Stream) : Prop :=
  s.finalResponseSent = true ∨ s.sendBuffer = [] ∨ window ≤ 0 ∨ s.flowControl.sendWindow ≤ 0

/-- A window that is opened lets no data of a stream leave that has no final response. -/
def Opens (c : Core) (sid increment : Nat) : Prop :=
  if sid = 0 then
    c.flowControl.sendWindow + increment ≤ maxWindowSize →
      ∀ e ∈ c.streams.entries, Held (c.flowControl.sendWindow + increment) e.2
  else
    ∀ s ∈ c.stream? sid, s.flowControl.sendWindow + increment ≤ maxWindowSize →
      Held c.flowControl.sendWindow { s with flowControl := s.flowControl.addSend increment }

/-- Neither does a new size of the windows. -/
def Retunes (c : Core) (settings : List Setting) : Prop :=
  ∀ e ∈ c.streams.entries, ∀ fc ∈ (e.2.flowControl.updateInitialWindowSize
    (settings.foldl Settings.apply c.remoteSettings).initialWindowSize).toOption,
      Held c.flowControl.sendWindow { e.2 with flowControl := fc }

/-- Data leaves after the final response, whenever it was queued, and interim responses leave before
it. A block that is taken does not end for a stream that was answered before and is no longer
remembered. -/
def terms : Terms where
  frame c f :=
    match f with
    | .continuation f => c.Takes (.continuation f) → f.endHeaders = true →
        c.Used f.streamId ∨ pieces f.streamId c.trace = []
    | .windowUpdate sid increment => c.Takes (.windowUpdate sid increment) → Opens c sid increment
    | .settings f => c.Takes (.settings f) → f.ack = false → Retunes c f.settings
    | _ => True
  refusal _ _ := True
  api c k :=
    match k with
    | .sendResponse sid headers endStream =>
        ∀ s ∈ c.stream? sid, Interim c s headers endStream → s.finalResponseSent = false
    | .sendData sid data endStream =>
        ∀ s ∈ c.stream? sid, Accepts s data endStream → s.finalResponseSent = true ∨
          s.sendBuffer ++ data ≠ [] ∧
            (c.flowControl.sendWindow ≤ 0 ∨ s.flowControl.sendWindow ≤ 0)
    | _ => True

instance (window : Int) (s : Stream) : Decidable (Held window s) :=
  inferInstanceAs (Decidable (_ ∨ _ ∨ _ ∨ _))

instance (c : Core) (sid increment : Nat) : Decidable (Opens c sid increment) := by
  unfold Opens
  infer_instance

instance (c : Core) (settings : List Setting) : Decidable (Retunes c settings) := by
  unfold Retunes
  infer_instance

instance (c : Core) (s : Stream) (headers : List HeaderField) (endStream : Bool) :
    Decidable (Interim c s headers endStream) :=
  decidable_of_iff (isInformational headers = true ∧ endStream = false ∧
    validateResponseHeaders headers = .ok () ∧ s.connectEstablished = false ∧
    (s.state.sendHeaders endStream).isOk = true ∧
    c.remoteSettings.maxHeaderListSize.all (calculateHeaderListSize headers ≤ ·.toNat) = true)
    ⟨fun ⟨h₁, h₂, h₃, h₄, h₅, h₆⟩ => ⟨h₁, h₂, h₃, h₄, h₅, h₆⟩,
      fun ⟨h₁, h₂, h₃, h₄, h₅, h₆⟩ => ⟨h₁, h₂, h₃, h₄, h₅, h₆⟩⟩

instance (s : Stream) (data : Bytes) (endStream : Bool) : Decidable (Accepts s data endStream) :=
  decidable_of_iff ((data ≠ [] ∨ endStream = true) ∧ s.pendingEndStream = false ∧
    s.state.canSend = true ∧ s.sendBuffer.canPush data.length = true)
    ⟨fun ⟨h₁, h₂, h₃, h₄⟩ => ⟨h₁, h₂, h₃, h₄⟩, fun ⟨h₁, h₂, h₃, h₄⟩ => ⟨h₁, h₂, h₃, h₄⟩⟩

instance (c : Core) : (f : Frame) → Decidable (terms.frame c f)
  | .continuation f => inferInstanceAs (Decidable (c.Takes (.continuation f) → f.endHeaders = true →
      _ ∨ _))
  | .windowUpdate sid increment => inferInstanceAs (Decidable (c.Takes (.windowUpdate sid increment) →
      Opens c sid increment))
  | .settings f => inferInstanceAs (Decidable (c.Takes (.settings f) → f.ack = false →
      Retunes c f.settings))
  | .data _ | .headers _ | .priority _ _ | .rstStream _ _ | .pushPromise _ | .ping _ _
  | .goaway _ | .priorityUpdate _ _ | .unknown _ _ => inferInstanceAs (Decidable True)

instance (c : Core) (sid : Nat) : Decidable (terms.refusal c sid) := inferInstanceAs (Decidable True)

instance (c : Core) : (k : Call) → Decidable (terms.api c k)
  | .sendResponse sid headers endStream => inferInstanceAs (Decidable (∀ s ∈ c.stream? sid,
      Interim c s headers endStream → s.finalResponseSent = false))
  | .sendData sid data endStream => inferInstanceAs (Decidable (∀ s ∈ c.stream? sid,
      Accepts s data endStream → s.finalResponseSent = true ∨ s.sendBuffer ++ data ≠ [] ∧
        (c.flowControl.sendWindow ≤ 0 ∨ s.flowControl.sendWindow ≤ 0)))
  | .initiate | .feed _ | .markPrefaceReceived | .markPrefaceSent | .sendSettings | .process _
  | .pollEvent | .pollOutput | .startStream _ _ | .sendTrailers _ _ | .resetStream _ _ | .sendPing _
  | .sendGoaway _ _ | .sendWindowUpdate _ _ => inferInstanceAs (Decidable True)

/-! ## Pieces of a history -/

theorem pieces_cons {sid : Nat} {i : Item} {trace : List Item} (h : ∀ f, i ≠ .sent (.headers f)) :
    pieces sid (i :: trace) = pieces sid trace ++ piece sid i := by
  rw [pieces.eq_def]
  split
  · rename_i heq
    cases heq
  · rename_i heq
    obtain ⟨rfl, _⟩ := List.cons.inj heq
    exact absurd rfl (h _)
  · rename_i heq
    obtain ⟨rfl, rfl⟩ := List.cons.inj heq
    rfl

/-- Items that are neither HEADERS nor DATA add nothing. -/
theorem pieces_append {sid : Nat} {new trace : List Item}
    (h : ∀ i ∈ new, (∀ f, i ≠ .sent (.headers f)) ∧ ∀ f, i ≠ .sent (.data f)) :
    pieces sid (new ++ trace) = pieces sid trace := by
  induction new with
  | nil => rfl
  | cons i new ih =>
    obtain ⟨⟨hheaders, hdata⟩, hnew⟩ := List.forall_mem_cons.1 h
    have hnone : piece sid i = [] := by
      unfold piece
      split
      · exact absurd rfl (hheaders _)
      · exact absurd rfl (hdata _)
      · rfl
    rw [List.cons_append, pieces_cons hheaders, hnone, List.append_nil, ih hnew]

theorem pieces_block {c : Core} {sid sid' : Nat} {fields : List HeaderField} {endStream : Bool} :
    pieces sid (c.sendBlock sid' fields endStream).trace =
      pieces sid c.trace ++ if sid' = sid then [.headers fields endStream] else [] := by
  obtain ⟨f, fs, rfl, rfl, hfs, htrace⟩ := sendBlock_trace c sid' fields endStream
  rw [htrace, pieces_append]
  · rfl
  · intro i hi
    obtain ⟨g, hg, rfl⟩ := List.mem_map.1 (List.mem_reverse.1 hi)
    obtain ⟨cf, rfl, _⟩ := hfs g hg
    exact ⟨by simp, by simp⟩

theorem pieces_closeIf {c : Core} {sid sid' : Nat} {closed : Bool} :
    pieces sid (c.closeIf sid' closed).trace = pieces sid c.trace := by
  unfold Core.closeIf
  split
  · have hone : ∀ i ∈ [Item.event (.streamClosed sid')],
        (∀ f, i ≠ .sent (.headers f)) ∧ ∀ f, i ≠ .sent (.data f) := by simp
    exact pieces_append hone
  · rfl

/-! ## The grammar -/

theorem Early.snoc {ps : List Piece} (h : Early ps) {fields : List HeaderField}
    (hinfo : isInformational fields = true) : Early (ps ++ [.headers fields false]) := by
  intro p hp
  obtain hp | hp := List.mem_append.1 hp
  · exact h p hp
  · exact ⟨fields, List.mem_singleton.1 hp, hinfo⟩

theorem Early.body {ps : List Piece} (h : Early ps) {fields : List HeaderField} {endStream : Bool}
    (hfinal : FinalStatus fields) : Body (ps ++ [.headers fields endStream]) :=
  ⟨ps, fields, endStream, [], rfl, h, hfinal, by simp⟩

theorem Body.snoc {ps : List Piece} (h : Body ps) (endStream : Bool) : Body (ps ++ [.data endStream]) := by
  obtain ⟨interim, fields, endStream', datas, rfl, hearly, hfinal, hdatas⟩ := h
  refine ⟨interim, fields, endStream', datas ++ [.data endStream], by simp, hearly, hfinal, fun p hp => ?_⟩
  obtain hp | hp := List.mem_append.1 hp
  · exact hdatas p hp
  · exact ⟨endStream, List.mem_singleton.1 hp⟩

theorem finalStatus {fields : List HeaderField} (h : validateResponseHeaders fields = .ok ())
    (hinfo : isInformational fields = false) : FinalStatus fields := by
  obtain ⟨f, hf, hname⟩ := response_status h
  refine ⟨?_, hinfo⟩
  simp only [findValue, Option.isSome_map, List.find?_isSome]
  exact ⟨f, hf, by simp [hname]⟩

/-- How far a live stream is. -/
structure Stage (s : Stream) (ps : List Piece) : Prop where
  early : s.finalResponseSent = false → Early ps
  body : s.finalResponseSent = true → s.state.canSend = true → Body ps

theorem Stage.same {s s' : Stream} {ps : List Piece} (h : Stage s ps) (hsame : s.SameOutput s') :
    Stage s' ps where
  early := by
    rw [hsame.finalResponseSent]
    exact h.early
  body := by
    rw [hsame.finalResponseSent, hsame.canSend]
    exact h.body

theorem Held.same {window : Int} {s s' : Stream} (h : Held window s) (hsame : s.SameSend s') :
    Held window s' := by
  unfold Held
  rw [hsame.finalResponseSent, hsame.sendBuffer, hsame.sendWindow]
  exact h

theorem Held.mono {window window' : Int} {s : Stream} (h : Held window s) (hle : window' ≤ window) :
    Held window' s := by
  obtain hfinal | hempty | hconn | hstream := h
  · exact .inl hfinal
  · exact .inr (.inl hempty)
  · exact .inr (.inr (.inl (hle.trans hconn)))
  · exact .inr (.inr (.inr hstream))

/-- A stream whose data leaves has sent its final response. -/
theorem Held.final {window : Int} {s : Stream} {data : Bytes} (h : Held window s)
    (hbuffer : s.sendBuffer ≠ []) (hdata : data ≠ []) (hconn : (data.length : Int) ≤ window)
    (hstream : (data.length : Int) ≤ s.flowControl.sendWindow) : s.finalResponseSent = true := by
  have hpos : 0 < data.length := List.length_pos_iff.2 hdata
  obtain hfinal | hempty | hblocked | hblocked := h
  · exact hfinal
  · exact absurd hempty hbuffer
  · omega
  · omega

/-- What holds of a server. -/
structure Orderly (c : Core) : Prop where
  role : c.role = .server
  below : ∀ sid s, c.stream? sid = some s → sid ≤ c.lastRecvStreamId
  sent : ∀ sid, pieces sid c.trace ≠ [] → sid ≤ c.lastRecvStreamId
  live : ∀ sid s, c.stream? sid = some s → Stage s (pieces sid c.trace)
  held : ∀ sid s, c.stream? sid = some s → Held c.flowControl.sendWindow s
  all : ∀ sid, Grammatical (pieces sid c.trace)

/-- A transition that sends on one stream, or queues data for it. -/
theorem Orderly.send {c d : Core} {sid : Nat} {s : Stream} (h : Orderly c)
    (hold : c.stream? sid = some s) (hstatus : d.status = c.status) (hnear : Near c d sid)
    (hwindow : d.flowControl.sendWindow ≤ c.flowControl.sendWindow) (added : List Piece)
    (hpieces : ∀ sid', pieces sid' d.trace = pieces sid' c.trace ++ if sid = sid' then added else [])
    (hstage : ∀ s', d.stream? sid = some s' →
      Stage s' (pieces sid c.trace ++ added) ∧ Held d.flowControl.sendWindow s')
    (hgrammar : Grammatical (pieces sid c.trace ++ added)) : Orderly d := by
  have hlast : d.lastRecvStreamId = c.lastRecvStreamId := congrArg Status.lastRecvStreamId hstatus
  have hsame : ∀ sid' ≠ sid, pieces sid' d.trace = pieces sid' c.trace := by
    intro sid' hne
    rw [hpieces, if_neg (Ne.symm hne), List.append_nil]
  have hself : pieces sid d.trace = pieces sid c.trace ++ added := by rw [hpieces, if_pos rfl]
  refine ⟨(congrArg Status.role hstatus).trans h.role, fun sid' s' hlive => ?_, fun sid' hsent => ?_,
    fun sid' s' hlive => ?_, fun sid' s' hlive => ?_, fun sid' => ?_⟩
  · rw [hlast]
    by_cases heq : sid' = sid
    · exact heq ▸ h.below sid s hold
    · exact h.below sid' s' (by rw [Core.stream?_eq, ← hnear.others sid' heq]; exact hlive)
  · rw [hlast]
    by_cases heq : sid' = sid
    · exact heq ▸ h.below sid s hold
    · exact h.sent sid' (hsame sid' heq ▸ hsent)
  · by_cases heq : sid' = sid
    · subst heq
      rw [hself]
      exact (hstage s' hlive).1
    · rw [hsame sid' heq]
      exact h.live sid' s' (by rw [Core.stream?_eq, ← hnear.others sid' heq]; exact hlive)
  · by_cases heq : sid' = sid
    · exact (hstage s' (heq ▸ hlive)).2
    · have hother : c.stream? sid' = some s' := by
        rw [Core.stream?_eq, ← hnear.others sid' heq]
        exact hlive
      exact (h.held sid' s' hother).mono hwindow
  · by_cases heq : sid' = sid
    · subst heq
      rw [hself]
      exact hgrammar
    · rw [hsame sid' heq]
      exact h.all sid'

/-- A header section leaves. -/
theorem Orderly.section {c : Core} {sid : Nat} {s : Stream} {fields : List HeaderField}
    {endStream : Bool} (h : Orderly c) (s' : Stream) (hold : c.stream? sid = some s)
    (hheld : Held c.flowControl.sendWindow s')
    (hstage : s'.state.isClosed = false → Stage s' (pieces sid c.trace ++ [.headers fields endStream]))
    (hgrammar : Grammatical (pieces sid c.trace ++ [.headers fields endStream])) :
    Orderly (((c.putStream sid s').sendBlock sid fields endStream).closeIf sid s'.state.isClosed) := by
  have hnear : Near c (((c.putStream sid s').sendBlock sid fields endStream).closeIf sid
      s'.state.isClosed) sid := Near.putClose (s := s') (by simp) (by simp) _
  have hflow : (((c.putStream sid s').sendBlock sid fields endStream).closeIf sid
      s'.state.isClosed).flowControl = c.flowControl := by
    rw [Core.closeIf_flowControl, sendBlock_flowControl]
    rfl
  refine h.send hold (by simp) hnear (by rw [hflow]) [.headers fields endStream] (fun sid' => ?_)
    (fun t hlive => ?_) hgrammar
  · rw [pieces_closeIf, pieces_block]
    rfl
  · rw [Core.stream?_eq, Core.closeIf_lookup] at hlive
    split at hlive
    · cases hlive
    · rename_i hopen
      obtain rfl : s' = t := by simpa using hlive
      rw [hflow]
      exact ⟨hstage (by simpa using hopen), hheld⟩

/-- Data leaves, and with it END_STREAM or not. -/
theorem Orderly.data {c d : Core} {sid : Nat} {s : Stream} {f : DataFrame} (h : Orderly c)
    (s' : Stream) (hold : c.stream? sid = some s) (hsid : f.streamId = sid) (hstatus : d.status = c.status)
    (hstreams : d.streams = c.streams.insert sid s') (hclosed : d.closedStreams = c.closedStreams)
    (hwindow : d.flowControl.sendWindow ≤ c.flowControl.sendWindow)
    (htrace : ∀ sid', pieces sid' d.trace = pieces sid' c.trace)
    (hbody : Body (pieces sid c.trace)) (hfinal : s'.finalResponseSent = true) :
    Orderly ((d.log (.sent (.data f))).closeIf sid s'.state.isClosed) := by
  have hnear : Near c ((d.log (.sent (.data f))).closeIf sid s'.state.isClosed) sid :=
    Near.putClose (d := d.log (.sent (.data f))) (s := s') hstreams hclosed _
  refine h.send hold (by simpa using hstatus) hnear (by rw [Core.closeIf_flowControl]; exact hwindow)
    [.data f.endStream] (fun sid' => ?_) (fun t hlive => ?_) (.inr (.inl (hbody.snoc _)))
  · rw [pieces_closeIf, Core.log_trace, pieces_cons (by simp), htrace, ← hsid]
    rfl
  · rw [Core.stream?_eq, Core.closeIf_lookup] at hlive
    split at hlive
    · cases hlive
    · obtain rfl : s' = t := by simpa [hstreams] using hlive
      exact ⟨⟨fun hnot => absurd (hfinal.symm.trans hnot) (by simp), fun _ _ => hbody.snoc _⟩,
        .inl hfinal⟩

/-! ## Transitions -/

theorem sendHeaders_canSend {s s' : StreamState} (h : s.sendHeaders true = .ok s') :
    s'.canSend = false := by
  cases s <;> simp [StreamState.sendHeaders] at h <;> subst h <;> rfl

theorem Stream.Tidy.sends {s : Stream} {state : StreamState} {endStream : Bool} (h : s.Tidy)
    (hstate : s.state.sendHeaders endStream = .ok state) : s.state.canSend = true := by
  obtain heq | heq | heq := h.state <;> simp [heq, StreamState.sendHeaders] at hstate <;>
    simp [heq, StreamState.canSend]

/-- A stream that a frame creates was not answered before. -/
theorem Orderly.fresh {c : Core} {l : Label} {sid : Nat} (h : Orderly c)
    (hl : terms.taken.Meets c l)
    (hbegins : Begins c l sid) (hnone : c.stream? sid = none) : pieces sid c.trace = [] := by
  by_contra hsent
  have hle := h.sent sid hsent
  cases hbegins with
  | request _ _ hrole => cases h.role.symm.trans hrole
  | whole f _ hadmits _ hclosed =>
    obtain hin | hlive | ⟨hlt, _⟩ := hadmits.2
    · cases hclosed.symm.trans hin
    · simp [hnone] at hlive
    · omega
  | last f _ hlast hclosed =>
    obtain (hlive | hin) | hnew := hl.2 hl.1 hlast
    · simp [hnone] at hlive
    · cases hclosed.symm.trans hin
    · exact hsent hnew

theorem calm_respond {c d : Core} {sid : Nat} {headers : List HeaderField} {endStream : Bool}
    (h : Orderly c) (hl : terms.taken.Meets c (.api (.sendResponse sid headers endStream)))
    (hcalm : Calm c (.api (.sendResponse sid headers endStream)) d) : Orderly d := by
  cases hcalm with
  | announce _ hk => obtain hk | hk := hk <;> cases hk
  | credit _ _ hk => obtain hk | hk := hk <;> cases hk
  | @respond s s' _ _ _ hold htunnel hvalid hstate hempty hfinal hs hsize =>
    have hstage := h.live sid s hold
    obtain ⟨hinfo, rfl⟩ | ⟨hinfo, hnot⟩ := hfinal
    · have hnot := hl.2 s hold ⟨hinfo, rfl, hvalid, htunnel, by rw [hstate]; rfl, hsize⟩
      have hearly := (hstage.early hnot).snoc hinfo
      have hheld : Held c.flowControl.sendWindow s' := by
        rw [hs]
        simpa [Held, responseStream, hinfo] using h.held sid s hold
      refine h.section s' hold hheld (fun _ => ⟨fun _ => hearly, fun hsent => ?_⟩) (.inl hearly)
      rw [hs] at hsent
      simp [responseStream, hnot, hinfo] at hsent
    · have hbody : Body (pieces sid c.trace ++ [.headers headers endStream]) :=
        (hstage.early hnot).body (finalStatus hvalid hinfo)
      have hsent : s'.finalResponseSent = true := by
        rw [hs]
        simp [responseStream, hinfo]
      refine h.section s' hold (.inl hsent) (fun _ => ⟨fun hnot => ?_, fun _ _ => hbody⟩)
        (.inr (.inl hbody))
      cases hsent.symm.trans hnot

theorem calm_trail {c d : Core} {sid : Nat} {headers : List HeaderField} (h : Orderly c) (ht : Tidy c)
    (hcalm : Calm c (.api (.sendTrailers sid headers)) d) : Orderly d := by
  cases hcalm with
  | announce _ hk => obtain hk | hk := hk <;> cases hk
  | credit _ _ hk => obtain hk | hk := hk <;> cases hk
  | @trail s state _ _ hold _ hvalid hstate hempty hfinal =>
    have hsent : s.finalResponseSent = true := by
      obtain hrole | hsent := hfinal
      · cases h.role.symm.trans hrole
      · exact hsent
    have hcan := Stream.Tidy.sends (ht.streams sid s hold).2 hstate
    have hbody := (h.live sid s hold).body hsent hcan
    refine h.section { s with state := state } hold (.inl hsent)
      (fun _ => ⟨fun hnot => ?_, fun _ hcan' => ?_⟩) ?_
    · cases hsent.symm.trans hnot
    · cases (sendHeaders_canSend hstate).symm.trans hcan'
    · exact .inr (.inr ⟨_, headers, rfl, hbody, (trailers_section hvalid).regular⟩)

/-- Data that leaves takes from the window of the connection. -/
theorem charged_le {c : Core} (n : Nat) :
    (c.chargeSend n).flowControl.sendWindow ≤ c.flowControl.sendWindow := by
  show c.flowControl.sendWindow + -(n : Int) ≤ c.flowControl.sendWindow
  omega

theorem emit_orderly {c d : Core} (h : Orderly c) (ht : Tidy c) (hemit : Emit c d) : Orderly d := by
  cases hemit with
  | @chunk s sid data rest hold hbuffer hdata hconn hstream =>
    obtain ⟨_, htidy⟩ := ht.streams sid s hold
    have hne : s.sendBuffer ≠ [] := by simp [hbuffer, hdata]
    have hfinal := (h.held sid s hold).final hne hdata hconn hstream
    have hbody := (h.live sid s hold).body hfinal (htidy.queued hne)
    have hopen : s.state.isClosed = false := htidy.notClosed
    let s' : Stream := { s with
      sendBuffer := rest
      flowControl := s.flowControl.addSend (-data.length) }
    have horderly := h.data (f := ⟨sid, false, data, none⟩)
      (d := (c.chargeSend data.length).putStream sid s') s' hold rfl rfl rfl rfl
      (charged_le data.length) (fun _ => rfl) hbody hfinal
    simpa [Core.closeIf, s', hopen] using horderly
  | @last s state sid hold hne hpending hconn hstream _ hstate =>
    obtain ⟨_, htidy⟩ := ht.streams sid s hold
    have hfinal := (h.held sid s hold).final hne hne hconn hstream
    have hbody := (h.live sid s hold).body hfinal (htidy.queued hne)
    let s' : Stream := { s with
      sendBuffer := []
      pendingEndStream := false
      state := state
      flowControl := s.flowControl.addSend (-s.sendBuffer.length) }
    exact h.data (f := ⟨sid, true, s.sendBuffer, none⟩)
      (d := (c.chargeSend s.sendBuffer.length).putStream sid s') s' hold rfl rfl rfl rfl
      (charged_le s.sendBuffer.length) (fun _ => rfl) hbody hfinal

theorem push_orderly {c d : Core} {sid : Nat} {data : Bytes} {endStream : Bool} (h : Orderly c)
    (hl : terms.taken.Meets c (.api (.sendData sid data endStream)))
    (hpush : Push c sid data endStream d) : Orderly d := by
  cases hpush with
  | @queue s _ _ hold hpending hcan _ hroom =>
    have hstage := h.live sid s hold
    have hpieces : ∀ sid', pieces sid' (.queued sid data :: c.trace) = pieces sid' c.trace :=
      fun sid' => (pieces_cons (by simp)).trans (List.append_nil _)
    refine h.send hold rfl (Near.put rfl rfl) le_rfl [] (fun sid' => ?_) (fun s' hlive => ?_) ?_
    · simpa using hpieces sid'
    · obtain rfl : { s with sendBuffer := s.sendBuffer ++ data, pendingEndStream := endStream } = s' := by
        simpa using hlive
      rw [List.append_nil]
      refine ⟨⟨hstage.early, hstage.body⟩, ?_⟩
      by_cases hsome : data ≠ [] ∨ endStream = true
      · obtain hsent | ⟨_, hblocked⟩ := hl.2 s hold ⟨hsome, hpending, hcan, hroom⟩
        · exact .inl hsent
        · exact .inr (.inr hblocked)
      · -- Nothing was queued.
        obtain rfl : data = [] := not_not.1 (not_or.1 hsome).1
        have hheld := h.held sid s hold
        simpa [Held] using hheld
    · simpa using h.all sid
  | @emptyEnd s state hold hpending hempty hstate =>
    have hcan : s.state.canSend = true := by
      obtain ⟨heq, _⟩ | ⟨heq, _⟩ := completeSendData_cases hstate <;> simp [heq, StreamState.canSend]
    have hroom : s.sendBuffer.canPush ([] : Bytes).length = true := by
      rw [hempty]
      rfl
    have hfinal : s.finalResponseSent = true := by
      obtain hsent | ⟨hsome, _⟩ := hl.2 s hold ⟨.inr rfl, hpending, hcan, hroom⟩
      · exact hsent
      · exact absurd (by simp [hempty]) hsome
    have hpieces : ∀ sid', pieces sid' (.queued sid [] :: c.trace) = pieces sid' c.trace :=
      fun sid' => (pieces_cons (by simp)).trans (List.append_nil _)
    let s' : Stream := { s with state := state }
    exact h.data (f := ⟨sid, true, [], none⟩) (d := (c.log (.queued sid [])).putStream sid s')
      s' hold rfl rfl rfl rfl le_rfl hpieces ((h.live sid s hold).body hfinal hcan) hfinal

/-- HEADERS that changes the map has moved the last id. -/
theorem headers_last {c d : Core} {f : HeadersFrame} (h : Change c (.frame (.headers f)) d) :
    d.streams = c.streams ∨ d.lastRecvStreamId = max c.lastRecvStreamId f.streamId := by
  cases h with
  | step hstep =>
    cases hstep with
    | calm hcalm =>
      cases hcalm with
      | receive _ hinert => cases hinert
      | credit _ _ hl => obtain hl | hl := hl <;> cases hl
      | beginBlock => exact .inl rfl
      | wholeBlock _ _ _ _ _ _ _ houtcome =>
        obtain ⟨_, _, hstatus⟩ := outcome_status houtcome
        exact .inr (congrArg Status.lastRecvStreamId hstatus)
    | wake hwake => cases hwake
  | fault hfault => cases hfault <;> exact .inl rfl

/-- What sends nothing lets nothing leave later, since frames that open a window meet the terms. -/
theorem quiet_held {c d : Core} {l : Label} {sid : Nat} {s' : Stream} (h : Orderly c) (ht : Tidy c)
    (hl : terms.taken.Meets c l) (hquiet : l.quiet = true) (hchange : Change c l d)
    (hlive : d.stream? sid = some s') : Held d.flowControl.sendWindow s' := by
  cases hchange with
  | step hstep =>
    cases hstep with
    | calm hcalm =>
      rw [calm_sendWindow hcalm]
      obtain ⟨s, hold, hsame⟩ | ⟨_, _, hfresh, _⟩ := calm_resent hcalm ht
        (by rintro _ _ _ rfl; cases hquiet) (by rintro _ _ rfl; cases hquiet) hlive
      · exact (h.held sid s hold).same hsame
      · exact .inr (.inl hfresh.sendBuffer)
    | wake hwake =>
      cases hwake with
      | update increment hmax =>
        have hentry : ⟨sid, s'⟩ ∈ c.streams.entries := AList.mem_lookup_iff.1 hlive
        exact hl.2 hl.1 hmax _ hentry
      | @updateStream s sid' increment hsid hold hmax =>
        have hopens : Held c.flowControl.sendWindow
            { s with flowControl := s.flowControl.addSend increment } := by
          have hterms : Opens c sid' increment := hl.2 hl.1
          rw [Opens, if_neg hsid] at hterms
          exact hterms s hold hmax
        simp only [Core.stream?_eq, Core.putStream_streams, Core.log_streams, lookup_insert_ite] at hlive
        split at hlive
        · obtain rfl := Option.some.inj hlive
          exact hopens
        · exact h.held sid s' hlive
      | settings f streams hack hstreams =>
        obtain ⟨_, rfl⟩ | ⟨_, hmap⟩ := hstreams
        · exact h.held sid s' hlive
        · obtain ⟨_, hnone⟩ | ⟨s, fc, hold, hfc, hnew⟩ := hmap sid
          · cases hnone.symm.trans hlive
          · obtain rfl : { s with flowControl := fc } = s' :=
              Option.some.inj (hnew.symm.trans hlive)
            have hentry : ⟨sid, s⟩ ∈ c.streams.entries := AList.mem_lookup_iff.1 hold
            exact hl.2 hl.1 hack _ hentry fc (by rw [hfc]; rfl)
    | emit | start | push => cases hquiet
  | fault hfault =>
    cases hfault with
    | settings f remote pending streams _ hstreams hack hturned =>
      obtain ⟨_, hnone⟩ | ⟨s, fc, hold, hnew⟩ := hstreams sid
      · cases hnone.symm.trans hlive
      · obtain rfl := Option.some.inj (hnew.symm.trans hlive)
        -- A SETTINGS frame that fails has turned some of the windows.
        obtain hsame | hfc := hturned sid s _ hold hnew
        · obtain rfl : fc = s.flowControl := hsame
          exact h.held sid s hold
        · have hentry : ⟨sid, s⟩ ∈ c.streams.entries := AList.mem_lookup_iff.1 hold
          exact hl.2 hl.1 hack _ hentry fc (by rw [hfc]; rfl)
    | decoder | refused | badBlock | badLast | longBlock | longNext => exact h.held sid s' hlive

theorem quiet_orderly {c d : Core} {l : Label} (h : Orderly c) (ht : Tidy c)
    (hl : terms.taken.Meets c l) (hquiet : l.quiet = true) (hchange : Change c l d) : Orderly d := by
  obtain ⟨new, heq, hnew⟩ := hchange.extends
  have hpieces : ∀ sid, pieces sid d.trace = pieces sid c.trace := by
    intro sid
    rw [heq, ← List.append_assoc]
    refine pieces_append fun i hi => ?_
    obtain hi | hi := List.mem_append.1 hi
    · exact records_quiet hquiet (hnew i hi)
    · cases l <;> simp [Label.cause] at hi <;> simp [hi]
  have hlast : c.lastRecvStreamId ≤ d.lastRecvStreamId := by
    obtain hsame | ⟨_, _, _, hmax⟩ := hchange.lastRecvStreamId <;> omega
  refine ⟨?_, fun sid s' hlive => ?_, fun sid hsent => ?_, fun sid s' hlive => ?_,
    fun sid s' hlive => quiet_held h ht hl hquiet hchange hlive, fun sid => ?_⟩
  · exact hchange.role.trans h.role
  · obtain ⟨s, hold, _⟩ | ⟨hnone, hbegins, _⟩ := change_reput hchange ht hquiet hlive
    · exact (h.below sid s hold).trans hlast
    · cases hbegins with
      | request _ _ hrole => cases h.role.symm.trans hrole
      | whole f =>
        obtain hsame | hmax := headers_last hchange
        · rw [Core.stream?_eq, hsame] at hlive
          cases hnone.symm.trans hlive
        · omega
      | last f hcont => exact (ht.block _ hcont).2.trans hlast
  · exact (h.sent sid (hpieces sid ▸ hsent)).trans hlast
  · rw [hpieces]
    obtain ⟨s, hold, hsame⟩ | ⟨hnone, hbegins, _, _, hfinal⟩ :=
      change_reput hchange ht hquiet hlive
    · exact (h.live sid s hold).same hsame
    · rw [h.fresh hl hbegins hnone]
      refine ⟨fun _ => by simp [Early], fun hsent => ?_⟩
      cases hfinal.symm.trans hsent
  · rw [hpieces]
    exact h.all sid

theorem change_orderly {c d : Core} {l : Label} (h : Orderly c) (ht : Tidy c)
    (hl : terms.taken.Meets c l) (hchange : Change c l d) : Orderly d := by
  by_cases hquiet : l.quiet = true
  · exact quiet_orderly h ht hl hquiet hchange
  · cases hchange with
    | step hstep =>
      cases hstep with
      | calm hcalm =>
        obtain hl' | ⟨sid, headers, endStream, rfl⟩ | ⟨sid, headers, rfl⟩ := calm_quiet hcalm
        · exact absurd hl' hquiet
        · exact calm_respond h hl hcalm
        · exact calm_trail h ht hcalm
      | wake => exact absurd rfl hquiet
      | emit hemit => exact emit_orderly h ht hemit
      | start hstart => cases h.role.symm.trans (start_checked hstart).1
      | push hpush => exact push_orderly h hl hpush
    | fault hfault => cases hfault <;> exact absurd rfl hquiet

/-- A frame that is recorded sends nothing. -/
theorem Orderly.heard {c : Core} (h : Orderly c) (f : Frame) : Orderly (c.log (.received f)) := by
  have hpieces : ∀ sid, pieces sid (c.log (.received f)).trace = pieces sid c.trace := by
    intro sid
    have hone : ∀ i ∈ [Item.received f], (∀ f, i ≠ .sent (.headers f)) ∧ ∀ f, i ≠ .sent (.data f) := by
      simp
    exact pieces_append hone
  refine ⟨h.role, h.below, fun sid hsent => ?_, fun sid s hlive => ?_, h.held, fun sid => ?_⟩
  · exact h.sent sid (hpieces sid ▸ hsent)
  · rw [hpieces]
    exact h.live sid s hlive
  · rw [hpieces]
    exact h.all sid

theorem settles_orderly {c d : Core} (ht : Tidy c) (h : Orderly c) (hsettles : Settles terms c d) :
    Orderly d := by
  cases hsettles with
  | change hl hchange => exact change_orderly h ht hl hchange
  | refuse f => exact h.heard f
  | overrun f =>
    obtain ⟨hrole, hbelow, hsent, hlive, hheld, hall⟩ := h.heard (.continuation f)
    exact ⟨hrole, hbelow, hsent, hlive, hheld, hall⟩

theorem new_orderly (limits : Limits) : Orderly (Core.new .server limits) := by
  refine ⟨rfl, fun _ _ hlive => ?_, fun _ hsent => absurd rfl hsent, fun _ _ hlive => ?_,
    fun _ _ hlive => ?_, fun _ => ?_⟩
  · cases hlive
  · cases hlive
  · cases hlive
  · exact .inl (by simp [pieces, Core.new, Early])

/-- On every stream a server sends interim responses, the final one, data and trailers, in this
order. -/
theorem sent_grammatical {limits : Limits} {history : List Record} {c : Connection}
    (h : RunOf terms (Connection.new .server limits) history c) (sid : Nat) :
    Grammatical (pieces sid c.trace) := by
  have horderly : Orderly c.toCore := settles_invariant (Tidy.new .server limits) (new_orderly limits)
    (fun _ _ => settles_orderly) (run_settles h)
  exact horderly.all sid

/-- A request reaches a server. -/
def askedCalls : List Call :=
  [.feed (clientBytes [.headers ⟨1, true, true, none, getBlock, none⟩]), .process .listed]

def statusOnly (status : String) : List HeaderField := [⟨ascii ":status", ascii status, false⟩]

theorem sent_grammatical_answered :
    ∃ history c, RunOf terms (Connection.new .server .default) history c ∧
      pieces 1 c.trace = [.headers (statusOnly "103") false, .headers (statusOnly "200") false,
        .data true] ∧ Grammatical (pieces 1 c.trace) := by
  -- The client allows no data at first: what is queued waits until the response was sent.
  let calls : List Call :=
    [.feed (clientBytes [.settings ⟨false, [.initialWindowSize ⟨0, by decide⟩]⟩,
      .headers ⟨1, true, true, none, getBlock, none⟩]), .process .listed,
      .sendData 1 [0x61] true, .sendResponse 1 (statusOnly "103") false,
      .sendResponse 1 (statusOnly "200") false, .feed (Frame.wire (.windowUpdate 1 1)), .process .listed]
  have hheeds : HeedsAll terms calls (Connection.new .server .default) := by decide +kernel
  have hrun := RunOf.execAll .start hheeds
  exact ⟨_, _, hrun, by decide +kernel, sent_grammatical hrun 1⟩

theorem not_grammatical_data : ¬ Grammatical [.data true] := by
  rintro (hearly | ⟨interim, fields, endStream, datas, heq, _⟩ | ⟨body, fields, heq, hbody, _⟩)
  · obtain ⟨_, heq, _⟩ := hearly _ (List.mem_singleton.2 rfl)
    cases heq
  · cases interim <;> simp at heq
  · cases body <;> simp at heq

/-- Nothing keeps data from leaving before the response, nor an interim response after the final
one. -/
theorem sent_grammatical_any_false :
    (∃ history c, Run (Connection.new .server .default) history c ∧
      pieces 1 c.trace = [.data true]) ∧ ¬ Grammatical [.data true] ∧
    ∃ history c, Run (Connection.new .server .default) history c ∧
      pieces 1 c.trace = [.headers (statusOnly "200") false, .headers (statusOnly "103") false] := by
  refine ⟨⟨_, _, Run.execAll .start (askedCalls ++ [.sendData 1 [0x61] true]), by decide +kernel⟩,
    not_grammatical_data, _, _, Run.execAll .start (askedCalls ++
      [.sendResponse 1 (statusOnly "200") false, .sendResponse 1 (statusOnly "103") false]),
    by decide +kernel⟩

end Response

end Http2
