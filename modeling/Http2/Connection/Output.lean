import Http2.Connection.Fragments
import Http2.Connection.Wire
import Http2.Connection.Windows

/-! Every frame that leaves reads back as it is, and is no longer than the peer allows. -/
namespace Http2

open Hpack Lib Lib.Prog Connection Wire
open Negotiation (announcement announcement_encodable announcement_payload frames prologue)

namespace Output

/-! ## Identifiers -/

/-- Frames are in range, arguments are what their types allow, and GOAWAY fits a frame. -/
def terms : Terms where
  frame _ f := f.InRange
  refusal _ _ := True
  api c k := typed k ∧ ∀ errorCode debugData, k = .sendGoaway errorCode debugData →
    debugData.length + 8 ≤ c.remoteSettings.maxFrameSize

/-- All ids have 31 bits. -/
structure Ranged (c : Core) : Prop where
  used : ∀ sid, c.Used sid → sid < 2 ^ 31
  recv : c.lastRecvStreamId < 2 ^ 31
  successful : c.lastSuccessfulStreamId < 2 ^ 31
  goaway : ∀ sid ∈ c.lastSentGoawayStreamId, sid < 2 ^ 31

theorem new_ranged (role : Role) (limits : Limits) : Ranged (Core.new role limits) where
  used := by
    rintro sid (hlive | hclosed)
    · simp [Core.new] at hlive
    · simp [Core.new, BoundedSet.contains, BoundedSet.new] at hclosed
  recv := Nat.two_pow_pos 31
  successful := Nat.two_pow_pos 31
  goaway := by
    intro sid h
    cases h

section

variable {c d : Core} {l : Label} {role : Role} {limits : Limits} {own : SettingsFrame} {n : Nat}

theorem Ranged.goawayStreamId (h : Ranged c) : c.goawayStreamId < 2 ^ 31 := by
  have hsuccessful := h.successful
  unfold Core.goawayStreamId
  split <;> omega

/-- A record is created for an id of 31 bits. -/
theorem begins_ranged {sid : Nat} (hl : terms.Meets c l) (h : Begins c l sid) : sid < 2 ^ 31 := by
  cases h with
  | request headers endStream _ _ hmax =>
    simp only [streamIdMax] at hmax
    omega
  | whole f => exact hl.2
  | last f => exact hl.2

theorem turns_ranged {status : Status} (h : Ranged c) (hl : terms.Meets c l) (hturns : Turns c l status) :
    status.lastRecvStreamId < 2 ^ 31 ∧ status.lastSuccessfulStreamId < 2 ^ 31 ∧
      ∀ sid ∈ status.lastSentGoawayStreamId, sid < 2 ^ 31 := by
  obtain ⟨_, hrecv, hsuccessful, hgoaway⟩ := h
  cases hturns with
  | goaway errorCode debugData =>
    refine ⟨hrecv, hsuccessful, ?_⟩
    rintro sid ⟨rfl⟩
    exact Ranged.goawayStreamId ⟨‹_›, hrecv, hsuccessful, hgoaway⟩
  | beginBlock f =>
    have hsid : f.streamId < 2 ^ 31 := hl.2
    exact ⟨Nat.max_lt.2 ⟨hrecv, hsid⟩, hsuccessful, hgoaway⟩
  | wholeBlock f successful _ _ _ hcases =>
    have hsid : f.streamId < 2 ^ 31 := hl.2
    refine ⟨Nat.max_lt.2 ⟨hrecv, hsid⟩, ?_, hgoaway⟩
    obtain rfl | rfl := hcases
    · exact hsuccessful
    · exact Nat.max_lt.2 ⟨hsuccessful, hsid⟩
  | endBlock f successful _ _ hcases =>
    have hsid : f.streamId < 2 ^ 31 := hl.2
    refine ⟨hrecv, ?_, hgoaway⟩
    obtain rfl | rfl := hcases
    · exact hsuccessful
    · exact Nat.max_lt.2 ⟨hsuccessful, hsid⟩
  | same | activate | peerGoaway | settings | request => exact ⟨hrecv, hsuccessful, hgoaway⟩

theorem change_ranged (h : Ranged c) (hl : terms.Meets c l) (hchange : Change c l d) : Ranged d := by
  obtain ⟨hrecv, hsuccessful, hgoaway⟩ := turns_ranged h hl hchange.turns
  refine ⟨fun sid hused => ?_, hrecv, hsuccessful, hgoaway⟩
  obtain hused | hbegins := hchange.touches.used hused
  · exact h.used sid hused
  · exact begins_ranged hl hbegins

/-! ## Frames -/

/-- No SETTINGS are sent but acknowledgements and `own`. -/
def Announced (own : SettingsFrame) : Frame → Prop
  | .settings f => f.ack = true ∨ f = own
  | _ => True

/-- A frame reads back and has a payload of `n` octets at most, if its numbers are whole. -/
def Fits (own : SettingsFrame) (n : Nat) (f : Frame) : Prop :=
  isWhole f = true → f.Encodable ∧ f.payload.length ≤ n ∧ Announced own f

/-- Nothing but a SETTINGS frame changes what fits, and what leaves does. -/
def Quiet (own : SettingsFrame) (n : Nat) : Item → Prop
  | .sent f => Fits own n f
  | .received (.settings f) => f.ack = true
  | _ => True

/-- Nothing was recorded between two states that is not quiet. -/
def Adds (own : SettingsFrame) (n : Nat) (c d : Core) : Prop :=
  ∃ new, d.trace = new ++ c.trace ∧ ∀ i ∈ new, Quiet own n i

theorem rstStream_fits {sid code : Nat} (hn : 16384 ≤ n) (hsid : 0 < sid ∧ sid < 2 ^ 31) :
    Fits own n (.rstStream sid code) := by
  intro hwhole
  have hcode : code < 2 ^ 32 := by simpa [isWhole] using hwhole
  have hpayload : (Frame.rstStream sid code).payload = Lib.BigEndian.toBe 4 code :=
    payload_of_encode (f := .rstStream sid code) rfl
  refine ⟨⟨hsid.1, hsid.2, hcode⟩, ?_, trivial⟩
  rw [hpayload, Lib.BigEndian.length_toBe]
  omega

theorem windowUpdate_fits {sid increment : Nat} (hn : 16384 ≤ n) (hsid : sid < 2 ^ 31) :
    Fits own n (.windowUpdate sid increment) := by
  intro hwhole
  have hincrement : 0 < increment ∧ increment < 2 ^ 31 := by simpa [isWhole] using hwhole
  have hpayload : (Frame.windowUpdate sid increment).payload = toBe31 increment :=
    payload_of_encode (f := .windowUpdate sid increment) rfl
  refine ⟨⟨hsid, hincrement⟩, ?_, trivial⟩
  rw [hpayload, length_toBe31]
  omega

theorem ping_fits {ack : Bool} {opaqueData : Bytes} (hn : 16384 ≤ n) : Fits own n (.ping ack opaqueData) := by
  intro hwhole
  have hlength : opaqueData.length = 8 := by simpa [isWhole] using hwhole
  have hpayload : (Frame.ping ack opaqueData).payload = opaqueData :=
    payload_of_encode (f := .ping ack opaqueData) rfl
  refine ⟨hlength, ?_, trivial⟩
  rw [hpayload, hlength]
  omega

theorem ack_fits : Fits own n (.settings ⟨true, []⟩) := by
  intro _
  have hpayload : (Frame.settings ⟨true, []⟩).payload = [] :=
    payload_of_encode (f := .settings ⟨true, []⟩) rfl
  refine ⟨rfl, ?_, .inl rfl⟩
  rw [hpayload]
  exact Nat.zero_le n

theorem goaway_fits {sid : Nat} {code : ErrorCode} {debugData : Bytes} (hsid : sid < 2 ^ 31)
    (hn : debugData.length + 8 ≤ n) : Fits own n (.goaway ⟨sid, code.asU32, debugData⟩) := by
  intro hwhole
  have hcode : code.asU32 < 2 ^ 32 := by simpa [isWhole] using hwhole
  have hpayload : (Frame.goaway ⟨sid, code.asU32, debugData⟩).payload =
      toBe31 sid ++ Lib.BigEndian.toBe 4 code.asU32 ++ debugData :=
    payload_of_encode (f := .goaway ⟨sid, code.asU32, debugData⟩) rfl
  refine ⟨⟨hsid, hcode⟩, ?_, trivial⟩
  rw [hpayload, List.length_append, List.length_append, length_toBe31, Lib.BigEndian.length_toBe]
  omega

theorem data_fits {sid : Nat} {data : Bytes} {endStream : Bool} (hsid : 0 < sid ∧ sid < 2 ^ 31)
    (hn : data.length ≤ n) : Fits own n (.data ⟨sid, endStream, data, none⟩) := by
  intro _
  have hpayload : (Frame.data ⟨sid, endStream, data, none⟩).payload = data :=
    payload_of_encode (f := .data ⟨sid, endStream, data, none⟩) rfl
  refine ⟨hsid, ?_, trivial⟩
  rw [hpayload]
  exact hn

theorem block_fits {sid : Nat} {endStream : Bool} {block : Bytes} (hsid : 0 < sid ∧ sid < 2 ^ 31)
    (hn : 0 < n) :
    ∀ f ∈ blockFrames sid endStream n block, Fits own n f := by
  obtain ⟨first, rest, heq, hspec⟩ := blockFrames_spec sid endStream block hn
  rw [heq]
  intro f hf _
  have hpayload := hspec.payload f hf
  obtain ⟨hfirst, hrest⟩ := hspec.streamId
  obtain rfl | hf := List.mem_cons.1 hf
  · exact ⟨⟨hfirst ▸ hsid.1, hfirst ▸ hsid.2, hspec.plain.2⟩, hpayload, trivial⟩
  · obtain ⟨g, hg, rfl⟩ := List.mem_map.1 hf
    have hgsid := hrest g hg
    exact ⟨⟨hgsid ▸ hsid.1, hgsid ▸ hsid.2⟩, hpayload, trivial⟩

/-! ## Transitions -/

namespace Adds

theorem refl : Adds own n c c := ⟨[], rfl, by simp⟩

theorem congr {e : Core} (h : Adds own n c d) (htrace : e.trace = d.trace) : Adds own n c e := by
  obtain ⟨new, hnew, hquiet⟩ := h
  exact ⟨new, htrace.trans hnew, hquiet⟩

theorem log {i : Item} (h : Adds own n c d) (hi : Quiet own n i) : Adds own n c (d.log i) := by
  obtain ⟨new, hnew, hquiet⟩ := h
  refine ⟨i :: new, by simp [hnew], ?_⟩
  exact List.forall_mem_cons.2 ⟨hi, hquiet⟩

theorem send {f : Frame} (h : Adds own n c d) (hf : Fits own n f) : Adds own n c (d.log (.sent f)) := h.log hf

theorem closeIf {sid : Nat} (h : Adds own n c d) (closed : Bool) : Adds own n c (d.closeIf sid closed) := by
  unfold Core.closeIf
  split
  · have htold : Adds own n c (d.log (.event (.streamClosed sid))) := h.log trivial
    exact htold.congr rfl
  · exact h

theorem reset {sid : Nat} {code : ErrorCode} {consumed : Nat} (h : Adds own n c d) (hn : 16384 ≤ n)
    (hsid : 0 < sid ∧ sid < 2 ^ 31) : Adds own n c (d.resetWith sid code consumed) := by
  have hsent : Adds own n c (d.log (.sent (.rstStream sid code.asU32))) := h.send (rstStream_fits hn hsid)
  have htold : Adds own n c _ := hsent.log (i := .event (.streamReset sid code consumed)) trivial
  exact htold.congr rfl

theorem block {sid : Nat} {headers : List HeaderField} {endStream : Bool} (h : Adds own n c d)
    (hsid : 0 < sid ∧ sid < 2 ^ 31) (hmax : d.remoteSettings.maxFrameSize = n) (hn : 0 < n) :
    Adds own n c (d.sendBlock sid headers endStream) := by
  obtain ⟨new, hnew, hquiet⟩ := h
  let r := d.hpackEncoder.encode headers
  let fs := blockFrames sid endStream n (r.1.encodePending d.pendingTableSizeUpdate ++ r.2)
  have hfs : ∀ f ∈ fs, Fits own n f := block_fits hsid hn
  refine ⟨(fs.map Item.sent).reverse ++ .encoded sid headers :: new, ?_, ?_⟩
  · simp [Core.sendBlock, Core.logSent_eq, hnew, fs, r, hmax]
  · intro i hi
    simp only [List.mem_append, List.mem_reverse, List.mem_map, List.mem_cons] at hi
    obtain ⟨f, hf, rfl⟩ | rfl | hi := hi
    · exact hfs f hf
    · trivial
    · exact hquiet i hi

theorem opens {sid : Nat} {s : Stream} {base : Core} (h : Adds own n c d) (hopens : d.Opens sid s base) :
    Adds own n c base := by
  obtain ⟨_, rfl⟩ | ⟨_, _, rfl⟩ := hopens
  · exact h
  · have hlog : Adds own n c (d.log (.opened sid)) := h.log trivial
    exact hlog.congr rfl

end Adds

theorem outcome_adds {c' : Core} {sid : Nat} {raw : List HeaderField} {endStream : Bool}
    (houtcome : Outcome sid raw endStream d c') (h : Adds own n c d) (hn : 16384 ≤ n)
    (hsid : 0 < sid ∧ sid < 2 ^ 31) : Adds own n c c' := by
  cases houtcome with
  | ignored => exact h
  | @reset _ base code _ _ hopens =>
    have hreset : Adds own n c (base.resetWith sid code 0) := (h.opens hopens).reset hn hsid
    exact hreset.congr rfl
  | tunnel => exact h.reset hn hsid
  | gone => exact h.send (rstStream_fits hn hsid)
  | @headers s s' base protocol _ hopens =>
    let told : Item := .event (.headersReceived sid (concatenateCookies raw) endStream protocol)
    have hlog : Adds own n c ((base.putStream sid s').log told) := ((h.opens hopens).congr rfl).log trivial
    exact (hlog.closeIf s'.state.isClosed).congr rfl
  | @trailers s state =>
    let told : Item := .event (.trailersReceived sid (concatenateCookies raw))
    have hlog : Adds own n c ((d.putStream sid { s with state := state }).log told) :=
      (h.congr rfl).log trivial
    exact (hlog.closeIf state.isClosed).congr rfl

/-- An id that is not idle is one of a stream. -/
theorem used_ranged {sid : Nat} (ht : Tidy c) (h : Ranged c) (hidle : c.isIdleStream sid = false) :
    0 < sid ∧ sid < 2 ^ 31 := by
  constructor
  · refine Nat.pos_of_ne_zero fun hzero => ?_
    subst hzero
    cases hidle.symm.trans (idle_zero ht)
  · unfold Core.isIdleStream at hidle
    split at hidle
    · exact h.used sid (.inl ‹_›)
    · split at hidle
      · exact h.used sid (.inr ‹_›)
      · split at hidle
        · cases hidle
        · have hrecv := h.recv
          simp only [gt_iff_lt, decide_eq_false_iff_not, not_lt] at hidle
          omega

theorem live_ranged {sid : Nat} {s : Stream} (ht : Tidy c) (h : Ranged c) (hlive : c.stream? sid = some s) :
    0 < sid ∧ sid < 2 ^ 31 := used_ranged ht h (idle_of_live hlive)

theorem room (c : Core) : 16384 ≤ (c.remoteSettings.maxFrameSize : Nat) := c.remoteSettings.maxFrameSize.2.1

/-- What a side announces fits, however little the peer allows. -/
def Announces (own : SettingsFrame) (c : Core) : Prop :=
  ∀ n ≥ 16384, Fits own n (.settings ⟨false, settingsToSend c.role c.localSettings⟩)

theorem calm_adds (ht : Tidy c) (h : Ranged c) (hl : terms.Meets c l)
    (hown : Announces own c) (hcalm : Calm c l d) : Adds own c.remoteSettings.maxFrameSize c d := by
  have hroom := room c
  have hreceived : ∀ {f : Frame}, (∀ g, f ≠ .settings g) →
      Adds own c.remoteSettings.maxFrameSize c (c.log (.received f)) := by
    intro f hf
    apply Adds.refl.log
    cases f with
    | settings g => exact absurd rfl (hf g)
    | _ => trivial
  cases hcalm with
  | receive f hinert =>
    apply Adds.refl.log
    cases f with
    | settings g => exact hinert
    | _ => trivial
  | peerGoaway f =>
    have hlog := hreceived (f := .goaway f) fun _ h => by cases h
    exact (hlog.congr (e := (c.log (.received (.goaway f))).setState .goawayReceived) rfl).log trivial
  | notify e => exact Adds.refl.log trivial
  | activate => exact Adds.refl.congr rfl
  | pong => exact Adds.refl.send (ping_fits hroom)
  | discardData f => exact (hreceived (f := .data f) fun _ h => by cases h).congr rfl
  | reportData f =>
    have hlog := hreceived (f := .data f) fun _ h => by cases h
    exact (hlog.congr (e := (c.log (.received (.data f))).chargeRecv f.flowControlSize) rfl).log trivial
  | refuseData f code hlive =>
    have hlog := hreceived (f := .data f) fun _ h => by cases h
    exact (hlog.congr (e := (c.log (.received (.data f))).chargeRecv f.flowControlSize) rfl).reset hroom
      (live_ranged ht h hlive)
  | @deliverData s s' f =>
    have hlog := hreceived (f := .data f) fun _ h => by cases h
    exact ((hlog.congr
      (e := ((c.log (.received (.data f))).chargeRecv f.flowControlSize).putStream f.streamId s')
      rfl).log (i := .event (.dataReceived f.streamId f.data f.endStream)) trivial).closeIf _
  | peerReset sid code =>
    have hlog := hreceived (f := .rstStream sid code) fun _ h => by cases h
    exact (hlog.log (i := .event (.streamReset sid (.fromU32 code) 0)) trivial).congr rfl
  | reset sid code hlive => exact Adds.refl.reset hroom (live_ranged ht h hlive)
  | resetGone sid code _ hidle => exact Adds.refl.send (rstStream_fits hroom (used_ranged ht h hidle))
  | reject sid code _ hlive =>
    exact (Adds.refl.log (i := .rejected sid) trivial).reset hroom (live_ranged ht h hlive)
  | rejectGone sid code _ hidle =>
    exact (Adds.refl.log (i := .rejected sid) trivial).send (rstStream_fits hroom (used_ranged ht h hidle))
  | tunnel header payload _ hlive =>
    exact (hreceived (f := .unknown header payload) fun _ h => by cases h).reset hroom
      (live_ranged ht h hlive)
  | overflow sid increment _ hlive =>
    exact (hreceived (f := .windowUpdate sid increment) fun _ h => by cases h).reset hroom
      (live_ranged ht h hlive)
  | beginBlock f => exact (hreceived (f := .headers f) fun _ h => by cases h).congr rfl
  | extendBlock f => exact (hreceived (f := .continuation f) fun _ h => by cases h).congr rfl
  | wholeBlock f headers decoder _ _ _ _ houtcome =>
    have hlog := hreceived (f := .headers f) fun _ h => by cases h
    refine outcome_adds houtcome ?_ hroom hl
    exact (hlog.congr (e := (c.log (.received (.headers f))).decodeWhole f.streamId decoder) rfl).log trivial
  | endBlock f headers decoder _ _ _ houtcome =>
    have hlog := hreceived (f := .continuation f) fun _ h => by cases h
    refine outcome_adds houtcome ?_ hroom hl
    exact (hlog.congr (e := (c.log (.received (.continuation f))).decodeLast decoder) rfl).log trivial
  | announce => exact Adds.refl.send (hown _ hroom)
  | ping => exact Adds.refl.send (ping_fits hroom)
  | goaway errorCode debugData =>
    have hroomFor := hl.2 errorCode debugData rfl
    exact (Adds.refl.send (goaway_fits h.goawayStreamId hroomFor)).congr rfl
  | credit _ increment =>
    have hset : Adds own c.remoteSettings.maxFrameSize c (c.setFlow (c.flowControl.addRecv increment)) :=
      Adds.refl.congr rfl
    exact hset.send (windowUpdate_fits hroom (Nat.two_pow_pos 31))
  | @creditStream s sid increment _ hlive =>
    have hput : Adds own c.remoteSettings.maxFrameSize c (c.putStream sid { s with
        flowControl := s.flowControl.addRecv increment }) :=
      Adds.refl.congr rfl
    exact hput.send (windowUpdate_fits hroom hl.1)
  | creditGone sid increment => exact Adds.refl.send (windowUpdate_fits hroom hl.1)
  | @respond s s' sid headers endStream hlive =>
    have hput : Adds own c.remoteSettings.maxFrameSize c (c.putStream sid s') := Adds.refl.congr rfl
    exact (hput.block (live_ranged ht h hlive) rfl (by omega)).closeIf _
  | @trail s state sid headers hlive =>
    have hput : Adds own c.remoteSettings.maxFrameSize c (c.putStream sid { s with state := state }) :=
      Adds.refl.congr rfl
    exact (hput.block (live_ranged ht h hlive) rfl (by omega)).closeIf _

/-- A SETTINGS frame is acknowledged at once. -/
def Acknowledges (c : Core) (f : SettingsFrame) (d : Core) : Prop :=
  f.ack = false ∧ d.trace = .sent (.settings ⟨true, []⟩) :: .received (.settings f) :: c.trace ∧
    d.remoteSettings = f.settings.foldl Settings.apply c.remoteSettings

theorem step_adds (ht : Tidy c) (h : Ranged c) (hl : terms.Meets c l)
    (hown : Announces own c) (hstep : Step c l d) :
    Adds own c.remoteSettings.maxFrameSize c d ∧ d.remoteSettings = c.remoteSettings ∨
      ∃ f, l = .frame (.settings f) ∧ Acknowledges c f d := by
  have hroom := room c
  cases hstep with
  | calm hcalm => exact .inl ⟨calm_adds ht h hl hown hcalm, calm_remoteSettings hcalm⟩
  | wake hwake =>
    cases hwake with
    | update increment =>
      have hlog : Adds own c.remoteSettings.maxFrameSize c (c.log (.received (.windowUpdate 0 increment))) :=
        Adds.refl.log trivial
      exact .inl ⟨hlog.congr rfl, rfl⟩
    | updateStream sid increment =>
      have hlog : Adds own c.remoteSettings.maxFrameSize c
          (c.log (.received (.windowUpdate sid increment))) :=
        Adds.refl.log trivial
      exact .inl ⟨hlog.congr rfl, rfl⟩
    | settings f streams hack => exact .inr ⟨f, rfl, hack, rfl, rfl⟩
  | emit hemit =>
    refine .inl ?_
    cases hemit with
    | @chunk s sid data rest hlive _ _ _ _ hframe =>
      have hput : Adds own c.remoteSettings.maxFrameSize c ((c.chargeSend data.length).putStream sid { s with
          sendBuffer := rest
          flowControl := s.flowControl.addSend (-data.length) }) := Adds.refl.congr rfl
      exact ⟨hput.send (data_fits (live_ranged ht h hlive) hframe), rfl⟩
    | @last s state sid hlive _ _ _ _ hframe =>
      have hput : Adds own c.remoteSettings.maxFrameSize c
        ((c.chargeSend s.sendBuffer.length).putStream sid { s with
          sendBuffer := []
          pendingEndStream := false
          state := state
          flowControl := s.flowControl.addSend (-s.sendBuffer.length) }) := Adds.refl.congr rfl
      exact ⟨(hput.send (data_fits (live_ranged ht h hlive) hframe)).closeIf _, closeIf_remoteSettings _⟩
  | start hstart =>
    refine .inl ?_
    cases hstart with
    | request s _ _ hmax =>
      have hsid : 0 < c.nextStreamId ∧ c.nextStreamId < 2 ^ 31 := by
        simp only [streamIdMax] at hmax
        have hodd := ht.next ‹_›
        omega
      have hopened : Adds own c.remoteSettings.maxFrameSize c (({ c with
          nextStreamId := c.nextStreamId + 2 } : Core).openStream c.nextStreamId s) :=
        (Adds.refl.log (i := .opened c.nextStreamId) trivial).congr rfl
      exact ⟨hopened.block hsid rfl (by omega), sendBlock_remoteSettings _ _⟩
  | @push sid data endStream _ hpush =>
    refine .inl ?_
    cases hpush with
    | queue => exact ⟨(Adds.refl.log (i := .queued sid data) trivial).congr rfl, rfl⟩
    | @emptyEnd s state hlive =>
      have hput : Adds own c.remoteSettings.maxFrameSize c ((c.log (.queued sid [])).putStream sid { s with
          state := state }) := (Adds.refl.log (i := .queued sid []) trivial).congr rfl
      have hdata : Fits own c.remoteSettings.maxFrameSize (.data ⟨sid, true, [], none⟩) :=
        data_fits (live_ranged ht h hlive) (Nat.zero_le _)
      exact ⟨(hput.send hdata).closeIf _, closeIf_remoteSettings _⟩

/-! ## Runs -/

/-- The largest frame that the SETTINGS among the items allow. -/
def allowed (items : List Item) : Nat :=
  ((frames items).flatten.foldl Settings.apply Settings.new).maxFrameSize

/-- Everything that was sent fits what was allowed at the time. -/
def Allowed (own : SettingsFrame) (trace : List Item) : Prop :=
  ∀ later f earlier, trace = later ++ .sent f :: earlier → Fits own (allowed earlier) f

theorem quiet_frames {i : Item} (hi : Quiet own n i) (items : List Item) :
    frames (i :: items) = frames items := by
  cases i with
  | received f =>
    cases f with
    | settings f =>
      have hack : f.ack = true := hi
      rw [frames, if_pos hack]
    | _ => rfl
  | _ => rfl

theorem allowed_append {new trace : List Item} (h : Allowed own trace)
    (hquiet : ∀ i ∈ new, Quiet own (allowed trace) i) :
    Allowed own (new ++ trace) ∧ frames (new ++ trace) = frames trace := by
  induction new with
  | nil => exact ⟨h, rfl⟩
  | cons i new ih =>
    obtain ⟨hi, hnew⟩ := List.forall_mem_cons.1 hquiet
    obtain ⟨hallowed, hframes⟩ := ih hnew
    refine ⟨?_, (quiet_frames hi _).trans hframes⟩
    intro later f earlier heq
    cases later with
    | nil =>
      obtain ⟨rfl, rfl⟩ := List.cons.inj heq
      have hsame : allowed (new ++ trace) = allowed trace := by rw [allowed, hframes, allowed]
      exact (congrArg (Fits own · f) hsame).mpr hi
    | cons j later => exact hallowed later f earlier (List.cons.inj heq).2

/-- What holds as long as nothing received was refused. -/
structure Measured (own : SettingsFrame) (c : Core) : Prop where
  remote : c.remoteSettings = (frames c.trace).flatten.foldl Settings.apply Settings.new
  allowed : Allowed own c.trace

theorem step_measured (ht : Tidy c) (h : Ranged c) (hl : terms.Meets c l)
    (hown : Announces own c) (hstep : Step c l d)
    (hc : Measured own c) : Measured own d := by
  obtain ⟨⟨new, htrace, hquiet⟩, hremote⟩ | ⟨f, _, hack, htrace, hremote⟩ := step_adds ht h hl hown hstep
  · have hsize : (c.remoteSettings.maxFrameSize : Nat) = Output.allowed c.trace := by
      rw [Output.allowed, ← hc.remote]
    rw [hsize] at hquiet
    obtain ⟨hallowed, hframes⟩ := allowed_append hc.allowed hquiet
    exact ⟨by rw [hremote, htrace, hframes, hc.remote], htrace ▸ hallowed⟩
  · have hframes : frames d.trace = frames c.trace ++ [f.settings] := by
      simp [htrace, frames, hack]
    refine ⟨?_, ?_⟩
    · rw [hremote, hframes, List.flatten_append, List.foldl_append, ← hc.remote, List.flatten_singleton]
    · rw [htrace]
      intro later g earlier heq
      cases later with
      | nil =>
        obtain ⟨hg, rfl⟩ := List.cons.inj heq
        obtain rfl := Item.sent.inj hg
        exact ack_fits
      | cons _ later =>
        obtain ⟨_, heq⟩ := List.cons.inj heq
        cases later with
        | nil => cases (List.cons.inj heq).1
        | cons _ later => exact hc.allowed later g earlier (List.cons.inj heq).2

/-- A side announces what its limits say. -/
theorem evolves_announces {T : Terms} (hevolves : Evolves T (Core.new role limits) c) :
    Announces (announcement role limits) c := by
  intro n hn _
  rw [evolves_role hevolves, evolves_localSettings hevolves]
  exact ⟨announcement_encodable, announcement_payload.trans hn, .inr rfl⟩

theorem steps_measured (hsteps : Steps terms (Core.new role limits) c) :
    Measured (announcement role limits) c ∧ Ranged c := by
  induction hsteps with
  | refl => exact ⟨⟨rfl, (fun later f earlier heq => by cases later <;> cases heq)⟩, new_ranged role limits⟩
  | tail hsteps hstep ih =>
    obtain ⟨l, hl, hstep⟩ := hstep
    obtain ⟨hmeasured, hranged⟩ := ih
    have ht := steps_tidy (Tidy.new role limits) hsteps
    have hown := evolves_announces (steps_evolves hsteps)
    exact ⟨step_measured ht hranged hl hown hstep hmeasured, change_ranged hranged hl (.step hstep)⟩

/-- Everything that was sent reads back. -/
def Readable (own : SettingsFrame) (c : Core) : Prop := ∀ f, .sent f ∈ c.trace → Fits own (2 ^ 24 - 1) f

theorem Fits.mono {m : Nat} {f : Frame} (h : Fits own n f) (hle : n ≤ m) : Fits own m f :=
  fun hwhole => ⟨(h hwhole).1, (h hwhole).2.1.trans hle, (h hwhole).2.2⟩

theorem fault_sent {e : Error} {f : Frame} (h : Fault c e l d) (hin : .sent f ∈ d.trace) :
    .sent f ∈ c.trace := by
  cases h with
  | decoder => exact hin
  | refused | settings | badBlock | badLast | longBlock | longNext =>
      exact (List.mem_cons.1 hin).resolve_left nofun

theorem change_readable (ht : Tidy c) (h : Ranged c) (hl : terms.Meets c l)
    (hown : Announces own c) (hc : Readable own c)
    (hchange : Change c l d) : Readable own d := by
  have hmax : (c.remoteSettings.maxFrameSize : Nat) ≤ 2 ^ 24 - 1 := c.remoteSettings.maxFrameSize.2.2
  intro f hin
  cases hchange with
  | step hstep =>
    obtain ⟨⟨new, htrace, hquiet⟩, _⟩ | ⟨g, _, _, htrace, _⟩ := step_adds ht h hl hown hstep
    · rw [htrace] at hin
      obtain hnew | hold := List.mem_append.1 hin
      · exact Fits.mono (hquiet _ hnew) hmax
      · exact hc f hold
    · rw [htrace] at hin
      obtain heq | hin := List.mem_cons.1 hin
      · obtain rfl := Item.sent.inj heq
        exact ack_fits
      · exact hc f ((List.mem_cons.1 hin).resolve_left nofun)
  | fault hfault => exact hc f (fault_sent hfault hin)

theorem evolves_readable (hevolves : Evolves terms (Core.new role limits) c) :
    Readable (announcement role limits) c ∧ Ranged c := by
  induction hevolves with
  | refl => exact ⟨(fun f h => by cases h), new_ranged role limits⟩
  | tail hevolves hchange ih =>
    obtain ⟨l, hl, hchange⟩ := hchange
    obtain ⟨hreadable, hranged⟩ := ih
    have ht := evolves_tidy (Tidy.new role limits) hevolves
    have hown := evolves_announces hevolves
    exact ⟨change_readable ht hranged hl hown hreadable hchange, change_ranged hranged hl hchange⟩

end

/-! ## Calls -/

/-- What is asked of calls, whatever octets arrive. -/
def callTerms : Terms where
  frame _ _ := True
  refusal _ _ := True
  api := terms.api

theorem callTerms_heeds (k : Call) (c : Connection) : k.Heeds callTerms c := by
  have hheeds : ∀ it fuel (c : Connection), c.Heeds callTerms it fuel := by
    intro it fuel
    induction fuel with
    | zero => exact fun _ => trivial
    | succ fuel ih =>
      intro c
      simp only [Connection.Heeds]
      split
      · trivial
      · exact ⟨trivial, fun _ => ih _⟩
      · exact ⟨fun _ _ _ => trivial, fun _ => ih _⟩
  cases k <;> first | trivial | exact hheeds _ _ _

theorem heeds_terms (it : IterOrder) (fuel : Nat) {c : Connection} (hrange : c.frameDecoder.InRange) :
    c.Heeds terms it fuel := by
  induction fuel generalizing c with
  | zero => trivial
  | succ fuel ih =>
    cases hdecode : c.frameDecoder.decode with
    | mk r rest =>
      obtain ⟨hrest, hframe⟩ := FrameDecoder.decode_inRange hrange hdecode
      simp only [Connection.Heeds, hdecode]
      rcases r with e | _ | f
      · refine ⟨fun _ _ _ => trivial, fun _ => ih ?_⟩
        have hkept := congrArg Guards.frameDecoder (rejectFrame_keeps e (c.take rest))
        exact (congrArg FrameDecoder.InRange hkept).mpr hrest
      · trivial
      · refine ⟨hframe f rfl, fun _ => ih ?_⟩
        have hkept := congrArg Prod.fst (handleFrame_intake it f (c.take rest))
        exact (congrArg FrameDecoder.InRange hkept).mpr hrest

theorem run_terms {c₀ c : Connection} {history : List Record} (hrange : c₀.frameDecoder.InRange)
    (h : RunOf callTerms c₀ history c) : RunOf terms c₀ history c ∧ c.frameDecoder.InRange := by
  induction h with
  | start => exact ⟨.start, hrange⟩
  | call k hk _ _ ih =>
    refine ⟨.call k hk ?_ ih.1, exec_inRange k ih.2⟩
    cases k with
    | process it => exact heeds_terms it _ ih.2
    | _ => trivial

/-- A connection after `initiate`, with the call. -/
theorem initiated_run {T : Terms} {role : Role} {limits : Limits} {history : List Record} {c : Connection}
    (hinitiate : T.api (Core.new role limits) .initiate) (h : RunOf T (initiated role limits) history c) :
    RunOf T (Connection.new role limits)
      (history ++ [⟨.initiate, (Call.initiate.exec (Connection.new role limits)).1⟩]) c :=
  .trans (.call .initiate hinitiate trivial .start) h

theorem mem_sentFrames {f : Frame} {items : List Item} : f ∈ sentFrames items ↔ .sent f ∈ items := by
  induction items with
  | nil => simp [sentFrames]
  | cons i items ih =>
    cases i with
    | sent g => simp [sentFrames, ih, or_comm]
    | _ => simp [sentFrames, ih]

/-- What leaves is the prologue and the frames that were sent, each of which reads back; as long as
nothing received was refused, each is as long as the peer allowed at the time. -/
structure WellFormed (role : Role) (history : List Record) (c : Connection) : Prop where
  octets : polled history ++ c.outputBuffer = prologue role ++ (sentFrames c.trace).flatMap Frame.wire
  encodable : ∀ f ∈ sentFrames c.trace, f.Encodable ∧ f.payload.length ≤ 2 ^ 24 - 1
  fits : Sound history → ∀ later f earlier, c.trace = later ++ .sent f :: earlier →
    f.payload.length ≤ allowed earlier
  decodes : ∀ maxFrameSize ≤ 2 ^ 24 - 1, (∀ f ∈ sentFrames c.trace, f.payload.length ≤ maxFrameSize) →
    ∀ pieces : List Bytes, prologue role ++ pieces.flatten = polled history ++ c.outputBuffer →
      ∃ d : FrameDecoder, d.buf = [] ∧ d.currentHeader = none ∧ ∀ out d',
        FrameDecoder.framer.Reads (FrameDecoder.new maxFrameSize) pieces out d' ↔
          out = sentFrames c.trace ∧ d' = d

theorem output_wellFormed {role : Role} {limits : Limits} {history : List Record} {c : Connection}
    (h : RunOf callTerms (initiated role limits) history c) : WellFormed role history c := by
  have hterms := (run_terms (initiated_inRange role limits) h).1
  have hinitiate : terms.api (Core.new role limits) .initiate := ⟨trivial, fun _ _ h => by cases h⟩
  have hrun := initiated_run hinitiate hterms
  have htyped : ∀ r ∈ history, typed r.call := by
    clear hrun hterms
    induction h with
    | start => exact fun _ h => by cases h
    | call k hk _ _ ih => exact List.forall_mem_cons.2 ⟨hk.1, ih⟩
  obtain ⟨hoctets, hwhole, _⟩ := (run_octets h htyped).1
  have hencodable : ∀ f ∈ sentFrames c.trace, f.Encodable ∧ f.payload.length ≤ 2 ^ 24 - 1 := by
    intro f hf
    obtain ⟨hf, hpayload, _⟩ := (evolves_readable (run_evolves hrun)).1 f (mem_sentFrames.1 hf) (hwhole f hf)
    exact ⟨hf, hpayload⟩
  refine ⟨hoctets, hencodable, fun hsound later f earlier htrace => ?_, ?_⟩
  · have hsteps := (run_course hrun (fun r hr => ?_)).steps
    · have hsent : .sent f ∈ c.trace := by
        rw [htrace]
        exact List.mem_append_right _ List.mem_cons_self
      exact ((steps_measured hsteps).1.allowed later f earlier htrace (hwhole f (mem_sentFrames.2 hsent))).2.1
    · obtain hr | hr := List.mem_append.1 hr
      · exact hsound r hr
      · obtain rfl := List.mem_singleton.1 hr
        exact fun hinput => by cases hinput
  · intro maxFrameSize hmax hpayload pieces hpieces
    rw [hoctets] at hpieces
    have hread := FrameDecoder.decode_encode hmax (fun f hf => ⟨(hencodable f hf).1, hpayload f hf⟩)
      (List.append_cancel_left hpieces)
    exact hread.2

/-- A request and a PING; all is taken out. -/
def greeting : List Call := [.startStream getRequest false, .sendPing (List.replicate 8 0), .pollOutput]

theorem output_wellFormed_greeting :
    let r := execAll greeting [] (initiated .client .default)
    (sentFrames r.2.trace).length = 3 ∧ WellFormed .client r.1 r.2 := by
  have hheeds : HeedsAll callTerms greeting (initiated .client .default) :=
    ⟨⟨trivial, nofun⟩, trivial, ⟨rfl, nofun⟩, trivial, ⟨trivial, nofun⟩, trivial, trivial⟩
  exact ⟨by decide +kernel, output_wellFormed (RunOf.execAll .start hheeds)⟩

end Output

end Http2
