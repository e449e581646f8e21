import Http2.Connection.Blind
import Http2.Connection.Expected
import Http2.Lib.Pump

/-! What a connection receives may be fed in any pieces. -/
namespace Http2

open Hpack Lib Lib.Prog Connection

/-! ## The decoder -/

namespace FrameDecoder

variable {d d' : FrameDecoder} {r : Except Error (Option Frame)}

theorem feed_nil (d : FrameDecoder) : d.feed [] = d := by
  rw [feed, List.append_nil]

/-- What is there already is not moved by what comes later. -/
theorem feed_front {n : Nat} (h : ¬ d.buf.length < n) (data : Bytes) :
    ¬ (d.feed data).buf.length < n ∧ (d.feed data).buf.take n = d.buf.take n ∧
      (d.feed data).buf.drop n = d.buf.drop n ++ data := by
  have hle : n ≤ d.buf.length := by omega
  refine ⟨?_, List.take_append_of_le_length hle, List.drop_append_of_le_length hle⟩
  simp only [feed, List.length_append]
  omega

theorem decodePayload_feed {header : FrameHeader} (h : d.decodePayload header = (r, d'))
    (hr : r ≠ .ok none) (data : Bytes) : (d.feed data).decodePayload header = (r, d'.feed data) := by
  unfold decodePayload at h
  split at h
  · cases h
    exact absurd rfl hr
  · rename_i hlong
    cases h
    obtain ⟨hlong', htake, hdrop⟩ := feed_front hlong data
    rw [decodePayload, if_neg hlong', htake, hdrop]
    rfl

/-- The header that is kept does not matter once it is known. -/
theorem decodePayload_header (d : FrameDecoder) (header : FrameHeader) (kept : Option FrameHeader) :
    ({ d with currentHeader := kept } : FrameDecoder).decodePayload header = d.decodePayload header := by
  unfold decodePayload
  split <;> rfl

theorem decode_kept {header : FrameHeader} (h : d.currentHeader = some header) :
    d.decode = d.decodePayload header := by
  rw [decode]
  simp only [h]

theorem decode_fresh {header : FrameHeader} (h : d.currentHeader = none)
    (hlong : ¬ d.buf.length < frameHeaderSize)
    (hread : decodeHeader (d.buf.take frameHeaderSize) = .ok header)
    (hsmall : ¬ header.length > d.maxFrameSize) :
    d.decode = ({ d with buf := d.buf.drop frameHeaderSize } : FrameDecoder).decodePayload header := by
  rw [decode]
  simp only [h, if_neg hlong, hread, if_neg hsmall]

/-- What the decoder says does not depend on what is fed to it later. -/
theorem decode_feed (h : d.decode = (r, d')) (hr : r ≠ .ok none) (data : Bytes) :
    (d.feed data).decode = (r, d'.feed data) := by
  cases hheader : d.currentHeader with
  | some header =>
    have hfed : (d.feed data).currentHeader = some header := hheader
    rw [decode_kept hheader] at h
    rw [decode_kept hfed]
    exact decodePayload_feed h hr data
  | none =>
    have hfed : (d.feed data).currentHeader = none := hheader
    by_cases hshort : d.buf.length < frameHeaderSize
    · rw [decode] at h
      simp only [hheader, if_pos hshort] at h
      cases h
      exact absurd rfl hr
    · obtain ⟨hlong, htake, hdrop⟩ := feed_front hshort data
      cases hread : decodeHeader (d.buf.take frameHeaderSize) with
      | error e =>
        rw [decode] at h ⊢
        simp only [hheader, if_neg hshort, hread] at h
        simp only [hfed, if_neg hlong, htake, hread]
        cases h
        rfl
      | ok header =>
        by_cases hlarge : header.length > d.maxFrameSize
        · rw [decode] at h ⊢
          simp only [hheader, if_neg hshort, hread, if_pos hlarge] at h
          have hlarge' : header.length > (d.feed data).maxFrameSize := hlarge
          simp only [hfed, if_neg hlong, htake, hread, if_pos hlarge']
          cases h
          rfl
        · rw [decode_fresh hheader hshort hread hlarge] at h
          rw [decode_fresh hfed hlong (htake ▸ hread) hlarge, hdrop]
          exact decodePayload_feed h hr data

theorem decodePayload_waits {header : FrameHeader} (h : d.decodePayload header = (.ok none, d')) :
    d' = { d with currentHeader := some header } := by
  unfold decodePayload at h
  split at h
  · cases h
    rfl
  · cases hframe : decodeFrame header (d.buf.take header.length) <;> simp [hframe, Except.map] at h

/-- A header that was read is not read again. -/
theorem decode_resumes (h : d.decode = (.ok none, d')) (data : Bytes) :
    (d'.feed data).decode = (d.feed data).decode := by
  cases hheader : d.currentHeader with
  | some header =>
    rw [decode_kept hheader] at h
    obtain rfl : d' = d := by rw [decodePayload_waits h, ← hheader]
    rfl
  | none =>
    have hfed : (d.feed data).currentHeader = none := hheader
    by_cases hshort : d.buf.length < frameHeaderSize
    · rw [decode] at h
      simp only [hheader, if_pos hshort] at h
      cases h
      rfl
    · obtain ⟨hlong, htake, hdrop⟩ := feed_front hshort data
      cases hread : decodeHeader (d.buf.take frameHeaderSize) with
      | error e =>
        rw [decode] at h
        simp only [hheader, if_neg hshort, hread] at h
        cases h
      | ok header =>
        by_cases hlarge : header.length > d.maxFrameSize
        · rw [decode] at h
          simp only [hheader, if_neg hshort, hread, if_pos hlarge] at h
          cases h
        · rw [decode_fresh hheader hshort hread hlarge] at h
          obtain rfl := decodePayload_waits h
          rw [decode_kept rfl, decode_fresh hfed hlong (htake ▸ hread) hlarge, hdrop]
          exact decodePayload_header { d with buf := d.buf.drop frameHeaderSize ++ data } header _

end FrameDecoder

/-! ## Turns -/

namespace Chunking

/-- The octets that the decoder holds are not seen. -/
def unfed : Blur where
  decoder d := { d with buf := [] }
  trace items := items
  decoder_decoder _ := rfl
  trace_trace _ := rfl
  trace_cons _ _ := rfl

/-- More octets for the decoder. -/
def give (c : Connection) (data : Bytes) : Connection := c.take (c.frameDecoder.feed data)

def turned : Except Error Unit × Connection → Turned Connection Error
  | (.ok _, d) => .goes d
  | (.error e, d) => .fails e d

/-- One turn of the loop of `process`. -/
def turn (it : IterOrder) (c : Connection) : Turned Connection Error :=
  match c.frameDecoder.decode with
  | (.ok none, rest) => .waits (c.take rest)
  | (.ok (some f), rest) => turned (handleFrame it f (c.take rest))
  | (.error e, rest) => turned (rejectFrame e (c.take rest))

section

variable {it : IterOrder} {c d : Connection} {rest : FrameDecoder}

/-- What neither reads nor changes what the decoder holds does the same with more of it. -/
theorem run_give {m : Conn Unit} (hm : Respects unfed.view m) (hkeeps : Keeps (·.frameDecoder) m)
    (c : Connection) (data : Bytes) : m (give c data) = ((m c).1, give (m c).2 data) := by
  obtain ⟨hresult, hview⟩ := hm (give c data) c rfl
  have hfed : (m (give c data)).2.frameDecoder = c.frameDecoder.feed data := hkeeps _
  have hkept : (m c).2.frameDecoder = c.frameDecoder := hkeeps c
  generalize m (give c data) = y at *
  generalize m c = x at *
  refine Prod.ext hresult ?_
  have htrace : y.2.trace = x.2.trace := congrArg (·.trace) hview
  have hsame := congrArg (·.masked y.2.frameDecoder y.2.trace) hview
  change y.2 = x.2.masked y.2.frameDecoder y.2.trace at hsame
  change y.2 = x.2.masked (x.2.frameDecoder.feed data) x.2.trace
  rw [hsame, hfed, hkept, htrace]

theorem turned_give {m : Conn Unit} (hm : Respects unfed.view m) (hkeeps : Keeps (·.frameDecoder) m)
    (data : Bytes) :
    (turned (m c) = .goes d → turned (m (give c data)) = .goes (give d data)) ∧
      ∀ e, turned (m c) = .fails e d → turned (m (give c data)) = .fails e (give d data) := by
  rw [run_give hm hkeeps]
  obtain ⟨r, c'⟩ := m c
  cases r with
  | ok u =>
    refine ⟨fun h => ?_, (fun e h => by cases h)⟩
    cases h
    rfl
  | error e =>
    refine ⟨(fun h => by cases h), fun e' h => ?_⟩
    cases h
    rfl

theorem handleFrame_blind (it : IterOrder) (f : Frame) :
    Respects unfed.view (handleFrame it f) ∧ Keeps (·.frameDecoder) (handleFrame it f) :=
  ⟨blind_handleFrame (fun _ => rfl) it f, fun c => congrArg Prod.fst (handleFrame_intake it f c)⟩

theorem rejectFrame_blind (e : Error) :
    Respects unfed.view (rejectFrame e) ∧ Keeps (·.frameDecoder) (rejectFrame e) :=
  ⟨blind_rejectFrame e fun _ => rfl, fun c => congrArg Guards.frameDecoder (rejectFrame_keeps e c)⟩

theorem turn_run (it : IterOrder) (c : Connection) :
    (∃ rest, c.frameDecoder.decode = (.ok none, rest)) ∨
      ∃ r rest, ∃ m : Conn Unit, r ≠ .ok none ∧ c.frameDecoder.decode = (r, rest) ∧
        Respects unfed.view m ∧ Keeps (·.frameDecoder) m ∧
          ∀ c' : Connection, (∃ rest', c'.frameDecoder.decode = (r, rest')) →
            turn it c' = turned (m (c'.take c'.frameDecoder.decode.2)) := by
  cases hdecode : c.frameDecoder.decode with
  | mk r rest =>
    rcases r with e | _ | f
    · refine .inr ⟨_, _, rejectFrame e, (fun h => by cases h), rfl, (rejectFrame_blind e).1,
        (rejectFrame_blind e).2, ?_⟩
      rintro c' ⟨rest', h⟩
      simp only [turn, h]
    · exact .inl ⟨rest, rfl⟩
    · refine .inr ⟨_, _, handleFrame it f, (fun h => by cases h), rfl, (handleFrame_blind it f).1,
        (handleFrame_blind it f).2, ?_⟩
      rintro c' ⟨rest', h⟩
      simp only [turn, h]

/-- A turn that need not wait is the same with more octets. -/
theorem turn_give (data : Bytes) :
    (turn it c = .goes d → turn it (give c data) = .goes (give d data)) ∧
      ∀ e, turn it c = .fails e d → turn it (give c data) = .fails e (give d data) := by
  obtain ⟨rest, hdecode⟩ | ⟨r, rest, m, hr, hdecode, hm, hkeeps, hturn⟩ := turn_run it c
  · simp [turn, hdecode]
  · have hfed : (give c data).frameDecoder.decode = (r, rest.feed data) :=
      FrameDecoder.decode_feed hdecode hr data
    rw [hturn c ⟨rest, hdecode⟩, hturn (give c data) ⟨_, hfed⟩, hdecode, hfed]
    exact turned_give (c := c.take rest) hm hkeeps data

theorem turn_take {x y : FrameDecoder} (h : x.decode = y.decode) :
    turn it (c.take x) = turn it (c.take y) := by
  simp only [turn, take]
  rw [h]

theorem turn_resumes (h : turn it c = .waits d) (data : Bytes) :
    turn it (give d data) = turn it (give c data) := by
  obtain ⟨rest, hdecode⟩ | ⟨r, rest, m, hr, hdecode, hm, hkeeps, hturn⟩ := turn_run it c
  · obtain rfl : c.take rest = d := by simpa [turn, hdecode] using h
    exact turn_take (FrameDecoder.decode_resumes hdecode data)
  · rw [hturn c ⟨rest, hdecode⟩] at h
    cases hrun : m (c.take c.frameDecoder.decode.2) with
    | mk r' c' =>
      rw [hrun] at h
      cases r' <;> cases h

/-- `process` is such a machine, and what it holds are octets. -/
def pump (it : IterOrder) : Pump Connection Error UInt8 where
  give := give
  turn := turn it
  give_nil c := by simp [give, take, FrameDecoder.feed]
  give_append c xs ys := by simp [give, take, FrameDecoder.feed]
  give_goes h data := (turn_give data).1 h
  give_fails h data := (turn_give data).2 _ h
  give_waits h data := turn_resumes h data

/-! ## `process` -/

theorem turn_passes (h : Passes it c d) : turn it c = .goes d := by
  cases h with
  | frame hdecode hrun =>
    simp only [turn, hdecode, hrun]
    rfl
  | reject hdecode hrun =>
    simp only [turn, hdecode, hrun]
    rfl

theorem turn_stops {e : Error} (h : Stops it c e d) : turn it c = .fails e d := by
  cases h with
  | frame hdecode hrun =>
    simp only [turn, hdecode, hrun]
    rfl
  | reject hdecode hrun =>
    simp only [turn, hdecode, hrun]
    rfl

theorem drains_process {r : Except Error Unit} (h : process it c = (r, d)) : (pump it).Drains c r d := by
  obtain ⟨c', hpasses, hfinishes⟩ := process_iff.1 h
  induction hpasses using Relation.ReflTransGen.head_induction_on with
  | head hpass _ ih => exact .goes (turn_passes hpass) (ih (process_iff.2 ⟨c', ‹_›, hfinishes⟩))
  | refl =>
    cases r with
    | ok u =>
      obtain ⟨rest, hdecode, rfl⟩ := hfinishes
      refine .waits ?_
      change turn it c' = _
      simp only [turn, hdecode]
    | error e => exact .fails (turn_stops hfinishes)

theorem process_drains {r : Except Error Unit} (h : (pump it).Drains c r d) : process it c = (r, d) := by
  obtain ⟨hr, hd⟩ := Pump.drains_deterministic (drains_process rfl) h
  exact Prod.ext hr hd

end

/-! ## Pieces -/

/-- `feed`, which returns the number of octets. -/
def push (data : Bytes) : Conn Unit := do
  let _ ← feed data
  return ()

/-- Feed the pieces in order with `process` after each, up to the first failure. -/
def feedAll (it : IterOrder) : List Bytes → Conn Unit
  | [] => pure ()
  | piece :: pieces => do
    push piece
    process it
    feedAll it pieces

/-- What is fed goes to the decoder. -/
def Started (c : Connection) : Prop := ¬ (c.role = .server ∧ c.prefaceReceived = false)

/-- The part of the preface that is there after more octets. -/
def prefaceWith (c : Connection) (data : Bytes) : Bytes :=
  c.prefaceBuffer ++ data.take (connectionPrefaceLen - c.prefaceBuffer.length)

/-- A server that goes on to frames. -/
def begin (c : Connection) (buffer : Bytes) : Connection :=
  { c with prefaceBuffer := buffer, prefaceReceived := true }

section

variable {it : IterOrder} {c d : Connection} {data more : Bytes}

theorem push_started (hc : Started c) (data : Bytes) : push data c = (.ok (), give c data) := by
  have hfeed : feed data c = (.ok data.length, give c data) := by
    rw [feed, bind_ok (m := get) rfl, if_neg hc]
    rfl
  rw [push, bind_ok hfeed]
  rfl

theorem push_preface (hc : ¬ Started c) (data : Bytes) :
    push data c =
      if prefaceWith c data = connectionPreface.take (prefaceWith c data).length then
        if (prefaceWith c data).length < connectionPrefaceLen then
          (.ok (), { c with prefaceBuffer := prefaceWith c data })
        else
          (.ok (), give (begin c (prefaceWith c data))
            (data.drop (connectionPrefaceLen - c.prefaceBuffer.length)))
      else
        (.error (.connectionError .protocolError "invalid client connection preface"),
          { c with prefaceBuffer := prefaceWith c data }) := by
  have hpreface : c.role = .server ∧ c.prefaceReceived = false := not_not.1 hc
  have htake : data.take (min data.length (connectionPrefaceLen - c.prefaceBuffer.length)) =
      data.take (connectionPrefaceLen - c.prefaceBuffer.length) := by
    rw [Nat.min_comm]
    exact (List.take_eq_take_min).symm
  have hdrop : data.drop (min data.length (connectionPrefaceLen - c.prefaceBuffer.length)) =
      data.drop (connectionPrefaceLen - c.prefaceBuffer.length) := by
    by_cases hle : connectionPrefaceLen - c.prefaceBuffer.length ≤ data.length
    · rw [Nat.min_eq_right hle]
    · have hge : data.length ≤ connectionPrefaceLen - c.prefaceBuffer.length := by omega
      rw [Nat.min_eq_left hge, List.drop_length, List.drop_eq_nil_of_le hge]
  unfold prefaceWith
  apply run_eq
  simp only [push, feed, ensures_bind, ensures_get, ensures_ite, ensures_modify, ensures_require,
    ensures_pure]
  refine ⟨fun _ => ?_, fun hnot => absurd hpreface hnot⟩
  rw [htake, hdrop]
  refine ⟨fun hmatch => ⟨fun hshort => ?_, fun hlong => ?_⟩, fun hmismatch => ?_⟩
  · rw [if_pos hmatch, if_pos hshort]
  · rw [if_pos hmatch, if_neg hlong]
    rfl
  · rw [if_neg hmismatch]

/-- Octets that do not complete the preface. -/
theorem prefaceWith_short (h : data.length < connectionPrefaceLen - c.prefaceBuffer.length) (more : Bytes) :
    prefaceWith c data = c.prefaceBuffer ++ data ∧
      prefaceWith { c with prefaceBuffer := c.prefaceBuffer ++ data } more = prefaceWith c (data ++ more) ∧
        more.drop (connectionPrefaceLen - (c.prefaceBuffer ++ data).length) =
          (data ++ more).drop (connectionPrefaceLen - c.prefaceBuffer.length) := by
  have hrest : connectionPrefaceLen - (c.prefaceBuffer ++ data).length =
      connectionPrefaceLen - c.prefaceBuffer.length - data.length := by
    rw [List.length_append]
    omega
  have hall := List.take_of_length_le (Nat.le_of_lt h)
  have hnone := List.drop_eq_nil_of_le (Nat.le_of_lt h)
  refine ⟨?_, ?_, ?_⟩
  · rw [prefaceWith, hall]
  · simp only [prefaceWith]
    rw [hrest, List.take_append, hall, List.append_assoc]
  · rw [hrest, List.drop_append, hnone, List.nil_append]

theorem prefaceWith_long (h : ¬ data.length < connectionPrefaceLen - c.prefaceBuffer.length) (more : Bytes) :
    prefaceWith c (data ++ more) = prefaceWith c data ∧ ¬ (prefaceWith c data).length < connectionPrefaceLen ∧
      (data ++ more).drop (connectionPrefaceLen - c.prefaceBuffer.length) =
        data.drop (connectionPrefaceLen - c.prefaceBuffer.length) ++ more := by
  have hle : connectionPrefaceLen - c.prefaceBuffer.length ≤ data.length := by omega
  refine ⟨?_, ?_, List.drop_append_of_le_length hle⟩
  · rw [prefaceWith, prefaceWith, List.take_append_of_le_length hle]
  · rw [prefaceWith, List.length_append, List.length_take]
    omega

/-- A piece that is taken makes no difference to the next. -/
theorem push_append (h : push data c = (.ok (), d)) (more : Bytes) : push (data ++ more) c = push more d := by
  by_cases hc : Started c
  · rw [push_started hc] at h ⊢
    cases h
    have hd : Started (give c data) := hc
    rw [push_started hd, give, give, give, take, take, take]
    simp [FrameDecoder.feed]
  · rw [push_preface hc] at h ⊢
    by_cases hmatch : prefaceWith c data = connectionPreface.take (prefaceWith c data).length
    · rw [if_pos hmatch] at h
      by_cases hlength : data.length < connectionPrefaceLen - c.prefaceBuffer.length
      · obtain ⟨hdata, hboth, hdrop⟩ := prefaceWith_short hlength more
        have hshort : (prefaceWith c data).length < connectionPrefaceLen := by
          rw [hdata, List.length_append]
          omega
        rw [if_pos hshort, hdata] at h
        cases h
        have hd : ¬ Started { c with prefaceBuffer := c.prefaceBuffer ++ data } := hc
        rw [push_preface hd, hboth, hdrop]
        rfl
      · obtain ⟨hboth, hlong, hdrop⟩ := prefaceWith_long hlength more
        rw [if_neg hlong] at h
        cases h
        have hd : Started (give (begin c (prefaceWith c data))
            (data.drop (connectionPrefaceLen - c.prefaceBuffer.length))) := fun hno => by cases hno.2
        rw [push_started hd, hboth, if_pos hmatch, if_neg hlong, hdrop]
        simp [give, take, FrameDecoder.feed]
    · rw [if_neg hmatch] at h
      cases h

/-- A preface that is wrong stays wrong. -/
theorem push_refused {e : Error} (h : push data c = (.error e, d)) (more : Bytes) :
    ∃ buffer buffer', d = { c with prefaceBuffer := buffer } ∧
      push (data ++ more) c = (.error e, { c with prefaceBuffer := buffer' }) := by
  by_cases hc : Started c
  · rw [push_started hc] at h
    cases h
  · rw [push_preface hc] at h ⊢
    by_cases hmatch : prefaceWith c data = connectionPreface.take (prefaceWith c data).length
    · rw [if_pos hmatch] at h
      split at h <;> cases h
    · rw [if_neg hmatch] at h
      cases h
      have hwrong : ¬ prefaceWith c (data ++ more) =
          connectionPreface.take (prefaceWith c (data ++ more)).length := by
        intro hright
        apply hmatch
        have hprefix : prefaceWith c data <+: connectionPreface := by
          have hboth : prefaceWith c data <+: prefaceWith c (data ++ more) := by
            by_cases hlength : data.length < connectionPrefaceLen - c.prefaceBuffer.length
            · obtain ⟨hdata, hall, _⟩ := prefaceWith_short hlength more
              rw [hdata, ← hall]
              exact List.prefix_append _ _
            · rw [(prefaceWith_long hlength more).1]
          exact hboth.trans (hright ▸ List.take_prefix _ _)
        exact (List.prefix_iff_eq_take.1 hprefix)
      rw [if_neg hwrong]
      exact ⟨_, _, rfl, rfl⟩

end

/-- The same outcome. After a failure the decoder may hold more, and more may be held of the preface. -/
structure Same (x y : Except Error Unit × Connection) : Prop where
  result : y.1 = x.1
  rest : ∃ more buffer, y.2 = { x.2 with
    frameDecoder := x.2.frameDecoder.feed more
    prefaceBuffer := buffer }
  state : x.1 = .ok () → y.2 = x.2

/-- Some run comes to it. -/
def Reachable (role : Role) (limits : Limits) (c : Connection) : Prop :=
  ∃ history, Run (Connection.new role limits) history c

section

variable {role : Role} {limits : Limits} {it : IterOrder} {c d : Connection} {piece : Bytes}
  {pieces : List Bytes} {r : Except Error Unit}

theorem reachable_role (h : Reachable role limits c) : c.role = role := by
  obtain ⟨history, hrun⟩ := h
  exact evolves_role (run_evolves hrun.any)

theorem reachable_process (it : IterOrder) (h : Reachable role limits c) :
    Reachable role limits (process it c).2 := by
  obtain ⟨history, hrun⟩ := h
  have hexec : ((Call.process it).exec c).2 = (process it c).2 := exec_value
  exact ⟨_, hexec ▸ Run.call (.process it) hrun⟩

theorem reachable_push (data : Bytes) (h : Reachable role limits c) :
    Reachable role limits (push data c).2 := by
  obtain ⟨history, hrun⟩ := h
  have hfeed : ((Call.feed data).exec c).2 = (feed data c).2 := exec_value
  have hpush : (push data c).2 = (feed data c).2 := exec_value
  have hexec : ((Call.feed data).exec c).2 = (push data c).2 := hfeed.trans hpush.symm
  exact ⟨_, hexec ▸ Run.call (.feed data) hrun⟩

theorem process_started (h : Reachable role limits c) (hc : Started c) : Started (process it c).2 := by
  rintro ⟨hserver, hreceived⟩
  have hrole : (process it c).2.role = c.role :=
    (reachable_role (reachable_process it h)).trans (reachable_role h).symm
  have hkept : (process it c).2.prefaceReceived = c.prefaceReceived :=
    congrArg Prod.fst (keeps_bind keeps_get (fun d => Expected.processLoop_preface it _) c)
  exact hc ⟨hrole.symm.trans hserver, hkept.symm.trans hreceived⟩

theorem feedAll_reads (h : Reachable role limits c) (hc : Started c) (hrun : feedAll it pieces c = (r, d)) :
    ∃ left, (pump it).Reads c pieces r left d ∧ (r = .ok () → left = []) := by
  induction pieces generalizing c with
  | nil =>
    cases hrun
    exact ⟨[], .done _, fun _ => rfl⟩
  | cons piece pieces ih =>
    rw [feedAll, bind_ok (push_started hc piece)] at hrun
    have hgiven : Reachable role limits (give c piece) := by
      have hpushed := reachable_push piece h
      rwa [push_started hc piece] at hpushed
    cases hprocess : process it (give c piece) with
    | mk r' c' =>
      cases r' with
      | error e =>
        rw [bind_error hprocess] at hrun
        cases hrun
        exact ⟨_, .fails pieces (drains_process hprocess), fun h => by cases h⟩
      | ok u =>
        rw [bind_ok hprocess] at hrun
        have hreach := reachable_process it hgiven
        have hstarted : Started (process it (give c piece)).2 := process_started hgiven hc
        rw [hprocess] at hreach hstarted
        obtain ⟨left, hreads, hleft⟩ := ih hreach hstarted hrun
        exact ⟨left, .piece (drains_process hprocess) hreads, hleft⟩

/-! ## The whole at once -/

theorem Same.refl (x : Except Error Unit × Connection) : Same x x := by
  refine ⟨rfl, ⟨[], x.2.prefaceBuffer, ?_⟩, fun _ => rfl⟩
  rw [FrameDecoder.feed_nil]

theorem feedAll_whole (h : push piece c = (.ok (), d)) : feedAll it [piece] c = process it d := by
  rw [feedAll, bind_ok h]
  change Prog.bind (process it) (fun _ => Prog.pure ()) d = _
  unfold Prog.bind
  obtain ⟨r, d'⟩ := process it d
  cases r <;> rfl

theorem feedAll_congr {data more : Bytes} (h : push data c = push more d) :
    feedAll it [data] c = feedAll it [more] d := by
  change Prog.bind (push data) _ c = Prog.bind (push more) _ d
  unfold Prog.bind
  rw [h]

theorem started_same (h : Reachable role limits c) (hc : Started c) (it : IterOrder) (piece : Bytes)
    (pieces : List Bytes) :
    Same (feedAll it (piece :: pieces) c) (feedAll it [(piece :: pieces).flatten] c) := by
  cases hrun : feedAll it (piece :: pieces) c with
  | mk r d =>
    obtain ⟨left, hreads, hleft⟩ := feedAll_reads h hc hrun
    have hdrains : (pump it).Drains (give c (piece :: pieces).flatten) r (give d left) :=
      Pump.reads_whole hreads
    rw [feedAll_whole (push_started hc _), process_drains hdrains]
    refine ⟨rfl, ⟨left, d.prefaceBuffer, rfl⟩, fun hok => ?_⟩
    rw [hleft hok]
    exact (pump it).give_nil d

/-- What a connection has received decides what it does, not the pieces in which it was fed. -/
theorem chunking_invariance (h : Reachable role limits c) (it : IterOrder) (piece : Bytes)
    (pieces : List Bytes) :
    Same (feedAll it (piece :: pieces) c) (feedAll it [(piece :: pieces).flatten] c) := by
  induction pieces generalizing c piece with
  | nil =>
    rw [List.flatten_cons, List.flatten_nil, List.append_nil]
    exact Same.refl _
  | cons next pieces ih =>
    by_cases hc : Started c
    · exact started_same h hc it piece (next :: pieces)
    · have hpreface : c.role = .server ∧ c.prefaceReceived = false := not_not.1 hc
      have hreach := reachable_push piece h
      rw [List.flatten_cons, feedAll]
      cases hpush : push piece c with
      | mk r d =>
        cases r with
        | error e =>
          obtain ⟨buffer, buffer', rfl, hwhole⟩ := push_refused hpush (next :: pieces).flatten
          rw [bind_error hpush, feedAll, bind_error hwhole]
          refine ⟨rfl, ⟨[], buffer', ?_⟩, fun hok => by cases hok⟩
          rw [FrameDecoder.feed_nil]
        | ok u =>
          rw [hpush] at hreach
          have hwhole : push (piece ++ (next :: pieces).flatten) c = push (next :: pieces).flatten d :=
            push_append hpush _
          rw [bind_ok hpush, feedAll_congr hwhole]
          by_cases hd : Started d
          · -- The rest of the piece is with the decoder: what follows goes on from an empty one.
            have hnothing : feedAll it ([] :: next :: pieces) d =
                (process it >>= fun _ => feedAll it (next :: pieces)) d := by
              rw [feedAll, bind_ok (push_started hd []), show give d [] = d from (pump it).give_nil d]
            have hsame := started_same hreach hd it [] (next :: pieces)
            rwa [hnothing, List.flatten_cons, List.nil_append] at hsame
          · have hunfed : Expected.Unfed d := by
              obtain ⟨history, hrun⟩ := hreach
              exact Expected.run_unfed hrun
            obtain ⟨hbuf, hheader⟩ := hunfed (not_not.1 hd).1 (not_not.1 hd).2
            rw [bind_ok (Expected.process_unfed hbuf hheader)]
            exact ih hreach next

end

/-- What a client sends for a request without content. -/
def requestBytes : Bytes := clientBytes [.headers ⟨1, true, true, none, getBlock, none⟩]

/-- A request that arrives in three pieces, cut within the preface and within a frame header. -/
theorem chunking_invariance_request :
    (feedAll .listed [requestBytes.take 10, (requestBytes.drop 10).take 18, requestBytes.drop 28]
        (Connection.new .server .default)).2.events.length = 3 ∧
      Same (feedAll .listed [requestBytes.take 10, (requestBytes.drop 10).take 18, requestBytes.drop 28]
          (Connection.new .server .default))
        (feedAll .listed [[requestBytes.take 10, (requestBytes.drop 10).take 18,
          requestBytes.drop 28].flatten] (Connection.new .server .default)) :=
  ⟨by decide +kernel, chunking_invariance ⟨[], .start⟩ .listed _ _⟩

end Chunking

end Http2
