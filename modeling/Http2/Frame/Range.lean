import Http2.Frame.Decoder

/-! What the decoder reads is within the widths of its fields. -/
namespace Http2

open Lib.BigEndian

/-- The fields are as wide as the octets that they are read off, and only the connection has id 0. -/
def Frame.InRange : Frame → Prop
  | .data f => 0 < f.streamId ∧ f.streamId < 2 ^ 31
  | .headers f => 0 < f.streamId ∧ f.streamId < 2 ^ 31
  | .priority streamId _ => 0 < streamId ∧ streamId < 2 ^ 31
  | .rstStream streamId errorCode => 0 < streamId ∧ streamId < 2 ^ 31 ∧ errorCode < 2 ^ 32
  | .settings f => (f.ack = true → f.settings = []) ∧
      ∀ s ∈ f.settings, ∃ id value, Setting.fromWire id value = .ok s
  | .pushPromise streamId => 0 < streamId ∧ streamId < 2 ^ 31
  | .ping _ opaqueData => opaqueData.length = 8
  | .goaway f => f.lastStreamId < 2 ^ 31 ∧ f.errorCode < 2 ^ 32
  | .windowUpdate streamId increment => streamId < 2 ^ 31 ∧ 0 < increment ∧ increment < 2 ^ 31
  | .continuation f => 0 < f.streamId ∧ f.streamId < 2 ^ 31
  | .priorityUpdate prioritizedElementId _ => 0 < prioritizedElementId ∧ prioritizedElementId < 2 ^ 31
  | .unknown header _ => header.streamId < 2 ^ 31

/-- A decoding that goes well gives a frame in range. -/
def Ranges (r : Except Error Frame) : Prop := ∀ f, r = .ok f → f.InRange

theorem ranges_ok {f : Frame} (hf : f.InRange) : Ranges (.ok f) := by
  rintro _ ⟨rfl⟩
  exact hf

theorem ranges_error {e : Error} : Ranges (.error e) := by
  intro f h
  cases h

theorem ranges_bind {α : Type} {x : Except Error α} {g : α → Except Error Frame}
    (hg : ∀ a, x = .ok a → Ranges (g a)) : Ranges (x >>= g) := by
  cases x with
  | ok a => exact hg a rfl
  | error e => exact ranges_error

theorem requireNonZero_eq {raw streamId : Nat} {frameName : String}
    (h : requireNonZeroStreamId raw frameName = .ok streamId) : streamId = raw ∧ 0 < raw := by
  unfold requireNonZeroStreamId at h
  split at h
  · cases h
  · cases h
    exact ⟨rfl, by omega⟩

theorem decodeSettingsList_wire {payload : Bytes} {settings : List Setting}
    (h : decodeSettingsList payload = .ok settings) :
    ∀ s ∈ settings, ∃ id value, Setting.fromWire id value = .ok s := by
  fun_induction decodeSettingsList payload generalizing settings with
  | case1 => cases h
  | case2 i0 i1 v0 v1 v2 v3 rest setting hsetting ih =>
    cases hrest : decodeSettingsList rest with
    | error e => simp [hrest, bind, Except.bind] at h
    | ok more =>
      obtain rfl : setting :: more = settings := by
        simpa [hrest, bind, Except.bind, pure, Except.pure] using h
      intro s hs
      obtain rfl | hs := List.mem_cons.1 hs
      · exact ⟨_, _, hsetting⟩
      · exact ih hrest s hs
  | case3 =>
    cases h
    intro s hs
    cases hs

section

variable {header : FrameHeader} {payload : Bytes}

theorem decodeSettings_inRange : Ranges (decodeSettings header payload) := by
  unfold decodeSettings
  split
  · exact ranges_error
  · split
    · split
      · exact ranges_error
      · exact ranges_ok ⟨fun _ => rfl, by simp⟩
    · split
      · exact ranges_error
      · apply ranges_bind
        intro settings hsettings
        exact ranges_ok ⟨(fun h => by cases h), decodeSettingsList_wire hsettings⟩

theorem decodePing_inRange : Ranges (decodePing header payload) := by
  unfold decodePing
  split
  · exact ranges_error
  · split
    · exact ranges_error
    · rename_i hlength
      exact ranges_ok (not_not.1 hlength)

theorem ofBe_take_lt (n : Nat) (octets : Bytes) : ofBe (octets.take n) < 256 ^ n := by
  have hlt := ofBe_lt (octets.take n)
  have hle : 256 ^ (octets.take n).length ≤ 256 ^ n :=
    Nat.pow_le_pow_right (by decide) (List.length_take_le n octets)
  omega

theorem decodeGoaway_inRange : Ranges (decodeGoaway header payload) := by
  unfold decodeGoaway
  split
  · exact ranges_error
  · split
    · exact ranges_error
    · exact ranges_ok ⟨Nat.mod_lt _ (by decide), ofBe_take_lt 4 _⟩

theorem decodeWindowUpdate_inRange (hsid : header.streamId < 2 ^ 31) :
    Ranges (decodeWindowUpdate header payload) := by
  unfold decodeWindowUpdate
  split
  · exact ranges_error
  · simp only
    split
    · split <;> exact ranges_error
    · rename_i hpos
      exact ranges_ok ⟨hsid, Nat.pos_of_ne_zero hpos, Nat.mod_lt _ (by decide)⟩

theorem decodePriorityUpdate_inRange : Ranges (decodePriorityUpdate header payload) := by
  unfold decodePriorityUpdate
  split
  · exact ranges_error
  · split
    · exact ranges_error
    · simp only
      split
      · exact ranges_error
      · rename_i hpos
        exact ranges_ok ⟨Nat.pos_of_ne_zero hpos, Nat.mod_lt _ (by decide)⟩

theorem decodeRstStream_inRange (hsid : header.streamId < 2 ^ 31) :
    Ranges (decodeRstStream header payload) := by
  apply ranges_bind
  intro streamId hstream
  obtain ⟨rfl, hpos⟩ := requireNonZero_eq hstream
  split
  · exact ranges_error
  · rename_i hlength
    have hlt := ofBe_lt payload
    rw [not_not.1 hlength] at hlt
    exact ranges_ok ⟨hpos, hsid, hlt⟩

/-- What is read off octets is in range. -/
theorem decodeFrame_inRange (hsid : header.streamId < 2 ^ 31) : Ranges (decodeFrame header payload) := by
  unfold decodeFrame
  split
  · apply ranges_bind
    intro streamId hstream
    obtain ⟨rfl, hpos⟩ := requireNonZero_eq hstream
    exact ranges_bind fun _ _ => ranges_ok ⟨hpos, hsid⟩
  · apply ranges_bind
    intro streamId hstream
    obtain ⟨rfl, hpos⟩ := requireNonZero_eq hstream
    apply ranges_bind
    rintro ⟨body, padLength⟩ _
    simp only
    split
    · split
      · exact ranges_error
      · exact ranges_ok ⟨hpos, hsid⟩
    · exact ranges_ok ⟨hpos, hsid⟩
  · apply ranges_bind
    intro streamId hstream
    obtain ⟨rfl, hpos⟩ := requireNonZero_eq hstream
    split
    · exact ranges_ok ⟨hpos, hsid⟩
    · exact ranges_error
  · exact decodeRstStream_inRange hsid
  · exact decodeSettings_inRange
  · unfold decodePushPromise
    split
    · exact ranges_error
    · rename_i hpos
      exact ranges_ok ⟨Nat.pos_of_ne_zero hpos, hsid⟩
  · exact decodePing_inRange
  · exact decodeGoaway_inRange
  · exact decodeWindowUpdate_inRange hsid
  · apply ranges_bind
    intro streamId hstream
    obtain ⟨rfl, hpos⟩ := requireNonZero_eq hstream
    exact ranges_ok ⟨hpos, hsid⟩
  · exact decodePriorityUpdate_inRange
  · exact ranges_ok hsid

end

/-! ## The decoder -/

namespace FrameDecoder

/-- The header that is kept is in range. -/
def InRange (d : FrameDecoder) : Prop := ∀ header ∈ d.currentHeader, header.streamId < 2 ^ 31

theorem new_inRange (maxFrameSize : Nat) : (new maxFrameSize).InRange := by
  intro header h
  cases h

theorem decodePayload_inRange {d d' : FrameDecoder} {header : FrameHeader} {r : Except Error (Option Frame)}
    (hsid : header.streamId < 2 ^ 31) (h : d.decodePayload header = (r, d')) :
    d'.InRange ∧ ∀ f, r = .ok (some f) → f.InRange := by
  unfold decodePayload at h
  split at h
  · cases h
    refine ⟨?_, (fun f hf => by cases hf)⟩
    rintro kept ⟨rfl⟩
    exact hsid
  · cases h
    refine ⟨(fun kept hkept => by cases hkept), fun f hf => ?_⟩
    cases hframe : decodeFrame header (d.buf.take header.length) with
    | error e => simp [hframe, Except.map] at hf
    | ok g =>
      obtain rfl : g = f := by simpa [hframe, Except.map] using hf
      exact decodeFrame_inRange hsid g hframe

theorem decodeHeader_inRange {front : Bytes} {header : FrameHeader} (h : decodeHeader front = .ok header) :
    header.streamId < 2 ^ 31 := by
  unfold decodeHeader at h
  split at h
  · cases h
    exact Nat.mod_lt _ (by decide)
  · cases h

theorem decode_inRange {d d' : FrameDecoder} {r : Except Error (Option Frame)} (hd : d.InRange)
    (h : d.decode = (r, d')) : d'.InRange ∧ ∀ f, r = .ok (some f) → f.InRange := by
  unfold decode at h
  split at h
  · rename_i header hheader
    exact decodePayload_inRange (hd header hheader) h
  · split at h
    · cases h
      exact ⟨hd, (fun f hf => by cases hf)⟩
    · split at h
      · cases h
        exact ⟨hd, (fun f hf => by cases hf)⟩
      · rename_i header hread
        split at h
        · cases h
          exact ⟨hd, (fun f hf => by cases hf)⟩
        · exact decodePayload_inRange (decodeHeader_inRange hread) h

end FrameDecoder

end Http2
