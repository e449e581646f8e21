import Http2.Connection.Guards

/-! `process` turn by turn: it goes on until the decoder has nothing left or a frame is refused. -/
namespace Http2

open Hpack Lib Lib.Prog Connection

/-- The connection after its decoder went on. -/
def Connection.take (c : Connection) (d : FrameDecoder) : Connection := { c with frameDecoder := d }

/-- One turn of the loop of `process` that goes well. -/
inductive Passes (it : IterOrder) (c : Connection) : Connection → Prop
  | frame {f : Frame} {d : FrameDecoder} {c' : Connection}
      (hdecode : c.frameDecoder.decode = (.ok (some f), d))
      (h : handleFrame it f (c.take d) = (.ok (), c')) : Passes it c c'
  | reject {e : Error} {d : FrameDecoder} {c' : Connection}
      (hdecode : c.frameDecoder.decode = (.error e, d))
      (h : rejectFrame e (c.take d) = (.ok (), c')) : Passes it c c'

/-- One that ends it with an error. -/
inductive Stops (it : IterOrder) (c : Connection) (e : Error) (c' : Connection) : Prop
  | frame {f : Frame} {d : FrameDecoder} (hdecode : c.frameDecoder.decode = (.ok (some f), d))
      (h : handleFrame it f (c.take d) = (.error e, c'))
  | reject {e' : Error} {d : FrameDecoder} (hdecode : c.frameDecoder.decode = (.error e', d))
      (h : rejectFrame e' (c.take d) = (.error e, c'))

/-! ## Every turn uses octets up -/

/-- What the decoder has left to use up. -/
def FrameDecoder.left (d : FrameDecoder) : Nat := d.buf.length + if d.currentHeader.isSome then 1 else 0

theorem FrameDecoder.decodePayload_left {d d' : FrameDecoder} {header : FrameHeader}
    {r : Except Error (Option Frame)} (h : d.decodePayload header = (r, d')) :
    r = .ok none ∨ d'.left ≤ d.buf.length := by
  unfold decodePayload at h
  split at h
  · obtain ⟨rfl, rfl⟩ := Prod.mk.inj h
    exact .inl rfl
  · obtain ⟨rfl, rfl⟩ := Prod.mk.inj h
    refine .inr ?_
    simp only [left, Option.isSome_none, Bool.false_eq_true, if_false, List.length_drop]
    omega

/-- The decoder goes on to other octets unless it waits for more or the connection is lost. -/
theorem FrameDecoder.decode_left {d d' : FrameDecoder} {r : Except Error (Option Frame)}
    (h : d.decode = (r, d')) :
    r = .ok none ∨ d'.left < d.left ∨ ∃ e, r = .error e ∧ e.isStreamError = false := by
  unfold decode at h
  split at h
  · rename_i header hheader
    obtain hnone | hleft := decodePayload_left h
    · exact .inl hnone
    · refine .inr (.inl ?_)
      simp only [left, hheader, Option.isSome_some, if_true] at hleft ⊢
      omega
  · rename_i hheader
    split at h
    · obtain ⟨rfl, rfl⟩ := Prod.mk.inj h
      exact .inl rfl
    · rename_i hlong
      split at h
      · rename_i e hread
        obtain ⟨rfl, rfl⟩ := Prod.mk.inj h
        refine .inr (.inr ⟨e, rfl, ?_⟩)
        unfold decodeHeader at hread
        split at hread
        · cases hread
        · cases hread
          rfl
      · split at h
        · obtain ⟨rfl, rfl⟩ := Prod.mk.inj h
          exact .inr (.inr ⟨_, rfl, rfl⟩)
        · obtain hnone | hleft := decodePayload_left h
          · exact .inl hnone
          · refine .inr (.inl ?_)
            simp only [List.length_drop] at hleft
            simp only [left, hheader, Option.isSome_none, Bool.false_eq_true, if_false,
              frameHeaderSize] at hlong hleft ⊢
            omega

theorem rejectFrame_stream {e : Error} {c c' : Connection} (h : rejectFrame e c = (.ok (), c')) :
    e.isStreamError = true := by
  by_cases hstream : e.isStreamError = true
  · exact hstream
  · have hensures : Ensures (rejectFrame e) c fun r _ => r ≠ .ok () := by
      simp only [rejectFrame, ensures_bind, ensures_get, ensures_ite]
      exact ⟨fun h => absurd h hstream, fun _ h => by cases h⟩
    rw [Ensures, h] at hensures
    exact absurd rfl hensures

variable {it : IterOrder} {c c' d : Connection} {e : Error}

theorem Passes.left (h : Passes it c d) : d.frameDecoder.left < c.frameDecoder.left := by
  cases h with
  | frame hdecode h =>
    have hkept : d.frameDecoder = _ := congrArg Prod.fst ((handleFrame_intake it _).run h)
    rw [hkept]
    obtain hnone | hless | ⟨e, herror, _⟩ := FrameDecoder.decode_left hdecode
    · cases hnone
    · exact hless
    · cases herror
  | reject hdecode h =>
    have hkept : d.frameDecoder = _ := congrArg Guards.frameDecoder ((rejectFrame_keeps _).run h)
    rw [hkept]
    obtain hnone | hless | ⟨e, herror, hplain⟩ := FrameDecoder.decode_left hdecode
    · cases hnone
    · exact hless
    · cases herror
      rw [rejectFrame_stream h] at hplain
      cases hplain

/-! ## The loop -/

theorem decodeNext_run {r : Except Error (Option Frame)} {rest : FrameDecoder}
    (hdecode : c.frameDecoder.decode = (r, rest)) :
    decodeNext c = (.ok r, c.take rest) := by
  rw [decodeNext, bind_ok (m := get) rfl, bind_ok (m := modify _) rfl, hdecode]
  rfl

theorem processLoop_frame {f : Frame} {rest : FrameDecoder}
    (hdecode : c.frameDecoder.decode = (.ok (some f), rest)) (fuel : Nat) :
    processLoop it (fuel + 1) c = (handleFrame it f >>= fun _ => processLoop it fuel) (c.take rest) :=
  bind_ok (decodeNext_run hdecode) _

theorem processLoop_reject {e : Error} {rest : FrameDecoder}
    (hdecode : c.frameDecoder.decode = (.error e, rest)) (fuel : Nat) :
    processLoop it (fuel + 1) c = (rejectFrame e >>= fun _ => processLoop it fuel) (c.take rest) :=
  bind_ok (decodeNext_run hdecode) _

theorem processLoop_passes (h : Passes it c d) (fuel : Nat) :
    processLoop it (fuel + 1) c = processLoop it fuel d := by
  cases h with
  | frame hdecode h => rw [processLoop_frame hdecode, bind_ok h]
  | reject hdecode h => rw [processLoop_reject hdecode, bind_ok h]

theorem processLoop_stops (h : Stops it c e c') (fuel : Nat) :
    processLoop it (fuel + 1) c = (.error e, c') := by
  cases h with
  | frame hdecode h => rw [processLoop_frame hdecode, bind_error h]
  | reject hdecode h => rw [processLoop_reject hdecode, bind_error h]

/-- A turn waits, goes well or ends the loop. -/
theorem turn_cases (it : IterOrder) (c : Connection) :
    (∃ rest, c.frameDecoder.decode = (.ok none, rest)) ∨ (∃ d, Passes it c d) ∨
      ∃ e c', Stops it c e c' := by
  cases hdecode : c.frameDecoder.decode with
  | mk r rest =>
    rcases r with e | _ | f
    · cases hrun : rejectFrame e (c.take rest) with
      | mk result c' =>
        cases result with
        | ok u => exact .inr (.inl ⟨c', .reject hdecode hrun⟩)
        | error e' => exact .inr (.inr ⟨e', c', .reject hdecode hrun⟩)
    · exact .inl ⟨rest, rfl⟩
    · cases hrun : handleFrame it f (c.take rest) with
      | mk result c' =>
        cases result with
        | ok u => exact .inr (.inl ⟨c', .frame hdecode hrun⟩)
        | error e' => exact .inr (.inr ⟨e', c', .frame hdecode hrun⟩)

/-- How the loop ends: the decoder waits for more octets, or a turn fails. -/
def Finishes (it : IterOrder) (d : Connection) (r : Except Error Unit) (c' : Connection) : Prop :=
  match r with
  | .ok _ => ∃ rest, d.frameDecoder.decode = (.ok none, rest) ∧ c' = d.take rest
  | .error e => Stops it d e c'

/-- With fuel for what the decoder holds the loop goes on until then. -/
theorem processLoop_cases {fuel : Nat} (hfuel : c.frameDecoder.left < fuel)
    {r : Except Error Unit} (h : processLoop it fuel c = (r, c')) :
    ∃ d, Relation.ReflTransGen (Passes it) c d ∧ Finishes it d r c' := by
  induction fuel generalizing c with
  | zero => omega
  | succ fuel ih =>
    obtain ⟨rest, hdecode⟩ | ⟨d, hpasses⟩ | ⟨e, c'', hstops⟩ := turn_cases it c
    · have hwait : processLoop it (fuel + 1) c = (.ok (), c.take rest) :=
        bind_ok (decodeNext_run hdecode) _
      rw [hwait] at h
      obtain ⟨rfl, rfl⟩ := Prod.mk.inj h
      exact ⟨c, .refl, rest, hdecode, rfl⟩
    · rw [processLoop_passes hpasses] at h
      have hless := hpasses.left
      obtain ⟨d', hreach, hend⟩ := ih (by omega) h
      exact ⟨d', .head hpasses hreach, hend⟩
    · rw [processLoop_stops hstops] at h
      obtain ⟨rfl, rfl⟩ := Prod.mk.inj h
      exact ⟨c, .refl, hstops⟩

theorem processLoop_finishes {r : Except Error Unit} (h : Finishes it d r c') (fuel : Nat) :
    processLoop it (fuel + 1) d = (r, c') := by
  cases r with
  | error e => exact processLoop_stops h fuel
  | ok u =>
    obtain ⟨rest, hdecode, rfl⟩ := h
    exact bind_ok (decodeNext_run hdecode) _

theorem processLoop_finished {fuel : Nat} {r : Except Error Unit}
    (hreach : Relation.ReflTransGen (Passes it) c d) (hfuel : c.frameDecoder.left < fuel)
    (h : Finishes it d r c') : processLoop it fuel c = (r, c') := by
  induction hreach using Relation.ReflTransGen.head_induction_on generalizing fuel with
  | refl =>
    obtain ⟨fuel, rfl⟩ : ∃ n, fuel = n + 1 := ⟨fuel - 1, by omega⟩
    exact processLoop_finishes h fuel
  | head hpasses _ ih =>
    obtain ⟨fuel, rfl⟩ : ∃ n, fuel = n + 1 := ⟨fuel - 1, by omega⟩
    have hless := hpasses.left
    rw [processLoop_passes hpasses]
    exact ih (by omega)

theorem left_lt_fuel (d : FrameDecoder) : d.left < d.buf.length + 2 := by
  unfold FrameDecoder.left
  split <;> omega

/-- `process` ends as the turns do that it comes to. -/
theorem process_iff {r : Except Error Unit} : process it c = (r, c') ↔
    ∃ d, Relation.ReflTransGen (Passes it) c d ∧ Finishes it d r c' := by
  have hprocess : process it c = processLoop it (c.frameDecoder.buf.length + 2) c :=
    bind_ok (m := get) rfl _
  rw [hprocess]
  constructor
  · exact fun h => processLoop_cases (left_lt_fuel _) h
  · rintro ⟨d, hreach, hfinishes⟩
    exact processLoop_finished hreach (left_lt_fuel _) hfinishes

/-- A call of `process` that goes well. -/
theorem exec_process_ok {v : Value} (h : ((Call.process it).exec c).1 = .ok v) :
    process it c = (.ok (), ((Call.process it).exec c).2) := by
  cases hrun : process it c with
  | mk r d =>
    cases r with
    | ok u =>
      have hexec : (Call.process it).exec c = (.ok .unit, d) := bind_ok hrun _
      rw [hexec]
    | error e =>
      have hexec : (Call.process it).exec c = (.error e, d) := bind_error hrun _
      rw [hexec] at h
      cases h

end Http2
