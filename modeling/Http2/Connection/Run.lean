import Http2.Connection.Receive

/-! Runs of a connection: the calls an application makes, in any order. -/
namespace Http2

open Hpack Lib Lib.Prog

/-- A call of the public interface. `process` carries the order in which its hash-map iterations
happen to go. -/
inductive Call
  | initiate
  | feed (data : Bytes)
  | markPrefaceReceived
  | markPrefaceSent
  | sendSettings
  | process (it : Connection.IterOrder)
  | pollEvent
  | pollOutput
  | startStream (headers : List HeaderField) (endStream : Bool)
  | sendResponse (streamId : Nat) (headers : List HeaderField) (endStream : Bool)
  | sendTrailers (streamId : Nat) (headers : List HeaderField)
  | sendData (streamId : Nat) (data : Bytes) (endStream : Bool)
  | resetStream (streamId : Nat) (errorCode : ErrorCode)
  | sendPing (opaqueData : Bytes)
  | sendGoaway (errorCode : ErrorCode) (debugData : Bytes)
  | sendWindowUpdate (streamId increment : Nat)

/-- What a call returns. -/
inductive Value
  | unit
  | length (n : Nat)
  | streamId (sid : Nat)
  | event (e : Option Event)
  | output (bytes : Option Bytes)
  deriving DecidableEq, Repr

namespace Call

open Connection

/-- A call that returns nothing. -/
def unitValue (m : Conn Unit) : Conn Value := do
  m
  return .unit

def exec : Call → Conn Value
  | initiate => unitValue Connection.initiate
  | feed data => do return .length (← Connection.feed data)
  | markPrefaceReceived => unitValue Connection.markPrefaceReceived
  | markPrefaceSent => unitValue Connection.markPrefaceSent
  | sendSettings => unitValue Connection.sendSettings
  | process it => unitValue (Connection.process it)
  | pollEvent => do return .event (← Connection.pollEvent)
  | pollOutput => do return .output (← Connection.pollOutput)
  | startStream headers endStream => do return .streamId (← Connection.startStream headers endStream)
  | sendResponse sid headers endStream => unitValue (Connection.sendResponse sid headers endStream)
  | sendTrailers sid headers => unitValue (Connection.sendTrailers sid headers)
  | sendData sid data endStream => unitValue (Connection.sendData sid data endStream)
  | resetStream sid errorCode => unitValue (Connection.resetStream sid errorCode)
  | sendPing opaqueData => unitValue (Connection.sendPing opaqueData)
  | sendGoaway errorCode debugData => unitValue (Connection.sendGoaway errorCode debugData)
  | sendWindowUpdate sid increment => unitValue (Connection.sendWindowUpdate sid increment)

/-- The calls that take in what the peer sent. -/
def isInput : Call → Bool
  | feed _ | process _ => true
  | _ => false

end Call

/-- The calls that build frames from their arguments and check them first. -/
def Call.isRequest : Call → Bool
  | .startStream _ _ | .sendResponse _ _ _ | .sendTrailers _ _ | .sendData _ _ _ | .resetStream _ _
  | .sendWindowUpdate _ _ | .sendGoaway _ _ => true
  | _ => false

/-- A call with what it returned. -/
structure Record where
  call : Call
  result : Except Error Value

def Record.ok (r : Record) : Bool :=
  match r.result with
  | .ok _ => true
  | .error _ => false

/-- The connections that calls lead to, with the calls made, most recent first. -/
inductive Run (c₀ : Connection) : List Record → Connection → Prop
  | start : Run c₀ [] c₀
  | call {history : List Record} {c : Connection} (k : Call) :
      Run c₀ history c → Run c₀ (⟨k, (k.exec c).1⟩ :: history) (k.exec c).2

/-- No `feed` and no `process` has failed. -/
def Sound (history : List Record) : Prop := ∀ r ∈ history, r.call.isInput = true → r.ok = true

/-! ## Runs that meet terms -/

/-- What is asked of every frame that is handled, of every frame that the decoder refuses with a
stream error and of every call, in the state before it. -/
structure Terms where
  frame : Core → Frame → Prop
  refusal : Core → Nat → Prop
  api : Core → Call → Prop

def Terms.any : Terms where
  frame _ _ := True
  refusal _ _ := True
  api _ _ := True

/-- Every frame that `processLoop` takes meets the terms. -/
def Connection.Heeds (T : Terms) (it : Connection.IterOrder) : Nat → Connection → Prop
  | 0, _ => True
  | fuel + 1, c =>
    let c₁ := { c with frameDecoder := c.frameDecoder.decode.2 }
    match c.frameDecoder.decode.1 with
    | .ok none => True
    | .ok (some f) =>
      T.frame c.toCore f ∧
        Ensures (Connection.handleFrame it f) c₁ fun r c' => r = .ok () → c'.Heeds T it fuel
    | .error e =>
      (e.isStreamError = true → ∀ sid ∈ c₁.frameDecoder.lastDecodedStreamId,
          T.refusal c.toCore sid) ∧
        Ensures (Connection.rejectFrame e) c₁ fun r c' => r = .ok () → c'.Heeds T it fuel

def Call.Heeds (T : Terms) (c : Connection) : Call → Prop
  | process it => c.Heeds T it (c.frameDecoder.buf.length + 2)
  | _ => True

inductive RunOf (T : Terms) (c₀ : Connection) : List Record → Connection → Prop
  | start : RunOf T c₀ [] c₀
  | call {history : List Record} {c : Connection} (k : Call) (hk : T.api c.toCore k)
      (hheeds : k.Heeds T c) :
      RunOf T c₀ history c → RunOf T c₀ (⟨k, (k.exec c).1⟩ :: history) (k.exec c).2

theorem heeds_any (it : Connection.IterOrder) (fuel : Nat) (c : Connection) :
    c.Heeds Terms.any it fuel := by
  induction fuel generalizing c with
  | zero => trivial
  | succ fuel ih =>
    simp only [Connection.Heeds]
    split
    · trivial
    · exact ⟨trivial, fun _ => ih _⟩
    · exact ⟨fun _ _ _ => trivial, fun _ => ih _⟩

/-- Every run meets the terms that ask for nothing. -/
theorem Run.any {c₀ c : Connection} {history : List Record} (h : Run c₀ history c) :
    RunOf Terms.any c₀ history c := by
  induction h with
  | start => exact .start
  | call k _ ih =>
    refine .call k trivial ?_ ih
    cases k <;> first | trivial | exact heeds_any _ _ _

theorem RunOf.trans {T : Terms} {c₀ c₁ c : Connection} {earlier history : List Record}
    (h₁ : RunOf T c₀ earlier c₁) (h : RunOf T c₁ history c) : RunOf T c₀ (history ++ earlier) c := by
  induction h with
  | start => exact h₁
  | call k hk hheeds _ ih => exact .call k hk hheeds ih

theorem RunOf.run {T : Terms} {c₀ c : Connection} {history : List Record}
    (h : RunOf T c₀ history c) : Run c₀ history c := by
  induction h with
  | start => exact .start
  | call k _ _ _ ih => exact .call k ih

/-! ## Runs that are computed -/

/-- Make the calls one after the other. -/
def execAll : List Call → List Record → Connection → List Record × Connection
  | [], history, c => (history, c)
  | k :: ks, history, c => execAll ks (⟨k, (k.exec c).1⟩ :: history) (k.exec c).2

theorem Run.execAll {c₀ c : Connection} {history : List Record} (h : Run c₀ history c)
    (ks : List Call) : Run c₀ (execAll ks history c).1 (execAll ks history c).2 := by
  induction ks generalizing history c with
  | nil => exact h
  | cons k ks ih => exact ih (.call k h)

/-- Every one of the calls meets the terms. -/
def HeedsAll (T : Terms) : List Call → Connection → Prop
  | [], _ => True
  | k :: ks, c => T.api c.toCore k ∧ k.Heeds T c ∧ HeedsAll T ks (k.exec c).2

theorem RunOf.execAll {T : Terms} {c₀ c : Connection} {history : List Record} {ks : List Call}
    (h : RunOf T c₀ history c) (hheeds : HeedsAll T ks c) :
    RunOf T c₀ (execAll ks history c).1 (execAll ks history c).2 := by
  induction ks generalizing history c with
  | nil => exact h
  | cons k ks ih => exact ih (.call k hheeds.1 hheeds.2.1 h) hheeds.2.2

theorem Except.eq_ok_unit_iff {r : Except Error Unit} : r = .ok () ↔ r.isOk = true := by
  cases r with
  | ok u => simp [Except.isOk, Except.toBool]
  | error e => simp [Except.isOk, Except.toBool]

section Decidable

variable {T : Terms} [∀ c f, Decidable (T.frame c f)] [∀ c sid, Decidable (T.refusal c sid)]
  [∀ c k, Decidable (T.api c k)]

instance decidableHeeds (it : Connection.IterOrder) :
    (fuel : Nat) → (c : Connection) → Decidable (c.Heeds T it fuel)
  | 0, _ => inferInstanceAs (Decidable True)
  | fuel + 1, c =>
    have := decidableHeeds it fuel
    let c₁ := { c with frameDecoder := c.frameDecoder.decode.2 }
    match hdecode : c.frameDecoder.decode.1 with
    | .ok none => .isTrue (by simp [Connection.Heeds, hdecode])
    | .ok (some f) =>
      let r := Connection.handleFrame it f c₁
      decidable_of_iff (T.frame c.toCore f ∧ (r.1.isOk = true → r.2.Heeds T it fuel)) (by
        simp only [Connection.Heeds, hdecode, Ensures, Except.eq_ok_unit_iff]
        exact Iff.rfl)
    | .error e =>
      let r := Connection.rejectFrame e c₁
      decidable_of_iff ((e.isStreamError = true → ∀ sid ∈ c₁.frameDecoder.lastDecodedStreamId,
          T.refusal c.toCore sid) ∧ (r.1.isOk = true → r.2.Heeds T it fuel)) (by
        simp only [Connection.Heeds, hdecode, Ensures, Except.eq_ok_unit_iff]
        exact Iff.rfl)

instance (c : Connection) : (k : Call) → Decidable (k.Heeds T c)
  | .process it => decidableHeeds it _ c
  | .initiate | .feed _ | .markPrefaceReceived | .markPrefaceSent | .sendSettings | .pollEvent
  | .pollOutput | .startStream _ _ | .sendResponse _ _ _ | .sendTrailers _ _ | .sendData _ _ _
  | .resetStream _ _ | .sendPing _ | .sendGoaway _ _ | .sendWindowUpdate _ _ =>
    inferInstanceAs (Decidable True)

instance decidableHeedsAll : (ks : List Call) → (c : Connection) → Decidable (HeedsAll T ks c)
  | [], _ => inferInstanceAs (Decidable True)
  | k :: ks, c =>
    have := decidableHeedsAll ks (k.exec c).2
    inferInstanceAs (Decidable (_ ∧ _))

end Decidable

/-- The order that the map itself has. -/
def Connection.IterOrder.listed : Connection.IterOrder := ⟨fun _ ids => ids, fun _ _ => .refl _⟩

/-- A request without content. -/
def getRequest : List HeaderField :=
  [⟨ascii ":method", ascii "GET", false⟩, ⟨ascii ":scheme", ascii "https", false⟩,
    ⟨ascii ":authority", ascii "a", false⟩, ⟨ascii ":path", ascii "/", false⟩]

/-- Its header block, as an encoder without entries writes it. -/
def getBlock : Bytes := [0x82, 0x87, 0x41, 0x01, 0x61, 0x84]

/-- What a client that sends nothing but these frames feeds to a server. -/
def clientBytes (frames : List Frame) : Bytes :=
  Connection.connectionPreface ++ Frame.wire (.settings ⟨false, []⟩) ++ frames.flatMap Frame.wire

/-- What a server that sends nothing but these frames feeds to a client. -/
def serverBytes (frames : List Frame) : Bytes :=
  Frame.wire (.settings ⟨false, []⟩) ++ frames.flatMap Frame.wire

end Http2
