import Http2.WebTransport.Receive

/-! Runs of a WebTransport session: its public operations, in any order. -/
namespace Http2.WebTransport

open Lib Lib.Prog

/-- A call of the public interface, `flow_control_mut` aside. -/
inductive WtCall
  | initiate
  | feed (data : Bytes)
  | process
  | pollOutput
  | pollEvent
  | openBidiStream
  | openUniStream
  | sendStreamData (streamId : Nat) (data : Bytes) (fin : Bool)
  | resetStream (streamId errorCode : Nat)
  | stopSending (streamId errorCode : Nat)
  | sendDatagram (data : Bytes)
  | close (errorCode : UInt32) (reason : String)
  | sendMaxData (maximum : Nat)
  | sendMaxStreamData (streamId maximum : Nat)
  | sendMaxStreams (maximum : Nat) (bidirectional : Bool)
  | growRecvWindow (increment : Nat)
  | growStreamRecvWindow (streamId increment : Nat)
  | growMaxStreams (increment : Nat) (bidirectional : Bool)
  | drain
  deriving DecidableEq, Repr

/-- What a call returns. -/
inductive WtValue
  | unit
  | length (n : Nat)
  | streamId (id : Nat)
  | event (e : Option WtEvent)
  | output (bytes : Option Bytes)
  deriving DecidableEq, Repr

open WtSession in
theorem ensures_map {α β : Type} {m : Wt α} {f : α → β} {s : WtSession}
    {Q : WtResult β → WtSession → Prop} :
    Ensures (m >>= fun a => pure (f a)) s Q ↔ Ensures m s fun r s' => Q (r.map f) s' := by
  rw [ensures_bind]
  unfold Ensures
  cases (m s).1 <;> exact Iff.rfl

open WtSession in
/-- What a value is wrapped in does not matter to the state. -/
theorem ensures_return {α β : Type} {m : Wt α} {f : α → β} {s : WtSession}
    {P : WtSession → Prop} :
    Ensures (m >>= fun a => pure (f a)) s (fun _ s' => P s') ↔ Ensures m s fun _ s' => P s' :=
  ensures_map

namespace WtCall

open WtSession

def unitValue (m : Wt Unit) : Wt WtValue := do
  m
  return .unit

def exec : WtCall → Wt WtValue
  | initiate => unitValue WtSession.initiate
  | feed data => do return .length (← WtSession.feed data)
  | process => unitValue WtSession.process
  | pollOutput => do return .output (← WtSession.pollOutput)
  | pollEvent => do return .event (← WtSession.pollEvent)
  | openBidiStream => do return .streamId (← WtSession.openBidiStream)
  | openUniStream => do return .streamId (← WtSession.openUniStream)
  | sendStreamData streamId data fin => unitValue (WtSession.sendStreamData streamId data fin)
  | resetStream streamId errorCode => unitValue (WtSession.resetStream streamId errorCode)
  | stopSending streamId errorCode => unitValue (WtSession.stopSending streamId errorCode)
  | sendDatagram data => unitValue (WtSession.sendDatagram data)
  | close errorCode reason => unitValue (WtSession.close errorCode reason)
  | sendMaxData maximum => unitValue (WtSession.sendMaxData maximum)
  | sendMaxStreamData streamId maximum => unitValue (WtSession.sendMaxStreamData streamId maximum)
  | sendMaxStreams maximum bidirectional =>
    unitValue (WtSession.sendMaxStreams maximum bidirectional)
  | growRecvWindow increment => unitValue (WtSession.growRecvWindow increment)
  | growStreamRecvWindow streamId increment =>
    unitValue (WtSession.growStreamRecvWindow streamId increment)
  | growMaxStreams increment bidirectional =>
    unitValue (WtSession.growMaxStreams increment bidirectional)
  | drain => unitValue WtSession.drain

/-- The calls that build capsules from their arguments. -/
def isSend : WtCall → Bool
  | initiate | feed _ | process | pollOutput | pollEvent => false
  | _ => true

end WtCall

/-- The calls of a list, one after the other, whatever each of them returns. -/
def runCalls (s : WtSession) : List WtCall → WtSession
  | [] => s
  | call :: calls => runCalls (call.exec s).2 calls

/-- The states that a session reaches from its creation. -/
inductive WtRun (role : Role) (config peerConfig : WtConfig) : WtSession → Prop
  | init : WtRun role config peerConfig (WtSession.new role config peerConfig)
  | call {s : WtSession} (run : WtRun role config peerConfig s) (c : WtCall) :
    WtRun role config peerConfig (c.exec s).2

theorem WtRun.runCalls {role : Role} {config peerConfig : WtConfig} {s : WtSession}
    (run : WtRun role config peerConfig s) (calls : List WtCall) :
    WtRun role config peerConfig (runCalls s calls) := by
  induction calls generalizing s with
  | nil => exact run
  | cons c calls ih => exact ih (run.call c)

end Http2.WebTransport
