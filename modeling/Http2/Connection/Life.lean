import Http2.Connection.Moves
import Http2.Lib.Monitor

/-! What a stream is for, apart from the connection that it is on: it is opened once, each side ends
once, what is queued leaves in order before the end of this side, and nothing follows its own end.
The history of a stream is read by a machine that knows no more than that. -/
namespace Http2

open Hpack Lib Connection

namespace Life

/-! ## The machine -/

/-- Where a stream is: not yet opened, opened without a header section, with what either side has
ended and what is left to send, reset by this side, or gone. -/
inductive Phase
  | unborn
  | born
  | live (remoteEnded localEnded : Bool) (unsent : Bytes)
  | aborted
  | gone
  deriving DecidableEq, Repr

namespace Phase

def opens : Phase → Option Phase
  | unborn => some born
  | _ => none

/-- A header section is delivered: one to a server, interim ones too to a client. -/
def hearsHeaders (role : Role) (endStream : Bool) : Phase → Option Phase
  | born => some (live endStream false [])
  | live false localEnded unsent =>
    if role = .client then some (live endStream localEnded unsent) else none
  | _ => none

/-- Data or trailers are delivered. -/
def hears (endStream : Bool) : Phase → Option Phase
  | live false localEnded unsent => some (live endStream localEnded unsent)
  | _ => none

def queues (data : Bytes) : Phase → Option Phase
  | live remoteEnded false unsent => some (live remoteEnded false (unsent ++ data))
  | _ => none

/-- HEADERS leaves; with END_STREAM nothing may be left to send. -/
def saysHeaders (endStream : Bool) : Phase → Option Phase
  | born => some (live false endStream [])
  | live remoteEnded false unsent =>
    if endStream = true → unsent = [] then some (live remoteEnded endStream unsent) else none
  | _ => none

/-- DATA leaves: the next octets that were queued, and all of them with END_STREAM. -/
def saysData (data : Bytes) (endStream : Bool) : Phase → Option Phase
  | live remoteEnded false unsent =>
    if data <+: unsent ∧ (endStream = true → unsent = data) then
      some (live remoteEnded endStream (unsent.drop data.length))
    else none
  | _ => none

/-- The frames of a header block before and after its HEADERS. -/
def speaks : Phase → Option Phase
  | born => some born
  | live remoteEnded localEnded unsent => some (live remoteEnded localEnded unsent)
  | _ => none

/-- RST_STREAM leaves. A stream that it comes first of all for is never opened. -/
def aborts : Phase → Option Phase
  | unborn | gone => some gone
  | born | live _ _ _ | aborted => some aborted

def resets : Phase → Option Phase
  | born | live _ _ _ | aborted => some gone
  | unborn | gone => none

/-- Only a stream that both sides have ended is reported as closed. -/
def closes : Phase → Option Phase
  | live true true _ => some gone
  | _ => none

end Phase

/-- What an item makes of the phase. Credit is given and taken at any time. -/
def step (role : Role) (p : Phase) : Item → Option Phase
  | .opened _ => p.opens
  | .event (.headersReceived _ _ endStream _) => p.hearsHeaders role endStream
  | .event (.dataReceived _ _ endStream) => p.hears endStream
  | .event (.trailersReceived _ _) => p.hears true
  | .event (.streamReset _ _ _) => p.resets
  | .event (.streamClosed _) => p.closes
  | .queued _ data => p.queues data
  | .sent (.headers f) => p.saysHeaders f.endStream
  | .sent (.data f) => p.saysData f.data f.endStream
  | .sent (.rstStream _ _) => p.aborts
  | .sent (.continuation _) | .encoded _ _ => p.speaks
  | _ => some p

/-- The phase after a history, if it is one of a stream. -/
def phase (role : Role) (items : List Item) : Option Phase := reads (step role) .unborn items

/-- Items about no stream's life. -/
def isPlain : Item → Bool
  | .opened _ | .queued _ _ | .encoded _ _ | .sent (.headers _) | .sent (.data _)
  | .sent (.rstStream _ _) | .sent (.continuation _) => false
  | .event e => e.lifeStream?.isNone
  | _ => true

/-- The same machine, one constructor for each way to go on. -/
inductive Goes (role : Role) : Phase → Item → Phase → Prop
  | opened (sid : Nat) : Goes role .unborn (.opened sid) .born
  | first (sid : Nat) (headers : List HeaderField) (endStream : Bool) (protocol : Option Bytes) :
      Goes role .born (.event (.headersReceived sid headers endStream protocol)) (.live endStream false [])
  | next {l : Bool} {u : Bytes} (sid : Nat) (headers : List HeaderField) (endStream : Bool)
      (protocol : Option Bytes) (hrole : role = .client) :
      Goes role (.live false l u) (.event (.headersReceived sid headers endStream protocol))
        (.live endStream l u)
  | data {l : Bool} {u : Bytes} (sid : Nat) (data : Bytes) (endStream : Bool) :
      Goes role (.live false l u) (.event (.dataReceived sid data endStream)) (.live endStream l u)
  | trailers {l : Bool} {u : Bytes} (sid : Nat) (headers : List HeaderField) :
      Goes role (.live false l u) (.event (.trailersReceived sid headers)) (.live true l u)
  | queued {r : Bool} {u : Bytes} (sid : Nat) (data : Bytes) :
      Goes role (.live r false u) (.queued sid data) (.live r false (u ++ data))
  | request (f : HeadersFrame) : Goes role .born (.sent (.headers f)) (.live false f.endStream [])
  | answer {r : Bool} {u : Bytes} (f : HeadersFrame) (hend : f.endStream = true → u = []) :
      Goes role (.live r false u) (.sent (.headers f)) (.live r f.endStream u)
  | chunk {r : Bool} (f : DataFrame) (rest : Bytes) (hend : f.endStream = true → rest = []) :
      Goes role (.live r false (f.data ++ rest)) (.sent (.data f)) (.live r f.endStream rest)
  | early {p : Phase} (sid code : Nat) (hp : p = .unborn ∨ p = .gone) :
      Goes role p (.sent (.rstStream sid code)) .gone
  | abort {p : Phase} (sid code : Nat) (hp : p = .born ∨ p = .aborted ∨ ∃ r l u, p = .live r l u) :
      Goes role p (.sent (.rstStream sid code)) .aborted
  | reset {p : Phase} (sid : Nat) (code : ErrorCode) (consumed : Nat)
      (hp : p = .born ∨ p = .aborted ∨ ∃ r l u, p = .live r l u) :
      Goes role p (.event (.streamReset sid code consumed)) .gone
  | closed {u : Bytes} (sid : Nat) : Goes role (.live true true u) (.event (.streamClosed sid)) .gone
  | block {p : Phase} {i : Item} (hp : p = .born ∨ ∃ r l u, p = .live r l u)
      (hi : (∃ f, i = .sent (.continuation f)) ∨ ∃ sid headers, i = .encoded sid headers) : Goes role p i p
  | plain {p : Phase} {i : Item} (hi : isPlain i = true) : Goes role p i p

section

variable {role : Role} {p q : Phase} {i : Item} {items later earlier : List Item}

theorem goes_speaks (h : p.speaks = some q)
    (hi : (∃ f, i = .sent (.continuation f)) ∨ ∃ sid headers, i = .encoded sid headers) :
    Goes role p i q := by
  cases p with
  | born =>
    cases h
    exact .block (.inl rfl) hi
  | live r l u =>
    cases h
    exact .block (.inr ⟨r, l, u, rfl⟩) hi
  | unborn | aborted | gone => cases h

theorem goes_saysData {f : DataFrame} (h : p.saysData f.data f.endStream = some q) :
    Goes role p (.sent (.data f)) q := by
  unfold Phase.saysData at h
  split at h
  · split at h
    · rename_i hpre
      obtain ⟨⟨rest, rfl⟩, hend⟩ := hpre
      cases h
      rw [List.drop_left]
      refine .chunk f rest fun he => ?_
      simpa using hend he
    · cases h
  · cases h

theorem goes_saysHeaders {f : HeadersFrame} (h : p.saysHeaders f.endStream = some q) :
    Goes role p (.sent (.headers f)) q := by
  unfold Phase.saysHeaders at h
  split at h
  · cases h
    exact .request f
  · split at h
    · rename_i hend
      cases h
      exact .answer f hend
    · cases h
  · cases h

theorem goes_aborts {sid code : Nat} (h : p.aborts = some q) :
    Goes role p (.sent (.rstStream sid code)) q := by
  cases p with
  | unborn =>
    cases h
    exact .early sid code (.inl rfl)
  | gone =>
    cases h
    exact .early sid code (.inr rfl)
  | born =>
    cases h
    exact .abort sid code (.inl rfl)
  | aborted =>
    cases h
    exact .abort sid code (.inr (.inl rfl))
  | live r l u =>
    cases h
    exact .abort sid code (.inr (.inr ⟨r, l, u, rfl⟩))

theorem goes_hearsHeaders {sid : Nat} {headers : List HeaderField} {endStream : Bool}
    {protocol : Option Bytes}
    (h : p.hearsHeaders role endStream = some q) :
    Goes role p (.event (.headersReceived sid headers endStream protocol)) q := by
  unfold Phase.hearsHeaders at h
  split at h
  · cases h
    exact .first sid headers endStream protocol
  · split at h
    · rename_i hrole
      cases h
      exact .next sid headers endStream protocol hrole
    · cases h
  · cases h

theorem goes_resets {sid consumed : Nat} {code : ErrorCode} (h : p.resets = some q) :
    Goes role p (.event (.streamReset sid code consumed)) q := by
  cases p with
  | born =>
    cases h
    exact .reset sid code consumed (.inl rfl)
  | aborted =>
    cases h
    exact .reset sid code consumed (.inr (.inl rfl))
  | live r l u =>
    cases h
    exact .reset sid code consumed (.inr (.inr ⟨r, l, u, rfl⟩))
  | unborn | gone => cases h

theorem plain_step (h : isPlain i = true) : step role p i = some p := by
  have hno : ∀ {P : Prop}, isPlain i = false → P := fun hi => absurd h (by simp [hi])
  cases i with
  | event e => cases e <;> first | exact hno rfl | rfl
  | sent f => cases f <;> first | exact hno rfl | rfl
  | opened | queued | encoded => exact hno rfl
  | received | rejected | decoded => rfl

theorem step_goes (h : step role p i = some q) : Goes role p i q := by
  have hplain : isPlain i = true → some p = some q → Goes role p i q := by
    rintro hi ⟨rfl⟩
    exact .plain hi
  cases i with
  | opened sid =>
    cases p <;> cases h
    exact .opened sid
  | queued sid data =>
    simp only [step] at h
    unfold Phase.queues at h
    split at h
    · cases h
      exact .queued sid data
    · cases h
  | encoded sid headers => exact goes_speaks h (.inr ⟨sid, headers, rfl⟩)
  | received | rejected | decoded => exact hplain rfl h
  | sent f =>
    cases f with
    | headers f => exact goes_saysHeaders h
    | data f => exact goes_saysData h
    | rstStream sid code => exact goes_aborts h
    | continuation f => exact goes_speaks h (.inl ⟨f, rfl⟩)
    | _ => exact hplain rfl h
  | event e =>
    cases e with
    | headersReceived sid headers endStream protocol => exact goes_hearsHeaders h
    | dataReceived sid data endStream =>
      simp only [step] at h
      unfold Phase.hears at h
      split at h <;> cases h
      exact .data sid data endStream
    | trailersReceived sid headers =>
      simp only [step] at h
      unfold Phase.hears at h
      split at h <;> cases h
      exact .trailers sid headers
    | streamReset sid code consumed => exact goes_resets h
    | streamClosed sid =>
      simp only [step] at h
      unfold Phase.closes at h
      split at h <;> cases h
      exact .closed sid
    | _ => exact hplain rfl h

end

/-! ## What the machine rules out -/

/-- The stream is opened, or reset before it is. -/
def marks : Item → Bool
  | .opened _ | .sent (.rstStream _ _) => true
  | _ => false

def isOpening : Item → Bool
  | .opened _ => true
  | _ => false

def isHeaders : Item → Bool
  | .event (.headersReceived _ _ _ _) => true
  | _ => false

/-- The last event of a stream. -/
def isEnd : Item → Bool
  | .event (.streamReset _ _ _) | .event (.streamClosed _) => true
  | _ => false

/-- An event of a stream's life. -/
def isEvent : Item → Bool
  | .event e => e.lifeStream?.isSome
  | _ => false

/-- The peer has ended the stream, as the application is told. -/
def hearsEnd : Item → Bool
  | .event (.headersReceived _ _ endStream _) | .event (.dataReceived _ _ endStream) => endStream
  | .event (.trailersReceived _ _) => true
  | _ => false

/-- END_STREAM leaves. -/
def saysEnd : Item → Bool
  | .sent (.headers f) => f.endStream
  | .sent (.data f) => f.endStream
  | _ => false

/-- HEADERS or DATA leaves, or something is queued to leave. -/
def isSaid : Item → Bool
  | .sent (.headers _) | .sent (.data _) | .queued _ _ => true
  | _ => false

/-- A frame of a header block leaves. -/
def isBlock : Item → Bool
  | .sent (.headers _) | .sent (.continuation _) => true
  | _ => false

def isAbort : Item → Bool
  | .sent (.rstStream _ _) => true
  | _ => false

/-- The octets that were queued. -/
def queued : List Item → Bytes
  | [] => []
  | .queued _ data :: earlier => queued earlier ++ data
  | _ :: earlier => queued earlier

/-- The octets that left. -/
def sent : List Item → Bytes
  | [] => []
  | .sent (.data f) :: earlier => sent earlier ++ f.data
  | _ :: earlier => sent earlier

section

variable {role : Role} {p q : Phase} {i : Item} {items later earlier : List Item}

/-- Nothing that a life consists of is plain. -/
theorem plain_flags (h : isPlain i = true) : marks i = false ∧ isOpening i = false ∧ isHeaders i = false ∧
    isEnd i = false ∧ isEvent i = false ∧ hearsEnd i = false ∧ saysEnd i = false ∧ isSaid i = false ∧
      isBlock i = false := by
  have hno : ∀ {P : Prop}, isPlain i = false → P := fun hi => absurd h (by simp [hi])
  cases i with
  | event e => cases e <;> first | exact hno rfl | exact ⟨rfl, rfl, rfl, rfl, rfl, rfl, rfl, rfl, rfl⟩
  | sent f => cases f <;> first | exact hno rfl | exact ⟨rfl, rfl, rfl, rfl, rfl, rfl, rfl, rfl, rfl⟩
  | opened | queued | encoded => exact hno rfl
  | received | rejected | decoded => exact ⟨rfl, rfl, rfl, rfl, rfl, rfl, rfl, rfl, rfl⟩

theorem plain_data (items : List Item) (h : isPlain i = true) :
    queued (i :: items) = queued items ∧ sent (i :: items) = sent items := by
  have hno : ∀ {P : Prop}, isPlain i = false → P := fun hi => absurd h (by simp [hi])
  cases i with
  | sent f => cases f <;> first | exact hno rfl | exact ⟨rfl, rfl⟩
  | opened | queued | encoded => exact hno rfl
  | event | received | rejected | decoded => exact ⟨rfl, rfl⟩

/-- A stream is as good as new until it is marked. -/
theorem unborn_iff (h : phase role items = some p) : p = .unborn ↔ ∀ i ∈ items, marks i = false := by
  refine reads_related (R := fun items p => p = .unborn ↔ ∀ i ∈ items, marks i = false) (by simp) ?_ h
  intro earlier i u t hu hstep
  rw [List.forall_mem_cons, ← hu]
  cases step_goes hstep with
  | opened | request | answer | chunk | first | next | data | trailers | queued | closed =>
    simp [marks]
  | early _ _ hp | abort _ _ hp => simp [marks]
  | reset _ _ _ hp =>
    obtain rfl | rfl | ⟨r, l, x, rfl⟩ := hp <;> simp [marks]
  | block hp hblock =>
    obtain rfl | ⟨r, l, x, rfl⟩ := hp <;> simp
  | plain hi => simp [(plain_flags hi).1]

/-- What is said is still to be said: the buffer and the frames make up what was queued. -/
def Balanced (items : List Item) : Phase → Prop
  | .live _ localEnded unsent => queued items = sent items ++ unsent ∧ (localEnded = true → unsent = [])
  | .unborn | .born => queued items = [] ∧ sent items = []
  | .aborted | .gone => sent items <+: queued items

theorem balanced (h : phase role items = some p) : Balanced items p := by
  have hstart : Balanced [] .unborn := ⟨rfl, rfl⟩
  refine reads_related (R := Balanced) hstart ?_ h
  intro earlier i u t hu hstep
  cases step_goes hstep with
  | opened => exact hu
  | first | request =>
    obtain ⟨hqueued, hsent⟩ := hu
    simp [Balanced, queued, sent, hqueued, hsent]
  | next | data | trailers => exact hu
  | queued sid data =>
    simp [Balanced, queued, sent, hu.1]
  | answer f hend => exact ⟨hu.1, hend⟩
  | chunk f rest hend =>
    refine ⟨?_, hend⟩
    simp [queued, sent, hu.1]
  | early sid code hp =>
    obtain rfl | rfl := hp
    · simp [Balanced, queued, sent, hu.1, hu.2]
    · exact hu
  | abort sid code hp =>
    obtain rfl | rfl | ⟨r, l, x, rfl⟩ := hp
    · simp [Balanced, queued, sent, hu.1, hu.2]
    · exact hu
    · simp [Balanced, queued, sent, hu.1]
  | reset sid code consumed hp =>
    obtain rfl | rfl | ⟨r, l, x, rfl⟩ := hp
    · simp [Balanced, queued, sent, hu.1, hu.2]
    · exact hu
    · simp [Balanced, queued, sent, hu.1]
  | closed => simp [Balanced, queued, sent, hu.1]
  | block hp hblock =>
    have hsame : queued (i :: earlier) = queued earlier ∧ sent (i :: earlier) = sent earlier := by
      obtain ⟨f, rfl⟩ | ⟨sid, headers, rfl⟩ := hblock <;> exact ⟨rfl, rfl⟩
    cases u <;> simpa [Balanced, hsame.1, hsame.2] using hu
  | plain hi =>
    obtain ⟨hqueued, hsent⟩ := plain_data earlier hi
    cases u <;> simpa [Balanced, hqueued, hsent] using hu

/-- What was sent is a prefix of what was queued. -/
theorem sent_prefix (h : phase role items = some p) : sent items <+: queued items := by
  have hbalanced := balanced h
  cases p with
  | live r l u => exact hbalanced.1 ▸ List.prefix_append _ _
  | unborn | born =>
    obtain ⟨hqueued, hsent⟩ := hbalanced
    rw [hqueued, hsent]
  | aborted | gone => exact hbalanced

/-! ## What follows from it -/

/-- Who has ended the stream has said so. -/
def Ended (items : List Item) : Phase → Prop
  | .live remoteEnded localEnded _ => (remoteEnded = true → ∃ i ∈ items, hearsEnd i = true) ∧
      (localEnded = true → ∃ i ∈ items, saysEnd i = true)
  | _ => True

theorem ended (h : phase role items = some p) : Ended items p := by
  have hstart : Ended [] .unborn := trivial
  refine reads_related (R := Ended) hstart ?_ h
  intro earlier i u t hu hstep
  have hlater : ∀ {p : Item → Bool}, (∃ j ∈ earlier, p j = true) → ∃ j ∈ i :: earlier, p j = true :=
    fun ⟨j, hj, hp⟩ => ⟨j, List.mem_cons_of_mem _ hj, hp⟩
  have hheard : hearsEnd i = true → ∃ j ∈ i :: earlier, hearsEnd j = true :=
    fun hi => ⟨i, List.mem_cons_self, hi⟩
  have hsaid : saysEnd i = true → ∃ j ∈ i :: earlier, saysEnd j = true :=
    fun hi => ⟨i, List.mem_cons_self, hi⟩
  cases step_goes hstep with
  | first => exact ⟨hheard, fun hl => by cases hl⟩
  | next | data => exact ⟨hheard, fun hl => hlater (hu.2 hl)⟩
  | trailers => exact ⟨fun _ => hheard rfl, fun hl => hlater (hu.2 hl)⟩
  | queued => exact ⟨fun hr => hlater (hu.1 hr), fun hl => by cases hl⟩
  | request => exact ⟨(fun hr => by cases hr), hsaid⟩
  | answer | chunk => exact ⟨fun hr => hlater (hu.1 hr), hsaid⟩
  | block | plain =>
    cases u with
    | live r l x => exact ⟨fun hr => hlater (hu.1 hr), fun hl => hlater (hu.2 hl)⟩
    | unborn | born | aborted | gone => trivial
  | opened | early | abort | reset | closed => trivial

theorem gone_stays {p q : Phase} {i : Item} (hp : p = .gone) (h : step role p i = some q) :
    q = .gone ∧ isEvent i = false ∧ isEnd i = false ∧ isSaid i = false ∧ isBlock i = false := by
  subst hp
  cases step_goes h with
  | early => exact ⟨rfl, rfl, rfl, rfl, rfl⟩
  | abort _ _ hp => simp at hp
  | reset _ _ _ hp => simp at hp
  | block hp => simp at hp
  | plain hi =>
    obtain ⟨_, _, _, hend, hevent, _, _, hsaid, hblock⟩ := plain_flags hi
    exact ⟨rfl, hevent, hend, hsaid, hblock⟩

theorem end_gone (hi : isEnd i = true) (h : step role p i = some q) : q = .gone := by
  cases step_goes h with
  | reset | closed => rfl
  | plain hp => cases (plain_flags hp).2.2.2.1.symm.trans hi
  | block _ hblock => obtain ⟨f, rfl⟩ | ⟨sid, headers, rfl⟩ := hblock <;> cases hi
  | _ => cases hi

/-- This side has reset the stream or has nothing left to say. -/
def Mute : Phase → Prop
  | .live _ localEnded _ => localEnded = true
  | .aborted | .gone => True
  | .unborn | .born => False

theorem mute_stays (hp : Mute p) (h : step role p i = some q) : Mute q ∧ isSaid i = false := by
  cases step_goes h with
  | opened | first | request => exact hp.elim
  | next | data | trailers => exact ⟨hp, rfl⟩
  | queued | answer | chunk => cases hp
  | early | abort | reset | closed => exact ⟨trivial, rfl⟩
  | block _ hblock => obtain ⟨f, rfl⟩ | ⟨sid, headers, rfl⟩ := hblock <;> exact ⟨hp, rfl⟩
  | plain hi => exact ⟨hp, (plain_flags hi).2.2.2.2.2.2.2.1⟩

theorem end_mute (hi : saysEnd i = true) (h : step role p i = some q) : Mute q := by
  cases step_goes h with
  | request | answer | chunk => exact hi
  | plain hp => cases (plain_flags hp).2.2.2.2.2.2.1.symm.trans hi
  | block _ hblock => obtain ⟨f, rfl⟩ | ⟨sid, headers, rfl⟩ := hblock <;> cases hi
  | _ => cases hi

/-- The stream is gone, or this side has reset it. -/
def Dead (p : Phase) : Prop := p = .aborted ∨ p = .gone

theorem dead_stays (hp : Dead p) (h : step role p i = some q) :
    Dead q ∧ isSaid i = false ∧ isBlock i = false := by
  obtain rfl | rfl := hp
  · cases step_goes h with
    | early => exact ⟨.inr rfl, rfl, rfl⟩
    | abort => exact ⟨.inl rfl, rfl, rfl⟩
    | reset => exact ⟨.inr rfl, rfl, rfl⟩
    | block hp => simp at hp
    | plain hi => exact ⟨.inl rfl, (plain_flags hi).2.2.2.2.2.2.2.1, (plain_flags hi).2.2.2.2.2.2.2.2⟩
  · obtain ⟨rfl, _, _, hsaid, hblock⟩ := gone_stays rfl h
    exact ⟨.inr rfl, hsaid, hblock⟩

theorem abort_dead (hi : isAbort i = true) (h : step role p i = some q) : Dead q := by
  cases step_goes h with
  | early => exact .inr rfl
  | abort => exact .inl rfl
  | plain hp =>
    have hsent : ∀ sid code, i ≠ .sent (.rstStream sid code) := by
      rintro sid code rfl
      cases hp
    unfold isAbort at hi
    split at hi
    · exact absurd rfl (hsent _ _)
    · cases hi
  | block _ hblock => obtain ⟨f, rfl⟩ | ⟨sid, headers, rfl⟩ := hblock <;> cases hi
  | _ => cases hi

/-- Once it is opened a stream stays so. -/
theorem opened_stays (hp : p ≠ .unborn) (h : step role p i = some q) :
    q ≠ .unborn ∧ ¬ isOpening i = true := by
  cases step_goes h with
  | opened => exact absurd rfl hp
  | block _ hblock => obtain ⟨f, rfl⟩ | ⟨sid, headers, rfl⟩ := hblock <;> exact ⟨hp, by simp [isOpening]⟩
  | plain hi => exact ⟨hp, by simp [(plain_flags hi).2.1]⟩
  | _ => exact ⟨by simp, by simp [isOpening]⟩

theorem opening_opened (hi : isOpening i = true) (h : step role p i = some q) : q ≠ .unborn := by
  cases step_goes h with
  | opened => simp
  | block _ hblock => obtain ⟨f, rfl⟩ | ⟨sid, headers, rfl⟩ := hblock <;> cases hi
  | plain hp => cases (plain_flags hp).2.1.symm.trans hi
  | _ => cases hi

/-- A server hears the headers of a stream when it is opened, and not again. -/
theorem heard_stays (hrole : role = .server) (hp : p ≠ .unborn ∧ p ≠ .born) (h : step role p i = some q) :
    (q ≠ .unborn ∧ q ≠ .born) ∧ ¬ isHeaders i = true := by
  cases step_goes h with
  | opened => exact absurd rfl hp.1
  | first | request => exact absurd rfl hp.2
  | next _ _ _ _ hclient => cases hrole.symm.trans hclient
  | block _ hblock => obtain ⟨f, rfl⟩ | ⟨sid, headers, rfl⟩ := hblock <;> exact ⟨hp, by simp [isHeaders]⟩
  | plain hi => exact ⟨hp, by simp [(plain_flags hi).2.2.1]⟩
  | _ => exact ⟨by simp, by simp [isHeaders]⟩

theorem headers_heard (hi : isHeaders i = true) (h : step role p i = some q) : q ≠ .unborn ∧ q ≠ .born := by
  cases step_goes h with
  | first | next => simp
  | block _ hblock => obtain ⟨f, rfl⟩ | ⟨sid, headers, rfl⟩ := hblock <;> cases hi
  | plain hp => cases (plain_flags hp).2.2.1.symm.trans hi
  | _ => cases hi

end

/-- What a history that the machine reads is known for. -/
structure Lived (role : Role) (items : List Item) : Prop where
  opened : items.countP isOpening ≤ 1
  headers : role = .server → items.countP isHeaders ≤ 1
  ended : items.countP isEnd ≤ 1
  /-- Nothing follows the end of a stream. -/
  silent : ∀ later i earlier, items = later ++ i :: earlier → isEnd i = true →
    ∀ j ∈ later, isEvent j = false ∧ isSaid j = false ∧ isBlock j = false
  /-- A stream is closed after both sides have ended it. -/
  closed : ∀ later sid earlier, items = later ++ .event (.streamClosed sid) :: earlier →
    (∃ j ∈ earlier, hearsEnd j = true) ∧ ∃ j ∈ earlier, saysEnd j = true
  sent : sent items <+: queued items
  /-- END_STREAM comes after all that was queued, and nothing is sent or queued after it. -/
  finished : ∀ later i earlier, items = later ++ i :: earlier → saysEnd i = true →
    (∀ j ∈ later, isSaid j = false) ∧ Life.sent (i :: earlier) = Life.queued (i :: earlier)
  aborted : ∀ later i earlier, items = later ++ i :: earlier → isAbort i = true →
    ∀ j ∈ later, isSaid j = false ∧ isBlock j = false

section

variable {role : Role} {p q : Phase} {i : Item} {items later earlier : List Item}

theorem closed_ends {sid : Nat} (h : phase role (later ++ .event (.streamClosed sid) :: earlier) = some p) :
    (∃ j ∈ earlier, hearsEnd j = true) ∧ ∃ j ∈ earlier, saysEnd j = true := by
  obtain ⟨v, hv, _⟩ := reads_append_iff.1 h
  obtain ⟨u, hu, hstep⟩ := reads_cons_iff.1 hv
  cases step_goes hstep with
  | closed =>
    obtain ⟨hheard, hsaid⟩ := Life.ended hu
    exact ⟨hheard rfl, hsaid rfl⟩
  | block _ hblock => obtain ⟨f, hf⟩ | ⟨sid, headers, hf⟩ := hblock <;> cases hf
  | plain hp => cases hp

theorem finished_sent (h : phase role (later ++ i :: earlier) = some p) (hi : saysEnd i = true) :
    sent (i :: earlier) = queued (i :: earlier) := by
  obtain ⟨v, hv, _⟩ := reads_append_iff.1 h
  have hbalanced := balanced hv
  obtain ⟨u, hu, hstep⟩ := reads_cons_iff.1 hv
  have hmute := end_mute hi hstep
  cases v with
  | live r l x =>
    obtain ⟨heq, hempty⟩ := hbalanced
    rw [heq, hempty hmute, List.append_nil]
  | unborn | born => exact hmute.elim
  | aborted | gone =>
    cases step_goes hstep with
    | block hp => simp at hp
    | plain hp => cases (plain_flags hp).2.2.2.2.2.2.1.symm.trans hi
    | _ => cases hi

theorem lived (h : phase role items = some p) : Lived role items where
  opened := reads_once (fun _ _ _ => opened_stays) (fun _ _ _ => opening_opened) h
  headers hrole := reads_once (fun _ _ _ => heard_stays hrole) (fun _ _ _ => headers_heard) h
  ended := by
    refine reads_once (A := (· = .gone)) (fun u j t hu hstep => ?_) (fun _ _ _ => end_gone) h
    obtain ⟨ht, _, hend, _⟩ := gone_stays hu hstep
    exact ⟨ht, by simp [hend]⟩
  silent := by
    rintro later i earlier rfl hi
    have hlast := reads_last (A := (· = .gone)) (Q := (isEnd · = true))
      (P := fun j => ¬ (isEvent j = false ∧ isSaid j = false ∧ isBlock j = false))
      (fun u j t hu hstep => ?_) (fun _ _ _ => end_gone) h hi
    · exact fun j hj => not_not.1 (hlast j hj)
    · obtain ⟨ht, hevent, _, hsaid, hblock⟩ := gone_stays hu hstep
      exact ⟨ht, not_not.2 ⟨hevent, hsaid, hblock⟩⟩
  closed := by
    rintro later sid earlier rfl
    exact closed_ends h
  sent := sent_prefix h
  finished := by
    rintro later i earlier rfl hi
    have hlast := reads_last (A := Mute) (P := (isSaid · = true)) (Q := (saysEnd · = true))
      (fun u j t hu hstep => ?_) (fun _ _ _ => end_mute) h hi
    · exact ⟨fun j hj => by simpa using hlast j hj, finished_sent h hi⟩
    · obtain ⟨ht, hsaid⟩ := mute_stays hu hstep
      exact ⟨ht, by simp [hsaid]⟩
  aborted := by
    rintro later i earlier rfl hi
    have hlast := reads_last (A := Dead) (Q := (isAbort · = true))
      (P := fun j => ¬ (isSaid j = false ∧ isBlock j = false))
      (fun u j t hu hstep => ?_) (fun _ _ _ => abort_dead) h hi
    · exact fun j hj => not_not.1 (hlast j hj)
    · obtain ⟨ht, hquiet⟩ := dead_stays hu hstep
      exact ⟨ht, not_not.2 hquiet⟩

end

end Life

end Http2
