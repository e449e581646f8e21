import Http2.Connection.Fragments
import Http2.Connection.Lifecycle

/-! What leaves, beside what was handed over: header blocks leave whole, and what is queued on a stream
is what `send_data` accepted. -/
namespace Http2

open Hpack Lib Connection Life

namespace Outgoing

/-! ## Header blocks -/

/-- The stream of the header block that the frames so far have left open. In it nothing may leave but
its CONTINUATION, and CONTINUATION nowhere else. -/
def follows : Option Nat → Item → Option (Option Nat)
  | none, .sent (.headers f) => some (if f.endHeaders then none else some f.streamId)
  | none, .sent (.continuation _) => none
  | none, _ => some none
  | some sid, .sent (.continuation f) =>
    if f.streamId = sid then some (if f.endHeaders then none else some sid) else none
  | some _, .sent _ => none
  | some sid, _ => some (some sid)

/-- Every header block has left whole, with no other frame between its own. -/
def Contiguous (items : List Item) : Prop := reads follows none items = some none

section

variable {c d : Core} {l : Label} {sid : Nat} {items new : List Item} {i : Item}

theorem contiguous_append (h : Contiguous items) (hnew : ∀ i ∈ new, isBlock i = false) :
    Contiguous (new ++ items) := by
  refine reads_append_of h (reads_same fun i hi => ?_)
  have hblock := hnew i hi
  cases i with
  | sent f => cases f <;> first | rfl | cases hblock
  | _ => rfl

theorem contiguous_cons (h : Contiguous items) (hi : isBlock i = false) : Contiguous (i :: items) := by
  rw [← List.singleton_append]
  exact contiguous_append h (by simpa using hi)

/-- CONTINUATION frames of which the last one ends the block. -/
theorem reads_continuations {rest : List ContinuationFrame} (hsid : ∀ f ∈ rest, f.streamId = sid) {n : Nat}
    (hflags : rest.map (·.endHeaders) = List.replicate n false ++ [true]) :
    reads follows (some sid) ((rest.map Frame.continuation).map Item.sent).reverse = some none := by
  induction rest generalizing n with
  | nil => simp at hflags
  | cons f rest ih =>
    obtain ⟨hf, hrest⟩ := List.forall_mem_cons.1 hsid
    rw [List.map_cons, List.map_cons, List.reverse_cons]
    cases n with
    | zero =>
      obtain ⟨hlast, hnone⟩ : f.endHeaders = true ∧ rest = [] := by simpa using hflags
      subst hnone
      simp [reads, follows, hf, hlast]
    | succ n =>
      obtain ⟨hopen, hflags⟩ : f.endHeaders = false ∧
          rest.map (·.endHeaders) = List.replicate n false ++ [true] := by
        simpa [List.replicate_succ] using hflags
      refine reads_append_of (u := some sid) ?_ (ih hrest hflags)
      simp [reads, follows, hf, hopen]

theorem contiguous_block (h : Contiguous c.trace) (sid : Nat) (headers : List HeaderField)
    (endStream : Bool) :
    Contiguous (c.sendBlock sid headers endStream).trace := by
  have hsize := c.remoteSettings.maxFrameSize.2
  let r := c.hpackEncoder.encode headers
  have hmax : 0 < (c.remoteSettings.maxFrameSize : Nat) := by omega
  obtain ⟨first, rest, hframes, hfrag⟩ := blockFrames_spec sid endStream
    (r.1.encodePending c.pendingTableSizeUpdate ++ r.2) hmax
  have htrace : (c.sendBlock sid headers endStream).trace =
      ((rest.map Frame.continuation).map Item.sent).reverse ++
        (.sent (.headers first) :: .encoded sid headers :: c.trace) := by
    simp [Core.sendBlock, Core.logSent_eq, hframes, r]
  have hencoded : reads follows none (.encoded sid headers :: c.trace) = some none :=
    reads_cons_iff.2 ⟨none, h, rfl⟩
  have hheaders : reads follows none (.sent (.headers first) :: .encoded sid headers :: c.trace) =
      some (if first.endHeaders then none else some sid) := by
    refine reads_cons_iff.2 ⟨none, hencoded, ?_⟩
    rw [← hfrag.streamId.1]
    rfl
  rw [htrace]
  refine reads_append_of hheaders ?_
  have hlast := hfrag.last
  cases rest with
  | nil =>
    obtain hwhole : first.endHeaders = true := by simpa using hlast
    rw [hwhole]
    rfl
  | cons f rest =>
    obtain ⟨hopen, hflags⟩ : first.endHeaders = false ∧
        (f :: rest).map (·.endHeaders) = List.replicate rest.length false ++ [true] := by
      simpa [List.replicate_succ] using hlast
    rw [hopen]
    exact reads_continuations hfrag.streamId.2 hflags

theorem contiguous_closeIf (h : Contiguous c.trace) (sid : Nat) (closed : Bool) :
    Contiguous (c.closeIf sid closed).trace := by
  unfold Core.closeIf
  split
  · exact contiguous_cons h rfl
  · exact h

/-- A header section leaves by these calls alone. -/
theorem moves_speak {record record' : Option Stream} (h : Moves c l sid record new record') (hi : i ∈ new)
    (hblock : isBlock i = true) : (∃ headers endStream, l = .api (.startStream headers endStream)) ∨
      (∃ headers endStream, l = .api (.sendResponse sid headers endStream)) ∨
        ∃ headers, l = .api (.sendTrailers sid headers) := by
  have hfarewell : ∀ s : Stream, i ∉ s.farewell sid := by
    intro s hmem
    unfold Stream.farewell at hmem
    split at hmem
    · obtain rfl := List.mem_singleton.1 hmem
      cases hblock
    · cases hmem
  have hpassing : ∀ items : List Item, (∀ j ∈ items, j.Passing) → i ∉ items := by
    intro items hitems hmem
    have hpass := hitems i hmem
    unfold Item.Passing at hpass
    split at hpass
    · cases hblock
    · cases hblock
    · cases hblock
    · exact hpass
  cases h with
  | rest | retune => cases hi
  | pass _ hitems => exact absurd hi (hpassing _ hitems)
  | reset code consumed cause hcause =>
    obtain rfl | rfl | hi := by simpa using hi
    · cases hblock
    · cases hblock
    · exact absurd hi (hpassing _ hcause)
  | refuse =>
    obtain rfl | rfl | rfl := by simpa using hi
    all_goals cases hblock
  | peerReset | update | credit | queue | chunk =>
    obtain rfl := List.mem_singleton.1 hi
    cases hblock
  | deliver | trailers | last =>
    obtain hi | hi := List.mem_append.1 hi
    · exact absurd hi (hfarewell _)
    · obtain rfl := List.mem_singleton.1 hi
      cases hblock
  | headers protocol _ _ hfinds =>
    obtain hi | hi := List.mem_append.1 hi
    · exact absurd hi (hfarewell _)
    · obtain rfl | hi := List.mem_cons.1 hi
      · cases hblock
      · obtain ⟨_, rfl⟩ | ⟨_, _, rfl⟩ := hfinds
        · cases hi
        · obtain rfl := List.mem_singleton.1 hi
          cases hblock
  | emptyEnd =>
    obtain hi | hi := List.mem_append.1 hi
    · exact absurd hi (hfarewell _)
    · obtain rfl | rfl := by simpa using hi
      all_goals cases hblock
  | request hl => exact .inl ⟨_, _, hl⟩
  | respond hl => exact .inr (.inl ⟨_, _, hl⟩)
  | trail hl => exact .inr (.inr ⟨_, hl⟩)

theorem block_about (hblock : isBlock i = true) : ∃ sid, i.streamId? = some sid := by
  unfold isBlock at hblock
  split at hblock
  · exact ⟨_, rfl⟩
  · exact ⟨_, rfl⟩
  · cases hblock

theorem step_contiguous (ht : Tidy c) (h : Contiguous c.trace) (hstep : Step c l d) : Contiguous d.trace := by
  obtain ⟨new, heq, _⟩ := step_extends hstep
  by_cases hquiet : ∀ i ∈ new, isBlock i = false
  · have hcause : Contiguous (l.cause ++ c.trace) := by
      refine contiguous_append h fun i hi => ?_
      cases l <;> simp [Label.cause] at hi <;> rw [hi] <;> rfl
    rw [heq]
    exact contiguous_append hcause hquiet
  · obtain ⟨i, hi, hblock⟩ : ∃ i ∈ new, isBlock i = true := by simpa using hquiet
    obtain ⟨sid, hsid⟩ := block_about hblock
    obtain ⟨moved, hmoved, hmoves⟩ := hstep.moved ht sid
    obtain ⟨_, _, rfl⟩ | ⟨_, _, rfl⟩ | ⟨_, rfl⟩ := moves_speak hmoves (mem_moved heq hmoved hi hsid) hblock
    · cases change_request (.step hstep) with
      | request s =>
        apply contiguous_block
        exact contiguous_cons h rfl
    · cases hstep with
      | calm hcalm =>
        cases hcalm with
        | credit _ _ hl => obtain hl | hl := hl <;> cases hl
        | announce _ hl => obtain hl | hl := hl <;> cases hl
        | respond =>
          apply contiguous_closeIf
          apply contiguous_block
          exact h
    · cases hstep with
      | calm hcalm =>
        cases hcalm with
        | credit _ _ hl => obtain hl | hl := hl <;> cases hl
        | announce _ hl => obtain hl | hl := hl <;> cases hl
        | trail =>
          apply contiguous_closeIf
          apply contiguous_block
          exact h

theorem steps_contiguous {T : Terms} (ht : Tidy c) (h : Contiguous c.trace) (hsteps : Steps T c d) :
    Contiguous d.trace := by
  induction hsteps with
  | refl => exact h
  | tail hbefore hstep ih =>
    obtain ⟨_, _, hstep⟩ := hstep
    exact step_contiguous (steps_tidy ht hbefore) ih hstep

end

/-! ## What is handed over -/

/-- The octets of a call of `send_data` that succeeded. -/
def offered (sid : Nat) : Record → Bytes
  | ⟨.sendData sid' data _, .ok _⟩ => if sid' = sid then data else []
  | _ => []

/-- All of them, in the order of the calls. -/
def accepted (sid : Nat) : List Record → Bytes
  | [] => []
  | r :: earlier => accepted sid earlier ++ offered sid r

section

variable {c d : Core} {l : Label} {sid : Nat} {items new : List Item} {T : Terms}

theorem queued_append (h : queued new = []) : queued (new ++ items) = queued items := by
  induction new with
  | nil => rfl
  | cons i new ih =>
    cases i with
    | queued sid data =>
      obtain ⟨hnew, rfl⟩ := List.append_eq_nil_iff.1 h
      rw [List.cons_append, Life.queued, ih hnew, List.append_nil]
    | _ => exact ih h

theorem queued_none (h : ∀ sid data, .queued sid data ∉ new) : queued new = [] := by
  induction new with
  | nil => rfl
  | cons i new ih =>
    have hnew := ih fun sid data hin => h sid data (List.mem_cons_of_mem _ hin)
    cases i with
    | queued sid data => exact absurd (List.mem_cons_self ..) (h sid data)
    | _ => exact hnew

/-- Nothing is queued but by `send_data`. -/
theorem moves_queued {record record' : Option Stream} (h : Moves c l sid record new record')
    (hl : ∀ data endStream, l ≠ .api (.sendData sid data endStream)) : queued new = [] := by
  have hfarewell : ∀ (s : Stream) (items : List Item), queued items = [] →
      queued (s.farewell sid ++ items) = [] := by
    intro s items hitems
    rw [queued_append, hitems]
    unfold Stream.farewell
    split <;> rfl
  have hpassing : ∀ items : List Item, (∀ j ∈ items, j.Passing) → queued items = [] := by
    intro items hitems
    exact queued_none fun _ _ hin => hitems _ hin
  have hburst : ∀ {headers : List HeaderField} {endStream : Bool} {items : List Item},
      Burst sid headers endStream items → queued items = [] := by
    rintro _ _ _ ⟨f, fs, _, _, _, rfl⟩
    exact queued_none fun _ _ hin => by simp at hin
  cases h with
  | rest | retune | peerReset | update | credit | refuse => rfl
  | pass _ hitems => exact hpassing _ hitems
  | reset code consumed cause hcause => exact hpassing cause hcause
  | deliver | trailers => exact hfarewell _ _ rfl
  | headers protocol _ _ hfinds =>
    refine hfarewell _ _ ?_
    obtain ⟨_, rfl⟩ | ⟨_, _, rfl⟩ := hfinds <;> rfl
  | request _ _ _ _ _ _ _ _ hitems => exact (queued_append (hburst hitems)).trans rfl
  | respond _ _ _ _ _ _ _ hitems | trail _ _ _ _ _ _ _ hitems => exact hfarewell _ _ (hburst hitems)
  | queue data endStream heq => exact absurd heq (hl data endStream)
  | emptyEnd heq => exact absurd heq (hl [] true)
  | chunk | last => first | rfl | exact hfarewell _ _ rfl

theorem step_queued (ht : Tidy c) (hl : ∀ data endStream, l ≠ .api (.sendData sid data endStream))
    (hstep : Step c l d) : queued (history sid d.trace) = queued (history sid c.trace) := by
  obtain ⟨new, hnew, hmoves⟩ := hstep.moved ht sid
  rw [hnew]
  exact queued_append (moves_queued hmoves hl)

theorem fault_queued {e : Error} (h : Fault c e l d) :
    queued (history sid d.trace) = queued (history sid c.trace) := by
  have hreceived : ∀ f, queued (history sid (.received f :: c.trace)) = queued (history sid c.trace) := by
    intro f
    rw [history_cons]
    split <;> rfl
  cases h with
  | decoder => rfl
  | refused | settings | badBlock | badLast | longBlock | longNext => exact hreceived _

theorem calm_not_pushed {data : Bytes} {endStream : Bool} (h : Calm c l d) :
    l ≠ .api (.sendData sid data endStream) := by
  rintro rfl
  cases h with
  | credit _ _ hl => obtain hl | hl := hl <;> cases hl
  | announce _ hl => obtain hl | hl := hl <;> cases hl

theorem emits_queued (ht : Tidy c) (h : Emits c d) :
    queued (history sid d.trace) = queued (history sid c.trace) := by
  induction h with
  | refl => rfl
  | tail hemits hemit ih =>
    have ht' := steps_tidy ht (emits_steps (T := Terms.any) hemits)
    exact (step_queued ht' (by simp) (.emit hemit)).trans ih

theorem chain_queued (ht : Tidy c) (h : Chain T c d) :
    queued (history sid d.trace) = queued (history sid c.trace) := by
  induction h with
  | refl => rfl
  | calm hchain hcalm _ ih =>
    have ht' := chain_tidy ht hchain
    exact (step_queued ht' (fun _ _ => calm_not_pushed hcalm) (.calm hcalm)).trans ih
  | wake hchain hwake _ hemits _ ih =>
    have ht' := chain_tidy ht hchain
    have hstep := Step.wake hwake
    exact (emits_queued (step_tidy ht' hstep) hemits).trans ((step_queued ht' (by simp) hstep).trans ih)

theorem push_queued {data : Bytes} {endStream : Bool} {sid' : Nat} (h : Push c sid' data endStream d) :
    queued (history sid d.trace) =
      queued (history sid c.trace) ++ if sid' = sid then data else [] := by
  have hlog : ∀ data, queued (history sid (.queued sid' data :: c.trace)) =
      queued (history sid c.trace) ++ if sid' = sid then data else [] := by
    intro data
    rw [history_cons]
    by_cases heq : sid' = sid
    · simp [heq, Item.streamId?, Life.queued]
    · simp [heq, Item.streamId?]
  cases h with
  | queue => exact hlog _
  | emptyEnd =>
    refine Eq.trans ?_ (hlog [])
    have hplain : ∀ {i : Item} {items : List Item}, (∀ sid data, i ≠ .queued sid data) →
        queued (history sid (i :: items)) = queued (history sid items) := by
      intro i items hi
      rw [history_cons]
      split
      · cases i with
        | queued sid data => exact absurd rfl (hi sid data)
        | _ => rfl
      · rfl
    unfold Core.closeIf
    split
    · exact (hplain (by simp)).trans (hplain (by simp))
    · exact hplain (by simp)

theorem performs_queued {k : Call} {r : Except Error Value} (ht : Tidy c) (h : Performs T c k r d) :
    queued (history sid d.trace) = queued (history sid c.trace) ++ offered sid ⟨k, r⟩ := by
  have hnone :
      ∀ {items : Bytes}, queued (history sid d.trace) = items → queued (history sid d.trace) = items ++ [] :=
    fun h => h.trans (List.append_nil _).symm
  unfold Performs at h
  split at h
  · exact hnone (step_queued ht (by simp) (.start h.2))
  · obtain ⟨e, hpush, hemits, _⟩ := h
    exact (emits_queued (step_tidy ht (.push hpush)) hemits).trans (push_queued hpush)
  · obtain ⟨e, l, hchain, _, hfault⟩ := h
    exact hnone ((fault_queued hfault).trans (chain_queued ht hchain))
  · obtain ⟨e, l, hchain, _, hfault⟩ := h
    exact hnone ((fault_queued hfault).trans (chain_queued ht hchain))
  · rename_i hother _ _
    have hoffered : offered sid ⟨k, r⟩ = [] := by
      unfold offered
      split
      · rename_i heq
        cases heq
        exact (hother _ _ _ _ rfl rfl).elim
      · rfl
    rw [hoffered]
    exact hnone (chain_queued ht h)

end

/-- What was queued on a stream is what the calls that succeeded handed over. -/
theorem run_queued {T : Terms} {role : Role} {limits : Limits} {records : List Record} {c : Connection}
    (h : RunOf T (Connection.new role limits) records c) (sid : Nat) :
    queued (history sid c.trace) = accepted sid records := by
  induction h with
  | start => rfl
  | call k hk hheeds hrun ih =>
    have ht := run_tidy hrun
    exact (performs_queued ht (exec_performs k ht hk hheeds)).trans (by rw [ih]; rfl)

end Outgoing

end Http2
