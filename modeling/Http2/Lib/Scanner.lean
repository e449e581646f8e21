import Mathlib.Data.List.TakeWhile

/-! Scanners: each takes a value from the front of a list of symbols and leaves the rest. A scanner
reads a grammar when what it takes is what the grammar derives, provided that what follows does not
go on with it. -/
namespace Http2.Lib

abbrev Scanner (β ε : Type) : Type → Type := StateT (List β) (Except ε)

namespace Scanner

variable {β ε α γ σ : Type}

def fail (e : ε) : Scanner β ε α := fun _ => .error e

def peek : Scanner β ε (Option β) := fun input => .ok (input.head?, input)

def advance : Scanner β ε Unit := fun input => .ok ((), input.tail)

/-- Takes the symbol if it is the next one. -/
def consumeIfEq [DecidableEq β] (b : β) : Scanner β ε Bool := fun input =>
  if input.head? = some b then .ok (true, input.tail) else .ok (false, input)

/-- Takes symbols as long as they satisfy `p`. -/
def takeWhile (p : β → Bool) : Scanner β ε (List β) := fun input =>
  .ok (input.takeWhile p, input.dropWhile p)

/-- A result that does not depend on the input. -/
def lift (x : Except ε α) : Scanner β ε α := fun input => x.map fun a => (a, input)

/-- Turn after turn until one gives the result. A turn that takes nothing would be repeated for
ever; the error stands for that. -/
def loop (stuck : ε) (step : σ → Scanner β ε (σ ⊕ α)) (s : σ) : Scanner β ε α := fun input =>
  match step s input with
  | .error e => .error e
  | .ok (.inr a, rest) => .ok (a, rest)
  | .ok (.inl s', rest) =>
    if rest.length < input.length then loop stuck step s' rest else .error stuck
termination_by input => input.length

/-! ## Runs of a scanner -/

@[simp] theorem pure_apply (a : α) (input : List β) :
    (pure a : Scanner β ε α) input = .ok (a, input) := rfl

@[simp] theorem fail_apply (e : ε) (input : List β) :
    (fail e : Scanner β ε α) input = .error e := rfl

@[simp] theorem peek_apply (input : List β) :
    (peek : Scanner β ε (Option β)) input = .ok (input.head?, input) := rfl

@[simp] theorem advance_apply (input : List β) :
    (advance : Scanner β ε Unit) input = .ok ((), input.tail) := rfl

theorem lift_eq_ok {x : Except ε α} {input rest : List β} {a : α} :
    lift x input = .ok (a, rest) ↔ x = .ok a ∧ rest = input := by
  cases x with
  | error e =>
    constructor
    · intro h
      cases h
    · rintro ⟨h, _⟩
      cases h
  | ok b =>
    constructor
    · intro h
      cases h
      exact ⟨rfl, rfl⟩
    · rintro ⟨h, rfl⟩
      cases h
      rfl

theorem bind_apply (p : Scanner β ε α) (q : α → Scanner β ε γ) (input : List β) :
    (p >>= q) input = p input >>= fun r => q r.1 r.2 := rfl

/-- Goes on behind a scanner that succeeds. -/
theorem bind_of_ok {p : Scanner β ε α} {q : α → Scanner β ε γ} {input rest : List β} {a : α}
    (h : p input = .ok (a, rest)) : (p >>= q) input = q a rest := by
  rw [bind_apply, h]
  rfl

theorem bind_eq_ok {p : Scanner β ε α} {q : α → Scanner β ε γ} {input rest : List β} {c : γ} :
    (p >>= q) input = .ok (c, rest) ↔ ∃ a mid, p input = .ok (a, mid) ∧ q a mid = .ok (c, rest) := by
  rw [bind_apply]
  constructor
  · intro h
    cases hp : p input with
    | error e =>
      rw [hp] at h
      cases h
    | ok r =>
      rw [hp] at h
      exact ⟨r.1, r.2, rfl, h⟩
  · rintro ⟨a, mid, hp, hq⟩
    rw [hp]
    exact hq

theorem consumeIfEq_cons [DecidableEq β] (b : β) (rest : List β) :
    (consumeIfEq b : Scanner β ε Bool) (b :: rest) = .ok (true, rest) := by
  simp [consumeIfEq]

theorem consumeIfEq_other [DecidableEq β] {b : β} {input : List β} (h : input.head? ≠ some b) :
    (consumeIfEq b : Scanner β ε Bool) input = .ok (false, input) := if_neg h

/-- Whether the symbol was taken, and what is left then. -/
theorem consumeIfEq_ok [DecidableEq β] {b : β} {input rest : List β} {taken : Bool}
    (h : (consumeIfEq b : Scanner β ε Bool) input = .ok (taken, rest)) :
    (taken = true ∧ input = b :: rest) ∨ taken = false ∧ input = rest ∧ rest.head? ≠ some b := by
  unfold consumeIfEq at h
  split at h
  · rename_i hhead
    cases h
    obtain ⟨tail, rfl⟩ := List.head?_eq_some_iff.1 hhead
    exact .inl ⟨rfl, rfl⟩
  · rename_i hhead
    cases h
    exact .inr ⟨rfl, rfl, hhead⟩

/-! ## Reading a grammar -/

/-- The scanner takes the texts that `G` derives for its value, where `F` says what may follow. -/
structure Reads (p : Scanner β ε α) (G : List β → α → Prop) (F : List β → Prop) : Prop where
  sound : ∀ {input r a}, p input = .ok (a, r) → ∃ t, input = t ++ r ∧ G t a
  complete : ∀ {t r a}, G t a → F r → p (t ++ r) = .ok (a, r)

theorem Reads.mono {p : Scanner β ε α} {G G' : List β → α → Prop} {F F' : List β → Prop}
    (h : Reads p G F) (hG : ∀ {text a}, G text a ↔ G' text a) (hF : ∀ {rest}, F' rest → F rest) :
    Reads p G' F' := by
  constructor
  · intro input rest a hp
    obtain ⟨text, heq, hg⟩ := h.sound hp
    exact ⟨text, heq, hG.1 hg⟩
  · intro text rest a hg hf
    exact h.complete (hG.2 hg) (hF hf)

/-- One scanner behind another: what the first takes, then what the second takes. -/
theorem Reads.bind {p : Scanner β ε α} {q : α → Scanner β ε γ} {G : List β → α → Prop}
    {H : α → List β → γ → Prop} {F F' : List β → Prop} (hp : Reads p G F')
    (hq : ∀ a, Reads (q a) (H a) F)
    (hfollow : ∀ {a t c rest}, H a t c → F rest → F' (t ++ rest)) :
    Reads (p >>= q) (fun text c => ∃ t a t', text = t ++ t' ∧ G t a ∧ H a t' c) F := by
  constructor
  · intro input rest c h
    obtain ⟨a, mid, hfirst, hsecond⟩ := bind_eq_ok.1 h
    obtain ⟨t, rfl, hg⟩ := hp.sound hfirst
    obtain ⟨t', rfl, hh⟩ := (hq a).sound hsecond
    exact ⟨t ++ t', (List.append_assoc ..).symm, t, a, t', rfl, hg, hh⟩
  · rintro _ rest c ⟨t, a, t', rfl, hg, hh⟩ hf
    rw [List.append_assoc, bind_of_ok (hp.complete hg (hfollow hh hf))]
    exact (hq a).complete hh hf

theorem Reads.map {p : Scanner β ε α} {G : List β → α → Prop} {F : List β → Prop} (h : Reads p G F)
    (f : α → γ) : Reads (do return f (← p)) (fun text c => ∃ a, G text a ∧ c = f a) F := by
  constructor
  · intro input rest c hp
    obtain ⟨a, mid, ha, hret⟩ := bind_eq_ok.1 hp
    obtain ⟨text, rfl, hg⟩ := h.sound ha
    cases hret
    exact ⟨text, rfl, a, hg, rfl⟩
  · rintro text rest c ⟨a, hg, rfl⟩ hf
    rw [bind_of_ok (h.complete hg hf)]
    rfl

theorem takeWhile_of_stop {p : β → Bool} {text rest : List β} (htext : ∀ b ∈ text, p b = true)
    (hrest : ∀ b ∈ rest.head?, p b = false) :
    (text ++ rest).takeWhile p = text ∧ (text ++ rest).dropWhile p = rest := by
  have hstop : rest.takeWhile p = [] ∧ rest.dropWhile p = rest := by
    cases rest with
    | nil => exact ⟨rfl, rfl⟩
    | cons b rest => simp [hrest b rfl]
  rw [List.takeWhile_append_of_pos htext, List.dropWhile_append_of_pos htext, hstop.1, hstop.2,
    List.append_nil]
  exact ⟨rfl, rfl⟩

theorem head?_dropWhile {p : β → Bool} (input : List β) :
    ∀ b ∈ (input.dropWhile p).head?, p b = false := by
  intro b hb
  induction input with
  | nil => cases hb
  | cons c input ih =>
    rw [List.dropWhile_cons] at hb
    split at hb
    · exact ih hb
    · rename_i hc
      obtain rfl := Option.some.inj hb
      simpa using hc

/-- The symbols that were taken satisfy `p`, and the next one does not. -/
theorem takeWhile_ok {p : β → Bool} {input rest taken : List β}
    (h : (takeWhile p : Scanner β ε (List β)) input = .ok (taken, rest)) :
    input = taken ++ rest ∧ (∀ b ∈ taken, p b = true) ∧ ∀ b ∈ rest.head?, p b = false := by
  cases h
  exact ⟨(List.takeWhile_append_dropWhile).symm, fun b hb => List.mem_takeWhile_imp hb,
    head?_dropWhile input⟩

theorem takeWhile_apply {p : β → Bool} {t r : List β} (htext : ∀ b ∈ t, p b = true)
    (hrest : ∀ b ∈ r.head?, p b = false) :
    (takeWhile p : Scanner β ε (List β)) (t ++ r) = .ok (t, r) := by
  obtain ⟨htake, hdrop⟩ := takeWhile_of_stop htext hrest
  rw [takeWhile, htake, hdrop]

theorem reads_takeWhile (p : β → Bool) :
    Reads (takeWhile p : Scanner β ε (List β)) (fun text a => a = text ∧ ∀ b ∈ text, p b = true)
      (fun rest => ∀ b ∈ rest.head?, p b = false) := by
  constructor
  · intro input rest a h
    obtain ⟨heq, htaken, _⟩ := takeWhile_ok h
    exact ⟨a, heq, rfl, htaken⟩
  · rintro text rest a ⟨rfl, htext⟩ hrest
    exact takeWhile_apply htext hrest

/-! ## Loops -/

/-- What the turns of a loop take, one behind the other. -/
inductive Turns (G : σ → List β → σ ⊕ α → Prop) : σ → List β → α → Prop
  | stop {s : σ} {t : List β} {a : α} : G s t (.inr a) → Turns G s t a
  | turn {s s' : σ} {t t' : List β} {a : α} :
      G s t (.inl s') → Turns G s' t' a → Turns G s (t ++ t') a

section
variable {f : σ → Scanner β ε (σ ⊕ α)} {e : ε} {G : σ → List β → σ ⊕ α → Prop}
  {F : List β → Prop}

/-- Where every turn that goes on takes something, the loop never gets stuck. -/
theorem loop_apply (hprogress : ∀ {s s' input rest}, f s input = .ok (.inl s', rest) →
    rest.length < input.length) (s : σ) (input : List β) :
    loop e f s input = (f s >>= Sum.elim (loop e f) pure) input := by
  rw [loop, bind_apply]
  cases hstep : f s input with
  | error e => rfl
  | ok r =>
    obtain ⟨r, rest⟩ := r
    cases r with
    | inl s' => exact if_pos (hprogress hstep)
    | inr a => rfl

/-- A loop reads the turns that its steps read. -/
theorem reads_loop
    (hsound : ∀ {s input rest r}, f s input = .ok (r, rest) →
      ∃ text, input = text ++ rest ∧ G s text r)
    (hprogress : ∀ {s s' t}, G s t (.inl s') → t ≠ [])
    (hturn : ∀ {s s' t t' a rest}, G s t (.inl s') → Turns G s' t' a → F rest →
      f s (t ++ (t' ++ rest)) = .ok (.inl s', t' ++ rest))
    (hstop : ∀ {s t a rest}, G s t (.inr a) → F rest → f s (t ++ rest) = .ok (.inr a, rest))
    (s : σ) : Reads (loop e f s) (Turns G s) F := by
  have hshorter : ∀ {s s' input rest}, f s input = .ok (.inl s', rest) →
      rest.length < input.length := by
    intro s s' input rest h
    obtain ⟨text, rfl, hg⟩ := hsound h
    have := List.length_pos_iff.2 (hprogress hg)
    rw [List.length_append]
    omega
  constructor
  · intro input rest a h
    induction hn : input.length using Nat.strong_induction_on generalizing s input with
    | _ n ih =>
      rw [loop_apply hshorter] at h
      obtain ⟨r, mid, hstep, hrest⟩ := bind_eq_ok.1 h
      obtain ⟨text, rfl, hg⟩ := hsound hstep
      cases r with
      | inl s' =>
        obtain ⟨text', rfl, hturns⟩ := ih _ (hn ▸ hshorter hstep) s' hrest rfl
        exact ⟨text ++ text', (List.append_assoc ..).symm, .turn hg hturns⟩
      | inr a' =>
        cases hrest
        exact ⟨text, rfl, .stop hg⟩
  · intro text rest a hturns hf
    induction hturns with
    | stop hg =>
      rw [loop_apply hshorter, bind_of_ok (hstop hg hf)]
      rfl
    | turn hg hturns ih =>
      rw [List.append_assoc, loop_apply hshorter, bind_of_ok (hturn hg hturns hf)]
      exact ih

end

end Scanner

end Http2.Lib
