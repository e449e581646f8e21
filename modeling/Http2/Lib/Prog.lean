/-! Programs over a mutable state that may fail. A failure keeps the state it was raised in, as a
method does that returns early with an error. -/
namespace Http2.Lib

def Prog (σ ε α : Type) : Type := σ → Except ε α × σ

namespace Prog

variable {σ ε α β : Type}

protected def pure (a : α) : Prog σ ε α := fun s => (.ok a, s)

protected def bind (m : Prog σ ε α) (f : α → Prog σ ε β) : Prog σ ε β := fun s =>
  match m s with
  | (.ok a, s') => f a s'
  | (.error e, s') => (.error e, s')

instance : Monad (Prog σ ε) where
  pure := Prog.pure
  bind := Prog.bind

def get : Prog σ ε σ := fun s => (.ok s, s)

def modify (f : σ → σ) : Prog σ ε Unit := fun s => (.ok (), f s)

def throw (e : ε) : Prog σ ε α := fun s => (.error e, s)

/-- A pure computation that may fail (`?` on a `Result`). -/
def lift (r : Except ε α) : Prog σ ε α := fun s => (r, s)

/-- Goes on when the condition holds. -/
def require (p : Prop) [Decidable p] (e : ε) : Prog σ ε Unit :=
  if p then Prog.pure () else Prog.throw e

/-- Runs a part and drops its result (`let _ = ...`). -/
def attempt (m : Prog σ ε α) : Prog σ ε Unit := fun s => (.ok (), (m s).2)

/-- Runs a part and hands its result over, a failure included. -/
def capture {ε' : Type} (m : Prog σ ε α) : Prog σ ε' (Except ε α) := fun s => (.ok (m s).1, (m s).2)

/-- The result and the state that a run from `s` ends with satisfy `Q`. -/
def Ensures (m : Prog σ ε α) (s : σ) (Q : Except ε α → σ → Prop) : Prop := Q (m s).1 (m s).2

variable {m : Prog σ ε α} {f : α → Prog σ ε β} {s : σ}

@[simp] theorem ensures_pure {a : α} {Q : Except ε α → σ → Prop} :
    Ensures (pure a : Prog σ ε α) s Q ↔ Q (.ok a) s := Iff.rfl

@[simp] theorem ensures_get {Q : Except ε σ → σ → Prop} :
    Ensures (get : Prog σ ε σ) s Q ↔ Q (.ok s) s := Iff.rfl

@[simp] theorem ensures_modify {g : σ → σ} {Q : Except ε Unit → σ → Prop} :
    Ensures (modify g : Prog σ ε Unit) s Q ↔ Q (.ok ()) (g s) := Iff.rfl

@[simp] theorem ensures_throw {e : ε} {Q : Except ε α → σ → Prop} :
    Ensures (throw e : Prog σ ε α) s Q ↔ Q (.error e) s := Iff.rfl

@[simp] theorem ensures_lift {r : Except ε α} {Q : Except ε α → σ → Prop} :
    Ensures (lift r : Prog σ ε α) s Q ↔ Q r s := Iff.rfl

/-- A failure of the first part is the failure of the whole. -/
@[simp] theorem ensures_bind {Q : Except ε β → σ → Prop} :
    Ensures (m >>= f) s Q ↔
      Ensures m s fun r s' =>
        match r with
        | .ok a => Ensures (f a) s' Q
        | .error e => Q (.error e) s' := by
  change Q (Prog.bind m f s).1 (Prog.bind m f s).2 ↔ _
  unfold Prog.bind Ensures
  obtain ⟨r, s'⟩ := m s
  cases r <;> exact Iff.rfl

@[simp] theorem ensures_ite {p : Prop} [Decidable p] {m' : Prog σ ε α} {Q : Except ε α → σ → Prop} :
    Ensures (if p then m else m') s Q ↔ (p → Ensures m s Q) ∧ (¬ p → Ensures m' s Q) := by
  by_cases hp : p <;> simp [hp]

@[simp] theorem ensures_require {p : Prop} [Decidable p] {e : ε} {Q : Except ε Unit → σ → Prop} :
    Ensures (require p e : Prog σ ε Unit) s Q ↔ (p → Q (.ok ()) s) ∧ (¬ p → Q (.error e) s) := by
  unfold require
  by_cases hp : p
  · simp only [hp, if_true, forall_const, not_true, false_implies, and_true]
    exact Iff.rfl
  · simp only [hp, if_false, false_implies, not_false_iff, forall_const, true_and]
    exact Iff.rfl

@[simp] theorem ensures_attempt {Q : Except ε Unit → σ → Prop} :
    Ensures (attempt m) s Q ↔ Ensures m s fun _ s' => Q (.ok ()) s' := Iff.rfl

@[simp] theorem ensures_capture {ε' : Type} {Q : Except ε' (Except ε α) → σ → Prop} :
    Ensures (capture m) s Q ↔ Ensures m s fun r s' => Q (.ok r) s' := Iff.rfl

theorem ensures_mono {Q Q' : Except ε α → σ → Prop} (h : Ensures m s Q)
    (himp : ∀ r s', Q r s' → Q' r s') : Ensures m s Q' := himp _ _ h

theorem ensures_and {Q Q' : Except ε α → σ → Prop} (h : Ensures m s Q) (h' : Ensures m s Q') :
    Ensures m s fun r s' => Q r s' ∧ Q' r s' := ⟨h, h'⟩

theorem ensures_run {r : Except ε α} {s' : σ} {Q : Except ε α → σ → Prop} (h : m s = (r, s')) :
    Ensures m s Q ↔ Q r s' := by
  rw [Ensures, h]

theorem bind_ok {a : α} {s' : σ} (h : m s = (.ok a, s')) (f : α → Prog σ ε β) :
    (m >>= f) s = f a s' := by
  change Prog.bind m f s = _
  rw [Prog.bind, h]

theorem bind_error {e : ε} {s' : σ} (h : m s = (.error e, s')) (f : α → Prog σ ε β) :
    (m >>= f) s = (.error e, s') := by
  change Prog.bind m f s = _
  rw [Prog.bind, h]

theorem require_ok {p : Prop} [Decidable p] (e : ε) (hp : p) :
    (require p e : Prog σ ε Unit) s = (.ok (), s) := by
  rw [require, if_pos hp]
  rfl

theorem require_error {p : Prop} [Decidable p] (e : ε) (hp : ¬ p) :
    (require p e : Prog σ ε Unit) s = (.error e, s) := by
  rw [require, if_neg hp]
  rfl

/-! ## What a program leaves alone -/

/-- Whatever the program does, this view of the state stays. -/
def Keeps {ν : Type} (view : σ → ν) (m : Prog σ ε α) : Prop := ∀ s, view (m s).2 = view s

section Keeps

variable {ν : Type} {view : σ → ν}

theorem Keeps.ensures (h : Keeps view m) (s : σ) : Ensures m s fun _ s' => view s' = view s := h s

theorem Keeps.run {r : Except ε α} {s s' : σ} (h : Keeps view m) (hrun : m s = (r, s')) :
    view s' = view s := by
  have hs := h s
  rw [hrun] at hs
  exact hs

@[grind ←] theorem keeps_pure {a : α} : Keeps view (pure a : Prog σ ε α) := fun _ => rfl

@[grind ←] theorem keeps_get : Keeps view (get : Prog σ ε σ) := fun _ => rfl

@[grind ←] theorem keeps_throw {e : ε} : Keeps view (throw e : Prog σ ε α) := fun _ => rfl

@[grind ←] theorem keeps_lift {r : Except ε α} : Keeps view (lift r : Prog σ ε α) := fun _ => rfl

@[grind =] theorem keeps_modify {g : σ → σ} :
    Keeps view (modify g : Prog σ ε Unit) ↔ ∀ s, view (g s) = view s := Iff.rfl

@[grind ←] theorem keeps_bind (hm : Keeps view m) (hf : ∀ a, Keeps view (f a)) : Keeps view (m >>= f) := by
  intro s
  change view (Prog.bind m f s).2 = view s
  have hs := hm s
  unfold Prog.bind
  generalize m s = out at hs
  obtain ⟨r, s'⟩ := out
  cases r with
  | ok a => exact (hf a s').trans hs
  | error e => exact hs

theorem keeps_ite {p : Prop} [Decidable p] {m' : Prog σ ε α} (hm : Keeps view m)
    (hm' : Keeps view m') : Keeps view (if p then m else m') := by
  split
  · exact hm
  · exact hm'

@[grind ←] theorem keeps_require {p : Prop} [Decidable p] {e : ε} :
    Keeps view (require p e : Prog σ ε Unit) := keeps_ite keeps_pure keeps_throw

/-- What follows a check may rely on it. -/
theorem keeps_requireThen {p : Prop} [Decidable p] {e : ε} {n : Prog σ ε β} (hn : p → Keeps view n) :
    Keeps view ((require p e : Prog σ ε Unit) >>= fun _ => n) := by
  by_cases hp : p
  · exact keeps_bind keeps_require fun _ => hn hp
  · intro s
    rw [bind_error (require_error e hp)]

/-- A part that is run in one case only. -/
theorem keeps_when {p : Prop} [Decidable p] {n : Prog σ ε β} (hm : Keeps view m)
    (hn : Keeps view n) : Keeps view (if p then m >>= fun _ => n else n) :=
  keeps_ite (keeps_bind hm fun _ => hn) hn

end Keeps

/-! ## What a program maintains -/

/-- What held before the program holds after it, however it ends. -/
def Maintains (P : σ → Prop) (m : Prog σ ε α) : Prop := ∀ s, P s → P (m s).2

section Maintains

variable {P : σ → Prop}

theorem Maintains.ensures (h : Maintains P m) (hs : P s) : Ensures m s fun _ s' => P s' := h s hs

theorem maintains_pure {a : α} : Maintains P (pure a : Prog σ ε α) := fun _ hs => hs

theorem maintains_get : Maintains P (get : Prog σ ε σ) := fun _ hs => hs

theorem maintains_throw {e : ε} : Maintains P (throw e : Prog σ ε α) := fun _ hs => hs

theorem maintains_capture {ε' : Type} (h : Maintains P m) :
    Maintains P (capture m : Prog σ ε' (Except ε α)) := h

theorem maintains_bind (hm : Maintains P m) (hf : ∀ a, Maintains P (f a)) :
    Maintains P (m >>= f) := by
  intro s hs
  change P (Prog.bind m f s).2
  have hnext := hm s hs
  unfold Prog.bind
  generalize m s = out at hnext
  obtain ⟨r, s'⟩ := out
  cases r with
  | ok a => exact hf a s' hnext
  | error e => exact hnext

theorem maintains_ite {p : Prop} [Decidable p] {m' : Prog σ ε α} (hm : Maintains P m)
    (hm' : Maintains P m') : Maintains P (if p then m else m') := by
  split
  · exact hm
  · exact hm'

theorem maintains_require {p : Prop} [Decidable p] {e : ε} :
    Maintains P (require p e : Prog σ ε Unit) := maintains_ite maintains_pure maintains_throw

/-- A part that is run in one case only. -/
theorem maintains_when {p : Prop} [Decidable p] {n : Prog σ ε β} (hm : Maintains P m)
    (hn : Maintains P n) : Maintains P (if p then m >>= fun _ => n else n) :=
  maintains_ite (maintains_bind hm fun _ => hn) hn

/-- What depends on a part of the state is maintained by a program that leaves that part alone. -/
theorem Keeps.maintains {ν : Type} {view : σ → ν} (h : Keeps view m)
    (hP : ∀ s s', view s' = view s → P s → P s') : Maintains P m := fun s hs => hP s _ (h s) hs

end Maintains

/-! ## What a program does not read -/

/-- From states that differ only in what is forgotten the program ends alike. -/
def Respects (forget : σ → σ) (m : Prog σ ε α) : Prop :=
  ∀ s s', forget s = forget s' → (m s).1 = (m s').1 ∧ forget (m s).2 = forget (m s').2

section Respects

variable {forget : σ → σ}

theorem respects_pure {a : α} : Respects forget (pure a : Prog σ ε α) := fun _ _ h => ⟨rfl, h⟩

theorem respects_throw {e : ε} : Respects forget (throw e : Prog σ ε α) := fun _ _ h => ⟨rfl, h⟩

theorem respects_lift {r : Except ε α} : Respects forget (lift r : Prog σ ε α) := fun _ _ h => ⟨rfl, h⟩

theorem respects_ite {p : Prop} [Decidable p] {m' : Prog σ ε α} (hm : Respects forget m)
    (hm' : Respects forget m') : Respects forget (if p then m else m') := by
  split
  · exact hm
  · exact hm'

theorem respects_require {p : Prop} [Decidable p] {e : ε} :
    Respects forget (require p e : Prog σ ε Unit) := respects_ite respects_pure respects_throw

theorem respects_modify {g : σ → σ} (h : ∀ s, forget (g s) = forget (g (forget s))) :
    Respects forget (modify g : Prog σ ε Unit) := by
  intro s s' hs
  refine ⟨rfl, ?_⟩
  change forget (g s) = forget (g s')
  rw [h s, h s', hs]

theorem respects_bind (hm : Respects forget m) (hf : ∀ a, Respects forget (f a)) :
    Respects forget (m >>= f) := by
  intro s s' hs
  obtain ⟨hresult, hstate⟩ := hm s s' hs
  change (Prog.bind m f s).1 = (Prog.bind m f s').1 ∧ forget (Prog.bind m f s).2 = forget (Prog.bind m f s').2
  unfold Prog.bind
  generalize m s = out at hresult hstate
  generalize m s' = out' at hresult hstate
  obtain ⟨r, t⟩ := out
  obtain ⟨r', t'⟩ := out'
  obtain rfl : r = r' := hresult
  cases r with
  | ok a => exact hf a t t' hstate
  | error e => exact ⟨rfl, hstate⟩

/-- What follows depends on the state that is read only by what is not forgotten. -/
theorem respects_read {k : σ → Prog σ ε α} (hread : ∀ s, k s = k (forget s))
    (hk : ∀ s, Respects forget (k s)) : Respects forget (get >>= k) := by
  intro s s' hs
  change (k s s).1 = (k s' s').1 ∧ forget (k s s).2 = forget (k s' s').2
  have hsame : k s = k s' := by rw [hread s, hread s', hs]
  rw [hsame]
  exact hk s' s s' hs

end Respects

end Prog

/-! ## Results -/

theorem bind_eq_ok_iff {ε α β : Type} {x : Except ε α} {f : α → Except ε β} {b : β} :
    (x >>= f) = .ok b ↔ ∃ a, x = .ok a ∧ f a = .ok b := by
  constructor
  · intro h
    cases x with
    | error e => cases h
    | ok a => exact ⟨a, rfl, h⟩
  · rintro ⟨a, rfl, h⟩
    exact h

end Http2.Lib
