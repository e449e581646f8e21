/-! Histories: lists of items, the most recent first. -/
namespace Http2.Lib

variable {α : Type}

/-- Every item was justified by the items before it. -/
def Always (P : α → List α → Prop) : List α → Prop
  | [] => True
  | i :: earlier => P i earlier ∧ Always P earlier

@[simp] theorem always_nil {P : α → List α → Prop} : Always P [] ↔ True := Iff.rfl

@[simp] theorem always_cons {P : α → List α → Prop} {i : α} {earlier : List α} :
    Always P (i :: earlier) ↔ P i earlier ∧ Always P earlier := Iff.rfl

/-- What justifies an item at the moment it is recorded. -/
theorem Always.at {P : α → List α → Prop} {later earlier : List α} {i : α}
    (h : Always P (later ++ i :: earlier)) : P i earlier := by
  induction later with
  | nil => exact h.1
  | cons _ _ ih => exact ih h.2

/-- A history goes on with items that the history before them justifies, whatever comes between. -/
theorem Always.append {P : α → List α → Prop} {new earlier : List α} (h : Always P earlier)
    (hnew : ∀ i ∈ new, ∀ between, P i (between ++ earlier)) : Always P (new ++ earlier) := by
  induction new with
  | nil => exact h
  | cons i new ih =>
    refine ⟨hnew i (List.mem_cons_self ..) new, ih fun j hj => ?_⟩
    exact hnew j (List.mem_cons_of_mem _ hj)

/-! ## Announcements -/

variable {f : α → Option Nat} {init : Nat}

/-- The value that a history announced last, `init` before the first one. -/
def latest (f : α → Option Nat) (init : Nat) : List α → Nat
  | [] => init
  | i :: earlier => (f i).getD (latest f init earlier)

/-- Each value that is announced is over the ones before. -/
def Rising (f : α → Option Nat) (init : Nat) : List α → Prop :=
  Always fun i earlier => ∀ value, f i = some value → latest f init earlier < value

@[simp] theorem latest_cons (i : α) (earlier : List α) :
    latest f init (i :: earlier) = (f i).getD (latest f init earlier) := rfl

/-- Items that announce nothing leave the last value as it is. -/
theorem latest_append {new earlier : List α} (h : ∀ i ∈ new, f i = none) :
    latest f init (new ++ earlier) = latest f init earlier := by
  induction new with
  | nil => rfl
  | cons i new ih =>
    rw [List.cons_append, latest_cons, h i (List.mem_cons_self ..)]
    exact ih fun j hj => h j (List.mem_cons_of_mem _ hj)

theorem Rising.append {new earlier : List α} (h : Rising f init earlier)
    (hnew : ∀ i ∈ new, f i = none) : Rising f init (new ++ earlier) := by
  refine Always.append h fun i hi between value hvalue => ?_
  cases (hnew i hi).symm.trans hvalue

/-- An announcement is over all that was announced before it. -/
theorem Rising.at {later earlier : List α} {i : α} {value : Nat}
    (h : Rising f init (later ++ i :: earlier)) (hvalue : f i = some value) :
    latest f init earlier < value := Always.at h value hvalue

/-! ## Weights -/

/-- What the items of a history weigh together. -/
def tally (w : α → Nat) : List α → Nat
  | [] => 0
  | i :: earlier => w i + tally w earlier

variable {w : α → Nat}

@[simp] theorem tally_nil : tally w [] = 0 := rfl

@[simp] theorem tally_cons (i : α) (earlier : List α) : tally w (i :: earlier) = w i + tally w earlier :=
  rfl

theorem tally_append (new earlier : List α) : tally w (new ++ earlier) = tally w new + tally w earlier := by
  induction new with
  | nil => simp
  | cons i new ih =>
    rw [List.cons_append, tally_cons, tally_cons, ih, Nat.add_assoc]

theorem tally_eq_zero {items : List α} (h : ∀ i ∈ items, w i = 0) : tally w items = 0 := by
  induction items with
  | nil => rfl
  | cons i items ih =>
    obtain ⟨hi, hitems⟩ := List.forall_mem_cons.1 h
    rw [tally_cons, hi, ih hitems]

/-- Items without weight change no sum. -/
theorem tally_light {new earlier : List α} (h : ∀ i ∈ new, w i = 0) :
    tally w (new ++ earlier) = tally w earlier := by
  rw [tally_append, tally_eq_zero h, Nat.zero_add]

end Http2.Lib
