import Mathlib.Tactic.Ring

/-! Computations whose arithmetic and indexing are checked. `none` is a panic of the language, such
as an index out of range; a computation that does not panic returns a value or fails. -/
namespace Http2.Lib

abbrev Checked (ε α : Type) : Type := ExceptT ε Option α

namespace Checked

variable {ε α β : Type}

/-- A computation in which nothing can panic. -/
def lift (x : Except ε α) : Checked ε α := ExceptT.mk (some x)

/-- The value, where the language panics unless `p`. -/
def guarded (p : Prop) [Decidable p] (a : α) : Checked ε α :=
  if p then lift (.ok a) else ExceptT.mk none

def add (a b : Nat) : Checked ε Nat := guarded (a + b < 2 ^ 64) (a + b)

def sub (a b : Nat) : Checked ε Nat := guarded (b ≤ a) (a - b)

def shl (a n : Nat) : Checked ε Nat := guarded (n < 64) ((a <<< n) % 2 ^ 64)

def item (l : List α) (i : Nat) : Checked ε α :=
  match l[i]? with
  | some a => lift (.ok a)
  | none => ExceptT.mk none

def slice (l : List α) (a b : Nat) : Checked ε (List α) :=
  guarded (a ≤ b ∧ b ≤ l.length) ((l.drop a).take (b - a))

def sliceFrom (l : List α) (a : Nat) : Checked ε (List α) :=
  guarded (a ≤ l.length) (l.drop a)

@[simp] theorem pure_eq (a : α) : (pure a : Checked ε α) = lift (.ok a) := rfl

@[simp] theorem throw_eq (e : ε) : (throw e : Checked ε α) = lift (.error e) := rfl

@[simp] theorem ok_bind (a : α) (f : α → Checked ε β) : lift (.ok a) >>= f = f a := rfl

@[simp] theorem error_bind (e : ε) (f : α → Checked ε β) :
    lift (.error e) >>= f = lift (.error e) := rfl

@[simp] theorem run_lift (x : Except ε α) : (lift x).run = some x := rfl

/-- Lifting goes through a bind, when the second half does not panic on what the first returns. -/
theorem lift_bind {x : Except ε α} {f : α → Checked ε β} {g : α → Except ε β}
    (h : ∀ a, x = .ok a → f a = lift (g a)) : lift x >>= f = lift (x >>= g) := by
  cases x with
  | error e => rfl
  | ok a => exact h a rfl

theorem guarded_pos {p : Prop} [Decidable p] (h : p) (a : α) :
    (guarded p a : Checked ε α) = lift (.ok a) := if_pos h

theorem add_eq {a b : Nat} (h : a + b < 2 ^ 64) : (add a b : Checked ε Nat) = lift (.ok (a + b)) :=
  guarded_pos h _

theorem sub_eq {a b : Nat} (h : b ≤ a) : (sub a b : Checked ε Nat) = lift (.ok (a - b)) :=
  guarded_pos h _

theorem shl_eq {a n : Nat} (h : n < 64) :
    (shl a n : Checked ε Nat) = lift (.ok ((a <<< n) % 2 ^ 64)) := guarded_pos h _

theorem item_eq {l : List α} {i : Nat} {a : α} (h : l[i]? = some a) :
    (item l i : Checked ε α) = lift (.ok a) := by
  rw [item, h]

theorem slice_eq {l : List α} {a b : Nat} (hab : a ≤ b) (hb : b ≤ l.length) :
    (slice l a b : Checked ε (List α)) = lift (.ok ((l.drop a).take (b - a))) :=
  guarded_pos ⟨hab, hb⟩ _

theorem sliceFrom_eq {l : List α} {a : Nat} (h : a ≤ l.length) :
    (sliceFrom l a : Checked ε (List α)) = lift (.ok (l.drop a)) := guarded_pos h _

end Checked

end Http2.Lib
