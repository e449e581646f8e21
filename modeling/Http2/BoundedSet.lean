/-! The bounded ordered set of `src/bounded_set.rs`. -/
namespace Http2

/-- A set in ascending order that gives up its least elements when it outgrows `maxSize`. -/
structure BoundedSet (α : Type) where
  inner : List α
  maxSize : Nat
  deriving DecidableEq, Repr

namespace BoundedSet

variable {α : Type}

def new (maxSize : Nat) : BoundedSet α := ⟨[], maxSize⟩

variable [LT α] [DecidableLT α] [DecidableEq α]

/-- `BTreeSet::insert`. -/
def insertSorted (value : α) : List α → List α
  | [] => [value]
  | x :: xs =>
    if value < x then value :: x :: xs
    else if value = x then x :: xs
    else x :: insertSorted value xs

/-- `pop_first` while the set is too large. -/
def insert (s : BoundedSet α) (value : α) : BoundedSet α :=
  let inner := insertSorted value s.inner
  { s with inner := inner.drop (inner.length - s.maxSize) }

def contains (s : BoundedSet α) (value : α) : Bool := decide (value ∈ s.inner)

theorem mem_insertSorted {value x : α} {l : List α} :
    x ∈ insertSorted value l ↔ x = value ∨ x ∈ l := by
  induction l with
  | nil => simp [insertSorted]
  | cons y ys ih =>
    unfold insertSorted
    by_cases hlt : value < y
    · simp [hlt]
    · by_cases heq : value = y
      · subst heq
        simp [hlt]
      · simp only [hlt, heq, if_false, List.mem_cons, ih]
        exact or_left_comm

theorem length_insertSorted_le (value : α) (l : List α) :
    (insertSorted value l).length ≤ l.length + 1 := by
  induction l with
  | nil => simp [insertSorted]
  | cons y ys ih =>
    unfold insertSorted
    split
    · simp
    · split
      · simp
      · simpa using ih

/-- Nothing enters the set but the value inserted. -/
theorem contains_of_contains_insert {s : BoundedSet α} {value x : α}
    (h : (s.insert value).contains x = true) : x = value ∨ s.contains x = true := by
  have hmem : x ∈ insertSorted value s.inner := List.mem_of_mem_drop (of_decide_eq_true h)
  obtain heq | hin := mem_insertSorted.1 hmem
  · exact .inl heq
  · exact .inr (decide_eq_true hin)

/-- Below the bound nothing leaves it either. -/
theorem contains_insert {s : BoundedSet α} {value x : α} (hroom : s.inner.length < s.maxSize) :
    (s.insert value).contains x = true ↔ x = value ∨ s.contains x = true := by
  constructor
  · exact contains_of_contains_insert
  · intro h
    have hlen := length_insertSorted_le value s.inner
    have hdrop : (insertSorted value s.inner).length - s.maxSize = 0 := by omega
    apply decide_eq_true
    simp only [insert, hdrop, List.drop_zero]
    apply mem_insertSorted.2
    obtain heq | hin := h
    · exact .inl heq
    · exact .inr (of_decide_eq_true hin)

theorem length_insert_le (s : BoundedSet α) (value : α) :
    (s.insert value).inner.length ≤ s.inner.length + 1 := by
  have hlen := length_insertSorted_le value s.inner
  simp only [insert, List.length_drop]
  omega

@[simp] theorem insert_maxSize (s : BoundedSet α) (value : α) :
    (s.insert value).maxSize = s.maxSize := rfl

end BoundedSet

end Http2
