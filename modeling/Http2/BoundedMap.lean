import Mathlib.Data.List.Basic
import Mathlib.Order.Lattice

/-! The bounded map of `src/bounded_map.rs`. -/
namespace Http2

namespace BoundedMap

variable {α β : Type} [LinearOrder α]

/-- `BTreeMap::insert`. -/
def insertSorted (key : α) (value : β) : List (α × β) → List (α × β)
  | [] => [(key, value)]
  | entry :: rest =>
    if key < entry.1 then (key, value) :: entry :: rest
    else if key = entry.1 then (key, value) :: rest
    else entry :: insertSorted key value rest

theorem mem_insertSorted {key : α} {value : β} {entry : α × β} {l : List (α × β)}
    (h : entry ∈ insertSorted key value l) : entry = (key, value) ∨ entry ∈ l := by
  induction l with
  | nil => exact .inl (List.mem_singleton.1 h)
  | cons first rest ih =>
    unfold insertSorted at h
    by_cases hlt : key < first.1
    · rw [if_pos hlt] at h
      exact List.mem_cons.1 h
    · rw [if_neg hlt] at h
      by_cases heq : key = first.1
      · rw [if_pos heq] at h
        obtain heq | hin := List.mem_cons.1 h
        · exact .inl heq
        · exact .inr (List.mem_cons_of_mem _ hin)
      · rw [if_neg heq] at h
        obtain heq | hin := List.mem_cons.1 h
        · exact .inr (heq ▸ List.mem_cons_self ..)
        · exact (ih hin).imp_right (List.mem_cons_of_mem _)

theorem sorted_insertSorted (key : α) (value : β) {l : List (α × β)}
    (h : l.Pairwise (·.1 < ·.1)) : (insertSorted key value l).Pairwise (·.1 < ·.1) := by
  induction l with
  | nil => exact List.pairwise_singleton _ _
  | cons first rest ih =>
    obtain ⟨hfirst, hrest⟩ := List.pairwise_cons.1 h
    unfold insertSorted
    by_cases hlt : key < first.1
    · rw [if_pos hlt]
      refine List.pairwise_cons.2 ⟨fun entry hentry => ?_, h⟩
      obtain rfl | hin := List.mem_cons.1 hentry
      · exact hlt
      · exact lt_trans hlt (hfirst entry hin)
    · rw [if_neg hlt]
      by_cases heq : key = first.1
      · rw [if_pos heq]
        exact List.pairwise_cons.2 ⟨fun entry hin => heq ▸ hfirst entry hin, hrest⟩
      · rw [if_neg heq]
        refine List.pairwise_cons.2 ⟨fun entry hentry => ?_, ih hrest⟩
        obtain rfl | hin := mem_insertSorted hentry
        · exact lt_of_le_of_ne (not_lt.1 hlt) (Ne.symm heq)
        · exact hfirst entry hin

end BoundedMap

/-- A map in ascending order of its keys that gives up its least keys when it outgrows `maxSize`. -/
structure BoundedMap (α β : Type) [LinearOrder α] where
  inner : List (α × β)
  maxSize : Nat
  sorted : inner.Pairwise (·.1 < ·.1)
  deriving DecidableEq

namespace BoundedMap

variable {α β : Type} [LinearOrder α]

def new (maxSize : Nat) : BoundedMap α β := ⟨[], maxSize, .nil⟩

/-- `pop_first` while the map is too large. -/
def insert (m : BoundedMap α β) (key : α) (value : β) : BoundedMap α β where
  inner :=
    let inner := insertSorted key value m.inner
    inner.drop (inner.length - m.maxSize)
  maxSize := m.maxSize
  sorted := (sorted_insertSorted key value m.sorted).drop

def get (m : BoundedMap α β) (key : α) : Option β := m.inner.lookup key

def contains (m : BoundedMap α β) (key : α) : Bool := (m.get key).isSome

theorem lookup_cons_ite (key : α) (entry : α × β) (rest : List (α × β)) :
    (entry :: rest).lookup key = if key = entry.1 then some entry.2 else rest.lookup key := by
  obtain ⟨k, v⟩ := entry
  by_cases h : key = k
  · subst h
    simp
  · simp [List.lookup_cons, beq_eq_false_iff_ne.2 h, h]

theorem lookup_insertSorted (key k : α) (value : β) (l : List (α × β)) :
    (insertSorted key value l).lookup k = if k = key then some value else l.lookup k := by
  induction l with
  | nil => simp only [insertSorted, lookup_cons_ite]
  | cons entry rest ih =>
    unfold insertSorted
    by_cases hlt : key < entry.1
    · rw [if_pos hlt, lookup_cons_ite]
    · rw [if_neg hlt]
      by_cases heq : key = entry.1
      · rw [if_pos heq, lookup_cons_ite, lookup_cons_ite, heq]
        by_cases hk : k = entry.1
        · simp [hk]
        · simp [hk]
      · rw [if_neg heq, lookup_cons_ite, lookup_cons_ite, ih]
        by_cases hk : k = entry.1
        · simp [hk, Ne.symm heq]
        · simp [hk]

/-- A new key takes a place of its own, a known one keeps the one it has. -/
theorem length_insertSorted {key : α} {value : β} {l : List (α × β)}
    (h : l.Pairwise (·.1 < ·.1)) : (insertSorted key value l).length =
      if (l.lookup key).isSome then l.length else l.length + 1 := by
  induction l with
  | nil => rfl
  | cons entry rest ih =>
    obtain ⟨hfirst, hrest⟩ := List.pairwise_cons.1 h
    unfold insertSorted
    by_cases hlt : key < entry.1
    · have hnone : rest.lookup key = none := by
        rw [List.lookup_eq_none_iff]
        intro p hp
        have : key < p.1 := lt_trans hlt (hfirst p hp)
        simpa using ne_of_lt this
      simp [hlt, lookup_cons_ite, ne_of_lt hlt, hnone]
    · rw [if_neg hlt, lookup_cons_ite]
      by_cases heq : key = entry.1
      · simp [heq]
      · rw [if_neg heq, if_neg heq, List.length_cons, ih hrest]
        split <;> rfl

@[simp] theorem get_new (maxSize : Nat) (key : α) :
    (new maxSize : BoundedMap α β).get key = none := rfl

@[simp] theorem insert_maxSize (m : BoundedMap α β) (key : α) (value : β) :
    (m.insert key value).maxSize = m.maxSize := rfl

/-- While there is room an insertion changes what is found under its key only. -/
theorem get_insert {m : BoundedMap α β} {key : α} {value : β}
    (hroom : m.inner.length < m.maxSize ∨ m.inner.length ≤ m.maxSize ∧ (m.get key).isSome)
    (k : α) : (m.insert key value).get k = if k = key then some value else m.get k := by
  have hlen := @length_insertSorted _ _ _ key value _ m.sorted
  have hdrop : (insertSorted key value m.inner).length - m.maxSize = 0 := by
    obtain hroom | ⟨hroom, hsome⟩ := hroom
    · split at hlen <;> omega
    · rw [get] at hsome
      rw [hlen, if_pos hsome]
      omega
  simp only [get, insert, hdrop, List.drop_zero, lookup_insertSorted]

theorem length_insert {m : BoundedMap α β} {key : α} {value : β} :
    (m.insert key value).inner.length ≤
      if (m.get key).isSome then m.inner.length else m.inner.length + 1 := by
  have hlen := @length_insertSorted _ _ _ key value _ m.sorted
  simp only [insert, get, List.length_drop, hlen]
  exact Nat.sub_le _ _

end BoundedMap

end Http2
