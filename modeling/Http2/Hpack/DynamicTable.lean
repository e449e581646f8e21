import Http2.Lib.Budget
import Http2.Lib.Checked
import Http2.Hpack.Table

/-! The dynamic table of `src/hpack/dynamic_table.rs`, newest entry first. -/
namespace Http2.Hpack

open Lib (Checked)
open Lib.Budget
open Lib.Checked (lift sub sub_eq ok_bind)

structure DynamicTable where
  entries : List HeaderField
  size : Nat
  maxSize : Nat
  deriving DecidableEq, Repr

namespace DynamicTable

/-- `DynamicTable::new`. -/
def new (maxSize : Nat) : DynamicTable := ⟨[], 0, maxSize⟩

/-- The eviction loop on the entries listed oldest first: pop while `extra` more octets would not
fit, and stop on an empty table. -/
def popLoop (extra maxSize : Nat) : List HeaderField → Nat → List HeaderField × Nat
  | [], size => ([], size)
  | e :: newer, size =>
    if size + extra > maxSize then popLoop extra maxSize newer (size - e.size)
    else (e :: newer, size)

def evictFor (t : DynamicTable) (extra : Nat) : DynamicTable :=
  let r := popLoop extra t.maxSize t.entries.reverse t.size
  { t with entries := r.1.reverse, size := r.2 }

def evict (t : DynamicTable) : DynamicTable := t.evictFor 0

def setMaxSize (t : DynamicTable) (maxSize : Nat) : DynamicTable :=
  evict { t with maxSize := maxSize }

def clear (t : DynamicTable) : DynamicTable := { t with entries := [], size := 0 }

def insertEntry (t : DynamicTable) (entry : HeaderField) : DynamicTable :=
  if entry.size > t.maxSize then t.clear
  else
    let t := t.evictFor entry.size
    { t with entries := entry :: t.entries, size := t.size + entry.size }

/-- `insert_validated`: an entry never carries the sensitive flag. -/
def insertValidated (t : DynamicTable) (name value : Bytes) : DynamicTable :=
  t.insertEntry ⟨name, value, false⟩

def getByAbsoluteIndex (t : DynamicTable) (index : Nat) : Option HeaderField :=
  if index ≤ staticTableSize then none else t.entries[index - staticTableSize - 1]?

def find (t : DynamicTable) (name value : Bytes) : Option (Nat × Bool) :=
  scan name value (t.entries.map fun e => (e.name, e.value)) 0 none

/-! ## The reference model: entries are the longest affordable prefix -/

/-- The size field is the size of the entries and respects the maximum, and no entry carries the
sensitive flag. -/
structure Valid (t : DynamicTable) : Prop where
  size_eq : t.size = total HeaderField.size t.entries
  size_le : t.size ≤ t.maxSize
  plain : ∀ f ∈ t.entries, f.sensitive = false

theorem new_valid (maxSize : Nat) : (new maxSize).Valid :=
  ⟨rfl, Nat.zero_le _, fun _ h => by cases h⟩

theorem popLoop_eq (extra maxSize : Nat) (l : List HeaderField) (h : extra ≤ maxSize) :
    popLoop extra maxSize l (total HeaderField.size l) =
      ((fit HeaderField.size (maxSize - extra) l.reverse).reverse,
        total HeaderField.size (fit HeaderField.size (maxSize - extra) l.reverse)) := by
  induction l with
  | nil => rfl
  | cons e l ih =>
    rw [popLoop, List.reverse_cons]
    split
    · rw [fit_concat_of_lt]
      · rw [total_cons, Nat.add_sub_cancel_left]
        exact ih
      · simp only [total_append, total_reverse, total_cons, total_nil] at *
        omega
    · rw [fit_eq_self]
      · simp
        omega
      · simp only [total_append, total_reverse, total_cons, total_nil] at *
        omega

theorem evictFor_eq {t : DynamicTable} {extra : Nat} (hs : t.size = total HeaderField.size t.entries)
    (h : extra ≤ t.maxSize) :
    t.evictFor extra =
      { t with
        entries := fit HeaderField.size (t.maxSize - extra) t.entries
        size := total HeaderField.size (fit HeaderField.size (t.maxSize - extra) t.entries) } := by
  have hl := popLoop_eq extra t.maxSize t.entries.reverse h
  rw [total_reverse, ← hs, List.reverse_reverse] at hl
  simp [evictFor, hl]

theorem setMaxSize_fit {t : DynamicTable} (hs : t.size = total HeaderField.size t.entries) (m : Nat) :
    t.setMaxSize m =
      ⟨fit HeaderField.size m t.entries, total HeaderField.size (fit HeaderField.size m t.entries), m⟩ := by
  have hsize : ({ t with maxSize := m } : DynamicTable).size = total HeaderField.size t.entries := hs
  have heq := evictFor_eq hsize (Nat.zero_le m)
  simpa [setMaxSize, evict] using heq

/-- Inserting is putting the entry in front and keeping what fits: an entry too large for the
table does not fit in front of anything, so the table ends empty. -/
theorem insertEntry_fit {t : DynamicTable} (hs : t.size = total HeaderField.size t.entries)
    (e : HeaderField) :
    t.insertEntry e =
      ⟨fit HeaderField.size t.maxSize (e :: t.entries),
        total HeaderField.size (fit HeaderField.size t.maxSize (e :: t.entries)), t.maxSize⟩ := by
  unfold insertEntry
  split
  · rename_i h
    have : ¬ e.size ≤ t.maxSize := by omega
    simp [clear, fit, this]
  · rename_i h
    have hle : e.size ≤ t.maxSize := by omega
    rw [evictFor_eq hs hle]
    simp [fit, hle, Nat.add_comm]

theorem setMaxSize_eq {t : DynamicTable} (ht : t.Valid) (m : Nat) :
    t.setMaxSize m =
      ⟨fit HeaderField.size m t.entries, total HeaderField.size (fit HeaderField.size m t.entries), m⟩ :=
  setMaxSize_fit ht.size_eq m

theorem insertEntry_eq {t : DynamicTable} (ht : t.Valid) (e : HeaderField) :
    t.insertEntry e =
      ⟨fit HeaderField.size t.maxSize (e :: t.entries),
        total HeaderField.size (fit HeaderField.size t.maxSize (e :: t.entries)), t.maxSize⟩ :=
  insertEntry_fit ht.size_eq e

theorem setMaxSize_valid {t : DynamicTable} (ht : t.Valid) (m : Nat) : (t.setMaxSize m).Valid := by
  rw [setMaxSize_eq ht]
  refine ⟨rfl, total_fit_le _ _ _, ?_⟩
  intro f hf
  exact ht.plain f ((fit_isPrefix _ _ _).subset hf)

/-- A change of the size evicts and never fills. -/
theorem setMaxSize_size {t : DynamicTable} (ht : t.Valid) (m : Nat) :
    (t.setMaxSize m).size ≤ m ∧ (t.setMaxSize m).size ≤ t.size := by
  rw [setMaxSize_eq ht, ht.size_eq]
  exact ⟨total_fit_le _ _ _, total_mono _ (fit_isPrefix _ _ _)⟩

theorem insertEntry_valid {t : DynamicTable} (ht : t.Valid) {e : HeaderField}
    (he : e.sensitive = false) : (t.insertEntry e).Valid := by
  rw [insertEntry_eq ht]
  refine ⟨rfl, total_fit_le _ _ _, ?_⟩
  intro f hf
  rcases List.mem_cons.1 ((fit_isPrefix _ _ _).subset hf) with rfl | hf
  · exact he
  · exact ht.plain f hf

@[simp] theorem setMaxSize_maxSize (t : DynamicTable) (m : Nat) : (t.setMaxSize m).maxSize = m := rfl

@[simp] theorem insertEntry_maxSize (t : DynamicTable) (e : HeaderField) :
    (t.insertEntry e).maxSize = t.maxSize := by
  unfold insertEntry
  split <;> rfl

/-- A hit of `find` names the entry it stands for. -/
theorem find_spec {t : DynamicTable} {name value : Bytes} {j : Nat} {isExact : Bool}
    (h : t.find name value = some (j, isExact)) :
    ∃ e, t.entries[j]? = some e ∧ e.name = name ∧ (isExact = true → e.value = value) := by
  rcases scan_spec h with ⟨hm, _⟩ | ⟨p, _, hget, hn, hv⟩
  · cases hm
  · obtain ⟨e, he, rfl⟩ := by simpa using hget
    exact ⟨e, he, hn, hv⟩

/-- A table holds fewer entries than its size has octets: each one costs at least 32. -/
theorem length_le {t : DynamicTable} (ht : t.Valid) : 32 * t.entries.length ≤ t.maxSize := by
  have hsum : ∀ l : List HeaderField, 32 * l.length ≤ total HeaderField.size l := by
    intro l
    induction l with
    | nil => simp
    | cons e l ih =>
      simp only [List.length_cons, total_cons, HeaderField.size]
      omega
  have := hsum t.entries
  have := ht.size_eq
  have := ht.size_le
  omega

/-! ## Eviction that may panic -/

section

variable (plus : Nat → Nat → Checked Error Nat) (sizeOf : HeaderField → Checked Error Nat)

/-- The eviction loop once more. Its subtraction panics when it would underflow, and its sums and the
sizes of the entries are those given. -/
def popLoopWith (extra maxSize : Nat) :
    List HeaderField → Nat → Checked Error (List HeaderField × Nat)
  | [], size => do
    let _ ← plus size extra
    return ([], size)
  | e :: newer, size => do
    let needed ← plus size extra
    if needed > maxSize then do
      let removed ← sizeOf e
      let size ← sub size removed
      popLoopWith extra maxSize newer size
    else return (e :: newer, size)

def evictForWith (t : DynamicTable) (extra : Nat) : Checked Error DynamicTable := do
  let r ← popLoopWith plus sizeOf extra t.maxSize t.entries.reverse t.size
  return { t with entries := r.1.reverse, size := r.2 }

variable {plus sizeOf}

/-- It does not panic where no sum does that is made on the way: the size is that of the entries. -/
theorem popLoopWith_eq {extra maxSize size : Nat} {l : List HeaderField}
    (hsize : size = total HeaderField.size l)
    (hplus : ∀ n ≤ size, plus n extra = lift (.ok (n + extra)))
    (hsizeOf : ∀ e : HeaderField, e.size ≤ size → sizeOf e = lift (.ok e.size)) :
    popLoopWith plus sizeOf extra maxSize l size = lift (.ok (popLoop extra maxSize l size)) := by
  induction l generalizing size with
  | nil =>
    rw [popLoopWith, hplus size (Nat.le_refl _)]
    rfl
  | cons e newer ih =>
    rw [total_cons] at hsize
    rw [popLoopWith, popLoop, hplus size (Nat.le_refl _), ok_bind]
    split
    · rw [hsizeOf e (by omega), ok_bind, sub_eq (by omega), ok_bind]
      apply ih (by omega)
      · intro n hn
        exact hplus n (by omega)
      · intro f hf
        exact hsizeOf f (by omega)
    · rfl

theorem evictForWith_eq {t : DynamicTable} {extra : Nat}
    (hsize : t.size = total HeaderField.size t.entries)
    (hplus : ∀ n ≤ t.size, plus n extra = lift (.ok (n + extra)))
    (hsizeOf : ∀ e : HeaderField, e.size ≤ t.size → sizeOf e = lift (.ok e.size)) :
    t.evictForWith plus sizeOf extra = lift (.ok (t.evictFor extra)) := by
  have hreversed : t.size = total HeaderField.size t.entries.reverse := by rw [total_reverse, hsize]
  rw [evictForWith, popLoopWith_eq hreversed hplus hsizeOf]
  rfl

end

end DynamicTable

end Http2.Hpack
