import Mathlib.Data.List.Induction
import Http2.Hpack.DynamicTable

/-! The dynamic table against its reference model, over any sequence of its operations. -/
namespace Http2.Hpack

open Lib (Checked)
open Lib.Budget
open Lib.Checked

/-! ## The reference model -/

/-- Drop the oldest entry, the last one, until the total fits. -/
def dropOldest (maxSize : Nat) (history : List HeaderField) : List HeaderField :=
  if total HeaderField.size history ≤ maxSize then history
  else if history = [] then []
  else dropOldest maxSize history.dropLast
termination_by history.length
decreasing_by
  rename_i hne
  have := List.length_pos_iff.2 hne
  rw [List.length_dropLast]
  omega

/-- An operation on the table; its `insert_entry` takes any field, sensitive or not. -/
inductive TableOp where
  | insertEntry (entry : HeaderField)
  | setMaxSize (maxSize : Nat)
  | clear
  deriving DecidableEq, Repr

/-- What the table is to hold: its entries newest first, and the maximum in force. -/
structure Reference where
  entries : List HeaderField
  maxSize : Nat
  deriving DecidableEq, Repr

def Reference.step (r : Reference) : TableOp → Reference
  | .insertEntry entry => ⟨dropOldest r.maxSize (entry :: r.entries), r.maxSize⟩
  | .setMaxSize maxSize => ⟨dropOldest maxSize r.entries, maxSize⟩
  | .clear => ⟨[], r.maxSize⟩

def Reference.run (r : Reference) (ops : List TableOp) : Reference := ops.foldl Reference.step r

/-- Dropping from the old end leaves the longest prefix that fits. -/
theorem dropOldest_eq_fit (maxSize : Nat) (l : List HeaderField) :
    dropOldest maxSize l = fit HeaderField.size maxSize l := by
  induction l using List.reverseRecOn with
  | nil => simp [dropOldest, fit]
  | append_singleton l e ih =>
    rw [dropOldest]
    split
    · rename_i hfits
      exact (fit_eq_self HeaderField.size hfits).symm
    · rename_i hover
      rw [if_neg (by simp), List.dropLast_concat, ih]
      exact (fit_concat_of_lt HeaderField.size (by omega)).symm

namespace DynamicTable

/-! ## The operations -/

def step (t : DynamicTable) : TableOp → DynamicTable
  | .insertEntry entry => t.insertEntry entry
  | .setMaxSize maxSize => t.setMaxSize maxSize
  | .clear => t.clear

/-- The table and the reference hold the same, and the size kept is the size of what is held. -/
structure Follows (r : Reference) (t : DynamicTable) : Prop where
  entries_eq : t.entries = r.entries
  maxSize_eq : t.maxSize = r.maxSize
  size_eq : t.size = total HeaderField.size t.entries
  size_le : t.size ≤ t.maxSize

theorem follows_new (maxSize : Nat) : Follows ⟨[], maxSize⟩ (new maxSize) := by
  constructor
  · rfl
  · rfl
  · rfl
  · exact Nat.zero_le _

/-- A table that holds the longest prefix that fits follows the reference that drops to it. -/
theorem follows_fit (maxSize : Nat) (l : List HeaderField) :
    Follows ⟨dropOldest maxSize l, maxSize⟩
      ⟨fit HeaderField.size maxSize l, total HeaderField.size (fit HeaderField.size maxSize l),
        maxSize⟩ := by
  constructor
  · exact (dropOldest_eq_fit maxSize l).symm
  · rfl
  · rfl
  · exact total_fit_le _ _ _

theorem follows_step {r : Reference} {t : DynamicTable} (h : Follows r t) (op : TableOp) :
    Follows (r.step op) (t.step op) := by
  cases op with
  | insertEntry entry =>
    rw [step, insertEntry_fit h.size_eq, Reference.step, ← h.maxSize_eq, ← h.entries_eq]
    exact follows_fit t.maxSize (entry :: t.entries)
  | setMaxSize maxSize =>
    rw [step, setMaxSize_fit h.size_eq, Reference.step, ← h.entries_eq]
    exact follows_fit maxSize t.entries
  | clear =>
    constructor
    · rfl
    · exact h.maxSize_eq
    · rfl
    · exact Nat.zero_le _

/-! ## The subtractions

Eviction once more, with a subtraction that panics when it would underflow. -/

def evictForGuarded (t : DynamicTable) (extra : Nat) : Checked Error DynamicTable :=
  t.evictForWith (fun a b => return a + b) (fun e => return e.size) extra

def stepGuarded (t : DynamicTable) : TableOp → Checked Error DynamicTable
  | .insertEntry entry =>
    if entry.size > t.maxSize then return t.clear
    else do
      let t ← t.evictForGuarded entry.size
      return { t with entries := entry :: t.entries, size := t.size + entry.size }
  | .setMaxSize maxSize => evictForGuarded { t with maxSize := maxSize } 0
  | .clear => return t.clear

theorem evictForGuarded_eq {t : DynamicTable} (hsize : t.size = total HeaderField.size t.entries)
    (extra : Nat) : t.evictForGuarded extra = lift (.ok (t.evictFor extra)) :=
  evictForWith_eq hsize (fun _ _ => rfl) fun _ _ => rfl

theorem stepGuarded_eq {t : DynamicTable} (hsize : t.size = total HeaderField.size t.entries)
    (op : TableOp) : t.stepGuarded op = lift (.ok (t.step op)) := by
  cases op with
  | insertEntry entry =>
    rw [stepGuarded, step, insertEntry]
    split
    · rfl
    · rw [evictForGuarded_eq hsize]
      rfl
  | setMaxSize maxSize =>
    exact evictForGuarded_eq (t := { t with maxSize := maxSize }) hsize 0
  | clear => rfl

theorem run_follows {r : Reference} {t : DynamicTable} (h : Follows r t) (ops : List TableOp) :
    ops.foldlM stepGuarded t = lift (.ok (ops.foldl step t)) ∧
      Follows (r.run ops) (ops.foldl step t) := by
  induction ops generalizing r t with
  | nil => exact ⟨rfl, h⟩
  | cons op ops ih =>
    obtain ⟨hguarded, hfollows⟩ := ih (follows_step h op)
    constructor
    · rw [List.foldlM_cons, stepGuarded_eq h.size_eq, ok_bind]
      exact hguarded
    · exact hfollows

/-! ## The search -/

theorem scan_eq (name value : Bytes) (l : List (Bytes × Bytes)) (i : Nat) (m : Option Nat) :
    scan name value l i m =
      match l.findIdx? fun e => e.1 = name ∧ e.2 = value with
      | some k => some (i + k, true)
      | none => (m.or ((l.findIdx? fun e => e.1 = name).map (i + ·))).map fun j => (j, false) := by
  induction l generalizing i m with
  | nil => cases m <;> rfl
  | cons e rest ih =>
    rw [scan, List.findIdx?_cons, List.findIdx?_cons]
    by_cases hname : e.1 = name
    · by_cases hvalue : e.2 = value
      · simp [hname, hvalue]
      · simp only [hname, hvalue, ih]
        cases List.findIdx? (fun e => decide (e.1 = name ∧ e.2 = value)) rest with
        | none => cases m <;> simp
        | some k => simp; omega
    · simp only [hname, ih]
      cases List.findIdx? (fun e => decide (e.1 = name ∧ e.2 = value)) rest with
      | none =>
        cases List.findIdx? (fun e => decide (e.1 = name)) rest with
        | none => simp
        | some k => cases m <;> simp; omega
      | some k => simp; omega

/-- `find` is the smallest index of an entry that matches exactly, or else the smallest index of
one whose name matches. -/
theorem find_eq (t : DynamicTable) (name value : Bytes) :
    t.find name value =
      match t.entries.findIdx? fun e => e.name = name ∧ e.value = value with
      | some i => some (i, true)
      | none => (t.entries.findIdx? fun e => e.name = name).map fun i => (i, false) := by
  rw [find, scan_eq, List.findIdx?_map, List.findIdx?_map]
  simp [Function.comp_def]

/-- After any operations the table holds what the reference holds, and none of the subtractions
on the way there underflowed. -/
theorem operations_reference (maxSize : Nat) (ops : List TableOp) :
    ∃ t, ops.foldlM stepGuarded (new maxSize) = lift (.ok t) ∧
      ops.foldl step (new maxSize) = t ∧
      t.entries = (Reference.run ⟨[], maxSize⟩ ops).entries ∧
      t.maxSize = (Reference.run ⟨[], maxSize⟩ ops).maxSize ∧
      t.size = total (fun e => e.name.length + e.value.length + 32) t.entries ∧
      t.size ≤ t.maxSize ∧
      ∀ name value, t.find name value =
        match t.entries.findIdx? fun e => e.name = name ∧ e.value = value with
        | some i => some (i, true)
        | none => (t.entries.findIdx? fun e => e.name = name).map fun i => (i, false) := by
  obtain ⟨hguarded, h⟩ := run_follows (follows_new maxSize) ops
  exact ⟨ops.foldl step (new maxSize), hguarded, rfl, h.entries_eq, h.maxSize_eq, h.size_eq, h.size_le,
    find_eq _⟩

end DynamicTable

end Http2.Hpack
