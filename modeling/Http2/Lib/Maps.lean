import Mathlib.Data.List.AList

/-! Finite maps: what a lookup finds after an update. -/
namespace Http2

theorem lookup_insert_ite {β : Type} (t : AList fun _ : Nat => β) (a a' : Nat) (b : β) :
    (t.insert a b).lookup a' = if a' = a then some b else t.lookup a' := by
  by_cases h : a' = a
  · subst h
    simp
  · simp [h, AList.lookup_insert_ne h]

theorem lookup_erase_ite {β : Type} (t : AList fun _ : Nat => β) (a a' : Nat) :
    (t.erase a).lookup a' = if a' = a then none else t.lookup a' := by
  by_cases h : a' = a
  · subst h
    simp
  · simp [h, AList.lookup_erase_ne h]

end Http2
