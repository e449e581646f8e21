import Mathlib.Algebra.GroupWithZero.Nat

/-! Longest affordable prefixes. A list whose elements carry a weight is cut where the running
total first exceeds a budget; nothing behind the cut is kept, however light it is. -/
namespace Http2.Lib.Budget

section
variable {α : Type} (w : α → Nat)

def total (l : List α) : Nat := (l.map w).sum

/-- The longest prefix of the list whose total weight is within `room`. -/
def fit : Nat → List α → List α
  | _, [] => []
  | room, a :: l => if w a ≤ room then a :: fit (room - w a) l else []

@[simp] theorem total_nil : total w [] = 0 := rfl

@[simp] theorem total_cons (a : α) (l : List α) : total w (a :: l) = w a + total w l := rfl

@[simp] theorem total_append (l m : List α) : total w (l ++ m) = total w l + total w m := by
  simp [total]

@[simp] theorem total_reverse (l : List α) : total w l.reverse = total w l := by
  simp [total, List.sum_reverse]

theorem total_mono {l m : List α} (h : l <+: m) : total w l ≤ total w m := by
  obtain ⟨t, rfl⟩ := h
  simp

theorem fit_isPrefix (room : Nat) (l : List α) : fit w room l <+: l := by
  induction l generalizing room with
  | nil => exact List.prefix_refl _
  | cons a l ih =>
    unfold fit
    split
    · exact (List.prefix_cons_inj a).2 (ih _)
    · exact List.nil_prefix

theorem total_fit_le (room : Nat) (l : List α) : total w (fit w room l) ≤ room := by
  induction l generalizing room with
  | nil => exact Nat.zero_le _
  | cons a l ih =>
    unfold fit
    split
    · have := ih (room - w a)
      simp only [total_cons]
      omega
    · exact Nat.zero_le _

theorem fit_eq_self {room : Nat} {l : List α} (h : total w l ≤ room) : fit w room l = l := by
  induction l generalizing room with
  | nil => rfl
  | cons a l ih =>
    simp only [total_cons] at h
    rw [fit, if_pos (by omega), ih (by omega)]

/-- A prefix that is paid for stays, and the rest of the budget goes to what follows. -/
theorem fit_append (p l : List α) (room : Nat) :
    fit w (total w p + room) (p ++ l) = p ++ fit w room l := by
  induction p with
  | nil => simp
  | cons a p ih =>
    have hrest : w a + total w p + room - w a = total w p + room := by omega
    rw [total_cons, List.cons_append, fit, if_pos (by omega), hrest, ih, List.cons_append]

theorem fit_eq_nil {room : Nat} {l : List α} (h : ∀ a ∈ l.head?, room < w a) : fit w room l = [] := by
  cases l with
  | nil => rfl
  | cons a l =>
    have := h a rfl
    rw [fit, if_neg (by omega)]

/-- Every affordable prefix is inside the longest one. -/
theorem prefix_fit {room : Nat} {p l : List α} (h : p <+: l) (hp : total w p ≤ room) :
    p <+: fit w room l := by
  induction l generalizing room p with
  | nil => simpa [fit] using h
  | cons a l ih =>
    cases p with
    | nil => exact List.nil_prefix
    | cons b p =>
      obtain ⟨rfl, hpl⟩ := List.cons_prefix_cons.1 h
      simp only [total_cons] at hp
      rw [fit, if_pos (by omega)]
      exact (List.prefix_cons_inj b).2 (ih hpl (by omega))

theorem fit_mono {m n : Nat} {l l' : List α} (hmn : m ≤ n) (h : l <+: l') :
    fit w m l <+: fit w n l' :=
  prefix_fit w ((fit_isPrefix w m l).trans h) (Nat.le_trans (total_fit_le w m l) hmn)

theorem prefix_antisymm {l m : List α} (h : l <+: m) (h' : m <+: l) : l = m :=
  h.eq_of_length_le h'.length_le

/-- Cutting twice is cutting once at the smaller budget. -/
theorem fit_fit (m n : Nat) (l : List α) : fit w m (fit w n l) = fit w (min m n) l := by
  apply prefix_antisymm
  · apply prefix_fit w ((fit_isPrefix w m _).trans (fit_isPrefix w n l))
    have hm := total_fit_le w m (fit w n l)
    have hn := total_mono w (fit_isPrefix w m (fit w n l))
    have := total_fit_le w n l
    omega
  · apply prefix_fit w
    · exact fit_mono w (Nat.min_le_right m n) (List.prefix_refl l)
    · exact Nat.le_trans (total_fit_le w _ l) (Nat.min_le_left m n)

/-- Dropping the last element of a list that does not fit changes nothing. -/
theorem fit_concat_of_lt {room : Nat} {l : List α} {a : α} (h : room < total w (l ++ [a])) :
    fit w room (l ++ [a]) = fit w room l := by
  apply prefix_antisymm
  · have hp := fit_isPrefix w room (l ++ [a])
    rcases List.prefix_concat_iff.1 hp with heq | hpre
    · have := total_fit_le w room (l ++ [a])
      rw [heq] at this
      omega
    · exact prefix_fit w hpre (total_fit_le w room _)
  · exact fit_mono w (Nat.le_refl _) (List.prefix_append l [a])

end

end Http2.Lib.Budget
