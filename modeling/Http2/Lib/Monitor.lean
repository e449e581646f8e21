import Http2.Lib.History

/-! Machines that read a history and may refuse an item of it. A history has its most recent item
first, so it is read from its end. -/
namespace Http2.Lib

variable {σ α : Type}

/-- The state after the items, if none of them is refused. -/
def reads (step : σ → α → Option σ) (s : σ) : List α → Option σ
  | [] => some s
  | i :: earlier => (reads step s earlier).bind fun t => step t i

variable {step : σ → α → Option σ} {s t : σ} {i : α} {new earlier later items : List α}

@[simp] theorem reads_nil : reads step s [] = some s := rfl

theorem reads_cons_iff : reads step s (i :: earlier) = some t ↔
    ∃ u, reads step s earlier = some u ∧ step u i = some t := by
  simp only [reads, Option.bind_eq_some_iff]

/-- What comes later is read from where the earlier items lead. -/
theorem reads_append : reads step s (new ++ earlier) =
    (reads step s earlier).bind fun t => reads step t new := by
  induction new with
  | nil => simp
  | cons i new ih => rw [List.cons_append, reads, ih, Option.bind_assoc]; rfl

theorem reads_append_of {u : σ} (hearlier : reads step s earlier = some u)
    (hnew : reads step u new = some t) : reads step s (new ++ earlier) = some t := by
  rw [reads_append, hearlier]
  exact hnew

theorem reads_append_iff : reads step s (later ++ earlier) = some t ↔
    ∃ u, reads step s earlier = some u ∧ reads step u later = some t := by
  simp only [reads_append, Option.bind_eq_some_iff]

/-- Items that leave the state as it is. -/
theorem reads_same (h : ∀ i ∈ items, step s i = some s) : reads step s items = some s := by
  induction items with
  | nil => rfl
  | cons i items ih =>
    obtain ⟨hi, hitems⟩ := List.forall_mem_cons.1 h
    exact reads_cons_iff.2 ⟨s, ih hitems, hi⟩

/-- What relates a history to the state that it leads to, kept by one step, relates them always. -/
theorem reads_related {R : List α → σ → Prop} (hstart : R [] s)
    (hstep : ∀ earlier i u t, R earlier u → step u i = some t → R (i :: earlier) t)
    (h : reads step s items = some t) : R items t := by
  induction items generalizing t with
  | nil =>
    obtain rfl : s = t := Option.some.inj h
    exact hstart
  | cons i earlier ih =>
    obtain ⟨u, hu, hi⟩ := reads_cons_iff.1 h
    exact hstep earlier i u t (ih hu) hi

/-- States that are not left again, in which items of a kind are refused. -/
theorem reads_refuses {A : σ → Prop} {P : α → Prop} (hstays : ∀ u i t, A u → step u i = some t → A t ∧ ¬ P i)
    (hs : A s) (h : reads step s items = some t) : A t ∧ ∀ i ∈ items, ¬ P i := by
  refine reads_related (R := fun items t => A t ∧ ∀ i ∈ items, ¬ P i) ⟨hs, by simp⟩ ?_ h
  rintro earlier i u t ⟨hu, hearlier⟩ hi
  obtain ⟨ht, hnot⟩ := hstays u i t hu hi
  exact ⟨ht, List.forall_mem_cons.2 ⟨hnot, hearlier⟩⟩

/-- What leads to such states comes last of its kind. -/
theorem reads_last {A : σ → Prop} {P Q : α → Prop}
    (hstays : ∀ u i t, A u → step u i = some t → A t ∧ ¬ P i)
    (henters : ∀ u i t, Q i → step u i = some t → A t)
    (h : reads step s (later ++ i :: earlier) = some t) (hi : Q i) : ∀ j ∈ later, ¬ P j := by
  obtain ⟨u, hu, hlater⟩ := reads_append_iff.1 h
  obtain ⟨v, _, hv⟩ := reads_cons_iff.1 hu
  exact (reads_refuses hstays (henters v i u hi hv) hlater).2

/-- Items of a kind that each lead to states in which it is refused come at most once. -/
theorem reads_once {A : σ → Prop} {p : α → Bool}
    (hstays : ∀ u i t, A u → step u i = some t → A t ∧ ¬ p i = true)
    (henters : ∀ u i t, p i = true → step u i = some t → A t)
    (h : reads step s items = some t) : items.countP p ≤ 1 := by
  have hrel : items.countP p = 0 ∨ items.countP p = 1 ∧ A t := by
    refine reads_related (R := fun items t => items.countP p = 0 ∨ items.countP p = 1 ∧ A t) (.inl rfl) ?_ h
    rintro earlier i u t hu hi
    by_cases hp : p i = true
    · obtain hnone | ⟨_, hA⟩ := hu
      · exact .inr ⟨by simp [hp, hnone], henters u i t hp hi⟩
      · exact absurd hp (hstays u i t hA hi).2
    · obtain hnone | ⟨hone, hA⟩ := hu
      · exact .inl (by simp [hp, hnone])
      · exact .inr ⟨by simp [hp, hone], (hstays u i t hA hi).1⟩
  obtain h | ⟨h, _⟩ := hrel <;> omega

end Http2.Lib
