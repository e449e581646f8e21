import Mathlib.Data.List.Infix
import Mathlib.Tactic.Ring

/-! Bit strings, most significant bit first, and what a prefix-free code says about reading the
symbols back off a padded string. -/
namespace Http2.Lib.PrefixCode

/-! ## Bits and numbers -/

def ofBits : List Bool → Nat
  | [] => 0
  | b :: p => b.toNat * 2 ^ p.length + ofBits p

/-- The low `w` bits of a number. -/
def toBits : Nat → Nat → List Bool
  | 0, _ => []
  | w + 1, n => decide (n / 2 ^ w % 2 = 1) :: toBits w n

@[simp] theorem length_toBits (w n : Nat) : (toBits w n).length = w := by
  induction w with
  | zero => rfl
  | succ w ih => simp [toBits, ih]

theorem ofBits_lt (p : List Bool) : ofBits p < 2 ^ p.length := by
  induction p with
  | nil => decide
  | cons b p ih =>
    have hb : b.toNat ≤ 1 := Bool.toNat_le b
    have : b.toNat * 2 ^ p.length ≤ 1 * 2 ^ p.length := Nat.mul_le_mul_right _ hb
    simp only [ofBits, List.length_cons, Nat.pow_succ]
    omega

theorem ofBits_append (p q : List Bool) : ofBits (p ++ q) = ofBits p * 2 ^ q.length + ofBits q := by
  induction p with
  | nil => simp [ofBits]
  | cons b p ih =>
    simp only [List.cons_append, ofBits, ih, List.length_append, Nat.pow_add]
    ring

theorem ofBits_toBits (w n : Nat) : ofBits (toBits w n) = n % 2 ^ w := by
  induction w with
  | zero => simp [toBits, ofBits, Nat.mod_one]
  | succ w ih =>
    have hbit : (decide (n / 2 ^ w % 2 = 1)).toNat = n / 2 ^ w % 2 := by
      rcases Nat.mod_two_eq_zero_or_one (n / 2 ^ w) with h | h <;> simp [h]
    rw [toBits, ofBits, ih, length_toBits, hbit, Nat.pow_succ, Nat.mod_mul]
    ring

theorem ofBits_inj {p q : List Bool} (hlen : p.length = q.length) (h : ofBits p = ofBits q) :
    p = q := by
  induction p generalizing q with
  | nil => exact (List.length_eq_zero_iff.1 hlen.symm).symm
  | cons b p ih =>
    cases q with
    | nil => simp at hlen
    | cons c q =>
      simp only [List.length_cons, Nat.add_right_cancel_iff] at hlen
      simp only [ofBits, hlen] at h
      have hp := ofBits_lt p
      have hq := ofBits_lt q
      rw [hlen] at hp
      have hbc : b = c := by
        cases b <;> cases c <;> simp at h ⊢ <;> omega
      subst hbc
      rw [ih hlen (by omega)]

theorem toBits_ofBits (p : List Bool) : toBits p.length (ofBits p) = p := by
  apply ofBits_inj (length_toBits _ _)
  rw [ofBits_toBits, Nat.mod_eq_of_lt (ofBits_lt p)]

theorem ofBits_div (p q : List Bool) : ofBits (p ++ q) / 2 ^ q.length = ofBits p := by
  rw [ofBits_append, Nat.mul_comm, Nat.mul_add_div (Nat.two_pow_pos _),
    Nat.div_eq_of_lt (ofBits_lt q), Nat.add_zero]

theorem ofBits_mod (p q : List Bool) : ofBits (p ++ q) % 2 ^ q.length = ofBits q := by
  rw [ofBits_append, Nat.mul_comm, Nat.mul_add_mod, Nat.mod_eq_of_lt (ofBits_lt q)]

/-! ## Prefix-free codes -/

section
variable {α β : Type} {code : α → List β}

def PrefixFree (code : α → List β) : Prop := ∀ a b, code a <+: code b → a = b

/-- No codeword is a prefix of the string: nothing can be read off it. -/
def Unreadable (code : α → List β) (p : List β) : Prop := ∀ a, ¬ code a <+: p

theorem PrefixFree.eq_of_prefix (hcode : PrefixFree code) {a b : α} {x : List β}
    (ha : code a <+: x) (hb : code b <+: x) : a = b := by
  rcases List.prefix_or_prefix_of_prefix ha hb with h | h
  · exact hcode a b h
  · exact (hcode b a h).symm

/-- A codeword at the front of an encoded string is the code of the first symbol. -/
theorem PrefixFree.read (hcode : PrefixFree code) {s : List α} {pad : List β} {a : α}
    (hpad : Unreadable code pad) (h : code a <+: s.flatMap code ++ pad) :
    ∃ s', s = a :: s' := by
  cases s with
  | nil => exact absurd h (hpad a)
  | cons b s =>
    have hb : code b <+: (b :: s).flatMap code ++ pad := by
      simp only [List.flatMap_cons, List.append_assoc]
      exact List.prefix_append _ _
    rw [hcode.eq_of_prefix h hb]
    exact ⟨s, rfl⟩

/-- A string that holds no codeword yet is shorter than any bound on the codewords and the pad. -/
theorem Unreadable.length_le {s : List α} {p pad : List β} {n : Nat} (hp : Unreadable code p)
    (hn : ∀ a, (code a).length ≤ n) (hpad : pad.length ≤ n)
    (h : p <+: s.flatMap code ++ pad) : p.length ≤ n := by
  cases s with
  | nil => exact Nat.le_trans h.length_le hpad
  | cons b s =>
    have hb : code b <+: (b :: s).flatMap code ++ pad := by
      simp only [List.flatMap_cons, List.append_assoc]
      exact List.prefix_append _ _
    rcases List.prefix_or_prefix_of_prefix h hb with hle | hle
    · exact Nat.le_trans hle.length_le (hn b)
    · exact absurd hle (hp b)

/-- When the whole string is unreadable, all symbols have been read: only the pad is left. -/
theorem Unreadable.eq_nil {s : List α} {pad : List β}
    (h : Unreadable code (s.flatMap code ++ pad)) : s = [] := by
  cases s with
  | nil => rfl
  | cons b s =>
    refine absurd ?_ (h b)
    simp only [List.flatMap_cons, List.append_assoc]
    exact List.prefix_append _ _

end

end Http2.Lib.PrefixCode
