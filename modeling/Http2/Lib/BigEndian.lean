import Mathlib.Tactic.Ring

/-! Big-endian numbers in octets. -/
namespace Http2.Lib.BigEndian

/-- The low `8 * w` bits of a number. -/
def toBe : Nat → Nat → List UInt8
  | 0, _ => []
  | w + 1, n => UInt8.ofNat (n / 256 ^ w) :: toBe w n

def ofBe : List UInt8 → Nat
  | [] => 0
  | b :: l => b.toNat * 256 ^ l.length + ofBe l

@[simp] theorem length_toBe (w n : Nat) : (toBe w n).length = w := by
  induction w with
  | zero => rfl
  | succ w ih => simp [toBe, ih]

theorem ofBe_lt (l : List UInt8) : ofBe l < 256 ^ l.length := by
  induction l with
  | nil => decide
  | cons b l ih =>
    have hb : b.toNat ≤ 255 := Nat.le_of_lt_succ b.toNat_lt
    have : b.toNat * 256 ^ l.length ≤ 255 * 256 ^ l.length := Nat.mul_le_mul_right _ hb
    simp only [ofBe, List.length_cons, Nat.pow_succ]
    omega

theorem ofBe_toBe (w n : Nat) : ofBe (toBe w n) = n % 256 ^ w := by
  induction w with
  | zero => simp [toBe, ofBe, Nat.mod_one]
  | succ w ih =>
    have hsplit : n % (256 ^ w * 256) = n % 256 ^ w + 256 ^ w * (n / 256 ^ w % 256) := Nat.mod_mul
    have hbyte : (UInt8.ofNat (n / 256 ^ w)).toNat = n / 256 ^ w % 256 := UInt8.toNat_ofNat'
    rw [toBe, ofBe, ih, length_toBe, hbyte, Nat.pow_succ, hsplit]
    ring

theorem ofBe_toBe_of_lt {w n : Nat} (h : n < 256 ^ w) : ofBe (toBe w n) = n := by
  rw [ofBe_toBe, Nat.mod_eq_of_lt h]

end Http2.Lib.BigEndian
