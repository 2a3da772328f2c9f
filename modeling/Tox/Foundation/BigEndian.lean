import Mathlib.Data.List.Basic
import Mathlib.Data.Nat.Bitwise
import Mathlib.Tactic.Common

/-!
# Numbers in network order

The bytes of a number, the higher first. A number that does not fit into the bytes is written
modulo a power of two (`beUint_putUint`).
-/

namespace Tox.Foundation

/-- The lower `k` bytes of a number. -/
def putUint : ℕ → ℕ → List UInt8
  | 0, _ => []
  | k + 1, n => UInt8.ofNat (n / (2 ^ 8) ^ k) :: putUint k n

def beUint (bytes : List UInt8) : ℕ :=
  bytes.foldl (fun n b => n * 2 ^ 8 + b.toNat) 0

@[simp]
theorem length_putUint (k n : ℕ) : (putUint k n).length = k := by
  induction k with
  | zero => rfl
  | succ k ih => rw [putUint, List.length_cons, ih]

theorem foldl_putUint (k n acc : ℕ) :
    (putUint k n).foldl (fun n b => n * 2 ^ 8 + b.toNat) acc =
      acc * (2 ^ 8) ^ k + n % (2 ^ 8) ^ k := by
  induction k generalizing acc with
  | zero => simp [putUint, Nat.mod_one]
  | succ k ih =>
    have hpow : (2 ^ 8) ^ (k + 1) = (2 ^ 8) ^ k * 2 ^ 8 := Nat.pow_succ _ _
    rw [putUint, List.foldl_cons, ih, UInt8.toNat_ofNat', hpow, Nat.mod_mul, Nat.add_mul,
      Nat.mul_assoc, Nat.mul_comm (2 ^ 8), Nat.add_assoc, Nat.mul_comm (_ % _),
      Nat.add_comm (_ % _)]

theorem beUint_putUint (k n : ℕ) : beUint (putUint k n) = n % (2 ^ 8) ^ k := by
  rw [beUint, foldl_putUint, Nat.zero_mul, Nat.zero_add]

end Tox.Foundation
