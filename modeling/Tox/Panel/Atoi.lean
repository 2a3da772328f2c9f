import Tox.Panel.Node

/-!
# The numbers of `strconv.Atoi`

The integer that a text denotes is unbounded (`integerOf`). `strconv.Atoi` gives this integer, or an
error if there is none or if it does not fit into 64 bits (`atoi?`). Where its error is dropped, the
number is the nearest integer that fits (`atoi_eq_of_integerOf`), and `0` for most texts that denote
no integer. The conversion to 16 bits keeps a number exactly if it is between 0 and 65535.
-/

namespace Tox.Panel

/-- The number of a list of digits behind the number `n`. -/
def digitsValue : List Char → ℕ → Option ℕ
  | [], n => some n
  | c :: cs, n => if c.isDigit then digitsValue cs (10 * n + (c.toNat - '0'.toNat)) else none

/-- The integer that a text denotes: an optional sign and at least one digit. -/
def integerOf (s : String) : Option ℤ :=
  match s.toList with
  | '-' :: c :: cs => (digitsValue (c :: cs) 0).map fun n : ℕ => -(n : ℤ)
  | '+' :: c :: cs => (digitsValue (c :: cs) 0).map fun n : ℕ => (n : ℤ)
  | c :: cs => (digitsValue (c :: cs) 0).map fun n : ℕ => (n : ℤ)
  | [] => none

/-- `strconv.Atoi`; `none` is an error. -/
def atoi? (s : String) : Option ℤ :=
  (integerOf s).filter fun n => -2 ^ 63 ≤ n ∧ n < 2 ^ 63

/-- The conversion to `uint16`. -/
def toUint16 (n : ℤ) : UInt16 := UInt16.ofNat (n % 2 ^ 16).toNat

/-! ### Digits -/

theorem le_of_digitsValue {cs : List Char} {n m : ℕ} (h : digitsValue cs n = some m) : n ≤ m := by
  induction cs generalizing n with
  | nil => exact (Option.some.inj h).le
  | cons c cs ih =>
    rw [digitsValue] at h
    split_ifs at h
    have := ih h
    omega

/-- Reading stops at the largest number of 64 bits. -/
theorem parseUint_of_digitsValue {cs : List Char} {n m : ℕ} (hn : n < 2 ^ 64)
    (h : digitsValue cs n = some m) : parseUint cs n = some (min m (2 ^ 64 - 1)) := by
  induction cs generalizing n with
  | nil =>
    obtain rfl := Option.some.inj h
    exact congrArg some (by omega)
  | cons c cs ih =>
    rw [digitsValue] at h
    split_ifs at h with hdigit
    rw [parseUint, if_pos hdigit]
    split_ifs with hlt
    · exact ih hlt h
    · have := le_of_digitsValue h
      exact congrArg some (by omega)

/-- Without its error, `Atoi` gives the nearest integer of 64 bits. -/
theorem atoi_eq_of_integerOf {s : String} {n : ℤ} (h : integerOf s = some n) :
    atoi s = max (-2 ^ 63) (min n (2 ^ 63 - 1)) := by
  have hread : ∀ {cs m}, digitsValue cs 0 = some m → parseUint cs 0 = some (min m (2 ^ 64 - 1)) :=
    parseUint_of_digitsValue (by norm_num)
  rw [integerOf] at h
  rw [atoi]
  generalize s.toList = cs at h ⊢
  split at h
  case h_1 c cs =>
    obtain ⟨m, hm, rfl⟩ := Option.map_eq_some_iff.mp h
    simp only [hread hm, bind, Option.bind, pure, Option.map_some, Option.getD_some]
    omega
  case h_2 c cs =>
    obtain ⟨m, hm, rfl⟩ := Option.map_eq_some_iff.mp h
    simp only [hread hm, bind, Option.bind, pure, Option.map_some, Option.getD_some]
    omega
  case h_3 c cs hminus hplus =>
    obtain ⟨m, hm, rfl⟩ := Option.map_eq_some_iff.mp h
    simp only [hread hm, bind, Option.bind, pure, Option.map_some, Option.getD_some]
    omega
  case h_4 => cases h

/-! ### 16 bits -/

theorem toNat_toUint16 (n : ℤ) : ((toUint16 n).toNat : ℤ) = n % 2 ^ 16 := by
  have hnonneg : 0 ≤ n % 2 ^ 16 := Int.emod_nonneg _ (by norm_num)
  have hlt : n % 2 ^ 16 < 2 ^ 16 := Int.emod_lt_of_pos _ (by norm_num)
  have hsize : (n % 2 ^ 16).toNat < UInt16.size := by
    rw [UInt16.size]
    omega
  rw [toUint16, UInt16.toNat_ofNat_of_lt' hsize, Int.toNat_of_nonneg hnonneg]

/-- A number is kept if and only if it is between 0 and 65535. -/
theorem toNat_toUint16_eq_iff {n : ℤ} :
    ((toUint16 n).toNat : ℤ) = n ↔ 0 ≤ n ∧ n ≤ 65535 := by
  rw [toNat_toUint16]
  omega

end Tox.Panel
