import Mathlib.Data.List.Basic
import Mathlib.Data.Int.Basic
import Tox.Foundation.Outcome

/-!
# Slices with checked bounds

Reading, writing and cutting a slice, with the panic of an index that lies outside. The bounds of a
cut are compared with the length, so that a cut that would only be covered by the capacity panics
here as well.
-/

namespace Tox.Foundation.Slice

universe u

variable {ε κ : Type*} {α β : Type u} {s : List α}

/-- The element `s[i]`. -/
def get (k : κ) (s : List α) (i : ℤ) : Outcome ε κ α :=
  if 0 ≤ i then Outcome.deref k s[i.toNat]? else .error (.panic k)

/-- The assignment `s[i] = a`. -/
def put (k : κ) (s : List α) (i : ℤ) (a : α) : Outcome ε κ (List α) :=
  if 0 ≤ i ∧ i < s.length then .ok (s.set i.toNat a) else .error (.panic k)

/-- The slice `s[lo:hi]`. -/
def cut (k : κ) (s : List α) (lo hi : ℤ) : Outcome ε κ (List α) :=
  if 0 ≤ lo ∧ lo ≤ hi ∧ hi ≤ s.length then .ok ((s.take hi.toNat).drop lo.toNat)
  else .error (.panic k)

theorem get_of_getElem? {k : κ} {i : ℕ} {a : α} (h : s[i]? = some a) :
    (get k s i : Outcome ε κ α) = .ok a := by
  rw [get, if_pos (Int.natCast_nonneg i), Int.toNat_natCast, h]
  rfl

theorem put_of_lt {k : κ} {i : ℕ} (h : i < s.length) (a : α) :
    (put k s i a : Outcome ε κ (List α)) = .ok (s.set i a) := by
  rw [put, if_pos ⟨Int.natCast_nonneg i, Int.ofNat_lt.mpr h⟩, Int.toNat_natCast]

theorem cut_of_le {k : κ} {lo hi : ℕ} (hlo : lo ≤ hi) (hhi : hi ≤ s.length) :
    (cut k s lo hi : Outcome ε κ (List α)) = .ok ((s.take hi).drop lo) := by
  have hbounds : 0 ≤ (lo : ℤ) ∧ (lo : ℤ) ≤ hi ∧ (hi : ℤ) ≤ s.length :=
    ⟨Int.natCast_nonneg lo, Int.ofNat_le.mpr hlo, Int.ofNat_le.mpr hhi⟩
  rw [cut, if_pos hbounds, Int.toNat_natCast, Int.toNat_natCast]

/-! The parts of a slice that is put together. -/

theorem get_append {k : κ} {i : ℤ} (x : List α) (a : α) (y : List α) (hi : i = x.length) :
    (get k (x ++ a :: y) i : Outcome ε κ α) = .ok a := by
  subst hi
  exact get_of_getElem? (by simp)

theorem cut_append {k : κ} {lo hi : ℤ} (x y z : List α) (hlo : lo = x.length)
    (hhi : hi = x.length + y.length) :
    (cut k (x ++ y ++ z) lo hi : Outcome ε κ (List α)) = .ok y := by
  have hcast : hi = (x ++ y).length := by
    rw [hhi, List.length_append, Int.natCast_add]
  subst hlo hcast
  rw [cut_of_le (by simp) (by simp), List.take_left, List.drop_left]

/-! An index that is compared with the length before the element is read. -/

theorem ite_get_of_some {k : κ} {i : ℕ} {a : α} (h : s[i]? = some a) (f : α → Outcome ε κ β)
    (x : Outcome ε κ β) : (if i < s.length then get k s i >>= f else x) = f a := by
  rw [if_pos (List.getElem?_eq_some_iff.mp h).1, get_of_getElem? h, Outcome.ok_bind]

theorem ite_get_of_none {k : κ} {i : ℕ} (h : s[i]? = none) (f : α → Outcome ε κ β)
    (x : Outcome ε κ β) : (if i < s.length then get k s i >>= f else x) = x :=
  if_neg (Nat.not_lt.mpr (List.getElem?_eq_none_iff.mp h))

/-- Past the end there is no element to be found equal to `a`. -/
theorem ite_get_eq [DecidableEq α] {k : κ} {i : ℕ} (s : List α) (a : α) (x y : Outcome ε κ β) :
    (if i < s.length then get k s i >>= fun c => if c = a then x else y else y) =
      if s[i]? = some a then x else y := by
  rcases hc : s[i]? with _ | c
  · rw [ite_get_of_none hc, if_neg (Option.some_ne_none a ∘ Eq.symm)]
  · rw [ite_get_of_some hc]
    exact if_congr (Option.some_inj).symm rfl rfl

end Tox.Foundation.Slice
