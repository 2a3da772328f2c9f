import Mathlib
import Tox.Foundation.GoMap

/-!
# Sums of amounts

Amounts are kept in 64-bit counters and are summed over lists and maps. The sum of two amounts that
are not negative is exact while it is below `2 ^ 63`; the sum over a list without repetitions picks
the term of one element; the sum over the entries that a partial function gives is a sum over its
arguments.

A list of amounts with keys that is stored in a map loses the amounts whose key occurs again later
in the list (`overwritten`), and no others.
-/

namespace Tox.Foundation

theorem toInt_add_of_lt {a b : Int64} (ha : 0 ≤ a.toInt) (hb : 0 ≤ b.toInt)
    (h : a.toInt + b.toInt < 2 ^ 63) : (a + b).toInt = a.toInt + b.toInt := by
  rw [Int64.toInt_add]
  exact Int.bmod_eq_of_le (by omega) (by omega)

theorem toInt_add_ofNat_of_lt {a : Int64} {n : ℕ} (ha : 0 ≤ a.toInt) (h : a.toInt + n < 2 ^ 63) :
    (a + Int64.ofNat n).toInt = a.toInt + n := by
  have hn : (Int64.ofNat n).toInt = n := Int64.toInt_ofNat_of_lt (by omega)
  rw [toInt_add_of_lt ha (by omega) (by omega), hn]

theorem sum_map_filterMap {α β : Type*} (l : List α) (f : α → Option β) (g : β → ℤ) :
    ((l.filterMap f).map g).sum = (l.map fun a => ((f a).map g).getD 0).sum := by
  induction l with
  | nil => rfl
  | cons a l ih =>
    rw [List.filterMap_cons, List.map_cons, List.sum_cons, ← ih]
    cases f a with
    | none => exact (zero_add _).symm
    | some b => exact List.sum_cons

theorem sum_map_ite_eq_of_nodup {α : Type*} [DecidableEq α] {l : List α} (hl : l.Nodup) (a : α)
    (f : α → ℤ) : (l.map fun x => if x = a then f x else 0).sum = if a ∈ l then f a else 0 := by
  have hzero : (l.map fun _ => (0 : ℤ)).sum = 0 := List.sum_map_zero
  rw [List.sum_map_ite_eq, hzero, add_zero, sub_zero]
  split_ifs with ha
  · rw [List.count_eq_one_of_mem hl ha, one_smul]
  · rw [List.count_eq_zero_of_not_mem ha, zero_smul]

/-! ### Amounts stored in a map -/

section Overwritten

variable {α κ : Type*} [DecidableEq κ] (key : α → κ) (amount : α → ℤ)

/-- The sum of the amounts whose key occurs again later in the list. -/
def overwritten : List α → ℤ
  | [] => 0
  | x :: xs => (if key x ∈ xs.map key then amount x else 0) + overwritten xs

theorem overwritten_of_nodup {xs : List α} (h : (xs.map key).Nodup) :
    overwritten key amount xs = 0 := by
  induction xs with
  | nil => rfl
  | cons x xs ih =>
    obtain ⟨hx, hxs⟩ := List.nodup_cons.mp h
    rw [overwritten, if_neg hx, ih hxs, add_zero]

theorem overwritten_nonneg {xs : List α} (h : ∀ x ∈ xs, 0 ≤ amount x) :
    0 ≤ overwritten key amount xs := by
  induction xs with
  | nil => exact le_rfl
  | cons x xs ih =>
    obtain ⟨hx, hxs⟩ := List.forall_mem_cons.mp h
    refine add_nonneg ?_ (ih hxs)
    split_ifs
    · exact hx
    · exact le_rfl

/-- Of amounts that are not negative, nothing is overwritten if and only if the amounts whose key
occurs again are zero. -/
theorem overwritten_eq_zero_iff {xs : List α} (h : ∀ x ∈ xs, 0 ≤ amount x) :
    overwritten key amount xs = 0 ↔ xs.Pairwise fun x y => key x = key y → amount x = 0 := by
  induction xs with
  | nil => exact iff_of_true rfl .nil
  | cons x xs ih =>
    obtain ⟨hx, hxs⟩ := List.forall_mem_cons.mp h
    have hrest := overwritten_nonneg key amount hxs
    rw [overwritten, List.pairwise_cons, ← ih hxs]
    by_cases hmem : key x ∈ xs.map key
    · obtain ⟨y, hy, hyx⟩ := List.mem_map.mp hmem
      rw [if_pos hmem]
      refine ⟨fun hsum => ⟨fun _ _ _ => by omega, by omega⟩, fun ⟨hzero, hlost⟩ => ?_⟩
      rw [hzero y hy hyx.symm, hlost, add_zero]
    · rw [if_neg hmem, zero_add]
      exact (and_iff_right fun y hy hxy => absurd (List.mem_map.mpr ⟨y, hy, hxy.symm⟩) hmem).symm

end Overwritten

namespace GoMap

variable {α κ ν : Type*} [DecidableEq κ] (f : ν → ℤ)

/-- The sum of an amount over the entries of a map. -/
def total (m : GoMap κ ν) : ℤ := ∑ k ∈ m.keys, ((m.lookup k).map f).getD 0

theorem total_insert_of_notMem {m : GoMap κ ν} {k : κ} (h : k ∉ m) (v : ν) :
    total f (m.insert k v) = f v + total f m := by
  have hkeys : (m.insert k v).keys = insert k m.keys := by
    ext j
    simp only [Finmap.mem_keys, Finmap.mem_insert, Finset.mem_insert]
  rw [total, hkeys, Finset.sum_insert (mt Finmap.mem_keys.mp h), lookup_insert, if_pos rfl, total]
  refine congrArg (f v + ·) (Finset.sum_congr rfl fun j hj => ?_)
  rw [lookup_insert, if_neg]
  rintro rfl
  exact h (Finmap.mem_keys.mp hj)

variable (key : α → κ) (val : α → ν)

/-- An entry that is stored again later does not count. -/
theorem storeAll_insert (xs : List α) (m : GoMap κ ν) (k : κ) (v : ν) :
    storeAll key val xs (m.insert k v) =
      if k ∈ xs.map key then storeAll key val xs m else (storeAll key val xs m).insert k v := by
  refine Finmap.ext_lookup fun j => ?_
  by_cases hj : ∃ x ∈ xs, key x = j
  · obtain ⟨x, hx, rfl⟩ := hj
    rw [lookup_storeAll_congr key val hx (m.insert k v) m]
    split_ifs with hk
    · rfl
    · rw [lookup_insert, if_neg]
      rintro rfl
      exact hk (List.mem_map_of_mem hx)
  · have hne : ∀ x ∈ xs, key x ≠ j := fun x hx hxj => hj ⟨x, hx, hxj⟩
    rw [lookup_storeAll_of_forall_ne key val hne, lookup_insert]
    split_ifs with hjk hk hk
    · obtain ⟨x, hx, hxk⟩ := List.mem_map.mp hk
      exact absurd (hxk.trans hjk.symm) (hne x hx)
    · rw [lookup_insert, if_pos hjk]
    · rw [lookup_storeAll_of_forall_ne key val hne]
    · rw [lookup_insert, if_neg hjk, lookup_storeAll_of_forall_ne key val hne]

/-- What a map has of a list of amounts, and what was overwritten, make up the list. -/
theorem total_storeAll_add_overwritten (xs : List α) :
    total f (storeAll key val xs ∅) + overwritten key (fun x => f (val x)) xs =
      (xs.map fun x => f (val x)).sum := by
  induction xs with
  | nil => rfl
  | cons x xs ih =>
    rw [List.map_cons, List.sum_cons, ← ih, overwritten, storeAll_cons, storeAll_insert]
    by_cases hx : key x ∈ xs.map key
    · rw [if_pos hx, if_pos hx, add_left_comm]
    · have hnotMem : key x ∉ storeAll key val xs (∅ : GoMap κ ν) := by
        rw [← Finmap.mem_keys, keys_storeAll]
        simpa using hx
      rw [if_neg hx, if_neg hx, total_insert_of_notMem f hnotMem, zero_add, add_assoc]

end GoMap

end Tox.Foundation
