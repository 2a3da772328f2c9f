import Mathlib.Algebra.GroupWithZero.Nat
import Mathlib.Data.List.Basic
import Mathlib.Data.List.Forall2
import Mathlib.Data.Nat.Basic
import Mathlib.Tactic.Common

/-!
# Joining and splitting at a separator

Lists joined by a separator and split at it again. The pieces of a joined list are the pieces of its
parts (`splitOn_intercalate_eq_flatMap`). There are as many pieces as parts if and only if no part
contains the separator, and more otherwise (`length_flatMap_splitOn_eq_iff`). The pieces put
together are the list without the separators (`flatten_splitOn`).

`forall₂_eq_of_sum_eq` and `forall₂_iff_forall_ne` compare two lists position by position, through
their totals and through the positions at which they differ.
-/

namespace Tox.Foundation

variable {α β : Type*}

section Split

variable [DecidableEq α] (x : α)

theorem length_splitOn (l : List α) : (l.splitOn x).length = l.count x + 1 := by
  rw [List.splitOn_eq_splitOnP]
  induction l with
  | nil => rfl
  | cons a l ih =>
    rw [List.splitOnP_cons_eq_if_modifyHead, List.count_cons]
    split_ifs
    · rw [List.length_cons, ih]
    · rw [List.length_modifyHead, ih, Nat.add_zero]

theorem splitOn_of_notMem {l : List α} (h : x ∉ l) : l.splitOn x = [l] := by
  rw [List.splitOn_eq_splitOnP]
  refine List.splitOnP_eq_singleton fun a ha => beq_false_of_ne ?_
  rintro rfl
  exact h ha

/-- The pieces put together are the list without the separators. -/
theorem flatten_splitOn (l : List α) : (l.splitOn x).flatten = l.filter (· ≠ x) := by
  rw [List.splitOn_eq_splitOnP]
  induction l with
  | nil => rfl
  | cons a l ih =>
    rw [List.splitOnP_cons_eq_if_modifyHead]
    split_ifs with ha
    · rw [List.flatten_cons, List.nil_append, ih, List.filter_cons_of_neg (by simpa using ha)]
    · rw [List.filter_cons_of_pos (by simpa using ha), ← ih]
      obtain ⟨p, ps, hps⟩ := List.exists_cons_of_ne_nil (List.splitOnP_ne_nil (· == x) l)
      rw [hps, List.modifyHead_cons, List.flatten_cons, List.flatten_cons, List.cons_append]

/-- The pieces of a joined list are the pieces of its parts. -/
theorem splitOn_intercalate_eq_flatMap {ls : List (List α)} (hne : ls ≠ []) :
    ([x].intercalate ls).splitOn x = ls.flatMap (List.splitOn x) := by
  induction ls with
  | nil => exact absurd rfl hne
  | cons l ls ih =>
    rcases eq_or_ne ls [] with rfl | hls
    · rw [List.intercalate_singleton, List.flatMap_cons, List.flatMap_nil, List.append_nil]
    · rw [List.intercalate_cons_of_ne_nil hls, List.append_assoc, List.singleton_append,
        List.flatMap_cons, ← ih hls]
      simp only [List.splitOn_eq_splitOnP]
      exact List.splitOnP_append_cons _ _ (beq_self_eq_true x)

/-- There are at least as many pieces as parts. -/
theorem length_le_length_flatMap_splitOn (ls : List (List α)) :
    ls.length ≤ (ls.flatMap (List.splitOn x)).length := by
  induction ls with
  | nil => exact le_rfl
  | cons l ls ih =>
    rw [List.flatMap_cons, List.length_append, length_splitOn, List.length_cons]
    omega

/-- There are as many pieces as parts if and only if no part contains the separator. -/
theorem length_flatMap_splitOn_eq_iff (ls : List (List α)) :
    (ls.flatMap (List.splitOn x)).length = ls.length ↔ ∀ l ∈ ls, x ∉ l := by
  induction ls with
  | nil => simp
  | cons l ls ih =>
    have hle := length_le_length_flatMap_splitOn x ls
    rw [List.forall_mem_cons, ← ih, List.flatMap_cons, List.length_append, length_splitOn,
      List.length_cons, ← List.count_eq_zero]
    omega

end Split

/-- Two lists with equal totals of which one is nowhere greater than the other are equal at every
position. -/
theorem forall₂_eq_of_sum_eq {f : α → ℕ} {g : β → ℕ} {l : List α} {l' : List β}
    (hle : List.Forall₂ (fun a b => f a ≤ g b) l l') (hsum : (l.map f).sum = (l'.map g).sum) :
    List.Forall₂ (fun a b => f a = g b) l l' := by
  have hmono : (l.map f).sum ≤ (l'.map g).sum ∧
      ((l.map f).sum = (l'.map g).sum → List.Forall₂ (fun a b => f a = g b) l l') := by
    clear hsum
    induction hle with
    | nil => exact ⟨le_rfl, fun _ => .nil⟩
    | cons hab htail ih =>
      simp only [List.map_cons, List.sum_cons]
      exact ⟨by omega, fun hsum => .cons (by omega) (ih.2 (by omega))⟩
  exact hmono.2 hsum

/-- A relation that holds of equal elements anyway holds at every position if and only if it holds
at the positions at which the lists differ. -/
theorem forall₂_iff_forall_ne {R Q : α → α → Prop} {C : α → Prop} {l l' : List α}
    (h : List.Forall₂ R l l') (hQ : ∀ a b, R a b → (Q a b ↔ (b ≠ a → C a))) :
    List.Forall₂ Q l l' ↔ ∀ (k : ℕ) a, l[k]? = some a → l'[k]? ≠ some a → C a := by
  induction h with
  | nil => simp
  | @cons a b l l' hab htail ih =>
    rw [List.forall₂_cons, hQ a b hab, ih]
    constructor
    · rintro ⟨hhead, htail⟩ (_ | k) c hc hne
      · obtain rfl : a = c := Option.some.inj hc
        exact hhead fun hba => hne (congrArg some hba)
      · exact htail k c hc hne
    · intro h
      exact ⟨fun hba => h 0 a rfl fun hc => hba (Option.some.inj hc), fun k => h (k + 1)⟩

end Tox.Foundation
