import Mathlib.Data.List.Forall2
import Mathlib.Tactic.Common

/-!
# Scanners

A scanner reads a list from left to right and replaces its elements one by one. What it puts in the
place of an element, and the state in which it goes on, depend on its state, on the element and on
what comes after.

`Scanner.run_eq_iff` is the rule for comparing two scanners. Let a relation between their states be
kept by the elements that are good for the second scanner, let the scanners differ at every element
that is not, and agree where all elements from there on are good. Then from related states they make
the same of a list exactly if all its elements are good.
-/

namespace Tox.Foundation

structure Scanner (σ α : Type*) where
  /-- The state after an element that is followed by the given list. -/
  next : σ → α → List α → σ
  /-- What is put in the place of the element. -/
  emit : σ → α → List α → α

namespace Scanner

variable {σ τ α : Type*}

def run (M : Scanner σ α) : σ → List α → List α
  | _, [] => []
  | q, c :: s => M.emit q c s :: M.run (M.next q c s) s

/-- What the scanner puts in the place of the single elements, it makes of the whole list. -/
theorem forall₂_run {M : Scanner σ α} {R : α → α → Prop}
    (h : ∀ q c s, R c (M.emit q c s)) (q : σ) (s : List α) : List.Forall₂ R s (M.run q s) := by
  induction s generalizing q with
  | nil => exact List.Forall₂.nil
  | cons c s ih => exact List.Forall₂.cons (h q c s) (ih (M.next q c s))

/-- Every element of the list meets `p` in the state in which it is read. -/
def All (M : Scanner σ α) (p : σ → α → List α → Prop) : σ → List α → Prop
  | _, [] => True
  | q, c :: s => p q c s ∧ M.All p (M.next q c s) s

instance All.decidable (M : Scanner σ α) (p : σ → α → List α → Prop)
    [∀ q c s, Decidable (p q c s)] : ∀ q s, Decidable (M.All p q s)
  | _, [] => isTrue trivial
  | q, c :: s =>
    have := All.decidable M p (M.next q c s) s
    inferInstanceAs (Decidable (_ ∧ _))

theorem run_eq_iff {M : Scanner σ α} {N : Scanner τ α} {R : σ → τ → List α → Prop}
    {good : τ → α → List α → Prop}
    (hnext : ∀ q r c s, R q r (c :: s) → good r c s → R (M.next q c s) (N.next r c s) s)
    (hne : ∀ q r c s, R q r (c :: s) → ¬ good r c s → M.emit q c s ≠ N.emit r c s)
    (heq : ∀ q r c s, R q r (c :: s) → N.All good r (c :: s) → M.emit q c s = N.emit r c s)
    {q : σ} {r : τ} {s : List α} (h : R q r s) : M.run q s = N.run r s ↔ N.All good r s := by
  induction s generalizing q r with
  | nil => exact iff_of_true rfl trivial
  | cons c s ih =>
    rw [run, run, List.cons_eq_cons]
    constructor
    · rintro ⟨hemit, hrun⟩
      have hgood : good r c s := by
        by_contra hnot
        exact hne q r c s h hnot hemit
      exact ⟨hgood, (ih (hnext q r c s h hgood)).mp hrun⟩
    · intro hall
      exact ⟨heq q r c s h hall, (ih (hnext q r c s h hall.1)).mpr hall.2⟩

end Scanner

end Tox.Foundation
