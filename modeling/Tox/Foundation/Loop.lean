import Mathlib.Data.Nat.Notation
import Tox.Foundation.Outcome

/-!
# Loops

A loop repeats its body until a pass through the body leaves it. The loop is run for a given number
of passes, and has failed if it is not left within them.

`Loop.run_eq_ok` is the rule for total correctness: if a pass that goes on keeps an invariant, keeps
the value that the loop is to have and makes a measure smaller, and a pass that leaves the loop does
so with that value, then the loop ends with it, after no more passes than the measure says.
-/

namespace Tox.Foundation.Loop

universe u

variable {ε κ : Type*} {σ β : Type u}

/-- At most `n` passes of the loop with the given body. The body goes on with a new state, or leaves
the loop. -/
def run (unfinished : κ) (body : σ → Outcome ε κ (σ ⊕ β)) : ℕ → σ → Outcome ε κ β
  | 0, _ => .error (.panic unfinished)
  | n + 1, s => body s >>= Sum.elim (run unfinished body n) pure

/-- What one pass has to do for the loop to end with `f s`. -/
inductive Pass (body : σ → Outcome ε κ (σ ⊕ β)) (inv : σ → Prop) (f : σ → β) (size : σ → ℕ)
    (s : σ) : Prop
  | goOn (s' : σ) (hbody : body s = .ok (.inl s')) (hinv : inv s') (hvalue : f s' = f s)
      (hsize : size s' < size s)
  | leave (hbody : body s = .ok (.inr (f s)))

theorem run_eq_ok {unfinished : κ} {body : σ → Outcome ε κ (σ ⊕ β)} {inv : σ → Prop} {f : σ → β}
    {size : σ → ℕ} (hpass : ∀ s, inv s → Pass body inv f size s) {n : ℕ} {s : σ} (h : inv s)
    (hn : size s < n) : run unfinished body n s = .ok (f s) := by
  induction n generalizing s with
  | zero => exact absurd hn (Nat.not_lt_zero _)
  | succ n ih =>
    rw [run]
    cases hpass s h with
    | goOn s' hbody hinv hvalue hsize =>
      rw [hbody, ← hvalue]
      exact ih hinv (Nat.lt_of_lt_of_le hsize (Nat.le_of_lt_succ hn))
    | leave hbody =>
      rw [hbody]
      rfl

end Tox.Foundation.Loop
