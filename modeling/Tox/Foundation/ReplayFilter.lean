import Mathlib.Data.Int.Basic
import Mathlib.Data.List.Basic
import Mathlib.Tactic.Common

/-!
# Filters against replayed values

A filter accepts a value only if it has not accepted it lately. How long it remembers a value is
known from below only: it may forget the value any time after `keep`.

`Recent` is the invariant of a filter and of the values that it has accepted so far. It is kept by
every check at a time that is not before the last one, and it says that a value is accepted again
only after more than `keep`.
-/

namespace Tox.Foundation

/-- A filter with states in `F` that remembers values for at least `keep`. -/
structure ReplayFilter (F α : Type*) (keep : ℤ) where
  /-- Whether a value is accepted at a time. -/
  check : F → ℤ → α → Bool × F
  /-- The value is remembered as one that has been accepted at the time. -/
  Knows : F → α → ℤ → Prop
  knows_of_check : ∀ {f now a}, (check f now a).1 = true → Knows (check f now a).2 a now
  knows_check : ∀ {f now a b t}, Knows f b t → now ≤ t + keep → Knows (check f now a).2 b t
  check_of_knows : ∀ {f now a t}, Knows f a t → now ≤ t + keep → (check f now a).1 = false

namespace ReplayFilter

variable {F α : Type*} {keep : ℤ} (filter : ReplayFilter F α keep)

/-- What the filter knows at the time `now` of the values that it has accepted. -/
structure Recent (f : F) (now : ℤ) (history : List (ℤ × α)) : Prop where
  knows : ∀ call ∈ history, now ≤ call.1 + keep → filter.Knows f call.2 call.1
  apart : history.Pairwise fun x y => x.2 = y.2 → x.1 + keep < y.1

variable {filter}

namespace Recent

variable {f : F} {now : ℤ} {history : List (ℤ × α)}

theorem nil (f : F) (now : ℤ) : filter.Recent f now [] :=
  ⟨List.forall_mem_nil _, List.Pairwise.nil⟩

theorem later (h : filter.Recent f now history) {now' : ℤ} (hnow : now ≤ now') :
    filter.Recent f now' history :=
  ⟨fun call hcall hkeep => h.knows call hcall (Int.le_trans hnow hkeep), h.apart⟩

theorem check (h : filter.Recent f now history) (a : α) :
    filter.Recent (filter.check f now a).2 now history :=
  ⟨fun call hcall hkeep => filter.knows_check (h.knows call hcall hkeep) hkeep, h.apart⟩

/-- A value that is accepted has not been accepted lately. -/
theorem accept (h : filter.Recent f now history) {a : α} (ha : (filter.check f now a).1 = true) :
    filter.Recent (filter.check f now a).2 now (history ++ [(now, a)]) where
  knows := by
    intro call hcall hkeep
    rcases List.mem_append.mp hcall with hold | hnew
    · exact (h.check a).knows call hold hkeep
    · rw [List.mem_singleton.mp hnew]
      exact filter.knows_of_check ha
  apart := by
    refine List.pairwise_append.mpr ⟨h.apart, List.pairwise_singleton _ _, ?_⟩
    intro call hcall call' hcall' heq
    rw [List.mem_singleton.mp hcall'] at heq ⊢
    by_contra hlate
    have hknows := h.knows call hcall (Int.not_lt.mp hlate)
    rw [heq] at hknows
    rw [filter.check_of_knows hknows (Int.not_lt.mp hlate)] at ha
    cases ha

end Recent

/-- The filter that remembers every value for exactly `keep`. -/
def timed [DecidableEq α] : ReplayFilter (List (α × ℤ)) α keep where
  check f now a := (decide (∀ x ∈ f, x.1 = a → x.2 + keep < now), (a, now) :: f)
  Knows f a t := (a, t) ∈ f
  knows_of_check _ := List.mem_cons_self
  knows_check h _ := List.mem_cons_of_mem _ h
  check_of_knows h hnow := decide_eq_false fun hall => Int.not_lt.mpr hnow (hall _ h rfl)

end ReplayFilter

end Tox.Foundation
