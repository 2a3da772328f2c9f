import Mathlib.Data.Int.Order.Basic
import Mathlib.Data.List.Basic
import Mathlib.Tactic.Common

/-!
# Debounced events and delayed reads

Events come one after the other, each at a time of its own. An event passes if the last event that
has passed is at least a window ago, and is dropped otherwise (`debounced`). A variable is written
at some times, and a read at a time gives the last value that has been written until then
(`valueAt`).
-/

namespace Tox.Foundation

/-! ### Events that pass -/

section Debounce

variable {ε ε' : Type*}

/-- The last event that has passed is at least a window ago. -/
def Passes (window : ℤ) (pre : Option ℤ) (t : ℤ) : Prop := ∀ p, pre = some p → p + window ≤ t

instance (window : ℤ) (pre : Option ℤ) (t : ℤ) : Decidable (Passes window pre t) :=
  decidable_of_iff (pre.all fun p => p + window ≤ t) (by
    unfold Passes
    rcases pre with _ | p
    · simp
    · simp)

/-- The first event passes. -/
theorem passes_none (window t : ℤ) : Passes window none t := nofun

/-- The events that pass. -/
def debounced (time : ε → ℤ) (window : ℤ) (pre : Option ℤ) : List ε → List ε
  | [] => []
  | e :: es =>
    if Passes window pre (time e) then e :: debounced time window (some (time e)) es
    else debounced time window pre es

variable {time : ε → ℤ} {window : ℤ}

theorem debounced_cons_of_passes {pre : Option ℤ} {e : ε} (h : Passes window pre (time e))
    (es : List ε) :
    debounced time window pre (e :: es) = e :: debounced time window (some (time e)) es :=
  if_pos h

theorem debounced_cons_of_not {pre : Option ℤ} {e : ε} (h : ¬ Passes window pre (time e))
    (es : List ε) : debounced time window pre (e :: es) = debounced time window pre es :=
  if_neg h

theorem debounced_sublist (pre : Option ℤ) (es : List ε) :
    (debounced time window pre es).Sublist es := by
  induction es generalizing pre with
  | nil => exact .slnil
  | cons e es ih =>
    by_cases h : Passes window pre (time e)
    · rw [debounced_cons_of_passes h]
      exact (ih _).cons_cons e
    · rw [debounced_cons_of_not h]
      exact (ih _).cons e

/-- Some event passes. -/
theorem debounced_none_ne_nil {es : List ε} (h : es ≠ []) : debounced time window none es ≠ [] := by
  rcases es with _ | ⟨e, es⟩
  · exact absurd rfl h
  · rw [debounced_cons_of_passes (passes_none _ _)]
    exact List.cons_ne_nil _ _

/-- Only the times decide which events pass. -/
theorem debounced_map {time' : ε' → ℤ} {f : ε → ε'} (hf : ∀ e, time' (f e) = time e)
    (pre : Option ℤ) (es : List ε) :
    debounced time' window pre (es.map f) = (debounced time window pre es).map f := by
  induction es generalizing pre with
  | nil => rfl
  | cons e es ih =>
    rw [List.map_cons]
    by_cases h : Passes window pre (time e)
    · have h' : Passes window pre (time' (f e)) := by
        rw [hf]
        exact h
      rw [debounced_cons_of_passes h, debounced_cons_of_passes h', List.map_cons, hf, ih]
    · have h' : ¬ Passes window pre (time' (f e)) := by
        rw [hf]
        exact h
      rw [debounced_cons_of_not h, debounced_cons_of_not h', ih]

end Debounce

/-! ### Reads -/

/-- A value that is written at a time. -/
structure Timed (α : Type*) where
  time : ℤ
  value : α
deriving DecidableEq, Repr

section Reads

variable {α : Type*}

/-- The value at a time, after the writes until then. -/
def valueAt (a : α) : List (Timed α) → ℤ → α
  | [], _ => a
  | e :: es, t => if e.time ≤ t then valueAt e.value es t else valueAt a es t

theorem valueAt_cons_of_le {a : α} {e : Timed α} {t : ℤ} (h : e.time ≤ t) (es : List (Timed α)) :
    valueAt a (e :: es) t = valueAt e.value es t :=
  if_pos h

/-- Nothing has been written. -/
theorem valueAt_of_forall_lt {a : α} {es : List (Timed α)} {t : ℤ} (h : ∀ e ∈ es, t < e.time) :
    valueAt a es t = a := by
  induction es with
  | nil => rfl
  | cons e es ih =>
    obtain ⟨he, hes⟩ := List.forall_mem_cons.mp h
    rw [valueAt, if_neg (not_le.mpr he), ih hes]

/-- Everything has been written. -/
theorem valueAt_of_forall_le {a : α} {es : List (Timed α)} {t : ℤ} (h : ∀ e ∈ es, e.time ≤ t)
    (hne : es ≠ []) : valueAt a es t = (es.getLast hne).value := by
  induction es generalizing a with
  | nil => exact absurd rfl hne
  | cons e es ih =>
    obtain ⟨he, hes⟩ := List.forall_mem_cons.mp h
    rw [valueAt_cons_of_le he]
    rcases es with _ | ⟨e', es⟩
    · rfl
    · rw [List.getLast_cons (List.cons_ne_nil e' es)]
      exact ih hes _

end Reads

/-- In a list that is sorted, what a `dropWhile` leaves is not below the bound. -/
theorem le_of_mem_dropWhile_lt {l : List ℤ} (hl : l.Pairwise (· ≤ ·)) {t x : ℤ}
    (hx : x ∈ l.dropWhile (· < t)) : t ≤ x := by
  induction l with
  | nil => cases hx
  | cons y l ih =>
    obtain ⟨hy, hl⟩ := List.pairwise_cons.mp hl
    by_cases hlt : y < t
    · rw [List.dropWhile_cons_of_pos (by simpa using hlt)] at hx
      exact ih hl hx
    · rw [List.dropWhile_cons_of_neg (by simpa using hlt)] at hx
      rcases List.mem_cons.mp hx with rfl | hx
      · exact not_lt.mp hlt
      · exact le_trans (not_lt.mp hlt) (hy x hx)

end Tox.Foundation
