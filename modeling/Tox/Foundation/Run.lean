import Mathlib.Data.List.Basic
import Mathlib.Tactic.Common

/-!
# Runs of a step function

A component is a step function `step : σ → ε → σ` on states and events, and a run is a left fold
of `step` along a list of events. This file states once how a property is carried along a run.

* `Guarded step ok s es`: every event of the run from `s` meets `ok` in the state in which it
  happens (`Guarded.guard_at`, `Guarded.of_forall_at`). An invariant that is kept by the events that
  meet `ok` holds at the end of every guarded run (`Guarded.invariant`), hence, `Guarded` being
  closed under prefixes (`Guarded.of_append`), in every state that the run passes through.
  `Guarded.iff_forall_safe` is the rule for guards that leave out nothing but the events that lead
  to a bad state, and `Guarded.of_forall_safe` its converse half for runs of which more is known;
  `Guarded.of_not_bad` is the rule for bad states that are never left.
* `observe`: the observations of the events of a run that satisfy `keep`. `Guarded.unwinding` is
  the rule for statements about two runs: when the events that are not kept leave the related
  state as it is and the kept events are observed alike in related states, the observations of a
  run are those of the run restricted to the kept events, and the two final states are related.
-/

namespace Tox.Foundation

variable {σ ε ο : Type*}

/-- Every event of the run from `s` meets `ok` in the state in which it happens. -/
def Guarded (step : σ → ε → σ) (ok : σ → ε → Prop) : σ → List ε → Prop
  | _, [] => True
  | s, e :: es => ok s e ∧ Guarded step ok (step s e) es

namespace Guarded

variable {step : σ → ε → σ} {ok : σ → ε → Prop}

instance decidable [∀ s e, Decidable (ok s e)] : ∀ s es, Decidable (Guarded step ok s es)
  | _, [] => isTrue trivial
  | s, e :: es =>
    have := decidable (step s e) es
    inferInstanceAs (Decidable (_ ∧ _))

/-- A run is guarded if every event meets the guard in every state. -/
theorem of_forall {es : List ε} (h : ∀ e ∈ es, ∀ s, ok s e) (s : σ) : Guarded step ok s es := by
  induction es generalizing s with
  | nil => trivial
  | cons e es ih =>
    obtain ⟨he, hes⟩ := List.forall_mem_cons.mp h
    exact ⟨he s, ih hes _⟩

/-- The part of a guarded run before any of its states is guarded. -/
theorem of_append {es fs : List ε} {s : σ} (h : Guarded step ok s (es ++ fs)) :
    Guarded step ok s es := by
  induction es generalizing s with
  | nil => trivial
  | cons e es ih => exact ⟨h.1, ih h.2⟩

/-- The guard of an event inside a run is met in the state the run has reached before it. -/
theorem guard_at {es fs : List ε} {e : ε} {s : σ} (h : Guarded step ok s (es ++ e :: fs)) :
    ok (es.foldl step s) e := by
  induction es generalizing s with
  | nil => exact h.1
  | cons _ es ih => exact ih h.2

/-- A run is guarded if the guard of every event is met in the state before it. -/
theorem of_forall_at {es : List ε} {s : σ}
    (h : ∀ p e q, es = p ++ e :: q → ok (p.foldl step s) e) : Guarded step ok s es := by
  induction es generalizing s with
  | nil => trivial
  | cons e es ih =>
    refine ⟨h [] e es rfl, ih fun p f q hes => ?_⟩
    exact h (e :: p) f q (by rw [hes, List.cons_append])

/-- **Invariants along guarded runs.** A property kept by every event that meets the guard holds
at the end of a guarded run from a state with the property. -/
theorem invariant {Inv : σ → Prop} (hstep : ∀ s e, Inv s → ok s e → Inv (step s e))
    {es : List ε} {s : σ} (hs : Inv s) (h : Guarded step ok s es) : Inv (es.foldl step s) := by
  induction es generalizing s with
  | nil => exact hs
  | cons e es ih => exact ih (hstep s e hs h.1) h.2

/-- **Guards that are exact.** Let the events that meet the guard keep an invariant that implies
safety, and let the others lead from the invariant to a state that is not safe. Then a run is
guarded if and only if every state that it passes through is safe. -/
theorem iff_forall_safe {Inv Safe : σ → Prop} (hsafe : ∀ s, Inv s → Safe s)
    {es : List ε} (hstep : ∀ s, ∀ e ∈ es, Inv s → ok s e → Inv (step s e))
    (hbad : ∀ s, ∀ e ∈ es, Inv s → ¬ ok s e → ¬ Safe (step s e)) {s : σ} (hs : Inv s) :
    Guarded step ok s es ↔ ∀ p q, es = p ++ q → Safe (p.foldl step s) := by
  induction es generalizing s with
  | nil =>
    refine ⟨fun _ p q hes => ?_, fun _ => trivial⟩
    obtain ⟨rfl, -⟩ := List.append_eq_nil_iff.mp hes.symm
    exact hsafe s hs
  | cons e es ih =>
    have hrest (hok : ok s e) := ih (fun t f hf => hstep t f (List.mem_cons_of_mem e hf))
      (fun t f hf => hbad t f (List.mem_cons_of_mem e hf))
      (hstep s e List.mem_cons_self hs hok)
    constructor
    · rintro ⟨hok, htail⟩ p q hes
      cases p with
      | nil => exact hsafe s hs
      | cons f p =>
        obtain ⟨rfl, hpq⟩ := List.cons_eq_cons.mp hes
        exact (hrest hok).mp htail p q hpq
    · intro h
      have hok : ok s e := by
        by_contra hnot
        exact hbad s e List.mem_cons_self hs hnot (h [e] es rfl)
      refine ⟨hok, (hrest hok).mpr fun p q hes => ?_⟩
      exact h (e :: p) q (by rw [hes, List.cons_append])

/-- A run through safe states meets a guard, if the events that do not meet the guard lead out of
the safe states. An invariant of all the runs in question may be used for this, kept by the events
that meet `pre`. -/
theorem of_forall_safe {pre : σ → ε → Prop} {Inv Safe : σ → Prop}
    (hstep : ∀ s e, Inv s → pre s e → Inv (step s e))
    (hbad : ∀ s e, Inv s → Safe s → ¬ ok s e → ¬ Safe (step s e)) {es : List ε} {s : σ}
    (hs : Inv s) (hpre : Guarded step pre s es)
    (hsafe : ∀ p q, es = p ++ q → Safe (p.foldl step s)) : Guarded step ok s es := by
  induction es generalizing s with
  | nil => trivial
  | cons e es ih =>
    refine ⟨?_, ih (hstep s e hs hpre.1) hpre.2 fun p q hes => ?_⟩
    · by_contra hnot
      exact hbad s e hs (hsafe [] (e :: es) rfl) hnot (hsafe [e] es rfl)
    · exact hsafe (e :: p) q (by rw [hes, List.cons_append])

/-- A run that does not end in a bad state meets a guard, if the events that do not meet the guard
lead to bad states and no event leads out of them. -/
theorem of_not_bad {Inv Bad : σ → Prop} (hstep : ∀ s e, Inv s → Inv (step s e))
    (hbad : ∀ s e, Inv s → ¬ ok s e → Bad (step s e)) (hstay : ∀ s e, Bad s → Bad (step s e))
    {es : List ε} {s : σ} (hs : Inv s) (hend : ¬ Bad (es.foldl step s)) :
    Guarded step ok s es := by
  induction es generalizing s with
  | nil => trivial
  | cons e es ih =>
    refine ⟨?_, ih (hstep s e hs) hend⟩
    by_contra hnot
    exact hend (List.foldlRecOn es step (hbad s e hs hnot) fun t ht f _ => hstay t f ht)

end Guarded

/-! ### Two runs -/

/-- The observations made by the events of a run that satisfy `keep`, in order. -/
def observe (step : σ → ε → σ) (out : σ → ε → ο) (keep : ε → Bool) : σ → List ε → List ο
  | _, [] => []
  | s, e :: es =>
    if keep e then out s e :: observe step out keep (step s e) es
    else observe step out keep (step s e) es

/-- **Unwinding.** Let `R` relate states such that an event that is not kept leads to a state
related to the same one, and a kept event is observed alike in related states and leads to related
states. Then a guarded run and its restriction to the kept events, from related states, make the
same observations and end in related states. -/
theorem Guarded.unwinding {step : σ → ε → σ} {ok : σ → ε → Prop} {out : σ → ε → ο}
    {keep : ε → Bool} {R : σ → σ → Prop}
    (hhide : ∀ s t e, R s t → keep e = false → ok s e → R (step s e) t)
    (hkeep : ∀ s t e, R s t → keep e = true → ok s e →
      out s e = out t e ∧ R (step s e) (step t e))
    {es : List ε} {s t : σ} (hst : R s t) (h : Guarded step ok s es) :
    observe step out keep s es = observe step out keep t (es.filter keep) ∧
      R (es.foldl step s) ((es.filter keep).foldl step t) := by
  induction es generalizing s t with
  | nil => exact ⟨rfl, hst⟩
  | cons e es ih =>
    cases hk : keep e with
    | false =>
      have hrest := ih (hhide s t e hst hk h.1) h.2
      simpa only [observe, hk, List.filter_cons, List.foldl_cons, Bool.false_eq_true,
        if_false] using hrest
    | true =>
      obtain ⟨hout, hR⟩ := hkeep s t e hst hk h.1
      have hrest := ih hR h.2
      simp only [observe, hk, List.filter_cons, List.foldl_cons, if_true]
      exact ⟨by rw [hout, hrest.1], hrest.2⟩

end Tox.Foundation
