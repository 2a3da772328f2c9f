import Mathlib.Data.List.Forall2
import Mathlib.Tactic.Common

/-!
# Calls that return an error or panic

A call ends with a value, with a returned error, or with a panic. The first panic or error of a
sequence of steps ends it, so that the sequence panics if and only if some step panics after all
steps before it have succeeded (`Outcome.panics_bind_iff`). With the lemmas for the single steps,
`simp` turns the question whether a function panics into conditions on its arguments.
-/

namespace Tox.Foundation

/-- A returned error or a panic. -/
inductive Fault (ε κ : Type*)
  | error (e : ε)
  | panic (k : κ)
deriving DecidableEq, Repr

/-- The outcome of a call: a value, a returned error, or a panic. -/
abbrev Outcome (ε κ α : Type*) := Except (Fault ε κ) α

/-! ### Loops -/

section Loops

universe u

variable {ε : Type*} {α β : Type u} {f : α → Except ε β} {l : List α} {l' : List β} {err : ε}

/-- A loop that succeeds at every step. -/
theorem mapM_eq_ok_iff : l.mapM f = .ok l' ↔ List.Forall₂ (fun a b => f a = .ok b) l l' := by
  induction l generalizing l' with
  | nil =>
    rw [List.mapM_nil, List.forall₂_nil_left_iff]
    exact ⟨fun h => (Except.ok.inj h).symm, fun h => congrArg _ h.symm⟩
  | cons a l ih =>
    rw [List.mapM_cons, List.forall₂_cons_left_iff]
    rcases f a with err | b
    · exact iff_of_false nofun fun ⟨_, _, h, _⟩ => by cases h
    · rcases hl : l.mapM f with err | bs
      · refine iff_of_false (fun h => by cases h) ?_
        rintro ⟨b', bs', -, hbs, -⟩
        rw [ih.mpr hbs] at hl
        cases hl
      · constructor
        · intro h
          exact ⟨b, bs, rfl, ih.mp hl, (Except.ok.inj h).symm⟩
        · rintro ⟨b', bs', hb, hbs, rfl⟩
          obtain rfl := Except.ok.inj hb
          obtain rfl := Except.ok.inj (hl.symm.trans (ih.mpr hbs))
          rfl

theorem exists_ok_of_mapM_eq_ok (h : l.mapM f = .ok l') {a : α} (ha : a ∈ l) :
    ∃ b, f a = .ok b := by
  have hforall := mapM_eq_ok_iff.mp h
  clear h
  induction hforall with
  | nil => cases ha
  | cons hb _ ih =>
    rcases List.mem_cons.mp ha with rfl | ha
    · exact ⟨_, hb⟩
    · exact ih ha

/-- A loop ends with the error of its first step. -/
theorem mapM_cons_of_error {a : α} (h : f a = .error err) (l : List α) :
    (a :: l).mapM f = .error err := by
  rw [List.mapM_cons, h]
  rfl

/-- A loop ends with the error of one of its steps. -/
theorem exists_of_mapM_eq_error (h : l.mapM f = .error err) : ∃ a ∈ l, f a = .error err := by
  induction l with
  | nil => cases h
  | cons a l ih =>
    rcases ha : f a with err' | b
    · rw [mapM_cons_of_error ha] at h
      obtain rfl := Except.error.inj h
      exact ⟨a, List.mem_cons_self, ha⟩
    · rw [List.mapM_cons, ha] at h
      rcases hl : l.mapM f with err' | bs
      · rw [hl] at h
        obtain rfl := Except.error.inj h
        obtain ⟨a', ha', herr⟩ := ih hl
        exact ⟨a', List.mem_cons_of_mem _ ha', herr⟩
      · rw [hl] at h
        cases h

/-- A loop all of whose steps end alike depends on the number of its steps only. -/
theorem mapM_eq_of_length_eq {c : Except ε β} {xs ys : List α} (hlength : xs.length = ys.length)
    (hxs : ∀ a ∈ xs, f a = c) (hys : ∀ a ∈ ys, f a = c) : xs.mapM f = ys.mapM f := by
  induction xs generalizing ys with
  | nil => rw [List.eq_nil_of_length_eq_zero hlength.symm]
  | cons x xs ih =>
    rcases ys with _ | ⟨y, ys⟩
    · cases hlength
    · obtain ⟨hx, hxs⟩ := List.forall_mem_cons.mp hxs
      obtain ⟨hy, hys⟩ := List.forall_mem_cons.mp hys
      rw [List.mapM_cons, List.mapM_cons, hx, hy, ih (Nat.succ.inj hlength) hxs hys]

end Loops

namespace Outcome

universe u

variable {ε ε' κ : Type*} {α β : Type u}

/-- The call panics. -/
def Panics (x : Outcome ε κ α) : Prop := ∃ k, x = .error (.panic k)

/-- An error is returned. -/
def fail (e : ε) : Outcome ε κ α := .error (.error e)

/-- A pointer is dereferenced; a nil pointer panics. -/
def deref (k : κ) : Option α → Outcome ε κ α
  | some a => .ok a
  | none => .error (.panic k)

/-- The first element of a slice; an empty slice panics. -/
def first (k : κ) : List α → Outcome ε κ α
  | a :: _ => .ok a
  | [] => .error (.panic k)

/-- A call that does not panic, with what is made of its error. -/
def orFail (f : ε' → ε) : Except ε' α → Outcome ε κ α
  | .ok a => .ok a
  | .error e => .error (.error (f e))

/-- A call after which a pointer is dereferenced before the error of the call is looked at. -/
def thenDeref (k : κ) (x : Outcome ε κ α) (p : Option β) : Outcome ε κ (α × β) :=
  match x, p with
  | .error (.panic k'), _ => .error (.panic k')
  | _, none => .error (.panic k)
  | .error (.error e), some _ => .error (.error e)
  | .ok a, some b => .ok (a, b)

/-! ### Values -/

section Values

variable {x : Outcome ε κ α} {k : κ} {e : ε} {a : α} {b : β}

@[simp] theorem pure_eq_ok_iff {a' : α} : (pure a : Outcome ε κ α) = .ok a' ↔ a = a' :=
  ⟨Except.ok.inj, congrArg _⟩

theorem ok_bind (a : α) (f : α → Outcome ε κ β) : (.ok a : Outcome ε κ α) >>= f = f a := rfl

theorem bind_eq_ok_iff {f : α → Outcome ε κ β} :
    x >>= f = .ok b ↔ ∃ a, x = .ok a ∧ f a = .ok b := by
  rcases x with fault | a
  · exact iff_of_false nofun fun ⟨_, h, _⟩ => nomatch h
  · exact ⟨fun h => ⟨a, rfl, h⟩, fun ⟨_, h, hb⟩ => Except.ok.inj h ▸ hb⟩

@[simp] theorem deref_eq_ok_iff {o : Option α} :
    (deref k o : Outcome ε κ α) = .ok a ↔ o = some a := by
  rcases o with _ | a'
  · exact iff_of_false nofun nofun
  · exact ⟨fun h => congrArg some (Except.ok.inj h), fun h => congrArg _ (Option.some.inj h)⟩

@[simp] theorem orFail_eq_ok_iff {f : ε' → ε} {y : Except ε' α} :
    (orFail f y : Outcome ε κ α) = .ok a ↔ y = .ok a := by
  rcases y with e | a'
  · exact iff_of_false nofun nofun
  · exact ⟨fun h => congrArg _ (Except.ok.inj h), fun h => congrArg _ (Except.ok.inj h)⟩

/-- A pointer that is not nil can be read first. -/
theorem thenDeref_some_bind {γ : Type u} (f : α × β → Outcome ε κ γ) :
    thenDeref k x (some b) >>= f = x >>= fun a => f (a, b) := by
  rcases x with (e | k') | a
  · rfl
  · rfl
  · rfl

end Values

/-! ### Panics -/

section Panics

variable {x : Outcome ε κ α} {k : κ} {e : ε} {a : α}

@[simp] theorem not_panics_ok : ¬ Panics (.ok a : Outcome ε κ α) := nofun

@[simp] theorem not_panics_pure : ¬ Panics (pure a : Outcome ε κ α) := nofun

@[simp] theorem not_panics_fail : ¬ Panics (fail e : Outcome ε κ α) := nofun

@[simp] theorem panics_deref_iff {o : Option α} :
    Panics (deref k o : Outcome ε κ α) ↔ o = none := by
  rcases o with _ | a
  · exact iff_of_true ⟨k, rfl⟩ rfl
  · exact iff_of_false nofun nofun

@[simp] theorem panics_first_iff {l : List α} :
    Panics (first k l : Outcome ε κ α) ↔ l = [] := by
  rcases l with _ | ⟨a, l⟩
  · exact iff_of_true ⟨k, rfl⟩ rfl
  · exact iff_of_false nofun nofun

@[simp] theorem not_panics_orFail {f : ε' → ε} {y : Except ε' α} :
    ¬ Panics (orFail f y : Outcome ε κ α) := by
  rcases y with e | a
  · exact nofun
  · exact nofun

/-- A sequence panics if its first step does, or if the first step succeeds and the rest panics. -/
theorem panics_bind_iff {f : α → Outcome ε κ β} :
    Panics (x >>= f) ↔ Panics x ∨ ∃ a, x = .ok a ∧ Panics (f a) := by
  rcases x with fault | a
  · refine ⟨fun ⟨k, h⟩ => Or.inl ⟨k, ?_⟩, ?_⟩
    · exact congrArg Except.error (Except.error.inj h)
    · rintro (⟨k, h⟩ | ⟨a, h, -⟩)
      · exact ⟨k, congrArg Except.error (Except.error.inj h)⟩
      · cases h
  · refine ⟨fun h => Or.inr ⟨a, rfl, h⟩, ?_⟩
    rintro (⟨k, h⟩ | ⟨a', h, hf⟩)
    · cases h
    · exact Except.ok.inj h ▸ hf

/-- Only the first step can panic. -/
theorem panics_bind_iff_left {f : α → Outcome ε κ β} (hf : ∀ a, ¬ Panics (f a)) :
    Panics (x >>= f) ↔ Panics x := by
  rw [panics_bind_iff]
  exact or_iff_left fun ⟨a, _, h⟩ => hf a h

/-- A sequence of steps that do not panic. -/
theorem not_panics_bind {f : α → Outcome ε κ β} (hx : ¬ Panics x) (hf : ∀ a, ¬ Panics (f a)) :
    ¬ Panics (x >>= f) := by
  rw [panics_bind_iff_left hf]
  exact hx

/-- A loop whose steps do not panic. -/
theorem not_panics_mapM {f : α → Outcome ε κ β} (hf : ∀ a, ¬ Panics (f a)) (l : List α) :
    ¬ Panics (l.mapM f) := by
  induction l with
  | nil => exact not_panics_pure
  | cons a l ih =>
    rw [List.mapM_cons]
    exact not_panics_bind (hf a) fun b => not_panics_bind ih fun bs => not_panics_pure

end Panics

end Outcome

end Tox.Foundation
