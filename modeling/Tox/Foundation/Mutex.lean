import Mathlib.Data.Finset.Insert
import Mathlib.Data.Finset.Erase
import Mathlib.Tactic.Common
import Tox.Foundation.Run

/-!
# Threads with mutexes

Threads run commands that lock a mutex, unlock it or act on the shared state. An action may be
replaced by further commands, which is how calls and branches are expressed. The mutexes are not
reentrant: a thread that locks a mutex it already holds waits for itself and never moves again
(`Threads.SelfLock`).

A `Discipline` says for every action which mutexes the thread must hold when it gets there and which
ones it holds when the action and everything it has been replaced by is over. `Leads H code K`
checks a piece of code against a discipline. If the replacements of all actions keep to the
discipline then so does every thread in every run (`Threads.Disciplined.step`), and no thread locks
a mutex that it holds (`Threads.Disciplined.not_selfLock`).
-/

namespace Tox.Foundation

variable {ι α σ β ε : Type*}

/-- A command of a thread. -/
inductive Command (ι α : Type*)
  | lock (t : ι)
  | unlock (t : ι)
  /-- An action on the shared state. -/
  | act (a : α)
deriving DecidableEq

/-- What the threads of a program do. -/
structure Program (ι α σ β ε : Type*) where
  /-- The effect of an action for an input, and the commands that replace the action. -/
  perform : σ → β → α → σ × List (Command ι α)
  /-- The effect of an event of the environment, and the threads that it starts. -/
  environment : σ → ε → σ × List (List (Command ι α))
  /-- In a halted state nothing happens any more. -/
  halted : σ → Bool

/-- The shared state, the holders of the mutexes, and the commands that each thread has still to
run. -/
structure Threads (ι α σ : Type*) where
  shared : σ
  holder : ι → Option ℕ := fun _ => none
  code : List (List (Command ι α)) := []

inductive ThreadEvent (β ε : Type*)
  /-- The thread at a position runs its next command. -/
  | run (i : ℕ) (input : β)
  | environment (e : ε)

namespace Threads

/-- The thread is about to lock a mutex that it holds. -/
def SelfLock (s : Threads ι α σ) (i : ℕ) (t : ι) : Prop :=
  (∃ rest, s.code[i]? = some (.lock t :: rest)) ∧ s.holder t = some i

variable [DecidableEq ι]

/-- The next command of a thread. A thread waits for a mutex that is held. -/
def runAt (P : Program ι α σ β ε) (s : Threads ι α σ) (i : ℕ) (input : β) : Threads ι α σ :=
  match s.code[i]? with
  | none | some [] => s
  | some (.lock t :: rest) =>
    match s.holder t with
    | some _ => s
    | none => { s with holder := Function.update s.holder t (some i), code := s.code.set i rest }
  | some (.unlock t :: rest) =>
    { s with holder := Function.update s.holder t none, code := s.code.set i rest }
  | some (.act a :: rest) =>
    let (shared, new) := P.perform s.shared input a
    { s with shared := shared, code := s.code.set i (new ++ rest) }

def step (P : Program ι α σ β ε) (s : Threads ι α σ) (e : ThreadEvent β ε) : Threads ι α σ :=
  if P.halted s.shared then s
  else
    match e with
    | .run i input => runAt P s i input
    | .environment e =>
      let (shared, new) := P.environment s.shared e
      { s with shared := shared, code := s.code ++ new }

theorem step_run_act {P : Program ι α σ β ε} {s : Threads ι α σ} {i : ℕ} {a : α}
    {rest : List (Command ι α)} (hhalted : P.halted s.shared = false)
    (hcode : s.code[i]? = some (.act a :: rest)) (input : β) :
    s.step P (.run i input) =
      { s with
        shared := (P.perform s.shared input a).1
        code := s.code.set i ((P.perform s.shared input a).2 ++ rest) } := by
  simp only [step, hhalted, Bool.false_eq_true, if_false, runAt, hcode]

end Threads

/-! ### Discipline -/

/-- The mutexes that a thread must hold at an action, and those it holds when the action is over. -/
structure Discipline (ι α : Type*) where
  pre : α → Finset ι → Prop
  post : α → Finset ι → Finset ι

variable [DecidableEq ι]

/-- The code keeps to the discipline for a thread that holds `H`, which then holds `K` at the end.
-/
def Leads (D : Discipline ι α) : Finset ι → List (Command ι α) → Finset ι → Prop
  | H, [], K => H = K
  | H, .lock t :: code, K => t ∉ H ∧ Leads D (insert t H) code K
  | H, .unlock t :: code, K => t ∈ H ∧ Leads D (H.erase t) code K
  | H, .act a :: code, K => D.pre a H ∧ Leads D (D.post a H) code K

theorem Leads.append {D : Discipline ι α} {code rest : List (Command ι α)} {H K L : Finset ι}
    (h : Leads D H code K) (hrest : Leads D K rest L) : Leads D H (code ++ rest) L := by
  induction code generalizing H with
  | nil => exact (show H = K from h) ▸ hrest
  | cons c code ih => cases c <;> exact ⟨h.1, ih h.2⟩

/-- The replacements keep to the discipline whenever the input is admitted. -/
structure Program.Respects (P : Program ι α σ β ε) (D : Discipline ι α)
    (admits : σ → β → α → Prop) : Prop where
  perform : ∀ s input a H, D.pre a H → admits s input a →
    Leads D H (P.perform s input a).2 (D.post a H)
  environment : ∀ s e, ∀ code ∈ (P.environment s e).2, Leads D ∅ code ∅

namespace Threads

/-- Every thread keeps to the discipline with the mutexes that it holds. -/
structure Disciplined (D : Discipline ι α) (s : Threads ι α σ) : Prop where
  leads : ∀ i code, s.code[i]? = some code →
    ∃ H : Finset ι, (∀ t, t ∈ H ↔ s.holder t = some i) ∧ Leads D H code ∅
  /-- Only threads hold mutexes. -/
  holder_lt : ∀ t i, s.holder t = some i → i < s.code.length

/-- The input of an event is admitted for the action that the event runs. -/
def Admitted (P : Program ι α σ β ε) (admits : σ → β → α → Prop) (s : Threads ι α σ) :
    ThreadEvent β ε → Prop
  | .run i input => P.halted s.shared = false →
      ∀ a rest, s.code[i]? = some (.act a :: rest) → admits s.shared input a
  | .environment _ => True

namespace Disciplined

variable {D : Discipline ι α} {P : Program ι α σ β ε} {admits : σ → β → α → Prop}
  {s : Threads ι α σ}

/-- A thread that keeps to the discipline does not lock a mutex that it holds. -/
theorem not_selfLock (h : s.Disciplined D) (i : ℕ) (t : ι) : ¬ s.SelfLock i t := by
  rintro ⟨⟨rest, hcode⟩, hholder⟩
  obtain ⟨H, hH, hleads⟩ := h.leads i _ hcode
  exact hleads.1 ((hH t).mpr hholder)

/-- The threads stay disciplined if one of them, and the set of mutexes it holds, goes on. -/
theorem set (h : s.Disciplined D) {i : ℕ} (hi : i < s.code.length) {code : List (Command ι α)}
    {shared : σ} {holder : ι → Option ℕ} {H : Finset ι} (hH : ∀ t, t ∈ H ↔ holder t = some i)
    (hleads : Leads D H code ∅)
    (hothers : ∀ t j, j ≠ i → (holder t = some j ↔ s.holder t = some j)) :
    Disciplined D { shared := shared, holder := holder, code := s.code.set i code } := by
  refine ⟨fun j code' hcode' => ?_, fun t j hj => ?_⟩
  · rcases eq_or_ne i j with rfl | hij
    · rw [List.getElem?_set_self hi] at hcode'
      exact ⟨H, hH, Option.some.inj hcode' ▸ hleads⟩
    · rw [List.getElem?_set_ne hij] at hcode'
      obtain ⟨K, hK, hleads'⟩ := h.leads j code' hcode'
      exact ⟨K, fun t => (hK t).trans (hothers t j hij.symm).symm, hleads'⟩
  · rw [List.length_set]
    rcases eq_or_ne j i with rfl | hji
    · exact hi
    · exact h.holder_lt t j ((hothers t j hji).mp hj)

theorem runAt (h : s.Disciplined D) (hP : P.Respects D admits) {i : ℕ} {input : β}
    (hok : ∀ a rest, s.code[i]? = some (.act a :: rest) → admits s.shared input a) :
    (s.runAt P i input).Disciplined D := by
  unfold Threads.runAt
  split
  · exact h
  · exact h
  · rename_i t rest hcode
    have hi : i < s.code.length := (List.getElem?_eq_some_iff.mp hcode).1
    obtain ⟨H, hH, hleads⟩ := h.leads i _ hcode
    split
    · exact h
    · rename_i hfree
      refine h.set hi (fun t' => ?_) hleads.2 fun t' j hj => ?_
      · rcases eq_or_ne t' t with rfl | ht
        · simp
        · simp [ht, hH]
      · rcases eq_or_ne t' t with rfl | ht
        · simp [hfree, hj.symm]
        · rw [Function.update_of_ne ht]
  · rename_i t rest hcode
    have hi : i < s.code.length := (List.getElem?_eq_some_iff.mp hcode).1
    obtain ⟨H, hH, hleads⟩ := h.leads i _ hcode
    -- the thread unlocks its own mutex, so that no other thread loses one
    have hmine : s.holder t = some i := (hH t).mp hleads.1
    refine h.set hi (fun t' => ?_) hleads.2 fun t' j hj => ?_
    · rcases eq_or_ne t' t with rfl | ht
      · simp
      · simp [ht, hH]
    · rcases eq_or_ne t' t with rfl | ht
      · simp [hmine, hj.symm]
      · rw [Function.update_of_ne ht]
  · rename_i a rest hcode
    have hi : i < s.code.length := (List.getElem?_eq_some_iff.mp hcode).1
    obtain ⟨H, hH, hleads⟩ := h.leads i _ hcode
    have hnew := hP.perform s.shared input a H hleads.1 (hok a rest hcode)
    exact h.set hi hH (hnew.append hleads.2) fun _ _ _ => Iff.rfl

theorem environment (h : s.Disciplined D) (hP : P.Respects D admits) (e : ε) :
    Disciplined D { s with
      shared := (P.environment s.shared e).1
      code := s.code ++ (P.environment s.shared e).2 } := by
  refine ⟨fun i code hcode => ?_, fun t i hi => ?_⟩
  · rw [List.getElem?_append] at hcode
    split_ifs at hcode with hlt
    · exact h.leads i code hcode
    · -- a new thread holds nothing
      refine ⟨∅, fun t => ?_, hP.environment s.shared e code (List.mem_of_getElem? hcode)⟩
      have hne : s.holder t ≠ some i := fun hheld => hlt (h.holder_lt t i hheld)
      simp [hne]
  · rw [List.length_append]
    exact Nat.lt_add_right _ (h.holder_lt t i hi)

/-- **Discipline is kept** by every event whose input is admitted. -/
theorem step (h : s.Disciplined D) (hP : P.Respects D admits) (e : ThreadEvent β ε)
    (hok : Admitted P admits s e) : (s.step P e).Disciplined D := by
  unfold Threads.step
  split_ifs with hhalted
  · exact h
  · cases e with
    | run i input => exact h.runAt hP (hok (by simpa using hhalted))
    | environment e => exact h.environment hP e

end Disciplined

end Threads

end Tox.Foundation
