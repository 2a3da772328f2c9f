import Mathlib.Data.List.Basic
import Mathlib.Tactic.Common
import Tox.Foundation.Run

/-!
# Periodic tasks

A `Task` runs its `Execute` function again and again. `Start` marks the task as running and enters
`checkedExecute`, which creates a timer; when the timer fires, a goroutine enters `checkedExecute`
once more, runs `Execute` and creates the next timer. `Close` marks the task as not running and
stops the stored timer. All of them change the task under its lock, but `checkedExecute` takes the
lock twice: once to look whether the task has been closed, and a second time to run `Execute` and to
create the timer.

In a `TaskMachine` every critical section, every firing of a timer and every call of `Start` or
`Close` is one step. A pending timer may fire at any moment. Between its two critical sections a
goroutine holds an outdated answer: after a `Close` it still runs `Execute`, and after another
`Start` the task has two chains of timers. Both are excluded if `Close` is not called while a
goroutine is about to run `Execute`, and a closed task is not started while an old goroutine is
still in `checkedExecute` (`Orderly`).
-/

namespace Tox.Periodic

open Tox.Foundation

/-! ### The critical sections -/

/-- `task.Task`, with the timers of the runtime that belong to it. -/
structure Task where
  running : Bool := false
  timer : Option ℕ := none
  /-- The timers that have neither fired nor been stopped. -/
  pending : List ℕ := []
  /-- The identity of the next timer. -/
  next : ℕ := 0
deriving DecidableEq, Repr

namespace Task

/-- `Task.hasClosed`. -/
def hasClosed (t : Task) : Bool := !t.running

/-- `time.AfterFunc`, with the new timer stored in the task. -/
def afterFunc (t : Task) : Task :=
  { t with timer := some t.next, pending := t.pending ++ [t.next], next := t.next + 1 }

/-- `Timer.Stop`. It has no effect on a timer that has fired. -/
def stop (t : Task) (id : ℕ) : Task := { t with pending := t.pending.erase id }

/-- The critical section of `Start`, and whether `Start` goes on to `checkedExecute`. -/
def begin (t : Task) : Task × Bool :=
  if t.running then (t, false) else ({ t with running := true }, true)

/-- The end of the second critical section of `checkedExecute`: the next timer is created, unless
the task is not running. -/
def schedule (t : Task) : Task := if t.running then t.afterFunc else t

/-- What follows the call of `Execute` in the second critical section of `checkedExecute`. -/
def executed (t : Task) (err : Option String) : Task :=
  match err with
  | some _ => { t with running := false }
  | none => t.schedule

/-- `Task.Close`. -/
def close (t : Task) : Task :=
  match t.timer with
  | none => { t with running := false }
  | some id => { t.stop id with running := false, timer := none }

end Task

/-! ### The goroutines of a task -/

/-- Where a goroutine is in `checkedExecute`. -/
inductive Stage
  /-- Before the critical section of `hasClosed`. -/
  | entered
  /-- `hasClosed` has returned false, the second critical section has not begun. -/
  | checked
deriving DecidableEq, Repr

/-- A goroutine in `checkedExecute`, with the argument of the call. -/
structure Chain where
  first : Bool
  stage : Stage := .entered
deriving DecidableEq, Repr

/-- A task with the goroutines in `checkedExecute`. -/
structure TaskMachine where
  task : Task := {}
  chains : List Chain := []
  /-- `Close` has returned and there has been no `Start` since. -/
  closed : Bool := false
deriving DecidableEq, Repr

inductive TaskEvent
  /-- The critical section of a call of `Start`. -/
  | start (first : Bool)
  /-- A call of `Close`. -/
  | close
  /-- A pending timer fires. -/
  | fire (id : ℕ)
  /-- The goroutine at a position goes through its next critical section. -/
  | step (i : ℕ)
deriving DecidableEq, Repr

namespace TaskMachine

/-- One step of a task whose `Execute` returns nil. -/
def step (m : TaskMachine) : TaskEvent → TaskMachine
  | .start first =>
    match m.task.begin with
    | (t, true) => { task := t, chains := m.chains ++ [{ first := first }] }
    | (_, false) => { m with closed := false }
  | .close => { m with task := m.task.close, closed := true }
  | .fire id =>
    if id ∈ m.task.pending then
      { m with task := m.task.stop id, chains := m.chains ++ [{ first := true }] }
    else m
  | .step i =>
    match m.chains[i]? with
    | none => m
    | some ⟨first, .entered⟩ =>
      if m.task.hasClosed then { m with chains := m.chains.eraseIdx i }
      else { m with chains := m.chains.set i ⟨first, .checked⟩ }
    | some ⟨first, .checked⟩ =>
      { m with
        task := if first then m.task.executed none else m.task.schedule
        chains := m.chains.eraseIdx i }

/-- There is at most one pending timer or goroutine in `checkedExecute`, and a pending timer is the
one that the task has stored. -/
def Single (m : TaskMachine) : Prop :=
  m.task.pending.length + m.chains.length ≤ 1 ∧ ∀ id ∈ m.task.pending, m.task.timer = some id

/-- The step begins a run of `Execute`. -/
def Begins (m : TaskMachine) : TaskEvent → Prop
  | .step i => m.chains[i]? = some ⟨true, .checked⟩
  | _ => False

end TaskMachine

/-- `Close` does not come between the two critical sections of a goroutine that will run `Execute`,
and a task that is not running is not started while a goroutine is in `checkedExecute`. -/
def Orderly (m : TaskMachine) : TaskEvent → Prop
  | .start _ => m.task.running = true ∨ m.chains = []
  | .close => ⟨true, .checked⟩ ∉ m.chains
  | .fire _ | .step _ => True

instance (m : TaskMachine) : ∀ e, Decidable (Orderly m e)
  | .start _ => inferInstanceAs (Decidable (_ ∨ _))
  | .close => inferInstanceAs (Decidable (¬ _))
  | .fire _ | .step _ => isTrue trivial

/-! ### Orderly runs -/

/-- If the stored timer is the only one, nothing is pending after `Close`. -/
theorem Task.pending_close {t : Task} (hlen : t.pending.length ≤ 1)
    (htimer : ∀ id ∈ t.pending, t.timer = some id) : t.close.pending = [] := by
  match hp : t.pending with
  | [] =>
    unfold Task.close Task.stop
    split <;> simp only [hp, List.erase_nil]
  | [id] =>
    have hid : t.timer = some id := htimer id (by simp [hp])
    simp only [Task.close, hid, Task.stop, hp, List.erase_cons_head]
  | _ :: _ :: _ => simp [hp] at hlen

theorem Task.running_close (t : Task) : t.close.running = false := by
  unfold Task.close
  split <;> rfl

/-- The invariant of orderly runs. -/
structure TaskMachine.Tidy (m : TaskMachine) : Prop where
  single : m.Single
  /-- A task that is not running has no pending timer. -/
  idle : m.task.running = false → m.task.pending = []
  /-- After `Close` no goroutine is about to run `Execute`. -/
  silent : m.closed = true → m.task.running = false ∧ ⟨true, .checked⟩ ∉ m.chains

namespace TaskMachine.Tidy

variable {m : TaskMachine}

theorem start (h : m.Tidy) {first : Bool} (hok : Orderly m (.start first)) :
    (m.step (.start first)).Tidy := by
  cases hrun : m.task.running with
  | true =>
    simp only [TaskMachine.step, Task.begin, hrun, if_true]
    exact ⟨h.single, h.idle, nofun⟩
  | false =>
    have hchains : m.chains = [] := hok.resolve_left (by simp [hrun])
    have hpending : m.task.pending = [] := h.idle hrun
    simp only [TaskMachine.step, Task.begin, hrun, Bool.false_eq_true, if_false]
    refine ⟨⟨?_, ?_⟩, nofun, nofun⟩
    · simp [hchains, hpending]
    · simp [hpending]

theorem close (h : m.Tidy) (hok : Orderly m .close) : (m.step .close).Tidy := by
  obtain ⟨hcount, htimer⟩ := h.single
  have hpending : m.task.close.pending = [] := Task.pending_close (by omega) htimer
  refine ⟨⟨?_, ?_⟩, fun _ => hpending, fun _ => ⟨Task.running_close _, hok⟩⟩
  · show m.task.close.pending.length + m.chains.length ≤ 1
    rw [hpending, List.length_nil]
    omega
  · show ∀ id ∈ m.task.close.pending, m.task.close.timer = some id
    simp [hpending]

/-- A timer that fires hands its place over to a goroutine. -/
theorem fire (h : m.Tidy) (id : ℕ) : (m.step (.fire id)).Tidy := by
  simp only [TaskMachine.step]
  split_ifs with hid
  · obtain ⟨hcount, htimer⟩ := h.single
    have hpos : 0 < m.task.pending.length := List.length_pos_of_mem hid
    have hlen : (m.task.pending.erase id).length = m.task.pending.length - 1 :=
      List.length_erase_of_mem hid
    refine ⟨⟨?_, fun x hx => htimer x (List.mem_of_mem_erase hx)⟩, fun hrun => ?_,
      fun hclosed => ?_⟩
    · show (m.task.pending.erase id).length + (m.chains ++ [_]).length ≤ 1
      rw [List.length_append, List.length_singleton]
      omega
    · show m.task.pending.erase id = []
      rw [h.idle hrun, List.erase_nil]
    · refine ⟨(h.silent hclosed).1, fun hmem => ?_⟩
      rcases List.mem_append.mp hmem with hmem | hmem
      · exact (h.silent hclosed).2 hmem
      · simp at hmem
  · exact h

/-- A goroutine leaves `checkedExecute` without a timer. -/
theorem leave (h : m.Tidy) (i : ℕ) : TaskMachine.Tidy { m with chains := m.chains.eraseIdx i } := by
  have hlen : (m.chains.eraseIdx i).length ≤ m.chains.length := List.length_eraseIdx_le ..
  refine ⟨⟨?_, h.single.2⟩, h.idle, fun hclosed => ⟨(h.silent hclosed).1, fun hmem => ?_⟩⟩
  · show m.task.pending.length + (m.chains.eraseIdx i).length ≤ 1
    exact Nat.le_trans (Nat.add_le_add_left hlen _) h.single.1
  · exact (h.silent hclosed).2 (List.mem_of_mem_eraseIdx hmem)

/-- The second critical section hands the place of the goroutine over to the next timer. -/
theorem reschedule (h : m.Tidy) {i : ℕ} (hi : i < m.chains.length) :
    TaskMachine.Tidy { m with task := m.task.schedule, chains := m.chains.eraseIdx i } := by
  unfold Task.schedule
  split_ifs with hrun
  · have hcount := h.single.1
    have hpending : m.task.pending = [] := List.length_eq_zero_iff.mp (by omega)
    have hlen : (m.chains.eraseIdx i).length = m.chains.length - 1 :=
      List.length_eraseIdx_of_lt hi
    refine ⟨⟨?_, ?_⟩, fun hrun' => ?_, fun hclosed => ?_⟩
    · show (m.task.pending ++ [m.task.next]).length + (m.chains.eraseIdx i).length ≤ 1
      rw [hpending, List.nil_append, List.length_singleton]
      omega
    · intro id hmem
      have hid : id = m.task.next := by simpa [Task.afterFunc, hpending] using hmem
      rw [hid]
      rfl
    · exact absurd (hrun.symm.trans hrun') (by decide)
    · exact absurd (hrun.symm.trans (h.silent hclosed).1) (by decide)
  · exact h.leave i

theorem stepAt (h : m.Tidy) (i : ℕ) : (m.step (.step i)).Tidy := by
  simp only [TaskMachine.step]
  split
  · exact h
  · rename_i first hchain
    split_ifs with hclosed
    · exact h.leave i
    · have hrun : m.task.running ≠ false := by simpa [Task.hasClosed] using hclosed
      refine ⟨⟨?_, h.single.2⟩, h.idle, fun hc => absurd (h.silent hc).1 hrun⟩
      show m.task.pending.length + (m.chains.set i _).length ≤ 1
      rw [List.length_set]
      exact h.single.1
  · rename_i first hchain
    have hi : i < m.chains.length := (List.getElem?_eq_some_iff.mp hchain).1
    simp only [Task.executed, ite_self]
    exact h.reschedule hi

theorem step (h : m.Tidy) (e : TaskEvent) (hok : Orderly m e) : (m.step e).Tidy := by
  cases e with
  | start first => exact h.start hok
  | close => exact h.close hok
  | fire id => exact h.fire id
  | step i => exact h.stepAt i

/-- An `Execute` does not begin between a `Close` and the next `Start`. -/
theorem not_closed_of_begins (h : m.Tidy) {e : TaskEvent} (hbegins : m.Begins e) :
    m.closed = false := by
  cases e with
  | step i =>
    by_contra hclosed
    exact (h.silent (by simpa using hclosed)).2 (List.mem_of_getElem? hbegins)
  | _ => exact hbegins.elim

end TaskMachine.Tidy

/-- **One chain, and silence after `Close`.** In an orderly run from a new task there is at every
moment at most one pending timer or goroutine in `checkedExecute`, the pending timer is the stored
one, and no `Execute` begins after `Close` has returned and before the next `Start`. -/
theorem single_and_silent_of_orderly (es : List TaskEvent)
    (h : Guarded TaskMachine.step Orderly {} es) :
    (∀ p q, es = p ++ q → (p.foldl TaskMachine.step {}).Single) ∧
      ∀ p e q, es = p ++ e :: q → (p.foldl TaskMachine.step {}).Begins e →
        (p.foldl TaskMachine.step {}).closed = false := by
  have htidy (p q : List TaskEvent) (hes : es = p ++ q) : (p.foldl TaskMachine.step {}).Tidy := by
    have hnew : TaskMachine.Tidy {} :=
      ⟨⟨Nat.zero_le 1, by simp⟩, fun _ => rfl, nofun⟩
    exact Guarded.invariant (fun m e hm hok => hm.step e hok) hnew (hes ▸ h).of_append
  exact ⟨fun p q hes => (htidy p q hes).single,
    fun p e q hes hbegins => (htidy p (e :: q) hes).not_closed_of_begins hbegins⟩

/-- A task is started, its timer fires, and the goroutine sees that the task is running; then the
given steps follow. -/
def callbackThen (es : List TaskEvent) : List TaskEvent :=
  .start false :: .step 0 :: .step 0 :: .fire 0 :: .step 0 :: es

/-- The goroutine finishes before the task is closed and started again. -/
theorem callbackThen_single :
    Guarded TaskMachine.step Orderly {} (callbackThen [.step 0, .close, .start false]) ∧
      ((callbackThen [.step 0, .close, .start false]).foldl TaskMachine.step {}).Single := by
  have hrun : Guarded TaskMachine.step Orderly {}
      (callbackThen [.step 0, .close, .start false]) := by decide
  exact ⟨hrun, (single_and_silent_of_orderly _ hrun).1 _ [] (List.append_nil _).symm⟩

/-- The goroutine is overtaken. After a `Close` it begins to run `Execute`; after a `Close` and a
`Start` it leaves a second pending timer, and only one of them is stored. -/
theorem callbackThen_not_single :
    let closed := (callbackThen [.close]).foldl TaskMachine.step {}
    let restarted := (callbackThen [.close, .start false, .step 1, .step 1, .step 0]).foldl
      TaskMachine.step {}
    (closed.Begins (.step 0) ∧ closed.closed = true) ∧
      restarted.task.pending = [1, 2] ∧ restarted.task.timer = some 2 ∧ ¬ restarted.Single := by
  refine ⟨⟨rfl, rfl⟩, by decide, by decide, fun hsingle => ?_⟩
  exact absurd hsingle.1 (by decide)

end Tox.Periodic
