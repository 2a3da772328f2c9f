import Mathlib
import Tox.Common.Task
import Tox.Foundation.Mutex
import Tox.Node.Controller

/-!
# The periodic tasks of a controller and their locks

A controller runs `nodeInfoMonitor`, `reportUserTrafficTask` and, for some certificates,
`renewCertTask` as periodic tasks. `checkedExecute` holds the lock of the task while it runs
`Execute`, and the lock is not reentrant. When a reload meets a new pull interval, `nodeInfoMonitor`
closes and starts its own task: the goroutine then waits for the lock that it holds.

The goroutines of a controller are threads in the sense of `Tox.Foundation.Threads`: the timer
callbacks, the start of the tasks and the calls of `Controller.Close`. An action of a thread is what
happens between two commands on a lock, and `Execute` is an action that is replaced by what the task
does to the tasks. No goroutine locks a task that it has locked already if and only if no tick
brings a new pull interval as far as the comparison of the intervals (`never_selfLock_iff`).
-/

namespace Tox.Node

open Tox.Foundation Tox.Core Tox.Limit Tox.Panel Tox.Periodic

/-! ### The code of the goroutines -/

/-- The periodic tasks of a controller. -/
inductive TaskName
  | nodeInfoMonitor
  | userReport
  | renewCert
  | dynamicSpeedLimit
deriving DecidableEq, Repr

/-- What a goroutine does between two commands on the lock of a task. -/
inductive TaskAction
  /-- The critical section of `Start`. -/
  | begin (t : TaskName) (first : Bool)
  /-- The critical section of `hasClosed`. -/
  | checkClosed (t : TaskName) (first : Bool)
  /-- The second critical section of `checkedExecute`. -/
  | enter (t : TaskName) (first : Bool)
  | execute (t : TaskName)
  | schedule (t : TaskName)
  /-- The critical section of `Close`. -/
  | close (t : TaskName)
  | deleteLimiter
  | delNode
deriving DecidableEq, Repr

/-- The commands that a goroutine has still to run. -/
abbrev TaskCode := List (Command TaskName TaskAction)

/-- `Task.checkedExecute`. -/
def checkedExecute (t : TaskName) (first : Bool) : TaskCode :=
  [.lock t, .act (.checkClosed t first)]

/-- `Task.Start`. -/
def startTask (t : TaskName) (first : Bool) : TaskCode := [.lock t, .act (.begin t first)]

/-- `Task.Close`. -/
def closeTask (t : TaskName) : TaskCode := [.lock t, .act (.close t), .unlock t]

/-- A task is closed and started again, if its interval is to change. -/
def restartTask (changed : Bool) (t : TaskName) : TaskCode :=
  if changed then closeTask t ++ startTask t false else []

/-- The controller, its tasks and the panic that has ended the program, if any. -/
structure TaskState where
  controller : Controller
  tasks : TaskName → Task := fun _ => {}
  /-- `renewCertPeriodic` has been created. -/
  renewCert : Bool := false
  crashed : Option PanicKind := none

def TaskState.setTask (s : TaskState) (t : TaskName) (task : Task) : TaskState :=
  { s with tasks := Function.update s.tasks t task }

/-- Whether `startTasks` creates the task that renews the certificate. -/
def renewsCert (o : Options) (node : NodeInfo) : Bool :=
  if node.security = Security.tls then
    match o.certConfig.certMode with
    | .none | .file | .self => false
    | .dns | .http | .other _ => true
  else false

/-- `Controller.startTasks`. The task for dynamic speed limits is created but not started. -/
def startTasks (o : Options) (node : NodeInfo) : TaskCode :=
  startTask .nodeInfoMonitor false ++ startTask .userReport false ++
    if renewsCert o node then startTask .renewCert true else []

/-- `Controller.Close`. -/
def closeController (o : Options) (renewCert : Bool) : TaskCode :=
  .act .deleteLimiter :: closeTask .nodeInfoMonitor ++ closeTask .userReport ++
    (if renewCert then closeTask .renewCert else []) ++
    (if o.limitConfig.enableDynamicSpeedLimit then closeTask .dynamicSpeedLimit else []) ++
    [.act .delNode]

/-- The settings with which a tick gets as far as comparing the intervals. -/
def Controller.intervalCheck (lib : Library) (o : Options) (c : Controller) (input : TickInput) :
    Option NodeInfo :=
  match (fetch lib c.apiClient input).2 with
  | .ok (some newN, _, _) =>
    if input.delNode = none ∧ newN.rules.regexp.all lib.compiles = true ∧
        nodeCert o newN input.cert = none ∧ input.addNode = none ∧ input.addUsers = .ok then
      some newN
    else none
  | _ => none

/-- What a tick does to the tasks. -/
def tickRestarts (lib : Library) (o : Options) (c : Controller) (input : TickInput) : TaskCode :=
  match c.intervalCheck lib o input with
  | none => []
  | some newN =>
    restartTask (c.monitorInterval ≠ newN.pullInterval ∧ newN.pullInterval ≠ 0) .nodeInfoMonitor ++
      restartTask (c.reportInterval ≠ newN.pushInterval ∧ newN.pushInterval ≠ 0) .userReport

/-- The function of a task. The report and the renewal of the certificate do not touch the tasks,
and all of them return nil. -/
def executeTask (lib : Library) (o : Options) (s : TaskState) (input : TickInput) :
    TaskName → TaskState × TaskCode
  | .nodeInfoMonitor =>
    match s.controller.nodeInfoMonitor lib o input with
    | (c, .crashed k) => ({ s with controller := c, crashed := some k }, [])
    | (c, _) => ({ s with controller := c }, tickRestarts lib o s.controller input)
  | .userReport | .renewCert | .dynamicSpeedLimit => (s, [])

/-- An action, and the commands that follow it. -/
def performAction (lib : Library) (o : Options) (s : TaskState) (input : TickInput) :
    TaskAction → TaskState × TaskCode
  | .begin t first =>
    match (s.tasks t).begin with
    | (task, true) => (s.setTask t task, .unlock t :: checkedExecute t first)
    | (_, false) => (s, [.unlock t])
  | .checkClosed t first =>
    (s, if (s.tasks t).hasClosed then [.unlock t]
      else [.unlock t, .lock t, .act (.enter t first)])
  | .enter t first =>
    (s, (if first then [.act (.execute t)] else []) ++ [.act (.schedule t), .unlock t])
  | .execute t => executeTask lib o s input t
  | .schedule t => (s.setTask t (s.tasks t).schedule, [])
  | .close t => (s.setTask t (s.tasks t).close, [])
  | .deleteLimiter =>
    let c := s.controller
    ({ s with controller := { c with limiters := c.limiters.deleteLimiter c.tag } }, [])
  | .delNode =>
    let c := s.controller
    match input.delNode with
    | some _ => (s, [])
    | none => ({ s with controller := { c with core := c.core.delNode c.tag } }, [])

/-- The events that start a goroutine. -/
inductive TaskTrigger
  /-- A pending timer of a task fires. -/
  | fire (t : TaskName) (id : ℕ)
  /-- The controller is closed. -/
  | close
deriving DecidableEq, Repr

/-- The goroutines that an event starts. -/
def trigger (o : Options) (s : TaskState) : TaskTrigger → TaskState × List TaskCode
  | .fire t id =>
    if id ∈ (s.tasks t).pending then
      (s.setTask t ((s.tasks t).stop id), [checkedExecute t true])
    else (s, [])
  | .close => (s, [closeController o s.renewCert])

/-- The goroutines of a controller. -/
def controllerProgram (lib : Library) (o : Options) :
    Program TaskName TaskAction TaskState TickInput TaskTrigger where
  perform := performAction lib o
  environment := trigger o
  halted s := s.crashed.isSome

/-- A controller that has come to `startTasks`. -/
def startedThreads (o : Options) (c : Controller) : Threads TaskName TaskAction TaskState where
  shared := { controller := c, renewCert := renewsCert o c.info }
  code := [startTasks o c.info]

/-! ### Ticks that restart their own task -/

/-- The tick restarts `nodeInfoMonitor`. -/
def Controller.ChangesPullInterval (lib : Library) (o : Options) (c : Controller)
    (input : TickInput) : Prop :=
  ∃ newN, c.intervalCheck lib o input = some newN ∧
    c.monitorInterval ≠ newN.pullInterval ∧ newN.pullInterval ≠ 0

theorem checkIntervals_blocked_iff (c : Controller) (newN : NodeInfo) :
    (c.checkIntervals newN).2 = .blocked ↔
      c.monitorInterval ≠ newN.pullInterval ∧ newN.pullInterval ≠ 0 := by
  unfold Controller.checkIntervals
  split_ifs with hpull hpush
  · exact iff_of_true rfl hpull
  · exact iff_of_false (by simp) hpull
  · exact iff_of_false (by simp) hpull

/-- The intervals are those of `c`, and the tick does not block. -/
def Controller.KeepsIntervals (c : Controller) (r : Controller × Status) : Prop :=
  r.1.monitorInterval = c.monitorInterval ∧ r.1.reportInterval = c.reportInterval ∧
    r.2 ≠ .blocked

/-- The settings are compared when the node has been added with all users. -/
theorem installNode_eq_checkIntervals {input : TickInput} (hadd : input.addNode = none)
    (husers : input.addUsers = .ok) (c : Controller) (newN : NodeInfo) :
    ∃ core, c.installNode newN input = Controller.checkIntervals { c with core := core } newN := by
  have hnode : (c.core.addNode c.tag newN).lookup c.tag = some { info := newN } :=
    Finmap.lookup_insert _
  simp only [Controller.installNode, hadd, husers, Installation.addUsers,
    Installation.updateUsers, hnode]
  exact ⟨_, rfl⟩

theorem installNode_keepsIntervals {input : TickInput}
    (h : ¬ (input.addNode = none ∧ input.addUsers = .ok)) (c : Controller) (newN : NodeInfo) :
    c.KeepsIntervals (c.installNode newN input) := by
  unfold Controller.installNode
  cases hadd : input.addNode with
  | some err => exact ⟨rfl, rfl, by simp⟩
  | none =>
    have hnode : (c.core.addNode c.tag newN).lookup c.tag = some { info := newN } :=
      Finmap.lookup_insert _
    cases husers : input.addUsers with
    | ok => exact absurd ⟨hadd, husers⟩ h
    | failed left =>
      simp only [Installation.addUsers, Installation.updateUsers, hnode]
      exact ⟨rfl, rfl, by simp⟩

theorem renewLimiter_intervals (o : Options) (c : Controller) (newN : NodeInfo)
    (newA : Option (GoMap ℤ ℤ)) :
    (c.renewLimiter o newN newA).monitorInterval = c.monitorInterval ∧
      (c.renewLimiter o newN newA).reportInterval = c.reportInterval := by
  unfold Controller.renewLimiter
  split_ifs <;> exact ⟨rfl, rfl⟩

theorem beforeInstall_intervals (o : Options) (c : Controller) (newN : NodeInfo)
    (newU : Option (List UserInfo)) (newA : Option (GoMap ℤ ℤ)) :
    (Controller.beforeInstall o c newN newU newA).monitorInterval = c.monitorInterval ∧
      (Controller.beforeInstall o c newN newU newA).reportInterval = c.reportInterval :=
  renewLimiter_intervals o
    { c.takeOver newN newU with core := (c.takeOver newN newU).core.delNode c.tag } newN newA

/-- A reload that does not come to the new node keeps the intervals. -/
theorem reload_keepsIntervals {lib : Library} {o : Options} {newN : NodeInfo} {input : TickInput}
    (h : ¬ (input.delNode = none ∧ newN.rules.regexp.all lib.compiles = true ∧
      nodeCert o newN input.cert = none)) (c : Controller) (newU : Option (List UserInfo))
    (newA : Option (GoMap ℤ ℤ)) : c.KeepsIntervals (c.reload lib o newN newU newA input) := by
  obtain ⟨hmonitor, hreport⟩ := renewLimiter_intervals o
    { c.takeOver newN newU with core := (c.takeOver newN newU).core.delNode c.tag } newN newA
  unfold Controller.reload LimiterStore.updateRule
  dsimp only
  split
  · exact ⟨rfl, rfl, by simp⟩
  split
  · exact ⟨hmonitor, hreport, by simp⟩
  · rename_i hdel _ limiters hrules
    split
    · exact ⟨hmonitor, hreport, by simp⟩
    · rename_i hcert
      refine absurd ⟨hdel, ?_, hcert⟩ h
      split_ifs at hrules with hall
      exact hall

theorem syncUsers_keepsIntervals (o : Options) (c : Controller) (newU : Option (List UserInfo))
    (newA : Option (GoMap ℤ ℤ)) (input : TickInput) :
    c.KeepsIntervals (c.syncUsers o newU newA input, .running) := by
  unfold Controller.syncUsers
  dsimp only
  split_ifs <;> exact ⟨rfl, rfl, by simp⟩

/-- **Ticks that do not come to the intervals** keep them. -/
theorem nodeInfoMonitor_keepsIntervals {lib : Library} {o : Options} {c : Controller}
    {input : TickInput} (h : c.intervalCheck lib o input = none) :
    c.KeepsIntervals (c.nodeInfoMonitor lib o input) := by
  unfold Controller.intervalCheck at h
  unfold Controller.nodeInfoMonitor
  rcases hfetch : fetch lib c.apiClient input with ⟨client, (e | k) | ⟨_ | newN, newU, newA⟩⟩
  · exact ⟨rfl, rfl, by simp⟩
  · exact ⟨rfl, rfl, by simp⟩
  · exact syncUsers_keepsIntervals o { c with apiClient := client } newU newA input
  · simp only [hfetch, ite_eq_right_iff, reduceCtorEq, imp_false] at h
    by_cases hready : input.delNode = none ∧ newN.rules.regexp.all lib.compiles = true ∧
        nodeCert o newN input.cert = none
    · obtain ⟨hdel, hrules, hcert⟩ := hready
      obtain ⟨hmonitor, hreport⟩ :=
        beforeInstall_intervals o { c with apiClient := client } newN newU newA
      dsimp only
      rw [Controller.reload_eq_installNode hdel hrules hcert]
      obtain ⟨hmonitor', hreport', hstatus⟩ := installNode_keepsIntervals
        (fun hinstall => h ⟨hdel, hrules, hcert, hinstall⟩) (Controller.beforeInstall o _ newN _ _)
        newN
      exact ⟨hmonitor'.trans hmonitor, hreport'.trans hreport, hstatus⟩
    · exact reload_keepsIntervals hready { c with apiClient := client } newU newA

/-- **Ticks that come to the intervals** end with comparing them. -/
theorem nodeInfoMonitor_eq_checkIntervals {lib : Library} {o : Options} {c : Controller}
    {input : TickInput} {newN : NodeInfo} (h : c.intervalCheck lib o input = some newN) :
    ∃ c' : Controller, c'.monitorInterval = c.monitorInterval ∧
      c'.reportInterval = c.reportInterval ∧
      c.nodeInfoMonitor lib o input = c'.checkIntervals newN := by
  unfold Controller.intervalCheck at h
  unfold Controller.nodeInfoMonitor
  rcases hfetch : fetch lib c.apiClient input with ⟨client, e | ⟨_ | newN', newU, newA⟩⟩
  · simp [hfetch] at h
  · simp [hfetch] at h
  · simp only [hfetch] at h
    split_ifs at h with hready
    obtain ⟨hdel, hrules, hcert, hadd, husers⟩ := hready
    obtain rfl := Option.some.inj h
    obtain ⟨core, hinstall⟩ := installNode_eq_checkIntervals hadd husers
      (Controller.beforeInstall o { c with apiClient := client } newN' newU newA) newN'
    obtain ⟨hmonitor, hreport⟩ :=
      beforeInstall_intervals o { c with apiClient := client } newN' newU newA
    refine ⟨_, ?_, ?_, (Controller.reload_eq_installNode hdel hrules hcert _ _ _).trans hinstall⟩
    · exact hmonitor
    · exact hreport

/-- **Ticks that block.** A tick blocks exactly when it restarts the task that it runs in. -/
theorem nodeInfoMonitor_blocked_iff (lib : Library) (o : Options) (c : Controller)
    (input : TickInput) :
    (c.nodeInfoMonitor lib o input).2 = .blocked ↔ c.ChangesPullInterval lib o input := by
  unfold Controller.ChangesPullInterval
  cases hcheck : c.intervalCheck lib o input with
  | none =>
    obtain ⟨-, -, hstatus⟩ := nodeInfoMonitor_keepsIntervals hcheck
    exact iff_of_false hstatus (by simp)
  | some newN =>
    obtain ⟨c', hmonitor, -, htick⟩ := nodeInfoMonitor_eq_checkIntervals hcheck
    rw [htick, checkIntervals_blocked_iff, hmonitor]
    simp

/-! ### The lock discipline of the tasks -/

/-- A critical section is entered with the lock of its task and left without it. A goroutine that
may run `Execute` holds no other lock, for `Execute` may restart other tasks. -/
def lockDiscipline : Discipline TaskName TaskAction where
  pre
    | .begin t first, H | .checkClosed t first, H | .enter t first, H =>
      t ∈ H ∧ (first = true → H = {t})
    | .execute t, H => H = {t}
    | .schedule _, _ | .close _, _ | .deleteLimiter, _ | .delNode, _ => True
  post
    | .begin t _, H | .checkClosed t _, H | .enter t _, H => H.erase t
    | .execute _, H | .schedule _, H | .close _, H | .deleteLimiter, H | .delNode, H => H

/-- The tick does not restart the task that it runs in. -/
def KeepsPullInterval (lib : Library) (o : Options) (s : TaskState) (input : TickInput)
    (a : TaskAction) : Prop :=
  a = .execute .nodeInfoMonitor → ¬ s.controller.ChangesPullInterval lib o input

theorem leads_closeTask {t : TaskName} {H : Finset TaskName} (ht : t ∉ H) :
    Leads lockDiscipline H (closeTask t) H :=
  ⟨ht, trivial, Finset.mem_insert_self t H, Finset.erase_insert ht⟩

/-- A task may be started by a goroutine that holds other locks, if it does not run `Execute` at
once. -/
theorem leads_startTask {t : TaskName} {first : Bool} {H : Finset TaskName} (ht : t ∉ H)
    (hfirst : first = true → H = ∅) : Leads lockDiscipline H (startTask t first) H := by
  refine ⟨ht, ⟨Finset.mem_insert_self t H, fun h => ?_⟩, Finset.erase_insert ht⟩
  rw [hfirst h]
  rfl

theorem leads_restartTask (changed : Bool) {t : TaskName} {H : Finset TaskName} (ht : t ∉ H) :
    Leads lockDiscipline H (restartTask changed t) H := by
  unfold restartTask
  split_ifs
  · exact (leads_closeTask ht).append (leads_startTask ht nofun)
  · rfl

/-- A goroutine that gives up the lock of a task may lock the task again. -/
theorem leads_relock {t : TaskName} {a : TaskAction} {H : Finset TaskName} (ht : t ∈ H)
    (hpre : lockDiscipline.pre a H) :
    Leads lockDiscipline H [.unlock t, .lock t, .act a] (lockDiscipline.post a H) := by
  refine ⟨ht, Finset.notMem_erase t H, ?_, ?_⟩
  · rwa [Finset.insert_erase ht]
  · rw [Finset.insert_erase ht]
    rfl

/-- A tick that does not restart its own task keeps to the discipline. -/
theorem leads_executeTask {lib : Library} {o : Options} {s : TaskState} {input : TickInput}
    {t : TaskName} (hkeeps : KeepsPullInterval lib o s input (.execute t)) :
    Leads lockDiscipline {t} (executeTask lib o s input t).2 {t} := by
  cases t with
  | nodeInfoMonitor =>
    have hrestarts : Leads lockDiscipline {TaskName.nodeInfoMonitor}
        (tickRestarts lib o s.controller input) {TaskName.nodeInfoMonitor} := by
      unfold tickRestarts
      split
      · rfl
      · rename_i newN hcheck
        have hpull : ¬ (s.controller.monitorInterval ≠ newN.pullInterval ∧ newN.pullInterval ≠ 0) :=
          fun h => hkeeps rfl ⟨newN, hcheck, h⟩
        simp only [hpull, decide_false, restartTask, Bool.false_eq_true, if_false, List.nil_append]
        exact leads_restartTask _ (by decide)
    simp only [executeTask]
    split
    · rfl
    · exact hrestarts
  | userReport | renewCert | dynamicSpeedLimit => rfl

theorem leads_performAction {lib : Library} {o : Options} {s : TaskState} {input : TickInput}
    {a : TaskAction} {H : Finset TaskName} (hpre : lockDiscipline.pre a H)
    (hkeeps : KeepsPullInterval lib o s input a) :
    Leads lockDiscipline H (performAction lib o s input a).2 (lockDiscipline.post a H) := by
  cases a with
  | begin t first =>
    simp only [performAction]
    split
    · exact leads_relock (a := .checkClosed t first) hpre.1 hpre
    · exact ⟨hpre.1, rfl⟩
  | checkClosed t first =>
    simp only [performAction]
    split_ifs
    · exact ⟨hpre.1, rfl⟩
    · exact leads_relock (a := .enter t first) hpre.1 hpre
  | enter t first =>
    cases first with
    | true => exact ⟨hpre.2 rfl, trivial, hpre.1, rfl⟩
    | false => exact ⟨trivial, hpre.1, rfl⟩
  | execute t =>
    obtain rfl : H = {t} := hpre
    exact leads_executeTask hkeeps
  | schedule t | close t | deleteLimiter => rfl
  | delNode =>
    simp only [performAction]
    split <;> rfl

theorem leads_closeController (o : Options) (renewCert : Bool) :
    Leads lockDiscipline ∅ (closeController o renewCert) ∅ := by
  have hclose (t : TaskName) : Leads lockDiscipline ∅ (closeTask t) ∅ :=
    leads_closeTask (Finset.notMem_empty t)
  have hif (b : Bool) (t : TaskName) :
      Leads lockDiscipline ∅ (if b then closeTask t else []) ∅ := by
    split_ifs
    · exact hclose t
    · rfl
  have hdel : Leads lockDiscipline ∅ [.act TaskAction.delNode] ∅ := ⟨trivial, rfl⟩
  have hbegin : Leads lockDiscipline ∅ (.act .deleteLimiter :: closeTask .nodeInfoMonitor) ∅ :=
    ⟨trivial, hclose .nodeInfoMonitor⟩
  exact (((hbegin.append (hclose .userReport)).append (hif _ _)).append (hif _ _)).append hdel

theorem leads_startTasks (o : Options) (node : NodeInfo) :
    Leads lockDiscipline ∅ (startTasks o node) ∅ := by
  have hstart (t : TaskName) (first : Bool) : Leads lockDiscipline ∅ (startTask t first) ∅ :=
    leads_startTask (Finset.notMem_empty t) fun _ => rfl
  refine ((hstart _ _).append (hstart _ _)).append ?_
  split_ifs
  · exact hstart _ _
  · rfl

theorem controllerProgram_respects (lib : Library) (o : Options) :
    (controllerProgram lib o).Respects lockDiscipline (KeepsPullInterval lib o) where
  perform s input a H hpre hkeeps := leads_performAction hpre hkeeps
  environment s e code hcode := by
    cases e with
    | fire t id =>
      simp only [controllerProgram, trigger] at hcode
      split_ifs at hcode
      · obtain rfl := List.mem_singleton.mp hcode
        exact ⟨Finset.notMem_empty t, ⟨Finset.mem_insert_self t ∅, fun _ => rfl⟩,
          Finset.erase_insert (Finset.notMem_empty t)⟩
      · cases hcode
    | close =>
      obtain rfl := List.mem_singleton.mp hcode
      exact leads_closeController o s.renewCert

/-! ### No goroutine waits for itself -/

theorem startedThreads_disciplined (o : Options) (c : Controller) :
    (startedThreads o c).Disciplined lockDiscipline where
  leads i code hcode := by
    obtain rfl := List.mem_singleton.mp (List.mem_of_getElem? hcode)
    exact ⟨∅, by simp [startedThreads], leads_startTasks o c.info⟩
  holder_lt t i h := by cases h

/-- A tick that changes the pull interval leaves its goroutine waiting for itself. -/
theorem selfLock_of_not_admitted {lib : Library} {o : Options}
    {s : Threads TaskName TaskAction TaskState} (h : s.Disciplined lockDiscipline)
    {e : ThreadEvent TickInput TaskTrigger}
    (hnot : ¬ Threads.Admitted (controllerProgram lib o) (KeepsPullInterval lib o) s e) :
    ∃ i t, (s.step (controllerProgram lib o) e).SelfLock i t := by
  cases e with
  | environment e => exact absurd trivial hnot
  | run i input =>
    simp only [Threads.Admitted, KeepsPullInterval, not_forall, not_not] at hnot
    obtain ⟨hhalted, a, rest, hcode, rfl, hchange⟩ := hnot
    have hi : i < s.code.length := (List.getElem?_eq_some_iff.mp hcode).1
    obtain ⟨H, hH, hleads⟩ := h.leads i _ hcode
    have hheld : s.holder .nodeInfoMonitor = some i :=
      (hH _).mp ((show H = {TaskName.nodeInfoMonitor} from hleads.1) ▸ Finset.mem_singleton_self _)
    have hblocked := (nodeInfoMonitor_blocked_iff lib o s.shared.controller input).mpr hchange
    obtain ⟨newN, hcheck, hpull⟩ := hchange
    obtain ⟨more, hrestarts⟩ : ∃ more,
        (executeTask lib o s.shared input .nodeInfoMonitor).2 = .lock .nodeInfoMonitor :: more := by
      simp only [executeTask]
      split
      · rename_i c k htick
        rw [htick] at hblocked
        cases hblocked
      · simp only [tickRestarts, hcheck, decide_eq_true hpull]
        exact ⟨_, rfl⟩
    rw [Threads.step_run_act hhalted hcode]
    refine ⟨i, .nodeInfoMonitor, ⟨more ++ rest, ?_⟩, hheld⟩
    simp only [controllerProgram, performAction, hrestarts]
    exact List.getElem?_set_self hi

/-- **No task waits for itself, as long as the pull interval is kept.** In a run of the goroutines
of a controller no goroutine comes to lock a task that it holds if and only if no tick restarts its
own task. -/
theorem never_selfLock_iff (lib : Library) (o : Options) (c : Controller)
    (es : List (ThreadEvent TickInput TaskTrigger)) :
    (∀ p q, es = p ++ q → ∀ i t,
      ¬ (p.foldl (Threads.step (controllerProgram lib o)) (startedThreads o c)).SelfLock i t) ↔
    Guarded (Threads.step (controllerProgram lib o))
      (Threads.Admitted (controllerProgram lib o) (KeepsPullInterval lib o))
      (startedThreads o c) es := by
  have hsafe (s : Threads TaskName TaskAction TaskState) (hs : s.Disciplined lockDiscipline) :
      ∀ i t, ¬ s.SelfLock i t := hs.not_selfLock
  refine (Guarded.iff_forall_safe hsafe (fun s e _ hs hok => ?_) (fun s e _ hs hnot hself => ?_)
    (startedThreads_disciplined o c)).symm
  · exact hs.step (controllerProgram_respects lib o) e hok
  · obtain ⟨i, t, hbad⟩ := selfLock_of_not_admitted hs hnot
    exact hself i t hbad

/-- The small panel with a third byte for the pull interval. -/
def intervalLibrary : Library where
  codec :=
    { sampleLibrary.codec with
      unmarshalVAllss := fun body => .ok
        { sampleSettings body with
          baseConfig := some
            { pushInterval := .number 60, pullInterval := .number (body.getD 2 0).toNat } } }
  compiles := fun _ => true

/-- The start of a controller with a pull interval of 60 seconds. -/
def intervalStart : Except StartFailure Controller :=
  Controller.start intervalLibrary {} sampleClient ∅ {}
    { node := answer [0, 80, 60] "a", users := answer [] "u", alive := notModified }

/-- The tasks are started, the timer of the monitor fires, and the goroutine runs a tick with new
settings. -/
def intervalTick (pull : UInt8) : List (ThreadEvent TickInput TaskTrigger) :=
  let input : TickInput :=
    { node := answer [0, 81, pull] "b", users := notModified, alive := notModified }
  List.replicate 20 (.run 0 input) ++ .environment (.fire .nodeInfoMonitor 0) ::
    List.replicate 6 (.run 1 input)

/-- The tick with another pull interval locks its own task again. -/
theorem intervalTick_selfLock :
    ∃ c, intervalStart = .ok c ∧
      ((intervalTick 30).foldl (Threads.step (controllerProgram intervalLibrary {}))
        (startedThreads {} c)).SelfLock 1 .nodeInfoMonitor := by
  exact ⟨_, rfl, ⟨_, rfl⟩, rfl⟩

end Tox.Node
