import Tox.Core.SingHook
import Tox.Node.Controller

/-!
# The steps of a node's life

`Controller.Start`, the branch of `nodeInfoMonitor` for new settings and `Controller.Close` change
what all nodes of the program share: the inbounds of the sing core and the registered limiters. Here
each of the three is taken apart into the calls that it makes, so that the calls of several nodes,
and of the periodic task and the close of one node, can happen in any order.

The replies of the panel and the outcomes of the core calls are inputs. Nothing more happens after a
panic. A tick can be started whenever the tasks of the node have been started, also after the close
has stopped them, because the check whether the task is closed and the tick itself are two critical
sections; the close waits for a tick in progress. A tick that finds no new settings makes none of
the calls, and neither does the rest of a tick after the users have been added.

Beside the state of the program stands the last thing that was done to the limiter of each tag.
-/

namespace Tox.Node

open Tox.Foundation Tox.Core Tox.Format Tox.Limit Tox.Panel

/-! ### The program -/

/-- The last thing that was done to the limiter of a tag. -/
inductive Registration
  /-- `AddLimiter`, by a start or a reload. -/
  | added
  /-- `DeleteLimiter` of a reload, which is going to add another one. -/
  | replaced
  /-- `DeleteLimiter` of a close. -/
  | closed
deriving DecidableEq, Repr

/-- What the nodes of the program share. -/
structure Shared where
  sing : Sing := {}
  limiters : LimiterStore := {}
  /-- What was done last to the limiter of each tag. -/
  history : GoMap String Registration := ∅
  /-- A panic has ended the program. -/
  crashed : Bool := false

namespace Shared

/-- `AddLimiter`. -/
def addLimiter (s : Shared) (tag : String) (conf : LimitConfig) (users : List UserInfo)
    (alive : GoMap ℤ ℤ) : Shared × ℕ :=
  let (limiters, l) := s.limiters.addLimiter tag conf users alive
  ({ s with limiters := limiters, history := s.history.insert tag .added }, l)

/-- `DeleteLimiter`. -/
def deleteLimiter (s : Shared) (tag : String) (r : Registration) : Shared :=
  { s with limiters := s.limiters.deleteLimiter tag, history := s.history.insert tag r }

/-- A panic. -/
def crash (s : Shared) : Shared := { s with crashed := true }

end Shared

/-! ### The life of a node -/

/-- The next call of `Controller.Start`. -/
inductive StartStep
  | addLimiter
  /-- With the pointer that `AddLimiter` has returned. -/
  | updateRule (l : ℕ)
  | requestCert
  | addNode
  | addUsers
deriving DecidableEq, Repr

/-- The next call of `nodeInfoMonitor` with new settings. -/
inductive ReloadStep
  | delNode
  | deleteLimiter
  | addLimiter
  | setAliveList
  | updateRule
  | requestCert
  | addNode
  | addUsers
deriving DecidableEq, Repr

/-- The next call of `Controller.Close`. -/
inductive CloseStep
  | deleteLimiter
  | closeTasks
  | delNode
deriving DecidableEq, Repr

/-- How far the controller is. -/
inductive LifePhase
  | idle
  | starting (step : StartStep) (node : NodeInfo) (aliveMap : GoMap ℤ ℤ)
  | started
  /-- The start has returned an error. -/
  | failed
  | closing (step : CloseStep)
  | closed

/-- A tick with new settings. -/
structure ReloadTick where
  step : ReloadStep := .delNode
  newN : NodeInfo
  newA : Option (GoMap ℤ ℤ)

/-- `node.Controller` between two calls. -/
structure NodeLife where
  options : Options := {}
  reportMinTraffic : Int64 := 0
  apiHost : String := ""
  tag : String := ""
  limiter : Option ℕ := none
  userList : List UserInfo := []
  phase : LifePhase := .idle
  /-- `startTasks` has been called. -/
  tasks : Bool := false
  tick : Option ReloadTick := none

/-- How a call turns out. -/
structure Outcome where
  /-- The error of the core. -/
  err : Option String := none
  cert : CertInput := {}

namespace NodeLife

/-- The start begins with the three requests; `fetched` is what they return, or `none` when one of
them fails. A start without settings panics and is left out. -/
def start (c : NodeLife) (fetched : Option (NodeInfo × List UserInfo × GoMap ℤ ℤ)) : NodeLife :=
  match c.phase, fetched with
  | .idle, none => { c with phase := .failed }
  | .idle, some (node, users, alive) =>
    { c with
      userList := users
      tag := if c.options.name = "" then buildNodeTag c.apiHost node else c.options.name
      phase := .starting .addLimiter node alive }
  | _, _ => c

/-- One call of the start. -/
def startStep (compiles : String → Bool) (s : Shared) (c : NodeLife) (node : NodeInfo)
    (aliveMap : GoMap ℤ ℤ) (o : Outcome) : StartStep → Shared × NodeLife
  | .addLimiter =>
    let (s, l) := s.addLimiter c.tag c.options.limitConfig c.userList aliveMap
    (s, { c with phase := .starting (.updateRule l) node aliveMap })
  | .updateRule l =>
    match s.limiters.updateRule compiles l node.rules with
    | .error _ => (s.crash, c)
    | .ok limiters => ({ s with limiters := limiters },
        { c with limiter := some l, phase := .starting .requestCert node aliveMap })
  | .requestCert =>
    match nodeCert c.options node o.cert with
    | some _ => (s, { c with phase := .failed })
    | none => (s, { c with phase := .starting .addNode node aliveMap })
  | .addNode =>
    match s.sing.addNode c.tag node c.reportMinTraffic o.err with
    | (sing, some _) => ({ s with sing := sing }, { c with phase := .failed })
    | (sing, none) => ({ s with sing := sing },
        { c with phase := .starting .addUsers node aliveMap })
  | .addUsers =>
    match s.sing.addUsers c.tag c.userList o.err with
    | (sing, .error _) => ({ s with sing := sing }, { c with phase := .failed })
    | (sing, .ok _) => ({ s with sing := sing }, { c with phase := .started, tasks := true })

/-- A tick finds new settings. -/
def reload (c : NodeLife) (newN : NodeInfo) (newU : Option (List UserInfo))
    (newA : Option (GoMap ℤ ℤ)) : NodeLife :=
  if c.tasks = true ∧ c.tick.isNone then
    { c with userList := newU.getD c.userList, tick := some { newN := newN, newA := newA } }
  else c

/-- The tick goes on with another call. -/
def tickTo (c : NodeLife) (t : ReloadTick) (step : ReloadStep) : NodeLife :=
  { c with tick := some { t with step := step } }

/-- One call of the tick. -/
def reloadStep (compiles : String → Bool) (s : Shared) (c : NodeLife) (t : ReloadTick)
    (o : Outcome) : Shared × NodeLife :=
  match t.step with
  | .delNode =>
    match s.sing.delNode c.tag o.err with
    | (sing, some _) => ({ s with sing := sing }.crash, c)
    | (sing, none) => ({ s with sing := sing },
        c.tickTo t (if c.options.name = "" then .deleteLimiter else .setAliveList))
  | .deleteLimiter =>
    let tag := buildNodeTag c.apiHost t.newN
    (s.deleteLimiter tag .replaced, { c with tag := tag }.tickTo t .addLimiter)
  | .addLimiter =>
    let (s, l) := s.addLimiter c.tag c.options.limitConfig c.userList (t.newA.getD ∅)
    (s, { c with limiter := some l }.tickTo t .setAliveList)
  | .setAliveList =>
    match c.limiter with
    | none => (s.crash, c)
    | some l => ({ s with limiters := s.limiters.setAliveList l t.newA }, c.tickTo t .updateRule)
  | .updateRule =>
    match c.limiter with
    | none => (s.crash, c)
    | some l =>
      match s.limiters.updateRule compiles l t.newN.rules with
      | .error _ => (s.crash, c)
      | .ok limiters => ({ s with limiters := limiters }, c.tickTo t .requestCert)
  | .requestCert =>
    match nodeCert c.options t.newN o.cert with
    | some _ => (s, { c with tick := none })
    | none => (s, c.tickTo t .addNode)
  | .addNode =>
    match s.sing.addNode c.tag t.newN c.reportMinTraffic o.err with
    | (sing, some _) => ({ s with sing := sing }.crash, c)
    | (sing, none) => ({ s with sing := sing }, c.tickTo t .addUsers)
  | .addUsers =>
    ({ s with sing := (s.sing.addUsers c.tag c.userList o.err).1 }, { c with tick := none })

/-- The close begins, at any time but during a start or another close. -/
def close (c : NodeLife) : NodeLife :=
  match c.phase with
  | .starting .. | .closing _ => c
  | _ => { c with phase := .closing .deleteLimiter }

/-- One call of the close. -/
def closeStep (s : Shared) (c : NodeLife) (o : Outcome) : CloseStep → Shared × NodeLife
  | .deleteLimiter =>
    (s.deleteLimiter c.tag .closed, { c with phase := .closing .closeTasks })
  | .closeTasks =>
    if c.tick.isSome then (s, c) else (s, { c with phase := .closing .delNode })
  | .delNode =>
    ({ s with sing := (s.sing.delNode c.tag o.err).1 }, { c with phase := .closed })

/-- One call of the start or of the close, whichever goes on. -/
def step (compiles : String → Bool) (s : Shared) (c : NodeLife) (o : Outcome) :
    Shared × NodeLife :=
  match c.phase with
  | .starting step node aliveMap => c.startStep compiles s node aliveMap o step
  | .closing step => c.closeStep s o step
  | _ => (s, c)

/-- One call of the tick, if one goes on. -/
def tickStep (compiles : String → Bool) (s : Shared) (c : NodeLife) (o : Outcome) :
    Shared × NodeLife :=
  match c.tick with
  | some t => c.reloadStep compiles s t o
  | none => (s, c)

end NodeLife

/-! ### What a call does to the program -/

namespace Shared

/-- The registered limiters are those that were added last, and every inbound has the tag of a
limiter that was registered at some time. -/
structure Consistent (s : Shared) : Prop where
  mem_registry_iff : ∀ tag, tag ∈ s.limiters.registry ↔ s.history.lookup tag = some .added
  mem_history_of_inbound : ∀ tag ∈ s.sing.inbounds, tag ∈ s.history

/-- What a call may do to the program: the storages of the users, the tags with a history and the
limiters are kept, and the program stays consistent. -/
structure Evolves (s s' : Shared) : Prop where
  lookup_eq : ∀ {tag user p}, (s.sing.registry.trafficCounter tag).counters.lookup user = some p →
    (s'.sing.registry.trafficCounter tag).counters.lookup user = some p
  mem_history : ∀ {tag}, tag ∈ s.history → tag ∈ s'.history
  length_le : s.limiters.limiters.length ≤ s'.limiters.limiters.length
  consistent : s.Consistent → s'.Consistent

variable {s : Shared} {tag : String}

theorem Evolves.refl (s : Shared) : s.Evolves s := ⟨id, id, le_rfl, id⟩

theorem Evolves.crash {s' : Shared} (h : s.Evolves s') : s.Evolves s'.crash :=
  ⟨h.lookup_eq, h.mem_history, h.length_le,
    fun hs => ⟨(h.consistent hs).mem_registry_iff, (h.consistent hs).mem_history_of_inbound⟩⟩

/-- `AddLimiter` and `DeleteLimiter`: an entry of the history together with the registry. -/
theorem evolves_registry {limiters : LimiterStore} {r : Registration}
    (hlength : s.limiters.limiters.length ≤ limiters.limiters.length)
    (hself : tag ∈ limiters.registry ↔ r = .added)
    (hother : ∀ t, t ≠ tag → (t ∈ limiters.registry ↔ t ∈ s.limiters.registry)) :
    s.Evolves { s with limiters := limiters, history := s.history.insert tag r } where
  lookup_eq := id
  mem_history := fun h => Finmap.mem_insert.mpr (Or.inr h)
  length_le := hlength
  consistent hs :=
    { mem_registry_iff := by
        intro t
        rw [GoMap.lookup_insert]
        split_ifs with ht
        · rw [ht, hself, Option.some_inj]
        · rw [hother t ht, hs.mem_registry_iff]
      mem_history_of_inbound := fun t ht =>
        Finmap.mem_insert.mpr (Or.inr (hs.mem_history_of_inbound t ht)) }

theorem evolves_addLimiter (s : Shared) (tag : String) (conf : LimitConfig)
    (users : List UserInfo) (alive : GoMap ℤ ℤ) :
    s.Evolves (s.addLimiter tag conf users alive).1 := by
  refine evolves_registry ?_ ?_ fun t ht => ?_
  · simp
  · simp
  · simp [Finmap.mem_insert, ht]

theorem evolves_deleteLimiter (s : Shared) (tag : String) {r : Registration} (hr : r ≠ .added) :
    s.Evolves (s.deleteLimiter tag r) := by
  refine evolves_registry le_rfl ?_ fun t ht => ?_
  · simp [LimiterStore.deleteLimiter, hr]
  · simp [LimiterStore.deleteLimiter, Finmap.mem_erase, ht]

/-- A change of a limiter through its pointer. -/
theorem evolves_modify (s : Shared) (p : ℕ) (f : Limiter → Limiter) :
    s.Evolves { s with limiters := s.limiters.modify p f } where
  lookup_eq := id
  mem_history := id
  length_le := (List.length_modify ..).ge
  consistent hs := ⟨hs.mem_registry_iff, hs.mem_history_of_inbound⟩

theorem evolves_updateRule {compiles : String → Bool} {p : ℕ} {rule : Rules}
    {limiters : LimiterStore} (h : s.limiters.updateRule compiles p rule = .ok limiters) :
    s.Evolves { s with limiters := limiters } := by
  rw [LimiterStore.updateRule_ok h]
  exact s.evolves_modify p _

theorem evolves_setAliveList (s : Shared) (p : ℕ) (alive : Option (GoMap ℤ ℤ)) :
    s.Evolves { s with limiters := s.limiters.setAliveList p alive } := by
  cases alive with
  | none => exact Evolves.refl s
  | some alive => exact s.evolves_modify p _

/-- A call of the core that keeps the counters and adds inbounds only where a limiter was
registered. -/
theorem evolves_sing {sing : Sing} (hcounter : sing.registry.counter = s.sing.registry.counter)
    (hinbounds : ∀ t ∈ sing.inbounds, t ∈ s.sing.inbounds ∨ t ∈ s.history) :
    s.Evolves { s with sing := sing } where
  lookup_eq h := by
    simp only [TrafficRegistry.trafficCounter, hcounter]
    exact h
  mem_history := id
  length_le := le_rfl
  consistent hs :=
    { mem_registry_iff := hs.mem_registry_iff
      mem_history_of_inbound := fun t ht =>
        (hinbounds t ht).elim (hs.mem_history_of_inbound t) id }

theorem evolves_addNode (htag : tag ∈ s.history) (info : NodeInfo) (reportMinTraffic : Int64)
    (err : Option String) :
    s.Evolves { s with sing := (s.sing.addNode tag info reportMinTraffic err).1 } := by
  cases err with
  | some err => exact evolves_sing rfl fun t ht => Or.inl ht
  | none =>
    refine evolves_sing rfl fun t ht => ?_
    rcases Finmap.mem_insert.mp ht with rfl | ht
    · exact Or.inr htag
    · exact Or.inl ht

theorem evolves_delNode (s : Shared) (tag : String) (err : Option String) :
    s.Evolves { s with sing := (s.sing.delNode tag err).1 } := by
  by_cases hmem : tag ∈ s.sing.inbounds
  · simp only [Sing.delNode, if_pos hmem]
    exact evolves_sing rfl fun t ht => Or.inl (Finmap.mem_erase.mp ht).2
  · simp only [Sing.delNode, if_neg hmem]
    exact Evolves.refl s

theorem evolves_addUsers (s : Shared) (tag : String) (users : List UserInfo)
    (update : Option String) :
    s.Evolves { s with sing := (s.sing.addUsers tag users update).1 } := by
  cases hlook : s.sing.inbounds.lookup tag with
  | none =>
    simp only [Sing.addUsers, hlook]
    exact Evolves.refl s
  | some i =>
    simp only [Sing.addUsers, hlook]
    refine evolves_sing rfl fun t ht => Or.inl ?_
    rcases Finmap.mem_insert.mp ht with rfl | ht
    · exact Finmap.mem_of_lookup_eq_some hlook
    · exact ht

/-- A connection that goes through the hook with its limiter. -/
theorem evolves_routed {sing : Sing} (hgrows : s.sing.Grows sing) (p : ℕ) (f : Limiter → Limiter) :
    s.Evolves { s with sing := sing, limiters := s.limiters.modify p f } where
  lookup_eq := hgrows.lookup_eq
  mem_history := id
  length_le := (List.length_modify ..).ge
  consistent hs :=
    { mem_registry_iff := hs.mem_registry_iff
      mem_history_of_inbound := fun t ht =>
        hs.mem_history_of_inbound t (hgrows.inbounds_eq ▸ ht) }

end Shared

/-! ### What a call does to its node -/

/-- The start has got to its end, or has failed. -/
def LifePhase.hasStarted : LifePhase → Bool
  | .idle | .starting .. => false
  | _ => true

namespace NodeLife

/-- A node has registered a limiter under its tag before it adds its inbound. -/
structure Enrolled (c : NodeLife) (history : GoMap String Registration) : Prop where
  starting : ∀ {step node alive}, c.phase = .starting step node alive → step ≠ .addLimiter →
    c.tag ∈ history
  tasks : c.tasks = true → (∀ t ∈ c.tick, t.step ≠ .addLimiter) → c.tag ∈ history
  tick : c.tick.isSome → c.tasks = true
  hasStarted : c.tasks = true → c.phase.hasStarted = true

variable {c : NodeLife} {s : Shared} {compiles : String → Bool}

theorem Enrolled.mono {history history' : GoMap String Registration} (h : c.Enrolled history)
    (hmono : ∀ {tag}, tag ∈ history → tag ∈ history') : c.Enrolled history' where
  starting hphase hstep := hmono (h.starting hphase hstep)
  tasks htasks htick := hmono (h.tasks htasks htick)
  tick := h.tick
  hasStarted := h.hasStarted

/-- The tasks of a node run only after its start. -/
theorem Enrolled.not_tasks {history : GoMap String Registration} (h : c.Enrolled history)
    (hphase : c.phase.hasStarted = false) : c.tasks ≠ true := fun htasks =>
  Bool.false_ne_true (hphase.symm.trans (h.hasStarted htasks))

/-- The two cases of a node whose tag has a history. -/
theorem enrolled_of_mem {history : GoMap String Registration} (htag : c.tag ∈ history)
    (htick : c.tick.isSome → c.tasks = true)
    (hstarted : c.tasks = true → c.phase.hasStarted = true) : c.Enrolled history :=
  ⟨fun _ _ => htag, fun _ _ => htag, htick, hstarted⟩

theorem enrolled_start (h : c.Enrolled s.history)
    (fetched : Option (NodeInfo × List UserInfo × GoMap ℤ ℤ)) :
    (c.start fetched).Enrolled s.history := by
  unfold start
  split
  · exact ⟨nofun, h.tasks, h.tick, fun _ => rfl⟩
  · rename_i node users alive hidle
    have htasks : c.tasks ≠ true := h.not_tasks (by rw [hidle]; rfl)
    refine ⟨fun hphase hstep => ?_, fun ht => absurd ht htasks, h.tick, fun ht => absurd ht htasks⟩
    cases hphase
    exact absurd rfl hstep
  · exact h

/-- A call of the start. -/
theorem enrolled_startStep (h : c.Enrolled s.history) {step : StartStep} {node : NodeInfo}
    {aliveMap : GoMap ℤ ℤ} (hphase : c.phase = .starting step node aliveMap) (o : Outcome) :
    s.Evolves (c.startStep compiles s node aliveMap o step).1 ∧
      (c.startStep compiles s node aliveMap o step).2.Enrolled
        (c.startStep compiles s node aliveMap o step).1.history := by
  have htasks : c.tasks ≠ true := h.not_tasks (by rw [hphase]; rfl)
  have hkeep (htag : c.tag ∈ s.history) (phase : LifePhase) (l : Option ℕ) :
      Enrolled { c with phase := phase, limiter := l } s.history :=
    enrolled_of_mem htag h.tick fun ht => absurd ht htasks
  cases step with
  | addLimiter =>
    exact ⟨s.evolves_addLimiter .., enrolled_of_mem (Finmap.mem_insert.mpr (Or.inl rfl)) h.tick
      fun ht => absurd ht htasks⟩
  | updateRule l =>
    cases hrules : s.limiters.updateRule compiles l node.rules with
    | error k =>
      simp only [startStep, hrules]
      exact ⟨(Shared.Evolves.refl s).crash, h⟩
    | ok limiters =>
      simp only [startStep, hrules]
      exact ⟨Shared.evolves_updateRule hrules, hkeep (h.starting hphase nofun) _ _⟩
  | requestCert =>
    cases hcert : nodeCert c.options node o.cert with
    | some err =>
      simp only [startStep, hcert]
      exact ⟨Shared.Evolves.refl s, hkeep (h.starting hphase nofun) _ _⟩
    | none =>
      simp only [startStep, hcert]
      exact ⟨Shared.Evolves.refl s, hkeep (h.starting hphase nofun) _ _⟩
  | addNode =>
    have htag := h.starting hphase nofun
    have hevolves := Shared.evolves_addNode htag node c.reportMinTraffic o.err
    rcases hadd : s.sing.addNode c.tag node c.reportMinTraffic o.err with ⟨sing, _ | err⟩ <;>
      rw [hadd] at hevolves <;> simp only [startStep, hadd]
    · exact ⟨hevolves, hkeep htag _ _⟩
    · exact ⟨hevolves, hkeep htag _ _⟩
  | addUsers =>
    have htag := h.starting hphase nofun
    have hevolves := s.evolves_addUsers c.tag c.userList o.err
    rcases hadd : s.sing.addUsers c.tag c.userList o.err with ⟨sing, err | n⟩ <;>
      rw [hadd] at hevolves <;> simp only [startStep, hadd]
    · exact ⟨hevolves, hkeep htag _ _⟩
    · exact ⟨hevolves, enrolled_of_mem htag (fun _ => rfl) fun _ => rfl⟩

/-- A tick begins. -/
theorem enrolled_reload (h : c.Enrolled s.history) (newN : NodeInfo)
    (newU : Option (List UserInfo)) (newA : Option (GoMap ℤ ℤ)) :
    (c.reload newN newU newA).Enrolled s.history := by
  unfold reload
  split_ifs with hfree
  · obtain ⟨htasks, hnone⟩ := hfree
    have htag : c.tag ∈ s.history := h.tasks htasks fun t ht => by
      rw [Option.isNone_iff_eq_none.mp hnone] at ht
      cases ht
    exact enrolled_of_mem htag (fun _ => htasks) h.hasStarted
  · exact h

/-! The calls of a tick. -/

section Reload

variable {newN : NodeInfo} {newA : Option (GoMap ℤ ℤ)}

theorem Enrolled.tasks_of_tick (h : c.Enrolled s.history) {t : ReloadTick} (ht : c.tick = some t) :
    c.tasks = true :=
  h.tick (by rw [ht]; rfl)

/-- The tag is registered during a tick, except between the two calls for the limiter. -/
theorem Enrolled.tag_mem (h : c.Enrolled s.history) {t : ReloadTick} (ht : c.tick = some t)
    (hstep : t.step ≠ .addLimiter) : c.tag ∈ s.history :=
  h.tasks (h.tasks_of_tick ht) fun t' ht' => by
    rw [ht] at ht'
    cases ht'
    exact hstep

/-- The tick goes on. -/
theorem Enrolled.next (h : c.Enrolled s.history) {t : ReloadTick} (ht : c.tick = some t)
    (hstep : t.step ≠ .addLimiter) (t' : Option ReloadTick) :
    Enrolled { c with tick := t' } s.history :=
  enrolled_of_mem (h.tag_mem ht hstep) (fun _ => h.tasks_of_tick ht) h.hasStarted

theorem enrolled_reload_delNode (h : c.Enrolled s.history)
    (ht : c.tick = some ⟨.delNode, newN, newA⟩) (o : Outcome) :
    s.Evolves (c.reloadStep compiles s ⟨.delNode, newN, newA⟩ o).1 ∧
      (c.reloadStep compiles s ⟨.delNode, newN, newA⟩ o).2.Enrolled
        (c.reloadStep compiles s ⟨.delNode, newN, newA⟩ o).1.history := by
  have hevolves := s.evolves_delNode c.tag o.err
  rcases hdel : s.sing.delNode c.tag o.err with ⟨sing, _ | err⟩ <;>
    rw [hdel] at hevolves <;> simp only [reloadStep, hdel]
  · exact ⟨hevolves, h.next ht nofun _⟩
  · exact ⟨hevolves.crash, h⟩

/-- The tag may be new after the call, and the next call is going to register it. -/
theorem enrolled_reload_deleteLimiter (h : c.Enrolled s.history)
    (ht : c.tick = some ⟨.deleteLimiter, newN, newA⟩) (o : Outcome) :
    s.Evolves (c.reloadStep compiles s ⟨.deleteLimiter, newN, newA⟩ o).1 ∧
      (c.reloadStep compiles s ⟨.deleteLimiter, newN, newA⟩ o).2.Enrolled
        (c.reloadStep compiles s ⟨.deleteLimiter, newN, newA⟩ o).1.history := by
  have htasks := h.tasks_of_tick ht
  refine ⟨s.evolves_deleteLimiter _ nofun, fun hphase => ?_,
    fun _ hstep => absurd rfl (hstep _ rfl), fun _ => htasks, h.hasStarted⟩
  exact absurd htasks (h.not_tasks (by rw [show c.phase = _ from hphase]; rfl))

theorem enrolled_reload_setAliveList (h : c.Enrolled s.history)
    (ht : c.tick = some ⟨.setAliveList, newN, newA⟩) (o : Outcome) :
    s.Evolves (c.reloadStep compiles s ⟨.setAliveList, newN, newA⟩ o).1 ∧
      (c.reloadStep compiles s ⟨.setAliveList, newN, newA⟩ o).2.Enrolled
        (c.reloadStep compiles s ⟨.setAliveList, newN, newA⟩ o).1.history := by
  rcases hl : c.limiter with _ | l
  · simp only [reloadStep, hl]
    exact ⟨(Shared.Evolves.refl s).crash, h⟩
  · simp only [reloadStep, hl]
    exact ⟨s.evolves_setAliveList l newA, h.next ht nofun _⟩

theorem enrolled_reload_updateRule (h : c.Enrolled s.history)
    (ht : c.tick = some ⟨.updateRule, newN, newA⟩) (o : Outcome) :
    s.Evolves (c.reloadStep compiles s ⟨.updateRule, newN, newA⟩ o).1 ∧
      (c.reloadStep compiles s ⟨.updateRule, newN, newA⟩ o).2.Enrolled
        (c.reloadStep compiles s ⟨.updateRule, newN, newA⟩ o).1.history := by
  rcases hl : c.limiter with _ | l
  · simp only [reloadStep, hl]
    exact ⟨(Shared.Evolves.refl s).crash, h⟩
  · rcases hrules : s.limiters.updateRule compiles l newN.rules with k | limiters
    · simp only [reloadStep, hl, hrules]
      exact ⟨(Shared.Evolves.refl s).crash, h⟩
    · simp only [reloadStep, hl, hrules]
      exact ⟨Shared.evolves_updateRule hrules, h.next ht nofun _⟩

theorem enrolled_reload_requestCert (h : c.Enrolled s.history)
    (ht : c.tick = some ⟨.requestCert, newN, newA⟩) (o : Outcome) :
    s.Evolves (c.reloadStep compiles s ⟨.requestCert, newN, newA⟩ o).1 ∧
      (c.reloadStep compiles s ⟨.requestCert, newN, newA⟩ o).2.Enrolled
        (c.reloadStep compiles s ⟨.requestCert, newN, newA⟩ o).1.history := by
  rcases hcert : nodeCert c.options newN o.cert with _ | err
  · simp only [reloadStep, hcert]
    exact ⟨Shared.Evolves.refl s, h.next ht nofun _⟩
  · simp only [reloadStep, hcert]
    exact ⟨Shared.Evolves.refl s, h.next ht nofun _⟩

theorem enrolled_reload_addNode (h : c.Enrolled s.history)
    (ht : c.tick = some ⟨.addNode, newN, newA⟩) (o : Outcome) :
    s.Evolves (c.reloadStep compiles s ⟨.addNode, newN, newA⟩ o).1 ∧
      (c.reloadStep compiles s ⟨.addNode, newN, newA⟩ o).2.Enrolled
        (c.reloadStep compiles s ⟨.addNode, newN, newA⟩ o).1.history := by
  have hevolves := Shared.evolves_addNode (h.tag_mem ht nofun) newN c.reportMinTraffic o.err
  rcases hadd : s.sing.addNode c.tag newN c.reportMinTraffic o.err with ⟨sing, _ | err⟩ <;>
    rw [hadd] at hevolves <;> simp only [reloadStep, hadd]
  · exact ⟨hevolves, h.next ht nofun _⟩
  · exact ⟨hevolves.crash, h⟩

/-- A call of the tick. -/
theorem enrolled_reloadStep (h : c.Enrolled s.history) {t : ReloadTick} (ht : c.tick = some t)
    (o : Outcome) :
    s.Evolves (c.reloadStep compiles s t o).1 ∧
      (c.reloadStep compiles s t o).2.Enrolled (c.reloadStep compiles s t o).1.history := by
  obtain ⟨step, newN, newA⟩ := t
  rcases step
  case delNode => exact enrolled_reload_delNode h ht o
  case deleteLimiter => exact enrolled_reload_deleteLimiter h ht o
  case addLimiter =>
    exact ⟨s.evolves_addLimiter .., enrolled_of_mem (Finmap.mem_insert.mpr (Or.inl rfl))
      (fun _ => h.tasks_of_tick ht) h.hasStarted⟩
  case setAliveList => exact enrolled_reload_setAliveList h ht o
  case updateRule => exact enrolled_reload_updateRule h ht o
  case requestCert => exact enrolled_reload_requestCert h ht o
  case addNode => exact enrolled_reload_addNode h ht o
  case addUsers => exact ⟨s.evolves_addUsers .., h.next ht nofun _⟩

end Reload

/-- The phase of a node that is not starting can be changed to another such phase. -/
theorem Enrolled.setPhase {history : GoMap String Registration} (h : c.Enrolled history)
    {phase : LifePhase} (hphase : phase.hasStarted = true) :
    Enrolled { c with phase := phase } history where
  starting heq := by
    subst heq
    cases hphase
  tasks := h.tasks
  tick := h.tick
  hasStarted _ := hphase

theorem enrolled_close (h : c.Enrolled s.history) : c.close.Enrolled s.history := by
  unfold close
  split
  · exact h
  · exact h
  · exact h.setPhase rfl

/-- A call of the close. -/
theorem enrolled_closeStep (h : c.Enrolled s.history) (o : Outcome) (step : CloseStep) :
    s.Evolves (c.closeStep s o step).1 ∧
      (c.closeStep s o step).2.Enrolled (c.closeStep s o step).1.history := by
  cases step with
  | deleteLimiter =>
    have hevolves := s.evolves_deleteLimiter c.tag (r := .closed) nofun
    exact ⟨hevolves, (h.setPhase rfl).mono hevolves.mem_history⟩
  | closeTasks =>
    unfold closeStep
    split_ifs
    · exact ⟨Shared.Evolves.refl s, h⟩
    · exact ⟨Shared.Evolves.refl s, h.setPhase rfl⟩
  | delNode => exact ⟨s.evolves_delNode .., h.setPhase rfl⟩

/-- **One call of a node.** -/
theorem enrolled_step (h : c.Enrolled s.history) (o : Outcome) :
    s.Evolves (c.step compiles s o).1 ∧
      (c.step compiles s o).2.Enrolled (c.step compiles s o).1.history := by
  unfold step
  split
  · rename_i step node aliveMap hphase
    exact enrolled_startStep h hphase o
  · exact enrolled_closeStep h o _
  · exact ⟨Shared.Evolves.refl s, h⟩

/-- **One call of a tick.** -/
theorem enrolled_tickStep (h : c.Enrolled s.history) (o : Outcome) :
    s.Evolves (c.tickStep compiles s o).1 ∧
      (c.tickStep compiles s o).2.Enrolled (c.tickStep compiles s o).1.history := by
  unfold tickStep
  split
  · rename_i t ht
    exact enrolled_reloadStep h ht o
  · exact ⟨Shared.Evolves.refl s, h⟩

end NodeLife

end Tox.Node
