import Tox.Core.Interface
import Tox.Core.Mieru
import Tox.Foundation.Run

/-!
# Reloads of the mieru core

When a node changes, the controller deletes it, adds it again and adds its users. The mieru core
keeps its map of users when the node is deleted, so that the mux is given the users of before next
to those of the new list. This file determines the users of the mux after a reload
(`Mieru.users_reload`).

The core serves connections by a goroutine that accepts them, which is spawned whenever the mux is
started and ends when it finds the core not running. The second part follows these goroutines
through the calls of the core: a call that starts the mux spawns a loop, whether or not the loop
of an earlier start is still there.
-/

namespace Tox.Core

open Tox.Foundation Tox.Panel

namespace Mieru

/-! ### The users after a reload -/

/-- The calls of the controller for a node that has changed: each is made after the one before has
succeeded. -/
def reload (m : Mieru) (oldTag tag : String) (info : NodeInfo) (users : List UserInfo)
    (closeErr : Option String) (nodeResults userResults : MuxResults) :
    Except MieruError Mieru :=
  match m.delNode oldTag closeErr with
  | (_, some err) => .error err
  | (m, none) =>
    match m.addNode tag info nodeResults with
    | (_, some err) => .error err
    | (m, none) =>
      match m.addUsers tag users userResults with
      | (_, .error err) => .error err
      | (m, .ok _) => .ok m

/-- The users that a mux without a node is left with: a mux that was started is replaced. -/
def residual (m : Mieru) : Finset String :=
  if m.started then ∅ else m.mux.users

/-- The users are handed to the mux before anything that can fail. -/
theorem users_configure (binding : PortBinding) (users : Finset String) (running started : Bool)
    (mux : Mux) (results : MuxResults) :
    (configure binding users running started mux results).1.users =
      if users = ∅ then if started then ∅ else mux.users else users := by
  rw [configure]
  split
  · split <;> rfl
  · rcases results.endpoints with _ | err
    · rcases results.trafficPattern with _ | err
      · dsimp only
        split
        · rcases results.start with _ | err <;> rfl
        · rfl
      · rfl
    · rfl

theorem users_applyConfig (m : Mieru) (results : MuxResults) :
    (m.applyConfig results).1.mux.users =
      if m.binding = none then m.mux.users
      else if m.uidMap.keys = ∅ then m.residual else m.uidMap.keys := by
  rw [applyConfig]
  rcases m.binding with _ | binding
  · rfl
  · exact users_configure binding _ _ _ _ results

/-- The library lets a configuration through to the start of the mux. -/
def Succeeds (results : MuxResults) : Prop :=
  results.endpoints = none ∧ results.trafficPattern = none ∧ results.start = none

instance (results : MuxResults) : Decidable (Succeeds results) :=
  inferInstanceAs (Decidable (_ ∧ _ ∧ _))

theorem started_configure (binding : PortBinding) (users : Finset String)
    (running started : Bool) (mux : Mux) (results : MuxResults) :
    (configure binding users running started mux results).2.1 =
      if users = ∅ then false else started || (running && decide (Succeeds results)) := by
  rw [configure]
  split
  · cases started <;> rfl
  · rcases results with ⟨_ | err, _ | err, _ | err⟩ <;> cases running <;> cases started <;> rfl

theorem started_applyConfig (m : Mieru) (results : MuxResults) :
    (m.applyConfig results).1.started =
      if m.binding = none then m.started
      else if m.uidMap.keys = ∅ then false
      else m.started || (m.running && decide (Succeeds results)) := by
  rw [applyConfig]
  rcases m.binding with _ | binding
  · rfl
  · exact started_configure binding _ _ _ _ results

theorem close_fst (m : Mieru) (err : Option String) : (m.close err).1 =
    { m with running := false, started := false, mux := if m.started then {} else m.mux } := by
  rw [close]
  cases hstarted : m.started
  · cases m
    cases hstarted
    rfl
  · rfl

theorem users_close (m : Mieru) (err : Option String) :
    (m.close err).1.mux.users = m.residual := by
  rw [close_fst, residual]
  cases m.started <;> rfl

theorem binding_eq_none_iff {m : Mieru} {info : NodeInfo} (h : m.nodeInfo = some info) :
    m.binding = none ↔ info.mieru = none := by
  rw [binding, h, Option.bind_some, Option.map_eq_none_iff]

/-- A reload that succeeds is the composition of its calls. -/
theorem eq_of_reload {m m' : Mieru} {oldTag tag : String} {info : NodeInfo}
    {users : List UserInfo} {closeErr : Option String} {nodeResults userResults : MuxResults}
    (h : m.reload oldTag tag info users closeErr nodeResults userResults = .ok m') :
    m' = (((m.delNode oldTag closeErr).1.addNode tag info nodeResults).1.addUsers tag users
      userResults).1 := by
  rw [reload] at h
  rcases hdel : m.delNode oldTag closeErr with ⟨m₁, _ | err⟩ <;> rw [hdel] at h
  · rcases hnode : m₁.addNode tag info nodeResults with ⟨m₂, _ | err⟩ <;>
      simp only [hnode] at h
    · rcases husers : m₂.addUsers tag users userResults with ⟨m₃, err | n⟩ <;>
        simp only [husers] at h
      · cases h
      · cases h
        rfl
    · cases h
  · cases h

section AddNode

variable {m : Mieru} (tag : String) (info : NodeInfo) (results : MuxResults)

theorem addNode_fst : ∃ mux started, (m.addNode tag info results).1 =
    { m with nodeInfo := some info, tag := tag, running := true, mux := mux, started := started } :=
  applyConfig_fst _ results

/-- Adding a node to a core whose mux is not started: without a configuration to apply, the mux
keeps its users and stays as it is. -/
theorem residual_addNode (hstarted : m.started = false)
    (hnone : info.mieru = none ∨ m.uidMap.keys = ∅) :
    (m.addNode tag info results).1.started = false ∧
      (m.addNode tag info results).1.mux.users = m.mux.users := by
  have hbinding : Mieru.binding { m with nodeInfo := some info, tag := tag, running := true } =
      none ↔ info.mieru = none := binding_eq_none_iff rfl
  rw [addNode, started_applyConfig, users_applyConfig]
  by_cases hinfo : info.mieru = none
  · rw [if_pos (hbinding.mpr hinfo), if_pos (hbinding.mpr hinfo)]
    exact ⟨hstarted, rfl⟩
  · have hkeys := hnone.resolve_left hinfo
    rw [if_neg (mt hbinding.mp hinfo), if_neg (mt hbinding.mp hinfo), if_pos hkeys, if_pos hkeys,
      residual, hstarted]
    exact ⟨rfl, rfl⟩

end AddNode

theorem users_addUsers {m : Mieru} {info : NodeInfo} (h : m.nodeInfo = some info) (tag : String)
    (users : List UserInfo) (results : MuxResults) :
    (m.addUsers tag users results).1.mux.users =
      if info.mieru = none then m.mux.users
      else if m.uidMap.keys ∪ uuids users = ∅ then m.residual
      else m.uidMap.keys ∪ uuids users := by
  have hbinding : Mieru.binding { m with
      uidMap := GoMap.storeAll UserInfo.uuid UserInfo.id users m.uidMap } = none ↔
      info.mieru = none := binding_eq_none_iff h
  rw [addUsers_fst, users_applyConfig]
  simp only [hbinding, GoMap.keys_storeAll, uuids]
  rfl

/-- The users of the mux after a reload: those of before together with those of the new list. -/
theorem users_reload {m m' : Mieru} {oldTag tag : String} {info : NodeInfo}
    {users : List UserInfo} {closeErr : Option String} {nodeResults userResults : MuxResults}
    (h : m.reload oldTag tag info users closeErr nodeResults userResults = .ok m') :
    m'.mux.users =
      if info.mieru = none ∨ m.uidMap.keys ∪ uuids users = ∅ then m.residual
      else m.uidMap.keys ∪ uuids users := by
  have hdeleted : (m.delNode oldTag closeErr).1 = _ := close_fst m closeErr
  have hstarted : (m.delNode oldTag closeErr).1.started = false := by rw [hdeleted]
  have hdel : (m.delNode oldTag closeErr).1.uidMap = m.uidMap := by rw [hdeleted]
  have hresidual : (m.delNode oldTag closeErr).1.mux.users = m.residual := users_close m closeErr
  have hkept := residual_addNode tag info nodeResults hstarted
  obtain ⟨mux, started, hnode⟩ : ∃ mux started, _ = _ :=
    addNode_fst (m := (m.delNode oldTag closeErr).1) tag info nodeResults
  have hinfo : ((m.delNode oldTag closeErr).1.addNode tag info nodeResults).1.nodeInfo =
      some info := by rw [hnode]
  have hkeys : ((m.delNode oldTag closeErr).1.addNode tag info nodeResults).1.uidMap =
      m.uidMap := by rw [hnode, ← hdel]
  rw [eq_of_reload h, users_addUsers hinfo, hkeys]
  by_cases hmieru : info.mieru = none
  · rw [if_pos hmieru, if_pos (.inl hmieru), (hkept (.inl hmieru)).2, hresidual]
  · rw [if_neg hmieru]
    by_cases hempty : m.uidMap.keys ∪ uuids users = ∅
    · have hbefore : (m.delNode oldTag closeErr).1.uidMap.keys = ∅ := by
        rw [hdel]
        exact (Finset.union_eq_empty.mp hempty).1
      obtain ⟨hstarted', husers⟩ := hkept (.inr hbefore)
      rw [if_pos hempty, if_pos (.inr hempty), residual, hstarted', husers, hresidual]
      rfl
    · rw [if_neg hempty, if_neg (not_or_intro hmieru hempty)]

/-- No user of before is missing from the new list, and where the mux is given no users, it has
none already. -/
def ReloadsExactly (m : Mieru) (info : NodeInfo) (users : List UserInfo) : Prop :=
  (info.mieru ≠ none → m.uidMap.keys ⊆ uuids users) ∧
    (info.mieru = none ∨ users = [] → m.residual = uuids users)

/-- A reload leaves the mux with exactly the users of the new list if and only if no user of
before is missing from the list and the mux has no users where it is given none. -/
theorem users_reload_eq_iff {m m' : Mieru} {oldTag tag : String} {info : NodeInfo}
    {users : List UserInfo} {closeErr : Option String} {nodeResults userResults : MuxResults}
    (h : m.reload oldTag tag info users closeErr nodeResults userResults = .ok m') :
    m'.mux.users = uuids users ↔ m.ReloadsExactly info users := by
  rw [users_reload h, ReloadsExactly]
  by_cases hmieru : info.mieru = none
  · rw [if_pos (.inl hmieru)]
    exact ⟨fun heq => ⟨fun hne => absurd hmieru hne, fun _ => heq⟩, fun hex => hex.2 (.inl hmieru)⟩
  · have hnil : uuids users = ∅ ↔ users = [] := by
      rw [uuids, List.toFinset_eq_empty_iff, List.map_eq_nil_iff]
    by_cases hempty : m.uidMap.keys ∪ uuids users = ∅
    · obtain ⟨hkeys, husers⟩ := Finset.union_eq_empty.mp hempty
      rw [if_pos (.inr hempty), hkeys, husers]
      exact ⟨fun heq => ⟨fun _ => Finset.empty_subset _, fun _ => heq⟩,
        fun hex => hex.2 (.inr (hnil.mp husers))⟩
    · rw [if_neg (not_or_intro hmieru hempty), Finset.union_eq_right]
      refine ⟨fun hsub => ⟨fun _ => hsub, fun hor => ?_⟩, fun hex => hex.1 hmieru⟩
      have husers := hnil.mpr (hor.resolve_left hmieru)
      rw [husers, Finset.union_empty] at hempty
      rw [husers, Finset.subset_empty] at hsub
      exact absurd hsub hempty

/-- A core that serves the user `a`. -/
def served : Mieru :=
  (({} : Mieru).addNode "n" (mieruInfo 80) {}).1.addUsers "n" [⟨1, "a", 0, 0⟩] {} |>.1

theorem served_reload_add : ∃ m',
    served.reload "n" "n" (mieruInfo 80) [⟨1, "a", 0, 0⟩, ⟨2, "b", 0, 0⟩] none {} {} = .ok m' ∧
      m'.mux.users = uuids [⟨1, "a", 0, 0⟩, ⟨2, "b", 0, 0⟩] := by
  have h : served.reload "n" "n" (mieruInfo 80) [⟨1, "a", 0, 0⟩, ⟨2, "b", 0, 0⟩] none {} {} =
      .ok _ := rfl
  refine ⟨_, h, (users_reload_eq_iff h).mpr ⟨fun _ => by decide, ?_⟩⟩
  rintro (hnone | hnil)
  · cases hnone
  · cases hnil

/-- The user `a` is dropped from the list in the tick in which the node changes, and is still
among the users of the mux after the reload. -/
theorem served_reload_drop : ∃ m',
    served.reload "n" "n" (mieruInfo 80) [⟨2, "b", 0, 0⟩] none {} {} = .ok m' ∧
      m'.mux.users = {"a", "b"} ∧ m'.mux.users ≠ uuids [⟨2, "b", 0, 0⟩] := by
  exact ⟨_, rfl, by decide, by decide⟩

/-! ### Calls that start the mux -/

/-- `Mieru.Start`; `err` is the error of starting the mux. -/
def start (m : Mieru) (err : Option String) : Mieru × Option String :=
  let m := { m with running := true }
  if m.uidMap.keys = ∅ then (m, none)
  else if m.started then (m, none)
  else
    match err with
    | some err => (m, some err)
    | none => ({ m with started := true }, none)

theorem start_fst (m : Mieru) (err : Option String) : (m.start err).1 =
    { m with
      running := true
      started := m.started || (decide (m.uidMap.keys ≠ ∅) && decide (err = none)) } := by
  cases hstarted : m.started with
  | true =>
    unfold start
    by_cases hkeys : m.uidMap.keys = ∅ <;> simp [hkeys, hstarted]
  | false =>
    unfold start
    by_cases hkeys : m.uidMap.keys = ∅
    · simp [hkeys, hstarted]
    · cases err <;> simp [hkeys, hstarted]

/-- Whether `Mieru.applyConfig` reaches the statement that spawns an accept loop. -/
def Launches (m : Mieru) (results : MuxResults) : Prop :=
  m.binding ≠ none ∧ m.uidMap.keys ≠ ∅ ∧ m.running = true ∧ m.started = false ∧ Succeeds results

instance (m : Mieru) (results : MuxResults) : Decidable (m.Launches results) :=
  inferInstanceAs (Decidable (_ ∧ _ ∧ _ ∧ _ ∧ _))

/-- A configuration starts the mux exactly where it spawns a loop. -/
theorem launches_iff (m : Mieru) (results : MuxResults) :
    m.Launches results ↔ m.started = false ∧ (m.applyConfig results).1.started = true := by
  rw [started_applyConfig, Launches]
  by_cases hbinding : m.binding = none
  · rw [if_pos hbinding]
    exact ⟨fun h => absurd hbinding h.1, fun h => absurd (h.1.symm.trans h.2) nofun⟩
  · rw [if_neg hbinding]
    by_cases hkeys : m.uidMap.keys = ∅
    · rw [if_pos hkeys]
      exact ⟨fun h => absurd hkeys h.2.1, fun h => absurd h.2 nofun⟩
    · rw [if_neg hkeys]
      constructor
      · rintro ⟨-, -, hrunning, hstarted, hsucceeds⟩
        exact ⟨hstarted, by rw [hstarted, hrunning, decide_eq_true hsucceeds]; rfl⟩
      · rintro ⟨hstarted, hafter⟩
        rw [hstarted, Bool.false_or, Bool.and_eq_true, decide_eq_true_eq] at hafter
        exact ⟨hbinding, hkeys, hafter.1, hstarted, hafter.2⟩

theorem running_applyConfig (m : Mieru) (results : MuxResults) :
    (m.applyConfig results).1.running = m.running := by
  obtain ⟨mux, started, h⟩ := m.applyConfig_fst results
  rw [h]

end Mieru

/-- The calls of the core that bear on its mux, with what the library answers. -/
inductive MuxCall
  | start (err : Option String)
  | close (err : Option String)
  | addNode (tag : String) (info : NodeInfo) (results : MuxResults)
  | delNode (tag : String) (err : Option String)
  | addUsers (tag : String) (users : List UserInfo) (results : MuxResults)
  | delUsers (users : List UserInfo) (tag : String) (results : MuxResults)

namespace MuxCall

def apply (m : Mieru) : MuxCall → Mieru
  | start err => (m.start err).1
  | close err => (m.close err).1
  | addNode tag info results => (m.addNode tag info results).1
  | delNode tag err => (m.delNode tag err).1
  | addUsers tag users results => (m.addUsers tag users results).1
  | delUsers users tag results => (m.delUsers users tag results).1

/-- Whether the call, made in the state `m`, spawns an accept loop. -/
def Spawns (m : Mieru) : MuxCall → Prop
  | start err => m.uidMap.keys ≠ ∅ ∧ m.started = false ∧ err = none
  | close _ | delNode _ _ => False
  | addNode tag info results =>
    Mieru.Launches { m with nodeInfo := some info, tag := tag, running := true } results
  | addUsers _ users results => Mieru.Launches
    { m with uidMap := GoMap.storeAll UserInfo.uuid UserInfo.id users m.uidMap } results
  | delUsers users _ results => Mieru.Launches
    { m with
      uidMap := GoMap.deleteAll (users.map UserInfo.uuid) m.uidMap
      trafficMap := GoMap.deleteAll (users.map UserInfo.uuid) m.trafficMap
      userConns := GoMap.deleteAll (users.map UserInfo.uuid) m.userConns } results

instance (m : Mieru) : ∀ call, Decidable (Spawns m call)
  | start _ => inferInstanceAs (Decidable (_ ∧ _ ∧ _))
  | close _ | delNode _ _ => inferInstanceAs (Decidable False)
  | addNode _ _ _ | addUsers _ _ _ | delUsers _ _ _ =>
    inferInstanceAs (Decidable (Mieru.Launches _ _))

/-- A call starts the mux exactly where it spawns a loop. -/
theorem spawns_iff (m : Mieru) (call : MuxCall) :
    call.Spawns m ↔ m.started = false ∧ (call.apply m).started = true := by
  cases call with
  | start err =>
    rw [apply, Mieru.start_fst]
    constructor
    · rintro ⟨hkeys, hstarted, rfl⟩
      simp [hkeys, hstarted]
    · rintro ⟨hstarted, hafter⟩
      simp only [hstarted, Bool.false_or, Bool.and_eq_true, decide_eq_true_eq] at hafter
      exact ⟨hafter.1, hstarted, hafter.2⟩
  | close err =>
    refine ⟨nofun, fun h => ?_⟩
    have hafter := h.2
    rw [apply, Mieru.close_fst] at hafter
    cases hafter
  | delNode tag err =>
    refine ⟨nofun, fun h => ?_⟩
    have hafter := h.2
    rw [apply, Mieru.delNode, Mieru.close_fst] at hafter
    cases hafter
  | addNode tag info results => exact Mieru.launches_iff _ results
  | addUsers tag users results =>
    rw [apply, Mieru.addUsers_fst]
    exact Mieru.launches_iff _ results
  | delUsers users tag results => exact Mieru.launches_iff _ results

/-- A mux that is started belongs to a core that is running, and stays so. -/
theorem running_apply {m : Mieru} (h : m.started = true → m.running = true) (call : MuxCall)
    (hstarted : (call.apply m).started = true) : (call.apply m).running = true := by
  have hspawns := spawns_iff m call
  have hbefore : m.running = true ∨ call.Spawns m := by
    cases hm : m.started with
    | false => exact .inr (hspawns.mpr ⟨hm, hstarted⟩)
    | true => exact .inl (h hm)
  cases call with
  | start err => rw [apply, Mieru.start_fst]
  | close err =>
    rw [apply, Mieru.close_fst] at hstarted
    cases hstarted
  | delNode tag err =>
    rw [apply, Mieru.delNode, Mieru.close_fst] at hstarted
    cases hstarted
  | addNode tag info results =>
    rw [apply, Mieru.addNode, Mieru.running_applyConfig]
  | addUsers tag users results =>
    rw [apply, Mieru.addUsers_fst, Mieru.running_applyConfig]
    exact hbefore.elim id fun hlaunch => hlaunch.2.2.1
  | delUsers users tag results =>
    rw [apply, Mieru.delUsers, Mieru.running_applyConfig]
    exact hbefore.elim id fun hlaunch => hlaunch.2.2.1

end MuxCall

/-! ### The accept loops -/

/-- Where an accept loop is: about to look whether the core is running, in the call of `accept`,
or about to look again after `accept` has failed. -/
inductive AcceptPhase
  | checking
  | accepting
  | rechecking
  | ended
deriving DecidableEq, Repr

/-- What an accept loop does next: look whether the core is running, or return from `accept`. -/
inductive LoopStep
  | check
  | accept (ok : Bool)
deriving DecidableEq, Repr

/-- One step of `Mieru.acceptLoop`. A step that is not due changes nothing. -/
def AcceptPhase.advance (running : Bool) : LoopStep → AcceptPhase → AcceptPhase
  | .check, .checking => if running then .accepting else .ended
  | .check, .rechecking => if running then .checking else .ended
  | .accept ok, .accepting => if ok then .checking else .rechecking
  | _, phase => phase

/-- The core and all accept loops that have been spawned, in order. -/
structure AcceptMachine where
  core : Mieru := {}
  loops : List AcceptPhase := []

/-- A call of the core, or a step of the loop with the number `i`. -/
inductive AcceptEvent
  | call (call : MuxCall)
  | loop (i : ℕ) (step : LoopStep)

namespace AcceptMachine

def step (s : AcceptMachine) : AcceptEvent → AcceptMachine
  | .call call =>
    { core := call.apply s.core
      loops := if call.Spawns s.core then s.loops ++ [.checking] else s.loops }
  | .loop i step => { s with loops := s.loops.modify i (.advance s.core.running step) }

/-- The number of loops that have not ended. -/
def alive (s : AcceptMachine) : ℕ :=
  s.loops.countP (· ≠ .ended)

/-- At most one loop, and exactly one while the mux is started. -/
def OneLoop (s : AcceptMachine) : Prop :=
  s.alive ≤ 1 ∧ (s.core.started = true → s.alive = 1)

instance (s : AcceptMachine) : Decidable s.OneLoop :=
  inferInstanceAs (Decidable (_ ∧ _))

/-- The event does not start the mux while a loop of an earlier start is there. -/
def NoOverlap (s : AcceptMachine) : AcceptEvent → Prop
  | .call call => call.Spawns s.core → s.alive = 0
  | .loop _ _ => True

instance (s : AcceptMachine) : ∀ e, Decidable (NoOverlap s e)
  | .call _ => inferInstanceAs (Decidable (_ → _))
  | .loop _ _ => inferInstanceAs (Decidable True)

/-- A step of one loop does not add to the loops that satisfy `p`, unless it makes that loop
satisfy it. -/
theorem countP_modify_le {p : AcceptPhase → Bool} {f : AcceptPhase → AcceptPhase}
    (h : ∀ phase, p (f phase) = true → p phase = true) (loops : List AcceptPhase) (i : ℕ) :
    (loops.modify i f).countP p ≤ loops.countP p := by
  induction loops generalizing i with
  | nil => simp
  | cons phase loops ih =>
    cases i with
    | zero =>
      rw [List.modify_zero_cons, List.countP_cons, List.countP_cons]
      by_cases hp : p (f phase) = true
      · rw [if_pos hp, if_pos (h phase hp)]
      · rw [if_neg hp]
        omega
    | succ i =>
      rw [List.modify_succ_cons, List.countP_cons, List.countP_cons]
      exact Nat.add_le_add_right (ih i) _

theorem countP_modify_eq {p : AcceptPhase → Bool} {f : AcceptPhase → AcceptPhase}
    (h : ∀ phase, p (f phase) = p phase) (loops : List AcceptPhase) (i : ℕ) :
    (loops.modify i f).countP p = loops.countP p := by
  induction loops generalizing i with
  | nil => simp
  | cons phase loops ih =>
    cases i with
    | zero => rw [List.modify_zero_cons, List.countP_cons, List.countP_cons, h]
    | succ i => rw [List.modify_succ_cons, List.countP_cons, List.countP_cons, ih]

theorem alive_loop_le (s : AcceptMachine) (i : ℕ) (st : LoopStep) :
    (s.step (.loop i st)).alive ≤ s.alive := by
  refine countP_modify_le (fun phase halive => ?_) s.loops i
  cases phase with
  | ended => cases st <;> exact halive
  | _ => rfl

/-- While the core is running, no loop ends. -/
theorem alive_loop_of_running {s : AcceptMachine} (h : s.core.running = true) (i : ℕ)
    (st : LoopStep) : (s.step (.loop i st)).alive = s.alive := by
  refine countP_modify_eq (fun phase => ?_) s.loops i
  rw [h]
  rcases st with _ | _ | _ <;> cases phase <;> rfl

theorem alive_call_of_spawns {s : AcceptMachine} {call : MuxCall} (h : call.Spawns s.core) :
    (s.step (.call call)).alive = s.alive + 1 := by
  change List.countP _ (if call.Spawns s.core then s.loops ++ [.checking] else s.loops) = _
  rw [if_pos h, List.countP_append]
  rfl

theorem alive_call_of_not_spawns {s : AcceptMachine} {call : MuxCall}
    (h : ¬ call.Spawns s.core) : (s.step (.call call)).alive = s.alive := by
  change List.countP _ (if call.Spawns s.core then s.loops ++ [.checking] else s.loops) = _
  rw [if_neg h]
  rfl

/-- One loop, of a core that is running while its mux is started. -/
structure Sound (s : AcceptMachine) : Prop where
  oneLoop : s.OneLoop
  running : s.core.started = true → s.core.running = true

theorem Sound.step {s : AcceptMachine} (h : s.Sound) (e : AcceptEvent) (hok : NoOverlap s e) :
    (s.step e).Sound := by
  obtain ⟨⟨hle, hone⟩, hrunning⟩ := h
  cases e with
  | call call =>
    refine ⟨?_, MuxCall.running_apply hrunning call⟩
    by_cases hspawns : call.Spawns s.core
    · have halive := alive_call_of_spawns hspawns
      rw [hok hspawns] at halive
      exact ⟨halive.le, fun _ => halive⟩
    · have halive := alive_call_of_not_spawns hspawns
      rw [OneLoop, halive]
      refine ⟨hle, fun hafter => hone ?_⟩
      by_contra hbefore
      exact hspawns ((call.spawns_iff s.core).mpr ⟨Bool.eq_false_iff.mpr hbefore, hafter⟩)
  | loop i st =>
    refine ⟨⟨(alive_loop_le s i st).trans hle, fun hstarted => ?_⟩, hrunning⟩
    exact (alive_loop_of_running (hrunning hstarted) i st).trans (hone hstarted)

theorem not_oneLoop_of_overlap {s : AcceptMachine} {e : AcceptEvent} (h : ¬ NoOverlap s e) :
    ¬ (s.step e).OneLoop := by
  cases e with
  | call call =>
    obtain ⟨hspawns, halive⟩ := Classical.not_imp.mp h
    rintro ⟨hle, -⟩
    rw [alive_call_of_spawns hspawns] at hle
    omega
  | loop i st => exact absurd trivial h

/-- **One accept loop.** From a new core, all the states of a run have at most one accept loop, and
exactly one while the mux is started, if and only if no call of the run starts the mux while a
loop is there. -/
theorem oneLoop_iff_noOverlap (es : List AcceptEvent) :
    (∀ p q, es = p ++ q → (p.foldl step {}).OneLoop) ↔ Guarded step NoOverlap {} es := by
  have hsafe : ∀ s : AcceptMachine, s.Sound → s.OneLoop := fun _ h => h.oneLoop
  have hstep : ∀ s, ∀ e ∈ es, Sound s → NoOverlap s e → Sound (step s e) :=
    fun s e _ h hok => h.step e hok
  have hbad : ∀ s, ∀ e ∈ es, Sound s → ¬ NoOverlap s e → ¬ OneLoop (step s e) :=
    fun s e _ _ hnot => not_oneLoop_of_overlap hnot
  have hinit : Sound {} := ⟨⟨Nat.zero_le _, nofun⟩, nofun⟩
  exact (Guarded.iff_forall_safe hsafe hstep hbad hinit).symm

/-- The users are removed and added again, before and after which the core is running: the loop of
the first start is still there when the second one is spawned. -/
theorem refilled_two_loops :
    let a : UserInfo := ⟨1, "a", 0, 0⟩
    let s := [.call (.addNode "n" (mieruInfo 80) {}), .call (.addUsers "n" [a] {}),
      .call (.delUsers [a] "n" {}), .call (.addUsers "n" [a] {})].foldl step {}
    s.alive = 2 ∧ ¬ s.OneLoop := by
  decide

end AcceptMachine

end Tox.Core
