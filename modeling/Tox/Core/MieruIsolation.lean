import Tox.Foundation.Run
import Tox.Core.Mieru

/-!
# Nodes of one mieru core

A mieru core can be given several nodes through the interface, but keeps the state of one. A call
for one node replaces the settings of the other, adds and removes its users, stops its listener and
takes its traffic. A node is served as in the run restricted to its own calls if the calls for
other nodes ask for nothing but what is there already (`mieru_node_unaffected`).

The loop of a report visits the users in an order that is not fixed, so two reports are compared up
to the order of their entries.
-/

namespace Tox.Core

open Tox.Foundation Tox.Counter Tox.Panel

/-! ### Runs -/

/-- A mieru core and the users of the connections of every node, the first one first. -/
structure MieruRun where
  core : Mieru := {}
  conns : String → List String := fun _ => []

/-- The calls for a node. -/
inductive MieruCall
  | addNode (info : NodeInfo) (results : MuxResults)
  | delNode (err : Option String)
  | addUsers (users : List UserInfo) (results : MuxResults)
  | delUsers (users : List UserInfo) (results : MuxResults)
  /-- A connection of a user is bridged. `handleConnection` has admitted it: its check with the
  limiter of `m.tag` is left out. -/
  | connect (user : String)
  /-- A connection, given by its position, counts an amount. -/
  | transfer (i : ℕ) (d : Direction) (n : Int64)
  | getUserTrafficSlice (reset : Bool) (range : RangeOrder String)

/-- A call for the node `tag`. -/
structure MieruEvent where
  tag : String
  call : MieruCall

namespace MieruRun

/-- One call. -/
def step (s : MieruRun) (e : MieruEvent) : MieruRun :=
  match e.call with
  | .addNode info results => { s with core := (s.core.addNode e.tag info results).1 }
  | .delNode err => { s with core := (s.core.delNode e.tag err).1 }
  | .addUsers users results => { s with core := (s.core.addUsers e.tag users results).1 }
  | .delUsers users results => { s with core := (s.core.delUsers users e.tag results).1 }
  | .connect user =>
    { core := s.core.bridge user (e.tag, (s.conns e.tag).length)
      conns := Function.update s.conns e.tag (s.conns e.tag ++ [user]) }
  | .transfer i d n =>
    match (s.conns e.tag)[i]? with
    | none => s
    | some user => { s with core := s.core.transfer user (e.tag, i) d n }
  | .getUserTrafficSlice reset range =>
    { s with core := (s.core.getUserTrafficSlice e.tag reset range).1 }

/-- What a call returns to the report task. The order of the entries is that of the loop over a
map and is not fixed. -/
def slice (s : MieruRun) (e : MieruEvent) : Option (Multiset UserTraffic) :=
  match e.call with
  | .getUserTrafficSlice reset range => some (s.core.getUserTrafficSlice e.tag reset range).2
  | _ => none

end MieruRun

/-- A call for another node than `t` asks for nothing new. The settings it brings are in force, the
users it adds are there with the same id, the users it removes are not there, have no traffic and no
connection of `t`, the core it stops is not running, its connections count nothing, and it takes no
traffic out of the counters. -/
def Idle (t : String) (s : MieruRun) (e : MieruEvent) : Prop :=
  e.tag ≠ t →
    match e.call with
    | .addNode info _ => s.core.binding = info.mieru.map portBinding ∧ s.core.running = true ∧
      s.core.Settled
    | .delNode _ => s.core.running = false ∧ s.core.started = false
    | .addUsers users _ =>
      (∀ u ∈ users, s.core.uidMap.lookup u.uuid = some u.id) ∧ s.core.Settled
    | .delUsers users _ =>
      (∀ u ∈ users, u.uuid ∉ s.core.uidMap ∧ s.core.traffic u.uuid = {} ∧
        ∀ i, (t, i) ∉ GoMap.getD s.core.userConns u.uuid []) ∧ s.core.Settled
    | .connect _ => True
    | .transfer i _ n => n = 0 ∨ ∀ user, (s.conns e.tag)[i]? = some user →
      (e.tag, i) ∉ GoMap.getD s.core.userConns user []
    | .getUserTrafficSlice reset _ => reset = false ∨ ∀ u, ¬ Mieru.Positive (s.core.traffic u)

/-! ### Cores that serve alike -/

namespace Mieru

variable {m m' m'' : Mieru}

/-- The mux, the users, the settings and the traffic are the same. The tag, the storages without
traffic and the connections may differ. -/
structure SameService (m m' : Mieru) : Prop where
  mux : m.mux = m'.mux
  running : m.running = m'.running
  started : m.started = m'.started
  uidMap : m.uidMap = m'.uidMap
  binding : m.binding = m'.binding
  traffic : ∀ u, m.traffic u = m'.traffic u

namespace SameService

theorem refl (m : Mieru) : SameService m m := ⟨rfl, rfl, rfl, rfl, rfl, fun _ => rfl⟩

theorem trans (h : SameService m m') (h' : SameService m' m'') : SameService m m'' :=
  ⟨h.mux.trans h'.mux, h.running.trans h'.running, h.started.trans h'.started,
    h.uidMap.trans h'.uidMap, h.binding.trans h'.binding,
    fun u => (h.traffic u).trans (h'.traffic u)⟩

theorem applyConfig (h : SameService m m') (results : MuxResults) :
    SameService (m.applyConfig results).1 (m'.applyConfig results).1 := by
  unfold Mieru.applyConfig
  rw [h.binding, h.uidMap, h.running, h.started, h.mux]
  cases m'.binding with
  | none => exact h
  | some binding => exact ⟨rfl, rfl, rfl, rfl, h.binding, h.traffic⟩

/-- A core that serves like one whose configuration is in force still does after the configuration
has been applied. -/
theorem applyConfig_of_settled (h : SameService m m') (hsettled : m'.Settled)
    (results : MuxResults) : SameService (m.applyConfig results).1 m' := by
  have happly := h.applyConfig results
  rwa [Mieru.applyConfig_of_settled hsettled] at happly

theorem close (h : SameService m m') (err : Option String) :
    SameService (m.close err).1 (m'.close err).1 := by
  unfold Mieru.close
  rw [h.started]
  split_ifs
  · exact ⟨rfl, rfl, rfl, h.uidMap, h.binding, h.traffic⟩
  · exact ⟨h.mux, rfl, rfl, h.uidMap, h.binding, h.traffic⟩

/-- The slices have the same entries: only a storage with traffic gives one. -/
theorem slice (h : SameService m m') (tag : String) (reset : Bool) (range : RangeOrder String) :
    ((m.getUserTrafficSlice tag reset range).2 : Multiset UserTraffic) =
      (m'.getUserTrafficSlice tag reset range).2 := by
  rw [getUserTrafficSlice_snd, getUserTrafficSlice_snd, Multiset.coe_eq_coe, h.uidMap,
    funext h.traffic]
  refine range.perm_filterMap_keys range fun u hu => ?_
  have hpos := positive_of_isSome_userEntry hu
  exact ⟨mem_trafficMap_of_positive ((h.traffic u).symm ▸ hpos), mem_trafficMap_of_positive hpos⟩

theorem getUserTrafficSlice (h : SameService m m') (tag : String) (reset : Bool)
    (range : RangeOrder String) :
    SameService (m.getUserTrafficSlice tag reset range).1
      (m'.getUserTrafficSlice tag reset range).1 := by
  refine ⟨h.mux, h.running, h.started, h.uidMap, h.binding, fun u => ?_⟩
  rw [traffic_getUserTrafficSlice, traffic_getUserTrafficSlice, h.traffic]

end SameService

/-! ### The traffic after a call -/

theorem traffic_bridge (user : String) (conn : String × ℕ) (u : String) :
    (m.bridge user conn).traffic u = m.traffic u := by
  unfold bridge
  by_cases huser : user ∈ m.trafficMap
  · simp only [traffic, if_pos huser]
  · simp only [traffic, if_neg huser, GoMap.getD_insert]
    split_ifs with hu
    · subst hu
      exact (GoMap.getD_of_notMem huser {}).symm
    · rfl

theorem traffic_transfer (user : String) (conn : String × ℕ) (d : Direction) (n : Int64)
    (u : String) : (m.transfer user conn d n).traffic u =
      if u = user ∧ conn ∈ GoMap.getD m.userConns user [] then (m.traffic u).add d n
      else m.traffic u := by
  unfold transfer
  by_cases hopen : conn ∈ GoMap.getD m.userConns user []
  · have hiff : (u = user ∧ conn ∈ GoMap.getD m.userConns user []) ↔ u = user :=
      and_iff_left hopen
    rw [if_pos hopen, if_congr hiff rfl rfl]
    refine (GoMap.getD_insert _ _ _ _ _).trans ?_
    split_ifs with hu
    · subst hu
      rfl
    · rfl
  · rw [if_neg hopen, if_neg fun h => hopen h.2]

theorem transfer_fst (user : String) (conn : String × ℕ) (d : Direction) (n : Int64) :
    ∃ trafficMap, m.transfer user conn d n = { m with trafficMap := trafficMap } := by
  unfold transfer
  split_ifs
  · exact ⟨_, rfl⟩
  · exact ⟨m.trafficMap, rfl⟩

theorem userConns_transfer (user : String) (conn : String × ℕ) (d : Direction) (n : Int64) :
    (m.transfer user conn d n).userConns = m.userConns := by
  obtain ⟨trafficMap, h⟩ := m.transfer_fst user conn d n
  rw [h]

theorem userConns_close (err : Option String) : (m.close err).1.userConns = m.userConns := by
  unfold close
  split_ifs <;> rfl

namespace SameService

theorem transfer {user : String} {conn : String × ℕ} (h : SameService m m')
    (hopen : conn ∈ GoMap.getD m.userConns user [] ↔ conn ∈ GoMap.getD m'.userConns user [])
    (d : Direction) (n : Int64) :
    SameService (m.transfer user conn d n) (m'.transfer user conn d n) := by
  have htraffic (u : String) :
      (m.transfer user conn d n).traffic u = (m'.transfer user conn d n).traffic u := by
    rw [traffic_transfer, traffic_transfer, if_congr (and_congr_right' hopen) rfl rfl, h.traffic]
  obtain ⟨map, hmap⟩ := m.transfer_fst user conn d n
  obtain ⟨map', hmap'⟩ := m'.transfer_fst user conn d n
  rw [hmap, hmap'] at htraffic ⊢
  exact ⟨h.mux, h.running, h.started, h.uidMap, h.binding, htraffic⟩

/-- Nothing is counted by zero bytes, and by a connection that is closed. -/
theorem transfer_of_idle {user : String} {conn : String × ℕ} {d : Direction} {n : Int64}
    (h : n = 0 ∨ conn ∉ GoMap.getD m.userConns user []) :
    SameService (m.transfer user conn d n) m := by
  have htraffic (u : String) : (m.transfer user conn d n).traffic u = m.traffic u := by
    rw [traffic_transfer]
    split_ifs with hu
    · obtain rfl : n = 0 := h.resolve_right fun hclosed => hclosed hu.2
      cases d <;> simp [TrafficStorage.add]
    · rfl
  obtain ⟨map, hmap⟩ := m.transfer_fst user conn d n
  rw [hmap] at htraffic ⊢
  exact ⟨rfl, rfl, rfl, rfl, rfl, htraffic⟩

end SameService

end Mieru

/-! ### Runs that the node cannot tell apart -/

/-- The cores serve alike, and the node `t` has the same open connections. -/
structure SameConns (t : String) (s s' : MieruRun) : Prop where
  service : s.core.SameService s'.core
  conns : s.conns t = s'.conns t
  userConns : ∀ user i, (t, i) ∈ GoMap.getD s.core.userConns user [] ↔
    (t, i) ∈ GoMap.getD s'.core.userConns user []

namespace SameConns

variable {t : String} {s s' s'' : MieruRun} {e : MieruEvent}

theorem refl (s : MieruRun) : SameConns t s s := ⟨.refl _, rfl, fun _ _ => Iff.rfl⟩

theorem trans (h : SameConns t s s') (h' : SameConns t s' s'') : SameConns t s s'' :=
  ⟨h.service.trans h'.service, h.conns.trans h'.conns,
    fun user i => (h.userConns user i).trans (h'.userConns user i)⟩

/-! A call for another node that asks for nothing new, one kind of call after the other. -/

section Other

variable {tag : String}

theorem addNode_of_idle {info : NodeInfo} (hbinding : s.core.binding = info.mieru.map portBinding)
    (hrunning : s.core.running = true) (hsettled : s.core.Settled) (results : MuxResults) :
    SameConns t (s.step ⟨tag, .addNode info results⟩) s := by
  refine ⟨Mieru.SameService.applyConfig_of_settled ?_ hsettled results, rfl, fun user i => ?_⟩
  · exact ⟨rfl, hrunning.symm, rfl, rfl, hbinding.symm, fun _ => rfl⟩
  · simp only [MieruRun.step, Mieru.addNode, Mieru.userConns_applyConfig]

theorem delNode_of_idle (hrunning : s.core.running = false) (hstarted : s.core.started = false)
    (err : Option String) : SameConns t (s.step ⟨tag, .delNode err⟩) s := by
  have hcore : (s.core.delNode tag err).1 = s.core := by
    have hstarted' : ¬ s.core.started = true := by rw [hstarted]; decide
    rw [Mieru.delNode, Mieru.close, if_neg hstarted', ← hrunning]
  simp only [MieruRun.step, hcore]
  exact refl s

theorem addUsers_of_idle {users : List UserInfo}
    (husers : ∀ u ∈ users, s.core.uidMap.lookup u.uuid = some u.id) (hsettled : s.core.Settled)
    (results : MuxResults) : SameConns t (s.step ⟨tag, .addUsers users results⟩) s := by
  have hcore : (s.core.addUsers tag users results).1 = s.core := by
    rw [Mieru.addUsers_fst, GoMap.storeAll_of_forall_lookup _ _ husers]
    exact Mieru.applyConfig_of_settled hsettled results
  simp only [MieruRun.step, hcore]
  exact refl s

theorem delUsers_of_idle {users : List UserInfo}
    (husers : ∀ u ∈ users, u.uuid ∉ s.core.uidMap ∧ s.core.traffic u.uuid = {} ∧
      ∀ i, (t, i) ∉ GoMap.getD s.core.userConns u.uuid [])
    (hsettled : s.core.Settled) (results : MuxResults) :
    SameConns t (s.step ⟨tag, .delUsers users results⟩) s := by
  refine ⟨Mieru.SameService.applyConfig_of_settled ?_ hsettled results, rfl, fun user i => ?_⟩
  · have hkeys : ∀ uuid ∈ users.map UserInfo.uuid, uuid ∉ s.core.uidMap :=
      List.forall_mem_map.mpr fun u hu => (husers u hu).1
    refine ⟨rfl, rfl, rfl, GoMap.deleteAll_of_forall_notMem hkeys, rfl, fun uuid => ?_⟩
    refine (GoMap.getD_deleteAll _ _ _ _).trans ?_
    split_ifs with huuid
    · obtain ⟨u, hu, rfl⟩ := List.mem_map.mp huuid
      exact (husers u hu).2.1.symm
    · rfl
  · simp only [MieruRun.step, Mieru.delUsers, Mieru.userConns_applyConfig, GoMap.getD_deleteAll]
    split_ifs with huuid
    · obtain ⟨u, hu, rfl⟩ := List.mem_map.mp huuid
      exact iff_of_false List.not_mem_nil ((husers u hu).2.2 i)
    · rfl

theorem connect_of_ne (htag : tag ≠ t) (user : String) :
    SameConns t (s.step ⟨tag, .connect user⟩) s := by
  refine ⟨⟨rfl, rfl, rfl, rfl, rfl, Mieru.traffic_bridge user _⟩,
    Function.update_of_ne (Ne.symm htag) _ _, fun u i => ?_⟩
  simp only [MieruRun.step, Mieru.bridge, GoMap.getD_insert]
  split_ifs with hu
  · subst hu
    simp only [List.mem_cons, Prod.mk.injEq, Ne.symm htag, false_and, false_or]
  · rfl

theorem transfer_of_idle {i : ℕ} {n : Int64} (h : n = 0 ∨ ∀ user, (s.conns tag)[i]? = some user →
      (tag, i) ∉ GoMap.getD s.core.userConns user []) (d : Direction) :
    SameConns t (s.step ⟨tag, .transfer i d n⟩) s := by
  simp only [MieruRun.step]
  split
  · exact refl s
  · rename_i user huser
    exact ⟨.transfer_of_idle (h.imp_right fun h => h user huser), rfl,
      fun _ _ => by rw [Mieru.userConns_transfer]⟩

theorem getUserTrafficSlice_of_idle {reset : Bool}
    (h : reset = false ∨ ∀ u, ¬ Mieru.Positive (s.core.traffic u)) (range : RangeOrder String) :
    SameConns t (s.step ⟨tag, .getUserTrafficSlice reset range⟩) s := by
  refine ⟨⟨rfl, rfl, rfl, rfl, rfl, fun u => ?_⟩, rfl, fun _ _ => Iff.rfl⟩
  refine (s.core.traffic_getUserTrafficSlice tag reset range u).trans (if_neg ?_)
  rintro ⟨hreset, hpos⟩
  rcases h with h | h
  · exact absurd (hreset.symm.trans h) (by decide)
  · exact h u hpos

end Other

/-- A call for another node that asks for nothing new. -/
theorem step_of_ne (htag : e.tag ≠ t) (hok : Idle t s e) : SameConns t (s.step e) s := by
  have hidle := hok htag
  obtain ⟨tag, ⟨info, results⟩ | err | ⟨users, results⟩ | ⟨users, results⟩ | user | ⟨i, d, n⟩ |
    ⟨reset, range⟩⟩ := e
  · exact addNode_of_idle hidle.1 hidle.2.1 hidle.2.2 results
  · exact delNode_of_idle hidle.1 hidle.2 err
  · exact addUsers_of_idle hidle.1 hidle.2 results
  · exact delUsers_of_idle hidle.1 hidle.2 results
  · exact connect_of_ne htag user
  · exact transfer_of_idle hidle d
  · exact getUserTrafficSlice_of_idle hidle range

/-! The same call for the node. -/

theorem addNode (h : SameConns t s s') (info : NodeInfo) (results : MuxResults) :
    SameConns t (s.step ⟨t, .addNode info results⟩) (s'.step ⟨t, .addNode info results⟩) := by
  refine ⟨Mieru.SameService.applyConfig ?_ results, h.conns, fun user i => ?_⟩
  · exact ⟨h.service.mux, rfl, h.service.started, h.service.uidMap, rfl, h.service.traffic⟩
  · simp only [MieruRun.step, Mieru.addNode, Mieru.userConns_applyConfig]
    exact h.userConns user i

theorem delNode (h : SameConns t s s') (err : Option String) :
    SameConns t (s.step ⟨t, .delNode err⟩) (s'.step ⟨t, .delNode err⟩) := by
  refine ⟨h.service.close err, h.conns, fun user i => ?_⟩
  simp only [MieruRun.step, Mieru.delNode, Mieru.userConns_close]
  exact h.userConns user i

theorem addUsers (h : SameConns t s s') (users : List UserInfo) (results : MuxResults) :
    SameConns t (s.step ⟨t, .addUsers users results⟩) (s'.step ⟨t, .addUsers users results⟩) := by
  refine ⟨?_, h.conns, fun user i => ?_⟩
  · simp only [MieruRun.step, Mieru.addUsers_fst]
    refine Mieru.SameService.applyConfig ?_ results
    exact ⟨h.service.mux, h.service.running, h.service.started,
      congrArg (GoMap.storeAll _ _ users) h.service.uidMap, h.service.binding, h.service.traffic⟩
  · simp only [MieruRun.step, Mieru.addUsers_fst, Mieru.userConns_applyConfig]
    exact h.userConns user i

theorem delUsers (h : SameConns t s s') (users : List UserInfo) (results : MuxResults) :
    SameConns t (s.step ⟨t, .delUsers users results⟩) (s'.step ⟨t, .delUsers users results⟩) := by
  refine ⟨Mieru.SameService.applyConfig ?_ results, h.conns, fun user i => ?_⟩
  · refine ⟨h.service.mux, h.service.running, h.service.started,
      congrArg (GoMap.deleteAll _) h.service.uidMap, h.service.binding, fun u => ?_⟩
    refine (GoMap.getD_deleteAll _ _ _ _).trans (.trans ?_ (GoMap.getD_deleteAll _ _ _ _).symm)
    exact if_congr Iff.rfl rfl (h.service.traffic u)
  · simp only [MieruRun.step, Mieru.delUsers, Mieru.userConns_applyConfig, GoMap.getD_deleteAll]
    split_ifs
    · rfl
    · exact h.userConns user i

theorem connect (h : SameConns t s s') (user : String) :
    SameConns t (s.step ⟨t, .connect user⟩) (s'.step ⟨t, .connect user⟩) := by
  refine ⟨⟨h.service.mux, h.service.running, h.service.started, h.service.uidMap,
    h.service.binding, fun u => ?_⟩, ?_, fun u i => ?_⟩
  · refine (Mieru.traffic_bridge _ _ u).trans (.trans ?_ (Mieru.traffic_bridge _ _ u).symm)
    exact h.service.traffic u
  · simp only [MieruRun.step, Function.update_self, h.conns]
  · simp only [MieruRun.step, Mieru.bridge, GoMap.getD_insert]
    split_ifs with hu
    · subst hu
      simp only [List.mem_cons, h.conns]
      exact or_congr_right (h.userConns u i)
    · exact h.userConns u i

theorem transfer (h : SameConns t s s') (i : ℕ) (d : Direction) (n : Int64) :
    SameConns t (s.step ⟨t, .transfer i d n⟩) (s'.step ⟨t, .transfer i d n⟩) := by
  simp only [MieruRun.step, h.conns]
  split
  · exact h
  · rename_i user _
    refine ⟨h.service.transfer (h.userConns user i) d n, h.conns, fun u j => ?_⟩
    rw [Mieru.userConns_transfer, Mieru.userConns_transfer]
    exact h.userConns u j

/-- The same call for the node. -/
theorem step (h : SameConns t s s') (call : MieruCall) :
    s.slice ⟨t, call⟩ = s'.slice ⟨t, call⟩ ∧
      SameConns t (s.step ⟨t, call⟩) (s'.step ⟨t, call⟩) := by
  rcases call with ⟨info, results⟩ | err | ⟨users, results⟩ | ⟨users, results⟩ | user |
    ⟨i, d, n⟩ | ⟨reset, range⟩
  · exact ⟨rfl, h.addNode info results⟩
  · exact ⟨rfl, h.delNode err⟩
  · exact ⟨rfl, h.addUsers users results⟩
  · exact ⟨rfl, h.delUsers users results⟩
  · exact ⟨rfl, h.connect user⟩
  · exact ⟨rfl, h.transfer i d n⟩
  · exact ⟨congrArg some (h.service.slice t reset range),
      h.service.getUserTrafficSlice t reset range, h.conns, h.userConns⟩

end SameConns

/-- **Nodes of one mieru core.** Let every call for another node than `t` ask for nothing new. Then
the slices that the node gets are those of the run restricted to its own calls, and at the end of
the two runs the mux has the same users and endpoints and listens or not alike. -/
theorem mieru_node_unaffected (s : MieruRun) (t : String) (events : List MieruEvent)
    (hevents : Guarded MieruRun.step (Idle t) s events) :
    let own := events.filter fun e => e.tag = t
    let s₁ := events.foldl MieruRun.step s
    let s₂ := own.foldl MieruRun.step s
    observe MieruRun.step MieruRun.slice (fun e => e.tag = t) s events =
        observe MieruRun.step MieruRun.slice (fun e => e.tag = t) s own ∧
      s₁.core.mux = s₂.core.mux ∧ s₁.core.started = s₂.core.started := by
  intro own s₁ s₂
  have hruns : observe MieruRun.step MieruRun.slice (fun e => e.tag = t) s events =
      observe MieruRun.step MieruRun.slice (fun e => e.tag = t) s own ∧ SameConns t s₁ s₂ := by
    refine hevents.unwinding (R := SameConns t) ?_ ?_ (.refl s)
    · intro s s' e h hkeep hok
      exact (SameConns.step_of_ne (of_decide_eq_false hkeep) hok).trans h
    · rintro s s' ⟨tag, call⟩ h hkeep -
      obtain rfl : tag = t := of_decide_eq_true hkeep
      exact h.step call
  obtain ⟨hslices, hsame⟩ := hruns
  exact ⟨hslices, hsame.service.mux, hsame.service.started⟩

/-- A node with a user and traffic, calls for another node, and a report of the first. -/
def callsBeforeReport (calls : List MieruCall) : List MieruEvent :=
  let user : UserInfo := { id := 1, uuid := "a", speedLimit := 0, deviceLimit := 0 }
  [⟨"n2", .addNode (mieruInfo 80) {}⟩, ⟨"n2", .addUsers [user] {}⟩, ⟨"n2", .connect "a"⟩,
    ⟨"n2", .transfer 0 .up 10⟩] ++ calls.map (⟨"n1", ·⟩) ++
    [⟨"n2", .getUserTrafficSlice true .ascending⟩]

/-- Adding the same settings and the same user for the other node changes nothing. -/
theorem callsBeforeReport_same :
    let user : UserInfo := { id := 1, uuid := "a", speedLimit := 0, deviceLimit := 0 }
    let events := callsBeforeReport [.addNode (mieruInfo 80) {}, .addUsers [user] {}]
    let own := events.filter fun e => e.tag = "n2"
    observe MieruRun.step MieruRun.slice (fun e => e.tag = "n2") {} events =
        observe MieruRun.step MieruRun.slice (fun e => e.tag = "n2") {} own ∧
      (events.foldl MieruRun.step {}).core.mux = (own.foldl MieruRun.step {}).core.mux ∧
      (events.foldl MieruRun.step {}).core.started = (own.foldl MieruRun.step {}).core.started := by
  refine mieru_node_unaffected {} "n2" _ ⟨fun h => absurd rfl h, fun h => absurd rfl h,
    fun h => absurd rfl h, fun h => absurd rfl h, fun _ => ⟨rfl, rfl, by decide⟩,
    fun _ => ⟨by decide, by decide⟩, fun h => absurd rfl h, trivial⟩

/-- The other node is added, reports and is removed again: the traffic has been reported for the
other node, the listener is stopped and the user is no longer admitted. -/
theorem callsBeforeReport_affected :
    let events := callsBeforeReport [.addNode (mieruInfo 81) {},
      .getUserTrafficSlice true .ascending, .delNode none]
    let own := events.filter fun e => e.tag = "n2"
    let s₁ := events.foldl MieruRun.step {}
    let s₂ := own.foldl MieruRun.step {}
    observe MieruRun.step MieruRun.slice (fun e => e.tag = "n2") {} events =
        [none, none, none, none, some 0] ∧
      observe MieruRun.step MieruRun.slice (fun e => e.tag = "n2") {} own =
        [none, none, none, none, some {⟨1, 10, 0⟩}] ∧
      s₁.core.mux.users = ∅ ∧ s₂.core.mux.users = {"a"} ∧
      s₁.core.started = false ∧ s₂.core.started = true := by
  decide

end Tox.Core
