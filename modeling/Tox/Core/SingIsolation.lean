import Tox.Foundation.Run
import Tox.Core.Sing
import Tox.Core.Isolation

/-!
# Nodes of one sing core

A sing core serves several nodes. Their counters are separate, but the user ids of all nodes are in
one map under the bare uuid, and a report looks the ids up when it is made. A node that removes a
user therefore takes away the id under which another node reports the traffic of the same user, and
a node that adds a user with another id changes it.

The slices of a node are the same in a run of the core and in the run restricted to the calls of
the node, if the calls of the other nodes leave the ids of the users that the node knows as they
are (`slices_eq_of_harmless`).
-/

namespace Tox.Core

open Tox.Foundation Tox.Counter Tox.Panel

/-! ### Runs -/

/-- A sing core and the storages of the connections of every node, the latest first. -/
structure SingRun where
  core : Sing := {}
  conns : String → List ℕ := fun _ => []

/-- The calls for a node. The error arguments are those of the functions of `Sing`. -/
inductive SingCall
  | addNode (info : NodeInfo) (reportMinTraffic : Int64) (err : Option String)
  | delNode (err : Option String)
  | addUsers (users : List UserInfo) (update : Option String)
  | delUsers (users : List UserInfo) (update : Option String)
  /-- A user opens a connection. -/
  | connect (user : String)
  /-- A connection, given by its position, counts an amount. -/
  | transfer (i : ℕ) (d : Direction) (n : Int64)
  | getUserTrafficSlice (reset : Bool) (range : RangeOrder String)

/-- A call for the node `tag`. -/
structure SingEvent where
  tag : String
  call : SingCall

namespace SingRun

/-- One call. A connection is opened only by a user of the inbound. -/
def step (s : SingRun) (e : SingEvent) : SingRun :=
  match e.call with
  | .addNode info min err => { s with core := (s.core.addNode e.tag info min err).1 }
  | .delNode err => { s with core := (s.core.delNode e.tag err).1 }
  | .addUsers users update => { s with core := (s.core.addUsers e.tag users update).1 }
  | .delUsers users update => { s with core := (s.core.delUsers e.tag users update).1 }
  | .connect user =>
    if s.core.Admits e.tag user then
      let (core, p) := s.core.routedConnection e.tag user
      { core := core, conns := Function.update s.conns e.tag (p :: s.conns e.tag) }
    else s
  | .transfer i d n =>
    match (s.conns e.tag)[i]? with
    | none => s
    | some p => { s with core := s.core.transfer e.tag p d n }
  | .getUserTrafficSlice reset range =>
    { s with core := (s.core.getUserTrafficSlice e.tag reset range).1 }

/-- What a call returns to the report task. -/
def slice (s : SingRun) (e : SingEvent) : Option (List UserTraffic) :=
  match e.call with
  | .getUserTrafficSlice reset range => some (s.core.getUserTrafficSlice e.tag reset range).2
  | _ => none

end SingRun

/-- The users whose traffic the node `tag` can report: those it lets in, and those it has counted
for. -/
def Sing.Known (b : Sing) (tag user : String) : Prop :=
  b.Admits tag user ∨ user ∈ (b.registry.trafficCounter tag).counters

instance (b : Sing) (tag user : String) : Decidable (b.Known tag user) :=
  inferInstanceAs (Decidable (_ ∨ _))

/-- A call of another node leaves the user ids of the users that the node `t` knows as they are:
such a user is added only with the id it has, and removed only if it has none. -/
def Harmless (t : String) (s : SingRun) (e : SingEvent) : Prop :=
  e.tag ≠ t → e.tag ∈ s.core.inbounds →
    match e.call with
    | .addUsers users _ =>
      ∀ u ∈ users, s.core.Known t u.uuid → u.id = s.core.registry.uid u.uuid
    | .delUsers users _ => ∀ u ∈ users, s.core.Known t u.uuid → s.core.registry.uid u.uuid = 0
    | _ => True

namespace Sing

variable {b : Sing} {t : String}

/-- To prove something of the users that a node knows, prove it of fallback traffic, of the users
of the inbound and of the users that have counters. -/
theorem Known.elim {user : String} {P : String → Prop} (h : b.Known t user) (hempty : P "")
    (husers : ∀ u ∈ b.users t, P u)
    (hcounters : ∀ u ∈ (b.registry.trafficCounter t).counters, P u) : P user := by
  rcases h with (rfl | h) | h
  · exact hempty
  · exact husers user h
  · exact hcounters user h

theorem known_empty : b.Known t "" := Or.inl (Or.inl rfl)

theorem known_of_mem_users {user : String} (h : user ∈ b.users t) : b.Known t user :=
  Or.inl (Or.inr h)

theorem known_of_mem_counters {user : String}
    (h : user ∈ (b.registry.trafficCounter t).counters) : b.Known t user :=
  Or.inr h

theorem users_of_lookup {i : Inbound} (h : b.inbounds.lookup t = some i) : b.users t = i.users := by
  rw [users, h, Option.map_some, Option.getD_some]

theorem users_of_none (h : b.inbounds.lookup t = none) : b.users t = [] := by
  rw [users, h, Option.map_none, Option.getD_none]

end Sing

/-! ### Runs that the node cannot tell apart -/

/-- The node `t` has the same inbound and the same connections in both states, and the registries
agree for it on the users that it knows. -/
structure SameNode (t : String) (s s' : SingRun) : Prop where
  inbound : s.core.inbounds.lookup t = s'.core.inbounds.lookup t
  conns : s.conns t = s'.conns t
  registry : s.core.registry.Agree t (s'.core.Known t) s'.core.registry

namespace SameNode

variable {t : String} {s s' s'' : SingRun} {e : SingEvent}

theorem admits_iff (h : SameNode t s s') (user : String) :
    s.core.Admits t user ↔ s'.core.Admits t user := by
  simp only [Sing.Admits, Sing.users, h.inbound]

theorem known_iff (h : SameNode t s s') (user : String) :
    s.core.Known t user ↔ s'.core.Known t user := by
  simp only [Sing.Known, h.admits_iff, h.registry.counter]

theorem trans (h : SameNode t s s') (h' : SameNode t s' s'') : SameNode t s s'' :=
  ⟨h.inbound.trans h'.inbound, h.conns.trans h'.conns,
    (h.registry.mono fun k hk => (h'.known_iff k).mpr hk).trans h'.registry⟩

/-- A call of another node that is harmless. -/
theorem step_of_ne (htag : t ≠ e.tag) (hok : Harmless t s e) : SameNode t (s.step e) s := by
  obtain ⟨tag, call⟩ := e
  have hlookup : ∀ i, (s.core.inbounds.insert tag i).lookup t = s.core.inbounds.lookup t :=
    fun i => Finmap.lookup_insert_of_ne _ htag
  cases call with
  | addNode info min err =>
    cases err with
    | some err => exact ⟨rfl, rfl, TrafficRegistry.agree_setMinTraffic_of_ne _ _ htag _⟩
    | none => exact ⟨hlookup _, rfl, TrafficRegistry.agree_setMinTraffic_of_ne _ _ htag _⟩
  | delNode err =>
    simp only [SingRun.step, Sing.delNode]
    split_ifs
    · exact ⟨Finmap.lookup_erase_ne htag, rfl, .refl _⟩
    · exact ⟨rfl, rfl, .refl _⟩
  | addUsers users update =>
    cases hi : s.core.inbounds.lookup tag with
    | none =>
      simp only [SingRun.step, Sing.addUsers, hi]
      exact ⟨rfl, rfl, .refl _⟩
    | some i =>
      simp only [SingRun.step, Sing.addUsers, hi]
      exact ⟨hlookup _, rfl, TrafficRegistry.agree_register_of_forall
        (hok (Ne.symm htag) (Finmap.mem_of_lookup_eq_some hi))⟩
  | delUsers users update =>
    cases hi : s.core.inbounds.lookup tag with
    | none =>
      simp only [SingRun.step, Sing.delUsers, hi]
      exact ⟨rfl, rfl, .refl _⟩
    | some i =>
      simp only [SingRun.step, Sing.delUsers, hi]
      exact ⟨hlookup _, rfl, TrafficRegistry.agree_foldl_forget_of_ne htag UserInfo.uuid
        (hok (Ne.symm htag) (Finmap.mem_of_lookup_eq_some hi))⟩
  | connect user =>
    simp only [SingRun.step]
    split_ifs
    · exact ⟨rfl, Function.update_of_ne htag _ _, TrafficRegistry.agree_attach_of_ne _ _ htag user⟩
    · exact ⟨rfl, rfl, .refl _⟩
  | transfer i d n =>
    simp only [SingRun.step]
    split
    · exact ⟨rfl, rfl, .refl _⟩
    · exact ⟨rfl, rfl, TrafficRegistry.agree_addTo_of_ne _ _ htag _ d n⟩
  | getUserTrafficSlice reset range =>
    exact ⟨rfl, rfl, TrafficRegistry.agree_getUserTrafficSlice_of_ne _ _ htag reset range⟩

/-- The part of `SameNode` that needs an argument after a call of the node: the registries agree on
the users known after the call, if they agree on the users known before it and on users for which
the call itself makes the user ids the same. -/
theorem of_agree {K : String → Prop}
    (hinbound : s.core.inbounds.lookup t = s'.core.inbounds.lookup t)
    (hconns : s.conns t = s'.conns t)
    (hregistry : s.core.registry.Agree t K s'.core.registry) (hempty : K "")
    (husers : ∀ u ∈ s'.core.users t, K u)
    (hcounters : ∀ u ∈ (s'.core.registry.trafficCounter t).counters, K u) : SameNode t s s' :=
  ⟨hinbound, hconns, hregistry.mono fun _ hk => hk.elim hempty husers hcounters⟩

/-! The same call of the node, one kind of call after the other. -/

theorem addNode (h : SameNode t s s') (info : NodeInfo) (min : Int64) (err : Option String) :
    SameNode t (s.step ⟨t, .addNode info min err⟩) (s'.step ⟨t, .addNode info min err⟩) := by
  rcases err with _ | err
  · have hnew : ∀ b : Sing, (b.inbounds.insert t { info := info }).lookup t =
        some { info := info } := fun b => Finmap.lookup_insert _
    refine .of_agree ((hnew _).trans (hnew _).symm) h.conns (h.registry.setMinTraffic _)
      Sing.known_empty (fun u hu => ?_) fun u hu => Sing.known_of_mem_counters hu
    rw [Sing.users_of_lookup (hnew s'.core)] at hu
    cases hu
  · exact .of_agree h.inbound h.conns (h.registry.setMinTraffic _) Sing.known_empty
      (fun u hu => Sing.known_of_mem_users hu) fun u hu => Sing.known_of_mem_counters hu

theorem delNode (h : SameNode t s s') (err : Option String) :
    SameNode t (s.step ⟨t, .delNode err⟩) (s'.step ⟨t, .delNode err⟩) := by
  have hmem : t ∈ s.core.inbounds ↔ t ∈ s'.core.inbounds := by
    rw [← Finmap.lookup_isSome, ← Finmap.lookup_isSome, h.inbound]
  simp only [SingRun.step, Sing.delNode, hmem]
  split_ifs
  · have hgone : ∀ b : Sing, (b.inbounds.erase t).lookup t = none := fun b =>
      Finmap.lookup_erase t _
    refine .of_agree ((hgone _).trans (hgone _).symm) h.conns h.registry Sing.known_empty
      (fun u hu => ?_) fun u hu => Sing.known_of_mem_counters hu
    rw [Sing.users_of_none (hgone s'.core)] at hu
    cases hu
  · exact h

theorem addUsers (h : SameNode t s s') (users : List UserInfo) (update : Option String) :
    SameNode t (s.step ⟨t, .addUsers users update⟩) (s'.step ⟨t, .addUsers users update⟩) := by
  rcases hi : s'.core.inbounds.lookup t with _ | i
  · simp only [SingRun.step, Sing.addUsers, h.inbound.trans hi, hi]
    exact h
  · simp only [SingRun.step, Sing.addUsers, h.inbound.trans hi, hi]
    refine .of_agree (by simp only [GoMap.lookup_insert, if_true]) h.conns
      (h.registry.register UserInfo.uuid users) (Or.inl Sing.known_empty) (fun u hu => ?_)
      fun u hu => Or.inl (Sing.known_of_mem_counters hu)
    rw [Sing.users_of_lookup (Finmap.lookup_insert _)] at hu
    rcases List.mem_append.mp hu with hu | hu
    · exact Or.inl (Sing.known_of_mem_users (Sing.users_of_lookup hi ▸ hu))
    · obtain ⟨v, hv, rfl⟩ := List.mem_map.mp hu
      exact Or.inr ⟨v, hv, rfl⟩

theorem delUsers (h : SameNode t s s') (users : List UserInfo) (update : Option String) :
    SameNode t (s.step ⟨t, .delUsers users update⟩) (s'.step ⟨t, .delUsers users update⟩) := by
  rcases hi : s'.core.inbounds.lookup t with _ | i
  · simp only [SingRun.step, Sing.delUsers, h.inbound.trans hi, hi]
    exact h
  · simp only [SingRun.step, Sing.delUsers, h.inbound.trans hi, hi]
    refine .of_agree (by simp only [GoMap.lookup_insert, if_true]) h.conns
      (h.registry.foldl_forget UserInfo.uuid users) Sing.known_empty (fun u hu => ?_)
      fun u hu => Sing.known_of_mem_counters (TrafficRegistry.mem_of_mem_foldl_forget hu)
    rw [Sing.users_of_lookup (Finmap.lookup_insert _)] at hu
    exact Sing.known_of_mem_users (Sing.users_of_lookup hi ▸ List.mem_of_mem_filter hu)

theorem connect (h : SameNode t s s') (user : String) :
    SameNode t (s.step ⟨t, .connect user⟩) (s'.step ⟨t, .connect user⟩) := by
  simp only [SingRun.step, h.admits_iff]
  split_ifs with hadmits
  · obtain ⟨hp, hagree⟩ := h.registry.attach user
    refine .of_agree h.inbound ?_ hagree Sing.known_empty (fun u hu => Sing.known_of_mem_users hu)
      fun u hu => ?_
    · simp only [Sing.routedConnection, Function.update_self, h.conns, hp]
    · rcases TrafficRegistry.mem_of_mem_attach hu with ⟨-, rfl⟩ | hu
      · exact Or.inl hadmits
      · exact Sing.known_of_mem_counters hu
  · exact h

theorem transfer (h : SameNode t s s') (i : ℕ) (d : Direction) (n : Int64) :
    SameNode t (s.step ⟨t, .transfer i d n⟩) (s'.step ⟨t, .transfer i d n⟩) := by
  simp only [SingRun.step, h.conns]
  split
  · exact h
  · rename_i p _
    exact .of_agree h.inbound h.conns (h.registry.addTo p d n) Sing.known_empty
      (fun u hu => Sing.known_of_mem_users hu)
      fun u hu => Sing.known_of_mem_counters (TrafficRegistry.mem_of_mem_addTo hu)

theorem getUserTrafficSlice (h : SameNode t s s') (reset : Bool) (range : RangeOrder String) :
    s.slice ⟨t, .getUserTrafficSlice reset range⟩ =
        s'.slice ⟨t, .getUserTrafficSlice reset range⟩ ∧
      SameNode t (s.step ⟨t, .getUserTrafficSlice reset range⟩)
        (s'.step ⟨t, .getUserTrafficSlice reset range⟩) := by
  obtain ⟨hslice, hagree⟩ :=
    h.registry.getUserTrafficSlice (fun u hu => Sing.known_of_mem_counters hu) reset range
  refine ⟨congrArg some hslice, .of_agree h.inbound h.conns hagree Sing.known_empty
    (fun u hu => Sing.known_of_mem_users hu) fun u hu => Sing.known_of_mem_counters ?_⟩
  exact TrafficRegistry.mem_of_mem_getUserTrafficSlice hu

/-- The same call of the node. -/
theorem step (h : SameNode t s s') (call : SingCall) :
    s.slice ⟨t, call⟩ = s'.slice ⟨t, call⟩ ∧
      SameNode t (s.step ⟨t, call⟩) (s'.step ⟨t, call⟩) := by
  rcases call with ⟨info, min, err⟩ | err | ⟨users, update⟩ | ⟨users, update⟩ | user | ⟨i, d, n⟩ |
    ⟨reset, range⟩
  · exact ⟨rfl, h.addNode info min err⟩
  · exact ⟨rfl, h.delNode err⟩
  · exact ⟨rfl, h.addUsers users update⟩
  · exact ⟨rfl, h.delUsers users update⟩
  · exact ⟨rfl, h.connect user⟩
  · exact ⟨rfl, h.transfer i d n⟩
  · exact h.getUserTrafficSlice reset range

end SameNode

/-- **Nodes of one sing core.** Let the calls of other nodes leave the user ids of the users that
the node `t` knows as they are. Then the slices that the node gets are those of the run restricted
to its own calls. -/
theorem slices_eq_of_harmless (s : SingRun) (t : String) (events : List SingEvent)
    (hevents : Guarded SingRun.step (Harmless t) s events) :
    observe SingRun.step SingRun.slice (fun e => e.tag = t) s events =
      observe SingRun.step SingRun.slice (fun e => e.tag = t) s
        (events.filter fun e => e.tag = t) := by
  refine (hevents.unwinding (R := SameNode t) ?_ ?_ ⟨rfl, rfl, .refl _⟩).1
  · intro s s' e h hkeep hok
    have htag : t ≠ e.tag := fun heq => by simp [heq] at hkeep
    exact (SameNode.step_of_ne htag hok).trans h
  · rintro s s' ⟨tag, call⟩ h hkeep -
    obtain rfl : tag = t := of_decide_eq_true hkeep
    exact h.step call

/-- Two nodes with a user in common, whose traffic on the second node is reported after a user has
been removed from the first. -/
def removeThenReport (removed : UserInfo) : List SingEvent :=
  let shared : UserInfo := { id := 1, uuid := "a", speedLimit := 0, deviceLimit := 0 }
  let info : NodeInfo := { id := 1, type := .vless }
  [⟨"n1", .addNode info 0 none⟩, ⟨"n2", .addNode info 0 none⟩, ⟨"n1", .addUsers [shared] none⟩,
    ⟨"n2", .addUsers [shared] none⟩, ⟨"n2", .connect "a"⟩, ⟨"n2", .transfer 0 .up 10⟩,
    ⟨"n1", .delUsers [removed] none⟩, ⟨"n2", .getUserTrafficSlice true .ascending⟩]

/-- The report is the same if the removed user is not a user of the second node. -/
theorem removeThenReport_other_eq :
    let events := removeThenReport { id := 2, uuid := "b", speedLimit := 0, deviceLimit := 0 }
    observe SingRun.step SingRun.slice (fun e => e.tag = "n2") {} events =
      observe SingRun.step SingRun.slice (fun e => e.tag = "n2") {}
        (events.filter fun e => e.tag = "n2") := by
  refine slices_eq_of_harmless {} "n2" _ ⟨fun _ _ => trivial, fun _ _ => trivial, ?_,
    fun h => absurd rfl h, fun _ _ => trivial, fun _ _ => trivial, ?_, fun _ _ => trivial, trivial⟩
  · intro _ _
    decide
  · intro _ _
    decide

/-- The report is empty if the user in common is removed from the first node. -/
theorem removeThenReport_shared_ne :
    let events := removeThenReport { id := 1, uuid := "a", speedLimit := 0, deviceLimit := 0 }
    observe SingRun.step SingRun.slice (fun e => e.tag = "n2") {} events =
        [none, none, none, none, some []] ∧
      observe SingRun.step SingRun.slice (fun e => e.tag = "n2") {}
          (events.filter fun e => e.tag = "n2") =
        [none, none, none, none, some [⟨1, 10, 0⟩]] := by
  decide

end Tox.Core
