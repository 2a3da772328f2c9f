import Tox.Foundation.Run
import Tox.Core.Xray
import Tox.Core.Isolation

/-!
# Nodes of one xray core

The nodes of an xray core share the map of user ids and the map of link managers, but every key of
these maps carries the tag of its node: it is the email of a user, the tag and the uuid joined by a
bar. Emails of different nodes differ if the uuids have no bar, whatever the tags are. A node is
therefore not affected by the calls of other nodes: its slices, the user ids of its users and their
link managers are those of the run restricted to its own calls (`xray_nodes_isolated`).
-/

namespace Tox.Core

open Tox.Foundation Tox.Counter Tox.Format Tox.Panel

/-! ### Runs -/

/-- An xray core and the links of every node with their email and storage, the first one first. -/
structure XrayRun where
  core : Xray := {}
  conns : String → List (String × ℕ) := fun _ => []

/-- The calls for a node. The error arguments are those of the functions of `Xray`. -/
inductive XrayCall
  | addNode (info : NodeInfo) (reportMinTraffic : Int64) (inErr outErr : Option String)
  | delNode (outErr : Option String)
  | addUsers (type : NodeType) (users : List UserInfo) (fail : Option (ℕ × String))
  | delUsers (users : List UserInfo) (fail : Option (ℕ × String))
  /-- A user opens a link. -/
  | connect (uuid : String)
  /-- A link, given by its position, is closed. -/
  | close (i : ℕ)
  /-- A link counts an amount. -/
  | transfer (i : ℕ) (d : Direction) (n : Int64)
  | getUserTrafficSlice (reset : Bool) (range : RangeOrder String)

/-- A call for the node `tag`. -/
structure XrayEvent where
  tag : String
  call : XrayCall

/-- The uuids of the call have no bar. -/
def XrayEvent.BarFree (e : XrayEvent) : Prop :=
  match e.call with
  | .addUsers _ users _ | .delUsers users _ => ∀ u ∈ users, '|' ∉ u.uuid.toList
  | .connect uuid => '|' ∉ uuid.toList
  | _ => True

instance (e : XrayEvent) : Decidable e.BarFree := by
  unfold XrayEvent.BarFree
  split <;> infer_instance

namespace XrayRun

/-- One call. -/
def step (s : XrayRun) (e : XrayEvent) : XrayRun :=
  match e.call with
  | .addNode info min inErr outErr =>
    { s with core := (s.core.addNode e.tag info min inErr outErr).1 }
  | .delNode outErr => { s with core := (s.core.delNode e.tag outErr).1 }
  | .addUsers type users fail => { s with core := (s.core.addUsers e.tag type users fail).1 }
  | .delUsers users fail => { s with core := (s.core.delUsers e.tag users fail).1 }
  | .connect uuid =>
    let email := userTag e.tag uuid
    let (core, p) := s.core.getLink e.tag email (s.conns e.tag).length
    { core := core, conns := Function.update s.conns e.tag (s.conns e.tag ++ [(email, p)]) }
  | .close i =>
    match (s.conns e.tag)[i]? with
    | none => s
    | some (email, _) => { s with core := s.core.closeLink email i }
  | .transfer i d n =>
    match (s.conns e.tag)[i]? with
    | none => s
    | some (_, p) => { s with core := s.core.transfer e.tag p d n }
  | .getUserTrafficSlice reset range =>
    { s with core := (s.core.getUserTrafficSlice e.tag reset range).1 }

/-- What a call returns to the report task. -/
def slice (s : XrayRun) (e : XrayEvent) : Option (List UserTraffic) :=
  match e.call with
  | .getUserTrafficSlice reset range => some (s.core.getUserTrafficSlice e.tag reset range).2
  | _ => none

end XrayRun

/-! ### Emails -/

/-- The emails of the users of a node. -/
def EmailOf (t email : String) : Prop := ∃ uuid : String, '|' ∉ uuid.toList ∧ email = userTag t uuid

theorem EmailOf.tag_eq {t t' email : String} (h : EmailOf t email) (h' : EmailOf t' email) :
    t = t' := by
  obtain ⟨u, hu, rfl⟩ := h
  obtain ⟨u', hu', heq⟩ := h'
  exact (userTag_inj_of_notMem hu hu' heq).1

/-- The links and the counters of every node belong to emails of the node. -/
structure Addressed (s : XrayRun) : Prop where
  conns : ∀ tag, ∀ x ∈ s.conns tag, EmailOf tag x.1
  counters : ∀ tag, ∀ k ∈ (s.core.registry.trafficCounter tag).counters, EmailOf tag k

namespace Addressed

variable {s s' : XrayRun} {e : XrayEvent}

theorem of_mem (h : Addressed s) (hconns : s'.conns = s.conns)
    (hcounters : ∀ tag, ∀ k ∈ (s'.core.registry.trafficCounter tag).counters,
      k ∈ (s.core.registry.trafficCounter tag).counters) : Addressed s' :=
  ⟨fun tag x hx => h.conns tag x (hconns ▸ hx),
    fun tag k hk => h.counters tag k (hcounters tag k hk)⟩

/-- A connection adds one link of its node, and the counter of that link. -/
theorem connect (h : Addressed s) {uuid : String} (huuid : '|' ∉ uuid.toList) (tag : String) :
    Addressed (s.step ⟨tag, .connect uuid⟩) := by
  have hemail : EmailOf tag (userTag tag uuid) := ⟨uuid, huuid, rfl⟩
  refine ⟨fun t x hx => ?_, fun t k hk => ?_⟩
  · by_cases ht : t = tag
    · subst ht
      simp only [XrayRun.step, Function.update_self, List.mem_append, List.mem_singleton] at hx
      rcases hx with hx | rfl
      · exact h.conns t x hx
      · exact hemail
    · simp only [XrayRun.step, Function.update_of_ne ht] at hx
      exact h.conns t x hx
  · rcases TrafficRegistry.mem_of_mem_attach hk with ⟨rfl, rfl⟩ | hk
    · exact hemail
    · exact h.counters t k hk

/-- A call with uuids without a bar keeps links and counters under emails of their nodes. -/
theorem step (h : Addressed s) (he : e.BarFree) : Addressed (s.step e) := by
  obtain ⟨tag, call⟩ := e
  cases call with
  | addNode info min inErr outErr =>
    refine h.of_mem rfl fun t k hk => ?_
    cases inErr <;> exact hk
  | delNode outErr =>
    simp only [XrayRun.step, Xray.delNode]
    split_ifs
    · exact h.of_mem rfl fun _ _ hk => hk
    · exact h
  | addUsers type users fail =>
    simp only [XrayRun.step, Xray.addUsers]
    split_ifs
    · split <;> exact h.of_mem rfl fun _ _ hk => hk
    · exact h.of_mem rfl fun _ _ hk => hk
  | delUsers users fail =>
    simp only [XrayRun.step, Xray.delUsers]
    split
    · exact h
    · refine h.of_mem rfl fun t k hk => ?_
      simp only [Xray.foldl_delUser] at hk
      exact TrafficRegistry.mem_of_mem_foldl_forget hk
  | connect uuid => exact h.connect he tag
  | close i =>
    simp only [XrayRun.step]
    split
    · exact h
    · refine h.of_mem rfl fun t k hk => ?_
      unfold Xray.closeLink at hk
      split at hk <;> exact hk
  | transfer i d n =>
    simp only [XrayRun.step]
    split
    · exact h
    · exact h.of_mem rfl fun t k hk => TrafficRegistry.mem_of_mem_addTo hk
  | getUserTrafficSlice reset range =>
    exact h.of_mem rfl fun t k hk => TrafficRegistry.mem_of_mem_getUserTrafficSlice hk

end Addressed

/-! ### Runs that the node cannot tell apart -/

/-- The node `t` has the same handler and the same links in both states, and the maps of the core
have the same entries for its emails. -/
structure SameLinks (t : String) (s s' : XrayRun) : Prop where
  handler : s.core.handlers.lookup t = s'.core.handlers.lookup t
  conns : s.conns t = s'.conns t
  registry : s.core.registry.Agree t (EmailOf t) s'.core.registry
  uidMap : ∀ k, EmailOf t k →
    s.core.registry.uidMap.lookup k = s'.core.registry.uidMap.lookup k
  linkManagers : ∀ k, EmailOf t k → s.core.linkManagers.lookup k = s'.core.linkManagers.lookup k

namespace SameLinks

variable {t : String} {s s' s'' : XrayRun} {e : XrayEvent}

theorem refl (s : XrayRun) : SameLinks t s s :=
  ⟨rfl, rfl, .refl _, fun _ _ => rfl, fun _ _ => rfl⟩

theorem trans (h : SameLinks t s s') (h' : SameLinks t s' s'') : SameLinks t s s'' :=
  ⟨h.handler.trans h'.handler, h.conns.trans h'.conns, h.registry.trans h'.registry,
    fun k hk => (h.uidMap k hk).trans (h'.uidMap k hk),
    fun k hk => (h.linkManagers k hk).trans (h'.linkManagers k hk)⟩

/-- The emails of users of another node are not emails of the node. -/
theorem ne_of_emailOf {tag k : String} (htag : t ≠ tag) (hk : EmailOf t k) {users : List UserInfo}
    (husers : ∀ u ∈ users, '|' ∉ u.uuid.toList) : ∀ u ∈ users, userTag tag u.uuid ≠ k := by
  rintro u hu rfl
  exact htag (hk.tag_eq ⟨u.uuid, husers u hu, rfl⟩)

/-! A call of another node, one kind of call after the other. -/

section Other

variable {tag : String}

theorem addNode_of_ne (htag : t ≠ tag) (info : NodeInfo) (min : Int64)
    (inErr outErr : Option String) :
    SameLinks t (s.step ⟨tag, .addNode info min inErr outErr⟩) s := by
  have hagree := TrafficRegistry.agree_setMinTraffic_of_ne (EmailOf t) s.core.registry htag
    (min * 1024)
  rcases inErr with _ | err
  · exact ⟨Finmap.lookup_insert_of_ne _ htag, rfl, hagree, fun _ _ => rfl, fun _ _ => rfl⟩
  · exact ⟨rfl, rfl, hagree, fun _ _ => rfl, fun _ _ => rfl⟩

theorem delNode_of_ne (htag : t ≠ tag) (outErr : Option String) :
    SameLinks t (s.step ⟨tag, .delNode outErr⟩) s := by
  simp only [XrayRun.step, Xray.delNode]
  split_ifs
  · exact ⟨Finmap.lookup_erase_ne htag, rfl, .refl _, fun _ _ => rfl, fun _ _ => rfl⟩
  · exact refl s

theorem addUsers_of_ne (htag : t ≠ tag) (type : NodeType) {users : List UserInfo}
    (husers : ∀ u ∈ users, '|' ∉ u.uuid.toList) (fail : Option (ℕ × String)) :
    SameLinks t (s.step ⟨tag, .addUsers type users fail⟩) s := by
  have hne := fun k hk => ne_of_emailOf (k := k) htag hk husers
  have hagree : (s.core.registry.register (fun u => userTag tag u.uuid) users).Agree t
      (EmailOf t) s.core.registry :=
    TrafficRegistry.agree_register_of_forall fun u hu hk => absurd rfl (hne _ hk u hu)
  have huid : ∀ k, EmailOf t k → (s.core.registry.register (fun u => userTag tag u.uuid)
      users).uidMap.lookup k = s.core.registry.uidMap.lookup k :=
    fun k hk => GoMap.lookup_storeAll_of_forall_ne _ _ (hne k hk) _
  simp only [XrayRun.step, Xray.addUsers]
  split_ifs
  · split
    · exact ⟨rfl, rfl, hagree, huid, fun _ _ => rfl⟩
    · exact ⟨Finmap.lookup_insert_of_ne _ htag, rfl, hagree, huid, fun _ _ => rfl⟩
  · exact ⟨rfl, rfl, hagree, huid, fun _ _ => rfl⟩

theorem delUsers_of_ne (htag : t ≠ tag) {users : List UserInfo}
    (husers : ∀ u ∈ users, '|' ∉ u.uuid.toList) (fail : Option (ℕ × String)) :
    SameLinks t (s.step ⟨tag, .delUsers users fail⟩) s := by
  have hne : ∀ k, EmailOf t k → ∀ u ∈ (upTo users fail).1, userTag tag u.uuid ≠ k :=
    fun k hk u hu => ne_of_emailOf htag hk husers u (mem_of_mem_upTo hu)
  have hnotMem : ∀ k, EmailOf t k →
      k ∉ (upTo users fail).1.map fun u => userTag tag u.uuid := fun k hk hmem => by
    obtain ⟨u, hu, hu'⟩ := List.mem_map.mp hmem
    exact hne k hk u hu hu'
  simp only [XrayRun.step, Xray.delUsers]
  split
  · exact refl s
  · simp only [Xray.foldl_delUser]
    refine ⟨Finmap.lookup_insert_of_ne _ htag, rfl, TrafficRegistry.agree_foldl_forget_of_ne htag _
      fun u hu hk => absurd rfl (hne _ hk u hu), fun k hk => ?_, fun k hk => ?_⟩
    · rw [TrafficRegistry.uidMap_foldl_forget, GoMap.lookup_deleteAll, if_neg (hnotMem k hk)]
    · rw [GoMap.lookup_deleteAll, if_neg (hnotMem k hk)]

theorem connect_of_ne (htag : t ≠ tag) {uuid : String} (huuid : '|' ∉ uuid.toList) :
    SameLinks t (s.step ⟨tag, .connect uuid⟩) s := by
  refine ⟨rfl, Function.update_of_ne htag _ _,
    TrafficRegistry.agree_attach_of_ne _ _ htag _, fun _ _ => rfl, fun k hk => ?_⟩
  have hne : k ≠ userTag tag uuid := fun heq => htag (hk.tag_eq ⟨uuid, huuid, heq⟩)
  simp only [XrayRun.step, Xray.getLink, GoMap.lookup_insert, if_neg hne]

theorem close_of_ne (hs : Addressed s) (htag : t ≠ tag) (i : ℕ) :
    SameLinks t (s.step ⟨tag, .close i⟩) s := by
  simp only [XrayRun.step]
  split
  · exact refl s
  · rename_i email p hi
    -- the email belongs to the node of the link
    have hemail : EmailOf tag email := hs.conns tag (email, p) (List.mem_of_getElem? hi)
    simp only [Xray.closeLink]
    split
    · exact refl s
    · refine ⟨rfl, rfl, .refl _, fun _ _ => rfl, fun k hk => ?_⟩
      have hne : k ≠ email := fun heq => htag (hk.tag_eq (heq ▸ hemail))
      exact Finmap.lookup_insert_of_ne _ hne

theorem transfer_of_ne (htag : t ≠ tag) (i : ℕ) (d : Direction) (n : Int64) :
    SameLinks t (s.step ⟨tag, .transfer i d n⟩) s := by
  simp only [XrayRun.step]
  split
  · exact refl s
  · refine ⟨rfl, rfl, TrafficRegistry.agree_addTo_of_ne _ _ htag _ d n, fun k _ => ?_,
      fun _ _ => rfl⟩
    rw [Xray.transfer, TrafficRegistry.addTo, TrafficRegistry.uidMap_modifyCounter]

theorem getUserTrafficSlice_of_ne (htag : t ≠ tag) (reset : Bool) (range : RangeOrder String) :
    SameLinks t (s.step ⟨tag, .getUserTrafficSlice reset range⟩) s := by
  refine ⟨rfl, rfl, TrafficRegistry.agree_getUserTrafficSlice_of_ne _ _ htag reset range,
    fun k _ => ?_, fun _ _ => rfl⟩
  simp only [XrayRun.step, Xray.getUserTrafficSlice, TrafficRegistry.uidMap_getUserTrafficSlice]

end Other

/-- A call of another node. -/
theorem step_of_ne (hs : Addressed s) (htag : t ≠ e.tag) (he : e.BarFree) :
    SameLinks t (s.step e) s := by
  obtain ⟨tag, ⟨info, min, inErr, outErr⟩ | outErr | ⟨type, users, fail⟩ | ⟨users, fail⟩ | uuid |
    i | ⟨i, d, n⟩ | ⟨reset, range⟩⟩ := e
  · exact addNode_of_ne htag info min inErr outErr
  · exact delNode_of_ne htag outErr
  · exact addUsers_of_ne htag type he fail
  · exact delUsers_of_ne htag he fail
  · exact connect_of_ne htag he
  · exact close_of_ne hs htag i
  · exact transfer_of_ne htag i d n
  · exact getUserTrafficSlice_of_ne htag reset range

/-! The same call of the node. -/

theorem addNode (h : SameLinks t s s') (info : NodeInfo) (min : Int64)
    (inErr outErr : Option String) :
    SameLinks t (s.step ⟨t, .addNode info min inErr outErr⟩)
      (s'.step ⟨t, .addNode info min inErr outErr⟩) := by
  rcases inErr with _ | err
  · refine ⟨?_, h.conns, h.registry.setMinTraffic _, h.uidMap, h.linkManagers⟩
    simp only [XrayRun.step, Xray.addNode, GoMap.lookup_insert, if_true]
  · exact ⟨h.handler, h.conns, h.registry.setMinTraffic _, h.uidMap, h.linkManagers⟩

theorem delNode (h : SameLinks t s s') (outErr : Option String) :
    SameLinks t (s.step ⟨t, .delNode outErr⟩) (s'.step ⟨t, .delNode outErr⟩) := by
  have hmem : t ∈ s.core.handlers ↔ t ∈ s'.core.handlers := by
    rw [← Finmap.lookup_isSome, ← Finmap.lookup_isSome, h.handler]
  simp only [XrayRun.step, Xray.delNode, hmem]
  split_ifs
  · exact ⟨by simp only [GoMap.lookup_erase, if_true], h.conns, h.registry, h.uidMap,
      h.linkManagers⟩
  · exact h

theorem addUsers (h : SameLinks t s s') (type : NodeType) (users : List UserInfo)
    (fail : Option (ℕ × String)) :
    SameLinks t (s.step ⟨t, .addUsers type users fail⟩)
      (s'.step ⟨t, .addUsers type users fail⟩) := by
  have hagree := (h.registry.register (fun u => userTag t u.uuid) users).mono
    fun k (hk : EmailOf t k) => Or.inl hk
  have huid : ∀ k, EmailOf t k → (s.core.registry.register (fun u => userTag t u.uuid)
      users).uidMap.lookup k = (s'.core.registry.register (fun u => userTag t u.uuid)
        users).uidMap.lookup k :=
    fun k hk => GoMap.lookup_storeAll_of_lookup_eq _ _ users (h.uidMap k hk)
  simp only [XrayRun.step, Xray.addUsers, h.handler]
  split_ifs
  · split
    · exact ⟨h.handler, h.conns, hagree, huid, h.linkManagers⟩
    · exact ⟨by simp only [GoMap.lookup_insert, if_true], h.conns, hagree, huid, h.linkManagers⟩
  · exact ⟨h.handler, h.conns, hagree, huid, h.linkManagers⟩

theorem delUsers (h : SameLinks t s s') (users : List UserInfo) (fail : Option (ℕ × String)) :
    SameLinks t (s.step ⟨t, .delUsers users fail⟩) (s'.step ⟨t, .delUsers users fail⟩) := by
  simp only [XrayRun.step, Xray.delUsers, h.handler]
  split
  · exact h
  · simp only [Xray.foldl_delUser]
    refine ⟨by simp only [GoMap.lookup_insert, if_true], h.conns, h.registry.foldl_forget _ _,
      fun k hk => ?_, fun k hk => ?_⟩
    · rw [TrafficRegistry.uidMap_foldl_forget, TrafficRegistry.uidMap_foldl_forget,
        GoMap.lookup_deleteAll, GoMap.lookup_deleteAll, h.uidMap k hk]
    · rw [GoMap.lookup_deleteAll, GoMap.lookup_deleteAll, h.linkManagers k hk]

theorem connect (h : SameLinks t s s') (uuid : String) :
    SameLinks t (s.step ⟨t, .connect uuid⟩) (s'.step ⟨t, .connect uuid⟩) := by
  obtain ⟨hp, hagree⟩ := h.registry.attach (userTag t uuid)
  refine ⟨h.handler, ?_, hagree, h.uidMap, fun k hk => ?_⟩
  · simp only [XrayRun.step, Xray.getLink, Function.update_self, h.conns, hp]
  · simp only [XrayRun.step, Xray.getLink, GoMap.lookup_insert, GoMap.getD, h.conns]
    split_ifs with hkey
    · subst hkey
      rw [h.linkManagers _ hk]
    · exact h.linkManagers k hk

theorem close (h : SameLinks t s s') (hs' : Addressed s') (i : ℕ) :
    SameLinks t (s.step ⟨t, .close i⟩) (s'.step ⟨t, .close i⟩) := by
  simp only [XrayRun.step, h.conns]
  split
  · exact h
  · rename_i email p hi
    have hemail : EmailOf t email := hs'.conns t (email, p) (List.mem_of_getElem? hi)
    simp only [Xray.closeLink, h.linkManagers email hemail]
    split
    · exact h
    · refine ⟨h.handler, h.conns, h.registry, h.uidMap, fun k hk => ?_⟩
      rw [GoMap.lookup_insert, GoMap.lookup_insert, h.linkManagers k hk]

theorem transfer (h : SameLinks t s s') (i : ℕ) (d : Direction) (n : Int64) :
    SameLinks t (s.step ⟨t, .transfer i d n⟩) (s'.step ⟨t, .transfer i d n⟩) := by
  simp only [XrayRun.step, h.conns]
  split
  · exact h
  · refine ⟨h.handler, h.conns, h.registry.addTo _ d n, fun k hk => ?_, h.linkManagers⟩
    simp only [Xray.transfer, TrafficRegistry.addTo, TrafficRegistry.uidMap_modifyCounter]
    exact h.uidMap k hk

theorem getUserTrafficSlice (h : SameLinks t s s') (hs' : Addressed s') (reset : Bool)
    (range : RangeOrder String) :
    s.slice ⟨t, .getUserTrafficSlice reset range⟩ =
        s'.slice ⟨t, .getUserTrafficSlice reset range⟩ ∧
      SameLinks t (s.step ⟨t, .getUserTrafficSlice reset range⟩)
        (s'.step ⟨t, .getUserTrafficSlice reset range⟩) := by
  obtain ⟨hslice, hagree⟩ := h.registry.getUserTrafficSlice (hs'.counters t) reset range
  refine ⟨congrArg some hslice, h.handler, h.conns, hagree, fun k hk => ?_, h.linkManagers⟩
  simp only [XrayRun.step, Xray.getUserTrafficSlice, TrafficRegistry.uidMap_getUserTrafficSlice]
  exact h.uidMap k hk

/-- The same call of the node. -/
theorem step (h : SameLinks t s s') (hs' : Addressed s') (call : XrayCall) :
    s.slice ⟨t, call⟩ = s'.slice ⟨t, call⟩ ∧
      SameLinks t (s.step ⟨t, call⟩) (s'.step ⟨t, call⟩) := by
  rcases call with ⟨info, min, inErr, outErr⟩ | outErr | ⟨type, users, fail⟩ | ⟨users, fail⟩ |
    uuid | i | ⟨i, d, n⟩ | ⟨reset, range⟩
  · exact ⟨rfl, h.addNode info min inErr outErr⟩
  · exact ⟨rfl, h.delNode outErr⟩
  · exact ⟨rfl, h.addUsers type users fail⟩
  · exact ⟨rfl, h.delUsers users fail⟩
  · exact ⟨rfl, h.connect uuid⟩
  · exact ⟨rfl, h.close hs' i⟩
  · exact ⟨rfl, h.transfer i d n⟩
  · exact h.getUserTrafficSlice hs' reset range

end SameLinks

/-- A core that has not been used yet. -/
theorem addressed_start : Addressed {} :=
  ⟨fun _ _ hx => absurd hx List.not_mem_nil, fun _ _ hk => absurd hk Finmap.notMem_empty⟩

/-- **Nodes of one xray core.** In every run from an unused core in which no uuid has a bar, the
slices that a node gets are those of the run restricted to its own calls. At the end of the two
runs its users have the same entries in the map of user ids and the same link managers. -/
theorem xray_nodes_isolated (t : String) (events : List XrayEvent)
    (hevents : ∀ e ∈ events, e.BarFree) :
    let own := events.filter fun e => e.tag = t
    let s := events.foldl XrayRun.step {}
    let s' := own.foldl XrayRun.step {}
    observe XrayRun.step XrayRun.slice (fun e => e.tag = t) {} events =
        observe XrayRun.step XrayRun.slice (fun e => e.tag = t) {} own ∧
      ∀ uuid : String, '|' ∉ uuid.toList →
        s.core.registry.uidMap.lookup (userTag t uuid) =
            s'.core.registry.uidMap.lookup (userTag t uuid) ∧
          s.core.linkManagers.lookup (userTag t uuid) =
            s'.core.linkManagers.lookup (userTag t uuid) := by
  intro own s s'
  have hguarded : Guarded XrayRun.step (fun _ e => e.BarFree) {} events :=
    .of_forall (fun e he _ => hevents e he) _
  have hruns : observe XrayRun.step XrayRun.slice (fun e => e.tag = t) {} events =
      observe XrayRun.step XrayRun.slice (fun e => e.tag = t) {} own ∧
        SameLinks t s s' ∧ Addressed s ∧ Addressed s' := by
    refine hguarded.unwinding (R := fun s s' => SameLinks t s s' ∧ Addressed s ∧ Addressed s')
      ?_ ?_ ⟨.refl _, addressed_start, addressed_start⟩
    · rintro s s' e ⟨h, hs, hs'⟩ hkeep he
      have htag : t ≠ e.tag := fun heq => by simp [heq] at hkeep
      exact ⟨(SameLinks.step_of_ne hs htag he).trans h, hs.step he, hs'⟩
    · rintro s s' ⟨tag, call⟩ ⟨h, hs, hs'⟩ hkeep he
      obtain rfl : tag = t := of_decide_eq_true hkeep
      obtain ⟨hslice, hsame⟩ := h.step hs' call
      exact ⟨hslice, hsame, hs.step he, hs'.step he⟩
  refine ⟨hruns.1, fun uuid huuid => ?_⟩
  exact ⟨hruns.2.1.uidMap _ ⟨uuid, huuid, rfl⟩, hruns.2.1.linkManagers _ ⟨uuid, huuid, rfl⟩⟩

/-- Two nodes with a user in common, who is removed from the first while a link to the second is
open. -/
def removeWhileConnected : List XrayEvent :=
  let shared : UserInfo := { id := 1, uuid := "a", speedLimit := 0, deviceLimit := 0 }
  let info : NodeInfo := { id := 1, type := .vless }
  [⟨"n1", .addNode info 0 none none⟩, ⟨"n2", .addNode info 0 none none⟩,
    ⟨"n1", .addUsers .vless [shared] none⟩, ⟨"n2", .addUsers .vless [shared] none⟩,
    ⟨"n2", .connect "a"⟩, ⟨"n2", .transfer 0 .up 10⟩, ⟨"n1", .delUsers [shared] none⟩,
    ⟨"n2", .getUserTrafficSlice true .ascending⟩]

/-- The second node reports the traffic, and the link stays in its manager. -/
theorem removeWhileConnected_isolated :
    observe XrayRun.step XrayRun.slice (fun e => e.tag = "n2") {} removeWhileConnected =
        [none, none, none, none, some [⟨1, 10, 0⟩]] ∧
      (removeWhileConnected.foldl XrayRun.step {}).core.linkManagers.lookup (userTag "n2" "a") =
        some [0] := by
  obtain ⟨hslices, hmaps⟩ := xray_nodes_isolated "n2" removeWhileConnected (by decide)
  exact ⟨hslices.trans (by decide), (hmaps "a" (by decide)).2.trans (by decide)⟩

end Tox.Core
