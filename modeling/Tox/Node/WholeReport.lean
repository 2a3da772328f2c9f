import Tox.Core.SingIsolation
import Tox.Core.XrayIsolation
import Tox.Foundation.Amounts
import Tox.Node.Report

/-!
# Whether a traffic report carries the whole slice

The slice of `GetUserTrafficSlice` has an entry for every counter that is taken, and counters are
kept by the uuid of a user. The body that `ReportUserTraffic` posts is a map from user ids. So the
body carries the whole slice as long as no two counters that are taken have the same user id: of two
entries with one user id, the later one replaces the earlier one.

The user ids of a core stay distinct as long as no user is added under a user id that another uuid
of the core has. The calls of a reload do not respect this. `DelNode` removes the inbound and leaves
the user ids and the counters of its users in place, so that a user whose uuid was replaced by the
panel is there twice: once under each uuid.
-/

namespace Tox.Node

open Tox.Foundation Tox.Counter Tox.Core Tox.Format Tox.Limit Tox.Panel

/-! ### Totals -/

/-- The traffic that the report task posts; without traffic nothing is posted. -/
def ReportOutcome.traffic (o : ReportOutcome) : GoMap ℤ (Int64 × Int64) :=
  match o.pushed with
  | none => ∅
  | some (data, _) => data

/-- The total of one direction over the users of a posted body. -/
def postedTotal (data : GoMap ℤ (Int64 × Int64)) (d : Direction) : ℤ :=
  data.total fun amounts =>
    match d with
    | .up => amounts.1.toInt
    | .down => amounts.2.toInt

/-- The total of one direction over the entries of a slice. -/
def sliceTotal (slice : List UserTraffic) (d : Direction) : ℤ :=
  (slice.map fun t => (t.get d).toInt).sum

/-- What a body has of a slice, and what was replaced in it, make up the slice. -/
theorem postedTotal_add_overwritten (slice : List UserTraffic) (d : Direction) :
    postedTotal (trafficData slice) d +
        overwritten UserTraffic.uid (fun t => (t.get d).toInt) slice = sliceTotal slice d := by
  cases d with
  | up => exact GoMap.total_storeAll_add_overwritten _ _ _ slice
  | down => exact GoMap.total_storeAll_add_overwritten _ _ _ slice

theorem traffic_reportUserTrafficTask (tag : String) (minTraffic : Int64) (server : Server)
    (limiter : Limiter) (input : ReportInput) :
    (reportUserTrafficTask tag minTraffic server limiter input).traffic =
      trafficData (server.getUserTrafficSlice tag true input.counters).2 := by
  simp only [ReportOutcome.traffic, reportUserTrafficTask]
  generalize (server.getUserTrafficSlice tag true input.counters).2 = slice
  by_cases hnil : slice = []
  · subst hnil
    rfl
  · simp only [if_neg hnil, reportUserTraffic]

/-! ### When the whole slice is posted -/

/-- A counter of the node that is over the report threshold and has a user id. -/
def Reported (server : Server) (tag key : String) : Prop :=
  Exceeds (server.registry.minTraffic tag) (server.registry.trafficCounter tag) key ∧
    server.registry.uid key ≠ 0

/-- No two counters that are taken have the same user id. -/
def DistinctReported (server : Server) (tag : String) : Prop :=
  ∀ k k', Reported server tag k → Reported server tag k' →
    server.registry.uid k = server.registry.uid k' → k = k'

theorem exists_keys_getUserTrafficSlice (server : Server) (tag : String)
    (range : RangeOrder String) :
    ∃ keys : List String, keys.Nodup ∧ (∀ k, k ∈ keys ↔ Reported server tag k) ∧
      (server.getUserTrafficSlice tag true range).2 = keys.map fun k =>
        ⟨server.registry.uid k, (server.registry.trafficCounter tag).getCount k .up,
          (server.registry.trafficCounter tag).getCount k .down⟩ := by
  rw [Server.getUserTrafficSlice_snd, TrafficRegistry.getUserTrafficSlice_snd]
  exact exists_keys_rangeCounters ..

/-- A counter over a threshold that is not negative holds something. -/
theorem Reported.exists_ne_zero {server : Server} {tag k : String} (h : Reported server tag k)
    (hthreshold : 0 ≤ (server.registry.minTraffic tag).toInt) :
    ∃ d, (server.registry.trafficCounter tag).getCount k d ≠ 0 := by
  by_contra hzero
  push Not at hzero
  have hlt := h.1.2
  rw [hzero, hzero, gt_iff_lt, Int64.lt_iff_toInt_lt] at hlt
  have hsum : ((0 : Int64) + 0).toInt = 0 := rfl
  omega

section Whole

variable {server : Server} {tag : String}

/-- With distinct user ids nothing of the slice is replaced. -/
theorem postedTotal_of_distinctReported (h : DistinctReported server tag) (minTraffic : Int64)
    (limiter : Limiter) (input : ReportInput) (d : Direction) :
    postedTotal (reportUserTrafficTask tag minTraffic server limiter input).traffic d =
      sliceTotal (server.getUserTrafficSlice tag true input.counters).2 d := by
  obtain ⟨keys, hnodup, hmem, hslice⟩ :=
    exists_keys_getUserTrafficSlice server tag input.counters
  rw [traffic_reportUserTrafficTask, ← postedTotal_add_overwritten, hslice, overwritten_of_nodup,
    add_zero]
  rw [List.map_map]
  exact hnodup.map_on fun k hk k' hk' => h k k' ((hmem k).mp hk) ((hmem k').mp hk')

/-- An entry that may be replaced would have to be empty, and no entry is. -/
theorem distinctReported_of_postedTotal {minTraffic : Int64} {limiter : Limiter}
    {input : ReportInput} (hthreshold : 0 ≤ (server.registry.minTraffic tag).toInt)
    (hamounts : ∀ k d, 0 ≤ ((server.registry.trafficCounter tag).getCount k d).toInt)
    (hwhole : ∀ d, postedTotal
        (reportUserTrafficTask tag minTraffic server limiter input).traffic d =
      sliceTotal (server.getUserTrafficSlice tag true input.counters).2 d) :
    DistinctReported server tag := by
  obtain ⟨keys, hnodup, hmem, hslice⟩ :=
    exists_keys_getUserTrafficSlice server tag input.counters
  have hpairs : ∀ d, keys.Pairwise fun j j' => server.registry.uid j = server.registry.uid j' →
      (server.registry.trafficCounter tag).getCount j d = 0 := by
    intro d
    have hlost := hwhole d
    rw [traffic_reportUserTrafficTask, ← postedTotal_add_overwritten, left_eq_add, hslice,
      overwritten_eq_zero_iff, List.pairwise_map] at hlost
    · refine hlost.imp fun h huid => Int64.toInt_inj.mp ?_
      cases d
      · exact h huid
      · exact h huid
    · intro t ht
      obtain ⟨j, -, rfl⟩ := List.mem_map.mp ht
      cases d
      · exact hamounts j .up
      · exact hamounts j .down
  have huids : (keys.map server.registry.uid).Nodup := by
    refine List.pairwise_map.mpr (((hpairs .up).and (hpairs .down)).imp_of_mem ?_)
    rintro j j' hj - ⟨hup, hdown⟩ huid
    obtain ⟨d, hd⟩ := ((hmem j).mp hj).exists_ne_zero hthreshold
    cases d
    · exact hd (hup huid)
    · exact hd (hdown huid)
  intro k k' hk hk' huid
  exact List.inj_on_of_nodup_map huids ((hmem k).mpr hk) ((hmem k').mpr hk') huid

end Whole

/-- **A report carries the whole slice** if no two counters that are taken have the same user id,
in every state of the core and so in every state that calls of a controller lead to. For amounts
and a report threshold that are not negative this condition is also necessary. -/
theorem pushed_whole_iff (tag : String) (minTraffic : Int64) (server : Server) (limiter : Limiter)
    (input : ReportInput) :
    let posted := (reportUserTrafficTask tag minTraffic server limiter input).traffic
    let slice := (server.getUserTrafficSlice tag true input.counters).2
    (DistinctReported server tag → ∀ d, postedTotal posted d = sliceTotal slice d) ∧
    (0 ≤ (server.registry.minTraffic tag).toInt →
      (∀ k d, 0 ≤ ((server.registry.trafficCounter tag).getCount k d).toInt) →
      (∀ d, postedTotal posted d = sliceTotal slice d) → DistinctReported server tag) :=
  ⟨fun h => postedTotal_of_distinctReported h minTraffic limiter input,
    distinctReported_of_postedTotal⟩

/-! ### Runs with distinct user ids -/

/-- No two keys have the same user id. -/
def DistinctIds (r : TrafficRegistry) : Prop :=
  ∀ k k', r.uid k ≠ 0 → r.uid k = r.uid k' → k = k'

/-- The users have ids that no other key has, and that differ from each other. A key without user
reads the id 0, so 0 is not one of them. -/
def NewIds (r : TrafficRegistry) (key : UserInfo → String) (users : List UserInfo) : Prop :=
  ∀ u ∈ users, (∀ k, r.uid k = u.id → k = key u) ∧ ∀ v ∈ users, v.id = u.id → key v = key u

namespace DistinctIds

variable {r : TrafficRegistry}

theorem register (h : DistinctIds r) {key : UserInfo → String} {users : List UserInfo}
    (hnew : NewIds r key users) : DistinctIds (r.register key users) := by
  intro k k' hk huid
  -- a key has the id of a user that was added under it, or the id it had
  have hcases : ∀ j, (∃ u ∈ users, key u = j ∧ (r.register key users).uid j = u.id) ∨
      (r.register key users).uid j = r.uid j := by
    intro j
    by_cases hj : ∃ u ∈ users, key u = j
    · obtain ⟨u, hu, rfl⟩ := hj
      obtain ⟨u', hu', hkey, huid'⟩ : ∃ u' ∈ users, key u' = key u ∧
          (r.register key users).uid (key u) = u'.id := r.exists_uid_register hu
      exact .inl ⟨u', hu', hkey, huid'⟩
    · exact .inr (r.uid_register_of_forall_ne fun u hu hkey => hj ⟨u, hu, hkey⟩)
  rcases hcases k with ⟨u, hu, rfl, hku⟩ | hku <;> rcases hcases k' with ⟨v, hv, rfl, hkv⟩ | hkv
  · exact (hnew v hv).2 u hu (hku.symm.trans (huid.trans hkv))
  · exact ((hnew u hu).1 k' (hkv.symm.trans (huid.symm.trans hku))).symm
  · exact (hnew v hv).1 k (hku.symm.trans (huid.trans hkv))
  · exact h k k' (hku ▸ hk) (hku.symm.trans (huid.trans hkv))

theorem foldl_forget (h : DistinctIds r) (tag : String) (key : UserInfo → String)
    (users : List UserInfo) :
    DistinctIds (users.foldl (fun r u => r.forget tag (key u)) r) := by
  induction users generalizing r with
  | nil => exact h
  | cons u users ih =>
    refine ih fun k k' hk huid => ?_
    have hforget := fun j => TrafficRegistry.uid_forget r tag (key u) j
    have hku : k ≠ key u := fun hku => hk (by rw [hforget, if_pos hku])
    have hku' : k' ≠ key u := fun hku' => hk (by rw [huid, hforget, if_pos hku'])
    rw [hforget, if_neg hku] at hk huid
    rw [hforget, if_neg hku'] at huid
    exact h k k' hk huid

theorem of_uid_eq {r' : TrafficRegistry} (h : DistinctIds r) (huid : r'.uid = r.uid) :
    DistinctIds r' := by
  intro k k'
  rw [huid]
  exact h k k'

theorem distinctReported {server : Server} (h : DistinctIds server.registry) (tag : String) :
    DistinctReported server tag :=
  fun k k' hk _ huid => h k k' hk.2 huid

end DistinctIds

/-- The call adds users with new ids only. -/
def SingAddsNewIds (s : SingRun) (e : SingEvent) : Prop :=
  match e.call with
  | .addUsers users _ => NewIds s.core.registry UserInfo.uuid users
  | _ => True

/-- The call adds users with new ids only. -/
def XrayAddsNewIds (s : XrayRun) (e : XrayEvent) : Prop :=
  match e.call with
  | .addUsers _ users _ => NewIds s.core.registry (fun u => userTag e.tag u.uuid) users
  | _ => True

theorem DistinctIds.singStep {s : SingRun} (h : DistinctIds s.core.registry) {e : SingEvent}
    (he : SingAddsNewIds s e) : DistinctIds (s.step e).core.registry := by
  obtain ⟨tag, call⟩ := e
  cases call with
  | addNode info min err =>
    refine h.of_uid_eq ?_
    simp only [SingRun.step, Sing.addNode]
    cases err <;> rfl
  | delNode err =>
    refine h.of_uid_eq ?_
    simp only [SingRun.step, Sing.delNode]
    split_ifs <;> rfl
  | addUsers users update =>
    simp only [SingRun.step, Sing.addUsers]
    cases s.core.inbounds.lookup tag with
    | none => exact h
    | some i => exact h.register he
  | delUsers users update =>
    simp only [SingRun.step, Sing.delUsers]
    cases s.core.inbounds.lookup tag with
    | none => exact h
    | some i => exact h.foldl_forget tag UserInfo.uuid users
  | connect user =>
    refine h.of_uid_eq ?_
    simp only [SingRun.step]
    split_ifs <;> rfl
  | transfer i d n =>
    refine h.of_uid_eq ?_
    simp only [SingRun.step]
    cases (s.conns tag)[i]? with
    | none => rfl
    | some p => exact TrafficRegistry.uid_addTo ..
  | getUserTrafficSlice reset range =>
    exact h.of_uid_eq (TrafficRegistry.uid_getUserTrafficSlice ..)

theorem DistinctIds.xrayStep {s : XrayRun} (h : DistinctIds s.core.registry) {e : XrayEvent}
    (he : XrayAddsNewIds s e) : DistinctIds (s.step e).core.registry := by
  obtain ⟨tag, call⟩ := e
  cases call with
  | addNode info min inErr outErr =>
    refine h.of_uid_eq ?_
    simp only [XrayRun.step, Xray.addNode]
    cases inErr <;> rfl
  | delNode outErr =>
    refine h.of_uid_eq ?_
    simp only [XrayRun.step, Xray.delNode]
    split_ifs <;> rfl
  | addUsers type users fail =>
    have hregister := h.register he
    simp only [XrayRun.step, Xray.addUsers]
    split_ifs
    · split <;> exact hregister
    · exact hregister
  | delUsers users fail =>
    simp only [XrayRun.step, Xray.delUsers]
    cases s.core.handlers.lookup tag with
    | none => exact h
    | some i =>
      dsimp only
      rw [Xray.foldl_delUser]
      exact h.foldl_forget tag (fun u => userTag tag u.uuid) (upTo users fail).1
  | connect uuid => exact h
  | close i =>
    refine h.of_uid_eq ?_
    simp only [XrayRun.step]
    cases (s.conns tag)[i]? with
    | none => rfl
    | some x =>
      simp only [Xray.closeLink]
      split <;> rfl
  | transfer i d n =>
    refine h.of_uid_eq ?_
    simp only [XrayRun.step]
    cases (s.conns tag)[i]? with
    | none => rfl
    | some x => exact TrafficRegistry.uid_addTo ..
  | getUserTrafficSlice reset range =>
    exact h.of_uid_eq (TrafficRegistry.uid_getUserTrafficSlice ..)

theorem distinctIds_empty : DistinctIds {} := fun _ _ hk _ => absurd rfl hk

section Runs

variable (tag : String) (minTraffic : Int64) (limiter : Limiter) (input : ReportInput)
  (d : Direction)

/-- In a run of a sing core in which users are added with new ids only, every report of every node
carries the whole slice. -/
theorem sing_pushed_whole (events : List SingEvent)
    (hnew : Guarded SingRun.step SingAddsNewIds {} events) :
    let server := Server.sing (events.foldl SingRun.step {}).core
    postedTotal (reportUserTrafficTask tag minTraffic server limiter input).traffic d =
      sliceTotal (server.getUserTrafficSlice tag true input.counters).2 d := by
  intro server
  let inv : SingRun → Prop := fun s => DistinctIds s.core.registry
  have hrun : inv (events.foldl SingRun.step {}) :=
    hnew.invariant (fun _ _ h he => h.singStep he) distinctIds_empty
  have hids : DistinctIds server.registry := hrun
  exact postedTotal_of_distinctReported (hids.distinctReported tag) minTraffic limiter input d

/-- In a run of an xray core in which users are added with new ids only, every report of every node
carries the whole slice. -/
theorem xray_pushed_whole (events : List XrayEvent)
    (hnew : Guarded XrayRun.step XrayAddsNewIds {} events) :
    let server := Server.xray (events.foldl XrayRun.step {}).core
    postedTotal (reportUserTrafficTask tag minTraffic server limiter input).traffic d =
      sliceTotal (server.getUserTrafficSlice tag true input.counters).2 d := by
  intro server
  let inv : XrayRun → Prop := fun s => DistinctIds s.core.registry
  have hrun : inv (events.foldl XrayRun.step {}) :=
    hnew.invariant (fun _ _ h he => h.xrayStep he) distinctIds_empty
  have hids : DistinctIds server.registry := hrun
  exact postedTotal_of_distinctReported (hids.distinctReported tag) minTraffic limiter input d

end Runs

/-! ### A user whose uuid was replaced -/

/-- A user without limits. -/
def plainUser (id : ℤ) (uuid : String) : UserInfo := { id, uuid, speedLimit := 0, deviceLimit := 0 }

/-- A node with one user that has uploaded 100 bytes. -/
def beforeReload : List SingEvent :=
  [⟨"node", .addNode { id := 1, type := .vless } 0 none⟩,
    ⟨"node", .addUsers [plainUser 7 "a"] none⟩, ⟨"node", .connect "a"⟩,
    ⟨"node", .transfer 0 .up 100⟩]

/-- The calls of a tick that reloads the node. The panel has replaced the uuid of the user, who
then uploads 200 bytes. -/
def replacedUuid : List SingEvent :=
  beforeReload ++
    [⟨"node", .delNode none⟩, ⟨"node", .addNode { id := 1, type := .vless } 0 none⟩,
      ⟨"node", .addUsers [plainUser 7 "b"] none⟩, ⟨"node", .connect "b"⟩,
      ⟨"node", .transfer 0 .up 200⟩]

/-- The core after calls. -/
def singAfter (events : List SingEvent) : Server := .sing (events.foldl SingRun.step {}).core

/-- A report task whose posts fail. -/
def unanswered : ReportInput :=
  ⟨.ascending, .ascending, fun _ => .ascending, .failed "timeout", .failed "timeout"⟩

/-- Users with ids are new to a registry without users. -/
theorem newIds_of_empty {r : TrafficRegistry} (hr : r.uidMap = ∅) {key : UserInfo → String}
    {users : List UserInfo} (hid : ∀ u ∈ users, u.id ≠ 0)
    (hkey : ∀ u ∈ users, ∀ v ∈ users, v.id = u.id → key v = key u) : NewIds r key users := by
  refine fun u hu => ⟨fun k hk => ?_, hkey u hu⟩
  rw [TrafficRegistry.uid, hr] at hk
  exact absurd hk.symm (hid u hu)

/-- Two users of a node of a sing core upload 100 and 200 bytes. -/
def singUploads : List SingEvent :=
  [⟨"node", .addNode { id := 1, type := .vless } 0 none⟩,
    ⟨"node", .addUsers [plainUser 7 "a", plainUser 8 "b"] none⟩,
    ⟨"node", .connect "a"⟩, ⟨"node", .transfer 0 .up 100⟩,
    ⟨"node", .connect "b"⟩, ⟨"node", .transfer 0 .up 200⟩]

theorem sing_pushed_whole_uploads :
    let server := singAfter singUploads
    (server.getUserTrafficSlice "node" true .ascending).2 = [⟨7, 100, 0⟩, ⟨8, 200, 0⟩] ∧
      postedTotal (reportUserTrafficTask "node" 0 server {} unanswered).traffic .up =
        sliceTotal (server.getUserTrafficSlice "node" true .ascending).2 .up := by
  refine ⟨by decide, sing_pushed_whole "node" 0 {} unanswered .up singUploads
    ⟨trivial, ?_, trivial, trivial, trivial, trivial, trivial⟩⟩
  exact newIds_of_empty rfl (by decide) (by decide)

/-- Two users of a node of an xray core upload 100 and 200 bytes. -/
def xrayUploads : List XrayEvent :=
  [⟨"node", .addNode { id := 1, type := .vless } 0 none none⟩,
    ⟨"node", .addUsers .vless [plainUser 7 "a", plainUser 8 "b"] none⟩,
    ⟨"node", .connect "a"⟩, ⟨"node", .transfer 0 .up 100⟩,
    ⟨"node", .connect "b"⟩, ⟨"node", .transfer 1 .up 200⟩]

theorem xray_pushed_whole_uploads :
    let server := Server.xray (xrayUploads.foldl XrayRun.step {}).core
    (server.getUserTrafficSlice "node" true .ascending).2 = [⟨7, 100, 0⟩, ⟨8, 200, 0⟩] ∧
      postedTotal (reportUserTrafficTask "node" 0 server {} unanswered).traffic .up =
        sliceTotal (server.getUserTrafficSlice "node" true .ascending).2 .up := by
  refine ⟨by decide, xray_pushed_whole "node" 0 {} unanswered .up xrayUploads
    ⟨trivial, ?_, trivial, trivial, trivial, trivial, trivial⟩⟩
  exact newIds_of_empty rfl (by decide) (by decide)

/-- Before the reload the report carries the whole slice. -/
theorem pushed_whole_iff_beforeReload :
    let server := singAfter beforeReload
    sliceTotal (server.getUserTrafficSlice "node" true .ascending).2 .up = 100 ∧
      postedTotal (reportUserTrafficTask "node" 0 server {} unanswered).traffic .up =
        sliceTotal (server.getUserTrafficSlice "node" true .ascending).2 .up := by
  intro server
  have hkeys : (server.registry.trafficCounter "node").counters.keys = {"a"} := by decide
  have hkey : ∀ k, Reported server "node" k → k = "a" := fun k hk =>
    Finset.mem_singleton.mp (hkeys ▸ Finmap.mem_keys.mpr hk.1.1)
  refine ⟨by decide, (pushed_whole_iff "node" 0 server {} unanswered).1 ?_ .up⟩
  exact fun k k' hk hk' _ => (hkey k hk).trans (hkey k' hk').symm

/-- **A report that loses traffic.** After a reload in which the panel replaced the uuid of a user,
the slice has the bytes that the user moved under both uuids, and the posted body has those of one
uuid only. -/
theorem pushed_not_whole :
    let server := singAfter replacedUuid
    sliceTotal (server.getUserTrafficSlice "node" true .ascending).2 .up = 300 ∧
      postedTotal (reportUserTrafficTask "node" 0 server {} unanswered).traffic .up = 200 := by
  decide

end Tox.Node
