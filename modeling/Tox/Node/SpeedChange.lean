import Tox.Core.Interface
import Tox.Limiter.Calls
import Tox.Node.Report
import Tox.Node.UserSync

/-!
# Changing the speed limit of a user

A tick of `nodeInfoMonitor` that finds a user with another speed limit deletes the user and adds it
again, since the speed limit is a part of the key by which the lists are compared. The deletion
takes with it what the core and the limiter know about the user: the counters with the traffic that
has not been reported, the addresses that are online and the number of devices that the panel
counts. The addition restores none of it. Connections that the user has open keep their storage,
which no counter refers to any more.

`Server.applyDelta` is what the user calls of the tick do to the core itself; on the nodes installed
in the core it is `Controller.applyDelta` (`Server.Installs.applyDelta`).
-/

namespace Tox.Node

open Tox.Foundation Tox.Counter Tox.Core Tox.Format Tox.Limit Tox.Panel

/-! ### The user calls of a tick -/

/-- The errors that the user calls of a tick meet: the position in the list at which the core stops,
and the error. -/
structure UserCallErrors where
  delUsers : Option (ℕ × String) := none
  addUsers : Option (ℕ × String) := none

namespace Server

/-- `Core.DelUsers`, and whether it succeeds. -/
def delUsers (tag : String) (users : List UserInfo) (fail : Option (ℕ × String)) :
    Server → Server × Bool
  | sing b =>
    let (b, err) := b.delUsers tag users (fail.map Prod.snd)
    (sing b, err.isNone)
  | xray x =>
    let (x, err) := x.delUsers tag users fail
    (xray x, err.isNone)

/-- `Core.AddUsers`, and whether it succeeds. -/
def addUsers (tag : String) (type : NodeType) (users : List UserInfo)
    (fail : Option (ℕ × String)) : Server → Server × Bool
  | sing b =>
    let (b, result) := b.addUsers tag users (fail.map Prod.snd)
    (sing b, result.isOk)
  | xray x =>
    let (x, result) := x.addUsers tag type users fail
    (xray x, result.isOk)

/-- The core follows the difference of the user lists, deletions first. The core is called only for
a list that is not empty. -/
def applyDelta (tag : String) (type : NodeType) (deleted added : List UserInfo)
    (errors : UserCallErrors) (s : Server) : Server × Bool :=
  match if deleted = [] then (s, true) else s.delUsers tag deleted errors.delUsers with
  | (s, false) => (s, false)
  | (s, true) => if added = [] then (s, true) else s.addUsers tag type added errors.addUsers

/-- The nodes installed in the core. -/
def Installs : Server → Installation → Prop
  | sing b, inst => b.Installs inst
  | xray x, inst => x.Installs inst

theorem Installs.delUsers {s : Server} {inst : Installation} (h : s.Installs inst) (tag : String)
    (users : List UserInfo) (fail : Option (ℕ × String)) :
    ∃ result, (s.delUsers tag users fail).1.Installs (inst.delUsers tag users result).1 ∧
      (s.delUsers tag users fail).2 = (inst.delUsers tag users result).2 := by
  cases s with
  | sing b =>
    obtain ⟨result, -, hinst, hsuccess⟩ := Sing.Installs.delUsers h tag users (fail.map Prod.snd)
    exact ⟨result, hinst, hsuccess⟩
  | xray x =>
    obtain ⟨result, -, hinst, hsuccess⟩ := Xray.Installs.delUsers h tag users fail
    exact ⟨result, hinst, hsuccess⟩

theorem Installs.addUsers {s : Server} {inst : Installation} (h : s.Installs inst) (tag : String)
    (type : NodeType) (users : List UserInfo) (fail : Option (ℕ × String)) :
    ∃ result, (s.addUsers tag type users fail).1.Installs (inst.addUsers tag users result).1 ∧
      (s.addUsers tag type users fail).2 = (inst.addUsers tag users result).2 := by
  cases s with
  | sing b =>
    obtain ⟨result, -, hinst, hsuccess⟩ := Sing.Installs.addUsers h tag users (fail.map Prod.snd)
    exact ⟨result, hinst, hsuccess⟩
  | xray x =>
    obtain ⟨result, -, hinst, hsuccess⟩ := Xray.Installs.addUsers h tag type users fail
    exact ⟨result, hinst, hsuccess⟩

theorem Installs.callUnlessNil {s : Server} {inst : Installation} (h : s.Installs inst)
    (users : List UserInfo) {call : Server → Server × Bool}
    (f : CallResult → Installation → Installation × Bool)
    (hcall : ∃ result, (call s).1.Installs (f result inst).1 ∧ (call s).2 = (f result inst).2) :
    ∃ result, (if users = [] then (s, true) else call s).1.Installs
        (Controller.callUnlessNil users inst (f result)).1 ∧
      (if users = [] then (s, true) else call s).2 =
        (Controller.callUnlessNil users inst (f result)).2 := by
  obtain ⟨result, hinst, hsuccess⟩ := hcall
  refine ⟨result, ?_⟩
  unfold Controller.callUnlessNil
  split_ifs
  · exact ⟨h, rfl⟩
  · exact ⟨hinst, hsuccess⟩

/-- On the installed nodes the calls are those of the controller, with the results that the core
gives. -/
theorem Installs.applyDelta {s : Server} {c : Controller} (h : s.Installs c.core)
    (type : NodeType) (deleted added : List UserInfo) (errors : UserCallErrors) :
    ∃ del add, ∀ input : TickInput, input.delUsers = del → input.addUsers = add →
      (s.applyDelta c.tag type deleted added errors).1.Installs
        (c.applyDelta deleted added input).1 ∧
      (s.applyDelta c.tag type deleted added errors).2 = (c.applyDelta deleted added input).2 := by
  obtain ⟨del, hinst, hsuccess⟩ := h.callUnlessNil deleted
    (fun result core => core.delUsers c.tag deleted result)
    (h.delUsers c.tag deleted errors.delUsers)
  rcases hs : (if deleted = [] then (s, true) else s.delUsers c.tag deleted errors.delUsers) with
    ⟨s₁, success⟩
  rcases hc : Controller.callUnlessNil deleted c.core
    (fun core => core.delUsers c.tag deleted del) with ⟨core₁, success'⟩
  rw [hs, hc] at hinst hsuccess
  obtain rfl : success = success' := hsuccess
  cases success with
  | false =>
    refine ⟨del, .ok, fun input hdel _ => ?_⟩
    simp only [Server.applyDelta, Controller.applyDelta, hdel, hs, hc]
    exact ⟨hinst, trivial⟩
  | true =>
    have hinst₁ : s₁.Installs core₁ := hinst
    obtain ⟨add, hadd⟩ := hinst₁.callUnlessNil added
      (fun result core => core.addUsers c.tag added result)
      (hinst₁.addUsers c.tag type added errors.addUsers)
    refine ⟨del, add, fun input hdel hadd' => ?_⟩
    simp only [Server.applyDelta, Controller.applyDelta, hdel, hadd', hs, hc]
    exact hadd

/-! ### The counters after the calls -/

section Registry

variable {s : Server} {tag : String} {users : List UserInfo} {fail : Option (ℕ × String)}

theorem key_delUsers (u : String) : (s.delUsers tag users fail).1.key tag u = s.key tag u := by
  cases s <;> rfl

theorem key_addUsers {type : NodeType} (u : String) :
    (s.addUsers tag type users fail).1.key tag u = s.key tag u := by
  cases s <;> rfl

theorem registry_delUsers_of_ok (h : (s.delUsers tag users fail).2 = true) :
    (s.delUsers tag users fail).1.registry =
      users.foldl (fun r u => r.forget tag (s.key tag u.uuid)) s.registry := by
  cases s with
  | sing b =>
    simp only [Server.delUsers, Sing.delUsers] at h ⊢
    cases hi : b.inbounds.lookup tag with
    | none =>
      rw [hi] at h
      cases h
    | some i => rfl
  | xray x =>
    simp only [Server.delUsers, Xray.delUsers] at h ⊢
    cases hi : x.handlers.lookup tag with
    | none =>
      rw [hi] at h
      cases h
    | some i =>
      -- the loop over the users is not stopped
      simp only [hi, Option.isNone_map, Option.isNone_iff_eq_none] at h
      dsimp only
      rw [Xray.foldl_delUser, upTo_fst_of_snd_eq_none h]
      rfl

theorem registry_addUsers_of_ok {type : NodeType} (h : (s.addUsers tag type users fail).2 = true) :
    (s.addUsers tag type users fail).1.registry =
      s.registry.register (fun u => s.key tag u.uuid) users := by
  cases s with
  | sing b =>
    simp only [Server.addUsers, Sing.addUsers] at h ⊢
    cases hi : b.inbounds.lookup tag with
    | none =>
      rw [hi] at h
      cases h
    | some i => rfl
  | xray x =>
    simp only [Server.addUsers, Xray.addUsers]
    split_ifs
    · split <;> rfl
    · rfl

section ApplyDelta

variable {type : NodeType} {deleted added : List UserInfo} {errors : UserCallErrors}

theorem key_applyDelta (u : String) :
    (s.applyDelta tag type deleted added errors).1.key tag u = s.key tag u := by
  have hdel : (if deleted = [] then (s, true)
      else s.delUsers tag deleted errors.delUsers).1.key tag u = s.key tag u := by
    split_ifs
    · rfl
    · exact key_delUsers u
  unfold applyDelta
  split <;> rename_i s₁ hs₁ <;> rw [hs₁] at hdel
  · exact hdel
  · split_ifs
    · exact hdel
    · exact (key_addUsers u).trans hdel

/-- The calls drop the counters of the deleted users and nothing else. -/
theorem counters_applyDelta (h : (s.applyDelta tag type deleted added errors).2 = true) :
    ((s.applyDelta tag type deleted added errors).1.registry.trafficCounter tag).counters =
      GoMap.deleteAll (deleted.map fun u => s.key tag u.uuid)
        (s.registry.trafficCounter tag).counters := by
  have hdel : (if deleted = [] then (s, true)
        else s.delUsers tag deleted errors.delUsers).2 = true →
      ((if deleted = [] then (s, true)
        else s.delUsers tag deleted errors.delUsers).1.registry.trafficCounter tag).counters =
      GoMap.deleteAll (deleted.map fun u => s.key tag u.uuid)
        (s.registry.trafficCounter tag).counters := by
    split_ifs with hnil
    · intro _
      rw [hnil]
      rfl
    · intro hok
      rw [registry_delUsers_of_ok hok]
      exact TrafficRegistry.counters_foldl_forget ..
  unfold applyDelta at h ⊢
  split at h <;> rename_i s₁ hs₁ <;> rw [hs₁] at hdel
  · cases h
  · split_ifs at h ⊢ with hnil
    · exact hdel rfl
    · rw [registry_addUsers_of_ok h]
      exact hdel rfl

/-- A deleted user has no counter. -/
theorem lookup_applyDelta_of_mem (h : (s.applyDelta tag type deleted added errors).2 = true)
    {u : UserInfo} (hu : u ∈ deleted) :
    ((s.applyDelta tag type deleted added errors).1.registry.trafficCounter tag).counters.lookup
      (s.key tag u.uuid) = none := by
  rw [counters_applyDelta h, GoMap.lookup_deleteAll, if_pos (List.mem_map_of_mem hu)]

end ApplyDelta

end Registry

/-- A user without a counter holds nothing, and a connection does not change that. -/
theorem count_of_lookup_eq_none {s : Server} {tag uuid : String}
    (h : (s.registry.trafficCounter tag).counters.lookup (s.key tag uuid) = none)
    (d : Direction) : s.count tag uuid d = 0 :=
  TrafficCounter.getCount_of_none h d

theorem count_transfer_of_lookup_eq_none {s : Server} {tag uuid : String}
    (h : (s.registry.trafficCounter tag).counters.lookup (s.key tag uuid) = none) (p : ℕ)
    (d d' : Direction) (n : Int64) : (s.transfer tag p d n).count tag uuid d' = 0 := by
  refine count_of_lookup_eq_none ?_ d'
  rw [trafficCounter_transfer, key_transfer]
  exact h

end Server

/-! ### The limiter after a tick -/

/-- The limiter of the controller after a tick that finds the settings unchanged and a new list. -/
theorem Controller.get_limiter_sync {lib : Library} {c : Controller} {input : TickInput}
    {client : Client} {new deleted added : List UserInfo} {newA : Option (GoMap ℤ ℤ)}
    (hfetch : fetch lib c.apiClient input = (client, .ok (none, some new, newA))) (hne : new ≠ [])
    (hdelta : compareUserList input.range c.userList new = (deleted, added))
    (hcalls : (c.applyDelta deleted added input).2 = true) {l : Limiter}
    (hl : c.limiters.get c.limiter = some l) (o : Options) :
    let c' := (c.nodeInfoMonitor lib o input).1
    c'.limiters.get c'.limiter =
      some ({ l with aliveList := newA.getD l.aliveList }.updateUser c.tag added deleted) := by
  rw [nodeInfoMonitor_sync hfetch rfl hne hdelta hcalls o]
  refine get_limiter_finishSync o ?_ new added deleted
  change (c.limiters.setAliveList c.limiter newA).get c.limiter = _
  rw [LimiterStore.get_setAliveList, hl, Option.map_some]

/-! ### A user whose speed limit changes -/

/-- A user whose speed limit changes is deleted. -/
theorem mem_deleted_of_speedLimit_ne {old new : List UserInfo} (range : RangeOrder String)
    (hold : DistinctUuids old) (hnew : DistinctUuids new) (hkey : Distinguishable old new)
    {u u' : UserInfo} (hu : u ∈ old) (hu' : u' ∈ new) (huuid : u'.uuid = u.uuid)
    (hspeed : u'.speedLimit ≠ u.speedLimit) : u ∈ (compareUserList range old new).1 := by
  have hmem : u ∈ old ++ new := List.mem_append_left new hu
  refine mem_deleted_iff.mpr ⟨lastWith_eq_some hu fun v hv hvu => ?_, fun v hv hvu => ?_⟩
  · exact hold.eq_of_uuid_eq hv hu (hkey v (List.mem_append_left new hv) u hmem hvu)
  · have hvu' := hkey v (List.mem_append_right old hv) u hmem hvu
    obtain rfl := hnew.eq_of_uuid_eq hv hu' (hvu'.trans huuid.symm)
    exact hspeed (append_itoa_inj (congrArg String.length huuid) hvu).2

/-- **Changing the speed limit of a user.** Consider any tick without new settings in which a user
has another speed limit and is otherwise the same, the user calls succeeding; no uuid occurs twice
in a list, and the keys tell the uuids apart. `conns` are the storages of the connections of the
user that are still open after the tick.

The tick leaves the unreported counts as they were if and only if they were zero, the online
addresses if and only if there were none, and the alive count that was just fetched if and only if
it is zero. What the open connections count later is reported if and only if there are none. -/
theorem speedChange_undisturbed_iff (lib : Library) (o : Options) (c : Controller)
    (input : TickInput) (client : Client) (new : List UserInfo) (newA : Option (GoMap ℤ ℤ))
    (l : Limiter) (server : Server) (errors : UserCallErrors) (u u' : UserInfo) (conns : List ℕ)
    (hfetch : fetch lib c.apiClient input = (client, .ok (none, some new, newA)))
    (hold : DistinctUuids c.userList) (hnew : DistinctUuids new)
    (hkey : Distinguishable c.userList new) (hu : u ∈ c.userList) (hu' : u' ∈ new)
    (hsame : u' = { u with speedLimit := u'.speedLimit }) (hspeed : u'.speedLimit ≠ u.speedLimit)
    (hl : c.limiters.get c.limiter = some l)
    (hcalls : (c.applyDelta (compareUserList input.range c.userList new).1
      (compareUserList input.range c.userList new).2 input).2 = true)
    (hserver : (server.applyDelta c.tag c.info.type
      (compareUserList input.range c.userList new).1
      (compareUserList input.range c.userList new).2 errors).2 = true) :
    let c' := (c.nodeInfoMonitor lib o input).1
    let server' := (server.applyDelta c.tag c.info.type
      (compareUserList input.range c.userList new).1
      (compareUserList input.range c.userList new).2 errors).1
    let fetched := newA.getD l.aliveList
    ∃ l', c'.limiters.get c'.limiter = some l' ∧
      ((∀ d, server'.count c.tag u.uuid d = server.count c.tag u.uuid d) ↔
        ∀ d, server.count c.tag u.uuid d = 0) ∧
      ((∀ ip, onlineUid l'.userOnlineIP (userTag c.tag u.uuid) ip =
          onlineUid l.userOnlineIP (userTag c.tag u.uuid) ip) ↔
        ∀ ip, onlineUid l.userOnlineIP (userTag c.tag u.uuid) ip = none) ∧
      (GoMap.getD l'.aliveList u.id 0 = GoMap.getD fetched u.id 0 ↔
        GoMap.getD fetched u.id 0 = 0) ∧
      ((∀ p ∈ conns, ∀ d n, (server'.transfer c.tag p d n).count c.tag u.uuid d =
          server'.count c.tag u.uuid d + n) ↔ conns = []) := by
  intro c' server' fetched
  have huuid : u'.uuid = u.uuid := by rw [hsame]
  have hdeleted := mem_deleted_of_speedLimit_ne input.range hold hnew hkey hu hu' huuid hspeed
  have hnone : (server'.registry.trafficCounter c.tag).counters.lookup
      (server'.key c.tag u.uuid) = none := by
    rw [Server.key_applyDelta]
    exact Server.lookup_applyDelta_of_mem hserver hdeleted
  set l₁ : Limiter := { l with aliveList := fetched }
  set l' := l₁.updateUser c.tag (compareUserList input.range c.userList new).2
    (compareUserList input.range c.userList new).1
  have hlimiter : c'.limiters.get c'.limiter = some l' :=
    Controller.get_limiter_sync hfetch (List.ne_nil_of_mem hu') rfl hcalls hl o
  have hips : ∀ ip, onlineUid l'.userOnlineIP (userTag c.tag u.uuid) ip = none := by
    intro ip
    rw [Limiter.onlineUid_updateUser, if_pos (List.mem_map_of_mem hdeleted)]
  have halive : GoMap.getD l'.aliveList u.id 0 = 0 := by
    rw [(l₁.updateUser_devices ..).2.1, GoMap.getD, GoMap.lookup_deleteAll,
      if_pos (List.mem_map_of_mem hdeleted), Option.getD_none]
  refine ⟨l', hlimiter, forall_congr' fun d => ?_, forall_congr' fun ip => ?_, ?_, ?_⟩
  · rw [Server.count_of_lookup_eq_none hnone]
    exact eq_comm
  · rw [hips]
    exact eq_comm
  · rw [halive]
    exact eq_comm
  · refine ⟨fun h => List.eq_nil_iff_forall_not_mem.mpr fun p hp => ?_, ?_⟩
    · -- the storage of the connection has no counter any more
      have hlost := h p hp .up 1
      rw [Server.count_transfer_of_lookup_eq_none hnone, Server.count_of_lookup_eq_none hnone]
        at hlost
      exact absurd hlost (by decide)
    · rintro rfl p hp
      cases hp

/-! ### One user with a new speed limit -/

/-- A library with which the panel counts two devices for the user id 1. -/
def aliveLibrary : Library where
  codec := { sampleLibrary.codec with unmarshalAlive := fun _ => .ok (some (Finmap.singleton 1 2)) }
  compiles := sampleLibrary.compiles

/-- The controller of a node with one user, who is online with one address. -/
def onlineController : Except StartFailure Controller :=
  (sampleStart {} (answer [0, 80] "a") (answer [97, 1, 0, 1] "u")).map fun c =>
    { c with limiters := c.limiters.modify c.limiter fun l =>
        (l.checkLimit 0 (userTag c.tag "a") "10.0.0.1" true true).1 }

/-- The core of the node. -/
def idleServer (c : Controller) : Server :=
  .sing ((Sing.addNode {} c.tag c.info 0 none).1.addUsers c.tag c.userList none).1

/-- The core of the node, the user having uploaded 100 bytes through a connection that counts into
the storage 0. -/
def busyServer (c : Controller) : Server :=
  ((idleServer c).connect c.tag "a" 0).1.transfer c.tag 0 .up 100

/-- A tick that finds the user with the speed limit 5 instead of 0. -/
def speedTick : TickInput where
  node := notModified
  users := answer [97, 1, 5, 1] "v"
  alive := answer [] ""

/-- The core after the user calls of the tick. -/
def afterSpeedTick (c : Controller) (server : Server) : Server × Bool :=
  server.applyDelta c.tag c.info.type
    (compareUserList .ascending c.userList (sampleUsers [97, 1, 5, 1])).1
    (compareUserList .ascending c.userList (sampleUsers [97, 1, 5, 1])).2 {}

/-- The counts of a user without traffic stay as they were. -/
theorem speedChange_undisturbed_iff_idle :
    ∃ c, onlineController = .ok c ∧ ∀ d, (afterSpeedTick c (idleServer c)).1.count c.tag "a" d =
      (idleServer c).count c.tag "a" d := by
  obtain ⟨c, l, client, hstart, hlist, hl, hfetch, hcalls, hserver, hidle⟩ :
      ∃ c l client, onlineController = .ok c ∧ c.userList = sampleUsers [97, 1, 0, 1] ∧
        c.limiters.get c.limiter = some l ∧
        fetch aliveLibrary c.apiClient speedTick =
          (client, .ok (none, some (sampleUsers [97, 1, 5, 1]), some (Finmap.singleton 1 2))) ∧
        (c.applyDelta (compareUserList .ascending c.userList (sampleUsers [97, 1, 5, 1])).1
          (compareUserList .ascending c.userList (sampleUsers [97, 1, 5, 1])).2
          speedTick).2 = true ∧
        (afterSpeedTick c (idleServer c)).2 = true ∧
        ∀ d, (idleServer c).count c.tag "a" d = 0 :=
    ⟨_, _, _, rfl, rfl, rfl, rfl, by decide, by decide, fun d => by cases d <;> rfl⟩
  obtain ⟨l', -, hcount, -⟩ := speedChange_undisturbed_iff aliveLibrary {} c speedTick client _ _ l
    (idleServer c) {} { id := 1, uuid := "a", speedLimit := 0, deviceLimit := 1 }
    { id := 1, uuid := "a", speedLimit := 5, deviceLimit := 1 } [] hfetch
    (by rw [hlist]; unfold DistinctUuids; decide) (by unfold DistinctUuids; decide)
    (by rw [hlist]; unfold Distinguishable; decide) (by rw [hlist]; decide) (by decide) rfl
    (by decide) hl hcalls hserver
  exact ⟨c, hstart, hcount.mpr hidle⟩

/-- **A change that is disruptive.** After the tick the 100 bytes are gone, bytes of the open
connection are not counted, the address is not online, and the alive count is zero instead of
two. -/
theorem speedChange_disturbs :
    ∃ c c' l l', onlineController = .ok c ∧ c.limiters.get c.limiter = some l ∧
      c.nodeInfoMonitor aliveLibrary {} speedTick = (c', .running) ∧
      c'.limiters.get c'.limiter = some l' ∧ c'.userList = sampleUsers [97, 1, 5, 1] ∧
      getUserAlive aliveLibrary.codec.toCodec speedTick.alive = some (Finmap.singleton 1 2) ∧
      (busyServer c).count c.tag "a" .up = 100 ∧
      (afterSpeedTick c (busyServer c)).2 = true ∧
      (afterSpeedTick c (busyServer c)).1.count c.tag "a" .up = 0 ∧
      ((afterSpeedTick c (busyServer c)).1.transfer c.tag 0 .up 50).count c.tag "a" .up = 0 ∧
      onlineUid l.userOnlineIP (userTag c.tag "a") "10.0.0.1" = some 1 ∧
      onlineUid l'.userOnlineIP (userTag c.tag "a") "10.0.0.1" = none ∧
      GoMap.getD l'.aliveList 1 0 = 0 :=
  ⟨_, _, _, _, rfl, rfl, rfl, rfl, rfl, rfl, by decide, by decide, by decide, by decide, by decide,
    by decide, by decide⟩

end Tox.Node
