import Tox.Limiter.Calls
import Tox.Node.CarryOver

/-!
# The report of online devices

After the traffic of a period has been taken, `reportUserTrafficTask` posts the online devices by
user id. It leaves out the users that are too quiet, in order that a ping test does not count as a
device: those whose entry in the traffic slice is below `DeviceOnlineMinTraffic`. The slice however
has an entry only for users over the report threshold, and the entry counts what earlier periods
have left in the counters. So a user who moved too little in the period is left out if and only if
the amounts held, with what was carried over, are above the one threshold and below the other.
-/

namespace Tox.Node

open Tox.Foundation Tox.Counter Tox.Core Tox.Format Tox.Limit Tox.Panel

/-! ### Addresses by user id -/

section OnlineData

variable (users : List OnlineUser) (uid : ℤ)

/-- The addresses of the devices of one user id. -/
def addresses : List String :=
  (users.filter fun u => u.uid = uid).map OnlineUser.ip

theorem getD_foldl_online (data : GoMap ℤ (List String)) :
    GoMap.getD (users.foldl
        (fun data u => data.insert u.uid (GoMap.getD data u.uid [] ++ [u.ip])) data) uid [] =
      GoMap.getD data uid [] ++ addresses users uid := by
  induction users generalizing data with
  | nil => exact (List.append_nil _).symm
  | cons u users ih =>
    rw [List.foldl_cons, ih]
    by_cases hu : u.uid = uid
    · subst hu
      simp only [addresses, GoMap.getD, GoMap.lookup_insert, if_pos, Option.getD_some,
        List.filter_cons, decide_true, List.map_cons, List.append_assoc, List.singleton_append]
    · simp only [addresses, GoMap.getD, GoMap.lookup_insert, if_neg (Ne.symm hu),
        List.filter_cons, decide_eq_false hu, Bool.false_eq_true, if_false]

theorem mem_foldl_online (data : GoMap ℤ (List String)) :
    uid ∈ users.foldl (fun data u => data.insert u.uid (GoMap.getD data u.uid [] ++ [u.ip])) data ↔
      uid ∈ data ∨ ∃ u ∈ users, u.uid = uid := by
  induction users generalizing data with
  | nil => simp
  | cons u users ih =>
    rw [List.foldl_cons, ih, Finmap.mem_insert, List.exists_mem_cons_iff, eq_comm (a := uid)]
    tauto

theorem mem_onlineData : uid ∈ onlineData users ↔ ∃ u ∈ users, u.uid = uid := by
  rw [onlineData, mem_foldl_online]
  exact or_iff_right Finmap.notMem_empty

/-- The addresses that are posted for a user id. -/
theorem eq_addresses_of_lookup_onlineData {ips : List String}
    (h : (onlineData users).lookup uid = some ips) : ips = addresses users uid := by
  have hgetD := getD_foldl_online users uid ∅
  change GoMap.getD (onlineData users) uid [] = _ at hgetD
  rw [GoMap.getD, h] at hgetD
  exact hgetD

end OnlineData

/-! ### The posted devices -/

/-- The devices that the report task posts; without devices nothing is posted. -/
def ReportOutcome.alive (o : ReportOutcome) : GoMap ℤ (List String) :=
  match o.online with
  | none => ∅
  | some (data, _) => data

section Alive

variable (tag : String) (minTraffic : Int64) (server : Server) (limiter : Limiter)
  (input : ReportInput)

/-- The devices that the limiter reports to the task. -/
def reportedDevices : List OnlineUser :=
  (limiter.getOnlineDevice input.online input.ips).2

theorem alive_reportUserTrafficTask :
    (reportUserTrafficTask tag minTraffic server limiter input).alive =
      onlineData ((reportedDevices limiter input).filter fun u =>
        u.uid ∉ nocountUID (server.getUserTrafficSlice tag true input.counters).2 minTraffic) := by
  simp only [ReportOutcome.alive, reportUserTrafficTask, reportedDevices]
  generalize (limiter.getOnlineDevice input.online input.ips).2 = devices
  by_cases hnil : devices = []
  · subst hnil
    rfl
  · simp only [if_neg hnil]
    rfl

theorem mem_nocountUID {slice : List UserTraffic} {uid : ℤ} : uid ∈ nocountUID slice minTraffic ↔
    ∃ t ∈ slice, t.uid = uid ∧ t.upload + t.download < minTraffic * 1000 := by
  simp only [nocountUID, List.mem_map, List.mem_filter, decide_eq_true_eq]
  exact exists_congr fun t => by tauto

variable {tag minTraffic server limiter input} {uid : ℤ}

/-- The devices of a user are posted unless the user has an entry in the slice that is too
small. -/
theorem mem_alive_iff :
    uid ∈ (reportUserTrafficTask tag minTraffic server limiter input).alive ↔
      (∃ u ∈ reportedDevices limiter input, u.uid = uid) ∧
        uid ∉ nocountUID (server.getUserTrafficSlice tag true input.counters).2 minTraffic := by
  rw [alive_reportUserTrafficTask, mem_onlineData]
  simp only [List.mem_filter, decide_eq_true_eq]
  constructor
  · rintro ⟨u, ⟨hu, hcount⟩, rfl⟩
    exact ⟨⟨u, hu, rfl⟩, hcount⟩
  · rintro ⟨⟨u, hu, rfl⟩, hcount⟩
    exact ⟨u, ⟨hu, hcount⟩, rfl⟩

/-- The posted addresses of a user are those that the limiter reported. -/
theorem eq_addresses_of_lookup_alive {ips : List String}
    (h : (reportUserTrafficTask tag minTraffic server limiter input).alive.lookup uid = some ips) :
    ips = addresses (reportedDevices limiter input) uid := by
  have hcount := (mem_alive_iff.mp (Finmap.mem_of_lookup_eq_some h)).2
  rw [alive_reportUserTrafficTask] at h
  rw [eq_addresses_of_lookup_onlineData _ _ h, addresses, List.filter_filter]
  refine congrArg (List.map OnlineUser.ip) (List.filter_congr fun u _ => ?_)
  by_cases hu : u.uid = uid
  · rw [hu, decide_eq_true hcount, Bool.and_true]
  · rw [decide_eq_false hu, Bool.false_and]

theorem mem_addresses {devices : List OnlineUser} {ip : String} :
    ip ∈ addresses devices uid ↔ ⟨uid, ip⟩ ∈ devices := by
  simp only [addresses, List.mem_map, List.mem_filter, decide_eq_true_eq]
  constructor
  · rintro ⟨u, ⟨hu, rfl⟩, rfl⟩
    exact hu
  · exact fun h => ⟨_, ⟨h, rfl⟩, rfl⟩

theorem nodup_addresses {devices : List OnlineUser} (h : devices.Nodup) :
    (addresses devices uid).Nodup := by
  refine List.Nodup.map_on (fun u hu v hv hip => ?_) (h.filter _)
  have hu' : u.uid = uid := of_decide_eq_true (List.mem_filter.mp hu).2
  have hv' : v.uid = uid := of_decide_eq_true (List.mem_filter.mp hv).2
  cases u
  cases v
  cases hu'
  cases hv'
  cases hip
  rfl

end Alive

/-! ### Periods -/

namespace CounterRun

/-- The bytes of a user that were added, in both directions. -/
def addedTotal (s : CounterRun) (uuid : String) : ℤ :=
  s.addedBytes uuid .up + s.addedBytes uuid .down

/-- The bytes of a user that the counters hold, in both directions. -/
def heldTotal (s : CounterRun) (tag uuid : String) : ℤ :=
  s.held tag uuid .up + s.held tag uuid .down

/-- Between two reports nothing is returned. -/
theorem returned_run_of_forall_ne {period : List CounterEvent}
    (hperiod : ∀ range, .take range ∉ period) (s : CounterRun) (tag uuid : String)
    (d : Direction) : (s.run tag period).returned tag uuid d = s.returned tag uuid d := by
  have htaken : (s.run tag period).taken = s.taken := by
    induction period generalizing s with
    | nil => rfl
    | cons e period ih =>
      refine (ih (fun range h => hperiod range (List.mem_cons_of_mem e h)) _).trans ?_
      cases e with
      | connect u => rfl
      | take range => exact absurd List.mem_cons_self (hperiod range)
      | add i d' n =>
        cases hi : s.conns[i]? with
        | none => rw [step_add_of_none hi]
        | some x => rw [step_add_of_some hi]
  rw [returned, htaken, key_run]
  rfl

end CounterRun

section Period

variable {tag uuid : String} {server : Server} {s₀ s : CounterRun}

/-- In a period, what was carried over and what is added make up what the counters hold. -/
theorem Balanced.heldTotal_eq (h₀ : Balanced tag uuid server s₀) (h : Balanced tag uuid server s)
    (hreturned : ∀ d, s.returned tag uuid d = s₀.returned tag uuid d) :
    s.heldTotal tag uuid =
      s₀.heldTotal tag uuid + (s.addedTotal uuid - s₀.addedTotal uuid) := by
  have hup₀ := h₀.total .up
  have hdown₀ := h₀.total .down
  have hup := h.total .up
  have hdown := h.total .down
  rw [hreturned] at hup hdown
  simp only [CounterRun.heldTotal, CounterRun.addedTotal]
  omega

/-- The user is left out if its amounts are over the report threshold and below the other one. -/
theorem Balanced.mem_nocountUID_iff (h : Balanced tag uuid server s)
    (hkeys : ∀ j ∈ (s.server.registry.trafficCounter tag).counters, ∃ u, j = s.server.key tag u)
    (huid : server.registry.uid (server.key tag uuid) ≠ 0)
    (huniq : ∀ u, server.registry.uid (server.key tag u) =
      server.registry.uid (server.key tag uuid) → u = uuid)
    (hbound : s.addedBytes uuid .up + s.addedBytes uuid .down < 2 ^ 63) {minTraffic : Int64}
    (hmin : -2 ^ 63 ≤ minTraffic.toInt * 1000 ∧ minTraffic.toInt * 1000 < 2 ^ 63)
    (range : RangeOrder String) :
    server.registry.uid (server.key tag uuid) ∈
        nocountUID (s.server.getUserTrafficSlice tag true range).2 minTraffic ↔
      s.Over tag uuid ∧ s.heldTotal tag uuid < minTraffic.toInt * 1000 := by
  obtain ⟨users, -, hmem, hslice⟩ := s.exists_users tag hkeys range
  have huidOf : ∀ u, (s.entry tag u).uid = server.registry.uid (server.key tag u) := by
    intro u
    rw [CounterRun.entry, h.tracks.uid_eq, h.tracks.key_eq]
  have hsum : ((s.entry tag uuid).upload + (s.entry tag uuid).download).toInt =
      s.heldTotal tag uuid := h.toInt_count_add hbound
  have hproduct : (minTraffic * 1000).toInt = minTraffic.toInt * 1000 := by
    have hthousand : (1000 : Int64).toInt = 1000 := rfl
    rw [Int64.toInt_mul, hthousand]
    exact Int.bmod_eq_of_le (by omega) (by omega)
  have hsmall : (s.entry tag uuid).upload + (s.entry tag uuid).download < minTraffic * 1000 ↔
      s.heldTotal tag uuid < minTraffic.toInt * 1000 := by
    rw [Int64.lt_iff_toInt_lt, hsum, hproduct]
  have hover : uuid ∈ users ↔ s.Over tag uuid := by
    rw [hmem, h.exceeds_iff_over hbound]
    exact and_iff_left (h.registered_iff.mpr huid)
  rw [mem_nocountUID, hslice, ← hover, ← hsmall]
  constructor
  · rintro ⟨t, ht, htuid, hlt⟩
    obtain ⟨u, hu, rfl⟩ := List.mem_map.mp ht
    obtain rfl := huniq u ((huidOf u).symm.trans htuid)
    exact ⟨hu, hlt⟩
  · exact fun ⟨hu, hlt⟩ => ⟨s.entry tag uuid, List.mem_map_of_mem hu, huidOf uuid, hlt⟩

end Period

/-- **The report of online devices.** Let a node start without counted traffic and report its users
any number of times (`before`); in the period that follows, users connect and move bytes, and then
the report task runs with any limiter. Let the user be the only one with its user id, and let its
bytes and the limits fit into 64 bits.

The posted map contains the user exactly when a device of the user was reported and the user moved
at least `DeviceOnlineMinTraffic * 1000` bytes in the period, if and only if the following holds
for a user with a reported device who moved less: the amounts held, which are those carried over
from earlier periods and those of the period, exceed the report threshold and are below
`DeviceOnlineMinTraffic * 1000`. The list of a posted user has the addresses reported for it, and
has none of them twice if no two users of the limiter are online at one address with the same user
id. -/
theorem alive_exact_iff (tag uuid : String) (server : Server)
    (hfresh : server.registry.trafficCounter tag = .newTrafficCounter)
    (huid : server.registry.uid (server.key tag uuid) ≠ 0)
    (huniq : ∀ u, server.registry.uid (server.key tag u) =
      server.registry.uid (server.key tag uuid) → u = uuid)
    (before period : List CounterEvent) (hperiod : ∀ range, .take range ∉ period)
    (hbound : (CounterRun.run tag (.start server) (before ++ period)).addedBytes uuid .up +
      (CounterRun.run tag (.start server) (before ++ period)).addedBytes uuid .down < 2 ^ 63)
    (minTraffic : Int64)
    (hmin : -2 ^ 63 ≤ minTraffic.toInt * 1000 ∧ minTraffic.toInt * 1000 < 2 ^ 63)
    (limiter : Limiter) (input : ReportInput) :
    let s₀ := CounterRun.run tag (.start server) before
    let s := CounterRun.run tag (.start server) (before ++ period)
    let uid := server.registry.uid (server.key tag uuid)
    let devices := (limiter.getOnlineDevice input.online input.ips).2
    let alive := (reportUserTrafficTask tag minTraffic s.server limiter input).alive
    let moved := s.addedTotal uuid - s₀.addedTotal uuid
    let least := minTraffic.toInt * 1000
    ((uid ∈ alive ↔ (∃ u ∈ devices, u.uid = uid) ∧ least ≤ moved) ↔
      ((∃ u ∈ devices, u.uid = uid) → moved < least →
        s.Over tag uuid ∧ s₀.heldTotal tag uuid + moved < least)) ∧
    ∀ ips, alive.lookup uid = some ips →
      (∀ ip, ip ∈ ips ↔ ⟨uid, ip⟩ ∈ devices) ∧
      ((∀ k k' i v, onlineUid limiter.userOnlineIP k i = some v →
        onlineUid limiter.userOnlineIP k' i = some v → k = k') → ips.Nodup) := by
  intro s₀ s uid devices alive moved least
  have hs : s = s₀.run tag period := List.foldl_append ..
  have hboundAt : ∀ d, s.addedBytes uuid d < 2 ^ 63 := by
    have : s.addedBytes uuid .up + s.addedBytes uuid .down < 2 ^ 63 := hbound
    intro d
    cases d <;> omega
  have hbound₀ : ∀ d, s₀.addedBytes uuid d < 2 ^ 63 := fun d =>
    (s₀.addedBytes_le_run tag uuid period d).trans_lt (hs ▸ hboundAt d)
  have h : Balanced tag uuid server s := .run hfresh huid _ hboundAt
  have h₀ : Balanced tag uuid server s₀ := .run hfresh huid _ hbound₀
  have hheld : s.heldTotal tag uuid = s₀.heldTotal tag uuid + moved :=
    h₀.heldTotal_eq h fun d => by rw [hs, CounterRun.returned_run_of_forall_ne hperiod]
  have hnocount := h.mem_nocountUID_iff (CounterRun.exists_key_of_mem tag server hfresh _) huid
    huniq hbound hmin input.counters
  have hcarried : 0 ≤ s₀.heldTotal tag uuid :=
    add_nonneg (h₀.held_nonneg .up) (h₀.held_nonneg .down)
  refine ⟨?_, fun ips hips => ?_⟩
  · have hposted : uid ∈ alive ↔ (∃ u ∈ devices, u.uid = uid) ∧
        ¬(s.Over tag uuid ∧ s₀.heldTotal tag uuid + moved < least) := by
      rw [← hheld, ← hnocount]
      exact mem_alive_iff
    rw [hposted]
    -- whoever is left out moved too little, since what was carried over is not negative
    constructor
    · intro hiff hdevice hlt
      by_contra hover
      exact absurd (hiff.mp ⟨hdevice, hover⟩).2 (by omega)
    · intro himp
      refine and_congr_right fun hdevice => ⟨fun hover => ?_, fun hle hover => ?_⟩
      · by_contra hlt
        exact hover (himp hdevice (by omega))
      · omega
  · rw [eq_addresses_of_lookup_alive hips]
    refine ⟨fun ip => mem_addresses, fun hdistinct => nodup_addresses ?_⟩
    exact Limiter.nodup_getOnlineDevice input.online input.ips hdistinct

/-! ### One user with a device -/

/-- The limiter of a node whose user has opened a connection. -/
def oneDeviceLimiter : Limiter :=
  ((newLimiter "node" {} [{ id := 7, uuid := "a", speedLimit := 0, deviceLimit := 0 }] ∅).checkLimit
    0 (userTag "node" "a") "10.0.0.1" true true).1

/-- The devices posted after the given events, one kB being required for a device to count. -/
def aliveAfter (server : Server) (events : List CounterEvent) : GoMap ℤ (List String) :=
  (reportUserTrafficTask "node" 1 (CounterRun.run "node" (.start server) events).server
    oneDeviceLimiter ⟨.ascending, .ascending, fun _ => .ascending, .failed "", .failed ""⟩).alive

/-- The user downloads 1000 bytes. -/
def thousand : List CounterEvent := [.connect "a", .add 0 .down 1000]

/-- The user is posted after a period in which it moves as much as is required. -/
theorem alive_exact_iff_thousand :
    (CounterRun.run "node" (.start oneUserServer) thousand).addedTotal "a" = 1000 ∧
      7 ∈ aliveAfter oneUserServer thousand := by
  have hexact := alive_exact_iff "node" "a" oneUserServer rfl (by decide)
    (fun _ hu => eq_of_uid_oneUserServer hu) [] thousand (by simp [thousand]) (by decide) 1
    (by decide) oneDeviceLimiter
    ⟨.ascending, .ascending, fun _ => .ascending, .failed "", .failed ""⟩
  refine ⟨by decide, (hexact.1.mpr fun _ hlt => ?_).mpr ?_⟩
  · exact absurd hlt (by decide)
  · exact ⟨⟨⟨7, "10.0.0.1"⟩, by decide, by decide⟩, by decide⟩

/-- The user uploads 600 bytes. -/
def sixHundred : List CounterEvent := [.connect "a", .add 0 .up 600]

/-- The report task runs, and the user uploads 600 bytes once more. -/
def sixHundredTwice : List CounterEvent := sixHundred ++ [.take .ascending] ++ [.add 0 .up 600]

/-- A user without traffic, a user below the report threshold and a user whose entry counts bytes
of an earlier period are posted, although none of them moved 1000 bytes in the period. -/
theorem alive_not_exact :
    7 ∈ aliveAfter oneUserServer [] ∧
    7 ∈ aliveAfter oneKiBServer sixHundred ∧
    (CounterRun.run "node" (.start oneKiBServer) sixHundred).addedTotal "a" = 600 ∧
    7 ∈ aliveAfter oneKiBServer sixHundredTwice ∧
    (CounterRun.run "node" (.start oneKiBServer) sixHundredTwice).addedTotal "a" -
      (CounterRun.run "node" (.start oneKiBServer) (sixHundred ++ [.take .ascending])).addedTotal
        "a" = 600 := by
  decide

end Tox.Node
