import Tox.Core.Xray
import Tox.Foundation.Run
import Tox.Limiter.Basic

/-!
# Reporting traffic to the panel

A node runs `reportUserTrafficTask` periodically. It takes the traffic of its users out of the
counters of the core, posts it to the panel, and then reports the online devices. The error of a
post is logged and nothing else: the amounts have left the counters by then.

A session of a node is a sequence of connections, transfers and report tasks (`Session.step`). The
session remembers which reports the panel acknowledged, and, for stating the result, which amounts
were counted. For a registered user the amounts are conserved in every session in which no report
that takes traffic of the user fails.
-/

namespace Tox.Node

open Tox.Foundation Tox.Counter Tox.Core Tox.Format Tox.Limit Tox.Panel

/-! ### The core behind a node -/

/-- The cores that account for traffic through a `TrafficRegistry`. -/
inductive Server
  | sing (b : Sing)
  | xray (x : Xray)

namespace Server

/-- The accounting maps of the core. -/
def registry : Server → TrafficRegistry
  | sing b => b.registry
  | xray x => x.registry

/-- The key under which the core counts a user of the node. -/
def key (tag uuid : String) : Server → String
  | sing _ => uuid
  | xray _ => userTag tag uuid

/-- A connection of a user of the node, the `link`-th of the session. -/
def connect (tag uuid : String) (link : ℕ) : Server → Server × ℕ
  | sing b =>
    let (b, p) := b.routedConnection tag uuid
    (sing b, p)
  | xray x =>
    let (x, p) := x.getLink tag (userTag tag uuid) link
    (xray x, p)

/-- Bytes counted by a connection of the node. -/
def transfer (tag : String) (p : ℕ) (d : Direction) (n : Int64) : Server → Server
  | sing b => sing (b.transfer tag p d n)
  | xray x => xray (x.transfer tag p d n)

/-- `Core.GetUserTrafficSlice`. -/
def getUserTrafficSlice (tag : String) (reset : Bool) (range : RangeOrder String) :
    Server → Server × List UserTraffic
  | sing b =>
    let (b, slice) := b.getUserTrafficSlice tag reset range
    (sing b, slice)
  | xray x =>
    let (x, slice) := x.getUserTrafficSlice tag reset range
    (xray x, slice)

variable (s : Server) (tag uuid : String)

theorem key_injective : Function.Injective fun uuid => s.key tag uuid := by
  intro u v h
  cases s with
  | sing b => exact h
  | xray x => exact userTag_right_injective tag h

theorem registry_connect (link : ℕ) :
    (s.connect tag uuid link).1.registry = (s.registry.attach tag (s.key tag uuid)).1 := by
  cases s <;> rfl

theorem connect_snd (link : ℕ) :
    (s.connect tag uuid link).2 = (s.registry.attach tag (s.key tag uuid)).2 := by
  cases s <;> rfl

@[simp] theorem key_connect (link : ℕ) (u : String) :
    (s.connect tag uuid link).1.key tag u = s.key tag u := by
  cases s <;> rfl

theorem registry_transfer (p : ℕ) (d : Direction) (n : Int64) :
    (s.transfer tag p d n).registry = s.registry.addTo tag p d n := by
  cases s <;> rfl

@[simp] theorem key_transfer (p : ℕ) (d : Direction) (n : Int64) (u : String) :
    (s.transfer tag p d n).key tag u = s.key tag u := by
  cases s <;> rfl

theorem registry_getUserTrafficSlice (reset : Bool) (range : RangeOrder String) :
    (s.getUserTrafficSlice tag reset range).1.registry =
      (s.registry.getUserTrafficSlice tag reset range).1 := by
  cases s <;> rfl

theorem getUserTrafficSlice_snd (reset : Bool) (range : RangeOrder String) :
    (s.getUserTrafficSlice tag reset range).2 =
      (s.registry.getUserTrafficSlice tag reset range).2 := by
  cases s <;> rfl

@[simp] theorem key_getUserTrafficSlice (reset : Bool) (range : RangeOrder String) (u : String) :
    (s.getUserTrafficSlice tag reset range).1.key tag u = s.key tag u := by
  cases s <;> rfl

/-! ### The counters of a user -/

/-- What the counters hold for a user of the node in one direction. -/
def count (d : Direction) : Int64 :=
  (s.registry.trafficCounter tag).getCount (s.key tag uuid) d

theorem trafficCounter_connect (link : ℕ) :
    (s.connect tag uuid link).1.registry.trafficCounter tag =
      ((s.registry.trafficCounter tag).getCounter (s.key tag uuid)).1 := by
  rw [registry_connect, TrafficRegistry.trafficCounter_attach, if_pos rfl]

theorem trafficCounter_transfer (p : ℕ) (d : Direction) (n : Int64) :
    (s.transfer tag p d n).registry.trafficCounter tag =
      (s.registry.trafficCounter tag).addTo p d n := by
  rw [registry_transfer, TrafficRegistry.trafficCounter_addTo, if_pos rfl]

theorem trafficCounter_getUserTrafficSlice (reset : Bool) (range : RangeOrder String) :
    (s.getUserTrafficSlice tag reset range).1.registry.trafficCounter tag =
      (rangeCounters s.registry.uid (s.registry.minTraffic tag) reset range
        (s.registry.trafficCounter tag)).1 := by
  rw [registry_getUserTrafficSlice, TrafficRegistry.trafficCounter_getUserTrafficSlice, if_pos rfl]

theorem eq_or_mem_of_mem_connect {u : String} {link : ℕ} {j : String}
    (hj : j ∈ ((s.connect tag u link).1.registry.trafficCounter tag).counters) :
    j = s.key tag u ∨ j ∈ (s.registry.trafficCounter tag).counters := by
  refine or_iff_not_imp_left.mpr fun hju => ?_
  rw [trafficCounter_connect, ← Finmap.lookup_isSome,
    TrafficCounter.lookup_getCounter_of_ne _ hju] at hj
  exact Finmap.lookup_isSome.mp hj

/-- A connection leaves all amounts as they are. -/
theorem count_connect (u : String) (link : ℕ) (d : Direction) :
    (s.connect tag u link).1.count tag uuid d = s.count tag uuid d := by
  rw [count, trafficCounter_connect, key_connect, TrafficCounter.getCount_getCounter, count]

/-- The amounts over the threshold are taken, the others stay. -/
theorem count_getUserTrafficSlice {s : Server} {tag uuid : String}
    (huid : s.registry.uid (s.key tag uuid) ≠ 0) (range : RangeOrder String) (d : Direction) :
    (s.getUserTrafficSlice tag true range).1.count tag uuid d =
      if Exceeds (s.registry.minTraffic tag) (s.registry.trafficCounter tag) (s.key tag uuid)
      then 0 else s.count tag uuid d := by
  rw [count, trafficCounter_getUserTrafficSlice, key_getUserTrafficSlice,
    getCount_rangeCounters _ _ _ huid, count]

/-- The core `s` follows from the core `server` by connections, transfers and reports of the node:
the ids are the same, and the connections that count into the storage of the user are those of the
user. -/
structure Tracks (tag uuid : String) (server s : Server) (conns : List (String × ℕ)) : Prop where
  uid_eq : s.registry.uid = server.registry.uid
  key_eq : ∀ u, s.key tag u = server.key tag u
  keys : ∀ j ∈ (s.registry.trafficCounter tag).counters, ∃ u, j = server.key tag u
  conns : ∀ x ∈ conns,
    (s.registry.trafficCounter tag).Points (server.key tag uuid) (x.1 = uuid) x.2

namespace Tracks

variable {s : Server} {tag uuid : String} {server : Server} {conns : List (String × ℕ)}

theorem start (hfresh : server.registry.trafficCounter tag = .newTrafficCounter) :
    Tracks tag uuid server server [] where
  uid_eq := rfl
  key_eq _ := rfl
  keys _ hj := absurd (hfresh ▸ hj) Finmap.notMem_empty
  conns := List.forall_mem_nil _

theorem connect (h : Tracks tag uuid server s conns) (u : String) (link : ℕ) :
    Tracks tag uuid server (s.connect tag u link).1
      ((u, (s.connect tag u link).2) :: conns) := by
  set c := s.registry.trafficCounter tag
  have hcounter : (s.connect tag u link).1.registry.trafficCounter tag =
      (c.getCounter (server.key tag u)).1 := by
    rw [trafficCounter_connect, h.key_eq]
  have hpointer : (s.connect tag u link).2 = (c.getCounter (server.key tag u)).2 := by
    rw [connect_snd, h.key_eq]
    rfl
  refine ⟨?_, fun v => (s.key_connect tag u link v).trans (h.key_eq v), ?_, ?_⟩
  · rw [registry_connect, TrafficRegistry.uid_attach, h.uid_eq]
  · intro j hj
    rcases eq_or_mem_of_mem_connect s tag hj with hju | hjc
    · exact ⟨u, hju.trans (h.key_eq u)⟩
    · exact h.keys j hjc
  · rw [hcounter, hpointer, List.forall_mem_cons]
    refine ⟨?_, fun x hx => (h.conns x hx).getCounter _⟩
    have hpoints := c.points_getCounter (server.key tag u) (server.key tag uuid)
    rwa [(server.key_injective tag).eq_iff] at hpoints

theorem transfer (h : Tracks tag uuid server s conns) (p : ℕ) (d : Direction) (n : Int64) :
    Tracks tag uuid server (s.transfer tag p d n) conns := by
  refine ⟨?_, fun v => (s.key_transfer tag p d n v).trans (h.key_eq v), ?_, ?_⟩
  · rw [registry_transfer, TrafficRegistry.uid_addTo, h.uid_eq]
  · rw [trafficCounter_transfer]
    exact h.keys
  · rw [trafficCounter_transfer]
    exact fun x hx => (h.conns x hx).congr rfl (TrafficCounter.length_storages_modify ..)

/-- A connection counts for its user. -/
theorem count_transfer (h : Tracks tag uuid server s conns) {u : String} {p : ℕ}
    (hx : (u, p) ∈ conns) (d d' : Direction) (n : Int64) :
    (s.transfer tag p d n).count tag uuid d' =
      if u = uuid ∧ d = d' then s.count tag uuid d' + n else s.count tag uuid d' := by
  simp only [count, trafficCounter_transfer, key_transfer, TrafficCounter.getCount_addTo,
    h.key_eq, (h.conns (u, p) hx).2, eq_comm (a := d)]

theorem getUserTrafficSlice (h : Tracks tag uuid server s conns)
    (huid : server.registry.uid (server.key tag uuid) ≠ 0) (reset : Bool)
    (range : RangeOrder String) :
    Tracks tag uuid server (s.getUserTrafficSlice tag reset range).1 conns := by
  refine ⟨?_, fun v => (s.key_getUserTrafficSlice tag reset range v).trans (h.key_eq v), ?_, ?_⟩
  · rw [registry_getUserTrafficSlice, TrafficRegistry.uid_getUserTrafficSlice, h.uid_eq]
  · rw [trafficCounter_getUserTrafficSlice]
    exact fun j hj => h.keys j (mem_of_mem_rangeCounters _ reset hj)
  · rw [trafficCounter_getUserTrafficSlice, h.uid_eq]
    intro x hx
    refine (h.conns x hx).congr ?_ ?_
    · exact lookup_rangeCounters _ reset _ _ huid
    · exact length_storages_rangeCounters _ reset _ _

end Tracks

end Server

/-! ### The report task -/

/-- What one execution of the report task meets: the orders of its loops over maps and the panel's
replies to its two requests. -/
structure ReportInput where
  counters : RangeOrder String
  online : RangeOrder String
  ips : String → RangeOrder String
  push : Reply
  alive : Reply

/-- The user ids whose reported traffic is too small for their devices to count as online. -/
def nocountUID (userTraffic : List UserTraffic) (deviceOnlineMinTraffic : Int64) : List ℤ :=
  (userTraffic.filter fun t =>
    t.upload + t.download < deviceOnlineMinTraffic * 1000).map UserTraffic.uid

/-- The addresses by user id. -/
def onlineData (users : List OnlineUser) : GoMap ℤ (List String) :=
  users.foldl (fun data u => data.insert u.uid (GoMap.getD data u.uid [] ++ [u.ip])) ∅

/-- The effects of one execution of the report task. -/
structure ReportOutcome where
  server : Server
  limiter : Limiter
  /-- The posted traffic and the error of the post; nothing is posted without traffic. -/
  pushed : Option (GoMap ℤ (Int64 × Int64) × Option PanelError)
  /-- The posted devices and the error of the post. -/
  online : Option (GoMap ℤ (List String) × Option PanelError)

/-- `Controller.reportUserTrafficTask`. -/
def reportUserTrafficTask (tag : String) (deviceOnlineMinTraffic : Int64) (server : Server)
    (limiter : Limiter) (input : ReportInput) : ReportOutcome :=
  let (server, userTraffic) := server.getUserTrafficSlice tag true input.counters
  let (limiter, onlineDevice) := limiter.getOnlineDevice input.online input.ips
  let nocount := nocountUID userTraffic deviceOnlineMinTraffic
  let result := onlineDevice.filter fun u => u.uid ∉ nocount
  { server := server
    limiter := limiter
    pushed := if userTraffic = [] then none else some (reportUserTraffic userTraffic input.push)
    online :=
      if onlineDevice = [] then none
      else some (reportNodeOnlineUsers (onlineData result) input.alive) }

/-! ### Sessions -/

/-- A node at work. -/
structure Session where
  server : Server
  limiter : Limiter
  /-- The user and the storage of every connection, the latest first. -/
  conns : List (String × ℕ) := []
  /-- The traffic reports that the panel acknowledged. -/
  acked : List (GoMap ℤ (Int64 × Int64)) := []
  /-- The amounts counted so far, with their user and direction. -/
  counted : List (String × Direction × Int64) := []

/-- The events of a session. -/
inductive SessionEvent
  /-- A user opens a connection. -/
  | connect (uuid : String)
  /-- A connection, given by its position in `conns`, counts an amount. -/
  | transfer (i : ℕ) (d : Direction) (n : Int64)
  /-- The report task runs. -/
  | report (input : ReportInput)

namespace Session

/-- One event of the session of the node `tag`. -/
def step (tag : String) (deviceOnlineMinTraffic : Int64) (s : Session) :
    SessionEvent → Session
  | .connect uuid =>
    let (server, p) := s.server.connect tag uuid s.conns.length
    { s with server := server, conns := (uuid, p) :: s.conns }
  | .transfer i d n =>
    match s.conns[i]? with
    | none => s
    | some (uuid, p) =>
      { s with server := s.server.transfer tag p d n, counted := (uuid, d, n) :: s.counted }
  | .report input =>
    let o := reportUserTrafficTask tag deviceOnlineMinTraffic s.server s.limiter input
    { s with
      server := o.server
      limiter := o.limiter
      acked :=
        match o.pushed with
        | some (data, none) => data :: s.acked
        | _ => s.acked }

/-- The session of a node at its start. -/
def start (server : Server) (limiter : Limiter) : Session where
  server := server
  limiter := limiter

/-- The session of the node `tag` after the given events. -/
def run (tag : String) (deviceOnlineMinTraffic : Int64) (s : Session)
    (events : List SessionEvent) : Session :=
  events.foldl (step tag deviceOnlineMinTraffic) s

/-- What the panel has acknowledged for a user id in one direction. -/
def acknowledged (s : Session) (uid : ℤ) (d : Direction) : Int64 :=
  (s.acked.map fun data => reportedFor data uid d).sum

/-- What the counters hold for a user of the node in one direction. -/
def held (s : Session) (tag uuid : String) (d : Direction) : Int64 :=
  (s.server.registry.trafficCounter tag).getCount (s.server.key tag uuid) d

/-- What has been counted for a user in one direction. -/
def countedBytes (s : Session) (uuid : String) (d : Direction) : Int64 :=
  (s.counted.filterMap fun c => if c.1 = uuid ∧ c.2.1 = d then some c.2.2 else none).sum

theorem countedBytes_cons (s : Session) (server : Server) (u uuid : String) (d d' : Direction)
    (n : Int64) :
    { s with server := server, counted := (u, d, n) :: s.counted }.countedBytes uuid d' =
      if u = uuid ∧ d = d' then n + s.countedBytes uuid d' else s.countedBytes uuid d' := by
  simp only [countedBytes, List.filterMap_cons]
  split_ifs <;> simp only [List.sum_cons]

theorem acknowledged_report (s : Session) (tag : String) (minTraffic : Int64)
    (input : ReportInput) (uid : ℤ) (d : Direction) :
    (s.step tag minTraffic (.report input)).acknowledged uid d =
      if checkResponse input.push "/api/v1/server/UniProxy/push" = none then
        reportedFor (trafficData (s.server.getUserTrafficSlice tag true input.counters).2) uid d +
          s.acknowledged uid d
      else s.acknowledged uid d := by
  simp only [step, reportUserTrafficTask]
  generalize (s.server.getUserTrafficSlice tag true input.counters).2 = slice
  by_cases hslice : slice = []
  · -- nothing is posted, and an empty report holds nothing
    subst hslice
    rw [reportedFor_trafficData_of_forall_ne (List.forall_mem_nil _), Int64.zero_add, ite_self]
    rfl
  · simp only [if_neg hslice, reportUserTraffic]
    cases checkResponse input.push "/api/v1/server/UniProxy/push" with
    | none => rw [if_pos rfl]; exact List.sum_cons
    | some err => rw [if_neg (Option.some_ne_none err)]; rfl

end Session

/-! ### Conservation -/

/-- If the user of the node is over the report threshold when the report task runs, then the panel
acknowledges the push. -/
def Delivered (tag uuid : String) (s : Session) : SessionEvent → Prop
  | .report input =>
    Exceeds (s.server.registry.minTraffic tag) (s.server.registry.trafficCounter tag)
      (s.server.key tag uuid) → checkResponse input.push "/api/v1/server/UniProxy/push" = none
  | _ => True

section Conservation

variable {tag uuid : String} {minTraffic : Int64} {server : Server}

/-- The amounts of the user are accounted for, and the connections that count into the storage of
the user are those of the user. -/
structure Accounted (tag uuid : String) (server : Server) (s : Session) : Prop
    extends Server.Tracks tag uuid server s.server s.conns where
  total : ∀ d, s.acknowledged (server.registry.uid (server.key tag uuid)) d + s.held tag uuid d =
    s.countedBytes uuid d

namespace Accounted

variable {s : Session}

theorem of_tracks (h : Server.Tracks tag uuid server s.server s.conns)
    (htotal : ∀ d, s.acknowledged (server.registry.uid (server.key tag uuid)) d +
      s.server.count tag uuid d = s.countedBytes uuid d) : Accounted tag uuid server s :=
  ⟨h, htotal⟩

theorem connect (h : Accounted tag uuid server s) (u : String) :
    Accounted tag uuid server (s.step tag minTraffic (.connect u)) := by
  refine of_tracks (h.toTracks.connect u s.conns.length) fun d => ?_
  have hcount := s.server.count_connect tag uuid u s.conns.length d
  exact (congrArg (s.acknowledged _ d + ·) hcount).trans (h.total d)

theorem transfer (h : Accounted tag uuid server s) (i : ℕ) (d : Direction) (n : Int64) :
    Accounted tag uuid server (s.step tag minTraffic (.transfer i d n)) := by
  cases hi : s.conns[i]? with
  | none => simpa only [Session.step, hi] using h
  | some x =>
    obtain ⟨u, p⟩ := x
    have hstep : s.step tag minTraffic (.transfer i d n) =
        { s with server := s.server.transfer tag p d n, counted := (u, d, n) :: s.counted } := by
      simp only [Session.step, hi]
    rw [hstep]
    refine of_tracks (h.toTracks.transfer p d n) fun d' => ?_
    have htotal : s.acknowledged _ d' + s.server.count tag uuid d' = _ := h.total d'
    rw [Session.countedBytes_cons, ← htotal,
      h.toTracks.count_transfer (List.mem_of_getElem? hi) d d' n]
    simp only [Session.acknowledged]
    split_ifs
    · grind
    · rfl

/-- The only step that can lose amounts: the report task takes the amounts of the user out of the
counters, so they must be acknowledged. -/
theorem report (h : Accounted tag uuid server s)
    (huid : server.registry.uid (server.key tag uuid) ≠ 0)
    (huniq : ∀ u, server.registry.uid (server.key tag u) =
      server.registry.uid (server.key tag uuid) → u = uuid)
    (input : ReportInput) (hinput : Delivered tag uuid s (.report input)) :
    Accounted tag uuid server (s.step tag minTraffic (.report input)) := by
  set c := s.server.registry.trafficCounter tag
  set min := s.server.registry.minTraffic tag
  have hslice : (s.server.getUserTrafficSlice tag true input.counters).2 =
      (rangeCounters server.registry.uid min true input.counters c).2 := by
    rw [Server.getUserTrafficSlice_snd, TrafficRegistry.getUserTrafficSlice_snd, h.uid_eq]
  have hreported : ∀ d, reportedFor
      (trafficData (rangeCounters server.registry.uid min true input.counters c).2)
      (server.registry.uid (server.key tag uuid)) d =
        if Exceeds min c (server.key tag uuid) then s.server.count tag uuid d else 0 := by
    intro d
    rw [Server.count, h.key_eq]
    refine reportedFor_rangeCounters _ true input.counters c huid (fun j hj hju => ?_) d
    obtain ⟨u, rfl⟩ := h.keys j hj
    rw [huniq u hju]
  refine of_tracks (h.toTracks.getUserTrafficSlice huid true input.counters) fun d => ?_
  have hcount : (s.step tag minTraffic (.report input)).server.count tag uuid d =
      if Exceeds min c (server.key tag uuid) then 0 else s.server.count tag uuid d := by
    rw [← h.key_eq]
    refine Server.count_getUserTrafficSlice ?_ input.counters d
    rwa [h.uid_eq, h.key_eq]
  have htotal : s.acknowledged _ d + s.server.count tag uuid d = _ := h.total d
  rw [hcount, Session.acknowledged_report, hslice, hreported]
  simp only [Delivered, h.key_eq] at hinput
  by_cases hex : Exceeds min c (server.key tag uuid)
  · rw [if_pos (hinput hex), if_pos hex, if_pos hex, Int64.add_zero, Int64.add_comm]
    exact htotal
  · rw [if_neg hex, if_neg hex, Int64.zero_add, ite_self]
    exact htotal

/-- The invariant holds when the session starts. -/
theorem start (limiter : Limiter)
    (hfresh : server.registry.trafficCounter tag = .newTrafficCounter) :
    Accounted tag uuid server (.start server limiter) := by
  refine of_tracks (.start hfresh) fun d => ?_
  have hcount : server.count tag uuid d = 0 := by
    rw [Server.count, hfresh]
    rfl
  exact (congrArg (0 + ·) hcount).trans (Int64.zero_add 0)

end Accounted

/-- **Conservation of traffic.** Let a node start without counted traffic, let one of its users be
registered under a user id that no other user has, and let every push that takes traffic of this
user be acknowledged. Then after every part of the session the amounts acknowledged for the user
and the amounts in the counters add up to the amounts counted. The sums are taken in the 64-bit
arithmetic of the counters. -/
theorem acknowledged_add_held_eq_countedBytes (tag uuid : String) (minTraffic : Int64)
    (server : Server) (limiter : Limiter)
    (hfresh : server.registry.trafficCounter tag = .newTrafficCounter)
    (huid : server.registry.uid (server.key tag uuid) ≠ 0)
    (huniq : ∀ u, server.registry.uid (server.key tag u) =
      server.registry.uid (server.key tag uuid) → u = uuid)
    (events : List SessionEvent)
    (hevents : Guarded (Session.step tag minTraffic) (Delivered tag uuid) (.start server limiter)
      events)
    (part : List SessionEvent) (hpart : part <+: events) (d : Direction) :
    let s := Session.run tag minTraffic (.start server limiter) part
    s.acknowledged (server.registry.uid (server.key tag uuid)) d + s.held tag uuid d =
      s.countedBytes uuid d := by
  obtain ⟨rest, rfl⟩ := hpart
  have hinv : Accounted tag uuid server
      (Session.run tag minTraffic (.start server limiter) part) := by
    refine hevents.of_append.invariant (fun s e hs he => ?_) (.start limiter hfresh)
    cases e with
    | connect u => exact hs.connect u
    | transfer i d n => exact hs.transfer i d n
    | report input => exact hs.report huid huniq input he
  exact hinv.total d

end Conservation

/-! ### One user and one push -/

/-- A sing core with one node and one registered user. -/
def oneUserServer : Server :=
  .sing ((Sing.addNode {} "node" { id := 1, type := .vless } 0 none).1.addUsers "node"
    [{ id := 7, uuid := "a", speedLimit := 0, deviceLimit := 0 }] none).1

/-- The user opens a connection and uploads 100 bytes, then the report task runs. -/
def uploadThenReport (push : Reply) : List SessionEvent :=
  [.connect "a", .transfer 0 .up 100,
    .report ⟨.ascending, .ascending, fun _ => .ascending, push, push⟩]

theorem uid_oneUserServer (u : String) :
    oneUserServer.registry.uid u = if u = "a" then 7 else 0 := by
  have hlook : ((∅ : GoMap String ℤ).insert "a" 7).lookup u = if u = "a" then some 7 else none :=
    GoMap.lookup_insert ..
  change (Finmap.lookup u ((∅ : GoMap String ℤ).insert "a" 7)).getD 0 = _
  rw [hlook]
  split_ifs <;> rfl

theorem eq_of_uid_oneUserServer {u : String}
    (hu : oneUserServer.registry.uid (oneUserServer.key "node" u) =
      oneUserServer.registry.uid (oneUserServer.key "node" "a")) : u = "a" := by
  change oneUserServer.registry.uid u = oneUserServer.registry.uid "a" at hu
  rw [uid_oneUserServer, uid_oneUserServer] at hu
  by_contra hne
  rw [if_neg hne] at hu
  exact absurd hu (by decide)

/-- The traffic of a push that is acknowledged is accounted for. -/
theorem uploadThenReport_acknowledged :
    let s := Session.run "node" 0 (.start oneUserServer {})
      (uploadThenReport (.received 200 [] "" "" none))
    s.acknowledged 7 .up + s.held "node" "a" .up = s.countedBytes "a" .up :=
  acknowledged_add_held_eq_countedBytes "node" "a" 0 oneUserServer {} rfl
    (by decide) (fun _ hu => eq_of_uid_oneUserServer hu)
    (uploadThenReport (.received 200 [] "" "" none)) ⟨trivial, trivial, fun _ => rfl, trivial⟩ _
    (List.prefix_refl _) .up

/-- The traffic of a push that fails is neither acknowledged nor in the counters. -/
theorem uploadThenReport_failed :
    let s := Session.run "node" 0 (.start oneUserServer {}) (uploadThenReport (.failed "timeout"))
    oneUserServer.registry.uid "a" = 7 ∧ s.countedBytes "a" .up = 100 ∧
      s.acknowledged 7 .up + s.held "node" "a" .up = 0 := by
  decide

end Tox.Node
