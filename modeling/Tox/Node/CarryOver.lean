import Tox.Foundation.Amounts
import Tox.Node.Report

/-!
# Carrying small amounts over

`GetUserTrafficSlice` takes the amounts of a user only when their sum exceeds the report threshold.
What stays below is left in the counters, so that it counts towards a later report. Here the
counters of a node are followed through connections, additions and takings in any order
(`CounterRun.step`), with the amounts as integers: as long as the bytes of a user stay below
`2 ^ 63`, the 64-bit counters lose nothing.

The entries of a slice carry a user id. Since two users may have the same id, a run also remembers
for every entry the key of the counter that gave it (`CounterRun.taken`).
-/

namespace Tox.Node

open Tox.Foundation Tox.Counter Tox.Core Tox.Panel

/-! ### Runs over the counters of a node -/

/-- The counters of a node at work. -/
structure CounterRun where
  server : Server
  /-- The user and the storage of every connection, the latest first. -/
  conns : List (String × ℕ) := []
  /-- The amounts added so far, with their user and direction. -/
  added : List (String × Direction × ℕ) := []
  /-- The entries returned so far, those of the latest call first. -/
  entries : List UserTraffic := []
  /-- The entries returned so far with the keys of their counters. -/
  taken : List (String × UserTraffic) := []

/-- The events of a run. -/
inductive CounterEvent
  /-- A user opens a connection. -/
  | connect (uuid : String)
  /-- A connection, given by its position in `conns`, adds to a counter. -/
  | add (i : ℕ) (d : Direction) (n : ℕ)
  /-- `GetUserTrafficSlice(tag, true)`. -/
  | take (range : RangeOrder String)

/-- The entries that the counters of a node give, with their keys. -/
def keyedEntries (server : Server) (tag : String) (range : RangeOrder String) :
    List (String × UserTraffic) :=
  let c := server.registry.trafficCounter tag
  (range.keys c.counters).filterMap fun k =>
    (reportEntry server.registry.uid (server.registry.minTraffic tag) c k).map fun t => (k, t)

namespace CounterRun

/-- One event of a run over the counters of the node `tag`. -/
def step (tag : String) (s : CounterRun) : CounterEvent → CounterRun
  | .connect uuid =>
    let (server, p) := s.server.connect tag uuid s.conns.length
    { s with server := server, conns := (uuid, p) :: s.conns }
  | .add i d n =>
    match s.conns[i]? with
    | none => s
    | some (uuid, p) =>
      { s with
        server := s.server.transfer tag p d (Int64.ofNat n)
        added := (uuid, d, n) :: s.added }
  | .take range =>
    let (server, slice) := s.server.getUserTrafficSlice tag true range
    { s with
      server := server
      entries := slice ++ s.entries
      taken := keyedEntries s.server tag range ++ s.taken }

/-- The counters when the run starts. -/
def start (server : Server) : CounterRun where
  server := server

/-- The counters of the node `tag` after the given events. -/
def run (tag : String) (s : CounterRun) (events : List CounterEvent) : CounterRun :=
  events.foldl (step tag) s

theorem run_append_singleton (tag : String) (s : CounterRun) (events : List CounterEvent)
    (e : CounterEvent) : s.run tag (events ++ [e]) = (s.run tag events).step tag e :=
  List.foldl_concat ..

/-- What the counters hold for a user in one direction. -/
def held (s : CounterRun) (tag uuid : String) (d : Direction) : ℤ :=
  (s.server.count tag uuid d).toInt

/-- What has been added for a user in one direction. -/
def addedBytes (s : CounterRun) (uuid : String) (d : Direction) : ℕ :=
  (s.added.map fun a => if a.1 = uuid ∧ a.2.1 = d then a.2.2 else 0).sum

/-- What has been returned for a user in one direction. -/
def returned (s : CounterRun) (tag uuid : String) (d : Direction) : ℤ :=
  (s.taken.map fun x => if x.1 = s.server.key tag uuid then (x.2.get d).toInt else 0).sum

/-- The report threshold of the node. -/
def threshold (s : CounterRun) (tag : String) : ℤ := (s.server.registry.minTraffic tag).toInt

/-- The user has a user id. -/
def Registered (s : CounterRun) (tag uuid : String) : Prop :=
  s.server.registry.uid (s.server.key tag uuid) ≠ 0

/-- The user has a counter, and its amounts exceed the threshold. -/
def Over (s : CounterRun) (tag uuid : String) : Prop :=
  s.server.key tag uuid ∈ (s.server.registry.trafficCounter tag).counters ∧
    s.threshold tag < s.held tag uuid .up + s.held tag uuid .down

/-- The amounts of a user under its user id. -/
def entry (s : CounterRun) (tag uuid : String) : UserTraffic where
  uid := s.server.registry.uid (s.server.key tag uuid)
  upload := s.server.count tag uuid .up
  download := s.server.count tag uuid .down

variable {s : CounterRun} {tag uuid : String}

/-! ### One event -/

theorem step_add_of_none {i : ℕ} (hi : s.conns[i]? = none) (d : Direction) (n : ℕ) :
    s.step tag (.add i d n) = s := by
  simp only [step, hi]

theorem step_add_of_some {i : ℕ} {u : String} {p : ℕ} (hi : s.conns[i]? = some (u, p))
    (d : Direction) (n : ℕ) :
    s.step tag (.add i d n) =
      { s with
        server := s.server.transfer tag p d (Int64.ofNat n)
        added := (u, d, n) :: s.added } := by
  simp only [step, hi]

/-- What an event does to the core. -/
theorem server_step (s : CounterRun) (tag : String) (e : CounterEvent) :
    (s.step tag e).server = s.server ∨
      (∃ u link, (s.step tag e).server = (s.server.connect tag u link).1) ∨
      (∃ p d n, (s.step tag e).server = s.server.transfer tag p d n) ∨
      ∃ range, (s.step tag e).server = (s.server.getUserTrafficSlice tag true range).1 := by
  cases e with
  | connect u => exact .inr (.inl ⟨u, s.conns.length, rfl⟩)
  | take range => exact .inr (.inr (.inr ⟨range, rfl⟩))
  | add i d n =>
    cases hi : s.conns[i]? with
    | none => exact .inl (by rw [step_add_of_none hi])
    | some x => exact .inr (.inr (.inl ⟨x.2, d, Int64.ofNat n, by rw [step_add_of_some hi]⟩))

theorem key_step (s : CounterRun) (tag : String) (e : CounterEvent) (u : String) :
    (s.step tag e).server.key tag u = s.server.key tag u := by
  rcases s.server_step tag e with h | ⟨v, link, h⟩ | ⟨p, d, n, h⟩ | ⟨range, h⟩ <;> rw [h]
  · exact s.server.key_connect tag v link u
  · exact s.server.key_transfer tag p d n u
  · exact s.server.key_getUserTrafficSlice tag true range u

theorem uid_step (s : CounterRun) (tag : String) (e : CounterEvent) :
    (s.step tag e).server.registry.uid = s.server.registry.uid := by
  rcases s.server_step tag e with h | ⟨v, link, h⟩ | ⟨p, d, n, h⟩ | ⟨range, h⟩ <;> rw [h]
  · rw [Server.registry_connect, TrafficRegistry.uid_attach]
  · rw [Server.registry_transfer, TrafficRegistry.uid_addTo]
  · rw [Server.registry_getUserTrafficSlice, TrafficRegistry.uid_getUserTrafficSlice]

theorem key_run (s : CounterRun) (tag : String) (events : List CounterEvent) (u : String) :
    (s.run tag events).server.key tag u = s.server.key tag u := by
  induction events generalizing s with
  | nil => rfl
  | cons e events ih => exact (ih (s.step tag e)).trans (key_step s tag e u)

theorem uid_run (s : CounterRun) (tag : String) (events : List CounterEvent) :
    (s.run tag events).server.registry.uid = s.server.registry.uid := by
  induction events generalizing s with
  | nil => rfl
  | cons e events ih => exact (ih (s.step tag e)).trans (uid_step s tag e)

theorem exists_key_or_mem_of_mem_step {e : CounterEvent} {j : String}
    (hj : j ∈ ((s.step tag e).server.registry.trafficCounter tag).counters) :
    (∃ u, j = s.server.key tag u) ∨ j ∈ (s.server.registry.trafficCounter tag).counters := by
  rcases s.server_step tag e with h | ⟨v, link, h⟩ | ⟨p, d, n, h⟩ | ⟨range, h⟩ <;> rw [h] at hj
  · exact .inr hj
  · exact (s.server.eq_or_mem_of_mem_connect tag hj).imp_left fun hv => ⟨v, hv⟩
  · rw [Server.trafficCounter_transfer] at hj
    exact .inr hj
  · rw [Server.trafficCounter_getUserTrafficSlice] at hj
    exact .inr (mem_of_mem_rangeCounters _ true hj)

theorem addedBytes_cons (s : CounterRun) (server : Server) (u uuid : String) (d d' : Direction)
    (n : ℕ) :
    { s with server := server, added := (u, d, n) :: s.added }.addedBytes uuid d' =
      (if u = uuid ∧ d = d' then n else 0) + s.addedBytes uuid d' := by
  simp only [addedBytes, List.map_cons, List.sum_cons]

theorem addedBytes_le_step (s : CounterRun) (tag uuid : String) (e : CounterEvent)
    (d : Direction) : s.addedBytes uuid d ≤ (s.step tag e).addedBytes uuid d := by
  cases e with
  | connect u => exact le_rfl
  | take range => exact le_rfl
  | add i d' n =>
    cases hi : s.conns[i]? with
    | none => rw [step_add_of_none hi]
    | some x =>
      rw [step_add_of_some hi, addedBytes_cons]
      exact Nat.le_add_left ..

theorem addedBytes_le_run (s : CounterRun) (tag uuid : String) (events : List CounterEvent)
    (d : Direction) : s.addedBytes uuid d ≤ (s.run tag events).addedBytes uuid d := by
  induction events generalizing s with
  | nil => exact le_rfl
  | cons e events ih => exact (s.addedBytes_le_step tag uuid e d).trans (ih (s.step tag e))

/-- The entry of a user is among those that a call returns, once, if the user is over the
threshold. -/
theorem sum_keyedEntries {server : Server}
    (huid : server.registry.uid (server.key tag uuid) ≠ 0) (range : RangeOrder String)
    (d : Direction) :
    ((keyedEntries server tag range).map fun x =>
        if x.1 = server.key tag uuid then (x.2.get d).toInt else 0).sum =
      if Exceeds (server.registry.minTraffic tag) (server.registry.trafficCounter tag)
        (server.key tag uuid) then (server.count tag uuid d).toInt else 0 := by
  set c := server.registry.trafficCounter tag
  set k := server.key tag uuid
  have hterm : ∀ j, ((((reportEntry server.registry.uid (server.registry.minTraffic tag) c j).map
      fun t => (j, t)).map fun x => if x.1 = k then (x.2.get d).toInt else 0).getD 0) =
        if j = k then ((reportEntry server.registry.uid (server.registry.minTraffic tag) c j).map
          fun t => (t.get d).toInt).getD 0 else 0 := by
    intro j
    cases reportEntry server.registry.uid (server.registry.minTraffic tag) c j with
    | none => rw [Option.map_none, Option.map_none, Option.map_none, Option.getD_none, ite_self]
    | some t => rfl
  rw [keyedEntries, sum_map_filterMap, List.map_congr_left fun j _ => hterm j,
    sum_map_ite_eq_of_nodup (range.nodup_keys c.counters)]
  by_cases hex : Exceeds (server.registry.minTraffic tag) c k
  · rw [if_pos ((range.mem_keys ..).mpr hex.1), if_pos hex, reportEntry, if_pos ⟨hex, huid⟩]
    cases d <;> rfl
  · have hentry : reportEntry server.registry.uid (server.registry.minTraffic tag) c k = none :=
      if_neg fun h => hex h.1
    rw [if_neg hex, hentry, Option.map_none, Option.getD_none, ite_self]

theorem returned_take (huid : s.Registered tag uuid) (range : RangeOrder String)
    (d : Direction) :
    (s.step tag (.take range)).returned tag uuid d =
      (if Exceeds (s.server.registry.minTraffic tag) (s.server.registry.trafficCounter tag)
        (s.server.key tag uuid) then s.held tag uuid d else 0) + s.returned tag uuid d := by
  rw [returned, key_step]
  change ((keyedEntries s.server tag range ++ s.taken).map _).sum = _
  rw [List.map_append, List.sum_append, sum_keyedEntries huid]
  rfl

theorem held_take (huid : s.Registered tag uuid) (range : RangeOrder String) (d : Direction) :
    (s.step tag (.take range)).held tag uuid d =
      if Exceeds (s.server.registry.minTraffic tag) (s.server.registry.trafficCounter tag)
        (s.server.key tag uuid) then 0 else s.held tag uuid d := by
  refine (congrArg Int64.toInt (Server.count_getUserTrafficSlice huid range d)).trans ?_
  rw [apply_ite Int64.toInt]
  rfl

end CounterRun

/-! ### The balance of a user -/

/-- What was returned for the user and what the counters hold add up to what was added. -/
structure Balanced (tag uuid : String) (server : Server) (s : CounterRun) : Prop where
  tracks : Server.Tracks tag uuid server s.server s.conns
  held_nonneg : ∀ d, 0 ≤ s.held tag uuid d
  returned_nonneg : ∀ d, 0 ≤ s.returned tag uuid d
  total : ∀ d, s.returned tag uuid d + s.held tag uuid d = s.addedBytes uuid d

namespace Balanced

variable {tag uuid : String} {server : Server} {s : CounterRun}

theorem start (hfresh : server.registry.trafficCounter tag = .newTrafficCounter) :
    Balanced tag uuid server (.start server) := by
  have hheld : ∀ d, (CounterRun.start server).held tag uuid d = 0 := by
    intro d
    change ((server.registry.trafficCounter tag).getCount (server.key tag uuid) d).toInt = 0
    rw [hfresh]
    rfl
  exact ⟨.start hfresh, fun d => (hheld d).ge, fun _ => le_rfl, fun d => by rw [hheld]; rfl⟩

theorem registered_iff (h : Balanced tag uuid server s) :
    s.Registered tag uuid ↔ server.registry.uid (server.key tag uuid) ≠ 0 := by
  rw [CounterRun.Registered, h.tracks.uid_eq, h.tracks.key_eq]

theorem held_le (h : Balanced tag uuid server s) (d : Direction) :
    s.held tag uuid d ≤ s.addedBytes uuid d := by
  have htotal := h.total d
  have hreturned := h.returned_nonneg d
  omega

theorem connect (h : Balanced tag uuid server s) (u : String) :
    Balanced tag uuid server (s.step tag (.connect u)) := by
  have hheld : ∀ d, (s.step tag (.connect u)).held tag uuid d = s.held tag uuid d :=
    fun d => congrArg Int64.toInt (s.server.count_connect tag uuid u s.conns.length d)
  have hreturned : ∀ d, (s.step tag (.connect u)).returned tag uuid d = s.returned tag uuid d := by
    intro d
    rw [CounterRun.returned, CounterRun.key_step]
    rfl
  refine ⟨h.tracks.connect u s.conns.length, fun d => ?_, fun d => ?_, fun d => ?_⟩
  · rw [hheld]
    exact h.held_nonneg d
  · rw [hreturned]
    exact h.returned_nonneg d
  · rw [hheld, hreturned]
    exact h.total d

/-- The counters do not overflow: the held amount is at most what was added. -/
theorem add (h : Balanced tag uuid server s) (i : ℕ) (d : Direction) (n : ℕ)
    (hbound : ∀ d', (s.step tag (.add i d n)).addedBytes uuid d' < 2 ^ 63) :
    Balanced tag uuid server (s.step tag (.add i d n)) := by
  cases hi : s.conns[i]? with
  | none => rwa [CounterRun.step_add_of_none hi]
  | some x =>
    obtain ⟨u, p⟩ := x
    rw [CounterRun.step_add_of_some hi] at hbound ⊢
    set s' : CounterRun := { s with
      server := s.server.transfer tag p d (Int64.ofNat n)
      added := (u, d, n) :: s.added }
    have hadded : ∀ d', s'.addedBytes uuid d' =
        (if u = uuid ∧ d = d' then n else 0) + s.addedBytes uuid d' :=
      fun d' => s.addedBytes_cons _ u uuid d d' n
    have hreturned : ∀ d', s'.returned tag uuid d' = s.returned tag uuid d' := by
      intro d'
      rw [CounterRun.returned, s.server.key_transfer]
      rfl
    have hheld : ∀ d', s'.held tag uuid d' =
        s.held tag uuid d' + (if u = uuid ∧ d = d' then n else 0 : ℕ) := by
      intro d'
      have hcount := h.tracks.count_transfer (List.mem_of_getElem? hi) d d' (Int64.ofNat n)
      have hle := h.held_le d'
      have hlt := hbound d'
      rw [hadded] at hlt
      rw [CounterRun.held, hcount]
      split_ifs at hlt ⊢
      · exact toInt_add_ofNat_of_lt (h.held_nonneg d') (by
          change s.held tag uuid d' + n < _
          omega)
      · rw [Nat.cast_zero, add_zero]
        rfl
    refine ⟨h.tracks.transfer p d _, fun d' => ?_, fun d' => ?_, fun d' => ?_⟩
    · have := h.held_nonneg d'
      rw [hheld]
      omega
    · rw [hreturned]
      exact h.returned_nonneg d'
    · have := h.total d'
      rw [hheld, hreturned, hadded]
      omega

/-- A call moves what it takes from the counters to the returned entries. -/
theorem take (h : Balanced tag uuid server s) (huid : s.Registered tag uuid)
    (range : RangeOrder String) : Balanced tag uuid server (s.step tag (.take range)) := by
  have hheld := CounterRun.held_take huid range
  have hreturned := CounterRun.returned_take huid range
  refine ⟨h.tracks.getUserTrafficSlice (h.registered_iff.mp huid) true range,
    fun d => ?_, fun d => ?_, fun d => ?_⟩
  · rw [hheld]
    split_ifs
    · exact le_rfl
    · exact h.held_nonneg d
  · rw [hreturned]
    refine add_nonneg ?_ (h.returned_nonneg d)
    split_ifs
    · exact h.held_nonneg d
    · exact le_rfl
  · have htotal : _ = ((s.step tag (.take range)).addedBytes uuid d : ℤ) := h.total d
    rw [hheld, hreturned, ← htotal]
    split_ifs <;> ring

/-- The balance holds along every run in which the bytes of the user stay below `2 ^ 63`. -/
theorem run (hfresh : server.registry.trafficCounter tag = .newTrafficCounter)
    (huid : server.registry.uid (server.key tag uuid) ≠ 0) (events : List CounterEvent)
    (hbound : ∀ d, (CounterRun.run tag (.start server) events).addedBytes uuid d < 2 ^ 63) :
    Balanced tag uuid server (CounterRun.run tag (.start server) events) := by
  induction events using List.reverseRecOn with
  | nil => exact .start hfresh
  | append_singleton events e ih =>
    rw [CounterRun.run_append_singleton] at hbound ⊢
    have h := ih fun d => (CounterRun.addedBytes_le_step _ tag uuid e d).trans_lt (hbound d)
    cases e with
    | connect u => exact h.connect u
    | add i d n => exact h.add i d n hbound
    | take range => exact h.take (h.registered_iff.mpr huid) range

/-- While the bytes of the user stay below `2 ^ 63`, adding up both directions does not overflow. -/
theorem toInt_count_add (h : Balanced tag uuid server s)
    (hbound : s.addedBytes uuid .up + s.addedBytes uuid .down < 2 ^ 63) :
    (s.server.count tag uuid .up + s.server.count tag uuid .down).toInt =
      s.held tag uuid .up + s.held tag uuid .down := by
  have hup := h.held_le .up
  have hdown := h.held_le .down
  refine toInt_add_of_lt (h.held_nonneg .up) (h.held_nonneg .down) ?_
  change s.held tag uuid .up + s.held tag uuid .down < _
  omega

/-- So the core compares the amounts themselves with the threshold. -/
theorem exceeds_iff_over (h : Balanced tag uuid server s)
    (hbound : s.addedBytes uuid .up + s.addedBytes uuid .down < 2 ^ 63) :
    Exceeds (s.server.registry.minTraffic tag) (s.server.registry.trafficCounter tag)
      (s.server.key tag uuid) ↔ s.Over tag uuid := by
  refine and_congr Iff.rfl ?_
  rw [CounterRun.threshold, ← h.toInt_count_add hbound]
  exact Int64.lt_iff_toInt_lt

/-- A user without a counter holds nothing, so a threshold that is not negative is exceeded only by
users with a counter. -/
theorem over_iff (s : CounterRun) (tag uuid : String) (hthreshold : 0 ≤ s.threshold tag) :
    s.Over tag uuid ↔ s.threshold tag < s.held tag uuid .up + s.held tag uuid .down := by
  refine ⟨And.right, fun h => ⟨?_, h⟩⟩
  by_contra hmem
  have hheld : ∀ d, s.held tag uuid d = 0 := fun d =>
    congrArg Int64.toInt (TrafficCounter.getCount_of_none (Finmap.lookup_eq_none.mpr hmem) d)
  rw [hheld, hheld] at h
  omega

end Balanced

/-! ### The slices of a run -/

theorem map_snd_keyedEntries (server : Server) (tag : String) (reset : Bool)
    (range : RangeOrder String) : (keyedEntries server tag range).map Prod.snd =
      (server.getUserTrafficSlice tag reset range).2 := by
  rw [Server.getUserTrafficSlice_snd, TrafficRegistry.getUserTrafficSlice_snd,
    slice_rangeCounters, keyedEntries, List.map_filterMap]
  refine List.filterMap_congr fun k _ => ?_
  rw [Option.map_map]
  exact Option.map_id'

theorem CounterRun.map_snd_taken (tag : String) (server : Server) (events : List CounterEvent) :
    (CounterRun.run tag (.start server) events).taken.map Prod.snd =
      (CounterRun.run tag (.start server) events).entries := by
  induction events using List.reverseRecOn with
  | nil => rfl
  | append_singleton events e ih =>
    rw [CounterRun.run_append_singleton]
    generalize CounterRun.run tag (.start server) events = s at ih ⊢
    cases e with
    | connect u => exact ih
    | add i d n =>
      cases hi : s.conns[i]? with
      | none => rwa [CounterRun.step_add_of_none hi]
      | some x => rwa [CounterRun.step_add_of_some hi]
    | take range =>
      change (keyedEntries s.server tag range ++ s.taken).map Prod.snd =
        (s.server.getUserTrafficSlice tag true range).2 ++ s.entries
      rw [List.map_append, map_snd_keyedEntries s.server tag true, ih]

/-- The counted keys are keys of users. -/
theorem CounterRun.exists_key_of_mem (tag : String) (server : Server)
    (hfresh : server.registry.trafficCounter tag = .newTrafficCounter)
    (events : List CounterEvent) :
    let s := CounterRun.run tag (.start server) events
    ∀ j ∈ (s.server.registry.trafficCounter tag).counters, ∃ u, j = s.server.key tag u := by
  induction events using List.reverseRecOn with
  | nil => exact fun j hj => absurd (hfresh ▸ hj) Finmap.notMem_empty
  | append_singleton events e ih =>
    rw [CounterRun.run_append_singleton]
    intro s' j hj
    rcases CounterRun.exists_key_or_mem_of_mem_step hj with ⟨u, hju⟩ | hjs
    · exact ⟨u, hju.trans (CounterRun.key_step ..).symm⟩
    · obtain ⟨u, hju⟩ := ih j hjs
      exact ⟨u, hju.trans (CounterRun.key_step ..).symm⟩

/-- The users whose entries a call returns. -/
theorem CounterRun.exists_users (s : CounterRun) (tag : String)
    (hkeys : ∀ j ∈ (s.server.registry.trafficCounter tag).counters,
      ∃ u, j = s.server.key tag u) (range : RangeOrder String) :
    ∃ users : List String, users.Nodup ∧
      (∀ u, u ∈ users ↔ Exceeds (s.server.registry.minTraffic tag)
        (s.server.registry.trafficCounter tag) (s.server.key tag u) ∧ s.Registered tag u) ∧
      (s.server.getUserTrafficSlice tag true range).2 = users.map (s.entry tag) := by
  obtain ⟨keys, hnodup, hmem, hslice⟩ := exists_keys_rangeCounters s.server.registry.uid true
    range (s.server.registry.trafficCounter tag)
  -- every key that is taken is the key of a user
  obtain ⟨users, rfl⟩ : keys ∈ Set.range (List.map (s.server.key tag ·)) := by
    rw [Set.range_list_map]
    intro k hk
    obtain ⟨u, rfl⟩ := hkeys k ((hmem k).mp hk).1.1
    exact ⟨u, rfl⟩
  refine ⟨users, hnodup.of_map, fun u => ?_, ?_⟩
  · refine Iff.trans ?_ (hmem (s.server.key tag u))
    exact (List.mem_map_of_injective (s.server.key_injective tag)).symm
  · rw [Server.getUserTrafficSlice_snd, TrafficRegistry.getUserTrafficSlice_snd, hslice,
      List.map_map]
    rfl

/-- **`GetUserTrafficSlice` is exact.** Let a node start without counted traffic, and let its users
connect, add amounts and have them taken in any order, the bytes of every registered user staying
below `2 ^ 63`. Then a call returns one entry, with the exact amounts, for each registered user
whose amounts exceed the threshold, sets these amounts to zero and leaves those of the other
registered users as they are. Over the whole run, the amounts returned for a registered user and
the amounts still held add up to the amounts added, in each direction.

Amounts exceed the threshold only if there is a counter for them; for a threshold that is not
negative this says nothing more than that the sum is greater. -/
theorem getUserTrafficSlice_exact (tag : String) (server : Server)
    (hfresh : server.registry.trafficCounter tag = .newTrafficCounter)
    (events : List CounterEvent)
    (hbound : ∀ u, server.registry.uid (server.key tag u) ≠ 0 →
      (CounterRun.run tag (.start server) events).addedBytes u .up +
        (CounterRun.run tag (.start server) events).addedBytes u .down < 2 ^ 63) :
    let s := CounterRun.run tag (.start server) events
    let registered := fun u => server.registry.uid (server.key tag u) ≠ 0
    (∀ range, ∃ users : List String, users.Nodup ∧
      (∀ u, u ∈ users ↔ registered u ∧ s.Over tag u) ∧
      (s.server.getUserTrafficSlice tag true range).2 = users.map (s.entry tag) ∧
      ∀ u, registered u → ∀ d, (s.step tag (.take range)).held tag u d =
        if u ∈ users then 0 else s.held tag u d) ∧
    (∀ u, 0 ≤ s.threshold tag →
      (s.Over tag u ↔ s.threshold tag < s.held tag u .up + s.held tag u .down)) ∧
    s.taken.map Prod.snd = s.entries ∧
    ∀ u, registered u → ∀ d, s.returned tag u d + s.held tag u d = s.addedBytes u d := by
  intro s registered
  have hbalanced : ∀ u, registered u → Balanced tag u server s := fun u hu =>
    .run hfresh hu events fun d => by
      have := hbound u hu
      cases d <;> omega
  have hregistered : ∀ u, s.Registered tag u ↔ registered u := by
    intro u
    rw [CounterRun.Registered, CounterRun.uid_run, CounterRun.key_run]
    rfl
  refine ⟨fun range => ?_, fun u => Balanced.over_iff s tag u,
    CounterRun.map_snd_taken tag server events, fun u hu => (hbalanced u hu).total⟩
  obtain ⟨users, hnodup, hmem, hslice⟩ :=
    s.exists_users tag (CounterRun.exists_key_of_mem tag server hfresh events) range
  have husers : ∀ u, u ∈ users ↔ registered u ∧ s.Over tag u := by
    intro u
    rw [hmem, and_comm, hregistered]
    exact and_congr_right fun hu => (hbalanced u hu).exceeds_iff_over (hbound u hu)
  refine ⟨users, hnodup, husers, hslice, fun u hu d => ?_⟩
  rw [CounterRun.held_take ((hregistered u).mpr hu)]
  refine if_congr ?_ rfl rfl
  rw [(hbalanced u hu).exceeds_iff_over (hbound u hu), husers, and_iff_right hu]

/-! ### One user below the threshold -/

/-- A sing core with one node, which reports from one KiB on, and one registered user. -/
def oneKiBServer : Server :=
  .sing ((Sing.addNode {} "node" { id := 1, type := .vless } 1 none).1.addUsers "node"
    [{ id := 7, uuid := "a", speedLimit := 0, deviceLimit := 0 }] none).1

/-- The user uploads 600 bytes, which stay in the counters, and then downloads 600 bytes, which
makes the second call return both. -/
def carriedOver : List CounterEvent :=
  [.connect "a", .add 0 .up 600, .take .ascending, .add 0 .down 600, .take .ascending]

theorem getUserTrafficSlice_exact_carriedOver :
    let s := CounterRun.run "node" (.start oneKiBServer) carriedOver
    s.entries = [⟨7, 600, 600⟩] ∧
      s.returned "node" "a" .up + s.held "node" "a" .up = s.addedBytes "a" .up := by
  have hadded : ∀ u d, (CounterRun.run "node" (.start oneKiBServer) carriedOver).addedBytes u d =
      (if "a" = u ∧ Direction.down = d then 600 else 0) +
        ((if "a" = u ∧ Direction.up = d then 600 else 0) + 0) := fun _ _ => rfl
  refine ⟨by decide, (getUserTrafficSlice_exact "node" oneKiBServer rfl carriedOver
    fun u _ => ?_).2.2.2 "a" (by decide) .up⟩
  rw [hadded, hadded]
  split_ifs <;> decide

end Tox.Node
