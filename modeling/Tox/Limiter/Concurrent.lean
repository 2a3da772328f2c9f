import Mathlib
import Tox.Foundation.Run
import Tox.Limiter.Calls

/-!
# Concurrent calls of a limiter

`CheckLimit` and `GetOnlineDevice` run in many goroutines without a lock. The maps of a limiter are
concurrent maps, so that every operation on one of them is atomic, but a call is a sequence of such
operations, and `UserOnlineIP` holds *pointers* to maps of addresses: a call goes on with the map it
was given after the map has been removed.

A `Memory` has the maps of addresses in the order of their allocation, each with the user for whom
it was made, and a pointer is a position in that list. A call (`CheckCall`, `Report`) is its local
variables and its next operation.
-/

namespace Tox.Limit

open Tox.Foundation Tox.Panel Tox.Format

/-! ### Memory -/

/-- The maps of a limiter as they are in memory. -/
structure Memory where
  speedLimit : ℤ
  aliveList : GoMap ℤ ℤ
  userLimitInfo : GoMap String UserLimitInfo
  userOnlineIP : GoMap String ℕ := ∅
  /-- The maps of addresses in the order of their allocation, with the user. -/
  ipMaps : List (String × GoMap String ℤ) := []
  oldUserOnline : GoMap String ℤ := ∅
  speedLimiter : GoMap String Bucket := ∅

namespace Memory

/-- The map of addresses at a pointer. -/
def ips (m : Memory) (p : ℕ) : GoMap String ℤ := (m.ipMaps[p]?.map Prod.snd).getD ∅

/-- The user for whom a map was made. -/
def owner (m : Memory) (p : ℕ) : Option String := m.ipMaps[p]?.map Prod.fst

/-- The map of addresses at a pointer changed. -/
def setIPs (m : Memory) (p : ℕ) (f : GoMap String ℤ → GoMap String ℤ) : Memory :=
  { m with ipMaps := m.ipMaps.modify p fun entry => (entry.1, f entry.2) }

/-- A new map of addresses for a user, and put into the map of the users. -/
def allocate (m : Memory) (taguuid : String) (ipMap : GoMap String ℤ) : Memory :=
  { m with
    ipMaps := m.ipMaps ++ [(taguuid, ipMap)]
    userOnlineIP := m.userOnlineIP.insert taguuid m.ipMaps.length }

theorem owner_setIPs (m : Memory) (p : ℕ) (f : GoMap String ℤ → GoMap String ℤ) (q : ℕ) :
    (m.setIPs p f).owner q = m.owner q := by
  simp only [owner, setIPs, List.getElem?_modify]
  cases m.ipMaps[q]? with
  | none => rfl
  | some entry =>
    by_cases hq : p = q
    · simp [hq]
    · simp [hq]

theorem ips_setIPs {m : Memory} {p : ℕ} {k : String} (hp : m.owner p = some k)
    (f : GoMap String ℤ → GoMap String ℤ) (q : ℕ) :
    (m.setIPs p f).ips q = if q = p then f (m.ips p) else m.ips q := by
  obtain ⟨entry, hentry, -⟩ := Option.map_eq_some_iff.mp hp
  simp only [ips, setIPs, List.getElem?_modify]
  by_cases hq : q = p
  · subst hq
    simp [hentry]
  · simp [hq, Ne.symm hq]

theorem owner_lt {m : Memory} {p : ℕ} {k : String} (hp : m.owner p = some k) :
    p < m.ipMaps.length := by
  obtain ⟨entry, hentry, -⟩ := Option.map_eq_some_iff.mp hp
  exact (List.getElem?_eq_some_iff.mp hentry).1

theorem owner_allocate (m : Memory) (taguuid : String) (ipMap : GoMap String ℤ) (q : ℕ) :
    (m.allocate taguuid ipMap).owner q =
      if q = m.ipMaps.length then some taguuid else m.owner q := by
  simp only [owner, allocate, List.getElem?_append]
  rcases lt_trichotomy q m.ipMaps.length with hq | rfl | hq
  · simp [hq, hq.ne]
  · simp
  · simp [hq.not_gt, hq.ne', Nat.sub_eq_zero_iff_le, hq]

theorem ips_allocate (m : Memory) (taguuid : String) (ipMap : GoMap String ℤ) (q : ℕ) :
    (m.allocate taguuid ipMap).ips q =
      if q = m.ipMaps.length then ipMap else m.ips q := by
  simp only [ips, allocate, List.getElem?_append]
  rcases lt_trichotomy q m.ipMaps.length with hq | rfl | hq
  · simp [hq, hq.ne]
  · simp
  · simp [hq.not_gt, hq.ne', Nat.sub_eq_zero_iff_le, hq]

/-- The map that is found under a user was made for the user. -/
def Owned (m : Memory) : Prop := ∀ k p, m.userOnlineIP.lookup k = some p → m.owner p = some k

namespace Owned

variable {m : Memory}

theorem allocate (h : m.Owned) (k : String) (ipMap : GoMap String ℤ) :
    (m.allocate k ipMap).Owned := by
  intro k' p
  rw [owner_allocate, Memory.allocate, GoMap.lookup_insert]
  split_ifs with hk hp hp
  · rintro -
    rw [hk]
  · rintro ⟨⟩
    exact (hp rfl).elim
  · intro hlook
    exact ((owner_lt (h k' p hlook)).ne hp).elim
  · exact h k' p

theorem setIPs (h : m.Owned) (p : ℕ) (f : GoMap String ℤ → GoMap String ℤ) :
    (m.setIPs p f).Owned := by
  intro k q hq
  rw [owner_setIPs]
  exact h k q hq

theorem eraseUser (h : m.Owned) (key : String) :
    ({ m with userOnlineIP := m.userOnlineIP.erase key } : Memory).Owned := by
  intro k p hlook
  rw [GoMap.lookup_erase] at hlook
  split_ifs at hlook
  exact h k p hlook

end Owned

end Memory

/-! ### Connections -/

/-- The next operation of a call of `CheckLimit`, with the map of addresses that the call has. -/
inductive CheckPhase
  /-- `UserLimitInfo.Load` -/
  | load
  /-- `UserLimitInfo.Delete`, after the end of a dynamic limit -/
  | unregister
  /-- `UserOnlineIP.LoadOrStore` -/
  | storeUser
  /-- `oldipMap.LoadOrStore` -/
  | storeIP (p : ℕ)
  /-- `OldUserOnline.Load`, the user being new or only the address -/
  | loadOld (p : ℕ) (newUser : Bool)
  /-- `OldUserOnline.Delete` -/
  | deleteOld (p : ℕ)
  /-- `oldipMap.Delete`, before the connection is rejected -/
  | undoIP (p : ℕ)
  /-- `UserOnlineIP.Delete`, before the connection is rejected -/
  | undoUser
  /-- `SpeedLimiter.LoadOrStore` -/
  | bucket (p : Option ℕ)
  /-- `SpeedLimiter.Store` -/
  | storeBucket (p : Option ℕ)
  | accepted (p : Option ℕ)
  | rejected
deriving DecidableEq, Repr

namespace CheckPhase

/-- The map in which the address of the call is, unless the connection is to be rejected. -/
def inserted : CheckPhase → Option ℕ
  | .loadOld p _ => some p
  | .deleteOld p => some p
  | .bucket p => p
  | .storeBucket p => p
  | .accepted p => p
  | _ => none

/-- The map of addresses that the call has, unless the connection is to be rejected. -/
def held : CheckPhase → Option ℕ
  | .storeIP p => some p
  | phase => phase.inserted

/-- The call has returned. -/
def returned : CheckPhase → Bool
  | .accepted _ => true
  | .rejected => true
  | _ => false

end CheckPhase

/-- A call of `CheckLimit`. -/
structure CheckCall where
  taguuid : String
  /-- The address without a leading `::ffff:`. -/
  ip : String
  noSSUDP : Bool
  phase : CheckPhase := .load
  uid : ℤ := 0
  deviceLimit : ℤ := 0
  userLimit : ℤ := 0

namespace CheckCall

/-- The device of the call. -/
def device (c : CheckCall) : OnlineUser := ⟨c.uid, c.ip⟩

/-- The operation after the speed limit of the user is known. -/
def afterLoad (c : CheckCall) : CheckPhase := if c.noSSUDP then .storeUser else .bucket none

/-- One operation of a call at the time `now`. -/
def step (now : ℤ) (state : Memory × CheckCall) : Memory × CheckCall :=
  let (m, c) := state
  match c.phase with
  | .load =>
    match m.userLimitInfo.lookup c.taguuid with
    | none => (m, { c with phase := .rejected })
    | some u =>
      let c := { c with uid := u.uid, deviceLimit := u.deviceLimit }
      if u.expireTime < now ∧ u.expireTime ≠ 0 then
        if u.speedLimit ≠ 0 then
          let u' := { u with dynamicSpeedLimit := 0, expireTime := 0 }
          ({ m with userLimitInfo := m.userLimitInfo.insert c.taguuid u' },
            { c with userLimit := u.speedLimit, phase := c.afterLoad })
        else (m, { c with userLimit := 0, phase := .unregister })
      else
        (m, { c with
          userLimit := Limiter.determineSpeedLimit u.speedLimit u.dynamicSpeedLimit
          phase := c.afterLoad })
  | .unregister =>
    ({ m with userLimitInfo := m.userLimitInfo.erase c.taguuid }, { c with phase := c.afterLoad })
  | .storeUser =>
    match m.userOnlineIP.lookup c.taguuid with
    | some p => (m, { c with phase := .storeIP p })
    | none =>
      (m.allocate c.taguuid (Finmap.singleton c.ip c.uid),
        { c with phase := .loadOld m.ipMaps.length true })
  | .storeIP p =>
    match (m.ips p).lookup c.ip with
    | some _ => (m, { c with phase := .bucket (some p) })
    | none =>
      (m.setIPs p fun ipMap => ipMap.insert c.ip c.uid, { c with phase := .loadOld p false })
  | .loadOld p newUser =>
    match m.oldUserOnline.lookup c.ip with
    | some v => (m, { c with phase := if v = c.uid then .deleteOld p else .bucket (some p) })
    | none =>
      if c.deviceLimit > 0 ∧ c.deviceLimit ≤ GoMap.getD m.aliveList c.uid 0 then
        (m, { c with phase := if newUser then .undoUser else .undoIP p })
      else (m, { c with phase := .bucket (some p) })
  | .deleteOld p =>
    ({ m with oldUserOnline := m.oldUserOnline.erase c.ip }, { c with phase := .bucket (some p) })
  | .undoIP p => (m.setIPs p fun ipMap => ipMap.erase c.ip, { c with phase := .rejected })
  | .undoUser =>
    ({ m with userOnlineIP := m.userOnlineIP.erase c.taguuid }, { c with phase := .rejected })
  | .bucket p =>
    let limit := Int64.ofInt (Limiter.determineSpeedLimit m.speedLimit c.userLimit) * 1000000 / 8
    if limit > 0 then
      match m.speedLimiter.lookup c.taguuid with
      | some _ => (m, { c with phase := .accepted p })
      | none =>
        ({ m with speedLimiter := m.speedLimiter.insert c.taguuid ⟨limit, limit⟩ },
          { c with phase := .storeBucket p })
    else (m, { c with phase := .accepted p })
  | .storeBucket p =>
    let limit := Int64.ofInt (Limiter.determineSpeedLimit m.speedLimit c.userLimit) * 1000000 / 8
    ({ m with speedLimiter := m.speedLimiter.insert c.taguuid ⟨limit, limit⟩ },
      { c with phase := .accepted p })
  | .accepted _ => (m, c)
  | .rejected => (m, c)

end CheckCall

/-! ### Reports -/

/-- The next operation of a call of `GetOnlineDevice`. -/
inductive ReportPhase
  /-- The range over the users goes on to the next one. -/
  | next
  /-- The range over the addresses of a user, with those that are still to visit. -/
  | addresses (key : String) (p : ℕ) (todo : List String)
  /-- `OldUserOnline.Store` for the device that is visited -/
  | store (key : String) (p : ℕ) (todo : List String) (device : OnlineUser)
  /-- `UserOnlineIP.Delete` -/
  | delete (key : String)
  | returned
deriving DecidableEq, Repr

/-- A call of `GetOnlineDevice`: the users that are still to visit, the next operation and the
devices so far. -/
structure Report where
  todo : List String
  phase : ReportPhase := .next
  onlineUser : List OnlineUser := []

namespace Report

/-- One operation of a call; `ips` are the addresses that a range over the addresses of a user, if
it starts now, is going to visit. -/
def step (ips : List String) (state : Memory × Report) : Memory × Report :=
  let (m, r) := state
  match r.phase with
  | .next =>
    match r.todo with
    | [] => (m, { r with phase := .returned })
    | key :: todo =>
      match m.userOnlineIP.lookup key with
      | none => (m, { r with todo := todo })
      | some p => (m, { r with todo := todo, phase := .addresses key p ips })
  | .addresses key _ [] => (m, { r with phase := .delete key })
  | .addresses key p (ip :: todo) =>
    match (m.ips p).lookup ip with
    | none => (m, { r with phase := .addresses key p todo })
    | some uid => (m, { r with phase := .store key p todo ⟨uid, ip⟩ })
  | .store key p todo device =>
    ({ m with oldUserOnline := m.oldUserOnline.insert device.ip device.uid },
      { r with phase := .addresses key p todo, onlineUser := r.onlineUser ++ [device] })
  | .delete key =>
    ({ m with userOnlineIP := m.userOnlineIP.erase key }, { r with phase := .next })
  | .returned => (m, r)

/-- The assignment with which `GetOnlineDevice` begins. -/
def begin (m : Memory) : Memory := { m with oldUserOnline := ∅ }

/-- If the operation starts a range over the addresses of a user, `ips` is a possible order of the
visit: every address of the user is in it, and none twice. An address that comes later may be in it,
too. -/
def Visits (ips : List String) (state : Memory × Report) : Prop :=
  ∀ key ∈ state.2.todo.head?, ∀ p ∈ state.1.userOnlineIP.lookup key, state.2.phase = .next →
    ips.Nodup ∧ ∀ ip ∈ (state.1.ips p).keys, ip ∈ ips

end Report

end Tox.Limit
