import Mathlib
import Tox.Common.Format
import Tox.Panel.Node

/-!
# The limiter of a node

`limiter.Limiter` decides which connections of a node are accepted and at what rate. It keeps the
limits of the registered users, the addresses from which they are online, and the token buckets
already handed out. Its maps are keyed by `Format.userTag`, the tag of the node and the uuid of
the user.

A limiter *agrees* with a user list under a tag (`Limiter.Agrees`) when it has an entry with the
right uid, speed limit and device limit for exactly the users of the list. Agreement is what makes
`checkLimit` reject precisely the users that are not in the list as unknown
(`Limiter.Agrees.isUnknown_iff`).
-/

namespace Tox.Limit

open Tox.Foundation Tox.Panel Tox.Format

/-- The parts of `conf.LimitConfig` that the controller and the limiter read. -/
structure LimitConfig where
  speedLimit : ℤ := 0
  enableDynamicSpeedLimit : Bool := false
deriving DecidableEq, Repr

/-- `limiter.UserLimitInfo`. -/
@[ext] structure UserLimitInfo where
  uid : ℤ
  speedLimit : ℤ := 0
  deviceLimit : ℤ := 0
  dynamicSpeedLimit : ℤ := 0
  expireTime : ℤ := 0
  overLimit : Bool := false
deriving DecidableEq, Repr

/-- The entry has the uid and the limits of the user. -/
def UserLimitInfo.Matches (info : UserLimitInfo) (u : UserInfo) : Prop :=
  info.uid = u.id ∧ info.speedLimit = u.speedLimit ∧ info.deviceLimit = u.deviceLimit

/-- A token bucket: `quantum` tokens every second, at most `capacity` of them. -/
structure Bucket where
  capacity : Int64
  quantum : Int64
deriving DecidableEq, Repr

/-- `limiter.Limiter`. -/
structure Limiter where
  domainRules : List String := []
  protocolRules : List String := []
  speedLimit : ℤ := 0
  /-- Addresses with the uid, by user. -/
  userOnlineIP : GoMap String (GoMap String ℤ) := ∅
  /-- The addresses of the last report with the uid. -/
  oldUserOnline : GoMap String ℤ := ∅
  uuidToUID : GoMap String ℤ := ∅
  userLimitInfo : GoMap String UserLimitInfo := ∅
  speedLimiter : GoMap String Bucket := ∅
  aliveList : GoMap ℤ ℤ := ∅

/-! ### Registering users -/

/-- The entry of a user. -/
def userEntry (u : UserInfo) : UserLimitInfo where
  uid := u.id
  speedLimit := if u.speedLimit ≠ 0 then u.speedLimit else 0
  deviceLimit := if u.deviceLimit ≠ 0 then u.deviceLimit else 0

@[simp] theorem userEntry_uid (u : UserInfo) : (userEntry u).uid = u.id := rfl

@[simp] theorem userEntry_speedLimit (u : UserInfo) :
    (userEntry u).speedLimit = u.speedLimit := by
  simp only [userEntry, ite_not]
  split_ifs with h
  · exact h.symm
  · rfl

@[simp] theorem userEntry_deviceLimit (u : UserInfo) :
    (userEntry u).deviceLimit = u.deviceLimit := by
  simp only [userEntry, ite_not]
  split_ifs with h
  · exact h.symm
  · rfl

/-- The limiter that `limiter.AddLimiter` builds for the users of a node. -/
def newLimiter (tag : String) (conf : LimitConfig) (users : List UserInfo)
    (aliveList : GoMap ℤ ℤ) : Limiter where
  speedLimit := conf.speedLimit
  aliveList := aliveList
  uuidToUID := GoMap.storeAll UserInfo.uuid UserInfo.id users ∅
  userLimitInfo := GoMap.storeAll (fun u => userTag tag u.uuid) userEntry users ∅

namespace Limiter

/-- The deletion of one user in `Limiter.UpdateUser`. -/
def deleteUser (tag : String) (l : Limiter) (u : UserInfo) : Limiter :=
  { l with
    userLimitInfo := l.userLimitInfo.erase (userTag tag u.uuid)
    userOnlineIP := l.userOnlineIP.erase (userTag tag u.uuid)
    speedLimiter := l.speedLimiter.erase (userTag tag u.uuid)
    uuidToUID := l.uuidToUID.erase u.uuid
    aliveList := l.aliveList.erase u.id }

/-- The addition of one user in `Limiter.UpdateUser`. -/
def addUser (tag : String) (l : Limiter) (u : UserInfo) : Limiter :=
  { l with
    userLimitInfo := l.userLimitInfo.insert (userTag tag u.uuid) (userEntry u)
    uuidToUID := l.uuidToUID.insert u.uuid u.id }

/-- `Limiter.UpdateUser`: first the deletions, then the additions. -/
def updateUser (l : Limiter) (tag : String) (added deleted : List UserInfo) : Limiter :=
  added.foldl (addUser tag) (deleted.foldl (deleteUser tag) l)

/-! ### Rules -/

/-- The rules of a limiter replaced. -/
def setRules (l : Limiter) (rule : Rules) : Limiter :=
  { l with domainRules := rule.regexp, protocolRules := rule.protocol }

/-- `Limiter.CheckDomainRule`; `matchString` says whether a pattern matches. -/
def checkDomainRule (l : Limiter) (matchString : String → String → Bool) (destination : String) :
    Bool :=
  l.domainRules.any fun rule => matchString rule destination

/-- `Limiter.CheckProtocolRule`. -/
def checkProtocolRule (l : Limiter) (protocol : String) : Bool :=
  l.protocolRules.any fun rule => rule = protocol

/-! ### Connections -/

/-- `determineSpeedLimit`: the smaller of two limits, `0` standing for no limit. -/
def determineSpeedLimit (limit1 limit2 : ℤ) : ℤ :=
  if limit1 = 0 ∨ limit2 = 0 then
    if limit1 > limit2 then limit1 else if limit1 < limit2 then limit2 else 0
  else if limit1 > limit2 then limit2 else if limit1 < limit2 then limit1 else limit1

/-- The limit of a registered user at the time `now`. An expired dynamic limit is removed, and
with it the whole entry of a user without a limit of its own. -/
def userSpeedLimit (l : Limiter) (now : ℤ) (taguuid : String) (u : UserLimitInfo) : Limiter × ℤ :=
  if u.expireTime < now ∧ u.expireTime ≠ 0 then
    if u.speedLimit ≠ 0 then
      let u' := { u with dynamicSpeedLimit := 0, expireTime := 0 }
      ({ l with userLimitInfo := l.userLimitInfo.insert taguuid u' }, u.speedLimit)
    else ({ l with userLimitInfo := l.userLimitInfo.erase taguuid }, 0)
  else (l, determineSpeedLimit u.speedLimit u.dynamicSpeedLimit)

/-- The address is kept or given up by the device limit, unless it was online in the last report:
the entry of the report is then used up if it is of the same user. -/
def admitNewIP (l : Limiter) (ip : String) (uid deviceLimit aliveIp : ℤ) (undo : Limiter) :
    Limiter × Bool :=
  match l.oldUserOnline.lookup ip with
  | some v => (if v = uid then { l with oldUserOnline := l.oldUserOnline.erase ip } else l, false)
  | none => if deviceLimit > 0 ∧ deviceLimit ≤ aliveIp then (undo, true) else (l, false)

/-- The device limit: the address is stored first and taken back when it is rejected. -/
def admitIP (l : Limiter) (taguuid ip : String) (uid deviceLimit : ℤ) : Limiter × Bool :=
  let aliveIp := GoMap.getD l.aliveList uid 0
  match l.userOnlineIP.lookup taguuid with
  | some oldipMap =>
    match oldipMap.lookup ip with
    | some _ => (l, false)
    | none =>
      admitNewIP { l with userOnlineIP := l.userOnlineIP.insert taguuid (oldipMap.insert ip uid) }
        ip uid deviceLimit aliveIp
        { l with userOnlineIP :=
            l.userOnlineIP.insert taguuid ((oldipMap.insert ip uid).erase ip) }
  | none =>
    admitNewIP
      { l with userOnlineIP := l.userOnlineIP.insert taguuid (Finmap.singleton ip uid) }
      ip uid deviceLimit aliveIp
      { l with userOnlineIP :=
          (l.userOnlineIP.insert taguuid (Finmap.singleton ip uid)).erase taguuid }

/-- The bucket of a user for the limit in bytes per second: the one handed out before, or a new
one. -/
def bucketFor (l : Limiter) (taguuid : String) (limit : Int64) : Limiter × Option Bucket :=
  if limit > 0 then
    match l.speedLimiter.lookup taguuid with
    | some bucket => (l, some bucket)
    | none => ({ l with speedLimiter := l.speedLimiter.insert taguuid ⟨limit, limit⟩ },
        some ⟨limit, limit⟩)
  else (l, none)

/-- Whether `CheckLimit` knows no user under the key. -/
def IsUnknown (l : Limiter) (taguuid : String) : Prop := l.userLimitInfo.lookup taguuid = none

/-- `Limiter.CheckLimit` at the time `now`: the new state, the bucket, and whether the connection
is rejected. -/
def checkLimit (l : Limiter) (now : ℤ) (taguuid ip : String) (_isTcp noSSUDP : Bool) :
    Limiter × Option Bucket × Bool :=
  match l.userLimitInfo.lookup taguuid with
  | none => (l, none, true)
  | some u =>
    let (l₁, userLimit) := l.userSpeedLimit now taguuid u
    let (l₂, reject) :=
      if noSSUDP then l₁.admitIP taguuid (trimPrefix ip "::ffff:") u.uid u.deviceLimit
      else (l₁, false)
    if reject then (l₂, none, true)
    else
      let limit := Int64.ofInt (determineSpeedLimit l.speedLimit userLimit) * 1000000 / 8
      let (l₃, bucket) := l₂.bucketFor taguuid limit
      (l₃, bucket, false)

/-- One user of the range of `Limiter.GetOnlineDevice`, whose addresses are visited in the order
`ips`. -/
def reportUser (state : Limiter × List OnlineUser) (taguuid : String) (ips : RangeOrder String) :
    Limiter × List OnlineUser :=
  match state.1.userOnlineIP.lookup taguuid with
  | none => state
  | some ipMap =>
    let visited := (ips.keys ipMap).filterMap fun ip =>
      (ipMap.lookup ip).map fun uid => (⟨uid, ip⟩ : OnlineUser)
    ({ state.1 with
        oldUserOnline := GoMap.storeAll OnlineUser.ip OnlineUser.uid visited state.1.oldUserOnline
        userOnlineIP := state.1.userOnlineIP.erase taguuid },
      state.2 ++ visited)

/-- `Limiter.GetOnlineDevice`, the users being visited in the order `range` and the addresses of
the user `taguuid` in the order `ips taguuid`. -/
def getOnlineDevice (l : Limiter) (range : RangeOrder String) (ips : String → RangeOrder String) :
    Limiter × List OnlineUser :=
  (range.keys l.userOnlineIP).foldl (fun state taguuid => reportUser state taguuid (ips taguuid))
    ({ l with oldUserOnline := ∅ }, [])

/-! ### Entries after an update -/

theorem userLimitInfo_foldl_deleteUser (tag : String) (deleted : List UserInfo) (l : Limiter) :
    (deleted.foldl (deleteUser tag) l).userLimitInfo =
      GoMap.deleteAll (deleted.map fun u => userTag tag u.uuid) l.userLimitInfo := by
  induction deleted generalizing l with
  | nil => rfl
  | cons u deleted ih => exact ih (deleteUser tag l u)

theorem userLimitInfo_foldl_addUser (tag : String) (added : List UserInfo) (l : Limiter) :
    (added.foldl (addUser tag) l).userLimitInfo =
      GoMap.storeAll (fun u => userTag tag u.uuid) userEntry added l.userLimitInfo := by
  induction added generalizing l with
  | nil => rfl
  | cons u added ih => exact ih (addUser tag l u)

/-- The entry of an added user is that of an added user with the same uuid. -/
theorem exists_lookup_updateUser (l : Limiter) (tag : String) {added : List UserInfo}
    (deleted : List UserInfo) {u : UserInfo} (hu : u ∈ added) :
    ∃ v ∈ added, v.uuid = u.uuid ∧ (l.updateUser tag added deleted).userLimitInfo.lookup
      (userTag tag u.uuid) = some (userEntry v) := by
  rw [updateUser, userLimitInfo_foldl_addUser]
  obtain ⟨v, hv, hkey, hlook⟩ := GoMap.exists_lookup_storeAll (fun u => userTag tag u.uuid)
    userEntry hu ((deleted.foldl (deleteUser tag) l).userLimitInfo)
  exact ⟨v, hv, userTag_inj.mp hkey, hlook⟩

/-- The entries of all other keys: those of deleted users are gone, the others as before. -/
theorem lookup_updateUser_of_forall_ne (l : Limiter) {tag : String} {added : List UserInfo}
    (deleted : List UserInfo) {k : String} (hk : ∀ u ∈ added, userTag tag u.uuid ≠ k) :
    (l.updateUser tag added deleted).userLimitInfo.lookup k =
      if k ∈ deleted.map (fun u => userTag tag u.uuid) then none else l.userLimitInfo.lookup k := by
  rw [updateUser, userLimitInfo_foldl_addUser, GoMap.lookup_storeAll_of_forall_ne _ _ hk,
    userLimitInfo_foldl_deleteUser, GoMap.lookup_deleteAll]

/-- The entry of a user that is not added, in terms of its uuid. -/
theorem lookup_updateUser_of_uuid (l : Limiter) {tag : String} {added : List UserInfo}
    (deleted : List UserInfo) {uuid : String} (h : ∀ u ∈ added, u.uuid ≠ uuid) :
    (l.updateUser tag added deleted).userLimitInfo.lookup (userTag tag uuid) =
      if ∃ d ∈ deleted, d.uuid = uuid then none
      else l.userLimitInfo.lookup (userTag tag uuid) := by
  rw [lookup_updateUser_of_forall_ne l deleted fun u hu hkey => h u hu (userTag_inj.mp hkey)]
  simp

/-! ### Agreement with a user list -/

/-- The limiter has an entry with the uid and the limits of the user for every user of the list, and
no other entries. -/
def Agrees (l : Limiter) (tag : String) (users : List UserInfo) : Prop :=
  (∀ u ∈ users, ∃ info, l.userLimitInfo.lookup (userTag tag u.uuid) = some info ∧
    info.Matches u) ∧
  ∀ k, (∀ u ∈ users, userTag tag u.uuid ≠ k) → l.userLimitInfo.lookup k = none

theorem Agrees.lookup_map_deviceLimit {l : Limiter} {tag : String} {users : List UserInfo}
    (h : l.Agrees tag users) {u : UserInfo} (hu : u ∈ users) :
    (l.userLimitInfo.lookup (userTag tag u.uuid)).map UserLimitInfo.deviceLimit =
      some u.deviceLimit := by
  obtain ⟨info, hinfo, -, -, hdevice⟩ := h.1 u hu
  rw [hinfo, Option.map_some, hdevice]

/-- Under agreement the users that `checkLimit` does not know are those that are not listed. -/
theorem Agrees.isUnknown_iff {l : Limiter} {tag : String} {users : List UserInfo}
    (h : l.Agrees tag users) (uuid : String) :
    l.IsUnknown (userTag tag uuid) ↔ ∀ u ∈ users, u.uuid ≠ uuid := by
  constructor
  · intro hunk u hu hid
    obtain ⟨info, hinfo, -⟩ := h.1 u hu
    rw [hid] at hinfo
    rw [IsUnknown, hinfo] at hunk
    cases hunk
  · intro hne
    exact h.2 _ fun u hu hkey => hne u hu (userTag_inj.mp hkey)

/-- A connection of an unknown user is rejected, whatever its address, and nothing changes. -/
theorem checkLimit_of_isUnknown {l : Limiter} {taguuid : String} (h : l.IsUnknown taguuid)
    (now : ℤ) (ip : String) (isTcp noSSUDP : Bool) :
    l.checkLimit now taguuid ip isTcp noSSUDP = (l, none, true) := by
  rw [IsUnknown] at h
  simp only [checkLimit, h]

end Limiter

/-- Users of the list with one uuid have one uid, speed limit and device limit. -/
def ConsistentUsers (users : List UserInfo) : Prop :=
  ∀ u ∈ users, ∀ v ∈ users, u.uuid = v.uuid → u = v

theorem UserLimitInfo.Matches.eq_of_uuid_eq {info : UserLimitInfo} {u v : UserInfo}
    (hu : info.Matches u) (hv : info.Matches v) (huuid : u.uuid = v.uuid) : u = v := by
  obtain ⟨hid, hspeed, hdev⟩ := hu
  obtain ⟨hid', hspeed', hdev'⟩ := hv
  obtain ⟨_, _, _, _⟩ := u
  obtain ⟨_, _, _, _⟩ := v
  simp only at hid hspeed hdev hid' hspeed' hdev' huuid
  simp only [UserInfo.mk.injEq]
  exact ⟨hid.symm.trans hid', huuid, hspeed.symm.trans hspeed', hdev.symm.trans hdev'⟩

theorem userEntry_matches (u : UserInfo) : (userEntry u).Matches u :=
  ⟨userEntry_uid u, userEntry_speedLimit u, userEntry_deviceLimit u⟩

/-- A list with which some limiter agrees is consistent. -/
theorem Limiter.Agrees.consistentUsers {l : Limiter} {tag : String} {users : List UserInfo}
    (h : l.Agrees tag users) : ConsistentUsers users := by
  intro u hu v hv huv
  obtain ⟨info, hinfo, hmatch⟩ := h.1 u hu
  obtain ⟨info', hinfo', hmatch'⟩ := h.1 v hv
  rw [← huv, hinfo] at hinfo'
  cases hinfo'
  exact hmatch.eq_of_uuid_eq hmatch' huv

/-- **A fresh limiter agrees with its list** exactly when the list is consistent. -/
theorem newLimiter_agrees_iff (tag : String) (conf : LimitConfig) (users : List UserInfo)
    (aliveList : GoMap ℤ ℤ) :
    (newLimiter tag conf users aliveList).Agrees tag users ↔ ConsistentUsers users := by
  refine ⟨Limiter.Agrees.consistentUsers, fun hcons => ⟨fun u hu => ?_, fun k hk => ?_⟩⟩
  · obtain ⟨v, hv, hkey, hlook⟩ := GoMap.exists_lookup_storeAll (fun u => userTag tag u.uuid)
      userEntry hu (∅ : GoMap String UserLimitInfo)
    have hvu : v = u := hcons v hv u hu (userTag_inj.mp hkey)
    subst hvu
    exact ⟨userEntry v, hlook, userEntry_matches v⟩
  · exact (GoMap.lookup_storeAll_of_forall_ne _ _ hk _).trans (Finmap.lookup_empty _)

end Tox.Limit
