import Mathlib
import Tox.Limiter.Registry

/-!
# The calls of a limiter

A limiter is used by connections (`CheckLimit`), by the report of online devices
(`GetOnlineDevice`), by the controller when the users change (`UpdateUser`) and by the tasks for
dynamic speed limits. This file collects the calls as the events of one machine and says for each of
them once what it does to the devices that are online: the uid that is stored for a user and an
address (`onlineUid`), the addresses of the last report (`oldUserOnline`), and the registered users.
-/

namespace Tox.Limit

open Tox.Foundation Tox.Panel Tox.Format

namespace Limiter

/-! ### Dynamic speed limits -/

/-- `Limiter.UpdateDynamicSpeedLimit`; `expire` is in seconds. -/
def updateDynamicSpeedLimit (l : Limiter) (tag uuid : String) (limit expire : ℤ) :
    Limiter × Option String :=
  match l.userLimitInfo.lookup (userTag tag uuid) with
  | some info =>
    let info := { info with dynamicSpeedLimit := limit, expireTime := expire }
    ({ l with userLimitInfo := l.userLimitInfo.insert (userTag tag uuid) info }, none)
  | none => (l, some "not found")

/-- `Limiter.AddDynamicSpeedLimit` at the time `now`, in nanoseconds. The entry of the user is a new
one, with nothing but the dynamic limit. -/
def addDynamicSpeedLimit (l : Limiter) (now : ℤ) (tag : String) (userInfo : UserInfo)
    (limitNum : ℤ) (expire : Int64) : Limiter :=
  let userLimit : UserLimitInfo :=
    { uid := 0
      dynamicSpeedLimit := limitNum
      expireTime := (now + (expire * 1000000000).toInt) / 1000000000 }
  { l with userLimitInfo := l.userLimitInfo.insert (userTag tag userInfo.uuid) userLimit }

end Limiter

/-! ### Devices -/

/-- The uid that is stored for a user and an address. -/
def onlineUid (m : GoMap String (GoMap String ℤ)) (taguuid ip : String) : Option ℤ :=
  (m.lookup taguuid).bind fun ipMap => ipMap.lookup ip

theorem onlineUid_insert (m : GoMap String (GoMap String ℤ)) (k : String) (ipMap : GoMap String ℤ)
    (k' ip : String) :
    onlineUid (m.insert k ipMap) k' ip = if k' = k then ipMap.lookup ip else onlineUid m k' ip := by
  rw [onlineUid, GoMap.lookup_insert]
  split_ifs <;> rfl

theorem onlineUid_erase (m : GoMap String (GoMap String ℤ)) (k k' ip : String) :
    onlineUid (m.erase k) k' ip = if k' = k then none else onlineUid m k' ip := by
  rw [onlineUid, GoMap.lookup_erase]
  split_ifs <;> rfl

@[simp] theorem onlineUid_empty (k ip : String) : onlineUid ∅ k ip = none := by
  rw [onlineUid, Finmap.lookup_empty, Option.bind_none]

namespace Limiter

instance (l : Limiter) (k : String) : Decidable (l.IsUnknown k) :=
  inferInstanceAs (Decidable (_ = _))

/-- The user has reached its device limit. -/
def Full (l : Limiter) (uid deviceLimit : ℤ) : Prop :=
  deviceLimit > 0 ∧ deviceLimit ≤ GoMap.getD l.aliveList uid 0

instance (l : Limiter) (uid deviceLimit : ℤ) : Decidable (l.Full uid deviceLimit) :=
  inferInstanceAs (Decidable (_ ∧ _))

/-- The device limit rejects the address: it is new, it was not in the last report, and the user has
reached its limit. -/
def Refuses (l : Limiter) (taguuid ip : String) (uid deviceLimit : ℤ) : Prop :=
  onlineUid l.userOnlineIP taguuid ip = none ∧ l.oldUserOnline.lookup ip = none ∧
    l.Full uid deviceLimit

instance (l : Limiter) (taguuid ip : String) (uid deviceLimit : ℤ) :
    Decidable (l.Refuses taguuid ip uid deviceLimit) :=
  inferInstanceAs (Decidable (_ ∧ _))

/-- What the device limit does to the devices: a rejected address leaves no trace, an accepted one
is online. A new address uses up an entry of the last report that is of the same user. -/
structure Admission (l l' : Limiter) (taguuid ip : String) (uid deviceLimit : ℤ) : Prop where
  online : ∀ k i, onlineUid l'.userOnlineIP k i =
    if (k = taguuid ∧ i = ip) ∧ ¬ l.Refuses taguuid ip uid deviceLimit then
      some ((onlineUid l.userOnlineIP k i).getD uid)
    else onlineUid l.userOnlineIP k i
  old : l'.oldUserOnline =
    if onlineUid l.userOnlineIP taguuid ip = none ∧ l.oldUserOnline.lookup ip = some uid then
      l.oldUserOnline.erase ip
    else l.oldUserOnline
  aliveList : l'.aliveList = l.aliveList

theorem not_refuses_of_online {l : Limiter} {taguuid ip : String} {v : ℤ}
    (h : onlineUid l.userOnlineIP taguuid ip = some v) (uid deviceLimit : ℤ) :
    ¬ l.Refuses taguuid ip uid deviceLimit := by
  rintro ⟨hnone, -⟩
  rw [hnone] at h
  cases h

/-- An address that is online stays, and nothing else changes. -/
theorem Admission.of_online {l : Limiter} {taguuid ip : String} {v : ℤ}
    (h : onlineUid l.userOnlineIP taguuid ip = some v) (uid deviceLimit : ℤ) :
    Admission l l taguuid ip uid deviceLimit where
  online := fun k i => by
    split_ifs with hki
    · rw [hki.1.1, hki.1.2, h, Option.getD_some]
    · rfl
  old := by
    rw [if_neg]
    rintro ⟨hnone, -⟩
    rw [hnone] at h
    cases h
  aliveList := rfl

/-- The address is new: `l₁` is the limiter with the address stored, `undo` the one without. -/
theorem admitNewIP_spec {l l₁ undo : Limiter} {taguuid ip : String} {uid deviceLimit : ℤ}
    (hnew : onlineUid l.userOnlineIP taguuid ip = none)
    (hstored : ∃ m, l₁ = { l with userOnlineIP := m } ∧ ∀ k i, onlineUid m k i =
      if k = taguuid ∧ i = ip then some uid else onlineUid l.userOnlineIP k i)
    (hundo : ∃ m, undo = { l with userOnlineIP := m } ∧
      ∀ k i, onlineUid m k i = onlineUid l.userOnlineIP k i) :
    (l₁.admitNewIP ip uid deviceLimit (GoMap.getD l.aliveList uid 0) undo).2 =
        decide (l.Refuses taguuid ip uid deviceLimit) ∧
      Admission l
        (l₁.admitNewIP ip uid deviceLimit (GoMap.getD l.aliveList uid 0) undo).1 taguuid ip
        uid deviceLimit := by
  obtain ⟨m, rfl, hm⟩ := hstored
  obtain ⟨m', rfl, hm'⟩ := hundo
  have honline (h : ¬ l.Refuses taguuid ip uid deviceLimit) (k i : String) :
      onlineUid m k i = if (k = taguuid ∧ i = ip) ∧ ¬ l.Refuses taguuid ip uid deviceLimit then
        some ((onlineUid l.userOnlineIP k i).getD uid) else onlineUid l.userOnlineIP k i := by
    rw [hm]
    by_cases hki : k = taguuid ∧ i = ip
    · rw [if_pos hki, if_pos ⟨hki, h⟩, hki.1, hki.2, hnew, Option.getD_none]
    · rw [if_neg hki, if_neg fun hc => hki hc.1]
  unfold admitNewIP
  cases hold : l.oldUserOnline.lookup ip with
  | some v =>
    have hnot : ¬ l.Refuses taguuid ip uid deviceLimit := fun h => by
      rw [h.2.1] at hold
      cases hold
    refine ⟨(decide_eq_false hnot).symm, ?_⟩
    by_cases hv : v = uid
    · subst hv
      simp only [if_true]
      exact ⟨honline hnot, by rw [if_pos ⟨hnew, hold⟩], rfl⟩
    · simp only [if_neg hv]
      refine ⟨honline hnot, ?_, rfl⟩
      rw [if_neg]
      rintro ⟨-, hsame⟩
      rw [hold] at hsame
      exact hv (Option.some.inj hsame)
  | none =>
    have hold' : ¬ (onlineUid l.userOnlineIP taguuid ip = none ∧
        l.oldUserOnline.lookup ip = some uid) := by simp [hold]
    by_cases hfull : l.Full uid deviceLimit
    · have hrefuses : l.Refuses taguuid ip uid deviceLimit := ⟨hnew, hold, hfull⟩
      have hlimit : deviceLimit > 0 ∧ deviceLimit ≤ GoMap.getD l.aliveList uid 0 := hfull
      simp only [if_pos hlimit]
      refine ⟨(decide_eq_true hrefuses).symm, fun k i => ?_, by rw [if_neg hold'], rfl⟩
      rw [if_neg fun h => h.2 hrefuses]
      exact hm' k i
    · have hnot : ¬ l.Refuses taguuid ip uid deviceLimit := fun h => hfull h.2.2
      have hlimit : ¬ (deviceLimit > 0 ∧ deviceLimit ≤ GoMap.getD l.aliveList uid 0) := hfull
      simp only [if_neg hlimit]
      exact ⟨(decide_eq_false hnot).symm, honline hnot, by rw [if_neg hold'], rfl⟩

/-- The device limit changes nothing but the devices and the entries of the last report. -/
theorem admitIP_eq (l : Limiter) (taguuid ip : String) (uid deviceLimit : ℤ) :
    ∃ online old, (l.admitIP taguuid ip uid deviceLimit).1 =
      { l with userOnlineIP := online, oldUserOnline := old } := by
  have hnew (m m' : GoMap String (GoMap String ℤ)) (aliveIp : ℤ) :
      ∃ online old, (({ l with userOnlineIP := m }).admitNewIP ip uid deviceLimit aliveIp
        { l with userOnlineIP := m' }).1 =
          { l with userOnlineIP := online, oldUserOnline := old } := by
    unfold admitNewIP
    split
    · split_ifs <;> exact ⟨_, _, rfl⟩
    · split_ifs <;> exact ⟨_, _, rfl⟩
  unfold admitIP
  dsimp only
  split
  · split
    · exact ⟨_, _, rfl⟩
    · exact hnew _ _ _
  · exact hnew _ _ _

/-- **The device limit.** An address is rejected exactly if the device limit refuses it. -/
theorem admitIP_spec (l : Limiter) (taguuid ip : String) (uid deviceLimit : ℤ) :
    (l.admitIP taguuid ip uid deviceLimit).2 = decide (l.Refuses taguuid ip uid deviceLimit) ∧
      Admission l (l.admitIP taguuid ip uid deviceLimit).1 taguuid ip uid deviceLimit := by
  unfold admitIP
  cases huser : l.userOnlineIP.lookup taguuid with
  | none =>
    have hoff (i : String) : onlineUid l.userOnlineIP taguuid i = none := by
      rw [onlineUid, huser, Option.bind_none]
    refine admitNewIP_spec (hoff ip) ⟨_, rfl, fun k i => ?_⟩ ⟨_, rfl, fun k i => ?_⟩
    · rw [onlineUid_insert, GoMap.lookup_singleton]
      by_cases hk : k = taguuid
      · subst hk
        simp [hoff]
      · simp [hk]
    · rw [onlineUid_erase, onlineUid_insert]
      split_ifs with hk
      · rw [hk, hoff]
      · rfl
  | some oldipMap =>
    have hon (i : String) : onlineUid l.userOnlineIP taguuid i = oldipMap.lookup i := by
      rw [onlineUid, huser, Option.bind_some]
    dsimp only
    cases hip : oldipMap.lookup ip with
    | some v =>
      have honline := (hon ip).trans hip
      exact ⟨(decide_eq_false (not_refuses_of_online honline uid deviceLimit)).symm,
        .of_online honline uid deviceLimit⟩
    | none =>
      refine admitNewIP_spec ((hon ip).trans hip) ⟨_, rfl, fun k i => ?_⟩ ⟨_, rfl, fun k i => ?_⟩
      · rw [onlineUid_insert, GoMap.lookup_insert]
        by_cases hk : k = taguuid
        · subst hk
          simp [hon]
        · simp [hk]
      · rw [onlineUid_insert, GoMap.lookup_erase, GoMap.lookup_insert]
        split_ifs with hk hi
        · rw [hk, hon, hi, hip]
        · rw [hk, hon]
        · rfl

/-! ### Connections -/

/-- Looking up the limit of a user changes at most the registered users. -/
theorem userSpeedLimit_eq (l : Limiter) (now : ℤ) (taguuid : String) (u : UserLimitInfo) :
    ∃ m limit, l.userSpeedLimit now taguuid u = ({ l with userLimitInfo := m }, limit) := by
  unfold userSpeedLimit
  split_ifs
  · exact ⟨_, _, rfl⟩
  · exact ⟨_, _, rfl⟩
  · exact ⟨l.userLimitInfo, _, rfl⟩

/-- Handing out a bucket changes at most the buckets. -/
theorem bucketFor_fst (l : Limiter) (taguuid : String) (limit : Int64) :
    ∃ m, (l.bucketFor taguuid limit).1 = { l with speedLimiter := m } := by
  unfold bucketFor
  split_ifs
  · split <;> exact ⟨_, rfl⟩
  · exact ⟨l.speedLimiter, rfl⟩

variable {l : Limiter} {taguuid : String} {u : UserLimitInfo}

/-- A connection of a registered user after its speed limit has been looked up. -/
theorem checkLimit_of_userSpeedLimit (hu : l.userLimitInfo.lookup taguuid = some u)
    {now limit : ℤ} {l₁ : Limiter} (hlimit : l.userSpeedLimit now taguuid u = (l₁, limit))
    (ip : String) (isTcp noSSUDP : Bool) :
    l.checkLimit now taguuid ip isTcp noSSUDP =
      match (if noSSUDP then l₁.admitIP taguuid (trimPrefix ip "::ffff:") u.uid u.deviceLimit
        else (l₁, false)) with
      | (l₂, reject) =>
        if reject then (l₂, none, true)
        else
          match l₂.bucketFor taguuid
            (Int64.ofInt (determineSpeedLimit l.speedLimit limit) * 1000000 / 8) with
          | (l₃, bucket) => (l₃, bucket, false) := by
  unfold checkLimit
  split
  · rename_i hnone
    rw [hu] at hnone
    cases hnone
  · rename_i v hv
    obtain rfl : u = v := Option.some.inj (hu.symm.trans hv)
    rw [hlimit]

/-- A connection of a registered user, up to the buckets. -/
theorem checkLimit_eq (hu : l.userLimitInfo.lookup taguuid = some u) {now limit : ℤ}
    {reject : Bool} {l₁ l₂ : Limiter} (hlimit : l.userSpeedLimit now taguuid u = (l₁, limit))
    (ip : String) (isTcp noSSUDP : Bool)
    (hdevice : (if noSSUDP then l₁.admitIP taguuid (trimPrefix ip "::ffff:") u.uid u.deviceLimit
      else (l₁, false)) = (l₂, reject)) :
    (∃ m, (l.checkLimit now taguuid ip isTcp noSSUDP).1 = { l₂ with speedLimiter := m }) ∧
      (l.checkLimit now taguuid ip isTcp noSSUDP).2.2 = reject := by
  -- the rate is left abstract: nothing here depends on it, and its evaluation is expensive
  obtain ⟨rate, hrate⟩ : ∃ rate, rate =
      Int64.ofInt (determineSpeedLimit l.speedLimit limit) * 1000000 / 8 := ⟨_, rfl⟩
  rw [checkLimit_of_userSpeedLimit hu hlimit, ← hrate, hdevice]
  cases reject with
  | true => exact ⟨⟨l₂.speedLimiter, rfl⟩, rfl⟩
  | false => exact ⟨l₂.bucketFor_fst taguuid rate, rfl⟩

/-- **A connection that counts as a device** is rejected exactly if the device limit refuses it. -/
theorem checkLimit_device (hu : l.userLimitInfo.lookup taguuid = some u) (now : ℤ) (ip : String)
    (isTcp : Bool) :
    (l.checkLimit now taguuid ip isTcp true).2.2 =
        decide (l.Refuses taguuid (trimPrefix ip "::ffff:") u.uid u.deviceLimit) ∧
      Admission l (l.checkLimit now taguuid ip isTcp true).1 taguuid (trimPrefix ip "::ffff:") u.uid
        u.deviceLimit := by
  obtain ⟨m, limit, hlimit⟩ := l.userSpeedLimit_eq now taguuid u
  obtain ⟨hreject, honline, hold, halive⟩ := admitIP_spec { l with userLimitInfo := m } taguuid
    (trimPrefix ip "::ffff:") u.uid u.deviceLimit
  obtain ⟨⟨buckets, hl⟩, hresult⟩ := checkLimit_eq hu hlimit ip isTcp true (if_pos rfl)
  rw [hl, hresult]
  exact ⟨hreject, honline, hold, halive⟩

/-- A connection that does not count as a device is accepted. -/
theorem checkLimit_udp (hu : l.userLimitInfo.lookup taguuid = some u) (now : ℤ) (ip : String)
    (isTcp : Bool) :
    (l.checkLimit now taguuid ip isTcp false).2.2 = false ∧
      (l.checkLimit now taguuid ip isTcp false).1.userOnlineIP = l.userOnlineIP ∧
      (l.checkLimit now taguuid ip isTcp false).1.oldUserOnline = l.oldUserOnline ∧
      (l.checkLimit now taguuid ip isTcp false).1.aliveList = l.aliveList := by
  obtain ⟨m, limit, hlimit⟩ := l.userSpeedLimit_eq now taguuid u
  obtain ⟨⟨buckets, hl⟩, hresult⟩ := checkLimit_eq hu hlimit ip isTcp false
    (if_neg Bool.false_ne_true)
  rw [hl, hresult]
  exact ⟨rfl, rfl, rfl, rfl⟩

/-- A connection changes the registered users only by looking up the limit of its user. -/
theorem userLimitInfo_checkLimit (hu : l.userLimitInfo.lookup taguuid = some u) (now : ℤ)
    (ip : String) (isTcp noSSUDP : Bool) :
    (l.checkLimit now taguuid ip isTcp noSSUDP).1.userLimitInfo =
      (l.userSpeedLimit now taguuid u).1.userLimitInfo := by
  obtain ⟨m, limit, hlimit⟩ := l.userSpeedLimit_eq now taguuid u
  rw [hlimit]
  cases noSSUDP with
  | false =>
    obtain ⟨⟨buckets, hl⟩, -⟩ := checkLimit_eq hu hlimit ip isTcp false
      (if_neg Bool.false_ne_true)
    rw [hl]
  | true =>
    obtain ⟨online, old, hl₂⟩ := admitIP_eq { l with userLimitInfo := m } taguuid
      (trimPrefix ip "::ffff:") u.uid u.deviceLimit
    rcases hanswer : admitIP { l with userLimitInfo := m } taguuid (trimPrefix ip "::ffff:") u.uid
      u.deviceLimit with ⟨l₂, reject⟩
    obtain ⟨⟨buckets, hl⟩, -⟩ := checkLimit_eq hu hlimit ip isTcp true ((if_pos rfl).trans hanswer)
    rw [hanswer] at hl₂
    subst hl₂
    rw [hl]

/-! ### Reports -/

/-- The devices of one user, in the order of the visit. -/
def devices (m : GoMap String (GoMap String ℤ)) (ips : String → RangeOrder String)
    (taguuid : String) : List OnlineUser :=
  match m.lookup taguuid with
  | none => []
  | some ipMap => ((ips taguuid).keys ipMap).filterMap fun ip =>
      (ipMap.lookup ip).map fun uid => (⟨uid, ip⟩ : OnlineUser)

theorem mem_devices_iff {m : GoMap String (GoMap String ℤ)} {ips : String → RangeOrder String}
    {k : String} {d : OnlineUser} :
    d ∈ devices m ips k ↔ onlineUid m k d.ip = some d.uid := by
  unfold devices onlineUid
  cases m.lookup k with
  | none => simp
  | some ipMap =>
    simp only [List.mem_filterMap, RangeOrder.mem_keys, Option.map_eq_some_iff, Option.bind_some]
    constructor
    · rintro ⟨ip, -, uid, hlook, rfl⟩
      exact hlook
    · intro hlook
      exact ⟨d.ip, Finmap.mem_iff.mpr ⟨d.uid, hlook⟩, d.uid, hlook, rfl⟩

theorem nodup_devices (m : GoMap String (GoMap String ℤ)) (ips : String → RangeOrder String)
    (k : String) : (devices m ips k).Nodup := by
  unfold devices
  cases m.lookup k with
  | none => exact List.nodup_nil
  | some ipMap =>
    refine ((ips k).nodup_keys ipMap).filterMap fun i j d hi hj => ?_
    obtain ⟨uid, -, hdi⟩ := Option.map_eq_some_iff.mp hi
    obtain ⟨uid', -, hdj⟩ := Option.map_eq_some_iff.mp hj
    exact congrArg OnlineUser.ip (hdi.trans hdj.symm)

/-- The loop of `GetOnlineDevice` over distinct users. -/
theorem foldl_reportUser (ips : String → RangeOrder String) {ks : List String} (hks : ks.Nodup)
    (l : Limiter) (acc : List OnlineUser) :
    ks.foldl (fun state taguuid => reportUser state taguuid (ips taguuid)) (l, acc) =
      ({ l with
          oldUserOnline := GoMap.storeAll OnlineUser.ip OnlineUser.uid
            (ks.flatMap (devices l.userOnlineIP ips)) l.oldUserOnline
          userOnlineIP := GoMap.deleteAll ks l.userOnlineIP },
        acc ++ ks.flatMap (devices l.userOnlineIP ips)) := by
  induction ks generalizing l acc with
  | nil => simp
  | cons k ks ih =>
    obtain ⟨hk, hks⟩ := List.nodup_cons.mp hks
    -- the users that are still to visit have the devices that they had before
    have hrest : ks.flatMap (devices (l.userOnlineIP.erase k) ips) =
        ks.flatMap (devices l.userOnlineIP ips) := by
      refine List.flatMap_congr fun k' hk' => ?_
      have hne : k' ≠ k := fun h => hk (h ▸ hk')
      rw [devices, devices, Finmap.lookup_erase_ne hne]
    have hvisit : reportUser (l, acc) k (ips k) =
        ({ l with
            oldUserOnline := GoMap.storeAll OnlineUser.ip OnlineUser.uid
              (devices l.userOnlineIP ips k) l.oldUserOnline
            userOnlineIP := l.userOnlineIP.erase k },
          acc ++ devices l.userOnlineIP ips k) := by
      unfold reportUser devices
      cases huser : l.userOnlineIP.lookup k with
      | none =>
        simp [GoMap.erase_of_notMem (Finmap.lookup_eq_none.mp huser)]
      | some ipMap => rfl
    rw [List.foldl_cons, hvisit, ih hks, hrest, List.flatMap_cons, List.append_assoc]
    simp only [GoMap.storeAll, List.foldl_append, GoMap.deleteAll_cons]

/-- The users that a report visits have all the devices. -/
theorem getOnlineDevice_eq (l : Limiter) (range : RangeOrder String)
    (ips : String → RangeOrder String) :
    l.getOnlineDevice range ips =
      ({ l with
          oldUserOnline := GoMap.storeAll OnlineUser.ip OnlineUser.uid
            (l.getOnlineDevice range ips).2 ∅
          userOnlineIP := GoMap.deleteAll (range.keys l.userOnlineIP) l.userOnlineIP },
        (range.keys l.userOnlineIP).flatMap (devices l.userOnlineIP ips)) := by
  unfold getOnlineDevice
  rw [foldl_reportUser ips (range.nodup_keys _)]
  rfl

/-- **A report** has the devices that are online. -/
theorem mem_getOnlineDevice_iff {l : Limiter} {range : RangeOrder String}
    {ips : String → RangeOrder String} {d : OnlineUser} :
    d ∈ (l.getOnlineDevice range ips).2 ↔ ∃ k, onlineUid l.userOnlineIP k d.ip = some d.uid := by
  rw [getOnlineDevice_eq]
  simp only [List.mem_flatMap, RangeOrder.mem_keys, mem_devices_iff]
  refine exists_congr fun k => and_iff_right_of_imp fun honline => ?_
  obtain ⟨ipMap, hipMap, -⟩ := Option.bind_eq_some_iff.mp honline
  exact Finmap.mem_iff.mpr ⟨ipMap, hipMap⟩

/-- A report has no device twice, if the uids of different users differ. -/
theorem nodup_getOnlineDevice {l : Limiter} (range : RangeOrder String)
    (ips : String → RangeOrder String)
    (hdistinct : ∀ k k' i uid, onlineUid l.userOnlineIP k i = some uid →
      onlineUid l.userOnlineIP k' i = some uid → k = k') :
    (l.getOnlineDevice range ips).2.Nodup := by
  rw [getOnlineDevice_eq]
  refine List.nodup_flatMap.mpr ⟨fun k _ => nodup_devices _ _ k, ?_⟩
  refine (range.nodup_keys l.userOnlineIP).imp fun {k k'} hne => ?_
  intro d hd hd'
  exact hne (hdistinct k k' d.ip d.uid (mem_devices_iff.mp hd) (mem_devices_iff.mp hd'))

/-- After a report nobody is online. -/
theorem onlineUid_getOnlineDevice (l : Limiter) (range : RangeOrder String)
    (ips : String → RangeOrder String) (k i : String) :
    onlineUid (l.getOnlineDevice range ips).1.userOnlineIP k i = none := by
  rw [getOnlineDevice_eq, onlineUid, GoMap.lookup_deleteAll]
  split_ifs with hk
  · rfl
  · rw [Finmap.lookup_eq_none.mpr fun hmem => hk ((RangeOrder.mem_keys ..).mpr hmem)]
    rfl

/-- The addresses of a report are kept with a uid that the report has for them. -/
theorem exists_lookup_getOnlineDevice {l : Limiter} {range : RangeOrder String}
    {ips : String → RangeOrder String} {d : OnlineUser}
    (hd : d ∈ (l.getOnlineDevice range ips).2) :
    ∃ uid, (l.getOnlineDevice range ips).1.oldUserOnline.lookup d.ip = some uid := by
  rw [getOnlineDevice_eq]
  obtain ⟨d', -, -, hlook⟩ := GoMap.exists_lookup_storeAll OnlineUser.ip OnlineUser.uid hd
    (∅ : GoMap String ℤ)
  exact ⟨d'.uid, hlook⟩

@[inherit_doc exists_lookup_getOnlineDevice]
theorem mem_of_lookup_getOnlineDevice {l : Limiter} {range : RangeOrder String}
    {ips : String → RangeOrder String} {ip : String} {uid : ℤ}
    (h : (l.getOnlineDevice range ips).1.oldUserOnline.lookup ip = some uid) :
    ⟨uid, ip⟩ ∈ (l.getOnlineDevice range ips).2 := by
  rw [getOnlineDevice_eq] at h
  dsimp only at h
  by_cases hmem : ∃ d ∈ (l.getOnlineDevice range ips).2, d.ip = ip
  · obtain ⟨d, hd, rfl⟩ := hmem
    obtain ⟨d', hd', hip, hlook⟩ := GoMap.exists_lookup_storeAll OnlineUser.ip OnlineUser.uid hd
      (∅ : GoMap String ℤ)
    rw [hlook] at h
    obtain rfl : d'.uid = uid := Option.some.inj h
    rw [← hip]
    exact hd'
  · rw [GoMap.lookup_storeAll_of_forall_ne _ _ fun d hd hip => hmem ⟨d, hd, hip⟩] at h
    simp at h

/-! ### Changes of the users -/

/-- Additions change nothing but the registered users. -/
theorem foldl_addUser_eq (tag : String) (added : List UserInfo) (l : Limiter) :
    ∃ info uids, added.foldl (addUser tag) l =
      { l with userLimitInfo := info, uuidToUID := uids } := by
  induction added generalizing l with
  | nil => exact ⟨_, _, rfl⟩
  | cons u added ih => exact ih (addUser tag l u)

/-- The deletions take the devices and the alive count of the users with them. -/
theorem foldl_deleteUser_devices (tag : String) (deleted : List UserInfo) (l : Limiter) :
    (deleted.foldl (deleteUser tag) l).userOnlineIP =
        GoMap.deleteAll (deleted.map fun u => userTag tag u.uuid) l.userOnlineIP ∧
      (deleted.foldl (deleteUser tag) l).aliveList =
        GoMap.deleteAll (deleted.map UserInfo.id) l.aliveList ∧
      (deleted.foldl (deleteUser tag) l).oldUserOnline = l.oldUserOnline := by
  induction deleted generalizing l with
  | nil => exact ⟨rfl, rfl, rfl⟩
  | cons u deleted ih => exact ih (deleteUser tag l u)

/-- **A change of the users** takes the devices and the alive counts of the deleted users with it.
-/
theorem updateUser_devices (l : Limiter) (tag : String) (added deleted : List UserInfo) :
    (l.updateUser tag added deleted).userOnlineIP =
        GoMap.deleteAll (deleted.map fun u => userTag tag u.uuid) l.userOnlineIP ∧
      (l.updateUser tag added deleted).aliveList =
        GoMap.deleteAll (deleted.map UserInfo.id) l.aliveList ∧
      (l.updateUser tag added deleted).oldUserOnline = l.oldUserOnline := by
  obtain ⟨info, uids, hadded⟩ := foldl_addUser_eq tag added (deleted.foldl (deleteUser tag) l)
  rw [updateUser, hadded]
  exact foldl_deleteUser_devices tag deleted l

theorem onlineUid_updateUser (l : Limiter) (tag : String) (added deleted : List UserInfo)
    (k i : String) :
    onlineUid (l.updateUser tag added deleted).userOnlineIP k i =
      if k ∈ deleted.map (fun u => userTag tag u.uuid) then none
      else onlineUid l.userOnlineIP k i := by
  rw [(l.updateUser_devices tag added deleted).1, onlineUid, GoMap.lookup_deleteAll]
  split_ifs <;> rfl

end Limiter

/-! ### The calls as events -/

/-- The calls of a limiter, and the replacement of its alive list by the controller. -/
inductive LimiterEvent
  | check (now : ℤ) (taguuid ip : String) (isTcp noSSUDP : Bool)
  | report (range : RangeOrder String) (ips : String → RangeOrder String)
  | update (tag : String) (added deleted : List UserInfo)
  | updateDynamic (tag uuid : String) (limit expire : ℤ)
  | addDynamic (now : ℤ) (tag : String) (userInfo : UserInfo) (limitNum : ℤ) (expire : Int64)
  | setAlive (alive : GoMap ℤ ℤ)

/-- The limiter after a call. -/
def Limiter.step (l : Limiter) : LimiterEvent → Limiter
  | .check now taguuid ip isTcp noSSUDP => (l.checkLimit now taguuid ip isTcp noSSUDP).1
  | .report range ips => (l.getOnlineDevice range ips).1
  | .update tag added deleted => l.updateUser tag added deleted
  | .updateDynamic tag uuid limit expire => (l.updateDynamicSpeedLimit tag uuid limit expire).1
  | .addDynamic now tag userInfo limitNum expire =>
    l.addDynamicSpeedLimit now tag userInfo limitNum expire
  | .setAlive alive => { l with aliveList := alive }

end Tox.Limit
