import Mathlib
import Tox.Foundation.Run
import Tox.Limiter.Calls

/-!
# The maps of a limiter

A limiter spreads what it knows of a user over several maps: `UUIDtoUID` by uuid, and
`UserLimitInfo`, `UserOnlineIP` and `SpeedLimiter` by the key `UserTag(tag, uuid)`. This file shows
that they stay together.

* A connection that is rejected leaves no trace (`rejected_leaves_no_trace`): both insertions of an
  address that are taken back restore the maps as they were.
* Without dynamic speed limits, `UUIDtoUID` and `UserLimitInfo` always have the same users with the
  same uids, and the other two maps have keys of registered users only
  (`representation_invariant`). A user that is deleted is therefore gone from all of them.
-/

namespace Tox.Limit

open Tox.Foundation Tox.Panel Tox.Format

namespace Limiter

/-! ### Rejected connections -/

/-- An address is rejected by going back to the limiter without it. -/
theorem admitNewIP_of_reject {l undo : Limiter} {ip : String} {uid deviceLimit aliveIp : ℤ}
    (h : (l.admitNewIP ip uid deviceLimit aliveIp undo).2 = true) :
    (l.admitNewIP ip uid deviceLimit aliveIp undo).1 = undo := by
  unfold admitNewIP at h ⊢
  split at h
  · cases h
  · split_ifs at h ⊢
    rfl

/-- Both ways to take an address back restore the devices: it was stored beside the other addresses
of the user, or as the first one. -/
theorem admitIP_of_reject {l : Limiter} {taguuid ip : String} {uid deviceLimit : ℤ}
    (h : (l.admitIP taguuid ip uid deviceLimit).2 = true) :
    (l.admitIP taguuid ip uid deviceLimit).1 = l := by
  cases huser : l.userOnlineIP.lookup taguuid with
  | none =>
    simp only [admitIP, huser] at h ⊢
    rw [admitNewIP_of_reject h, GoMap.erase_insert_of_lookup_eq_none huser]
  | some oldipMap =>
    cases hip : oldipMap.lookup ip with
    | some v =>
      simp only [admitIP, huser, hip] at h
      cases h
    | none =>
      simp only [admitIP, huser, hip] at h ⊢
      rw [admitNewIP_of_reject h, GoMap.erase_insert_of_lookup_eq_none hip,
        GoMap.insert_of_lookup huser]

/-- A rejected connection changes at most the registered users. -/
theorem checkLimit_of_reject {l : Limiter} {now : ℤ} {taguuid ip : String} {isTcp noSSUDP : Bool}
    (h : (l.checkLimit now taguuid ip isTcp noSSUDP).2.2 = true) :
    ∃ m, (l.checkLimit now taguuid ip isTcp noSSUDP).1 = { l with userLimitInfo := m } := by
  cases hu : l.userLimitInfo.lookup taguuid with
  | none => exact ⟨l.userLimitInfo, by rw [checkLimit_of_isUnknown hu]⟩
  | some u =>
    obtain ⟨m, limit, hlimit⟩ := l.userSpeedLimit_eq now taguuid u
    have hcheck := checkLimit_of_userSpeedLimit hu hlimit ip isTcp noSSUDP
    obtain ⟨rate, hrate⟩ : ∃ rate, rate =
        Int64.ofInt (determineSpeedLimit l.speedLimit limit) * 1000000 / 8 := ⟨_, rfl⟩
    rw [← hrate] at hcheck
    cases noSSUDP with
    | false =>
      rw [hcheck] at h
      cases h
    | true =>
      rcases hanswer : admitIP { l with userLimitInfo := m } taguuid (trimPrefix ip "::ffff:") u.uid
        u.deviceLimit with ⟨l₂, reject⟩
      rw [if_pos rfl, hanswer] at hcheck
      cases reject with
      | false =>
        rw [hcheck] at h
        cases h
      | true =>
        have hback := admitIP_of_reject (congrArg Prod.snd hanswer)
        rw [hanswer] at hback
        refine ⟨m, ?_⟩
        rw [hcheck]
        exact hback

/-- **A rejected connection leaves no trace** in the devices, in the addresses of the last report
and in the buckets. -/
theorem rejected_leaves_no_trace (l : Limiter) (now : ℤ) (taguuid ip : String)
    (isTcp noSSUDP : Bool) (h : (l.checkLimit now taguuid ip isTcp noSSUDP).2.2 = true) :
    (l.checkLimit now taguuid ip isTcp noSSUDP).1.userOnlineIP = l.userOnlineIP ∧
      (l.checkLimit now taguuid ip isTcp noSSUDP).1.oldUserOnline = l.oldUserOnline ∧
      (l.checkLimit now taguuid ip isTcp noSSUDP).1.speedLimiter = l.speedLimiter := by
  obtain ⟨m, hl⟩ := checkLimit_of_reject h
  rw [hl]
  exact ⟨rfl, rfl, rfl⟩

/-- A second device of a user with a device limit of one. -/
theorem rejected_leaves_no_trace_device :
    let l : Limiter :=
      { userLimitInfo := Finmap.singleton "tag|a" { uid := 1, deviceLimit := 1 }
        userOnlineIP := Finmap.singleton "tag|a" (Finmap.singleton "10.0.0.1" 1)
        aliveList := Finmap.singleton 1 1 }
    (l.checkLimit 0 "tag|a" "10.0.0.2" true true).1.userOnlineIP = l.userOnlineIP :=
  (rejected_leaves_no_trace _ 0 "tag|a" "10.0.0.2" true true (by decide)).1

/-! ### The invariant -/

/-- The maps of the limiter of `tag` agree on the users: `UUIDtoUID` has the users and the uids of
`UserLimitInfo`, whose keys are made from the tag, and the devices and the buckets are those of
registered users. No user has a dynamic limit. -/
structure Represents (tag : String) (l : Limiter) : Prop where
  uids : ∀ uuid, l.uuidToUID.lookup uuid =
    (l.userLimitInfo.lookup (userTag tag uuid)).map UserLimitInfo.uid
  keys : ∀ k ∈ l.userLimitInfo, ∃ uuid, k = userTag tag uuid
  online : ∀ k ∈ l.userOnlineIP, k ∈ l.userLimitInfo
  buckets : ∀ k ∈ l.speedLimiter, k ∈ l.userLimitInfo
  permanent : ∀ k u, l.userLimitInfo.lookup k = some u → u.expireTime = 0

/-- The device limit stores nothing under the keys of other users. -/
theorem mem_userOnlineIP_admitIP {l : Limiter} {taguuid ip : String} {uid deviceLimit : ℤ}
    {k : String} (hk : k ∈ (l.admitIP taguuid ip uid deviceLimit).1.userOnlineIP) :
    k = taguuid ∨ k ∈ l.userOnlineIP := by
  have hnew {l₁ undo : Limiter} {aliveIp : ℤ}
      (hl₁ : k ∈ l₁.userOnlineIP → k = taguuid ∨ k ∈ l.userOnlineIP)
      (hundo : k ∈ undo.userOnlineIP → k = taguuid ∨ k ∈ l.userOnlineIP)
      (h : k ∈ (l₁.admitNewIP ip uid deviceLimit aliveIp undo).1.userOnlineIP) :
      k = taguuid ∨ k ∈ l.userOnlineIP := by
    unfold admitNewIP at h
    split at h
    · split_ifs at h <;> exact hl₁ h
    · split_ifs at h
      · exact hundo h
      · exact hl₁ h
  unfold admitIP at hk
  dsimp only at hk
  split at hk
  · split at hk
    · exact Or.inr hk
    · exact hnew Finmap.mem_insert.mp Finmap.mem_insert.mp hk
  · exact hnew Finmap.mem_insert.mp (fun h => Finmap.mem_insert.mp (Finmap.mem_erase.mp h).2) hk

/-- A bucket is stored under the key of its user. -/
theorem bucketFor_maps (l : Limiter) (taguuid : String) (limit : Int64) :
    ∃ buckets, (l.bucketFor taguuid limit).1 = { l with speedLimiter := buckets } ∧
      ∀ k ∈ buckets, k = taguuid ∨ k ∈ l.speedLimiter := by
  unfold bucketFor
  split_ifs
  · split
    · exact ⟨_, rfl, fun k hk => Or.inr hk⟩
    · exact ⟨_, rfl, fun k hk => Finmap.mem_insert.mp hk⟩
  · exact ⟨_, rfl, fun k hk => Or.inr hk⟩

/-- **The maps after a connection** of a registered user: apart from what looking up the limit does
to the registered users, only entries under the key of the user are written. -/
theorem checkLimit_maps {l l₁ : Limiter} {taguuid : String} {u : UserLimitInfo}
    (hu : l.userLimitInfo.lookup taguuid = some u) {now limit : ℤ}
    (hlimit : l.userSpeedLimit now taguuid u = (l₁, limit)) (ip : String) (isTcp noSSUDP : Bool) :
    ∃ online old buckets, (l.checkLimit now taguuid ip isTcp noSSUDP).1 =
        { l₁ with userOnlineIP := online, oldUserOnline := old, speedLimiter := buckets } ∧
      (∀ k ∈ online, k = taguuid ∨ k ∈ l₁.userOnlineIP) ∧
      ∀ k ∈ buckets, k = taguuid ∨ k ∈ l₁.speedLimiter := by
  obtain ⟨rate, hrate⟩ : ∃ rate, rate =
      Int64.ofInt (determineSpeedLimit l.speedLimit limit) * 1000000 / 8 := ⟨_, rfl⟩
  rw [checkLimit_of_userSpeedLimit hu hlimit, ← hrate]
  cases noSSUDP with
  | false =>
    obtain ⟨buckets, hl, hbuckets⟩ := l₁.bucketFor_maps taguuid rate
    exact ⟨l₁.userOnlineIP, l₁.oldUserOnline, buckets, hl, fun k hk => Or.inr hk, hbuckets⟩
  | true =>
    obtain ⟨online, old, hip⟩ :=
      l₁.admitIP_eq taguuid (trimPrefix ip "::ffff:") u.uid u.deviceLimit
    have honline (k : String) (hk : k ∈ online) : k = taguuid ∨ k ∈ l₁.userOnlineIP := by
      have hk' : k ∈ (l₁.admitIP taguuid (trimPrefix ip "::ffff:") u.uid
          u.deviceLimit).1.userOnlineIP := by
        rw [hip]
        exact hk
      exact mem_userOnlineIP_admitIP hk'
    rcases hanswer : l₁.admitIP taguuid (trimPrefix ip "::ffff:") u.uid u.deviceLimit with
      ⟨l₂, reject⟩
    rw [hanswer] at hip
    obtain rfl : l₂ = _ := hip
    rw [if_pos rfl]
    cases reject with
    | true => exact ⟨online, old, l₁.speedLimiter, rfl, honline, fun k hk => Or.inr hk⟩
    | false =>
      obtain ⟨buckets, hl, hbuckets⟩ :=
        bucketFor_maps { l₁ with userOnlineIP := online, oldUserOnline := old } taguuid rate
      exact ⟨online, old, buckets, hl, honline, hbuckets⟩

/-! ### The invariant along runs -/

namespace Represents

variable {tag : String} {l : Limiter}

theorem addUser (h : l.Represents tag) (u : UserInfo) :
    (Limiter.addUser tag l u).Represents tag where
  uids := fun uuid => by
    simp only [Limiter.addUser, GoMap.lookup_insert, userTag_inj]
    split_ifs
    · rfl
    · exact h.uids uuid
  keys := fun k hk => by
    rcases Finmap.mem_insert.mp hk with rfl | hold
    · exact ⟨u.uuid, rfl⟩
    · exact h.keys k hold
  online := fun k hk => Finmap.mem_insert.mpr (Or.inr (h.online k hk))
  buckets := fun k hk => Finmap.mem_insert.mpr (Or.inr (h.buckets k hk))
  permanent := fun k v => by
    simp only [Limiter.addUser, GoMap.lookup_insert]
    split_ifs
    · rintro ⟨⟩
      rfl
    · exact h.permanent k v

theorem deleteUser (h : l.Represents tag) (u : UserInfo) :
    (Limiter.deleteUser tag l u).Represents tag where
  uids := fun uuid => by
    simp only [Limiter.deleteUser, GoMap.lookup_erase, userTag_inj]
    split_ifs
    · rfl
    · exact h.uids uuid
  keys := fun k hk => h.keys k (Finmap.mem_erase.mp hk).2
  online := fun k hk => by
    obtain ⟨hne, hmem⟩ := Finmap.mem_erase.mp hk
    exact Finmap.mem_erase.mpr ⟨hne, h.online k hmem⟩
  buckets := fun k hk => by
    obtain ⟨hne, hmem⟩ := Finmap.mem_erase.mp hk
    exact Finmap.mem_erase.mpr ⟨hne, h.buckets k hmem⟩
  permanent := fun k v => by
    simp only [Limiter.deleteUser, GoMap.lookup_erase]
    split_ifs
    · intro hv
      cases hv
    · exact h.permanent k v

theorem updateUser (h : l.Represents tag) (added deleted : List UserInfo) :
    (l.updateUser tag added deleted).Represents tag := by
  have hdeleted : (deleted.foldl (Limiter.deleteUser tag) l).Represents tag :=
    List.foldlRecOn deleted _ h fun l hl u _ => hl.deleteUser u
  exact List.foldlRecOn added _ hdeleted fun l hl u _ => hl.addUser u

theorem checkLimit (h : l.Represents tag) (now : ℤ) (taguuid ip : String) (isTcp noSSUDP : Bool) :
    (l.checkLimit now taguuid ip isTcp noSSUDP).1.Represents tag := by
  cases hu : l.userLimitInfo.lookup taguuid with
  | none => rwa [checkLimit_of_isUnknown hu]
  | some u =>
    have hmem : taguuid ∈ l.userLimitInfo := Finmap.mem_of_lookup_eq_some hu
    -- there is no dynamic limit that could have ended
    have hlimit : l.userSpeedLimit now taguuid u =
        (l, determineSpeedLimit u.speedLimit u.dynamicSpeedLimit) :=
      if_neg fun hexpired => hexpired.2 (h.permanent taguuid u hu)
    obtain ⟨online, old, buckets, hl, honline, hbuckets⟩ :=
      checkLimit_maps hu hlimit ip isTcp noSSUDP
    rw [hl]
    refine ⟨h.uids, h.keys, fun k hk => ?_, fun k hk => ?_, h.permanent⟩
    · rcases honline k hk with rfl | hold
      · exact hmem
      · exact h.online k hold
    · rcases hbuckets k hk with rfl | hold
      · exact hmem
      · exact h.buckets k hold

/-- After a report nobody is online. -/
theorem getOnlineDevice (h : l.Represents tag) (range : RangeOrder String)
    (ips : String → RangeOrder String) : (l.getOnlineDevice range ips).1.Represents tag := by
  rw [getOnlineDevice_eq]
  refine ⟨h.uids, h.keys, fun k hk => ?_, h.buckets, h.permanent⟩
  refine h.online k (Finmap.lookup_isSome.mp ?_)
  have hsome := Finmap.lookup_isSome.mpr hk
  rw [GoMap.lookup_deleteAll] at hsome
  split_ifs at hsome with hvisited
  · cases hsome
  · exact hsome

end Represents

end Limiter

/-- The calls without dynamic speed limits, for the tag of the limiter. -/
def LimiterEvent.Static (tag : String) : LimiterEvent → Prop
  | .check .. => True
  | .report .. => True
  | .update t _ _ => t = tag
  | .updateDynamic .. => False
  | .addDynamic .. => False
  | .setAlive _ => True

instance (tag : String) : (e : LimiterEvent) → Decidable (e.Static tag)
  | .check .. => inferInstanceAs (Decidable True)
  | .report .. => inferInstanceAs (Decidable True)
  | .update .. => inferInstanceAs (Decidable (_ = _))
  | .updateDynamic .. => inferInstanceAs (Decidable False)
  | .addDynamic .. => inferInstanceAs (Decidable False)
  | .setAlive _ => inferInstanceAs (Decidable True)

namespace Limiter

variable {tag : String}

theorem Represents.step {l : Limiter} (h : l.Represents tag) {e : LimiterEvent}
    (he : e.Static tag) : (l.step e).Represents tag := by
  cases e with
  | check now taguuid ip isTcp noSSUDP => exact h.checkLimit now taguuid ip isTcp noSSUDP
  | report range ips => exact h.getOnlineDevice range ips
  | update t added deleted =>
    obtain rfl : t = tag := he
    exact h.updateUser added deleted
  | updateDynamic => exact he.elim
  | addDynamic => exact he.elim
  | setAlive alive => exact ⟨h.uids, h.keys, h.online, h.buckets, h.permanent⟩

/-- A new limiter is the empty one with its users added. -/
theorem newLimiter_eq_foldl (tag : String) (conf : LimitConfig) (users : List UserInfo)
    (aliveList : GoMap ℤ ℤ) :
    newLimiter tag conf users aliveList =
      users.foldl (addUser tag) { speedLimit := conf.speedLimit, aliveList := aliveList } := by
  have hfold (l : Limiter) : users.foldl (addUser tag) l =
      { l with
        userLimitInfo := GoMap.storeAll (fun u => userTag tag u.uuid) userEntry users
          l.userLimitInfo
        uuidToUID := GoMap.storeAll UserInfo.uuid UserInfo.id users l.uuidToUID } := by
    induction users generalizing l with
    | nil => rfl
    | cons u users ih => exact ih (addUser tag l u)
  rw [hfold]
  rfl

theorem represents_newLimiter (tag : String) (conf : LimitConfig) (users : List UserInfo)
    (aliveList : GoMap ℤ ℤ) : (newLimiter tag conf users aliveList).Represents tag := by
  rw [newLimiter_eq_foldl]
  refine List.foldlRecOn users _ ?_ fun l hl u _ => hl.addUser u
  exact ⟨fun _ => rfl, fun _ hk => absurd hk Finmap.notMem_empty,
    fun _ hk => absurd hk Finmap.notMem_empty, fun _ hk => absurd hk Finmap.notMem_empty, nofun⟩

/-- **The maps of a limiter agree** after any calls without dynamic speed limits: `UUIDtoUID` and
`UserLimitInfo` have the same users with the same uids, and devices and buckets belong to
registered users. So nothing is left of a user that `UpdateUser` deletes and does not add again. -/
theorem representation_invariant (tag : String) (conf : LimitConfig) (users : List UserInfo)
    (aliveList : GoMap ℤ ℤ) (es : List LimiterEvent) (hes : ∀ e ∈ es, e.Static tag) :
    let l := es.foldl step (newLimiter tag conf users aliveList)
    l.Represents tag ∧
      ∀ added deleted : List UserInfo, ∀ u ∈ deleted, (∀ a ∈ added, a.uuid ≠ u.uuid) →
        let l' := l.updateUser tag added deleted
        userTag tag u.uuid ∉ l'.userLimitInfo ∧ userTag tag u.uuid ∉ l'.userOnlineIP ∧
          userTag tag u.uuid ∉ l'.speedLimiter ∧ u.uuid ∉ l'.uuidToUID := by
  intro l
  have hl : l.Represents tag :=
    List.foldlRecOn es _ (represents_newLimiter tag conf users aliveList)
      fun l hl e he => hl.step (hes e he)
  refine ⟨hl, fun added deleted u hu hadded => ?_⟩
  have hl' := hl.updateUser added deleted
  -- the entry of the user is gone, and the other maps have keys of entries only
  have hnone :
      (l.updateUser tag added deleted).userLimitInfo.lookup (userTag tag u.uuid) = none := by
    rw [lookup_updateUser_of_uuid l deleted hadded, if_pos ⟨u, hu, rfl⟩]
  have hgone : userTag tag u.uuid ∉ (l.updateUser tag added deleted).userLimitInfo :=
    Finmap.lookup_eq_none.mp hnone
  refine ⟨hgone, fun h => hgone (hl'.online _ h), fun h => hgone (hl'.buckets _ h), ?_⟩
  rw [← Finmap.lookup_eq_none, hl'.uids, hnone]
  rfl

/-- A user connects, is reported, connects again, and is deleted. -/
theorem representation_invariant_delete :
    let u : UserInfo := { id := 7, uuid := "a", speedLimit := 5, deviceLimit := 1 }
    let es : List LimiterEvent :=
      [.check 0 "tag|a" "10.0.0.1" true true,
        .report RangeOrder.ascending fun _ => RangeOrder.ascending,
        .check 1 "tag|a" "10.0.0.2" true true]
    userTag "tag" "a" ∉ ((es.foldl step (newLimiter "tag" {} [u] ∅)).updateUser "tag" []
      [u]).userOnlineIP :=
  ((representation_invariant "tag" {} _ ∅ _ (by decide)).2 [] _ _ List.mem_cons_self
    (by simp)).2.1

end Limiter

end Tox.Limit
