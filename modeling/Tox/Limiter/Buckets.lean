import Mathlib
import Tox.Limiter.Representation

/-!
# The buckets that a limiter hands out

`CheckLimit` limits a connection to the smallest of three speeds: the limit of the node, the limit
of the user, and the dynamic limit of the user as long as it has not ended. Zero stands for no
limit. The bucket is made when a user first needs one and handed out again from then on. Only the
deletion of the user in `UpdateUser` removes it. This file shows that `CheckLimit` computes the
right limit at every call (`userSpeedLimit_snd`, `rate_eq`), and that it hands out the bucket of
another limit exactly if the limit has changed since the bucket was made (`bucket_current_iff`): a
dynamic limit that is set or ends while the user has a bucket has no effect (`bucket_not_current`).
-/

namespace Tox.Limit

open Tox.Foundation Tox.Panel Tox.Format
open Limiter (determineSpeedLimit)

/-! ### Limits -/

/-- The smallest of the limits that are not zero; zero if there is none. -/
def smallestNonZero (limits : List ℤ) : ℤ :=
  (limits.filter (· ≠ 0)).min?.getD 0

/-- The dynamic limit of a user at the time `now`. It has ended when its expire time has passed; the
expire time of an entry without a dynamic limit is zero. -/
def UserLimitInfo.dynamicAt (u : UserLimitInfo) (now : ℤ) : ℤ :=
  if u.expireTime < now ∧ u.expireTime ≠ 0 then 0 else u.dynamicSpeedLimit

/-- The speed limit of a user at the time `now`. -/
def Limiter.limitAt (l : Limiter) (u : UserLimitInfo) (now : ℤ) : ℤ :=
  smallestNonZero [l.speedLimit, u.speedLimit, u.dynamicAt now]

/-- The bucket with the limit as its rate and its capacity, in bytes per second. -/
def bucketOf (limit : ℤ) : Bucket :=
  ⟨Int64.ofInt (limit * 125000), Int64.ofInt (limit * 125000)⟩

/-- The bucket that a connection should get: none without a limit. -/
def speedBucket (limit : ℤ) : Option Bucket :=
  if limit = 0 then none else some (bucketOf limit)

/-- The limits in question. -/
def IsLimit (limit : ℤ) : Prop := 0 ≤ limit ∧ limit < 2 ^ 40

instance (limit : ℤ) : Decidable (IsLimit limit) := inferInstanceAs (Decidable (_ ∧ _))

theorem isLimit_zero : IsLimit 0 := by decide

section Limits

variable {a b c : ℤ}

theorem determineSpeedLimit_eq (ha : 0 ≤ a) (hb : 0 ≤ b) :
    determineSpeedLimit a b = if a = 0 then b else if b = 0 then a else min a b := by
  unfold determineSpeedLimit
  split_ifs <;> omega

theorem determineSpeedLimit_zero (ha : 0 ≤ a) : determineSpeedLimit a 0 = a := by
  rw [determineSpeedLimit_eq ha le_rfl, if_pos rfl, ite_eq_right_iff]
  exact Eq.symm

theorem IsLimit.determine (ha : IsLimit a) (hb : IsLimit b) :
    IsLimit (determineSpeedLimit a b) := by
  obtain ⟨ha₀, ha₁⟩ := ha
  obtain ⟨hb₀, hb₁⟩ := hb
  rw [determineSpeedLimit_eq ha₀ hb₀, IsLimit]
  split_ifs <;> omega

theorem smallestNonZero_nonneg {limits : List ℤ} (h : ∀ x ∈ limits, 0 ≤ x) :
    0 ≤ smallestNonZero limits := by
  rw [smallestNonZero]
  cases hmin : (limits.filter (· ≠ 0)).min? with
  | none => exact le_rfl
  | some m => exact h m (List.mem_of_mem_filter (List.min?_mem hmin))

/-- The comparisons of the code find the smallest limit, one limit after the other. -/
theorem smallestNonZero_cons {limits : List ℤ} (ha : 0 ≤ a) (h : ∀ x ∈ limits, 0 ≤ x) :
    smallestNonZero (a :: limits) = determineSpeedLimit a (smallestNonZero limits) := by
  rw [determineSpeedLimit_eq ha (smallestNonZero_nonneg h), smallestNonZero, smallestNonZero]
  by_cases ha' : a = 0
  · rw [List.filter_cons_of_neg (by simpa using ha'), if_pos ha']
  · rw [List.filter_cons_of_pos (by simpa using ha'), if_neg ha', List.min?_cons]
    cases hmin : (limits.filter (· ≠ 0)).min? with
    | none => rfl
    | some m =>
      have hm : m ≠ 0 := by simpa using (List.mem_filter.mp (List.min?_mem hmin)).2
      exact (if_neg hm).symm

theorem smallestNonZero_eq (ha : 0 ≤ a) (hb : 0 ≤ b) (hc : 0 ≤ c) :
    smallestNonZero [a, b, c] = determineSpeedLimit a (determineSpeedLimit b c) := by
  rw [smallestNonZero_cons ha (by simp [hb, hc]), smallestNonZero_cons hb (by simp [hc]),
    smallestNonZero_cons hc (by simp), smallestNonZero, List.filter_nil, List.min?_nil,
    Option.getD_none, determineSpeedLimit_zero hc]

/-- The rate that `CheckLimit` computes for a limit does not overflow. -/
theorem rate_eq {limit : ℤ} (h : IsLimit limit) :
    Int64.ofInt limit * 1000000 / 8 = Int64.ofInt (limit * 125000) := by
  obtain ⟨h₀, h₁⟩ := h
  have hmillion : (1000000 : Int64).toInt = 1000000 := by decide
  have height : (8 : Int64).toInt = 8 := by decide
  have hmul : (Int64.ofInt limit * 1000000).toInt = limit * 1000000 := by
    rw [Int64.toInt_mul, hmillion, Int64.toInt_ofInt_of_le (by omega) (by omega)]
    exact Int.bmod_eq_of_le (by omega) (by omega)
  rw [← Int64.toInt_inj, Int64.toInt_div, hmul, height, Int.tdiv_eq_ediv_of_nonneg (by omega),
    Int64.toInt_ofInt_of_le (by omega) (by omega)]
  have hdiv : limit * 1000000 / 8 = limit * 125000 := by omega
  rw [hdiv]
  exact Int.bmod_eq_of_le (by omega) (by omega)

theorem toInt_rate {limit : ℤ} (h : IsLimit limit) :
    (Int64.ofInt (limit * 125000)).toInt = limit * 125000 := by
  obtain ⟨h₀, h₁⟩ := h
  exact Int64.toInt_ofInt_of_le (by omega) (by omega)

theorem bucketOf_inj {limit limit' : ℤ} (h : IsLimit limit) (h' : IsLimit limit') :
    bucketOf limit = bucketOf limit' ↔ limit = limit' := by
  refine ⟨fun heq => ?_, fun heq => by rw [heq]⟩
  have hrate := congrArg (fun b : Bucket => b.capacity.toInt) heq
  change (Int64.ofInt _).toInt = (Int64.ofInt _).toInt at hrate
  rw [toInt_rate h, toInt_rate h'] at hrate
  omega

end Limits

/-! ### The bucket of a connection -/

namespace Limiter

/-- The limits of a limiter are in range. -/
structure InRange (l : Limiter) : Prop where
  node : IsLimit l.speedLimit
  user : ∀ k u, l.userLimitInfo.lookup k = some u →
    IsLimit u.speedLimit ∧ IsLimit u.dynamicSpeedLimit

variable {l : Limiter} {taguuid : String} {u : UserLimitInfo} {now : ℤ}

theorem isLimit_dynamicAt (h : IsLimit u.dynamicSpeedLimit) (now : ℤ) :
    IsLimit (u.dynamicAt now) := by
  unfold UserLimitInfo.dynamicAt
  split_ifs
  · exact isLimit_zero
  · exact h

/-- The limit that is looked up for a user is the smaller one of its own and its dynamic limit. -/
theorem userSpeedLimit_snd (h : 0 ≤ u.speedLimit) :
    (l.userSpeedLimit now taguuid u).2 = determineSpeedLimit u.speedLimit (u.dynamicAt now) := by
  have hzero := determineSpeedLimit_zero h
  unfold userSpeedLimit UserLimitInfo.dynamicAt
  split_ifs with hexpired hown
  · exact hzero.symm
  · rw [hzero]
    exact (not_not.mp hown).symm
  · rfl

theorem InRange.isLimit_limitAt (h : l.InRange) (hu : l.userLimitInfo.lookup taguuid = some u)
    (now : ℤ) : IsLimit (l.limitAt u now) := by
  obtain ⟨hown, hdynamic⟩ := h.user taguuid u hu
  have hdynamic := isLimit_dynamicAt hdynamic now
  rw [limitAt, smallestNonZero_eq h.node.1 hown.1 hdynamic.1]
  exact h.node.determine (hown.determine hdynamic)

/-- The rate that is computed for a registered user. -/
theorem InRange.rate (h : l.InRange) (hu : l.userLimitInfo.lookup taguuid = some u) (now : ℤ) :
    Int64.ofInt (determineSpeedLimit l.speedLimit (l.userSpeedLimit now taguuid u).2) *
      1000000 / 8 = Int64.ofInt (l.limitAt u now * 125000) := by
  obtain ⟨hown, hdynamic⟩ := h.user taguuid u hu
  have hdynamic := isLimit_dynamicAt hdynamic now
  rw [userSpeedLimit_snd hown.1, ← smallestNonZero_eq h.node.1 hown.1 hdynamic.1]
  exact rate_eq (h.isLimit_limitAt hu now)

/-- The bucket for a rate: none for the rate zero, and otherwise the one handed out before or a new
one. -/
theorem bucketFor_eq {limit : ℤ} (h : IsLimit limit) (l : Limiter) (taguuid : String) :
    (l.bucketFor taguuid (Int64.ofInt (limit * 125000))).2 =
        (if limit = 0 then none else some ((l.speedLimiter.lookup taguuid).getD (bucketOf limit))) ∧
      (l.bucketFor taguuid (Int64.ofInt (limit * 125000))).1.speedLimiter =
        if limit ≠ 0 ∧ taguuid ∉ l.speedLimiter then
          l.speedLimiter.insert taguuid (bucketOf limit)
        else l.speedLimiter := by
  have hpos : Int64.ofInt (limit * 125000) > 0 ↔ limit ≠ 0 := by
    have hzero : (0 : Int64).toInt = 0 := by decide
    rw [gt_iff_lt, Int64.lt_iff_toInt_lt, toInt_rate h, hzero]
    have := h.1
    omega
  unfold bucketFor
  by_cases hlimit : limit = 0
  · rw [if_neg fun hc => hpos.mp hc hlimit, if_pos hlimit, if_neg fun hc => hc.1 hlimit]
    exact ⟨rfl, rfl⟩
  · rw [if_pos (hpos.mpr hlimit), if_neg hlimit]
    cases hbucket : l.speedLimiter.lookup taguuid with
    | some bucket =>
      rw [if_neg fun hc => hc.2 (Finmap.mem_of_lookup_eq_some hbucket)]
      exact ⟨rfl, rfl⟩
    | none =>
      rw [if_pos ⟨hlimit, Finmap.lookup_eq_none.mp hbucket⟩]
      exact ⟨rfl, rfl⟩

/-- The device limit leaves the buckets as they are. -/
theorem speedLimiter_device (l : Limiter) (taguuid ip : String) (uid deviceLimit : ℤ)
    (noSSUDP : Bool) :
    (if noSSUDP then l.admitIP taguuid ip uid deviceLimit else (l, false)).1.speedLimiter =
      l.speedLimiter := by
  split_ifs
  · obtain ⟨online, old, hip⟩ := l.admitIP_eq taguuid ip uid deviceLimit
    rw [hip]
  · rfl

/-- **The bucket of an accepted connection**: none without a limit, and otherwise the one that the
user has, or a new one that the user has from then on. -/
theorem checkLimit_bucket (h : l.InRange) (hu : l.userLimitInfo.lookup taguuid = some u)
    {ip : String} {isTcp noSSUDP : Bool}
    (haccept : (l.checkLimit now taguuid ip isTcp noSSUDP).2.2 = false) :
    (l.checkLimit now taguuid ip isTcp noSSUDP).2.1 =
        (if l.limitAt u now = 0 then none
          else some ((l.speedLimiter.lookup taguuid).getD (bucketOf (l.limitAt u now)))) ∧
      (l.checkLimit now taguuid ip isTcp noSSUDP).1.speedLimiter =
        if l.limitAt u now ≠ 0 ∧ taguuid ∉ l.speedLimiter then
          l.speedLimiter.insert taguuid (bucketOf (l.limitAt u now))
        else l.speedLimiter := by
  have hlimit := h.isLimit_limitAt hu now
  obtain ⟨m, limit, hl₁⟩ := l.userSpeedLimit_eq now taguuid u
  have hcheck := checkLimit_of_userSpeedLimit hu hl₁ ip isTcp noSSUDP
  -- the rate is left abstract: its evaluation is expensive
  obtain ⟨rate, hrate⟩ : ∃ rate, rate =
      Int64.ofInt (determineSpeedLimit l.speedLimit limit) * 1000000 / 8 := ⟨_, rfl⟩
  have hrate' : rate = Int64.ofInt (l.limitAt u now * 125000) := by
    rw [hrate, ← h.rate hu now, hl₁]
  rw [← hrate] at hcheck
  have hbuckets := speedLimiter_device { l with userLimitInfo := m } taguuid
    (trimPrefix ip "::ffff:") u.uid u.deviceLimit noSSUDP
  rcases hdevice : (if noSSUDP then admitIP { l with userLimitInfo := m } taguuid
    (trimPrefix ip "::ffff:") u.uid u.deviceLimit
    else ({ l with userLimitInfo := m }, false)) with ⟨l₂, reject⟩
  rw [hdevice] at hbuckets hcheck
  cases reject with
  | true =>
    rw [hcheck] at haccept
    cases haccept
  | false =>
    have hresult := bucketFor_eq hlimit l₂ taguuid
    rw [show l₂.speedLimiter = l.speedLimiter from hbuckets, ← hrate'] at hresult
    rw [hcheck]
    exact hresult

/-- A change of the users leaves the limit of the node as it is and removes the buckets of the
deleted users. -/
theorem updateUser_speeds (l : Limiter) (tag : String) (added deleted : List UserInfo) :
    (l.updateUser tag added deleted).speedLimit = l.speedLimit ∧
      (l.updateUser tag added deleted).speedLimiter =
        GoMap.deleteAll (deleted.map fun u => userTag tag u.uuid) l.speedLimiter := by
  obtain ⟨info, uids, hadded⟩ := foldl_addUser_eq tag added (deleted.foldl (deleteUser tag) l)
  rw [updateUser, hadded]
  induction deleted generalizing l with
  | nil => exact ⟨rfl, rfl⟩
  | cons u deleted ih => exact ih (deleteUser tag l u) hadded

/-! ### Limits in range along runs -/

namespace InRange

theorem addUser (h : l.InRange) (tag : String) {v : UserInfo} (hv : IsLimit v.speedLimit) :
    (Limiter.addUser tag l v).InRange := by
  refine ⟨h.node, fun k w => ?_⟩
  simp only [Limiter.addUser, GoMap.lookup_insert]
  split_ifs
  · rintro ⟨⟩
    exact ⟨by rwa [userEntry_speedLimit], isLimit_zero⟩
  · exact h.user k w

theorem deleteUser (h : l.InRange) (tag : String) (v : UserInfo) :
    (Limiter.deleteUser tag l v).InRange := by
  refine ⟨h.node, fun k w => ?_⟩
  simp only [Limiter.deleteUser, GoMap.lookup_erase]
  split_ifs
  · intro hw
    cases hw
  · exact h.user k w

theorem updateUser (h : l.InRange) (tag : String) {added : List UserInfo}
    (hadded : ∀ v ∈ added, IsLimit v.speedLimit) (deleted : List UserInfo) :
    (l.updateUser tag added deleted).InRange := by
  have hdeleted : (deleted.foldl (Limiter.deleteUser tag) l).InRange :=
    List.foldlRecOn deleted _ h fun l hl v _ => hl.deleteUser tag v
  exact List.foldlRecOn added _ hdeleted fun l hl v hv => hl.addUser tag (hadded v hv)

/-- An entry is replaced by one with limits in range. -/
theorem insert (h : l.InRange) (k : String) {v : UserLimitInfo} (hown : IsLimit v.speedLimit)
    (hdynamic : IsLimit v.dynamicSpeedLimit) :
    InRange { l with userLimitInfo := l.userLimitInfo.insert k v } := by
  refine ⟨h.node, fun k' w => ?_⟩
  rw [GoMap.lookup_insert]
  split_ifs
  · rintro ⟨⟩
    exact ⟨hown, hdynamic⟩
  · exact h.user k' w

theorem userSpeedLimit (h : l.InRange) (hu : l.userLimitInfo.lookup taguuid = some u) (now : ℤ) :
    (l.userSpeedLimit now taguuid u).1.InRange := by
  obtain ⟨hown, -⟩ := h.user taguuid u hu
  unfold Limiter.userSpeedLimit
  split_ifs
  · exact h.insert taguuid hown isLimit_zero
  · refine ⟨h.node, fun k w => ?_⟩
    rw [GoMap.lookup_erase]
    split_ifs
    · intro hw
      cases hw
    · exact h.user k w
  · exact h

theorem checkLimit (h : l.InRange) (now : ℤ) (taguuid ip : String) (isTcp noSSUDP : Bool) :
    (l.checkLimit now taguuid ip isTcp noSSUDP).1.InRange := by
  cases hu : l.userLimitInfo.lookup taguuid with
  | none => rwa [checkLimit_of_isUnknown hu]
  | some u =>
    have hl₁ := h.userSpeedLimit hu now
    rcases hlimit : l.userSpeedLimit now taguuid u with ⟨l₁, limit⟩
    rw [hlimit] at hl₁
    obtain ⟨online, old, buckets, hl, -, -⟩ := checkLimit_maps hu hlimit ip isTcp noSSUDP
    rw [hl]
    exact ⟨hl₁.node, hl₁.user⟩

theorem updateDynamicSpeedLimit (h : l.InRange) (tag uuid : String) {limit : ℤ}
    (hlimit : IsLimit limit) (expire : ℤ) :
    (l.updateDynamicSpeedLimit tag uuid limit expire).1.InRange := by
  unfold Limiter.updateDynamicSpeedLimit
  split
  case h_1 v hv =>
    exact h.insert (v := { v with dynamicSpeedLimit := limit, expireTime := expire }) _
      (h.user _ v hv).1 hlimit
  case h_2 => exact h

end InRange

/-- A dynamic limit leaves the buckets as they are. -/
theorem speedLimiter_updateDynamicSpeedLimit (l : Limiter) (tag uuid : String) (limit expire : ℤ) :
    (l.updateDynamicSpeedLimit tag uuid limit expire).1.speedLimiter = l.speedLimiter := by
  unfold updateDynamicSpeedLimit
  split <;> rfl

end Limiter

/-- The limits that a call sets are in range. -/
def LimiterEvent.InRange : LimiterEvent → Prop
  | .update _ added _ => ∀ u ∈ added, IsLimit u.speedLimit
  | .updateDynamic _ _ limit _ => IsLimit limit
  | .addDynamic _ _ _ limitNum _ => IsLimit limitNum
  | _ => True

instance : (e : LimiterEvent) → Decidable e.InRange
  | .check .. => inferInstanceAs (Decidable True)
  | .report .. => inferInstanceAs (Decidable True)
  | .update .. => inferInstanceAs (Decidable (∀ _ ∈ _, _))
  | .updateDynamic .. => inferInstanceAs (Decidable (IsLimit _))
  | .addDynamic .. => inferInstanceAs (Decidable (IsLimit _))
  | .setAlive _ => inferInstanceAs (Decidable True)

namespace Limiter

theorem InRange.step {l : Limiter} (h : l.InRange) {e : LimiterEvent} (he : e.InRange) :
    (l.step e).InRange := by
  cases e with
  | check now taguuid ip isTcp noSSUDP => exact h.checkLimit now taguuid ip isTcp noSSUDP
  | report range ips =>
    rw [Limiter.step, getOnlineDevice_eq]
    exact ⟨h.node, h.user⟩
  | update tag added deleted => exact h.updateUser tag he deleted
  | updateDynamic tag uuid limit expire => exact h.updateDynamicSpeedLimit tag uuid he expire
  | addDynamic now tag userInfo limitNum expire => exact h.insert _ isLimit_zero he
  | setAlive alive => exact ⟨h.node, h.user⟩

theorem inRange_newLimiter (tag : String) {conf : LimitConfig} {users : List UserInfo}
    (hconf : IsLimit conf.speedLimit) (husers : ∀ u ∈ users, IsLimit u.speedLimit)
    (aliveList : GoMap ℤ ℤ) : (newLimiter tag conf users aliveList).InRange := by
  rw [newLimiter_eq_foldl]
  exact List.foldlRecOn users _ ⟨hconf, nofun⟩ fun l hl u hu => hl.addUser tag (husers u hu)

end Limiter

/-! ### The limits for which buckets were made -/

/-- A limiter, and for every user that has a bucket the limit that applied when it was made. -/
structure Issued where
  limiter : Limiter
  issued : GoMap String ℤ := ∅

namespace Issued

/-- The limit of a connection that is accepted and limited. -/
def served (l : Limiter) (now : ℤ) (taguuid ip : String) (isTcp noSSUDP : Bool) : Option ℤ :=
  match l.userLimitInfo.lookup taguuid with
  | none => none
  | some u =>
    if (l.checkLimit now taguuid ip isTcp noSSUDP).2.2 = false ∧ l.limitAt u now ≠ 0 then
      some (l.limitAt u now)
    else none

/-- The first limited connection of a user is recorded with its limit. The record is removed when
the user is deleted. -/
def step (s : Issued) (e : LimiterEvent) : Issued where
  limiter := s.limiter.step e
  issued :=
    match e with
    | .check now taguuid ip isTcp noSSUDP =>
      match served s.limiter now taguuid ip isTcp noSSUDP with
      | some limit => if taguuid ∈ s.issued then s.issued else s.issued.insert taguuid limit
      | none => s.issued
    | .update tag _ deleted => GoMap.deleteAll (deleted.map fun u => userTag tag u.uuid) s.issued
    | _ => s.issued

@[simp]
theorem limiter_foldl_step (es : List LimiterEvent) (s : Issued) :
    (es.foldl step s).limiter = es.foldl Limiter.step s.limiter := by
  induction es generalizing s with
  | nil => rfl
  | cons e es ih => exact ih (s.step e)

/-- The buckets are those of the recorded limits. -/
structure Sound (s : Issued) : Prop where
  inRange : s.limiter.InRange
  buckets : ∀ k, s.limiter.speedLimiter.lookup k = (s.issued.lookup k).map bucketOf
  limits : ∀ k limit, s.issued.lookup k = some limit → IsLimit limit

namespace Sound

variable {s : Issued}

theorem mem_iff (h : s.Sound) (k : String) : k ∈ s.limiter.speedLimiter ↔ k ∈ s.issued := by
  rw [← Finmap.lookup_isSome, ← Finmap.lookup_isSome, h.buckets, Option.isSome_map]

/-- A call that leaves the buckets and the record as they are. -/
theorem of_eq (h : s.Sound) {e : LimiterEvent} (he : e.InRange)
    (hbuckets : (s.limiter.step e).speedLimiter = s.limiter.speedLimiter)
    (hissued : (s.step e).issued = s.issued) : (s.step e).Sound where
  inRange := h.inRange.step he
  buckets := fun k => by
    rw [hissued, ← h.buckets]
    exact congrArg (Finmap.lookup k) hbuckets
  limits := by
    rw [hissued]
    exact h.limits

/-- A call that issues a bucket and records its limit. -/
theorem of_insert (h : s.Sound) {e : LimiterEvent} (he : e.InRange) {key : String} {limit : ℤ}
    (hlimit : IsLimit limit)
    (hbuckets : (s.limiter.step e).speedLimiter =
      s.limiter.speedLimiter.insert key (bucketOf limit))
    (hissued : (s.step e).issued = s.issued.insert key limit) : (s.step e).Sound where
  inRange := h.inRange.step he
  buckets := fun k => by
    rw [hissued, GoMap.lookup_insert]
    change (s.limiter.step e).speedLimiter.lookup k = _
    rw [hbuckets, GoMap.lookup_insert]
    split_ifs
    · rfl
    · exact h.buckets k
  limits := fun k limit' => by
    rw [hissued, GoMap.lookup_insert]
    split_ifs
    · rintro ⟨⟩
      exact hlimit
    · exact h.limits k limit'

theorem check (h : s.Sound) (now : ℤ) (taguuid ip : String) (isTcp noSSUDP : Bool) :
    (s.step (.check now taguuid ip isTcp noSSUDP)).Sound := by
  cases hu : s.limiter.userLimitInfo.lookup taguuid with
  | none =>
    refine h.of_eq trivial ?_ (by simp only [step, served, hu])
    rw [Limiter.step, Limiter.checkLimit_of_isUnknown hu]
  | some u =>
    cases hreject : (s.limiter.checkLimit now taguuid ip isTcp noSSUDP).2.2 with
    | true =>
      obtain ⟨m, hl⟩ := Limiter.checkLimit_of_reject hreject
      refine h.of_eq trivial ?_ (by simp [step, served, hu, hreject])
      rw [Limiter.step, hl]
    | false =>
      have hbucket := (Limiter.checkLimit_bucket h.inRange hu hreject).2
      by_cases hnew : s.limiter.limitAt u now ≠ 0 ∧ taguuid ∉ s.issued
      · have hlimit := h.inRange.isLimit_limitAt hu now
        have hissued : (s.step (.check now taguuid ip isTcp noSSUDP)).issued =
            s.issued.insert taguuid (s.limiter.limitAt u now) := by
          simp only [step, served, hu, hreject, hnew, ne_eq, not_false_eq_true, and_self, if_true,
            if_false]
        rw [if_pos ⟨hnew.1, fun hmem => hnew.2 ((h.mem_iff taguuid).mp hmem)⟩] at hbucket
        exact h.of_insert trivial hlimit hbucket hissued
      · have hissued : (s.step (.check now taguuid ip isTcp noSSUDP)).issued = s.issued := by
          rw [not_and_or, not_not, not_not] at hnew
          rcases hnew with hzero | hmem
          · simp [step, served, hu, hzero]
          · simp only [step, hmem, if_true]
            split <;> rfl
        rw [← h.mem_iff taguuid] at hnew
        rw [if_neg hnew] at hbucket
        exact h.of_eq trivial hbucket hissued

theorem update (h : s.Sound) (tag : String) {added : List UserInfo}
    (hadded : ∀ u ∈ added, IsLimit u.speedLimit) (deleted : List UserInfo) :
    (s.step (.update tag added deleted)).Sound := by
  have hbuckets : (s.limiter.updateUser tag added deleted).speedLimiter =
      GoMap.deleteAll (deleted.map fun u => userTag tag u.uuid) s.limiter.speedLimiter :=
    (s.limiter.updateUser_speeds tag added deleted).2
  refine ⟨h.inRange.updateUser tag hadded deleted, fun k => ?_, fun k limit => ?_⟩
  · change (s.limiter.updateUser tag added deleted).speedLimiter.lookup k = _
    rw [hbuckets, GoMap.lookup_deleteAll]
    simp only [step, GoMap.lookup_deleteAll]
    split_ifs
    · rfl
    · exact h.buckets k
  · simp only [step, GoMap.lookup_deleteAll]
    split_ifs
    · intro hlimit
      cases hlimit
    · exact h.limits k limit

theorem step (h : s.Sound) {e : LimiterEvent} (he : e.InRange) : (s.step e).Sound := by
  cases e with
  | check now taguuid ip isTcp noSSUDP => exact h.check now taguuid ip isTcp noSSUDP
  | report range ips =>
    refine h.of_eq he ?_ rfl
    rw [Limiter.step, Limiter.getOnlineDevice_eq]
  | update tag added deleted => exact h.update tag he deleted
  | updateDynamic tag uuid limit expire =>
    exact h.of_eq he (s.limiter.speedLimiter_updateDynamicSpeedLimit tag uuid limit expire) rfl
  | addDynamic now tag userInfo limitNum expire => exact h.of_eq he rfl rfl
  | setAlive alive => exact h.of_eq he rfl rfl

/-- An accepted connection gets the bucket of its limit exactly if it has no limit, or the user has
no bucket or one that was made for this limit. -/
theorem checkLimit_eq_speedBucket_iff (h : s.Sound) {taguuid : String} {u : UserLimitInfo}
    (hu : s.limiter.userLimitInfo.lookup taguuid = some u) {now : ℤ} {ip : String}
    {isTcp noSSUDP : Bool}
    (haccept : (s.limiter.checkLimit now taguuid ip isTcp noSSUDP).2.2 = false) :
    (s.limiter.checkLimit now taguuid ip isTcp noSSUDP).2.1 =
        speedBucket (s.limiter.limitAt u now) ↔
      s.limiter.limitAt u now = 0 ∨
        ∀ limit, s.issued.lookup taguuid = some limit → limit = s.limiter.limitAt u now := by
  have hlimit := h.inRange.isLimit_limitAt hu now
  rw [(Limiter.checkLimit_bucket h.inRange hu haccept).1, speedBucket]
  by_cases hzero : s.limiter.limitAt u now = 0
  · rw [if_pos hzero, if_pos hzero]
    exact iff_of_true rfl (Or.inl hzero)
  · rw [if_neg hzero, if_neg hzero, Option.some_inj, h.buckets, or_iff_right hzero]
    cases hissued : s.issued.lookup taguuid with
    | none => exact iff_of_true rfl nofun
    | some limit =>
      rw [Option.map_some, Option.getD_some, bucketOf_inj (h.limits taguuid limit hissued) hlimit]
      exact ⟨fun heq limit' hsome => (Option.some.inj hsome).symm.trans heq,
        fun hall => hall limit rfl⟩

end Sound

theorem sound_start (tag : String) {conf : LimitConfig} {users : List UserInfo}
    (hconf : IsLimit conf.speedLimit) (husers : ∀ u ∈ users, IsLimit u.speedLimit)
    (aliveList : GoMap ℤ ℤ) : Sound { limiter := newLimiter tag conf users aliveList } :=
  ⟨Limiter.inRange_newLimiter tag hconf husers aliveList, fun _ => rfl, nofun⟩

end Issued

/-! ### Without dynamic limits -/

namespace Limiter

/-- The call sets no dynamic limit, and a user whose limit it changes is deleted first. -/
def Replaces (tag : String) (l : Limiter) (e : LimiterEvent) : Prop :=
  e.Static tag ∧ match e with
    | .update _ added deleted => ∀ a ∈ added, ∀ u,
        l.userLimitInfo.lookup (userTag tag a.uuid) = some u → u.speedLimit ≠ a.speedLimit →
          ∃ d ∈ deleted, d.uuid = a.uuid
    | _ => True

theorem dynamicSpeedLimit_newLimiter (tag : String) (conf : LimitConfig) (users : List UserInfo)
    (aliveList : GoMap ℤ ℤ) {k : String} {u : UserLimitInfo}
    (hu : (newLimiter tag conf users aliveList).userLimitInfo.lookup k = some u) :
    u.dynamicSpeedLimit = 0 := by
  by_cases hk : ∃ v ∈ users, userTag tag v.uuid = k
  · obtain ⟨v, hv, rfl⟩ := hk
    obtain ⟨w, -, -, hlook⟩ := GoMap.exists_lookup_storeAll (fun u => userTag tag u.uuid)
      userEntry hv ∅
    obtain rfl : userEntry w = u := Option.some.inj (hlook.symm.trans hu)
    rfl
  · have hnone := GoMap.lookup_storeAll_of_forall_ne (fun u => userTag tag u.uuid) userEntry
      (fun v hv hkey => hk ⟨v, hv, hkey⟩) ∅
    rw [newLimiter, hnone] at hu
    cases hu

/-- A user that is registered before and after a change that does not delete it keeps its limit. -/
theorem speedLimit_updateUser {l : Limiter} {tag : String} {added deleted : List UserInfo}
    (h : l.Replaces tag (.update tag added deleted)) {uuid : String}
    (hdeleted : ¬ ∃ d ∈ deleted, d.uuid = uuid) {u v : UserLimitInfo}
    (hu : l.userLimitInfo.lookup (userTag tag uuid) = some u)
    (hv : (l.updateUser tag added deleted).userLimitInfo.lookup (userTag tag uuid) = some v) :
    v.speedLimit = u.speedLimit := by
  by_cases hadded : ∃ a ∈ added, a.uuid = uuid
  · obtain ⟨a, ha, rfl⟩ := hadded
    obtain ⟨w, hw, huuid, hlook⟩ := l.exists_lookup_updateUser tag deleted ha
    obtain rfl : userEntry w = v := Option.some.inj (hlook.symm.trans hv)
    rw [userEntry_speedLimit]
    by_contra hne
    obtain ⟨d, hd, hdw⟩ := h.2 w hw u (by rwa [huuid]) fun heq => hne heq.symm
    exact hdeleted ⟨d, hd, hdw.trans huuid⟩
  · rw [lookup_updateUser_of_uuid l deleted fun a ha huuid => hadded ⟨a, ha, huuid⟩,
      if_neg hdeleted, hu] at hv
    rw [Option.some.inj hv]

end Limiter

namespace Issued

/-- Without dynamic limits the recorded limits are those of the users. -/
structure Current (tag : String) (s : Issued) : Prop where
  sound : s.Sound
  represents : s.limiter.Represents tag
  plain : ∀ k u, s.limiter.userLimitInfo.lookup k = some u → u.dynamicSpeedLimit = 0
  current : ∀ k limit u, s.issued.lookup k = some limit →
    s.limiter.userLimitInfo.lookup k = some u →
      limit = smallestNonZero [s.limiter.speedLimit, u.speedLimit, 0]

namespace Current

variable {tag : String} {s : Issued}

theorem limitAt_eq (h : s.Current tag) {k : String} {u : UserLimitInfo}
    (hu : s.limiter.userLimitInfo.lookup k = some u) (now : ℤ) :
    s.limiter.limitAt u now = smallestNonZero [s.limiter.speedLimit, u.speedLimit, 0] := by
  rw [Limiter.limitAt, UserLimitInfo.dynamicAt, h.plain k u hu, ite_self]

/-- A call that leaves the users and the record as they are. -/
theorem of_eq (h : s.Current tag) {e : LimiterEvent} (he : e.InRange) (hstatic : e.Static tag)
    (hnode : (s.limiter.step e).speedLimit = s.limiter.speedLimit)
    (husers : (s.limiter.step e).userLimitInfo = s.limiter.userLimitInfo)
    (hissued : ∀ k limit, (s.step e).issued.lookup k = some limit →
      s.issued.lookup k = some limit ∨ ∃ u, s.limiter.userLimitInfo.lookup k = some u ∧
        limit = smallestNonZero [s.limiter.speedLimit, u.speedLimit, 0]) :
    (s.step e).Current tag where
  sound := h.sound.step he
  represents := h.represents.step hstatic
  plain := fun k u => by
    change (s.limiter.step e).userLimitInfo.lookup k = _ → _
    rw [husers]
    exact h.plain k u
  current := fun k limit u hlimit => by
    change (s.limiter.step e).userLimitInfo.lookup k = _ →
      _ = smallestNonZero [(s.limiter.step e).speedLimit, _, _]
    rw [husers, hnode]
    intro hu
    rcases hissued k limit hlimit with hold | ⟨v, hv, hnew⟩
    · exact h.current k limit u hold hu
    · rw [hu] at hv
      rw [hnew, Option.some.inj hv]

theorem check (h : s.Current tag) (now : ℤ) (taguuid ip : String) (isTcp noSSUDP : Bool) :
    (s.step (.check now taguuid ip isTcp noSSUDP)).Current tag := by
  have hframe : ∃ online old buckets, (s.limiter.checkLimit now taguuid ip isTcp noSSUDP).1 =
      { s.limiter with userOnlineIP := online, oldUserOnline := old, speedLimiter := buckets } := by
    cases hu : s.limiter.userLimitInfo.lookup taguuid with
    | none => exact ⟨_, _, _, by rw [Limiter.checkLimit_of_isUnknown hu]⟩
    | some u =>
      obtain ⟨online, old, buckets, hl, -⟩ := Limiter.checkLimit_maps hu
        (if_neg fun hexpired => hexpired.2 (h.represents.permanent taguuid u hu)) ip isTcp noSSUDP
      exact ⟨online, old, buckets, hl⟩
  obtain ⟨online, old, buckets, hl⟩ := hframe
  refine h.of_eq trivial trivial (by rw [Limiter.step, hl]) (by rw [Limiter.step, hl])
    fun k limit hlimit => ?_
  simp only [step, served] at hlimit
  cases hu : s.limiter.userLimitInfo.lookup taguuid with
  | none =>
    rw [hu] at hlimit
    exact Or.inl hlimit
  | some u =>
    simp only [hu] at hlimit
    split at hlimit
    case h_1 limit' hserved =>
      split_ifs at hserved hlimit
      · exact Or.inl hlimit
      · rw [GoMap.lookup_insert] at hlimit
        split_ifs at hlimit with hk
        · refine Or.inr ⟨u, by rw [hk, hu], ?_⟩
          rw [← h.limitAt_eq hu now, Option.some.inj hserved, Option.some.inj hlimit]
        · exact Or.inl hlimit
    case h_2 => exact Or.inl hlimit

theorem update (h : s.Current tag) {added deleted : List UserInfo}
    (hadded : ∀ u ∈ added, IsLimit u.speedLimit)
    (hok : s.limiter.Replaces tag (.update tag added deleted)) :
    (s.step (.update tag added deleted)).Current tag where
  sound := h.sound.update tag hadded deleted
  represents := h.represents.updateUser added deleted
  plain := fun k u hu => by
    change (s.limiter.updateUser tag added deleted).userLimitInfo.lookup k = _ at hu
    by_cases hk : ∃ a ∈ added, userTag tag a.uuid = k
    · obtain ⟨a, ha, rfl⟩ := hk
      obtain ⟨w, -, -, hlook⟩ := s.limiter.exists_lookup_updateUser tag deleted ha
      rw [hlook] at hu
      cases hu
      rfl
    · rw [Limiter.lookup_updateUser_of_forall_ne _ _ fun a ha hkey => hk ⟨a, ha, hkey⟩] at hu
      split_ifs at hu
      exact h.plain k u hu
  current := fun k limit v hlimit hv => by
    have hnode : (s.limiter.updateUser tag added deleted).speedLimit = s.limiter.speedLimit :=
      (s.limiter.updateUser_speeds tag added deleted).1
    change (s.limiter.updateUser tag added deleted).userLimitInfo.lookup k = _ at hv
    change limit = smallestNonZero [(s.limiter.updateUser tag added deleted).speedLimit, _, _]
    simp only [step, GoMap.lookup_deleteAll] at hlimit
    split_ifs at hlimit with hdeleted
    -- a user with a bucket is registered, and it has not been deleted
    have hmem : k ∈ s.limiter.userLimitInfo :=
      h.represents.buckets k ((h.sound.mem_iff k).mpr (Finmap.mem_of_lookup_eq_some hlimit))
    obtain ⟨uuid, rfl⟩ := h.represents.keys k hmem
    obtain ⟨u, hu⟩ := Finmap.mem_iff.mp hmem
    have hkept : ¬ ∃ d ∈ deleted, d.uuid = uuid := by
      rintro ⟨d, hd, rfl⟩
      exact hdeleted (List.mem_map.mpr ⟨d, hd, rfl⟩)
    rw [hnode, Limiter.speedLimit_updateUser hok hkept hu hv]
    exact h.current _ limit u hlimit hu

theorem step (h : s.Current tag) {e : LimiterEvent} (he : e.InRange)
    (hok : s.limiter.Replaces tag e) : (s.step e).Current tag := by
  cases e with
  | check now taguuid ip isTcp noSSUDP => exact h.check now taguuid ip isTcp noSSUDP
  | report range ips =>
    have hl := s.limiter.getOnlineDevice_eq range ips
    refine h.of_eq he trivial ?_ ?_ fun k limit => Or.inl
    · rw [Limiter.step, hl]
    · rw [Limiter.step, hl]
  | update t added deleted =>
    obtain rfl : t = tag := hok.1
    exact h.update he hok
  | updateDynamic => exact hok.1.elim
  | addDynamic => exact hok.1.elim
  | setAlive alive => exact h.of_eq he trivial rfl rfl fun k limit => Or.inl

theorem foldl_step (h : s.Current tag) {es : List LimiterEvent}
    (hes : Guarded Limiter.step (fun l e => e.InRange ∧ l.Replaces tag e) s.limiter es) :
    (es.foldl Issued.step s).Current tag := by
  induction es generalizing s with
  | nil => exact h
  | cons e es ih => exact ih (h.step hes.1.1 hes.1.2) hes.2

end Current

end Issued

/-- **The bucket is that of the current limit exactly if the limit has not changed** since the
bucket of the user was made. After any calls, a connection that is accepted gets no bucket if its
limit is zero, and otherwise the one for the smallest non-zero limit of the node, the user and the
dynamic limit that has not ended, provided that this limit is also the one that applied when the
user, since it was last deleted, was first limited. -/
theorem bucket_current_iff (tag : String) (conf : LimitConfig) (users : List UserInfo)
    (aliveList : GoMap ℤ ℤ) (hconf : IsLimit conf.speedLimit)
    (husers : ∀ u ∈ users, IsLimit u.speedLimit) (es : List LimiterEvent)
    (hes : ∀ e ∈ es, e.InRange) (now : ℤ) (taguuid ip : String) (isTcp noSSUDP : Bool)
    (u : UserLimitInfo) :
    let l := es.foldl Limiter.step (newLimiter tag conf users aliveList)
    let issued := (es.foldl Issued.step { limiter := newLimiter tag conf users aliveList }).issued
    l.userLimitInfo.lookup taguuid = some u →
    (l.checkLimit now taguuid ip isTcp noSSUDP).2.2 = false →
    ((l.checkLimit now taguuid ip isTcp noSSUDP).2.1 = speedBucket (l.limitAt u now) ↔
      l.limitAt u now = 0 ∨
        ∀ limit, issued.lookup taguuid = some limit → limit = l.limitAt u now) := by
  intro l issued hu haccept
  have hsound : (es.foldl Issued.step { limiter := newLimiter tag conf users aliveList }).Sound :=
    List.foldlRecOn es _ (Issued.sound_start tag hconf husers aliveList)
      fun s hs e he => hs.step (hes e he)
  have hl : (es.foldl Issued.step { limiter := newLimiter tag conf users aliveList }).limiter = l :=
    Issued.limiter_foldl_step es _
  rw [← hl] at hu haccept ⊢
  exact hsound.checkLimit_eq_speedBucket_iff hu haccept

/-- A user that connects for the second time. -/
theorem bucket_current_iff_second :
    let v : UserInfo := { id := 7, uuid := "a", speedLimit := 10, deviceLimit := 0 }
    let l := [LimiterEvent.check 0 "tag|a" "10.0.0.1" true true].foldl Limiter.step
      (newLimiter "tag" {} [v] ∅)
    (l.checkLimit 1 "tag|a" "10.0.0.1" true true).2.1 = speedBucket (l.limitAt (userEntry v) 1) :=
  (bucket_current_iff "tag" {} _ ∅ (by decide) (by decide) _ (by decide) 1 "tag|a" "10.0.0.1" true
    true _ (by decide +kernel) (by decide +kernel)).mpr (Or.inr (by decide +kernel))

/-- **Without dynamic limits the bucket is that of the current limit**, in every run in which a user
whose limit changes is deleted before it is added. -/
theorem bucket_current_of_static {tag : String} {conf : LimitConfig} {users : List UserInfo}
    {aliveList : GoMap ℤ ℤ} (hconf : IsLimit conf.speedLimit)
    (husers : ∀ u ∈ users, IsLimit u.speedLimit) {es : List LimiterEvent}
    (hes : Guarded Limiter.step (fun l e => e.InRange ∧ l.Replaces tag e)
      (newLimiter tag conf users aliveList) es) {now : ℤ} {taguuid ip : String}
    {isTcp noSSUDP : Bool} {u : UserLimitInfo} :
    let l := es.foldl Limiter.step (newLimiter tag conf users aliveList)
    l.userLimitInfo.lookup taguuid = some u →
    (l.checkLimit now taguuid ip isTcp noSSUDP).2.2 = false →
    (l.checkLimit now taguuid ip isTcp noSSUDP).2.1 = speedBucket (l.limitAt u now) := by
  intro l hu haccept
  have hstart : Issued.Current tag { limiter := newLimiter tag conf users aliveList } := by
    refine ⟨Issued.sound_start tag hconf husers aliveList,
      Limiter.represents_newLimiter tag conf users aliveList, fun k v hv => ?_, nofun⟩
    exact Limiter.dynamicSpeedLimit_newLimiter tag conf users aliveList hv
  have h := hstart.foldl_step hes
  have hl : (es.foldl Issued.step { limiter := newLimiter tag conf users aliveList }).limiter = l :=
    Issued.limiter_foldl_step es _
  rw [← hl] at hu haccept ⊢
  refine (h.sound.checkLimit_eq_speedBucket_iff hu haccept).mpr (Or.inr fun limit hlimit => ?_)
  rw [h.limitAt_eq hu, h.current taguuid limit u hlimit hu]

/-- A user that is deleted and added with another limit. -/
theorem bucket_current_of_static_changed :
    let v : UserInfo := { id := 7, uuid := "a", speedLimit := 10, deviceLimit := 0 }
    let w : UserInfo := { id := 7, uuid := "a", speedLimit := 5, deviceLimit := 0 }
    let l := [LimiterEvent.check 0 "tag|a" "10.0.0.1" true true,
      .update "tag" [w] [v]].foldl Limiter.step (newLimiter "tag" {} [v] ∅)
    (l.checkLimit 1 "tag|a" "10.0.0.1" true true).2.1 =
      speedBucket (l.limitAt (userEntry w) 1) := by
  intro v w
  have hes : Guarded Limiter.step (fun l e => e.InRange ∧ l.Replaces "tag" e)
      (newLimiter "tag" {} [v] ∅)
      [.check 0 "tag|a" "10.0.0.1" true true, .update "tag" [w] [v]] := by
    refine ⟨⟨trivial, trivial, trivial⟩, ⟨by decide, rfl, ?_⟩, trivial⟩
    exact List.forall_mem_singleton.mpr fun _ _ _ => ⟨v, List.mem_singleton.mpr rfl, rfl⟩
  exact bucket_current_of_static (by decide) (by decide) hes (by decide +kernel)
    (by decide +kernel)

/-- **A dynamic limit may have no effect.** A user with the limit 10 connects, gets the dynamic
limit 5, and connects again: the bucket is still the one for 10. Conversely, the bucket of a user
that first connects under a dynamic limit is still the one for that limit when it has ended. -/
theorem bucket_not_current :
    let l := newLimiter "tag" {} [{ id := 7, uuid := "a", speedLimit := 10, deviceLimit := 0 }] ∅
    let set := [LimiterEvent.check 0 "tag|a" "10.0.0.1" true true,
      .updateDynamic "tag" "a" 5 100].foldl Limiter.step l
    let ended := [LimiterEvent.updateDynamic "tag" "a" 5 100,
      .check 0 "tag|a" "10.0.0.1" true true].foldl Limiter.step l
    ((set.checkLimit 1 "tag|a" "10.0.0.1" true true).2 = (some (bucketOf 10), false) ∧
      (set.userLimitInfo.lookup "tag|a").map (fun u => set.limitAt u 1) = some 5) ∧
    ((ended.checkLimit 101 "tag|a" "10.0.0.1" true true).2 = (some (bucketOf 5), false) ∧
      (ended.userLimitInfo.lookup "tag|a").map (fun u => ended.limitAt u 101) = some 10) ∧
    bucketOf 10 ≠ bucketOf 5 := by
  decide +kernel

end Tox.Limit
