import Mathlib
import Tox.Foundation.Run
import Tox.Limiter.Calls

/-!
# The devices of a limiter over whole runs

A limiter is taken through any sequence of calls, beside a ledger (`Ledger`) of the connections that
it has accepted since the last report and of the devices of that report.

* A report is exact (`Ledger.Exact`): its devices are those of the ledger, as long as the users keep
  distinct uids and no dynamic limit is set.
* The addresses of the last report are kept by address alone. An entry that is another user's lets a
  device pass that the device limit should refuse, and the user that connects first uses the entry
  up, so that the other one is refused.
-/

namespace Tox.Limit

open Tox.Foundation Tox.Panel Tox.Format

/-- A limiter with a record of its calls. -/
structure Ledger where
  limiter : Limiter
  /-- The devices with an accepted connection since the last report, by user, without those of users
  that were deleted later. -/
  accepted : List (String × OnlineUser) := []
  /-- The last report. -/
  reported : List OnlineUser := []

namespace Ledger

/-- The ledger of a new limiter. -/
def fresh (tag : String) (conf : LimitConfig) (users : List UserInfo) (aliveList : GoMap ℤ ℤ) :
    Ledger where
  limiter := newLimiter tag conf users aliveList

/-- A call, with its entry in the ledger. -/
def step (s : Ledger) : LimiterEvent → Ledger
  | .check now taguuid ip isTcp noSSUDP =>
    let (l, _, reject) := s.limiter.checkLimit now taguuid ip isTcp noSSUDP
    let device := (s.limiter.userLimitInfo.lookup taguuid).map fun u =>
      (taguuid, (⟨u.uid, trimPrefix ip "::ffff:"⟩ : OnlineUser))
    { s with
      limiter := l
      accepted := if noSSUDP && !reject then device.toList ++ s.accepted else s.accepted }
  | .report range ips =>
    let (l, onlineUser) := s.limiter.getOnlineDevice range ips
    { limiter := l, reported := onlineUser }
  | .update tag added deleted =>
    { s with
      limiter := s.limiter.updateUser tag added deleted
      accepted := s.accepted.filter fun a => a.1 ∉ deleted.map fun u => userTag tag u.uuid }
  | e => { s with limiter := s.limiter.step e }

/-- The ledger records the calls and does not change what they do. -/
theorem limiter_step (s : Ledger) (e : LimiterEvent) : (s.step e).limiter = s.limiter.step e := by
  cases e <;> rfl

/-- The ledgers of the limiters in use. -/
def Reachable (s : Ledger) : Prop :=
  ∃ tag conf users aliveList es, s = List.foldl step (fresh tag conf users aliveList) es

end Ledger

/-! ### Exact reports -/

namespace Limiter

/-- Different users have different uids. -/
def DistinctUids (l : Limiter) : Prop :=
  ∀ k k' u u', l.userLimitInfo.lookup k = some u → l.userLimitInfo.lookup k' = some u' →
    u.uid = u'.uid → k = k'

instance (l : Limiter) : Decidable l.DistinctUids :=
  decidable_of_iff (∀ k ∈ l.userLimitInfo.keys, ∀ k' ∈ l.userLimitInfo.keys,
      (l.userLimitInfo.lookup k).map UserLimitInfo.uid =
        (l.userLimitInfo.lookup k').map UserLimitInfo.uid → k = k') <| by
    constructor
    · intro h k k' u u' hu hu' huid
      refine h k (Finmap.mem_keys.mpr (Finmap.mem_iff.mpr ⟨u, hu⟩)) k'
        (Finmap.mem_keys.mpr (Finmap.mem_iff.mpr ⟨u', hu'⟩)) ?_
      rw [hu, hu', Option.map_some, Option.map_some, huid]
    · intro h k hk k' hk' huid
      obtain ⟨u, hu⟩ := Finmap.mem_iff.mp (Finmap.mem_keys.mp hk)
      obtain ⟨u', hu'⟩ := Finmap.mem_iff.mp (Finmap.mem_keys.mp hk')
      rw [hu, hu', Option.map_some, Option.map_some] at huid
      exact h k k' u u' hu hu' (Option.some.inj huid)

/-- The calls of a limiter without dynamic limits, whose users change by the deltas of
`compareUserList`: an added user is not registered, or it is deleted by the same call. -/
def Regular (l : Limiter) : LimiterEvent → Prop
  | .check .. => True
  | .report .. => True
  | .update tag added deleted =>
    (∀ u ∈ added, l.IsUnknown (userTag tag u.uuid) ∨ ∃ d ∈ deleted, d.uuid = u.uuid) ∧
      (l.updateUser tag added deleted).DistinctUids
  | .updateDynamic .. => False
  | .addDynamic .. => False
  | .setAlive _ => True

instance (l : Limiter) : (e : LimiterEvent) → Decidable (l.Regular e)
  | .check .. => inferInstanceAs (Decidable True)
  | .report .. => inferInstanceAs (Decidable True)
  | .update .. => inferInstanceAs (Decidable (_ ∧ _))
  | .updateDynamic .. => inferInstanceAs (Decidable False)
  | .addDynamic .. => inferInstanceAs (Decidable False)
  | .setAlive _ => inferInstanceAs (Decidable True)

/-- A rejected connection changes nobody's devices. -/
theorem onlineUid_checkLimit_of_reject {l : Limiter} {now : ℤ} {taguuid ip : String}
    {isTcp noSSUDP : Bool} (hreject : (l.checkLimit now taguuid ip isTcp noSSUDP).2.2 = true)
    (k i : String) :
    onlineUid (l.checkLimit now taguuid ip isTcp noSSUDP).1.userOnlineIP k i =
      onlineUid l.userOnlineIP k i := by
  cases hu : l.userLimitInfo.lookup taguuid with
  | none => rw [checkLimit_of_isUnknown hu]
  | some u =>
    cases noSSUDP with
    | false =>
      rw [(checkLimit_udp hu now ip isTcp).1] at hreject
      cases hreject
    | true =>
      obtain ⟨hdecide, hadmission⟩ := checkLimit_device hu now ip isTcp
      rw [hdecide, decide_eq_true_iff] at hreject
      rw [hadmission.online, if_neg fun h => h.2 hreject]

/-- Without a dynamic limit a connection leaves the registered users as they are. -/
theorem userLimitInfo_checkLimit_of_permanent {l : Limiter} {taguuid : String}
    (h : ∀ u, l.userLimitInfo.lookup taguuid = some u → u.expireTime = 0) (now : ℤ) (ip : String)
    (isTcp noSSUDP : Bool) :
    (l.checkLimit now taguuid ip isTcp noSSUDP).1.userLimitInfo = l.userLimitInfo := by
  cases hu : l.userLimitInfo.lookup taguuid with
  | none => rw [checkLimit_of_isUnknown hu]
  | some u =>
    rw [userLimitInfo_checkLimit hu, userSpeedLimit, if_neg fun hexpired => hexpired.2 (h u hu)]

end Limiter

namespace Ledger

/-- The devices online are those of the ledger, each under the uid of its user. -/
structure Exact (s : Ledger) : Prop where
  distinct : s.limiter.DistinctUids
  permanent : ∀ k u, s.limiter.userLimitInfo.lookup k = some u → u.expireTime = 0
  registered : ∀ k i uid, onlineUid s.limiter.userOnlineIP k i = some uid →
    (s.limiter.userLimitInfo.lookup k).map UserLimitInfo.uid = some uid
  online : ∀ k d, onlineUid s.limiter.userOnlineIP k d.ip = some d.uid ↔ (k, d) ∈ s.accepted

namespace Exact

variable {s : Ledger}

/-- A call that changes neither the users nor the devices. -/
theorem of_eq {s' : Ledger} (h : s.Exact)
    (husers : s'.limiter.userLimitInfo = s.limiter.userLimitInfo)
    (honline : ∀ k i, onlineUid s'.limiter.userOnlineIP k i = onlineUid s.limiter.userOnlineIP k i)
    (haccepted : s'.accepted = s.accepted) : s'.Exact where
  distinct := fun k k' u u' => by
    rw [husers]
    exact h.distinct k k' u u'
  permanent := fun k u => by
    rw [husers]
    exact h.permanent k u
  registered := fun k i uid => by
    rw [husers, honline]
    exact h.registered k i uid
  online := fun k d => by
    rw [honline, haccepted]
    exact h.online k d

/-- A device online is under the uid of its user. -/
theorem uid_eq (h : s.Exact) {taguuid : String} {u : UserLimitInfo}
    (hu : s.limiter.userLimitInfo.lookup taguuid = some u) {ip : String} {uid : ℤ}
    (honline : onlineUid s.limiter.userOnlineIP taguuid ip = some uid) : u.uid = uid := by
  have huid := h.registered taguuid ip uid honline
  rw [hu, Option.map_some] at huid
  exact Option.some.inj huid

/-- An accepted device is online under the uid of its user, whether it was before or not. -/
theorem onlineUid_checkLimit (h : s.Exact) {taguuid : String} {u : UserLimitInfo}
    (hu : s.limiter.userLimitInfo.lookup taguuid = some u) (now : ℤ) (ip : String) (isTcp : Bool)
    (haccept : (s.limiter.checkLimit now taguuid ip isTcp true).2.2 = false) (k i : String) :
    onlineUid (s.limiter.checkLimit now taguuid ip isTcp true).1.userOnlineIP k i =
      if k = taguuid ∧ i = trimPrefix ip "::ffff:" then some u.uid
      else onlineUid s.limiter.userOnlineIP k i := by
  obtain ⟨hdecide, hadmission⟩ := Limiter.checkLimit_device hu now ip isTcp
  rw [haccept, eq_comm, decide_eq_false_iff_not] at hdecide
  rw [hadmission.online]
  by_cases hki : k = taguuid ∧ i = trimPrefix ip "::ffff:"
  · obtain ⟨rfl, rfl⟩ := hki
    rw [if_pos ⟨⟨rfl, rfl⟩, hdecide⟩, if_pos ⟨rfl, rfl⟩]
    cases hold : onlineUid s.limiter.userOnlineIP k (trimPrefix ip "::ffff:") with
    | none => rfl
    | some uid => rw [h.uid_eq hu hold, Option.getD_some]
  · rw [if_neg fun hc => hki hc.1, if_neg hki]

/-- An accepted device. -/
theorem check_device (h : s.Exact) {taguuid : String} {u : UserLimitInfo}
    (hu : s.limiter.userLimitInfo.lookup taguuid = some u) (now : ℤ) (ip : String) (isTcp : Bool)
    (haccept : (s.limiter.checkLimit now taguuid ip isTcp true).2.2 = false) :
    (s.step (.check now taguuid ip isTcp true)).Exact := by
  have husers := Limiter.userLimitInfo_checkLimit_of_permanent
    (fun u => h.permanent taguuid u) now ip isTcp true
  have honline := h.onlineUid_checkLimit hu now ip isTcp haccept
  have haccepted : (s.step (.check now taguuid ip isTcp true)).accepted =
      (taguuid, ⟨u.uid, trimPrefix ip "::ffff:"⟩) :: s.accepted := by
    simp only [step, haccept, hu, Option.map_some, Option.toList_some, Bool.not_false,
      Bool.and_self, if_true, List.cons_append, List.nil_append]
  refine ⟨?_, ?_, fun k i uid => ?_, fun k d => ?_⟩
  · intro k k' v v'
    rw [limiter_step, Limiter.step, husers]
    exact h.distinct k k' v v'
  · intro k v
    rw [limiter_step, Limiter.step, husers]
    exact h.permanent k v
  · rw [limiter_step, Limiter.step, husers, honline]
    split_ifs with hki
    · rintro ⟨⟩
      rw [hki.1, hu, Option.map_some]
    · exact h.registered k i uid
  · obtain ⟨uid, i⟩ := d
    rw [limiter_step, Limiter.step, honline, haccepted, List.mem_cons, Prod.mk.injEq,
      OnlineUser.mk.injEq, ← h.online k ⟨uid, i⟩]
    split_ifs with hki
    · constructor
      · rintro ⟨⟩
        exact Or.inl ⟨hki.1, rfl, hki.2⟩
      · rintro (⟨-, rfl, -⟩ | hold)
        · rfl
        · rw [hki.1] at hold
          rw [h.uid_eq hu hold]
    · exact (or_iff_right fun hc => hki ⟨hc.1, hc.2.2⟩).symm

/-- A connection. -/
theorem check (h : s.Exact) (now : ℤ) (taguuid ip : String) (isTcp noSSUDP : Bool) :
    (s.step (.check now taguuid ip isTcp noSSUDP)).Exact := by
  have husers := Limiter.userLimitInfo_checkLimit_of_permanent
    (fun u => h.permanent taguuid u) now ip isTcp noSSUDP
  cases hreject : (s.limiter.checkLimit now taguuid ip isTcp noSSUDP).2.2 with
  | true =>
    refine h.of_eq husers (Limiter.onlineUid_checkLimit_of_reject hreject) ?_
    simp only [step, hreject, Bool.not_true, Bool.and_false, Bool.false_eq_true, if_false]
  | false =>
    cases hu : s.limiter.userLimitInfo.lookup taguuid with
    | none =>
      rw [Limiter.checkLimit_of_isUnknown hu] at hreject
      cases hreject
    | some u =>
      cases noSSUDP with
      | true => exact h.check_device hu now ip isTcp hreject
      | false =>
        refine h.of_eq husers (fun k i => ?_) rfl
        rw [limiter_step, Limiter.step, (Limiter.checkLimit_udp hu now ip isTcp).2.1]

/-- A report: nobody is online after it, and the ledger starts again. -/
theorem report (h : s.Exact) (range : RangeOrder String) (ips : String → RangeOrder String) :
    (s.step (.report range ips)).Exact := by
  have husers :
      (s.limiter.getOnlineDevice range ips).1.userLimitInfo = s.limiter.userLimitInfo := by
    rw [Limiter.getOnlineDevice_eq]
  have hoff (k i : String) := s.limiter.onlineUid_getOnlineDevice range ips k i
  refine ⟨?_, ?_, fun k i uid honline => ?_, fun k d => ?_⟩
  · intro k k' u u'
    rw [limiter_step, Limiter.step, husers]
    exact h.distinct k k' u u'
  · intro k u
    rw [limiter_step, Limiter.step, husers]
    exact h.permanent k u
  · rw [limiter_step, Limiter.step, hoff] at honline
    cases honline
  · rw [limiter_step, Limiter.step, hoff]
    exact iff_of_false nofun List.not_mem_nil

/-- A change of the users by a delta: the users that stay keep their entries. -/
theorem update (h : s.Exact) {tag : String} {added deleted : List UserInfo}
    (hok : s.limiter.Regular (.update tag added deleted)) :
    (s.step (.update tag added deleted)).Exact := by
  obtain ⟨hadded, hdistinct⟩ := hok
  have honline := s.limiter.onlineUid_updateUser tag added deleted
  refine ⟨hdistinct, fun k u hu => ?_, fun k i uid => ?_, fun k d => ?_⟩
  · rw [limiter_step, Limiter.step] at hu
    by_cases hk : ∃ v ∈ added, userTag tag v.uuid = k
    · obtain ⟨v, hv, rfl⟩ := hk
      obtain ⟨w, -, -, hlook⟩ := s.limiter.exists_lookup_updateUser tag deleted hv
      rw [hlook] at hu
      cases hu
      rfl
    · rw [Limiter.lookup_updateUser_of_forall_ne _ _ fun v hv hkey => hk ⟨v, hv, hkey⟩] at hu
      split_ifs at hu
      exact h.permanent k u hu
  · rw [limiter_step, Limiter.step, honline]
    split_ifs with hk
    · intro hsome
      cases hsome
    · intro hon
      have huid := h.registered k i uid hon
      rw [Limiter.lookup_updateUser_of_forall_ne, if_neg hk]
      · exact huid
      -- an added user is not online: it is new, or it is deleted first
      · rintro v hv rfl
        rcases hadded v hv with hunknown | ⟨d, hd, huuid⟩
        · rw [Limiter.IsUnknown] at hunknown
          rw [hunknown] at huid
          cases huid
        · exact hk (List.mem_map.mpr ⟨d, hd, by rw [huuid]⟩)
  · rw [limiter_step, Limiter.step, honline]
    simp only [step, List.mem_filter, decide_eq_true_eq]
    rw [← h.online k d]
    split_ifs with hk
    · exact iff_of_false (fun hsome => by cases hsome) fun hc => hc.2 hk
    · exact (and_iff_left hk).symm

/-- **One call** keeps the ledger exact. -/
theorem step (h : s.Exact) (e : LimiterEvent) (hok : s.limiter.Regular e) : (s.step e).Exact := by
  cases e with
  | check now taguuid ip isTcp noSSUDP => exact h.check now taguuid ip isTcp noSSUDP
  | report range ips => exact h.report range ips
  | update tag added deleted => exact h.update hok
  | updateDynamic tag uuid limit expire => exact hok.elim
  | addDynamic now tag userInfo limitNum expire => exact hok.elim
  | setAlive alive => exact h.of_eq rfl (fun _ _ => rfl) rfl

theorem fresh {tag : String} {conf : LimitConfig} {users : List UserInfo} {aliveList : GoMap ℤ ℤ}
    (h : (newLimiter tag conf users aliveList).DistinctUids) :
    (Ledger.fresh tag conf users aliveList).Exact := by
  have hoff (k i : String) :
      onlineUid (Ledger.fresh tag conf users aliveList).limiter.userOnlineIP k i = none :=
    onlineUid_empty k i
  refine ⟨h, fun k u hu => ?_, fun k i uid honline => ?_, fun k d => ?_⟩
  · have hlook : (newLimiter tag conf users aliveList).userLimitInfo.lookup k = some u := hu
    by_cases hk : ∃ v ∈ users, userTag tag v.uuid = k
    · obtain ⟨v, hv, rfl⟩ := hk
      obtain ⟨w, -, -, hw⟩ := GoMap.exists_lookup_storeAll (fun u => userTag tag u.uuid) userEntry
        hv (∅ : GoMap String UserLimitInfo)
      obtain rfl : userEntry w = u := Option.some.inj (hw.symm.trans hlook)
      rfl
    · have hnone : (newLimiter tag conf users aliveList).userLimitInfo.lookup k = none :=
        (GoMap.lookup_storeAll_of_forall_ne _ _ (fun v hv hkey => hk ⟨v, hv, hkey⟩) _).trans
          (Finmap.lookup_empty _)
      rw [hnone] at hlook
      cases hlook
  · rw [hoff] at honline
    cases honline
  · rw [hoff]
    exact iff_of_false nofun List.not_mem_nil

/-- What a report returns. -/
theorem getOnlineDevice (h : s.Exact) (range : RangeOrder String)
    (ips : String → RangeOrder String) :
    (s.limiter.getOnlineDevice range ips).2.Nodup ∧
      ∀ d, d ∈ (s.limiter.getOnlineDevice range ips).2 ↔ ∃ k, (k, d) ∈ s.accepted := by
  refine ⟨Limiter.nodup_getOnlineDevice range ips fun k k' i uid hk hk' => ?_, fun d => ?_⟩
  · obtain ⟨u, hu, huid⟩ := Option.map_eq_some_iff.mp (h.registered k i uid hk)
    obtain ⟨u', hu', huid'⟩ := Option.map_eq_some_iff.mp (h.registered k' i uid hk')
    exact h.distinct k k' u u' hu hu' (huid.trans huid'.symm)
  · rw [Limiter.mem_getOnlineDevice_iff]
    exact exists_congr fun k => h.online k d

end Exact

end Ledger

/-- **Reports are exact.** In a run of connections, reports and changes of the users, every report
returns the devices with an accepted connection since the report before, without those of users that
were deleted later, and none of them twice. A rejected connection does not change what a report
returns. -/
theorem getOnlineDevice_exact (tag : String) (conf : LimitConfig) (users : List UserInfo)
    (aliveList : GoMap ℤ ℤ) (hdistinct : (newLimiter tag conf users aliveList).DistinctUids)
    {es : List LimiterEvent}
    (hes : Guarded Ledger.step (fun s e => s.limiter.Regular e)
      (Ledger.fresh tag conf users aliveList) es) :
    (∀ p range ips q, es = p ++ .report range ips :: q →
      let s := p.foldl Ledger.step (Ledger.fresh tag conf users aliveList)
      (s.limiter.getOnlineDevice range ips).2.Nodup ∧
        ∀ d, d ∈ (s.limiter.getOnlineDevice range ips).2 ↔ ∃ k, (k, d) ∈ s.accepted) ∧
    (∀ p now taguuid ip isTcp noSSUDP q, es = p ++ .check now taguuid ip isTcp noSSUDP :: q →
      let s := p.foldl Ledger.step (Ledger.fresh tag conf users aliveList)
      (s.limiter.checkLimit now taguuid ip isTcp noSSUDP).2.2 = true →
        ∀ range ips d,
          d ∈ ((s.limiter.checkLimit now taguuid ip isTcp noSSUDP).1.getOnlineDevice range ips).2 ↔
            d ∈ (s.limiter.getOnlineDevice range ips).2) := by
  refine ⟨fun p range ips q hp => ?_, fun p now taguuid ip isTcp noSSUDP q _ => ?_⟩
  · have hexact := Guarded.invariant (fun s e (h : s.Exact) => h.step e)
      (Ledger.Exact.fresh hdistinct) (hp ▸ hes).of_append
    exact hexact.getOnlineDevice range ips
  · intro s hreject range ips d
    rw [Limiter.mem_getOnlineDevice_iff, Limiter.mem_getOnlineDevice_iff]
    simp only [Limiter.onlineUid_checkLimit_of_reject hreject]

/-- Two users of a node with room for one device each. -/
def sampleUsers : List UserInfo := [⟨1, "a", 0, 1⟩, ⟨2, "b", 0, 1⟩]

/-- A connection that counts as a device. -/
def connect (uuid ip : String) : LimiterEvent := .check 0 (userTag "n" uuid) ip true true

/-- Both users connect from one address, and the second one is deleted. -/
def deletedUser : List LimiterEvent :=
  [connect "a" "::ffff:1.1.1.1", connect "b" "1.1.1.1", .update "n" [] [⟨2, "b", 0, 1⟩]]

/-- The report that follows. -/
def deletedUserReport : List OnlineUser :=
  ((deletedUser.foldl Ledger.step (Ledger.fresh "n" {} sampleUsers ∅)).limiter.getOnlineDevice
    .ascending fun _ => .ascending).2

/-- The report has the device of the first user only, and once. -/
theorem deletedUserReport_exact :
    deletedUserReport.Nodup ∧ ∀ d, d ∈ deletedUserReport ↔ d = ⟨1, "1.1.1.1"⟩ := by
  have hes : Guarded Ledger.step (fun s e => s.limiter.Regular e)
      (Ledger.fresh "n" {} sampleUsers ∅)
      (deletedUser ++ [.report .ascending fun _ => .ascending]) := by decide
  obtain ⟨hnodup, hmem⟩ := (getOnlineDevice_exact "n" {} sampleUsers ∅ (by decide) hes).1
    deletedUser .ascending (fun _ => .ascending) [] rfl
  have haccepted : (deletedUser.foldl Ledger.step (Ledger.fresh "n" {} sampleUsers ∅)).accepted =
      [(userTag "n" "a", ⟨1, "1.1.1.1"⟩)] := by decide
  refine ⟨hnodup, fun d => (hmem d).trans ?_⟩
  rw [haccepted]
  simp

/-! ### The entries of the last report -/

namespace Limiter

/-- A connection uses up at most one entry of the last report. -/
theorem lookup_oldUserOnline_checkLimit {l : Limiter} {now : ℤ} {taguuid ip : String}
    {isTcp noSSUDP : Bool} {i : String} {uid : ℤ}
    (h : (l.checkLimit now taguuid ip isTcp noSSUDP).1.oldUserOnline.lookup i = some uid) :
    l.oldUserOnline.lookup i = some uid := by
  cases hu : l.userLimitInfo.lookup taguuid with
  | none =>
    rw [checkLimit_of_isUnknown hu] at h
    exact h
  | some u =>
    cases noSSUDP with
    | false =>
      rw [(checkLimit_udp hu now ip isTcp).2.2.1] at h
      exact h
    | true =>
      rw [(checkLimit_device hu now ip isTcp).2.old] at h
      split_ifs at h
      · rw [GoMap.lookup_erase] at h
        split_ifs at h
        exact h
      · exact h

end Limiter

namespace Ledger

/-- The entries of the last report are devices of that report. -/
def Carried (s : Ledger) : Prop :=
  ∀ i uid, s.limiter.oldUserOnline.lookup i = some uid → ⟨uid, i⟩ ∈ s.reported

theorem Carried.step {s : Ledger} (h : s.Carried) (e : LimiterEvent) : (s.step e).Carried := by
  intro i uid hlook
  rw [limiter_step] at hlook
  cases e with
  | check now taguuid ip isTcp noSSUDP =>
    exact h i uid (Limiter.lookup_oldUserOnline_checkLimit hlook)
  | report range ips => exact Limiter.mem_of_lookup_getOnlineDevice hlook
  | update tag added deleted =>
    rw [Limiter.step, (s.limiter.updateUser_devices tag added deleted).2.2] at hlook
    exact h i uid hlook
  | updateDynamic tag uuid limit expire =>
    rw [Limiter.step, Limiter.updateDynamicSpeedLimit] at hlook
    split at hlook <;> exact h i uid hlook
  | addDynamic now tag userInfo limitNum expire => exact h i uid hlook
  | setAlive alive => exact h i uid hlook

theorem Reachable.carried {s : Ledger} (hs : s.Reachable) : s.Carried := by
  obtain ⟨tag, conf, users, aliveList, es, rfl⟩ := hs
  refine List.foldlRecOn es Ledger.step ?_ fun s hs e _ => Carried.step hs e
  intro i uid hlook
  have hempty : (fresh tag conf users aliveList).limiter.oldUserOnline.lookup i = none :=
    Finmap.lookup_empty i
  rw [hempty] at hlook
  cases hlook

end Ledger

/-- **The device limit.** A new device of a user that has reached its limit, not reported for the
user, is rejected if and only if the last report has left no entry of another user for its address.
An entry that lets it pass is that of another user who was reported with the address. -/
theorem checkLimit_new_rejected_iff {s : Ledger} (hs : s.Reachable) {taguuid : String}
    {u : UserLimitInfo} (hu : s.limiter.userLimitInfo.lookup taguuid = some u)
    (hfull : s.limiter.Full u.uid u.deviceLimit) {ip : String}
    (hnew : onlineUid s.limiter.userOnlineIP taguuid (trimPrefix ip "::ffff:") = none)
    (hreported : ⟨u.uid, trimPrefix ip "::ffff:"⟩ ∉ s.reported) (now : ℤ) (isTcp : Bool) :
    ((s.limiter.checkLimit now taguuid ip isTcp true).2.2 = true ↔
      ¬ ∃ uid, uid ≠ u.uid ∧
        s.limiter.oldUserOnline.lookup (trimPrefix ip "::ffff:") = some uid) ∧
    ∀ uid, s.limiter.oldUserOnline.lookup (trimPrefix ip "::ffff:") = some uid →
      uid ≠ u.uid ∧ ⟨uid, trimPrefix ip "::ffff:"⟩ ∈ s.reported := by
  have hentry (uid : ℤ) (hlook : s.limiter.oldUserOnline.lookup (trimPrefix ip "::ffff:") =
      some uid) : uid ≠ u.uid ∧ ⟨uid, trimPrefix ip "::ffff:"⟩ ∈ s.reported := by
    have hmem := hs.carried _ _ hlook
    exact ⟨fun huid => hreported (huid ▸ hmem), hmem⟩
  refine ⟨?_, hentry⟩
  rw [(Limiter.checkLimit_device hu now ip isTcp).1, decide_eq_true_iff]
  constructor
  · rintro ⟨-, hold, -⟩ ⟨uid, -, hlook⟩
    rw [hold] at hlook
    cases hlook
  · intro hnone
    refine ⟨hnew, ?_, hfull⟩
    cases hlook : s.limiter.oldUserOnline.lookup (trimPrefix ip "::ffff:") with
    | none => rfl
    | some uid => exact (hnone ⟨uid, (hentry uid hlook).1, hlook⟩).elim

/-- The second user has been reported with an address, and the panel then counts one device of the
first user elsewhere. -/
def sharedAddress : Ledger :=
  List.foldl Ledger.step (Ledger.fresh "n" {} sampleUsers ∅)
    [connect "b" "1.1.1.1", .report .ascending fun _ => .ascending,
      .setAlive (Finmap.singleton 1 1)]

/-- The first user is rejected from an address that nobody was reported with. -/
theorem sharedAddress_rejects :
    (sharedAddress.limiter.checkLimit 0 (userTag "n" "a") "2.2.2.2" true true).2.2 = true := by
  have hnone :
      sharedAddress.limiter.oldUserOnline.lookup (trimPrefix "2.2.2.2" "::ffff:") = none := by
    decide
  refine (checkLimit_new_rejected_iff (u := { uid := 1, deviceLimit := 1 }) ⟨_, _, _, _, _, rfl⟩
    (by decide) (by decide) (by decide) (by decide) 0 true).1.mpr ?_
  rintro ⟨uid, -, hlook⟩
  cases hnone.symm.trans hlook

/-- The first user is accepted from the address of the second one. -/
theorem sharedAddress_accepts :
    sharedAddress.Reachable ∧
    sharedAddress.limiter.userLimitInfo.lookup (userTag "n" "a") =
      some { uid := 1, deviceLimit := 1 } ∧
    sharedAddress.limiter.Full 1 1 ∧
    onlineUid sharedAddress.limiter.userOnlineIP (userTag "n" "a") "1.1.1.1" = none ∧
    ⟨1, "1.1.1.1"⟩ ∉ sharedAddress.reported ∧
    (sharedAddress.limiter.checkLimit 0 (userTag "n" "a") "1.1.1.1" true true).2.2 = false :=
  ⟨⟨_, _, _, _, _, rfl⟩, by decide, by decide, by decide, by decide, by decide⟩

/-! ### A device that stays online -/

/-- The calls between two reports that neither delete nor replace the user. -/
def LimiterEvent.Keeps (taguuid : String) : LimiterEvent → Prop
  | .check .. => True
  | .report .. => False
  | .update tag added deleted => ∀ u ∈ added ++ deleted, userTag tag u.uuid ≠ taguuid
  | .updateDynamic .. => False
  | .addDynamic .. => False
  | .setAlive _ => False

namespace Limiter

/-- The call does not use up the entry of the last report that the user needs: it is not a
connection of another user, with the uid of the entry and not yet online from the address, while the
user has reached its limit and is not yet online from there. -/
def Spares (l : Limiter) (taguuid : String) (u : UserLimitInfo) (ip : String) :
    LimiterEvent → Prop
  | .check _ k ip' _ noSSUDP =>
    ¬ (noSSUDP = true ∧ trimPrefix ip' "::ffff:" = ip ∧ k ≠ taguuid ∧
      (∃ v ∈ l.userLimitInfo.lookup k, l.oldUserOnline.lookup ip = some v.uid) ∧
      onlineUid l.userOnlineIP k ip = none ∧
      onlineUid l.userOnlineIP taguuid ip = none ∧ l.Full u.uid u.deviceLimit)
  | _ => True

instance (l : Limiter) (taguuid : String) (u : UserLimitInfo) (ip : String) :
    (e : LimiterEvent) → Decidable (l.Spares taguuid u ip e)
  | .check .. => inferInstanceAs (Decidable (¬ _))
  | .report .. => inferInstanceAs (Decidable True)
  | .update .. => inferInstanceAs (Decidable True)
  | .updateDynamic .. => inferInstanceAs (Decidable True)
  | .addDynamic .. => inferInstanceAs (Decidable True)
  | .setAlive _ => inferInstanceAs (Decidable True)

theorem aliveList_checkLimit (l : Limiter) (now : ℤ) (k ip : String) (isTcp noSSUDP : Bool) :
    (l.checkLimit now k ip isTcp noSSUDP).1.aliveList = l.aliveList := by
  cases hv : l.userLimitInfo.lookup k with
  | none => rw [checkLimit_of_isUnknown hv]
  | some v =>
    cases noSSUDP with
    | false => exact (checkLimit_udp hv now ip isTcp).2.2.2
    | true => exact (checkLimit_device hv now ip isTcp).2.aliveList

variable {l : Limiter} {taguuid ip : String} {u : UserLimitInfo}

/-- A connection leaves the entry of a user without a dynamic limit as it is. -/
theorem lookup_userLimitInfo_checkLimit (hu : l.userLimitInfo.lookup taguuid = some u)
    (hpermanent : u.expireTime = 0) (now : ℤ) (k ip : String) (isTcp noSSUDP : Bool) :
    (l.checkLimit now k ip isTcp noSSUDP).1.userLimitInfo.lookup taguuid = some u := by
  by_cases hk : taguuid = k
  · subst hk
    rw [userLimitInfo_checkLimit_of_permanent, hu]
    intro v hv
    obtain rfl : u = v := Option.some.inj (hu.symm.trans hv)
    exact hpermanent
  · cases hv : l.userLimitInfo.lookup k with
    | none => rw [checkLimit_of_isUnknown hv, hu]
    | some v =>
      rw [userLimitInfo_checkLimit hv, userSpeedLimit]
      split_ifs
      · rw [GoMap.lookup_insert, if_neg hk, hu]
      · rw [GoMap.lookup_erase, if_neg hk, hu]
      · exact hu

/-- A connection makes a user that is accepted from an address refused there exactly if it does not
spare the entry of the last report. -/
theorem refuses_checkLimit_iff (hnot : ¬ l.Refuses taguuid ip u.uid u.deviceLimit) (now : ℤ)
    (k ip' : String) (isTcp noSSUDP : Bool) :
    (l.checkLimit now k ip' isTcp noSSUDP).1.Refuses taguuid ip u.uid u.deviceLimit ↔
      ¬ l.Spares taguuid u ip (.check now k ip' isTcp noSSUDP) := by
  have halive := l.aliveList_checkLimit now k ip' isTcp noSSUDP
  rw [Refuses, Full, halive, Spares, not_not]
  cases hv : l.userLimitInfo.lookup k with
  | none =>
    rw [checkLimit_of_isUnknown hv]
    refine iff_of_false hnot ?_
    rintro ⟨-, -, -, ⟨v, hsome, -⟩, -⟩
    cases hsome
  | some v =>
    cases noSSUDP with
    | false =>
      obtain ⟨-, honline, hold, -⟩ := checkLimit_udp hv now ip' isTcp
      rw [honline, hold]
      exact iff_of_false hnot fun h => Bool.false_ne_true h.1
    | true =>
      obtain ⟨honline, hold, -⟩ := (checkLimit_device hv now ip' isTcp).2
      rw [honline, hold]
      constructor
      · rintro ⟨hoff', hold', hfull⟩
        have hoff : onlineUid l.userOnlineIP taguuid ip = none := by
          split_ifs at hoff'
          exact hoff'
        -- the entry of the address was there, and the connection has used it up
        have hentry : l.oldUserOnline.lookup ip ≠ none := fun h => hnot ⟨hoff, h, hfull⟩
        split_ifs at hold' with hused
        · rw [GoMap.lookup_erase] at hold'
          split_ifs at hold' with hip
          · subst hip
            refine ⟨rfl, rfl, ?_, ⟨v, rfl, hused.2⟩, hused.1, hoff, hfull⟩
            rintro rfl
            rw [if_pos ⟨⟨rfl, rfl⟩, fun hrefuses => hentry hrefuses.2.1⟩] at hoff'
            cases hoff'
          · exact (hentry hold').elim
        · exact (hentry hold').elim
      · rintro ⟨-, rfl, hk, ⟨w, hw, hentry⟩, hoffk, hoff, hfull⟩
        obtain rfl : v = w := Option.some.inj hw
        refine ⟨?_, ?_, hfull⟩
        · rw [if_neg fun h => hk h.1.1.symm, hoff]
        · rw [if_pos ⟨hoffk, hentry⟩, GoMap.lookup_erase, if_pos rfl]

/-- A change of other users leaves the user as it is, and does not make it refused. -/
theorem lookup_and_not_refuses_updateUser (hu : l.userLimitInfo.lookup taguuid = some u)
    (hnot : ¬ l.Refuses taguuid ip u.uid u.deviceLimit) {tag : String}
    {added deleted : List UserInfo}
    (hkeeps : (LimiterEvent.update tag added deleted).Keeps taguuid) :
    (l.updateUser tag added deleted).userLimitInfo.lookup taguuid = some u ∧
      ¬ (l.updateUser tag added deleted).Refuses taguuid ip u.uid u.deviceLimit := by
  have hkept : taguuid ∉ deleted.map fun v => userTag tag v.uuid := fun hmem => by
    obtain ⟨v, hv, hkey⟩ := List.mem_map.mp hmem
    exact hkeeps v (List.mem_append_right added hv) hkey
  obtain ⟨-, halive, hold⟩ := l.updateUser_devices tag added deleted
  constructor
  · rw [lookup_updateUser_of_forall_ne l deleted fun v hv => hkeeps v (List.mem_append_left _ hv),
      if_neg hkept, hu]
  · rintro ⟨hoff, hentry, hlimit, hcount⟩
    rw [onlineUid_updateUser, if_neg hkept] at hoff
    rw [hold] at hentry
    refine hnot ⟨hoff, hentry, hlimit, ?_⟩
    -- a count that is gone would be zero, below the limit
    rw [halive, GoMap.getD, GoMap.lookup_deleteAll] at hcount
    split_ifs at hcount
    · exact absurd hcount (not_le.mpr hlimit)
    · exact hcount

end Limiter

/-- **A device that stays online.** After a report with the device of a user, and until the next
one, the user is accepted from the address at any time if and only if no connection of another user
uses up the entry of the address that the user needs. -/
theorem checkLimit_reported_accepted_iff (l : Limiter) (range : RangeOrder String)
    (ips : String → RangeOrder String) {taguuid ip : String} {u : UserLimitInfo}
    (hu : l.userLimitInfo.lookup taguuid = some u) (hpermanent : u.expireTime = 0)
    (hreported : ⟨u.uid, ip⟩ ∈ (l.getOnlineDevice range ips).2) {es : List LimiterEvent}
    (hes : ∀ e ∈ es, e.Keeps taguuid) :
    (∀ p q, es = p ++ q → ∀ now ip' isTcp, trimPrefix ip' "::ffff:" = ip →
      ((p.foldl Limiter.step (l.getOnlineDevice range ips).1).checkLimit now taguuid ip' isTcp
        true).2.2 = false) ↔
    Guarded Limiter.step (fun l e => l.Spares taguuid u ip e)
      (l.getOnlineDevice range ips).1 es := by
  have hsafe (l : Limiter) (hl : l.userLimitInfo.lookup taguuid = some u ∧
      ¬ l.Refuses taguuid ip u.uid u.deviceLimit) (now : ℤ) (ip' : String) (isTcp : Bool)
      (hip : trimPrefix ip' "::ffff:" = ip) :
      (l.checkLimit now taguuid ip' isTcp true).2.2 = false := by
    rw [(Limiter.checkLimit_device hl.1 now ip' isTcp).1, hip]
    exact decide_eq_false hl.2
  refine (Guarded.iff_forall_safe hsafe ?_ ?_ ⟨?_, ?_⟩).symm
  · rintro l e he ⟨hlook, hnot⟩ hok
    cases e with
    | check now k ip' isTcp noSSUDP =>
      refine ⟨Limiter.lookup_userLimitInfo_checkLimit hlook hpermanent now k ip' isTcp noSSUDP, ?_⟩
      exact fun hrefuses =>
        (Limiter.refuses_checkLimit_iff hnot now k ip' isTcp noSSUDP).mp hrefuses hok
    | update tag added deleted =>
      exact Limiter.lookup_and_not_refuses_updateUser hlook hnot (hes _ he)
    | report range ips => exact (hes _ he).elim
    | updateDynamic tag uuid limit expire => exact (hes _ he).elim
    | addDynamic now tag userInfo limitNum expire => exact (hes _ he).elim
    | setAlive alive => exact (hes _ he).elim
  · rintro l e - ⟨hlook, hnot⟩ hbad haccepted
    cases e with
    | check now k ip' isTcp noSSUDP =>
      have hlook' :=
        Limiter.lookup_userLimitInfo_checkLimit hlook hpermanent now k ip' isTcp noSSUDP
      have hrefuses := (Limiter.refuses_checkLimit_iff hnot now k ip' isTcp noSSUDP).mpr hbad
      have hip : trimPrefix ip' "::ffff:" = ip := (not_not.mp hbad).2.1
      have haccept := haccepted now ip' isTcp hip
      rw [Limiter.step, (Limiter.checkLimit_device hlook' now ip' isTcp).1, hip] at haccept
      exact of_decide_eq_false haccept hrefuses
    | _ => exact hbad trivial
  · rw [Limiter.getOnlineDevice_eq]
    exact hu
  · rintro ⟨-, hold, -⟩
    obtain ⟨uid, hlook⟩ := Limiter.exists_lookup_getOnlineDevice hreported
    rw [hold] at hlook
    cases hlook

/-- Both users are online from one address, and the panel counts one device of each. -/
def sharedOnline : Limiter :=
  [connect "a" "1.1.1.1", connect "b" "1.1.1.1",
    .setAlive ((Finmap.singleton 1 1).insert 2 1)].foldl Limiter.step
    (newLimiter "n" {} sampleUsers ∅)

/-- After the report the first user connects, then the second one: the first one is accepted
again. -/
theorem sharedOnline_first_accepted :
    (([connect "a" "1.1.1.1", connect "b" "1.1.1.1"].foldl Limiter.step
      (sharedOnline.getOnlineDevice .ascending fun _ => .ascending).1).checkLimit 0
        (userTag "n" "a") "1.1.1.1" true true).2.2 = false := by
  have hreported : ⟨1, "1.1.1.1"⟩ ∈
      (sharedOnline.getOnlineDevice .ascending fun _ => .ascending).2 := by decide
  have hkeeps : ∀ e ∈ [connect "a" "1.1.1.1", connect "b" "1.1.1.1"],
      e.Keeps (userTag "n" "a") := by simp [connect, LimiterEvent.Keeps]
  exact (checkLimit_reported_accepted_iff sharedOnline .ascending (fun _ => .ascending)
    (u := { uid := 1, deviceLimit := 1 }) (by decide) rfl hreported hkeeps).mpr (by decide) _ [] rfl
      0 _ _ (by decide)

/-- After the report the second user connects, and the first one is locked out. -/
theorem sharedOnline_first_rejected :
    ⟨1, "1.1.1.1"⟩ ∈ (sharedOnline.getOnlineDevice .ascending fun _ => .ascending).2 ∧
    (([connect "b" "1.1.1.1"].foldl Limiter.step
      (sharedOnline.getOnlineDevice .ascending fun _ => .ascending).1).checkLimit 0
        (userTag "n" "a") "1.1.1.1" true true).2.2 = true :=
  ⟨by decide, by decide⟩

end Tox.Limit
