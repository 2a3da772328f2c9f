import Tox.Node.Controller

/-!
# Following the user list

Between reloads a tick passes the difference of the old and the new user list to the core and to
the limiter. The difference is computed from `userKey`, which leaves out the id and the device
limit of a user and does not separate the uuid from the speed limit. This file says what follows.

* The limiter agrees with the new list after a tick exactly if `SyncExact` holds of the two lists
  (`limiter_agrees_sync_iff`).
* The core has the users of the new list after a tick if the keys tell the users apart by their
  uuids (`uuids_compareUserList`).
* For uuids of one length the difference is the one of the uuids with their speed limits
  (`compareUserList_exact`).
-/

namespace Tox.Node

open Tox.Foundation Tox.Core Tox.Format Tox.Limit Tox.Panel

/-- No uuid occurs twice in the list. -/
def DistinctUuids (users : List UserInfo) : Prop := (users.map UserInfo.uuid).Nodup

theorem DistinctUuids.nodup {users : List UserInfo} (h : DistinctUuids users) : users.Nodup :=
  List.Nodup.of_map _ h

theorem DistinctUuids.eq_of_uuid_eq {users : List UserInfo} (h : DistinctUuids users)
    {u v : UserInfo} (hu : u ∈ users) (hv : v ∈ users) (huv : u.uuid = v.uuid) : u = v :=
  List.inj_on_of_nodup_map h hu hv huv

/-! ### The limiter -/

/-- The two conditions under which the difference of the lists brings a limiter from the old to the
new list: a new user that is not added is in the old list as it is, and an old user whose uuid is
not in the new list is deleted. A new user is not added if it is the first one with its key and an
old user has the key; an old user is deleted if it is the last one with its key and no new user has
the key. -/
def SyncExact (old new : List UserInfo) : Prop :=
  (∀ n ∈ new, firstWith new (userKey n) = some n → lastWith old (userKey n) ≠ none → n ∈ old) ∧
    ∀ u ∈ old, (∀ n ∈ new, n.uuid ≠ u.uuid) →
      lastWith old (userKey u) = some u ∧ ∀ n ∈ new, userKey n ≠ userKey u

section Limiter

variable {l : Limiter} {tag : String} {old new : List UserInfo} {range : RangeOrder String}

theorem mem_of_mem_added (hnew : DistinctUuids new) {u : UserInfo}
    (hu : u ∈ (compareUserList range old new).2) : u ∈ new :=
  ((mem_added_iff hnew.nodup).mp hu).1

theorem mem_of_mem_deleted {u : UserInfo} (hu : u ∈ (compareUserList range old new).1) :
    u ∈ old :=
  mem_of_lastWith (mem_deleted_iff.mp hu).1

theorem syncExact_of_agrees (hold : l.Agrees tag old) (hnew : DistinctUuids new)
    (h : (l.updateUser tag (compareUserList range old new).2
      (compareUserList range old new).1).Agrees tag new) : SyncExact old new := by
  refine ⟨fun n hn hfirst hlast => ?_, fun u hu hfresh => ?_⟩
  · -- `n` is not added, so its entry is the one of an old user
    have hadded : ∀ v ∈ (compareUserList range old new).2, v.uuid ≠ n.uuid := by
      intro v hv hvn
      obtain rfl := hnew.eq_of_uuid_eq (mem_of_mem_added hnew hv) hn hvn
      exact ((mem_added_iff hnew.nodup).mp hv).2.elim hlast (· hfirst)
    obtain ⟨info, hinfo, hmatch⟩ := h.1 n hn
    rw [Limiter.lookup_updateUser_of_uuid l _ hadded] at hinfo
    split_ifs at hinfo
    obtain ⟨u, hu, huuid⟩ : ∃ u ∈ old, u.uuid = n.uuid := by
      by_contra hnone
      rw [(hold.isUnknown_iff n.uuid).mpr fun u hu huuid => hnone ⟨u, hu, huuid⟩] at hinfo
      cases hinfo
    obtain ⟨info', hinfo', hmatch'⟩ := hold.1 u hu
    rw [huuid, hinfo] at hinfo'
    cases hinfo'
    exact hmatch.eq_of_uuid_eq hmatch' huuid.symm ▸ hu
  · have hadded : ∀ v ∈ (compareUserList range old new).2, v.uuid ≠ u.uuid := fun v hv =>
      hfresh v (mem_of_mem_added hnew hv)
    have hnone := (h.isUnknown_iff u.uuid).mpr hfresh
    rw [Limiter.IsUnknown, Limiter.lookup_updateUser_of_uuid l _ hadded] at hnone
    split_ifs at hnone with hdeleted
    · obtain ⟨d, hd, hduuid⟩ := hdeleted
      obtain rfl := hold.consistentUsers d (mem_of_mem_deleted hd) u hu hduuid
      exact mem_deleted_iff.mp hd
    · obtain ⟨info, hinfo, -⟩ := hold.1 u hu
      rw [hinfo] at hnone
      cases hnone

theorem agrees_of_syncExact (hold : l.Agrees tag old) (hnew : DistinctUuids new)
    (h : SyncExact old new) : (l.updateUser tag (compareUserList range old new).2
      (compareUserList range old new).1).Agrees tag new := by
  obtain ⟨hkept, hgone⟩ := h
  refine ⟨fun n hn => ?_, fun k hk => ?_⟩
  · by_cases hadded : n ∈ (compareUserList range old new).2
    · obtain ⟨v, hv, hvn, hlook⟩ := Limiter.exists_lookup_updateUser l tag
        (compareUserList range old new).1 hadded
      obtain rfl := hnew.eq_of_uuid_eq (mem_of_mem_added hnew hv) hn hvn
      exact ⟨userEntry v, hlook, userEntry_matches v⟩
    · -- a user that is not added is in the old list, and it is not deleted
      have hcond : ¬ (lastWith old (userKey n) = none ∨ firstWith new (userKey n) ≠ some n) :=
        fun hor => hadded ((mem_added_iff hnew.nodup).mpr ⟨hn, hor⟩)
      rw [not_or, ne_eq, not_not] at hcond
      have hmem : n ∈ old := hkept n hn hcond.2 hcond.1
      have hne : ∀ v ∈ (compareUserList range old new).2, v.uuid ≠ n.uuid := fun v hv hvn =>
        hadded (hnew.eq_of_uuid_eq (mem_of_mem_added hnew hv) hn hvn ▸ hv)
      have hdeleted : ¬ ∃ d ∈ (compareUserList range old new).1, d.uuid = n.uuid := by
        rintro ⟨d, hd, hdn⟩
        obtain rfl := hold.consistentUsers d (mem_of_mem_deleted hd) n hmem hdn
        exact (mem_deleted_iff.mp hd).2 d hn rfl
      rw [Limiter.lookup_updateUser_of_uuid l _ hne, if_neg hdeleted]
      exact hold.1 n hmem
  · rw [Limiter.lookup_updateUser_of_forall_ne l _ fun v hv => hk v (mem_of_mem_added hnew hv)]
    split_ifs with hdeleted
    · rfl
    · refine hold.2 k fun u hu hku => hdeleted (List.mem_map.mpr ⟨u, ?_, hku⟩)
      refine mem_deleted_iff.mpr (hgone u hu fun n hn hnu => hk n hn ?_)
      rw [hnu, hku]

/-- **The limiter after an update.** A limiter that agrees with the old list agrees with the new
one after `UpdateUser` exactly if the difference is exact. -/
theorem updateUser_agrees_iff (range : RangeOrder String) (hold : l.Agrees tag old)
    (hnew : DistinctUuids new) :
    (l.updateUser tag (compareUserList range old new).2
      (compareUserList range old new).1).Agrees tag new ↔ SyncExact old new :=
  ⟨syncExact_of_agrees hold hnew, agrees_of_syncExact hold hnew⟩

end Limiter

/-- The limiter agrees with the user list after a start. -/
theorem Controller.limiter_agrees_start {lib : Library} {o : Options} {client : Client}
    {core : Installation} {limiters : LimiterStore} {input : TickInput} {c : Controller}
    (h : start lib o client core limiters input = .ok c) (hlist : ConsistentUsers c.userList) :
    ∃ l, c.limiters.get c.limiter = some l ∧ l.Agrees c.tag c.userList := by
  obtain ⟨_, _, -, -, -, -, -, aliveMap, hget⟩ := start_ok h
  exact ⟨_, hget, (newLimiter_agrees_iff c.tag o.limitConfig c.userList aliveMap).mpr hlist⟩

/-! ### The core -/

namespace Controller

/-- A user call that is left out for an empty list does as much as the call. -/
theorem callUnlessNil_ok (users : List UserInfo) {core : Installation} {tag : String}
    {node : InstalledNode} {f : Finset String → Finset String}
    (hnode : core.lookup tag = some node) (hnil : users = [] → f node.users = node.users) :
    (callUnlessNil users core fun core => core.updateUsers tag .ok f).2 = true ∧
      (callUnlessNil users core fun core => core.updateUsers tag .ok f).1.lookup tag =
        some { node with users := f node.users } := by
  unfold callUnlessNil
  split_ifs with h
  · exact ⟨rfl, by rw [hnode, hnil h]⟩
  · exact ⟨by simp only [Installation.updateUsers, hnode],
      Installation.lookup_updateUsers_ok hnode⟩

/-- The node after the given deletions and additions of users. -/
def follow (node : InstalledNode) (deleted added : List UserInfo) : InstalledNode :=
  { node with users := (node.users \ uuids deleted) ∪ uuids added }

/-- The user calls of a tick, when they succeed. -/
theorem applyDelta_of_ok {c : Controller} {node : InstalledNode} {input : TickInput}
    (hnode : c.core.lookup c.tag = some node) (hdel : input.delUsers = .ok)
    (hadd : input.addUsers = .ok) (deleted added : List UserInfo) :
    (c.applyDelta deleted added input).2 = true ∧
      (c.applyDelta deleted added input).1.lookup c.tag = some (follow node deleted added) := by
  obtain ⟨hsuccess, hlook⟩ := callUnlessNil_ok deleted (f := (· \ uuids deleted)) hnode
    (by rintro rfl; exact Finset.sdiff_empty)
  simp only [applyDelta, Installation.delUsers, Installation.addUsers, hdel, hadd]
  split <;> rename_i core hcall
  · rw [hcall] at hsuccess
    cases hsuccess
  · rw [hcall] at hlook
    exact callUnlessNil_ok added (f := (· ∪ uuids added)) hlook
      (by rintro rfl; exact Finset.union_empty _)

/-- A tick that finds the settings unchanged and a new list follows the list, when the core calls
succeed. -/
theorem nodeInfoMonitor_sync {lib : Library} {c : Controller} {input : TickInput}
    {client : Client} {newU : Option (List UserInfo)} {new deleted added : List UserInfo}
    {newA : Option (GoMap ℤ ℤ)}
    (hfetch : fetch lib c.apiClient input = (client, .ok (none, newU, newA)))
    (hnew : newU.getD [] = new) (hne : new ≠ [])
    (hdelta : compareUserList input.range c.userList new = (deleted, added))
    (hcalls : (c.applyDelta deleted added input).2 = true) (o : Options) :
    c.nodeInfoMonitor lib o input = (finishSync o
      { c with
        apiClient := client
        limiters := c.limiters.setAliveList c.limiter newA
        core := (c.applyDelta deleted added input).1 } new added deleted, .running) := by
  have hsame : ({ c with
      apiClient := client
      limiters := c.limiters.setAliveList c.limiter newA } : Controller).applyDelta deleted added
        input = c.applyDelta deleted added input := rfl
  simp only [nodeInfoMonitor, hfetch, syncUsers, hnew, if_neg hne, hdelta, hsame, hcalls, if_true]

/-- The limiter of the controller after it has followed the list. -/
theorem get_limiter_finishSync (o : Options) {c : Controller} {l : Limiter}
    (hl : c.limiters.get c.limiter = some l) (new added deleted : List UserInfo) :
    (finishSync o c new added deleted).limiters.get c.limiter =
      some (l.updateUser c.tag added deleted) := by
  unfold finishSync
  dsimp only
  split_ifs with h
  · rw [hl, h.1, h.2]
    rfl
  · rw [LimiterStore.get_modify, if_pos rfl, hl, Option.map_some]

end Controller

/-- Users of the two lists with the same key have the same uuid. -/
def Distinguishable (old new : List UserInfo) : Prop :=
  ∀ u ∈ old ++ new, ∀ v ∈ old ++ new, userKey u = userKey v → u.uuid = v.uuid

/-- **The users of the core after a tick.** If the keys tell the uuids apart, the difference of the
lists leads from the uuids of the old list to those of the new list. -/
theorem uuids_compareUserList {old new : List UserInfo} (range : RangeOrder String)
    (hold : DistinctUuids old) (hnew : DistinctUuids new) (hkey : Distinguishable old new) :
    (uuids old \ uuids (compareUserList range old new).1) ∪
        uuids (compareUserList range old new).2 = uuids new := by
  have hold' : ∀ u ∈ old, u ∈ old ++ new := fun u => List.mem_append_left new
  have hnew' : ∀ n ∈ new, n ∈ old ++ new := fun n => List.mem_append_right old
  ext k
  simp only [Finset.mem_union, Finset.mem_sdiff, mem_uuids]
  constructor
  · rintro (⟨⟨u, hu, rfl⟩, hkept⟩ | ⟨n, hn, rfl⟩)
    · -- an old user that is not deleted shares its key with a new user
      have hlast : lastWith old (userKey u) = some u := lastWith_eq_some hu fun v hv hvu =>
        hold.eq_of_uuid_eq hv hu (hkey v (hold' v hv) u (hold' u hu) hvu)
      have hshared : ∃ n ∈ new, userKey n = userKey u := by
        by_contra hnone
        exact hkept ⟨u, mem_deleted_iff.mpr ⟨hlast, fun n hn hnu => hnone ⟨n, hn, hnu⟩⟩, rfl⟩
      obtain ⟨n, hn, hnu⟩ := hshared
      exact ⟨n, hn, hkey n (hnew' n hn) u (hold' u hu) hnu⟩
    · exact ⟨n, mem_of_mem_added hnew hn, rfl⟩
  · rintro ⟨n, hn, rfl⟩
    by_cases hadded : n ∈ (compareUserList range old new).2
    · exact Or.inr ⟨n, hadded, rfl⟩
    · -- a new user that is not added shares its key with an old user, which is not deleted
      have hlast : lastWith old (userKey n) ≠ none := fun h =>
        hadded ((mem_added_iff hnew.nodup).mpr ⟨hn, Or.inl h⟩)
      obtain ⟨u, hu, hun⟩ := lastWith_ne_none_iff.mp hlast
      have huuid := hkey u (hold' u hu) n (hnew' n hn) hun
      refine Or.inl ⟨⟨u, hu, huuid⟩, ?_⟩
      rintro ⟨d, hd, hdn⟩
      obtain rfl := hold.eq_of_uuid_eq (mem_of_mem_deleted hd) hu (hdn.trans huuid.symm)
      exact (mem_deleted_iff.mp hd).2 n hn hun.symm

/-! ### The exact delta -/

/-- A user of the list has the uuid and the speed limit of `u`. -/
def HasLimit (users : List UserInfo) (u : UserInfo) : Prop :=
  ∃ v ∈ users, v.uuid = u.uuid ∧ v.speedLimit = u.speedLimit

instance (users : List UserInfo) (u : UserInfo) : Decidable (HasLimit users u) :=
  inferInstanceAs (Decidable (∃ _ ∈ _, _))

/-- The uuids of the users with their speed limits. -/
def limits (users : List UserInfo) : Finset (String × ℤ) :=
  (users.map fun u => (u.uuid, u.speedLimit)).toFinset

theorem mem_limits {users : List UserInfo} {p : String × ℤ} :
    p ∈ limits users ↔ ∃ u ∈ users, (u.uuid, u.speedLimit) = p := by
  rw [limits, List.mem_toFinset, List.mem_map]

section ExactDelta

variable {old new : List UserInfo}

/-- For uuids of one length a key stands for a uuid and a speed limit. -/
theorem hasLimit_iff_exists_userKey {users : List UserInfo} {u : UserInfo}
    (hlen : ∀ v ∈ users, v.uuid.length = u.uuid.length) :
    HasLimit users u ↔ ∃ v ∈ users, userKey v = userKey u := by
  refine exists_congr fun v => and_congr_right fun hv => ⟨fun h => ?_, fun h => ?_⟩
  · rw [userKey, userKey, h.1, h.2]
  · exact append_itoa_inj (hlen v hv) h

theorem added_eq_filter (range : RangeOrder String) (hnew : DistinctUuids new)
    (hlen : ∀ u ∈ old ++ new, ∀ v ∈ old ++ new, u.uuid.length = v.uuid.length) :
    (compareUserList range old new).2 = new.filter fun u => ¬ HasLimit old u := by
  have hnew' : ∀ n ∈ new, n ∈ old ++ new := fun n => List.mem_append_right old
  have hkeys : (new.map userKey).Nodup := by
    refine List.Nodup.map_on (fun u hu v hv h => ?_) hnew.nodup
    exact hnew.eq_of_uuid_eq hu hv (append_itoa_inj (hlen u (hnew' u hu) v (hnew' v hv)) h).1
  have hadded : (compareUserList range old new).2 =
      new.filter fun u => (oldIndex old).lookup (userKey u) = none :=
    (foldl_scanUser_snd hkeys _).trans (List.nil_append _)
  rw [hadded]
  refine List.filter_congr fun u hu => ?_
  rw [decide_eq_decide, oldIndex_eq_none_iff, hasLimit_iff_exists_userKey fun v hv =>
    hlen v (List.mem_append_left new hv) u (hnew' u hu), ← lastWith_ne_none_iff, not_not]

theorem deleted_perm_filter (range : RangeOrder String) (hold : DistinctUuids old)
    (hlen : ∀ u ∈ old ++ new, ∀ v ∈ old ++ new, u.uuid.length = v.uuid.length) :
    (compareUserList range old new).1.Perm (old.filter fun u => ¬ HasLimit new u) := by
  have hold' : ∀ u ∈ old, u ∈ old ++ new := fun u => List.mem_append_left new
  refine (List.perm_ext_iff_of_nodup (nodup_deleted range old new) (hold.nodup.filter _)).mpr
    fun u => ?_
  rw [mem_deleted_iff, List.mem_filter, decide_eq_true_iff]
  constructor
  · rintro ⟨hlast, hfresh⟩
    have hu := mem_of_lastWith hlast
    rw [hasLimit_iff_exists_userKey fun v hv =>
      hlen v (List.mem_append_right old hv) u (hold' u hu)]
    exact ⟨hu, fun ⟨v, hv, hkey⟩ => hfresh v hv hkey⟩
  · rintro ⟨hu, hfresh⟩
    rw [hasLimit_iff_exists_userKey fun v hv =>
      hlen v (List.mem_append_right old hv) u (hold' u hu)] at hfresh
    refine ⟨lastWith_eq_some hu fun v hv hkey => ?_, fun v hv hkey => hfresh ⟨v, hv, hkey⟩⟩
    exact hold.eq_of_uuid_eq hv hu (append_itoa_inj (hlen v (hold' v hv) u (hold' u hu)) hkey).1

/-- **The delta is exact.** For lists without repeated uuids, with all uuids of one length, the
added users are the new users whose uuid and speed limit no old user has, in their order, and the
deleted users are in some order the old users whose uuid and speed limit no new user has. The delta
leads from the old uuids and speed limits to the new ones, whatever the order of the map. -/
theorem compareUserList_exact (range : RangeOrder String) (old new : List UserInfo)
    (hold : DistinctUuids old) (hnew : DistinctUuids new)
    (hlen : ∀ u ∈ old ++ new, ∀ v ∈ old ++ new, u.uuid.length = v.uuid.length) :
    (compareUserList range old new).2 = new.filter (fun u => ¬ HasLimit old u) ∧
      (compareUserList range old new).1.Perm (old.filter fun u => ¬ HasLimit new u) ∧
      (limits old \ limits (compareUserList range old new).1) ∪
        limits (compareUserList range old new).2 = limits new := by
  have hdeleted := deleted_perm_filter range hold hlen
  have hadded := added_eq_filter range hnew hlen
  refine ⟨hadded, hdeleted, Finset.ext fun p => ?_⟩
  simp only [Finset.mem_union, Finset.mem_sdiff, mem_limits, hdeleted.mem_iff, hadded,
    List.mem_filter, decide_eq_true_iff]
  constructor
  · rintro (⟨⟨u, hu, rfl⟩, hkept⟩ | ⟨n, ⟨hn, -⟩, rfl⟩)
    · have hlimit : HasLimit new u := by
        by_contra hnone
        exact hkept ⟨u, ⟨hu, hnone⟩, rfl⟩
      obtain ⟨n, hn, huuid, hspeed⟩ := hlimit
      exact ⟨n, hn, Prod.ext huuid hspeed⟩
    · exact ⟨n, hn, rfl⟩
  · rintro ⟨n, hn, rfl⟩
    by_cases hlimit : HasLimit old n
    · obtain ⟨u, hu, huuid, hspeed⟩ := hlimit
      refine Or.inl ⟨⟨u, hu, Prod.ext huuid hspeed⟩, ?_⟩
      rintro ⟨d, ⟨-, hgone⟩, hdn⟩
      obtain ⟨hduuid, hdspeed⟩ := Prod.mk.inj hdn
      exact hgone ⟨n, hn, hduuid.symm, hdspeed.symm⟩
    · exact Or.inr ⟨n, ⟨hn, hlimit⟩, rfl⟩

/-- A user stays, one gets another limit, one leaves and one comes. -/
theorem compareUserList_exact_sample :
    let old : List UserInfo := [⟨1, "aa", 5, 0⟩, ⟨2, "bb", 0, 0⟩, ⟨3, "cc", -1, 0⟩]
    let new : List UserInfo := [⟨4, "dd", 0, 0⟩, ⟨2, "bb", 7, 0⟩, ⟨1, "aa", 5, 0⟩]
    (compareUserList RangeOrder.ascending old new).2 = [⟨4, "dd", 0, 0⟩, ⟨2, "bb", 7, 0⟩] := by
  refine (compareUserList_exact RangeOrder.ascending _ _ ?_ ?_ ?_).1.trans ?_
  · exact List.nodup_iff_pairwise_ne.mpr (by decide)
  · exact List.nodup_iff_pairwise_ne.mpr (by decide)
  · decide
  · decide

end ExactDelta

/-- **The limiter after a tick without new settings.** Let the limiter of the controller agree with
its user list, and let a tick find the settings unchanged and a new, non-empty list of users with
distinct uuids, such that the calls of the core it makes succeed. Then the controller holds the new
list, and its limiter agrees with it exactly if the difference of the lists is exact. -/
theorem limiter_agrees_sync_iff (lib : Library) (o : Options) (c : Controller) (input : TickInput)
    (client : Client) (new : List UserInfo) (newA : Option (GoMap ℤ ℤ)) (l : Limiter)
    (hfetch : fetch lib c.apiClient input = (client, .ok (none, some new, newA))) (hne : new ≠ [])
    (hnew : DistinctUuids new) (hl : c.limiters.get c.limiter = some l)
    (hagrees : l.Agrees c.tag c.userList)
    (hcalls : (c.applyDelta (compareUserList input.range c.userList new).1
      (compareUserList input.range c.userList new).2 input).2 = true) :
    let c' := (c.nodeInfoMonitor lib o input).1
    c'.userList = new ∧
      ((∃ l', c'.limiters.get c'.limiter = some l' ∧ l'.Agrees c'.tag new) ↔
        SyncExact c.userList new) := by
  intro c'
  obtain ⟨deleted, added, hdelta⟩ : ∃ deleted added,
      compareUserList input.range c.userList new = (deleted, added) := ⟨_, _, rfl⟩
  rw [hdelta] at hcalls
  have htick := Controller.nodeInfoMonitor_sync hfetch rfl hne hdelta hcalls o
  -- the alive list is replaced first, which keeps the entries
  have hentries := c.limiters.userLimitInfo_get_setAliveList c.limiter newA c.limiter
  rw [hl, Option.map_some, Option.map_eq_some_iff] at hentries
  obtain ⟨l₁, hl₁, hinfo⟩ := hentries
  have hagrees₁ : l₁.Agrees c.tag c.userList := by
    simpa only [Limiter.Agrees, hinfo] using hagrees
  have hget := Controller.get_limiter_finishSync o (c := { c with
    apiClient := client
    limiters := c.limiters.setAliveList c.limiter newA
    core := (c.applyDelta deleted added input).1 }) hl₁ new added deleted
  have hiff := updateUser_agrees_iff input.range hagrees₁ hnew
  rw [hdelta] at hiff
  have hc' : c' = _ := congrArg Prod.fst htick
  rw [hc', ← hiff]
  refine ⟨rfl, ?_, fun h => ⟨_, hget, h⟩⟩
  rintro ⟨l', hl', h⟩
  obtain rfl := Option.some.inj (hget.symm.trans hl')
  exact h

/-- A tick that finds the settings unchanged and the given users. -/
def usersTick (users : Body) : TickInput where
  node := notModified
  users := answer users "v"
  alive := notModified

/-- A new speed limit and a new user reach the limiter. -/
theorem usersTick_agrees :
    ∃ c, sampleStart {} (answer [0, 80] "a") (answer [97, 1, 0, 1] "u") = .ok c ∧
      let c' := (c.nodeInfoMonitor sampleLibrary {} (usersTick [97, 1, 5, 1, 98, 2, 0, 1])).1
      c'.userList = sampleUsers [97, 1, 5, 1, 98, 2, 0, 1] ∧
        ∃ l, c'.limiters.get c'.limiter = some l ∧
          l.Agrees c'.tag (sampleUsers [97, 1, 5, 1, 98, 2, 0, 1]) := by
  obtain ⟨c, hstart, hlist, hfetch, hcalls⟩ :
      ∃ c, sampleStart {} (answer [0, 80] "a") (answer [97, 1, 0, 1] "u") = .ok c ∧
        c.userList = sampleUsers [97, 1, 0, 1] ∧
        (∃ client, fetch sampleLibrary c.apiClient (usersTick [97, 1, 5, 1, 98, 2, 0, 1]) =
          (client, .ok (none, some (sampleUsers [97, 1, 5, 1, 98, 2, 0, 1]), none))) ∧
        (c.applyDelta
          (compareUserList .ascending c.userList (sampleUsers [97, 1, 5, 1, 98, 2, 0, 1])).1
          (compareUserList .ascending c.userList (sampleUsers [97, 1, 5, 1, 98, 2, 0, 1])).2
          (usersTick [97, 1, 5, 1, 98, 2, 0, 1])).2 = true := ⟨_, rfl, rfl, ⟨_, rfl⟩, by decide⟩
  obtain ⟨client, hfetch⟩ := hfetch
  obtain ⟨l, hl, hagrees⟩ := Controller.limiter_agrees_start hstart
    (by rw [hlist]; unfold ConsistentUsers; decide)
  obtain ⟨hnew, hiff⟩ := limiter_agrees_sync_iff sampleLibrary {} c _ client _ none l hfetch
    (by decide) (by unfold DistinctUuids; decide) hl hagrees hcalls
  exact ⟨c, hstart, hnew, hiff.mpr (by rw [hlist]; unfold SyncExact; decide)⟩

/-- A new device limit does not reach the limiter: the key of the user is the same, so the user is
neither deleted nor added. -/
theorem usersTick_not_agrees :
    ∃ c c', sampleStart {} (answer [0, 80] "a") (answer [97, 1, 0, 1] "u") = .ok c ∧
      c.nodeInfoMonitor sampleLibrary {} (usersTick [97, 1, 0, 2]) = (c', .running) ∧
      c'.userList = sampleUsers [97, 1, 0, 2] ∧
      ¬ ∃ l, c'.limiters.get c'.limiter = some l ∧ l.Agrees c'.tag c'.userList := by
  obtain ⟨c, c', hstart, htick, hlist, hentry⟩ :
      ∃ c c', sampleStart {} (answer [0, 80] "a") (answer [97, 1, 0, 1] "u") = .ok c ∧
        c.nodeInfoMonitor sampleLibrary {} (usersTick [97, 1, 0, 2]) = (c', .running) ∧
        c'.userList = sampleUsers [97, 1, 0, 2] ∧
        (c'.limiters.get c'.limiter).map (fun l => (l.userLimitInfo.lookup
          (userTag c'.tag "a")).map UserLimitInfo.deviceLimit) = some (some 1) :=
    ⟨_, _, rfl, rfl, rfl, by decide⟩
  refine ⟨c, c', hstart, htick, hlist, ?_⟩
  rintro ⟨l, hl, hagrees⟩
  have hdevice := hagrees.lookup_map_deviceLimit
    (u := { id := 1, uuid := "a", speedLimit := 0, deviceLimit := 2 }) (by rw [hlist]; decide)
  rw [hl, Option.map_some, hdevice] at hentry
  exact absurd hentry (by decide)

end Tox.Node
