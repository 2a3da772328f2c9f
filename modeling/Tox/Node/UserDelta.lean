import Tox.Common.Format
import Tox.Foundation.GoMap
import Tox.Panel.Client

/-!
# The difference of two user lists

When the panel sends a new user list, the controller passes only the difference to the core and to
the limiter. `compareUserList` computes it from a string key, the uuid directly followed by the
decimal speed limit (`userKey`). The id and the device limit are not part of the key, and the key
does not tell where the uuid ends.

The function stores the index of every old user under its key, where a later user replaces an
earlier one, walks through the new list, taking each key out of the map when it is first met, and
collects what is left. The two results are described by membership, `mem_added_iff` and
`mem_deleted_iff`.
-/

namespace Tox.Node

open Tox.Foundation Tox.Format Tox.Panel

/-- The key of a user: the uuid followed by the speed limit. -/
def userKey (u : UserInfo) : String := u.uuid ++ itoa u.speedLimit

/-- The old users by key, as indices into the old list. -/
def oldIndex (old : List UserInfo) : GoMap String ℕ :=
  GoMap.storeAll (fun x => userKey x.1) Prod.snd old.zipIdx ∅

/-- One new user: it is added unless its key is in the map, in which case the key is taken out. -/
def scanUser (state : GoMap String ℕ × List UserInfo) (user : UserInfo) :
    GoMap String ℕ × List UserInfo :=
  match state.1.lookup (userKey user) with
  | none => (state.1, state.2 ++ [user])
  | some _ => (state.1.erase (userKey user), state.2)

/-- `compareUserList`: the deleted users and the added users. -/
def compareUserList (range : RangeOrder String) (old new : List UserInfo) :
    List UserInfo × List UserInfo :=
  let (oldMap, added) := new.foldl scanUser (oldIndex old, [])
  let deleted := (range.keys oldMap).filterMap fun k => (oldMap.lookup k).bind fun i => old[i]?
  (deleted, added)

/-- The first user of the list with the key. -/
def firstWith (users : List UserInfo) (k : String) : Option UserInfo :=
  users.find? fun u => userKey u = k

/-- The last user of the list with the key. -/
def lastWith (users : List UserInfo) (k : String) : Option UserInfo :=
  users.reverse.find? fun u => userKey u = k

/-! ### Users by key -/

theorem firstWith_eq_some {users : List UserInfo} {u : UserInfo} (hu : u ∈ users)
    (h : ∀ v ∈ users, userKey v = userKey u → v = u) : firstWith users (userKey u) = some u := by
  cases hfind : firstWith users (userKey u) with
  | none => exact absurd (List.find?_eq_none.mp hfind u hu) (by simp)
  | some v =>
    have hkey : userKey v = userKey u := by simpa using List.find?_some hfind
    rw [h v (List.mem_of_find?_eq_some hfind) hkey]

theorem lastWith_eq_some {users : List UserInfo} {u : UserInfo} (hu : u ∈ users)
    (h : ∀ v ∈ users, userKey v = userKey u → v = u) : lastWith users (userKey u) = some u :=
  firstWith_eq_some (List.mem_reverse.mpr hu) fun v hv => h v (List.mem_reverse.mp hv)

theorem lastWith_ne_none_iff {users : List UserInfo} {k : String} :
    lastWith users k ≠ none ↔ ∃ u ∈ users, userKey u = k := by
  simp [lastWith]

/-! ### The old users -/

theorem lastWith_append_singleton (users : List UserInfo) (u : UserInfo) (k : String) :
    lastWith (users ++ [u]) k = if userKey u = k then some u else lastWith users k := by
  simp only [lastWith, List.reverse_append, List.reverse_singleton, List.singleton_append,
    List.find?_cons]
  split_ifs with h <;> simp [h]

theorem userKey_of_lastWith {users : List UserInfo} {k : String} {u : UserInfo}
    (h : lastWith users k = some u) : userKey u = k := by
  simpa using List.find?_some h

theorem mem_of_lastWith {users : List UserInfo} {k : String} {u : UserInfo}
    (h : lastWith users k = some u) : u ∈ users :=
  List.mem_reverse.mp (List.mem_of_find?_eq_some h)

theorem oldIndex_append_singleton (users : List UserInfo) (u : UserInfo) :
    oldIndex (users ++ [u]) = (oldIndex users).insert (userKey u) users.length := by
  simp [oldIndex, GoMap.storeAll, List.zipIdx_append]

theorem lt_length_of_oldIndex {users : List UserInfo} {k : String} {i : ℕ}
    (h : (oldIndex users).lookup k = some i) : i < users.length := by
  induction users using List.reverseRecOn with
  | nil => exact absurd h (by simp [oldIndex])
  | append_singleton users u ih =>
    rw [oldIndex_append_singleton, GoMap.lookup_insert] at h
    rw [List.length_append, List.length_singleton]
    split_ifs at h
    · cases h
      exact Nat.lt_succ_self _
    · exact Nat.lt_succ_of_lt (ih h)

/-- The index of a key leads to the last old user with the key. -/
theorem oldIndex_bind (users : List UserInfo) (k : String) :
    ((oldIndex users).lookup k).bind (fun i => users[i]?) = lastWith users k := by
  induction users using List.reverseRecOn with
  | nil => simp [oldIndex, lastWith]
  | append_singleton users u ih =>
    rw [oldIndex_append_singleton, GoMap.lookup_insert, lastWith_append_singleton, ← ih]
    by_cases hk : k = userKey u
    · simp [hk]
    · rw [if_neg hk, if_neg (Ne.symm hk)]
      cases hi : (oldIndex users).lookup k with
      | none => rfl
      | some i => simp [List.getElem?_append_left (lt_length_of_oldIndex hi)]

theorem oldIndex_eq_none_iff (users : List UserInfo) (k : String) :
    (oldIndex users).lookup k = none ↔ lastWith users k = none := by
  rw [← oldIndex_bind]
  cases hi : (oldIndex users).lookup k with
  | none => simp
  | some i => simp [lt_length_of_oldIndex hi]

/-! ### The walk through the new users -/

theorem lookup_foldl_scanUser (new : List UserInfo) (state : GoMap String ℕ × List UserInfo)
    (k : String) : (new.foldl scanUser state).1.lookup k =
      if k ∈ new.map userKey then none else state.1.lookup k := by
  induction new generalizing state with
  | nil => simp
  | cons n new ih =>
    rw [List.foldl_cons, ih]
    cases hn : state.1.lookup (userKey n) with
    | none =>
      by_cases hk : k = userKey n
      · subst hk
        simp [scanUser, hn]
      · simp [scanUser, hn, hk]
    | some i =>
      by_cases hk : k = userKey n
      · subst hk
        simp [scanUser, hn]
      · simp [scanUser, hn, hk]

/-- The users added by the walk: those whose key is not in the map when they are met, either from
the start or because an earlier user had it. -/
theorem mem_foldl_scanUser {new : List UserInfo} {state : GoMap String ℕ × List UserInfo}
    {u : UserInfo} : u ∈ (new.foldl scanUser state).2 ↔
      u ∈ state.2 ∨ ∃ pre post, new = pre ++ u :: post ∧
        (state.1.lookup (userKey u) = none ∨ userKey u ∈ pre.map userKey) := by
  induction new generalizing state with
  | nil => simp
  | cons n new ih =>
    -- a decomposition of `n :: new` at `u` is at `n` itself or inside `new`
    have hsplit : (∃ pre post, n :: new = pre ++ u :: post ∧
        (state.1.lookup (userKey u) = none ∨ userKey u ∈ pre.map userKey)) ↔
        (u = n ∧ state.1.lookup (userKey n) = none) ∨ ∃ pre post, new = pre ++ u :: post ∧
          (state.1.lookup (userKey u) = none ∨ userKey u = userKey n ∨
            userKey u ∈ pre.map userKey) := by
      constructor
      · rintro ⟨pre, post, hnew, hkey⟩
        cases pre with
        | nil =>
          obtain ⟨rfl, -⟩ := List.cons.inj hnew
          exact Or.inl ⟨rfl, by simpa using hkey⟩
        | cons m pre =>
          obtain ⟨rfl, hrest⟩ := List.cons.inj hnew
          exact Or.inr ⟨pre, post, hrest, by simpa using hkey⟩
      · rintro (⟨rfl, hnone⟩ | ⟨pre, post, rfl, hkey⟩)
        · exact ⟨[], new, rfl, Or.inl hnone⟩
        · exact ⟨n :: pre, post, rfl, by simpa using hkey⟩
    rw [List.foldl_cons, ih, hsplit]
    cases hn : state.1.lookup (userKey n) with
    | none =>
      have hkey : state.1.lookup (userKey u) = none ∨ userKey u = userKey n ↔
          state.1.lookup (userKey u) = none :=
        or_iff_left_of_imp fun h => by rw [h]; exact hn
      simp only [scanUser, hn, ← or_assoc, hkey, List.mem_append, List.mem_singleton, and_true]
    | some i =>
      have hkey : (state.1.erase (userKey n)).lookup (userKey u) = none ↔
          state.1.lookup (userKey u) = none ∨ userKey u = userKey n := by
        rw [GoMap.lookup_erase]
        split_ifs with h <;> simp [h]
      simp only [scanUser, hn, hkey, or_assoc, reduceCtorEq, and_false, false_or]

/-! ### The difference -/

theorem firstWith_append_cons {pre post : List UserInfo} {u : UserInfo} (hu : u ∉ pre) :
    firstWith (pre ++ u :: post) (userKey u) = some u ↔ userKey u ∉ pre.map userKey := by
  simp only [firstWith, List.find?_append, List.find?_cons, decide_true, Option.or_eq_some_iff]
  constructor
  · rintro (hpre | ⟨hpre, -⟩) hmem
    · exact hu (List.mem_of_find?_eq_some hpre)
    · obtain ⟨v, hv, hkey⟩ := List.mem_map.mp hmem
      simpa [hkey] using List.find?_eq_none.mp hpre v hv
  · intro hkey
    refine Or.inr ⟨List.find?_eq_none.mpr fun v hv hvu => hkey ?_, trivial⟩
    exact List.mem_map.mpr ⟨v, hv, by simpa using hvu⟩

variable {range : RangeOrder String} {old new : List UserInfo} {u : UserInfo}

/-- **Added users.** A new user is added if no old user has its key, or if another new user with
its key comes first. -/
theorem mem_added_iff (hnew : new.Nodup) : u ∈ (compareUserList range old new).2 ↔
    u ∈ new ∧ (lastWith old (userKey u) = none ∨ firstWith new (userKey u) ≠ some u) := by
  have hscan : u ∈ (compareUserList range old new).2 ↔ ∃ pre post, new = pre ++ u :: post ∧
      (lastWith old (userKey u) = none ∨ userKey u ∈ pre.map userKey) := by
    rw [← oldIndex_eq_none_iff]
    exact mem_foldl_scanUser.trans (or_iff_right (List.not_mem_nil))
  rw [hscan]
  constructor
  · rintro ⟨pre, post, rfl, hkey⟩
    have hu : u ∉ pre := fun h => (List.disjoint_of_nodup_append hnew) h List.mem_cons_self
    exact ⟨by simp, hkey.imp_right fun h hfirst => (firstWith_append_cons hu).mp hfirst h⟩
  · rintro ⟨hmem, hkey⟩
    obtain ⟨pre, post, rfl⟩ := List.append_of_mem hmem
    have hu : u ∉ pre := fun h => (List.disjoint_of_nodup_append hnew) h List.mem_cons_self
    exact ⟨pre, post, rfl, hkey.imp_right fun h => by
      by_contra hpre
      exact h ((firstWith_append_cons hu).mpr hpre)⟩

/-- What is left in the map leads to the last old users whose keys no new user has. -/
theorem bind_foldl_scanUser (old new : List UserInfo) (k : String) :
    ((new.foldl scanUser (oldIndex old, [])).1.lookup k).bind (fun i => old[i]?) =
      if k ∈ new.map userKey then none else lastWith old k := by
  rw [lookup_foldl_scanUser]
  split_ifs
  · rfl
  · exact oldIndex_bind old k

/-- **Deleted users.** An old user is deleted if it is the last one with its key and no new user
has its key. -/
theorem mem_deleted_iff : u ∈ (compareUserList range old new).1 ↔
    lastWith old (userKey u) = some u ∧ ∀ v ∈ new, userKey v ≠ userKey u := by
  have hmem : u ∈ (compareUserList range old new).1 ↔
      ∃ k, k ∉ new.map userKey ∧ lastWith old k = some u := by
    simp only [compareUserList, List.mem_filterMap, bind_foldl_scanUser,
      Option.ite_none_left_eq_some]
    refine ⟨fun ⟨k, _, h⟩ => ⟨k, h⟩, fun ⟨k, h⟩ => ⟨k, ?_, h⟩⟩
    rw [RangeOrder.mem_keys, ← Finmap.lookup_isSome, lookup_foldl_scanUser, if_neg h.1,
      Option.isSome_iff_ne_none, Ne, oldIndex_eq_none_iff, h.2]
    exact Option.some_ne_none u
  rw [hmem]
  constructor
  · rintro ⟨k, hk, hlast⟩
    obtain rfl := userKey_of_lastWith hlast
    exact ⟨hlast, fun v hv hkey => hk (List.mem_map.mpr ⟨v, hv, hkey⟩)⟩
  · rintro ⟨hlast, hkey⟩
    refine ⟨userKey u, fun hmem => ?_, hlast⟩
    obtain ⟨v, hv, hvu⟩ := List.mem_map.mp hmem
    exact hkey v hv hvu

/-- No user is deleted twice. -/
theorem nodup_deleted (range : RangeOrder String) (old new : List UserInfo) :
    (compareUserList range old new).1.Nodup := by
  refine (range.nodup_keys _).filterMap fun k k' u hk hk' => ?_
  simp only [bind_foldl_scanUser, Option.mem_def, Option.ite_none_left_eq_some] at hk hk'
  exact (userKey_of_lastWith hk.2).symm.trans (userKey_of_lastWith hk'.2)

/-- The walk adds the users whose keys are not in the map, in their order, if their keys differ. -/
theorem foldl_scanUser_snd {new : List UserInfo} (hnew : (new.map userKey).Nodup)
    (state : GoMap String ℕ × List UserInfo) :
    (new.foldl scanUser state).2 =
      state.2 ++ new.filter fun u => state.1.lookup (userKey u) = none := by
  induction new generalizing state with
  | nil => simp
  | cons n new ih =>
    rw [List.map_cons, List.nodup_cons] at hnew
    rw [List.foldl_cons, ih hnew.2]
    cases hn : state.1.lookup (userKey n) with
    | none =>
      rw [List.filter_cons_of_pos (by simpa using hn)]
      simp only [scanUser, hn, List.append_assoc, List.singleton_append]
    | some i =>
      rw [List.filter_cons_of_neg (by simp [hn])]
      simp only [scanUser, hn]
      -- the key that is taken out is not the key of a later user
      congr 1
      refine List.filter_congr fun u hu => ?_
      have hne : userKey u ≠ userKey n := fun h => hnew.1 (List.mem_map.mpr ⟨u, hu, h⟩)
      rw [GoMap.lookup_erase, if_neg hne]

end Tox.Node
