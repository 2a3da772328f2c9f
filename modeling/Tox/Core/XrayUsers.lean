import Tox.Core.Xray

/-!
# Changing the users of the xray core

`Xray.AddUsers` and `Xray.DelUsers` hand the users to the user manager of the inbound one after the
other and return at the first that is refused. The user manager refuses to add an email that it has,
to remove one that it does not have, and a user that cannot be built; it compares emails in lower
case. Nothing is undone: the users before the refused one stay added or removed. `AddUsers` has
written the ids of the whole list by then.

So a call leaves everything as it was after an error only if it can add or remove the whole list, or
if the first user is refused; for `AddUsers` the ids must then have been there before
(`user_changes_atomic_iff`). The controller computes the same lists again as long as a tick fails.
After a tick that has changed the user manager, the first user to add is present or the first user
to delete is absent, so that every such tick fails at this user (`sync_stuck`).
-/

namespace Tox.Core

open Tox.Foundation Tox.Format Tox.Panel

/-! ### The user manager -/

/-- The first user of a list that is refused, with the number of users before it. The emails in the
user manager change with every user that is not refused. -/
def firstRefusal (refusal : List String → UserInfo → Option String)
    (next : List String → UserInfo → List String) (present : List String) :
    List UserInfo → Option (ℕ × String)
  | [] => none
  | u :: users =>
    match refusal present u with
    | some err => some (0, err)
    | none => (firstRefusal refusal next (next present u) users).map fun r => (r.1 + 1, r.2)

/-- The user manager of an inbound. -/
structure UserManager where
  /-- `strings.ToLower`: emails that differ in case only are the same. -/
  toLower : String → String
  /-- The package of the inbound, with which its errors begin. -/
  package : String

namespace UserManager

variable (M : UserManager)

/-- The email of a user as the user manager compares it. -/
def key (tag : String) (u : UserInfo) : String := M.toLower (userTag tag u.uuid)

/-- The user is among those that are present. -/
def Has (tag : String) (present : List String) (u : UserInfo) : Prop :=
  M.key tag u ∈ present.map M.toLower

instance (tag : String) (present : List String) (u : UserInfo) : Decidable (M.Has tag present u) :=
  inferInstanceAs (Decidable (_ ∈ _))

/-- The emails that stay when users are removed. -/
def without (tag : String) (present : List String) (users : List UserInfo) : List String :=
  present.filter fun email => M.toLower email ∉ users.map (M.key tag)

variable {M} {tag : String} {present : List String} {u v : UserInfo}

theorem has_append : M.Has tag (present ++ [userTag tag v.uuid]) u ↔
    M.Has tag present u ∨ M.key tag u = M.key tag v := by
  rw [Has, List.map_append, List.mem_append]
  exact or_congr_right List.mem_singleton

theorem has_without {users : List UserInfo} : M.Has tag (M.without tag present users) u ↔
    M.Has tag present u ∧ M.key tag u ∉ users.map (M.key tag) := by
  simp only [Has, without, List.mem_map, List.mem_filter, decide_eq_true_eq]
  constructor
  · rintro ⟨email, ⟨hmem, hnot⟩, hkey⟩
    exact ⟨⟨email, hmem, hkey⟩, hkey ▸ hnot⟩
  · rintro ⟨⟨email, hmem, hkey⟩, hnot⟩
    exact ⟨email, ⟨hmem, hkey.symm ▸ hnot⟩, hkey⟩

end UserManager

section Errors

variable (M : UserManager) (build : UserInfo → Option String) (tag : String)

/-- The error for a user in the loop of `AddUsers`: that of `ToMemoryUser`, which is given by
`build`, or that of `AddUser`. -/
def addError (present : List String) (u : UserInfo) : Option String :=
  match build u with
  | some err => some err
  | none =>
    if M.Has tag present u then
      some (M.package ++ ": User " ++ userTag tag u.uuid ++ " already exists.")
    else none

/-- The error of `RemoveUser` for a user in the loop of `DelUsers`. -/
def delError (present : List String) (u : UserInfo) : Option String :=
  if M.Has tag present u then none
  else some (M.package ++ ": User " ++ userTag tag u.uuid ++ " not found.")

/-- Where the loop of `AddUsers` stops. -/
def addRefusal : List String → List UserInfo → Option (ℕ × String) :=
  firstRefusal (addError M build tag) fun present u => present ++ [userTag tag u.uuid]

/-- Where the loop of `DelUsers` stops. -/
def delRefusal : List String → List UserInfo → Option (ℕ × String) :=
  firstRefusal (delError M tag) fun present u => M.without tag present [u]

end Errors

section Refusal

variable {refusal : List String → UserInfo → Option String}
  {next : List String → UserInfo → List String} {present : List String}

theorem lt_length_of_firstRefusal {users : List UserInfo} {r : ℕ × String}
    (h : firstRefusal refusal next present users = some r) : r.1 < users.length := by
  induction users generalizing present r with
  | nil => cases h
  | cons u users ih =>
    rw [firstRefusal] at h
    rw [List.length_cons]
    rcases hu : refusal present u with _ | err
    · rw [hu] at h
      obtain ⟨r', hr', rfl⟩ := Option.map_eq_some_iff.mp h
      exact Nat.succ_lt_succ (ih hr')
    · rw [hu] at h
      obtain rfl := Option.some.inj h
      exact Nat.succ_pos _

/-- The users before the one that is refused. -/
theorem upTo_firstRefusal (users : List UserInfo) :
    upTo users (firstRefusal refusal next present users) =
      match firstRefusal refusal next present users with
      | none => (users, none)
      | some (n, err) => (users.take n, some err) := by
  rcases h : firstRefusal refusal next present users with _ | ⟨n, err⟩
  · rfl
  · exact if_pos (lt_length_of_firstRefusal h)

theorem firstRefusal_cons_eq_none_iff {u : UserInfo} {users : List UserInfo} :
    firstRefusal refusal next present (u :: users) = none ↔
      refusal present u = none ∧ firstRefusal refusal next (next present u) users = none := by
  rw [firstRefusal]
  rcases refusal present u with _ | err
  · rw [Option.map_eq_none_iff, and_iff_right rfl]
  · exact iff_of_false (fun h => by cases h) fun h => by cases h.1

/-- A list is refused at its first user if and only if that one is. -/
theorem firstRefusal_zero_iff {users : List UserInfo} :
    (firstRefusal refusal next present users).map Prod.fst = some 0 ↔
      ∃ u ∈ users.head?, refusal present u ≠ none := by
  rcases users with _ | ⟨u, users⟩
  · simp [firstRefusal]
  · rw [firstRefusal]
    rcases hu : refusal present u with _ | err
    · simp [hu, Function.comp_def]
    · simp [hu]

/-- No user comes before the first one. -/
theorem upTo_of_firstRefusal_zero {users : List UserInfo}
    (h : (firstRefusal refusal next present users).map Prod.fst = some 0) :
    (upTo users (firstRefusal refusal next present users)).1 = [] := by
  obtain ⟨⟨_, err⟩, hr, rfl⟩ := Option.map_eq_some_iff.mp h
  rw [upTo_firstRefusal, hr]
  rfl

/-- A list is not refused at its first user if that one is not. -/
theorem exists_upTo_of_none {u : UserInfo} (h : refusal present u = none) (users : List UserInfo) :
    ∃ rest, (upTo (u :: users) (firstRefusal refusal next present (u :: users))).1 = u :: rest := by
  rw [upTo_firstRefusal, firstRefusal, h]
  dsimp only
  rcases firstRefusal refusal next (next present u) users with _ | ⟨n, err⟩
  · exact ⟨users, rfl⟩
  · exact ⟨users.take n, rfl⟩

end Refusal

section Errors

variable {M : UserManager} {build : UserInfo → Option String} {tag : String}
  {present : List String} {u : UserInfo}

theorem addError_eq_none_iff :
    addError M build tag present u = none ↔ build u = none ∧ ¬ M.Has tag present u := by
  rw [addError]
  rcases build u with _ | err
  · simp
  · simp

theorem delError_eq_none_iff : delError M tag present u = none ↔ M.Has tag present u := by
  simp [delError]

/-- `AddUsers` gets through a list of users that can be built and have distinct emails which are not
present. -/
theorem addRefusal_eq_none_iff {users : List UserInfo} :
    addRefusal M build tag present users = none ↔
      (∀ u ∈ users, build u = none ∧ ¬ M.Has tag present u) ∧ (users.map (M.key tag)).Nodup := by
  induction users generalizing present with
  | nil => simp [addRefusal, firstRefusal]
  | cons u users ih =>
    rw [addRefusal, firstRefusal_cons_eq_none_iff, addError_eq_none_iff, ← addRefusal, ih]
    simp only [UserManager.has_append, List.forall_mem_cons, List.map_cons, List.nodup_cons,
      List.mem_map, not_or, not_exists, not_and, ← and_assoc, forall_and]
    tauto

/-- `DelUsers` gets through a list of users that are present and have distinct emails. -/
theorem delRefusal_eq_none_iff {users : List UserInfo} :
    delRefusal M tag present users = none ↔
      (∀ u ∈ users, M.Has tag present u) ∧ (users.map (M.key tag)).Nodup := by
  induction users generalizing present with
  | nil => simp [delRefusal, firstRefusal]
  | cons u users ih =>
    rw [delRefusal, firstRefusal_cons_eq_none_iff, delError_eq_none_iff, ← delRefusal, ih]
    simp only [UserManager.has_without, List.forall_mem_cons, List.map_cons, List.nodup_cons,
      List.mem_map, List.map_nil, List.mem_singleton, not_exists, not_and, forall_and]
    tauto

end Errors

namespace Xray

/-! ### The calls -/

/-- The emails in the user manager of an inbound. -/
def managed (x : Xray) (tag : String) : Option (List String) :=
  (x.handlers.lookup tag).map Inbound.users

section Manager

variable (x : Xray) (M : UserManager) (tag : String) (type : NodeType) (users : List UserInfo)
  (build : UserInfo → Option String)

/-- `Xray.AddUsers` with the user manager. -/
def addManaged : Xray × Except XrayError ℕ :=
  x.addUsers tag type users (addRefusal M build tag ((x.managed tag).getD []) users)

/-- `Xray.DelUsers` with the user manager. -/
def delManaged : Xray × Option XrayError :=
  match x.handlers.lookup tag with
  | none => (x, some (.getUserManager tag))
  | some i =>
    let (removed, err) := upTo users (delRefusal M tag i.users users)
    let i' := { i with users := M.without tag i.users removed }
    (removed.foldl (delUser tag) { x with handlers := x.handlers.insert tag i' }, err.map .user)

/-- The user is in the user manager. -/
def Present (u : UserInfo) : Prop := ∃ present, x.managed tag = some present ∧ M.Has tag present u

/-- There is a user manager, and the user is not in it. -/
def Absent (u : UserInfo) : Prop := ∃ present, x.managed tag = some present ∧ ¬ M.Has tag present u

/-- All users of the list can be added: the type is supported and there is a user manager, the users
can be built, and their emails are distinct and not present. -/
def AddsAll : Prop :=
  supports type = true ∧ x.managed tag ≠ none ∧
    (∀ u ∈ users, build u = none ∧ ¬ x.Present M tag u) ∧ (users.map (M.key tag)).Nodup

/-- Not even the first user of the list is added. -/
def AddsNone : Prop :=
  supports type = false ∨ x.managed tag = none ∨
    ∃ u ∈ users.head?, build u ≠ none ∨ x.Present M tag u

/-- All users of the list can be removed. -/
def DelsAll : Prop :=
  x.managed tag ≠ none ∧ (∀ u ∈ users, x.Present M tag u) ∧ (users.map (M.key tag)).Nodup

/-- Not even the first user of the list is removed. -/
def DelsNone : Prop := x.managed tag = none ∨ ∃ u ∈ users.head?, ¬ x.Present M tag u

/-- The ids of the users are written already. Of users with the same uuid the last one counts. -/
def Registered : Prop :=
  ∀ pre u post, users = pre ++ u :: post → u.uuid ∉ post.map UserInfo.uuid →
    x.registry.uidMap.lookup (userTag tag u.uuid) = some u.id

/-- How many users `AddUsers` adds before it returns an error, if it does. -/
def addStop : Option ℕ :=
  if supports type then
    match x.managed tag with
    | none => some 0
    | some present => (addRefusal M build tag present users).map Prod.fst
  else some 0

/-- How many users `DelUsers` removes before it returns an error, if it does. -/
def delStop : Option ℕ :=
  match x.managed tag with
  | none => some 0
  | some present => (delRefusal M tag present users).map Prod.fst

end Manager

/-- The users of the user manager and the ids are as they were. -/
structure Kept (x x' : Xray) (tag : String) : Prop where
  managed : x'.managed tag = x.managed tag
  uidMap : x'.registry.uidMap = x.registry.uidMap

section Present

variable {x x' : Xray} {M : UserManager} {tag : String} {u : UserInfo}

theorem present_iff {present : List String} (h : x.managed tag = some present) :
    x.Present M tag u ↔ M.Has tag present u := by
  simp [Present, h]

theorem Absent.not_present (h : x.Absent M tag u) : ¬ x.Present M tag u := by
  obtain ⟨present, hpresent, hnot⟩ := h
  rwa [present_iff hpresent]

theorem Kept.present_iff (h : Kept x x' tag) : x'.Present M tag u ↔ x.Present M tag u := by
  rw [Present, Present, h.managed]

theorem registered_iff {users : List UserInfo} : x.Registered tag users ↔
    (x.registry.register (fun u => userTag tag u.uuid) users).uidMap = x.registry.uidMap := by
  rw [TrafficRegistry.register, GoMap.storeAll_eq_self_iff, Registered]
  simp only [List.mem_map, userTag_inj]

end Present

section Calls

variable {x : Xray} {M : UserManager} {tag : String} {type : NodeType} (users : List UserInfo)
  (build : UserInfo → Option String)

/-! ### What a call does -/

theorem uidMap_addManaged : (x.addManaged M tag type users build).1.registry.uidMap =
    (x.registry.register (fun u => userTag tag u.uuid) users).uidMap := by
  rw [addManaged, addUsers]
  dsimp only
  split_ifs
  · rcases x.handlers.lookup tag with _ | i
    · rfl
    · rfl
  · rfl

/-- What `AddUsers` does if it gets to the user manager. -/
theorem addManaged_of_managed (htype : supports type = true) {present : List String}
    (hpresent : x.managed tag = some present) :
    (x.addManaged M tag type users build).1.managed tag = some (present ++
        (upTo users (addRefusal M build tag present users)).1.map fun u => userTag tag u.uuid) ∧
      ((∃ err, (x.addManaged M tag type users build).2 = .error err) ↔
        addRefusal M build tag present users ≠ none) := by
  obtain ⟨i, hi, rfl⟩ := Option.map_eq_some_iff.mp hpresent
  rw [addManaged, addUsers]
  dsimp only
  rw [if_pos htype, hi, hpresent, Option.getD_some]
  constructor
  · dsimp only [managed]
    rw [GoMap.lookup_insert, if_pos rfl]
    rfl
  · dsimp only
    rw [addRefusal, upTo_firstRefusal]
    rcases firstRefusal (addError M build tag) _ i.users users with _ | ⟨n, err⟩
    · exact iff_of_false (fun ⟨err, h⟩ => by cases h) fun h => h rfl
    · exact iff_of_true ⟨_, rfl⟩ nofun

/-- `AddUsers` leaves the user manager if it does not get to it. -/
theorem addManaged_of_not (h : supports type = false ∨ x.managed tag = none) :
    (x.addManaged M tag type users build).1.managed tag = x.managed tag ∧
      ∃ err, (x.addManaged M tag type users build).2 = .error err := by
  rw [addManaged, addUsers]
  dsimp only
  split_ifs with htype
  · rcases h with hnot | hnone
    · rw [htype] at hnot
      cases hnot
    · rw [managed, Option.map_eq_none_iff] at hnone
      rw [hnone]
      exact ⟨rfl, _, rfl⟩
  · exact ⟨rfl, _, rfl⟩

/-- What `DelUsers` does if it gets to the user manager. -/
theorem delManaged_of_managed {present : List String} (hpresent : x.managed tag = some present) :
    (x.delManaged M tag users).1.managed tag =
        some (M.without tag present (upTo users (delRefusal M tag present users)).1) ∧
      (x.delManaged M tag users).1.registry.uidMap = GoMap.deleteAll
        ((upTo users (delRefusal M tag present users)).1.map fun u => userTag tag u.uuid)
        x.registry.uidMap ∧
      ((x.delManaged M tag users).2 ≠ none ↔ delRefusal M tag present users ≠ none) := by
  obtain ⟨i, hi, rfl⟩ := Option.map_eq_some_iff.mp hpresent
  rw [delManaged, hi]
  dsimp only
  rw [foldl_delUser]
  refine ⟨?_, ?_, ?_⟩
  · dsimp only [managed]
    rw [GoMap.lookup_insert, if_pos rfl]
    rfl
  · exact TrafficRegistry.uidMap_foldl_forget ..
  · rw [delRefusal, upTo_firstRefusal]
    rcases firstRefusal (delError M tag) _ i.users users with _ | ⟨n, err⟩
    · exact iff_of_false (fun h => h rfl) fun h => h rfl
    · exact iff_of_true nofun nofun

/-- Where no emails differ in case only, the user manager removes those of the users. -/
theorem delManaged_eq_delUsers {i : Inbound} (hi : x.handlers.lookup tag = some i)
    (hcase : ∀ email ∈ i.users, ∀ u ∈ users, M.toLower email = M.key tag u →
      email = userTag tag u.uuid) :
    x.delManaged M tag users = x.delUsers tag users (delRefusal M tag i.users users) := by
  rw [delManaged, delUsers, hi]
  dsimp only
  have husers : M.without tag i.users (upTo users (delRefusal M tag i.users users)).1 =
      i.users.filter
        (· ∉ (upTo users (delRefusal M tag i.users users)).1.map fun u => userTag tag u.uuid) := by
    refine List.filter_congr fun email hemail => decide_eq_decide.mpr (not_congr ?_)
    rw [List.mem_map, List.mem_map]
    constructor
    · rintro ⟨u, hu, hkey⟩
      exact ⟨u, hu, (hcase email hemail u (mem_of_mem_upTo hu) hkey.symm).symm⟩
    · rintro ⟨u, hu, rfl⟩
      exact ⟨u, hu, rfl⟩
  rw [husers]

/-- `DelUsers` leaves everything if there is no user manager. -/
theorem delManaged_of_none (h : x.managed tag = none) :
    x.delManaged M tag users = (x, some (.getUserManager tag)) := by
  rw [managed, Option.map_eq_none_iff] at h
  rw [delManaged, h]

/-! ### Where a call stops -/

/-- `AddUsers` stops before the user manager, or where the user manager refuses a user. -/
theorem addStop_cases (x : Xray) (tag : String) (type : NodeType) :
    ((supports type = false ∨ x.managed tag = none) ∧
        x.addStop M tag type users build = some 0) ∨
      ∃ present, supports type = true ∧ x.managed tag = some present ∧
        x.addStop M tag type users build = (addRefusal M build tag present users).map Prod.fst := by
  rw [addStop]
  split_ifs with htype
  · rcases hpresent : x.managed tag with _ | present
    · exact .inl ⟨.inr rfl, rfl⟩
    · exact .inr ⟨present, htype, rfl, rfl⟩
  · exact .inl ⟨.inl (Bool.eq_false_iff.mpr htype), rfl⟩

/-- `DelUsers` stops before the user manager, or where the user manager refuses a user. -/
theorem delStop_cases (x : Xray) (tag : String) :
    (x.managed tag = none ∧ x.delStop M tag users = some 0) ∨
      ∃ present, x.managed tag = some present ∧
        x.delStop M tag users = (delRefusal M tag present users).map Prod.fst := by
  rw [delStop]
  rcases hpresent : x.managed tag with _ | present
  · exact .inl ⟨rfl, rfl⟩
  · exact .inr ⟨present, rfl, rfl⟩

/-- `AddUsers` returns an error exactly if it stops. -/
theorem exists_error_iff_addStop : (∃ err, (x.addManaged M tag type users build).2 = .error err) ↔
    x.addStop M tag type users build ≠ none := by
  rcases addStop_cases users build x tag type with ⟨hnot, hstop⟩ | ⟨present, htype, hpresent, hstop⟩
  · rw [hstop]
    exact iff_of_true (addManaged_of_not users build hnot).2 nofun
  · rw [hstop, (addManaged_of_managed users build htype hpresent).2]
    exact not_congr Option.map_eq_none_iff.symm

/-- `DelUsers` returns an error exactly if it stops. -/
theorem delManaged_ne_none_iff_delStop : (x.delManaged M tag users).2 ≠ none ↔
    x.delStop M tag users ≠ none := by
  rcases delStop_cases users x tag with ⟨hnone, hstop⟩ | ⟨present, hpresent, hstop⟩
  · rw [hstop, delManaged_of_none users hnone]
    exact iff_of_true nofun nofun
  · rw [hstop, (delManaged_of_managed users hpresent).2.2]
    exact not_congr Option.map_eq_none_iff.symm

/-- `AddUsers` leaves the user manager if it stops at once. -/
theorem managed_addManaged_of_zero (h : x.addStop M tag type users build = some 0) :
    (x.addManaged M tag type users build).1.managed tag = x.managed tag := by
  rcases addStop_cases users build x tag type with ⟨hnot, -⟩ | ⟨present, htype, hpresent, hstop⟩
  · exact (addManaged_of_not users build hnot).1
  · have hnone : (upTo users (addRefusal M build tag present users)).1 = [] :=
      upTo_of_firstRefusal_zero (hstop.symm.trans h)
    rw [(addManaged_of_managed users build htype hpresent).1, hnone, List.map_nil,
      List.append_nil, hpresent]

/-- `DelUsers` leaves the users and the ids if it stops at once. -/
theorem Kept.of_delStop_zero (h : x.delStop M tag users = some 0) :
    Kept x (x.delManaged M tag users).1 tag := by
  rcases delStop_cases users x tag with ⟨hnone, -⟩ | ⟨present, hpresent, hstop⟩
  · rw [delManaged_of_none users hnone]
    exact ⟨rfl, rfl⟩
  · have hnone : (upTo users (delRefusal M tag present users)).1 = [] :=
      upTo_of_firstRefusal_zero (hstop.symm.trans h)
    obtain ⟨hmanaged, huid, -⟩ := delManaged_of_managed users hpresent
    rw [hnone] at hmanaged huid
    refine ⟨?_, huid⟩
    rw [hmanaged, hpresent]
    exact congrArg some (List.filter_eq_self.mpr fun _ _ => by simp)

/-- If `AddUsers` does not stop at once, the first user of the list was absent and is present. -/
theorem present_of_addStop {u : UserInfo} {rest : List UserInfo}
    (h : x.addStop M tag type (u :: rest) build ≠ some 0) :
    x.Absent M tag u ∧ (x.addManaged M tag type (u :: rest) build).1.Present M tag u := by
  rcases addStop_cases (u :: rest) build x tag type with
    ⟨-, hstop⟩ | ⟨present, htype, hpresent, hstop⟩
  · exact absurd hstop h
  · rw [hstop, addRefusal, Ne, firstRefusal_zero_iff] at h
    have hu : addError M build tag present u = none := by
      by_contra hu
      exact h ⟨u, rfl, hu⟩
    refine ⟨⟨present, hpresent, (addError_eq_none_iff.mp hu).2⟩, _,
      (addManaged_of_managed (u :: rest) build htype hpresent).1, ?_⟩
    obtain ⟨added, hadded⟩ := exists_upTo_of_none hu rest
    rw [addRefusal, hadded, UserManager.Has, List.map_append, List.map_cons]
    exact List.mem_append_right _ List.mem_cons_self

/-- If `DelUsers` does not stop at once, the first user of the list was present and is absent. -/
theorem absent_of_delStop {u : UserInfo} {rest : List UserInfo}
    (h : x.delStop M tag (u :: rest) ≠ some 0) :
    x.Present M tag u ∧ (x.delManaged M tag (u :: rest)).1.Absent M tag u := by
  rcases delStop_cases (u :: rest) x tag with ⟨-, hstop⟩ | ⟨present, hpresent, hstop⟩
  · exact absurd hstop h
  · rw [hstop, delRefusal, Ne, firstRefusal_zero_iff] at h
    have hu : delError M tag present u = none := by
      by_contra hu
      exact h ⟨u, rfl, hu⟩
    refine ⟨⟨present, hpresent, delError_eq_none_iff.mp hu⟩, _,
      (delManaged_of_managed (u :: rest) hpresent).1, fun hhas => ?_⟩
    obtain ⟨removed, hremoved⟩ := exists_upTo_of_none hu rest
    rw [delRefusal, hremoved] at hhas
    exact (UserManager.has_without.mp hhas).2 List.mem_cons_self

/-! ### When a call that fails has changed nothing -/

/-- `AddUsers` changes the user manager if it stops after a user. -/
theorem not_kept_of_addStop_succ {n : ℕ} (h : x.addStop M tag type users build = some (n + 1)) :
    ¬ Kept x (x.addManaged M tag type users build).1 tag := by
  rcases users with _ | ⟨u, rest⟩
  · rcases addStop_cases [] build x tag type with ⟨-, hstop⟩ | ⟨present, -, -, hstop⟩
    · cases h.symm.trans hstop
    · cases h.symm.trans hstop
  · intro hkept
    obtain ⟨habsent, hpresent⟩ := present_of_addStop build (h.trans_ne nofun)
    exact habsent.not_present (hkept.present_iff.mp hpresent)

/-- `DelUsers` changes the user manager if it stops after a user. -/
theorem not_kept_of_delStop_succ {n : ℕ} (h : x.delStop M tag users = some (n + 1)) :
    ¬ Kept x (x.delManaged M tag users).1 tag := by
  rcases users with _ | ⟨u, rest⟩
  · rcases delStop_cases [] x tag with ⟨-, hstop⟩ | ⟨present, -, hstop⟩
    · cases h.symm.trans hstop
    · cases h.symm.trans hstop
  · intro hkept
    obtain ⟨hpresent, habsent⟩ := absent_of_delStop (h.trans_ne nofun)
    exact habsent.not_present (hkept.present_iff.mpr hpresent)

/-- `AddUsers` gets through exactly the lists that it can add. -/
theorem addStop_eq_none_iff :
    x.addStop M tag type users build = none ↔ x.AddsAll M tag type users build := by
  rcases addStop_cases users build x tag type with ⟨hnot, hstop⟩ | ⟨present, htype, hpresent, hstop⟩
  · rw [hstop, AddsAll]
    refine iff_of_false nofun ?_
    rintro ⟨htype, hmanaged, -⟩
    rcases hnot with hfalse | hnone
    · rw [htype] at hfalse
      cases hfalse
    · exact hmanaged hnone
  · rw [hstop, Option.map_eq_none_iff, addRefusal_eq_none_iff, AddsAll, and_iff_right htype,
      and_iff_right (hpresent.trans_ne (Option.some_ne_none _))]
    simp only [present_iff hpresent]

/-- `AddUsers` stops at once exactly if it can add no user. -/
theorem addStop_eq_zero_iff :
    x.addStop M tag type users build = some 0 ↔ x.AddsNone M tag type users build := by
  rcases addStop_cases users build x tag type with ⟨hnot, hstop⟩ | ⟨present, htype, hpresent, hstop⟩
  · rw [hstop, AddsNone, ← or_assoc]
    exact iff_of_true rfl (.inl hnot)
  · rw [hstop, addRefusal, firstRefusal_zero_iff, AddsNone, htype, hpresent]
    simp only [ne_eq, addError_eq_none_iff, present_iff hpresent, reduceCtorEq, false_or,
      not_and_or, not_not]

/-- `DelUsers` gets through exactly the lists that it can remove. -/
theorem delStop_eq_none_iff : x.delStop M tag users = none ↔ x.DelsAll M tag users := by
  rcases delStop_cases users x tag with ⟨hnone, hstop⟩ | ⟨present, hpresent, hstop⟩
  · rw [hstop, DelsAll, hnone]
    exact iff_of_false nofun fun h => h.1 rfl
  · rw [hstop, Option.map_eq_none_iff, delRefusal_eq_none_iff, DelsAll,
      and_iff_right (hpresent.trans_ne (Option.some_ne_none _))]
    simp only [present_iff hpresent]

/-- `DelUsers` stops at once exactly if it can remove no user. -/
theorem delStop_eq_zero_iff : x.delStop M tag users = some 0 ↔ x.DelsNone M tag users := by
  rcases delStop_cases users x tag with ⟨hnone, hstop⟩ | ⟨present, hpresent, hstop⟩
  · rw [hstop, DelsNone]
    exact iff_of_true rfl (.inl hnone)
  · rw [hstop, delRefusal, firstRefusal_zero_iff, DelsNone, hpresent]
    simp only [ne_eq, delError_eq_none_iff, present_iff hpresent, reduceCtorEq, false_or]

/-- A call that fails leaves the users and the ids exactly if the whole list can be changed, so that
it does not fail, or not even the first user; for `AddUsers` the ids of the list have to be there
already in the second case. -/
theorem user_changes_atomic_iff (x : Xray) (M : UserManager) (tag : String) (type : NodeType)
    (users : List UserInfo) (build : UserInfo → Option String) :
    (((∃ err, (x.addManaged M tag type users build).2 = .error err) →
        Kept x (x.addManaged M tag type users build).1 tag) ↔
      x.AddsAll M tag type users build ∨
        x.AddsNone M tag type users build ∧ x.Registered tag users) ∧
    (((x.delManaged M tag users).2 ≠ none → Kept x (x.delManaged M tag users).1 tag) ↔
      x.DelsAll M tag users ∨ x.DelsNone M tag users) := by
  constructor
  · rw [exists_error_iff_addStop, ← addStop_eq_none_iff, ← addStop_eq_zero_iff, registered_iff,
      ← uidMap_addManaged users build]
    rcases hstop : x.addStop M tag type users build with _ | _ | n
    · exact iff_of_true (fun h => absurd rfl h) (.inl rfl)
    · have hmanaged := managed_addManaged_of_zero users build hstop
      constructor
      · intro h
        exact .inr ⟨rfl, (h nofun).uidMap⟩
      · rintro (hnone | ⟨-, hregistered⟩) -
        · cases hnone
        · exact ⟨hmanaged, hregistered⟩
    · refine iff_of_false (fun h => not_kept_of_addStop_succ users build hstop (h nofun)) ?_
      rintro (hnone | ⟨hzero, -⟩)
      · cases hnone
      · cases hzero
  · rw [delManaged_ne_none_iff_delStop, ← delStop_eq_none_iff, ← delStop_eq_zero_iff]
    rcases hstop : x.delStop M tag users with _ | _ | n
    · exact iff_of_true (fun h => absurd rfl h) (.inl rfl)
    · exact iff_of_true (fun _ => .of_delStop_zero users hstop) (.inr rfl)
    · refine iff_of_false (fun h => not_kept_of_delStop_succ users hstop (h nofun)) ?_
      rintro (hnone | hzero)
      · cases hnone
      · cases hzero

end Calls

/-! ### The ticks that follow -/

/-- The calls of `nodeInfoMonitor` for the users that have been deleted and added. -/
def sync (x : Xray) (M : UserManager) (tag : String) (type : NodeType)
    (deleted added : List UserInfo) (build : UserInfo → Option String) : Xray × Option XrayError :=
  let afterDel := if deleted = [] then (x, none) else x.delManaged M tag deleted
  match afterDel.2 with
  | some err => (afterDel.1, some err)
  | none =>
    if added = [] then (afterDel.1, none)
    else
      let afterAdd := afterDel.1.addManaged M tag type added build
      (afterAdd.1,
        match afterAdd.2 with
        | .error err => some err
        | .ok _ => none)

/-- The first user to delete is absent, or there is none to delete and the first user to add is
present. -/
inductive Stuck (x : Xray) (M : UserManager) (tag : String) :
    List UserInfo → List UserInfo → Prop
  | del {u : UserInfo} {rest : List UserInfo} (added : List UserInfo) (h : x.Absent M tag u) :
    Stuck x M tag (u :: rest) added
  | add {u : UserInfo} {rest : List UserInfo} (h : x.Present M tag u) : Stuck x M tag [] (u :: rest)

section Sync

variable {x : Xray} {M : UserManager} {tag : String} (type : NodeType) {u : UserInfo}
  (rest : List UserInfo) (build : UserInfo → Option String)

/-- `DelUsers` of an absent user fails at once. -/
theorem delStop_of_absent (h : x.Absent M tag u) : x.delStop M tag (u :: rest) = some 0 := by
  by_contra hzero
  exact h.not_present (absent_of_delStop hzero).1

/-- `AddUsers` of a present user fails at once. -/
theorem addStop_of_present (h : x.Present M tag u) :
    x.addStop M tag type (u :: rest) build = some 0 := by
  by_contra hzero
  exact (present_of_addStop build hzero).1.not_present h

/-- A tick with no users to delete. -/
theorem sync_nil (x : Xray) (M : UserManager) (tag : String) (u : UserInfo) :
    (x.sync M tag type [] (u :: rest) build).1 = (x.addManaged M tag type (u :: rest) build).1 ∧
      ((x.sync M tag type [] (u :: rest) build).2 ≠ none ↔
        x.addStop M tag type (u :: rest) build ≠ none) := by
  rw [← exists_error_iff_addStop, sync]
  dsimp only
  rw [if_pos rfl, if_neg (List.cons_ne_nil u rest)]
  refine ⟨rfl, ?_⟩
  rcases (x.addManaged M tag type (u :: rest) build).2 with err | n
  · exact iff_of_true nofun ⟨err, rfl⟩
  · exact iff_of_false (fun h => h rfl) fun ⟨_, h⟩ => by cases h

/-- A tick in which `DelUsers` fails. -/
theorem sync_of_delStop (h : x.delStop M tag (u :: rest) ≠ none) (added : List UserInfo) :
    (x.sync M tag type (u :: rest) added build).1 = (x.delManaged M tag (u :: rest)).1 ∧
      (x.sync M tag type (u :: rest) added build).2 ≠ none := by
  rw [← delManaged_ne_none_iff_delStop] at h
  obtain ⟨err, herr⟩ := Option.ne_none_iff_exists'.mp h
  rw [sync]
  dsimp only
  rw [if_neg (List.cons_ne_nil u rest), herr]
  exact ⟨rfl, nofun⟩

/-- A tick that finds the controller stuck fails and leaves it stuck. -/
theorem Stuck.sync {deleted added : List UserInfo} (h : x.Stuck M tag deleted added) :
    (x.sync M tag type deleted added build).2 ≠ none ∧
      (x.sync M tag type deleted added build).1.Stuck M tag deleted added := by
  rcases h with @⟨u, rest, _, habsent⟩ | @⟨u, rest, hpresent⟩
  · have hstop := delStop_of_absent rest habsent
    obtain ⟨hsync, herr⟩ := sync_of_delStop type rest build (hstop.trans_ne nofun) added
    refine ⟨herr, .del added ?_⟩
    rw [hsync, Absent, (Kept.of_delStop_zero _ hstop).managed]
    exact habsent
  · have hstop := addStop_of_present type rest build hpresent
    obtain ⟨hsync, herr⟩ := sync_nil type rest build x M tag u
    refine ⟨herr.mpr (hstop.trans_ne nofun), .add ?_⟩
    rw [hsync, Present, managed_addManaged_of_zero _ build hstop]
    exact hpresent

end Sync

/-- The user manager of a VMess inbound. -/
def vmessManager : UserManager := ⟨String.toLower, "proxy/vmess/inbound"⟩

/-- A tick adds two users, and the second one cannot be built. `AddUsers` returns its error, the
first user is in the user manager, the ids of both are written, and the same call fails from then on
because the first user exists, even if the second one could be built. -/
theorem addManaged_half_applied :
    let a : UserInfo := { id := 1, uuid := "a" }
    let b : UserInfo := { id := 2, uuid := "b" }
    let x := (Xray.addNode {} "t" { id := 1, type := .vmess } 0 none none).1
    let build : UserInfo → Option String := fun u => if u = b then some "bad user" else none
    let x' := (x.addManaged vmessManager "t" .vmess [a, b] build).1
    (x.addManaged vmessManager "t" .vmess [a, b] build).2 = .error (.user "bad user") ∧
      x.managed "t" = some [] ∧ x'.managed "t" = some ["t|a"] ∧
      x.registry.uidMap.lookup "t|b" = none ∧ x'.registry.uidMap.lookup "t|b" = some 2 ∧
      (x'.addManaged vmessManager "t" .vmess [a, b] fun _ => none).2 =
        .error (.user "proxy/vmess/inbound: User t|a already exists.") := by
  decide +kernel

end Xray

end Tox.Core
