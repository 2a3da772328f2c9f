import Tox.Core.Sing
import Tox.Foundation.Outcome
import Tox.Inbound.UidRegistry

/-!
# Changing the users of the sing core

`Sing.AddUsers` writes the ids of the users and calls `AddUsers` of the inbound. The tuic inbound
and the shadowsocks inbound append the users to their lists and then hand the whole list to the
service. A name that is no UUID, or a password that the service cannot use, is found only then: the
service keeps the users it has, and the error is returned. The lists, the maps and the ids have been
extended by that time, and they stay so. So a call that returns an error leaves everything as it was
only if its list is empty, or if there is no inbound (`additions_atomic_iff`).

The entry that has been refused is checked again with every later list. Every later call of
`AddUsers`, and every call of `DelUsers` with other names, returns an error, however valid its users
are, until the name of the entry is deleted (`later_calls_fail`).

The passwords for two of the ciphers are made of the first bytes of the uuid; a shorter uuid panics.
-/

namespace Tox.Core

open Tox.Foundation Tox.Inbound Tox.Panel

/-! ### The users of an inbound -/

/-- The library functions that check the users of an inbound, for the type `β` of UUIDs. -/
structure UserLibrary (β : Type) where
  /-- `uuid.FromString`. -/
  fromString : String → Except String β
  /-- `base64.StdEncoding.EncodeToString`. -/
  encodeToString : List UInt8 → String
  /-- The shadowsocks service with the cipher can use the password. -/
  usable : String → String → Bool
  /-- The error of `UpdateUsersWithPasswords` of the service with the cipher. -/
  updateUsersWithPasswords : String → List String → Option String
  updateUsersWithPasswords_eq_none_iff : ∀ cipher passwords,
    updateUsersWithPasswords cipher passwords = none ↔
      ∀ password ∈ passwords, usable cipher password = true

/-- The users of a tuic inbound, or of a shadowsocks inbound with its cipher. -/
inductive UserTable (β : Type)
  | tuic (h : UidInbound (β × String))
  | shadowsocks (cipher : String) (h : IndexedInbound)

variable {β : Type} (lib : UserLibrary β)

/-- The first bytes of a uuid, encoded. A uuid that is shorter panics. -/
def encodeFirst (n : ℕ) (uuid : String) : Outcome String PanicKind String :=
  if n ≤ uuid.toUTF8.size then .ok (lib.encodeToString (uuid.toUTF8.toList.take n))
  else .error (.panic .indexOutOfRange)

/-- The password that `Sing.AddUsers` makes for a shadowsocks inbound. -/
def shadowsocksPassword (cipher uuid : String) : Outcome String PanicKind String :=
  match cipher with
  | "2022-blake3-aes-128-gcm" => encodeFirst lib 16 uuid
  | "2022-blake3-aes-256-gcm" => encodeFirst lib 32 uuid
  | _ => .ok uuid

/-- The user that `Sing.AddUsers` makes for a shadowsocks inbound. -/
def shadowsocksUser (cipher : String) (u : UserInfo) : Outcome String PanicKind InboundUser := do
  let password ← shadowsocksPassword lib cipher u.uuid
  pure ⟨u.uuid, password⟩

namespace UserTable

/-- The protocol of a shadowsocks inbound. -/
def service (cipher : String) : IndexedProtocol :=
  .shadowsocks fun passwords => (lib.updateUsersWithPasswords cipher passwords).isNone

/-- The error of the service for the users of a shadowsocks inbound. -/
def serviceError (cipher : String) (users : List InboundUser) : Option String :=
  lib.updateUsersWithPasswords cipher (users.map InboundUser.credential)

/-- The part of `Sing.AddUsers` that depends on the type of the node, with `AddUsers` of the
inbound. -/
def addUsers (t : UserTable β) (users : List UserInfo) :
    UserTable β × Option (Fault String PanicKind) :=
  match t with
  | .tuic h =>
    let P := UidProtocol.tuic lib.fromString
    let r := h.addUsers P (users.map fun u => (P.user u, u.id))
    (.tuic r.1, r.2.map .error)
  | .shadowsocks cipher h =>
    match users.mapM (shadowsocksUser lib cipher) with
    | .error fault => (.shadowsocks cipher h, some fault)
    | .ok us =>
      (.shadowsocks cipher (h.addUsers (service lib cipher) us),
        (serviceError lib cipher (h.users ++ us)).map .error)

/-- `DelUsers` of the inbound. -/
def delUsers (t : UserTable β) (names : List String) : UserTable β × Option String :=
  match t with
  | .tuic h =>
    let r := h.delUsers (UidProtocol.tuic lib.fromString) names
    (.tuic r.1, r.2)
  | .shadowsocks cipher h =>
    (.shadowsocks cipher (h.delUsers (service lib cipher) names),
      serviceError lib cipher (h.users.filter fun user => user.name ∉ names))

/-- The list of users, with what the service checks of each. -/
def entries : UserTable β → List InboundUser
  | .tuic h => h.userNameList.map fun name => ⟨name, name⟩
  | .shadowsocks _ h => h.users

/-- The entry that `Sing.AddUsers` makes for a user. -/
def entryOf (t : UserTable β) (u : UserInfo) : Outcome String PanicKind InboundUser :=
  match t with
  | .tuic _ => .ok ⟨u.uuid, u.uuid⟩
  | .shadowsocks cipher _ => shadowsocksUser lib cipher u

/-- The service can serve an entry. -/
def serves (t : UserTable β) (e : InboundUser) : Bool :=
  match t with
  | .tuic _ => (lib.fromString e.credential).isOk
  | .shadowsocks cipher _ => lib.usable cipher e.credential

/-- The list has an entry with the name that the service cannot serve. -/
def Bad (t : UserTable β) (name : String) : Prop :=
  ∃ e ∈ t.entries, e.name = name ∧ t.serves lib e = false

/-- The service can serve a user of the panel. -/
def Valid (t : UserTable β) (u : UserInfo) : Prop :=
  ∃ e, t.entryOf lib u = .ok e ∧ t.serves lib e = true

end UserTable

/-! ### The core -/

/-- An inbound of the sing-box instance with its users. -/
structure BoxInbound (β : Type) where
  info : NodeInfo
  table : UserTable β

/-- `sing.Sing`, with the users of its inbounds in full. -/
structure SingBox (β : Type) where
  registry : TrafficRegistry := {}
  inbounds : GoMap String (BoxInbound β) := ∅

namespace SingBox

/-- `Sing.AddUsers`. -/
def addUsers (b : SingBox β) (tag : String) (users : List UserInfo) :
    SingBox β × Outcome String PanicKind ℕ :=
  match b.inbounds.lookup tag with
  | none => (b, .fail "the inbound not found")
  | some i =>
    let r := i.table.addUsers lib users
    ({ registry := b.registry.register UserInfo.uuid users
       inbounds := b.inbounds.insert tag { i with table := r.1 } },
      match r.2 with
      | some fault => .error fault
      | none => .ok users.length)

/-- `Sing.DelUsers`. -/
def delUsers (b : SingBox β) (tag : String) (users : List UserInfo) :
    SingBox β × Option String :=
  match b.inbounds.lookup tag with
  | none => (b, some "the inbound not found")
  | some i =>
    let r := i.table.delUsers lib (users.map UserInfo.uuid)
    ({ registry := users.foldl (fun r u => r.forget tag u.uuid) b.registry
       inbounds := b.inbounds.insert tag { i with table := r.1 } },
      r.2)

end SingBox

/-! ### What a call does to a list of users -/

section Tables

variable {υ κ : Type} {P : UidProtocol υ κ}

/-- The lists for a service can be made if all the names have credentials. -/
theorem exists_serviceUsers_iff (m : GoMap String ℤ) (i : ℕ) (names : List String) :
    (∃ users, UidInbound.serviceUsers P m i names = .ok users) ↔
      ∀ name ∈ names, (P.credential name).isOk = true := by
  induction names generalizing i with
  | nil => exact iff_of_true ⟨[], rfl⟩ nofun
  | cons name names ih =>
    rw [List.forall_mem_cons, ← ih (i + 1), UidInbound.serviceUsers]
    rcases P.credential name with err | c
    · refine iff_of_false ?_ fun h => by cases h.1
      rintro ⟨_, h⟩
      cases h
    · rcases UidInbound.serviceUsers P m (i + 1) names with err | users
      · refine iff_of_false ?_ ?_
        · rintro ⟨_, h⟩
          cases h
        · rintro ⟨-, _, h⟩
          cases h
      · exact iff_of_true ⟨_, rfl⟩ ⟨rfl, users, rfl⟩

/-- The service of a tuic inbound gets the list if all its names have credentials. -/
theorem updateUsers_spec (h : UidInbound κ) :
    (h.updateUsers P).1.userNameList = h.userNameList ∧
      ((h.updateUsers P).2 = none ↔ ∀ name ∈ h.userNameList, (P.credential name).isOk = true) := by
  rw [← exists_serviceUsers_iff h.uuidToUid 0, UidInbound.updateUsers]
  rcases UidInbound.serviceUsers P h.uuidToUid 0 h.userNameList with err | users
  · refine ⟨rfl, iff_of_false (fun h => by cases h) ?_⟩
    rintro ⟨_, h⟩
    cases h
  · exact ⟨rfl, iff_of_true rfl ⟨users, rfl⟩⟩

/-- `AddUsers` of an inbound with ids. -/
theorem uidAddUsers_spec (h : UidInbound κ) (users : List UserInfo) :
    (h.addUsers P (users.map fun u => (P.user u, u.id))).1.userNameList =
        h.userNameList ++ users.map UserInfo.uuid ∧
      ((h.addUsers P (users.map fun u => (P.user u, u.id))).2 = none ↔
        ∀ name ∈ h.userNameList ++ users.map UserInfo.uuid, (P.credential name).isOk = true) := by
  rw [← userNameList_registerAll h users]
  exact updateUsers_spec _

/-- `DelUsers` of an inbound with ids. -/
theorem uidDelUsers_spec (h : UidInbound κ) {names : List String} (hnames : names ≠ []) :
    (h.delUsers P names).1.userNameList = h.userNameList.filter (· ∉ names) ∧
      ((h.delUsers P names).2 = none ↔
        ∀ name ∈ h.userNameList.filter (· ∉ names), (P.credential name).isOk = true) := by
  rw [UidInbound.delUsers, if_neg hnames, ← userNameList_deleteNames h names]
  exact updateUsers_spec _

/-- If the service does not get the list, nothing changes. -/
theorem updateUsers_of_error {h : UidInbound κ} (herr : (h.updateUsers P).2 ≠ none) :
    (h.updateUsers P).1 = h := by
  rw [UidInbound.updateUsers] at herr ⊢
  rcases hs : UidInbound.serviceUsers P h.uuidToUid 0 h.userNameList with err | users
  · rfl
  · rw [hs] at herr
    exact absurd rfl herr

end Tables

namespace UserTable

variable {lib}

theorem isOk_credential_tuic (name : String) :
    ((UidProtocol.tuic lib.fromString).credential name).isOk = (lib.fromString name).isOk := by
  change ((lib.fromString name).map fun id => (id, name)).isOk = _
  rcases lib.fromString name with err | id
  · rfl
  · rfl

/-- The service of a shadowsocks inbound takes a list if it can use all the passwords. -/
theorem serviceError_eq_none_iff (cipher : String) (users : List InboundUser) :
    serviceError lib cipher users = none ↔
      ∀ e ∈ users, lib.usable cipher e.credential = true := by
  rw [serviceError, lib.updateUsersWithPasswords_eq_none_iff, List.forall_mem_map]

theorem users_updateUsers (P : IndexedProtocol) (h : IndexedInbound) :
    (h.updateUsers P).users = h.users := by
  rw [IndexedInbound.updateUsers]
  split_ifs
  · rfl
  · rfl

/-- If the service refuses the list, nothing changes. -/
theorem updateUsers_of_refused {cipher : String} {h : IndexedInbound}
    (herr : serviceError lib cipher h.users ≠ none) :
    h.updateUsers (service lib cipher) = h :=
  if_neg fun haccepts => herr (Option.isNone_iff_eq_none.mp haccepts)

/-- The entry of a user has its uuid as the name. -/
theorem name_of_entryOf {t : UserTable β} {u : UserInfo} {e : InboundUser}
    (h : t.entryOf lib u = .ok e) : e.name = u.uuid := by
  rcases t with _ | ⟨cipher, _⟩
  · obtain rfl := Except.ok.inj h
    rfl
  · obtain ⟨password, -, he⟩ := Outcome.bind_eq_ok_iff.mp h
    obtain rfl := Outcome.pure_eq_ok_iff.mp he
    rfl

theorem panic_of_encodeFirst {n : ℕ} {uuid : String} {fault : Fault String PanicKind}
    (h : encodeFirst lib n uuid = .error fault) : fault = .panic .indexOutOfRange := by
  rw [encodeFirst] at h
  split_ifs at h
  · cases h
    rfl

/-- If no entry is made for a user, the call panics. -/
theorem panic_of_entryOf {t : UserTable β} {u : UserInfo} {fault : Fault String PanicKind}
    (h : t.entryOf lib u = .error fault) : fault = .panic .indexOutOfRange := by
  rcases t with _ | ⟨cipher, _⟩
  · cases h
  · rcases hp : shadowsocksPassword lib cipher u.uuid with fault' | password
    · rw [entryOf, shadowsocksUser, hp] at h
      obtain rfl := Except.error.inj h
      unfold shadowsocksPassword at hp
      split at hp
      · exact panic_of_encodeFirst hp
      · exact panic_of_encodeFirst hp
      · cases hp
    · rw [entryOf, shadowsocksUser, hp] at h
      cases h

/-- The entries that `Sing.AddUsers` makes for a tuic inbound. -/
theorem mapM_entryOf_tuic (h : UidInbound (β × String)) (users : List UserInfo) :
    users.mapM (entryOf lib (.tuic h)) = .ok (users.map fun u => ⟨u.uuid, u.uuid⟩) :=
  List.mapM_pure

/-- What `AddUsers` does to the list, and when it returns no error. -/
theorem addUsers_of_ok {t : UserTable β} {users : List UserInfo} {us : List InboundUser}
    (h : users.mapM (t.entryOf lib) = .ok us) :
    (t.addUsers lib users).1.entries = t.entries ++ us ∧
      ((t.addUsers lib users).2 = none ↔ ∀ e ∈ t.entries ++ us, t.serves lib e = true) := by
  rcases t with t | ⟨cipher, t⟩
  · rw [mapM_entryOf_tuic] at h
    obtain rfl := Except.ok.inj h
    have hentries : (t.userNameList.map fun name => (⟨name, name⟩ : InboundUser)) ++
        users.map (fun u => ⟨u.uuid, u.uuid⟩) =
          (t.userNameList ++ users.map UserInfo.uuid).map fun name => ⟨name, name⟩ := by
      rw [List.map_append, List.map_map]
      rfl
    obtain ⟨hnames, hnone⟩ := uidAddUsers_spec (P := .tuic lib.fromString) t users
    dsimp only [addUsers, entries, serves]
    rw [hentries, hnames, Option.map_eq_none_iff, hnone, List.forall_mem_map]
    simp only [isOk_credential_tuic, true_and]
  · dsimp only [addUsers]
    change users.mapM (shadowsocksUser lib cipher) = _ at h
    rw [h]
    refine ⟨users_updateUsers _ _, ?_⟩
    rw [Option.map_eq_none_iff, serviceError_eq_none_iff]
    rfl

/-- A panic leaves the list. -/
theorem addUsers_of_panic {t : UserTable β} {users : List UserInfo}
    {fault : Fault String PanicKind} (h : users.mapM (t.entryOf lib) = .error fault) :
    t.addUsers lib users = (t, some fault) := by
  rcases t with t | ⟨cipher, t⟩
  · rw [mapM_entryOf_tuic] at h
    cases h
  · change users.mapM (shadowsocksUser lib cipher) = _ at h
    dsimp only [addUsers]
    rw [h]

/-- `AddUsers` returns an error or nothing once the entries are made. -/
theorem addUsers_ne_panic {t : UserTable β} {users : List UserInfo} {us : List InboundUser}
    (h : users.mapM (t.entryOf lib) = .ok us) (k : PanicKind) :
    (t.addUsers lib users).2 ≠ some (.panic k) := by
  rcases t with t | ⟨cipher, t⟩
  · intro hpanic
    obtain ⟨err, -, herr⟩ := Option.map_eq_some_iff.mp hpanic
    cases herr
  · change users.mapM (shadowsocksUser lib cipher) = _ at h
    dsimp only [addUsers]
    rw [h]
    intro hpanic
    obtain ⟨err, -, herr⟩ := Option.map_eq_some_iff.mp hpanic
    cases herr

/-- `AddUsers` panics if no entry can be made for a user. -/
theorem addUsers_panics_iff {t : UserTable β} {users : List UserInfo} :
    (∃ k, (t.addUsers lib users).2 = some (.panic k)) ↔
      ∃ u ∈ users, t.entryOf lib u = .error (.panic .indexOutOfRange) := by
  rcases hus : users.mapM (t.entryOf lib) with fault | us
  · obtain ⟨u, hu, hfault⟩ := exists_of_mapM_eq_error hus
    obtain rfl := panic_of_entryOf hfault
    exact iff_of_true ⟨_, congrArg Prod.snd (addUsers_of_panic hus)⟩ ⟨u, hu, hfault⟩
  · refine iff_of_false (fun ⟨k, hk⟩ => addUsers_ne_panic hus k hk) ?_
    rintro ⟨u, hu, hpanic⟩
    obtain ⟨e, he⟩ := exists_ok_of_mapM_eq_ok hus hu
    rw [hpanic] at he
    cases he

/-- The names of the users are appended, unless the call panics. -/
theorem names_addUsers {t : UserTable β} {users : List UserInfo}
    (h : ∀ k, (t.addUsers lib users).2 ≠ some (.panic k)) :
    (t.addUsers lib users).1.entries.map InboundUser.name =
      t.entries.map InboundUser.name ++ users.map UserInfo.uuid := by
  rcases hus : users.mapM (t.entryOf lib) with fault | us
  · obtain ⟨u, -, hfault⟩ := exists_of_mapM_eq_error hus
    rw [addUsers_of_panic hus, panic_of_entryOf hfault] at h
    exact absurd rfl (h _)
  · have hnames : us.map InboundUser.name = users.map UserInfo.uuid := by
      have hforall := mapM_eq_ok_iff.mp hus
      clear h hus
      induction hforall with
      | nil => rfl
      | cons hu _ ih => exact congrArg₂ _ (name_of_entryOf hu) ih
    rw [(addUsers_of_ok hus).1, List.map_append, hnames]

/-- `AddUsers` does not change what the service can serve. -/
theorem serves_addUsers (t : UserTable β) (users : List UserInfo) :
    (t.addUsers lib users).1.serves lib = t.serves lib := by
  rcases t with t | ⟨cipher, t⟩
  · rfl
  · dsimp only [addUsers]
    rcases users.mapM (shadowsocksUser lib cipher) with fault | us
    · rfl
    · rfl

/-- What `DelUsers` does to the list, and when it returns an error. -/
theorem delUsers_spec (lib : UserLibrary β) (t : UserTable β) (names : List String) :
    (t.delUsers lib names).1.entries = t.entries.filter (fun e => e.name ∉ names) ∧
      (names ≠ [] → ((t.delUsers lib names).2 = none ↔
        ∀ e ∈ t.entries.filter (fun e => e.name ∉ names), t.serves lib e = true)) ∧
      (t.delUsers lib names).1.serves lib = t.serves lib := by
  rcases t with t | ⟨cipher, t⟩
  · dsimp only [delUsers, entries, serves]
    rw [List.filter_map]
    by_cases hnil : names = []
    · rw [UidInbound.delUsers, if_pos hnil, hnil]
      refine ⟨?_, fun h => absurd rfl h, rfl⟩
      exact congrArg _ (List.filter_eq_self.mpr fun _ _ => by simp).symm
    · obtain ⟨hnames, hnone⟩ := uidDelUsers_spec (P := .tuic lib.fromString) t hnil
      rw [hnames, hnone, List.forall_mem_map]
      simp only [isOk_credential_tuic]
      exact ⟨rfl, fun _ => Iff.rfl, rfl⟩
  · refine ⟨users_updateUsers _ _, fun _ => ?_, rfl⟩
    exact serviceError_eq_none_iff cipher _

/-! ### Entries that the service refuses -/

section Bad

variable {t : UserTable β} {users : List UserInfo} {name : String}

/-- The entries of the users of a call are served if the users are valid. -/
theorem forall_serves_iff {us : List InboundUser} (h : users.mapM (t.entryOf lib) = .ok us) :
    (∀ e ∈ us, t.serves lib e = true) ↔ ∀ u ∈ users, t.Valid lib u := by
  have hforall := mapM_eq_ok_iff.mp h
  clear h
  induction hforall with
  | nil => exact iff_of_true nofun nofun
  | cons hu _ ih =>
    rw [List.forall_mem_cons, List.forall_mem_cons]
    refine and_congr ⟨fun hserves => ⟨_, hu, hserves⟩, ?_⟩ ih
    rintro ⟨e, he, hserves⟩
    obtain rfl := Except.ok.inj (hu.symm.trans he)
    exact hserves

theorem not_bad_iff : (∀ name, ¬ t.Bad lib name) ↔ ∀ e ∈ t.entries, t.serves lib e = true := by
  constructor
  · intro h e he
    rw [← Bool.not_eq_false]
    exact fun hserves => h e.name ⟨e, he, rfl, hserves⟩
  · rintro h name ⟨e, he, -, hserves⟩
    rw [h e he] at hserves
    cases hserves

/-- `AddUsers` returns no error if no entry of the list is bad and all the users are valid. -/
theorem addUsers_eq_none_iff : (t.addUsers lib users).2 = none ↔
    (∀ name, ¬ t.Bad lib name) ∧ ∀ u ∈ users, t.Valid lib u := by
  rcases hus : users.mapM (t.entryOf lib) with fault | us
  · rw [addUsers_of_panic hus]
    refine iff_of_false nofun fun h => ?_
    obtain ⟨u, hu, hfault⟩ := exists_of_mapM_eq_error hus
    obtain ⟨e, he, -⟩ := h.2 u hu
    rw [hfault] at he
    cases he
  · rw [(addUsers_of_ok hus).2, List.forall_mem_append, not_bad_iff, forall_serves_iff hus]

/-- A bad entry stays when users are added. -/
theorem Bad.addUsers (h : t.Bad lib name) (users : List UserInfo) :
    (t.addUsers lib users).1.Bad lib name := by
  rcases hus : users.mapM (t.entryOf lib) with fault | us
  · rw [addUsers_of_panic hus]
    exact h
  · obtain ⟨e, he, hname, hserves⟩ := h
    refine ⟨e, ?_, hname, ?_⟩
    · rw [(addUsers_of_ok hus).1]
      exact List.mem_append_left _ he
    · rw [serves_addUsers]
      exact hserves

/-- A bad entry stays when users with other names are deleted, and the call fails. -/
theorem Bad.delUsers (h : t.Bad lib name) {names : List String} (hname : name ∉ names) :
    (t.delUsers lib names).1.Bad lib name ∧
      (names ≠ [] → (t.delUsers lib names).2 ≠ none) := by
  obtain ⟨hentries, hnone, hserves⟩ := delUsers_spec lib t names
  obtain ⟨e, he, rfl, hbad⟩ := h
  have hmem : e ∈ t.entries.filter fun e => e.name ∉ names :=
    List.mem_filter.mpr ⟨he, decide_eq_true hname⟩
  refine ⟨⟨e, hentries ▸ hmem, rfl, hserves ▸ hbad⟩, fun hnil hok => ?_⟩
  rw [(hnone hnil).mp hok e hmem] at hbad
  cases hbad

/-- A call of `AddUsers` that returns an error leaves a bad entry. -/
theorem exists_bad_of_error {err : String} (h : (t.addUsers lib users).2 = some (.error err)) :
    ∃ name, (t.addUsers lib users).1.Bad lib name := by
  rcases hus : users.mapM (t.entryOf lib) with fault | us
  · obtain ⟨u, -, hfault⟩ := exists_of_mapM_eq_error hus
    rw [addUsers_of_panic hus, panic_of_entryOf hfault] at h
    cases h
  · obtain ⟨hentries, hnone⟩ := addUsers_of_ok hus
    by_contra hnot
    have hserves := not_bad_iff.mp (not_exists.mp hnot)
    rw [hentries, serves_addUsers] at hserves
    rw [hnone.mpr hserves] at h
    cases h

/-- A call of `AddUsers` that returns an error has changed the list if it gets a user. -/
theorem addUsers_ne {err : String} (h : (t.addUsers lib users).2 = some (.error err))
    (husers : users ≠ []) : (t.addUsers lib users).1 ≠ t := by
  intro heq
  rcases hus : users.mapM (t.entryOf lib) with fault | us
  · obtain ⟨u, -, hfault⟩ := exists_of_mapM_eq_error hus
    rw [addUsers_of_panic hus, panic_of_entryOf hfault] at h
    cases h
  · have hentries := (addUsers_of_ok hus).1
    rw [heq] at hentries
    have hnil : us = [] := List.self_eq_append_right.mp hentries
    have hforall := mapM_eq_ok_iff.mp hus
    rw [hnil, List.forall₂_nil_right_iff] at hforall
    exact husers hforall

/-- A call of `AddUsers` without users that returns an error leaves everything. -/
theorem addUsers_nil (h : (t.addUsers lib []).2 ≠ none) : (t.addUsers lib []).1 = t := by
  rcases t with t | ⟨cipher, t⟩
  · have herr : (t.updateUsers (.tuic lib.fromString)).2 ≠ none := fun hnone =>
      h (Option.map_eq_none_iff.mpr hnone)
    exact congrArg tuic (updateUsers_of_error herr)
  · have herr : serviceError lib cipher (t.users ++ []) ≠ none := fun hnone =>
      h (Option.map_eq_none_iff.mpr hnone)
    rw [List.append_nil] at herr
    change shadowsocks cipher (IndexedInbound.addUsers (service lib cipher) t []) = _
    rw [IndexedInbound.addUsers, List.append_nil, updateUsers_of_refused herr]

end Bad

end UserTable

namespace SingBox

/-! ### When a call that fails has changed nothing -/

section Atomic

variable {lib} {b : SingBox β} {tag : String} {i : BoxInbound β}

/-- `AddUsers` with an inbound. -/
theorem addUsers_of_lookup (h : b.inbounds.lookup tag = some i) (users : List UserInfo) :
    b.addUsers lib tag users =
      ({ registry := b.registry.register UserInfo.uuid users
         inbounds := b.inbounds.insert tag { i with table := (i.table.addUsers lib users).1 } },
        match (i.table.addUsers lib users).2 with
        | some fault => .error fault
        | none => .ok users.length) := by
  rw [addUsers, h]

/-- `AddUsers` returns an error of the inbound. -/
theorem addUsers_eq_error_iff (h : b.inbounds.lookup tag = some i) {users : List UserInfo}
    {fault : Fault String PanicKind} : (b.addUsers lib tag users).2 = .error fault ↔
      (i.table.addUsers lib users).2 = some fault := by
  rw [addUsers_of_lookup h]
  dsimp only
  rcases (i.table.addUsers lib users).2 with _ | fault'
  · exact iff_of_false nofun nofun
  · rw [Except.error.injEq, Option.some.injEq]

/-- `AddUsers` without users leaves the core if it returns an error. -/
theorem addUsers_nil {fault : Fault String PanicKind}
    (h : (b.addUsers lib tag []).2 = .error fault) : (b.addUsers lib tag []).1 = b := by
  rcases hi : b.inbounds.lookup tag with _ | i
  · rw [addUsers, hi]
  · have htable : (i.table.addUsers lib []).1 = i.table :=
      UserTable.addUsers_nil (((addUsers_eq_error_iff hi).mp h).trans_ne nofun)
    rw [addUsers_of_lookup hi, htable]
    dsimp only
    rw [GoMap.insert_of_lookup hi]
    rfl

/-- A call of `AddUsers` that returns an error leaves the core exactly if it gets no user or there
is no inbound. -/
theorem addUsers_eq_self_iff {err : String} {users : List UserInfo}
    (h : (b.addUsers lib tag users).2 = .error (.error err)) :
    (b.addUsers lib tag users).1 = b ↔ b.inbounds.lookup tag = none ∨ users = [] := by
  constructor
  · intro heq
    rcases hi : b.inbounds.lookup tag with _ | i
    · exact .inl rfl
    · refine .inr (by_contra fun husers => ?_)
      refine UserTable.addUsers_ne ((addUsers_eq_error_iff hi).mp h) husers ?_
      have hlookup : (b.addUsers lib tag users).1.inbounds.lookup tag =
          some { i with table := (i.table.addUsers lib users).1 } := by
        rw [addUsers_of_lookup hi]
        exact (GoMap.lookup_insert ..).trans (if_pos rfl)
      rw [heq, hi] at hlookup
      exact (congrArg BoxInbound.table (Option.some.inj hlookup)).symm
  · rintro (hi | rfl)
    · rw [addUsers, hi]
    · exact addUsers_nil h

end Atomic

/-! ### The calls that follow -/

/-- A call for the users of a node. -/
inductive UserCall
  | add (users : List UserInfo)
  | del (users : List UserInfo)

/-- The call does not delete a name. -/
def UserCall.Spares (name : String) : UserCall → Prop
  | .add _ => True
  | .del users => name ∉ users.map UserInfo.uuid

/-- The core after a call. -/
def call (tag : String) (b : SingBox β) : UserCall → SingBox β
  | .add users => (b.addUsers lib tag users).1
  | .del users => (b.delUsers lib tag users).1

/-- The core after calls. -/
def calls (tag : String) (b : SingBox β) (cs : List UserCall) : SingBox β :=
  cs.foldl (call lib tag) b

/-- The inbound has an entry with the name that its service refuses. -/
def Poisoned (b : SingBox β) (tag name : String) : Prop :=
  ∃ i, b.inbounds.lookup tag = some i ∧ i.table.Bad lib name

section Poisoned

variable {lib} {b : SingBox β} {tag name : String}

theorem Poisoned.addUsers (h : b.Poisoned lib tag name) (users : List UserInfo) :
    (b.addUsers lib tag users).1.Poisoned lib tag name ∧
      ∃ fault, (b.addUsers lib tag users).2 = .error fault := by
  obtain ⟨i, hi, hbad⟩ := h
  constructor
  · rw [addUsers_of_lookup hi]
    exact ⟨_, (GoMap.lookup_insert ..).trans (if_pos rfl), hbad.addUsers users⟩
  · have hne : (i.table.addUsers lib users).2 ≠ none := fun hnone =>
      (UserTable.addUsers_eq_none_iff.mp hnone).1 name hbad
    obtain ⟨fault, hfault⟩ := Option.ne_none_iff_exists'.mp hne
    exact ⟨fault, (addUsers_eq_error_iff hi).mpr hfault⟩

theorem Poisoned.delUsers (h : b.Poisoned lib tag name) {users : List UserInfo}
    (hname : name ∉ users.map UserInfo.uuid) :
    (b.delUsers lib tag users).1.Poisoned lib tag name ∧
      (users ≠ [] → (b.delUsers lib tag users).2 ≠ none) := by
  obtain ⟨i, hi, hbad⟩ := h
  obtain ⟨hbad', herr⟩ := hbad.delUsers hname
  rw [SingBox.delUsers, hi]
  refine ⟨⟨_, (GoMap.lookup_insert ..).trans (if_pos rfl), hbad'⟩, fun husers => herr ?_⟩
  exact fun hnil => husers (List.map_eq_nil_iff.mp hnil)

theorem Poisoned.calls (h : b.Poisoned lib tag name) {cs : List UserCall}
    (hcs : ∀ c ∈ cs, c.Spares name) : (b.calls lib tag cs).Poisoned lib tag name := by
  induction cs generalizing b with
  | nil => exact h
  | cons c cs ih =>
    obtain ⟨hc, hcs⟩ := List.forall_mem_cons.mp hcs
    refine ih ?_ hcs
    rcases c with users | users
    · exact (h.addUsers users).1
    · exact (h.delUsers hc).1

end Poisoned

/-- A call of `AddUsers` that returns an error of the inbound leaves an entry with which all later
calls fail that do not delete its name. -/
theorem later_calls_fail {b : SingBox β} {tag err : String} {users : List UserInfo}
    (hinbound : b.inbounds.lookup tag ≠ none)
    (h : (b.addUsers lib tag users).2 = .error (.error err)) :
    ∃ name, ∀ cs : List UserCall, (∀ c ∈ cs, c.Spares name) →
      (∀ users', ∃ fault,
        (((b.addUsers lib tag users).1.calls lib tag cs).addUsers lib tag users').2 =
          .error fault) ∧
      ∀ users', users' ≠ [] → name ∉ users'.map UserInfo.uuid →
        (((b.addUsers lib tag users).1.calls lib tag cs).delUsers lib tag users').2 ≠ none := by
  obtain ⟨i, hi⟩ := Option.ne_none_iff_exists'.mp hinbound
  obtain ⟨name, hbad⟩ := UserTable.exists_bad_of_error ((addUsers_eq_error_iff hi).mp h)
  have hpoisoned : (b.addUsers lib tag users).1.Poisoned lib tag name := by
    rw [addUsers_of_lookup hi]
    exact ⟨_, (GoMap.lookup_insert ..).trans (if_pos rfl), hbad⟩
  refine ⟨name, fun cs hcs => ⟨fun users' => ?_, fun users' husers hname => ?_⟩⟩
  · exact ((hpoisoned.calls hcs).addUsers users').2
  · exact ((hpoisoned.calls hcs).delUsers hname).2 husers

/-- A call of `AddUsers` leaves the core if it returns an error exactly if there is no inbound, the
list is empty, the call panics, or neither the list nor the inbound has a user that the service
refuses. Otherwise all later calls fail that do not delete the name of such a user. -/
theorem additions_atomic_iff (b : SingBox β) (tag : String) (users : List UserInfo) :
    ((∃ err, (b.addUsers lib tag users).2 = .error (.error err)) →
        (b.addUsers lib tag users).1 = b) ↔
      ∀ i, b.inbounds.lookup tag = some i → users = [] ∨
        (∃ u ∈ users, i.table.entryOf lib u = .error (.panic .indexOutOfRange)) ∨
        (∀ name, ¬ i.table.Bad lib name) ∧ ∀ u ∈ users, i.table.Valid lib u := by
  constructor
  · intro h i hi
    rcases hfault : (i.table.addUsers lib users).2 with _ | err | k
    · exact .inr (.inr (UserTable.addUsers_eq_none_iff.mp hfault))
    · have herr := (addUsers_eq_error_iff hi).mpr hfault
      rcases (addUsers_eq_self_iff herr).mp (h ⟨err, herr⟩) with hnone | hnil
      · rw [hi] at hnone
        cases hnone
      · exact .inl hnil
    · exact .inr (.inl (UserTable.addUsers_panics_iff.mp ⟨k, hfault⟩))
  · rintro h ⟨err, herr⟩
    rw [addUsers_eq_self_iff herr]
    rcases hi : b.inbounds.lookup tag with _ | i
    · exact .inl rfl
    · have htable := (addUsers_eq_error_iff hi).mp herr
      rcases h i hi with hnil | ⟨u, hu, hpanic⟩ | hvalid
      · exact .inr hnil
      · obtain ⟨k, hk⟩ := UserTable.addUsers_panics_iff.mpr ⟨u, hu, hpanic⟩
        rw [hk] at htable
        cases htable
      · rw [UserTable.addUsers_eq_none_iff.mpr hvalid] at htable
        cases htable

/-! ### The core without its services -/

/-- A core of `Sing` has the same maps, and of every inbound the names of the users. -/
structure Shows (b : SingBox β) (s : Sing) : Prop where
  registry : s.registry = b.registry
  inbounds : ∀ tag, s.inbounds.lookup tag =
    (b.inbounds.lookup tag).map fun i => ⟨i.info, i.table.entries.map InboundUser.name⟩

section Shows

variable {lib} {b : SingBox β} {s : Sing}

theorem Shows.insert (h : b.Shows s) {tag : String} {i : BoxInbound β} {j : Inbound}
    (hij : j = ⟨i.info, i.table.entries.map InboundUser.name⟩) (registry : TrafficRegistry) :
    Shows { registry := registry, inbounds := b.inbounds.insert tag i }
      { registry := registry, inbounds := s.inbounds.insert tag j } where
  registry := rfl
  inbounds t := by
    dsimp only
    rw [GoMap.lookup_insert, GoMap.lookup_insert]
    split_ifs
    · rw [hij, Option.map_some]
    · exact h.inbounds t

/-- `AddUsers` that does not panic is the call of `Sing` with the error of the service. -/
theorem Shows.addUsers (h : b.Shows s) (tag : String) (users : List UserInfo)
    (hpanic : ∀ k, (b.addUsers lib tag users).2 ≠ .error (.panic k)) :
    ∃ update, (b.addUsers lib tag users).1.Shows (s.addUsers tag users update).1 ∧
      (b.addUsers lib tag users).2 = .orFail id (s.addUsers tag users update).2 := by
  rcases hi : b.inbounds.lookup tag with _ | i
  · have hs : s.inbounds.lookup tag = none := by
      rw [h.inbounds, hi, Option.map_none]
    refine ⟨none, ?_⟩
    rw [SingBox.addUsers, hi, Sing.addUsers, hs]
    exact ⟨h, rfl⟩
  · have hs : s.inbounds.lookup tag =
        some ⟨i.info, i.table.entries.map InboundUser.name⟩ := by
      rw [h.inbounds, hi, Option.map_some]
    have hnames := UserTable.names_addUsers fun k hk =>
      hpanic k ((addUsers_eq_error_iff hi).mpr hk)
    rw [addUsers_of_lookup hi] at hpanic ⊢
    simp only [Sing.addUsers, hs, h.registry]
    rcases hfault : (i.table.addUsers lib users).2 with _ | err | k
    · exact ⟨none, h.insert (by rw [hnames]) _, rfl⟩
    · exact ⟨some err, h.insert (by rw [hnames]) _, rfl⟩
    · rw [hfault] at hpanic
      exact absurd rfl (hpanic k)

/-- `DelUsers` is the call of `Sing` with the error of the service. -/
theorem Shows.delUsers (h : b.Shows s) (tag : String) (users : List UserInfo) :
    ∃ update, (b.delUsers lib tag users).1.Shows (s.delUsers tag users update).1 ∧
      (b.delUsers lib tag users).2 = (s.delUsers tag users update).2 := by
  rcases hi : b.inbounds.lookup tag with _ | i
  · have hs : s.inbounds.lookup tag = none := by
      rw [h.inbounds, hi, Option.map_none]
    refine ⟨none, ?_⟩
    rw [SingBox.delUsers, hi, Sing.delUsers, hs]
    exact ⟨h, rfl⟩
  · have hs : s.inbounds.lookup tag =
        some ⟨i.info, i.table.entries.map InboundUser.name⟩ := by
      rw [h.inbounds, hi, Option.map_some]
    have hentries := (UserTable.delUsers_spec lib i.table (users.map UserInfo.uuid)).1
    refine ⟨(i.table.delUsers lib (users.map UserInfo.uuid)).2, ?_⟩
    rw [SingBox.delUsers, hi, Sing.delUsers, hs]
    dsimp only
    rw [h.registry]
    refine ⟨h.insert ?_ _, rfl⟩
    rw [hentries, List.filter_map]
    rfl

end Shows

/-! ### A user that the service refuses -/

/-- A uuid is told by its length, and a password must not be empty. -/
def strictLibrary : UserLibrary Unit where
  fromString s :=
    if s.length ∈ [32, 36, 38, 41, 45] then .ok ()
    else
      .error ("uuid: incorrect UUID length " ++ toString s.length ++ " in string \"" ++ s ++ "\"")
  encodeToString bytes := String.ofList (bytes.map fun b => Char.ofNat b.toNat)
  usable _ password := password ≠ ""
  updateUsersWithPasswords _ passwords :=
    if ∀ password ∈ passwords, password ≠ "" then none else some "missing password"
  updateUsersWithPasswords_eq_none_iff _ passwords := by
    simp only [decide_eq_true_eq]
    split_ifs with h
    · exact iff_of_true rfl h
    · exact iff_of_false nofun h

/-- A tuic inbound with a user that its service refuses. -/
theorem later_calls_fail_tuic :
    let noUuid : UserInfo := { id := 1, uuid := "" }
    let b : SingBox Unit :=
      { inbounds := (∅ : GoMap String (BoxInbound Unit)).insert "t"
          ⟨{ id := 1, type := .tuic }, .tuic {}⟩ }
    ∃ name, ∀ cs : List UserCall, (∀ c ∈ cs, c.Spares name) → ∀ users, ∃ fault,
      (((b.addUsers strictLibrary "t" [noUuid]).1.calls strictLibrary "t" cs).addUsers
        strictLibrary "t" users).2 = .error fault := by
  intro noUuid b
  have hinbound : b.inbounds.lookup "t" ≠ none := by decide
  have hrefused : (b.addUsers strictLibrary "t" [noUuid]).2 = .error (.error
      "invalid uuid for user 0: uuid: incorrect UUID length 0 in string \"\"") := by
    decide +kernel
  obtain ⟨name, hfails⟩ := later_calls_fail strictLibrary hinbound hrefused
  exact ⟨name, fun cs hcs => (hfails cs hcs).1⟩

/-- A tuic inbound and a shadowsocks inbound get a user that their services refuse. The call returns
an error, the user is in the list and its id in the map, and adding and deleting another user fail
from then on. -/
theorem addUsers_poisons :
    let noUuid : UserInfo := { id := 1, uuid := "" }
    let good : UserInfo := { id := 2, uuid := "8f1a6c2e-0b7d-4c39-9a51-2d3e4f506172" }
    let b : SingBox Unit :=
      { inbounds := ((∅ : GoMap String (BoxInbound Unit)).insert "t"
          ⟨{ id := 1, type := .tuic }, .tuic {}⟩).insert "s"
          ⟨{ id := 2, type := .shadowsocks }, .shadowsocks "aes-128-gcm" {}⟩ }
    let invalid := "invalid uuid for user 0: uuid: incorrect UUID length 0 in string \"\""
    ∀ p ∈ [("t", invalid), ("s", "missing password")],
      let b' := (b.addUsers strictLibrary p.1 [noUuid]).1
      (b.addUsers strictLibrary p.1 [noUuid]).2 = .error (.error p.2) ∧
      (b'.inbounds.lookup p.1).map (fun i => i.table.entries) = some [⟨"", ""⟩] ∧
      b'.registry.uidMap.lookup "" = some 1 ∧
      (b'.addUsers strictLibrary p.1 [good]).2 = .error (.error p.2) ∧
      (b'.delUsers strictLibrary p.1 [good]).2 = some p.2 := by
  decide +kernel

end SingBox

end Tox.Core
