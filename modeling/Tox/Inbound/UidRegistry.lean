import Tox.Foundation.GoMap
import Tox.Foundation.Run
import Tox.Inbound.Basic
import Tox.Panel.Client
import Mathlib.Data.List.Forall2
import Mathlib.Data.List.Nodup

/-!
# Users identified by their ids

The hysteria2 and tuic inbounds hand the ids of the panel to their services and keep two maps
beside the list of names, from uuids to ids and back. A session holds the id of its user, and every
later stream or packet connection looks the uuid up under that id; a connection with an id that has
no entry is closed.

The purpose of the three structures is to represent the list of the users that have been added and
not been deleted since (`UidMachine.registered`). The machine below carries that list beside the
inbound, and `Represents` says that the list of names, the two maps and the lists of the service are
those of the registered users. `AddUsers` and `DelUsers` keep it, for any names to be deleted, as
long as the uuids and the ids of the registered users are distinct and no id is zero: the zero is
what `DelUsers` reads for a name that is not registered, and deletes.
-/

namespace Tox.Inbound

open Tox.Foundation Tox.Panel

/-- `option.Hysteria2User`. -/
structure Hysteria2User where
  name : String
  password : String

/-- `option.TUICUser`. -/
structure TUICUser where
  name : String
  uuid : String
  password : String

/-- What the two inbounds differ in, for the type `υ` of their users and the type `κ` of the
credentials of their services. -/
structure UidProtocol (υ κ : Type) where
  /-- The user that `Sing.AddUsers` makes of a user of the panel. -/
  user : UserInfo → υ
  /-- The field of a user that `AddUsers` appends to the list of names. -/
  listed : υ → String
  /-- The field of a user that `AddUsers` enters in the maps. -/
  key : υ → String
  /-- What is handed to the service for a name. -/
  credential : String → Except String κ
  /-- Whether packet connections are recorded. -/
  tracksPackets : Bool
  listed_user : ∀ u, listed (user u) = u.uuid
  key_user : ∀ u, key (user u) = u.uuid

/-- The hysteria2 inbound: the passwords of its users are the names, and the credentials of the
service. -/
def UidProtocol.hysteria2 : UidProtocol Hysteria2User String where
  user u := ⟨u.uuid, u.uuid⟩
  listed := Hysteria2User.password
  key := Hysteria2User.password
  credential := .ok
  tracksPackets := false
  listed_user _ := rfl
  key_user _ := rfl

/-- The tuic inbound: the service has a UUID, as `uuid.FromString` reads it from the name, and the
name as the password. -/
def UidProtocol.tuic {β : Type} (fromString : String → Except String β) :
    UidProtocol TUICUser (β × String) where
  user u := ⟨u.uuid, u.uuid, u.uuid⟩
  listed := TUICUser.name
  key := TUICUser.uuid
  credential name := (fromString name).map fun id => (id, name)
  tracksPackets := true
  listed_user _ := rfl
  key_user _ := rfl

/-- The fields of the two inbounds. The lists of the last call of the service's `UpdateUsers`, which
have the same length, are kept entry by entry. -/
structure UidInbound (κ : Type) where
  userNameList : List String := []
  uuidToUid : GoMap String ℤ := ∅
  uidToUuid : GoMap ℤ String := ∅
  userconns : ConnTable := {}
  service : List (ℤ × κ) := []

namespace UidInbound

variable {υ κ : Type} (P : UidProtocol υ κ)

/-- The loop that makes the lists for the service, from the position `i` on. -/
def serviceUsers (uuidToUid : GoMap String ℤ) (i : ℕ) : List String → Except String (List (ℤ × κ))
  | [] => .ok []
  | name :: names =>
    match P.credential name with
    | .error err => .error ("invalid uuid for user " ++ toString i ++ ": " ++ err)
    | .ok c =>
      match serviceUsers uuidToUid (i + 1) names with
      | .error err => .error err
      | .ok entries => .ok ((uuidToUid.getD name 0, c) :: entries)

/-- The end of `AddUsers` and of `DelUsers`: the service gets all users anew. -/
def updateUsers (h : UidInbound κ) : UidInbound κ × Option String :=
  match serviceUsers P h.uuidToUid 0 h.userNameList with
  | .error err => (h, some err)
  | .ok entries => ({ h with service := entries }, none)

/-- The body of the loop of `AddUsers`, for a user and its id. -/
def register (h : UidInbound κ) (user : υ × ℤ) : UidInbound κ :=
  { h with
    userNameList := h.userNameList ++ [P.listed user.1]
    uuidToUid := h.uuidToUid.insert (P.key user.1) user.2
    uidToUuid := h.uidToUuid.insert user.2 (P.key user.1) }

/-- `Inbound.AddUsers`, for the users with their ids. -/
def addUsers (h : UidInbound κ) (users : List (υ × ℤ)) : UidInbound κ × Option String :=
  updateUsers P (users.foldl (register P) h)

/-- The body of the loop of `DelUsers`. The id of a name that is not in the map is zero. -/
def deleteName (h : UidInbound κ) (name : String) : UidInbound κ :=
  { h with
    uidToUuid := h.uidToUuid.erase (h.uuidToUid.getD name 0)
    uuidToUid := h.uuidToUid.erase name
    userconns := h.userconns.closeUser name }

/-- `Inbound.DelUsers`. -/
def delUsers (h : UidInbound κ) (names : List String) : UidInbound κ × Option String :=
  if names = [] then (h, none)
  else
    let h := names.foldl deleteName h
    updateUsers P { h with userNameList := h.userNameList.filter (· ∉ names) }

/-- The user of a connection with the id `uid`, and the recording of the connection. A connection
without a user is closed. -/
def userOf (h : UidInbound κ) (records : Bool) (conn : ℕ) (uid : ℤ) :
    UidInbound κ × Option String :=
  match h.uidToUuid.lookup uid with
  | none => ({ h with userconns := h.userconns.close conn }, none)
  | some userName =>
    if userName ≠ "" ∧ records = true then
      ({ h with userconns := h.userconns.loadOrStore conn userName }, some userName)
    else (h, some userName)

/-- `Inbound.NewConnectionEx`. -/
def newConnectionEx (h : UidInbound κ) (conn : ℕ) (uid : ℤ) : UidInbound κ × Option String :=
  h.userOf true conn uid

/-- `Inbound.NewPacketConnectionEx`. -/
def newPacketConnectionEx (h : UidInbound κ) (conn : ℕ) (uid : ℤ) :
    UidInbound κ × Option String :=
  h.userOf P.tracksPackets conn uid

end UidInbound

/-! ### The registered users -/

/-- The uuids and the ids of the users are distinct, and no id is zero. -/
@[mk_iff]
structure Distinct (l : List UserInfo) : Prop where
  uuids : (l.map UserInfo.uuid).Nodup
  ids : (l.map UserInfo.id).Nodup
  ne_zero : ∀ u ∈ l, u.id ≠ 0

instance (l : List UserInfo) : Decidable (Distinct l) :=
  decidable_of_iff _ (distinct_iff l).symm

theorem Distinct.sublist {l l' : List UserInfo} (h : Distinct l) (hl : l'.Sublist l) :
    Distinct l' where
  uuids := h.uuids.sublist (hl.map _)
  ids := h.ids.sublist (hl.map _)
  ne_zero u hu := h.ne_zero u (hl.subset hu)

/-- The two maps of an inbound index a list of users. -/
structure Keyed {κ : Type} (h : UidInbound κ) (l : List UserInfo) : Prop where
  distinct : Distinct l
  uuidToUid : h.uuidToUid.Indexes UserInfo.uuid UserInfo.id l
  uidToUuid : h.uidToUuid.Indexes UserInfo.id UserInfo.uuid l

section Keyed

variable {υ κ : Type} {P : UidProtocol υ κ} {h : UidInbound κ} {l : List UserInfo}

theorem Keyed.register (hk : Keyed h l) {u : UserInfo} (hd : Distinct (l ++ [u])) :
    Keyed (h.register P (P.user u, u.id)) (l ++ [u]) := by
  have huuid : ∀ v ∈ l, v.uuid ≠ u.uuid := by
    have hnodup := hd.uuids
    rw [List.map_append, List.nodup_append] at hnodup
    exact fun v hv => hnodup.2.2 _ (List.mem_map_of_mem hv) _ (List.mem_singleton_self _)
  have hid : ∀ v ∈ l, v.id ≠ u.id := by
    have hnodup := hd.ids
    rw [List.map_append, List.nodup_append] at hnodup
    exact fun v hv => hnodup.2.2 _ (List.mem_map_of_mem hv) _ (List.mem_singleton_self _)
  refine ⟨hd, ?_, ?_⟩
  · change GoMap.Indexes (h.uuidToUid.insert (P.key (P.user u)) u.id) _ _ _
    rw [P.key_user]
    exact hk.uuidToUid.insert huuid
  · change GoMap.Indexes (h.uidToUuid.insert u.id (P.key (P.user u))) _ _ _
    rw [P.key_user]
    exact hk.uidToUuid.insert hid

/-- The loop of `AddUsers`. -/
theorem Keyed.registerAll (hk : Keyed h l) {users : List UserInfo} (hd : Distinct (l ++ users)) :
    Keyed ((users.map fun u => (P.user u, u.id)).foldl (UidInbound.register P) h) (l ++ users) := by
  induction users generalizing h l with
  | nil => simpa using hk
  | cons u users ih =>
    rw [List.append_cons] at hd ⊢
    exact ih (hk.register (hd.sublist (List.sublist_append_left _ _))) hd

/-- The id that `DelUsers` reads for a name is that of the registered user with the name, and of no
other. -/
theorem Keyed.id_eq_iff (hk : Keyed h l) {u : UserInfo} (hu : u ∈ l) (name : String) :
    u.id = h.uuidToUid.getD name 0 ↔ u.uuid = name := by
  by_cases hname : ∃ v ∈ l, v.uuid = name
  · obtain ⟨v, hv, rfl⟩ := hname
    rw [GoMap.getD, hk.uuidToUid.lookup hv, Option.getD_some]
    constructor
    · intro hid
      rw [List.inj_on_of_nodup_map hk.distinct.ids hu hv hid]
    · intro huuid
      rw [List.inj_on_of_nodup_map hk.distinct.uuids hu hv huuid]
  · have habsent : name ∉ h.uuidToUid := fun hmem => hname (hk.uuidToUid.mem_iff.mp hmem)
    rw [GoMap.getD_of_notMem habsent]
    exact iff_of_false (hk.distinct.ne_zero u hu) fun huuid => hname ⟨u, hu, huuid⟩

theorem Keyed.deleteName (hk : Keyed h l) (name : String) :
    Keyed (h.deleteName name) (l.filter fun u => u.uuid ≠ name) where
  distinct := hk.distinct.sublist List.filter_sublist
  uuidToUid := hk.uuidToUid.erase fun u _ => by simp
  uidToUuid := hk.uidToUuid.erase fun u hu => by simpa using hk.id_eq_iff hu name

/-- The loop of `DelUsers`. -/
theorem Keyed.deleteNames (hk : Keyed h l) (names : List String) :
    Keyed (names.foldl UidInbound.deleteName h) (l.filter fun u => u.uuid ∉ names) := by
  induction names generalizing h l with
  | nil => simpa using hk
  | cons name names ih =>
    have hfilter : (l.filter fun u => u.uuid ∉ name :: names) =
        (l.filter fun u => u.uuid ≠ name).filter fun u => u.uuid ∉ names := by
      rw [List.filter_filter]
      refine List.filter_congr fun u _ => ?_
      simp [Bool.and_comm]
    rw [hfilter]
    exact ih (hk.deleteName name)

end Keyed

/-- What the service has for a user: the id, with the credential of the uuid. -/
def Served {υ κ : Type} (P : UidProtocol υ κ) (u : UserInfo) (entry : ℤ × κ) : Prop :=
  entry.1 = u.id ∧ P.credential u.uuid = .ok entry.2

/-- The inbound has a list of users in its maps, in its list of names and at its service. -/
structure Represents {υ κ : Type} (P : UidProtocol υ κ) (h : UidInbound κ)
    (l : List UserInfo) : Prop where
  keyed : Keyed h l
  names : h.userNameList = l.map UserInfo.uuid
  service : List.Forall₂ (Served P) l h.service

section Represents

variable {υ κ : Type} {P : UidProtocol υ κ} {h : UidInbound κ} {l : List UserInfo}

/-- The lists for the service, when the map has the ids of the users. -/
theorem exists_serviceUsers {m : GoMap String ℤ} (hid : ∀ u ∈ l, m.lookup u.uuid = some u.id)
    (hcred : ∀ u ∈ l, ∃ c, P.credential u.uuid = .ok c) (i : ℕ) :
    ∃ entries, UidInbound.serviceUsers P m i (l.map UserInfo.uuid) = .ok entries ∧
      List.Forall₂ (Served P) l entries := by
  induction l generalizing i with
  | nil => exact ⟨[], rfl, .nil⟩
  | cons u l ih =>
    obtain ⟨hu, hl⟩ := List.forall_mem_cons.mp hid
    obtain ⟨⟨c, hc⟩, hcl⟩ := List.forall_mem_cons.mp hcred
    obtain ⟨entries, hentries, hserved⟩ := ih hl hcl (i + 1)
    refine ⟨(u.id, c) :: entries, ?_, .cons ⟨rfl, hc⟩ hserved⟩
    rw [List.map_cons, UidInbound.serviceUsers, hc, hentries, GoMap.getD, hu, Option.getD_some]

/-- Once the maps and the names are those of the users, the service gets them. -/
theorem Keyed.updateUsers (hk : Keyed h l) (hnames : h.userNameList = l.map UserInfo.uuid)
    (hcred : ∀ u ∈ l, ∃ c, P.credential u.uuid = .ok c) :
    Represents P (h.updateUsers P).1 l ∧ (h.updateUsers P).2 = none := by
  obtain ⟨entries, hentries, hserved⟩ :=
    exists_serviceUsers (fun u hu => hk.uuidToUid.lookup hu) hcred 0
  rw [UidInbound.updateUsers, hnames, hentries]
  exact ⟨⟨⟨hk.distinct, hk.uuidToUid, hk.uidToUuid⟩, rfl, hserved⟩, rfl⟩

theorem Represents.credential (hr : Represents P h l) {u : UserInfo} (hu : u ∈ l) :
    ∃ c, P.credential u.uuid = .ok c := by
  have hserved : List.Forall₂ (fun u entry =>
      (∃ c, P.credential u.uuid = .ok c) ∧ Served P u entry) l h.service :=
    hr.service.imp fun u entry hentry => ⟨⟨entry.2, hentry.2⟩, hentry⟩
  exact (List.forall₂_and_left l h.service).mp hserved |>.1 u hu

theorem userNameList_registerAll (h : UidInbound κ) (users : List UserInfo) :
    ((users.map fun u => (P.user u, u.id)).foldl (UidInbound.register P) h).userNameList =
      h.userNameList ++ users.map UserInfo.uuid := by
  induction users generalizing h with
  | nil => simp
  | cons u users ih =>
    rw [List.map_cons, List.foldl_cons, ih, UidInbound.register, P.listed_user, List.map_cons,
      List.append_assoc, List.singleton_append]

theorem userNameList_deleteNames (h : UidInbound κ) (names : List String) :
    (names.foldl UidInbound.deleteName h).userNameList = h.userNameList := by
  induction names generalizing h with
  | nil => rfl
  | cons name names ih => exact ih (h.deleteName name)

/-- `AddUsers` for users that keep the list distinct and have credentials. -/
theorem Represents.addUsers (hr : Represents P h l) {users : List UserInfo}
    (hd : Distinct (l ++ users)) (hcred : ∀ u ∈ users, ∃ c, P.credential u.uuid = .ok c) :
    Represents P (h.addUsers P (users.map fun u => (P.user u, u.id))).1 (l ++ users) ∧
      (h.addUsers P (users.map fun u => (P.user u, u.id))).2 = none := by
  refine Keyed.updateUsers (hr.keyed.registerAll hd) ?_ fun u hu => ?_
  · rw [userNameList_registerAll, hr.names, List.map_append]
  · rcases List.mem_append.mp hu with hu | hu
    · exact hr.credential hu
    · exact hcred u hu

/-- `DelUsers` for any names. -/
theorem Represents.delUsers (hr : Represents P h l) (names : List String) :
    Represents P (h.delUsers P names).1 (l.filter fun u => u.uuid ∉ names) ∧
      (h.delUsers P names).2 = none := by
  rw [UidInbound.delUsers]
  split
  case isTrue hnil =>
    subst hnil
    simpa using hr
  case isFalse =>
    have hk := hr.keyed.deleteNames names
    refine Keyed.updateUsers ⟨hk.distinct, hk.uuidToUid, hk.uidToUuid⟩ ?_ fun u hu => ?_
    · change (names.foldl UidInbound.deleteName h).userNameList.filter (· ∉ names) = _
      rw [userNameList_deleteNames, hr.names, List.filter_map]
      rfl
    · exact hr.credential (List.mem_of_mem_filter hu)

/-- The registry of an inbound: its maps are inverse to each other and have the names of the list,
which are distinct, and its service has every name with the id of its own. -/
structure Registry (P : UidProtocol υ κ) (h : UidInbound κ) : Prop where
  inverse : GoMap.Inverse h.uuidToUid h.uidToUuid
  keys : h.uuidToUid.keys = h.userNameList.toFinset
  values : ∀ name, (∃ uid, h.uidToUuid.lookup uid = some name) ↔ name ∈ h.userNameList
  nodup : h.userNameList.Nodup
  service : List.Forall₂ (fun name entry =>
    h.uuidToUid.lookup name = some entry.1 ∧ P.credential name = .ok entry.2)
    h.userNameList h.service

theorem Represents.registry (hr : Represents P h l) : Registry P h where
  inverse := hr.keyed.uuidToUid.inverse hr.keyed.uidToUuid
  keys := by
    ext name
    rw [Finmap.mem_keys, hr.keyed.uuidToUid.mem_iff, hr.names, List.mem_toFinset, List.mem_map]
  values name := by
    rw [hr.names, List.mem_map]
    constructor
    · rintro ⟨uid, huid⟩
      obtain ⟨u, hu, -, huuid⟩ := (hr.keyed.uidToUuid uid name).mp huid
      exact ⟨u, hu, huuid⟩
    · rintro ⟨u, hu, rfl⟩
      exact ⟨u.id, hr.keyed.uidToUuid.lookup hu⟩
  nodup := hr.names ▸ hr.keyed.distinct.uuids
  service := by
    rw [hr.names, List.forall₂_map_left_iff]
    have hserved := (List.forall₂_and_left l h.service).mpr
      ⟨fun u hu => hr.keyed.uuidToUid.lookup hu, hr.service⟩
    exact hserved.imp fun u entry hentry =>
      ⟨hentry.1.trans (congrArg some hentry.2.1.symm), hentry.2.2⟩

/-- Recording a connection changes nothing of the registry. -/
theorem Represents.userconns (hr : Represents P h l) (table : ConnTable) :
    Represents P { h with userconns := table } l :=
  ⟨⟨hr.keyed.distinct, hr.keyed.uuidToUid, hr.keyed.uidToUuid⟩, hr.names, hr.service⟩

theorem Represents.userOf (hr : Represents P h l) (records : Bool) (conn : ℕ) (uid : ℤ) :
    Represents P (h.userOf records conn uid).1 l := by
  rw [UidInbound.userOf]
  split
  · exact hr.userconns _
  · split
    · exact hr.userconns _
    · exact hr

/-- The connection is refused and closed, or attributed to the registered name with the id. -/
def AttributedOrRefused (h : UidInbound κ) (conn : ℕ) (uid : ℤ)
    (result : UidInbound κ × Option String) : Prop :=
  (result.2 = none ∧ result.1.userconns.closed conn = true) ∨
    ∃ name ∈ h.userNameList, result.2 = some name ∧ h.uuidToUid.lookup name = some uid

theorem userOf_snd (h : UidInbound κ) (records : Bool) (conn : ℕ) (uid : ℤ) :
    (h.userOf records conn uid).2 = h.uidToUuid.lookup uid := by
  rw [UidInbound.userOf]
  split
  case h_1 hnone => exact hnone.symm
  case h_2 name hname => split <;> exact hname.symm

theorem Represents.attributedOrRefused (hr : Represents P h l) (records : Bool) (conn : ℕ)
    (uid : ℤ) : AttributedOrRefused h conn uid (h.userOf records conn uid) := by
  rw [AttributedOrRefused, userOf_snd]
  cases huid : h.uidToUuid.lookup uid with
  | none =>
    refine .inl ⟨rfl, ?_⟩
    rw [UidInbound.userOf, huid]
    change Function.update h.userconns.closed conn true conn = true
    rw [Function.update_self]
  | some name =>
    refine .inr ⟨name, (hr.registry.values name).mp ⟨uid, huid⟩, rfl, ?_⟩
    exact (hr.registry.inverse name uid).mpr huid

end Represents

/-! ### Runs -/

/-- An inbound, and the users that have been added and not been deleted since. -/
structure UidMachine (κ : Type) where
  inbound : UidInbound κ := {}
  registered : List UserInfo := []

inductive UidEvent
  | addUsers (users : List UserInfo)
  | delUsers (names : List String)
  | newConnection (conn : ℕ) (uid : ℤ)
  | newPacketConnection (conn : ℕ) (uid : ℤ)
  /-- A connection ends. -/
  | close (conn : ℕ)

namespace UidMachine

section Step

variable {υ κ : Type} (P : UidProtocol υ κ)

/-- One call. The inbounds are created without users; `Sing.AddUsers` adds the users of the panel
with their ids. -/
def step (s : UidMachine κ) : UidEvent → UidMachine κ
  | .addUsers users =>
    { inbound := (s.inbound.addUsers P (users.map fun u => (P.user u, u.id))).1
      registered := s.registered ++ users }
  | .delUsers names =>
    { inbound := (s.inbound.delUsers P names).1
      registered := s.registered.filter fun u => u.uuid ∉ names }
  | .newConnection conn uid => { s with inbound := (s.inbound.newConnectionEx conn uid).1 }
  | .newPacketConnection conn uid =>
    { s with inbound := (s.inbound.newPacketConnectionEx P conn uid).1 }
  | .close conn =>
    { s with inbound := { s.inbound with userconns := s.inbound.userconns.close conn } }

/-- The uuids and the ids of the registered users stay distinct and no id is zero, and the service
has a credential for every user that is added. -/
def Admissible (s : UidMachine κ) : UidEvent → Prop
  | .addUsers users =>
    Distinct (s.registered ++ users) ∧ ∀ u ∈ users, ∃ c, P.credential u.uuid = .ok c
  | _ => True

end Step

variable {υ κ : Type} {P : UidProtocol υ κ}

theorem represents_step {s : UidMachine κ} (hr : Represents P s.inbound s.registered)
    (e : UidEvent) (hok : Admissible P s e) :
    Represents P (step P s e).inbound (step P s e).registered := by
  cases e with
  | addUsers users => exact (hr.addUsers hok.1 hok.2).1
  | delUsers names => exact (hr.delUsers names).1
  | newConnection conn uid => exact hr.userOf true conn uid
  | newPacketConnection conn uid => exact hr.userOf P.tracksPackets conn uid
  | close conn => exact hr.userconns _

theorem represents_start : Represents P ({} : UidInbound κ) [] where
  keyed := ⟨⟨List.nodup_nil, List.nodup_nil, nofun⟩, GoMap.indexes_empty, GoMap.indexes_empty⟩
  names := rfl
  service := .nil

theorem represents_run {es : List UidEvent} (h : Guarded (step P) (Admissible P) {} es) :
    Represents P (es.foldl (step P) {}).inbound (es.foldl (step P) {}).registered := by
  have hstep : ∀ (s : UidMachine κ) e, Represents P s.inbound s.registered → Admissible P s e →
      Represents P (step P s e).inbound (step P s e).registered :=
    fun s e hr hok => represents_step hr e hok
  exact Guarded.invariant hstep represents_start h

/-- No other user gets the id of a user. -/
def KeepsId (name : String) (uid : ℤ) : UidEvent → Prop
  | .addUsers users => ∀ u ∈ users, u.id = uid → u.uuid = name
  | _ => True

/-- At most the one user has the id. -/
def OnlyUser (name : String) (uid : ℤ) (s : UidMachine κ) : Prop :=
  ∀ u ∈ s.registered, u.id = uid → u.uuid = name

theorem OnlyUser.step {name : String} {uid : ℤ} {s : UidMachine κ} (h : OnlyUser name uid s)
    (e : UidEvent) (hkeeps : KeepsId name uid e) : OnlyUser name uid (step P s e) := by
  cases e with
  | addUsers users =>
    intro u hu
    rcases List.mem_append.mp hu with hu | hu
    · exact h u hu
    · exact hkeeps u hu
  | delUsers names => exact fun u hu => h u (List.mem_of_mem_filter hu)
  | newConnection | newPacketConnection | close => exact h

/-- A session that a registered user has opened is attributed to that user or refused, until another
user gets the id. -/
theorem userOf_session {p q : List UidEvent} (h : Guarded (step P) (Admissible P) {} (p ++ q))
    {name : String} {uid : ℤ}
    (hname : (p.foldl (step P) {}).inbound.uuidToUid.lookup name = some uid)
    (hkeeps : ∀ e ∈ q, KeepsId name uid e) (records : Bool) (conn : ℕ) :
    (((p ++ q).foldl (step P) {}).inbound.userOf records conn uid).2 = none ∨
      (((p ++ q).foldl (step P) {}).inbound.userOf records conn uid).2 = some name := by
  have honly : OnlyUser name uid (p.foldl (step P) {}) := by
    have hr := represents_run h.of_append
    obtain ⟨v, hv, rfl, rfl⟩ := (hr.keyed.uuidToUid name uid).mp hname
    intro u hu hid
    rw [List.inj_on_of_nodup_map hr.keyed.distinct.ids hu hv hid]
  have hafter : OnlyUser name uid ((p ++ q).foldl (step P) {}) := by
    have hstep : ∀ (s : UidMachine κ) e, OnlyUser name uid s → KeepsId name uid e →
        OnlyUser name uid (step P s e) := fun s e hs hok => hs.step e hok
    rw [List.foldl_append]
    exact Guarded.invariant hstep honly (Guarded.of_forall (fun e he _ => hkeeps e he) _)
  rw [userOf_snd]
  cases huid : ((p ++ q).foldl (step P) {}).inbound.uidToUuid.lookup uid with
  | none => exact .inl rfl
  | some other =>
    obtain ⟨u, hu, hid, rfl⟩ := ((represents_run h).keyed.uidToUuid uid other).mp huid
    rw [hafter u hu hid]
    exact .inr rfl

/-- **The registry along all runs.** In every state of a run in which the uuids and the ids of the
registered users are distinct, no id is zero and every added user has a credential, the list of
names, the maps and the service have the registered users with their ids. So the maps are inverse to
each other, they have the names of the list, which are distinct, and the service has every name with
its own id. A connection with any id is attributed to the name with that id or refused; a session
that was opened as `name` is attributed to `name` or refused in every later state, until another
user gets its id. -/
theorem registry_runs (P : UidProtocol υ κ) (p q : List UidEvent)
    (h : Guarded (step P) (Admissible P) {} (p ++ q)) :
    let before := (p.foldl (step P) {}).inbound
    let after := ((p ++ q).foldl (step P) {}).inbound
    Represents P before (p.foldl (step P) {}).registered ∧ Registry P before ∧
      (∀ conn uid, AttributedOrRefused before conn uid (before.newConnectionEx conn uid) ∧
        AttributedOrRefused before conn uid (before.newPacketConnectionEx P conn uid)) ∧
      ∀ name uid, before.uuidToUid.lookup name = some uid → (∀ e ∈ q, KeepsId name uid e) →
        ∀ conn, ((after.newConnectionEx conn uid).2 = none ∨
            (after.newConnectionEx conn uid).2 = some name) ∧
          ((after.newPacketConnectionEx P conn uid).2 = none ∨
            (after.newPacketConnectionEx P conn uid).2 = some name) := by
  intro before after
  have hr := represents_run h.of_append
  refine ⟨hr, hr.registry, fun conn uid => ⟨hr.attributedOrRefused true conn uid,
    hr.attributedOrRefused P.tracksPackets conn uid⟩, fun name uid hname hkeeps conn => ?_⟩
  exact ⟨userOf_session h hname hkeeps true conn,
    userOf_session h hname hkeeps P.tracksPackets conn⟩

/-- Both inbounds, with a deletion of an unknown and of a repeated name. The session of `b` goes
on. -/
theorem registry_after_deletions :
    let added : List UidEvent := [.addUsers [⟨1, "a", 0, 0⟩, ⟨2, "b", 0, 0⟩]]
    let deleted : List UidEvent := [.delUsers ["z", "a", "a"], .addUsers [⟨1, "c", 0, 0⟩]]
    let h := ((added ++ deleted).foldl (step .hysteria2) {}).inbound
    let t := ((added ++ deleted).foldl (step (.tuic Except.ok)) {}).inbound
    (Represents .hysteria2 h [⟨2, "b", 0, 0⟩, ⟨1, "c", 0, 0⟩] ∧
        ((h.newConnectionEx 0 2).2 = none ∨ (h.newConnectionEx 0 2).2 = some "b")) ∧
      Represents (.tuic Except.ok) t [⟨2, "b", 0, 0⟩, ⟨1, "c", 0, 0⟩] ∧
        ((t.newConnectionEx 0 2).2 = none ∨ (t.newConnectionEx 0 2).2 = some "b") := by
  intro added deleted h t
  have hguard : Guarded (step .hysteria2) (Admissible .hysteria2) {} (added ++ deleted) :=
    ⟨⟨by decide, fun u _ => ⟨u.uuid, rfl⟩⟩, trivial, ⟨by decide, fun u _ => ⟨u.uuid, rfl⟩⟩, trivial⟩
  have hguard' : Guarded (step (.tuic Except.ok)) (Admissible (.tuic Except.ok)) {}
      (added ++ deleted) :=
    ⟨⟨by decide, fun u _ => ⟨(u.uuid, u.uuid), rfl⟩⟩, trivial,
      ⟨by decide, fun u _ => ⟨(u.uuid, u.uuid), rfl⟩⟩, trivial⟩
  have hkeeps : ∀ e ∈ deleted, KeepsId "b" 2 e := by
    simp [deleted, KeepsId]
  have hall := List.append_nil (added ++ deleted)
  refine ⟨⟨?_, ?_⟩, ?_, ?_⟩
  · exact (registry_runs .hysteria2 (added ++ deleted) [] (hall.symm ▸ hguard)).1
  · exact ((registry_runs .hysteria2 added deleted hguard).2.2.2 "b" 2 rfl hkeeps 0).1
  · exact (registry_runs (.tuic Except.ok) (added ++ deleted) [] (hall.symm ▸ hguard')).1
  · exact ((registry_runs (.tuic Except.ok) added deleted hguard').2.2.2 "b" 2 rfl hkeeps 0).1

end UidMachine

end Tox.Inbound
