import Mathlib
import Tox.Foundation.Run
import Tox.Limiter.Concurrent

/-!
# Devices that no report has

Any number of calls of `CheckLimit` and `GetOnlineDevice` go on at the same time, one atomic
operation after the other in any order (`LimiterMachine`). A device with an accepted connection
should be in a report that was in progress during the connection's call, or in the first one that
was started after its return: it is `Lost` when all of these have returned without it.

Three operations take addresses away from calls that rely on them: a report removes the map of a
user after it has gone through it, a rejected connection of a new user removes the map of the user,
and another rejected connection removes its address from the map. As long as none of the three does
(`LimiterMachine.Preserves`), no device is lost (`not_lost_of_preserves`).
-/

namespace Tox.Limit

open Tox.Foundation Tox.Panel Tox.Format

/-! ### The machine -/

/-- A call of `CheckLimit` with the reports that are responsible for its device. -/
structure Connection where
  call : CheckCall
  /-- The reports in progress during the call, and the first one that was started after its return.
  -/
  reports : List ℕ
  /-- The first report after the return has been started. -/
  followed : Bool := false

/-- A report is started, as the one with the number `j`. -/
def Connection.follow (j : ℕ) (x : Connection) : Connection :=
  if x.followed then x
  else { x with reports := j :: x.reports, followed := x.call.phase.returned }

/-- A limiter with its calls. -/
structure LimiterMachine where
  memory : Memory
  calls : List Connection := []
  reports : List Report := []

/-- The operations of the calls. -/
inductive OperationEvent
  /-- A call of `CheckLimit` is started. -/
  | checkLimit (taguuid ip : String) (noSSUDP : Bool)
  /-- A call of `CheckLimit` does its next operation. -/
  | check (i : ℕ) (now : ℤ)
  /-- A call of `GetOnlineDevice` is started, whose range over the users is going to visit the given
  ones. -/
  | getOnlineDevice (keys : List String)
  /-- A call of `GetOnlineDevice` does its next operation. -/
  | report (j : ℕ) (ips : List String)

namespace LimiterMachine

/-- The limiter of `AddLimiter` before its first call. -/
def fresh (tag : String) (conf : LimitConfig) (users : List UserInfo) (aliveList : GoMap ℤ ℤ) :
    LimiterMachine where
  memory :=
    { speedLimit := conf.speedLimit
      aliveList := aliveList
      userLimitInfo := (newLimiter tag conf users aliveList).userLimitInfo }

/-- The reports that have not returned. -/
def inProgress (s : LimiterMachine) : List ℕ :=
  (List.range s.reports.length).filter fun j => ∃ r ∈ s.reports[j]?, r.phase ≠ .returned

/-- One operation. -/
def step (s : LimiterMachine) : OperationEvent → LimiterMachine
  | .checkLimit taguuid ip noSSUDP =>
    let call : CheckCall := { taguuid, ip := trimPrefix ip "::ffff:", noSSUDP }
    { s with calls := s.calls ++ [{ call, reports := s.inProgress }] }
  | .check i now =>
    match s.calls[i]? with
    | none => s
    | some x =>
      let (m, c) := CheckCall.step now (s.memory, x.call)
      { s with memory := m, calls := s.calls.set i { x with call := c } }
  | .getOnlineDevice keys =>
    { memory := Report.begin s.memory
      calls := s.calls.map (Connection.follow s.reports.length)
      reports := s.reports ++ [{ todo := keys }] }
  | .report j ips =>
    match s.reports[j]? with
    | none => s
    | some r =>
      let (m, r) := Report.step ips (s.memory, r)
      { s with memory := m, reports := s.reports.set j r }

end LimiterMachine

/-! ### Devices in reports -/

/-- The device that a report has in hand. -/
def ReportPhase.inHand : ReportPhase → Option OnlineUser
  | .store _ _ _ device => some device
  | _ => none

/-- The addresses at a pointer that a report is still going to visit. -/
def ReportPhase.awaited (p : ℕ) : ReportPhase → List String
  | .addresses _ q todo => if q = p then todo else []
  | .store _ q todo _ => if q = p then todo else []
  | _ => []

/-- The device is in the report. -/
def Report.Has (r : Report) (d : OnlineUser) : Prop := d ∈ r.onlineUser ∨ r.phase.inHand = some d

instance (r : Report) (d : OnlineUser) : Decidable (r.Has d) := inferInstanceAs (Decidable (_ ∨ _))

namespace Connection

/-- One of the reports that are responsible for the device has the property. -/
def Any (rs : List Report) (x : Connection) (P : Report → Prop) : Prop :=
  ∃ j ∈ x.reports, ∃ r ∈ rs[j]?, P r

instance (rs : List Report) (x : Connection) (P : Report → Prop) [DecidablePred P] :
    Decidable (x.Any rs P) :=
  inferInstanceAs (Decidable (∃ j ∈ _, _))

/-- A responsible report has the device. -/
def Covered (rs : List Report) (x : Connection) : Prop := x.Any rs fun r => r.Has x.call.device

/-- A responsible report is going to visit the address in the map at `p`. -/
def Awaited (rs : List Report) (x : Connection) (p : ℕ) : Prop :=
  x.Any rs fun r => x.call.ip ∈ r.phase.awaited p

/-- A responsible report is going to visit the user. -/
def Queued (rs : List Report) (x : Connection) : Prop := x.Any rs fun r => x.call.taguuid ∈ r.todo

/-- The connection was accepted, and all reports that are responsible for its device have returned
without it. -/
def Lost (rs : List Report) (x : Connection) : Prop :=
  (x.call.noSSUDP = true ∧ x.call.phase.returned = true ∧ x.call.phase ≠ .rejected) ∧
    x.followed = true ∧
    ∀ j ∈ x.reports, ∀ r ∈ rs[j]?, r.phase = .returned ∧ x.call.device ∉ r.onlineUser

instance (rs : List Report) (x : Connection) : Decidable (x.Lost rs) :=
  inferInstanceAs (Decidable (_ ∧ _))

instance (rs : List Report) (x : Connection) : Decidable (x.Covered rs) :=
  inferInstanceAs (Decidable (x.Any _ _))

instance (rs : List Report) (x : Connection) (p : ℕ) : Decidable (x.Awaited rs p) :=
  inferInstanceAs (Decidable (x.Any _ _))

end Connection

/-! ### Operations that take nothing away -/

/-- The user whose map of addresses the next operation removes. -/
def CheckCall.removedUser (c : CheckCall) : Option String :=
  match c.phase with
  | .undoUser => some c.taguuid
  | _ => none

/-- The address that the next operation removes from a map. -/
def CheckCall.removedIP (c : CheckCall) : Option (ℕ × String) :=
  match c.phase with
  | .undoIP p => some (p, c.ip)
  | _ => none

@[inherit_doc CheckCall.removedUser]
def Report.removedUser (r : Report) : Option String :=
  match r.phase with
  | .delete key => some key
  | _ => none

namespace LimiterMachine

@[inherit_doc CheckCall.removedUser]
def removedUser (s : LimiterMachine) : OperationEvent → Option String
  | .check i _ => s.calls[i]?.bind fun x => x.call.removedUser
  | .report j _ => s.reports[j]?.bind Report.removedUser
  | _ => none

@[inherit_doc CheckCall.removedIP]
def removedIP (s : LimiterMachine) : OperationEvent → Option (ℕ × String)
  | .check i _ => s.calls[i]?.bind fun x => x.call.removedIP
  | _ => none

/-- The operation takes nothing away that a connection relies on. When it removes the map of a user,
then every connection that has the map, and is not rejected, is in a report, or its address is in
the map and going to be visited by a report. When it removes an address from a map, then every
connection that has found the address there is in a report. -/
def Preserves (s : LimiterMachine) (e : OperationEvent) : Prop :=
  (∀ key ∈ s.removedUser e, ∀ p ∈ s.memory.userOnlineIP.lookup key, ∀ y ∈ s.calls,
    y.call.phase.held = some p →
      y.Covered s.reports ∨ y.call.phase.inserted = some p ∧ y.Awaited s.reports p) ∧
  (∀ q ∈ s.removedIP e, ∀ y ∈ s.calls, y.call.phase.inserted = some q.1 → y.call.ip = q.2 →
    y.Covered s.reports)

/-- The ranges visit what was there at their beginning, and nothing twice. -/
def Visits (s : LimiterMachine) : OperationEvent → Prop
  | .getOnlineDevice keys => keys.Nodup ∧ ∀ k ∈ s.memory.userOnlineIP.keys, k ∈ keys
  | .report j ips => ∀ r ∈ s.reports[j]?, Report.Visits ips (s.memory, r)
  | _ => True

instance (s : LimiterMachine) (e : OperationEvent) : Decidable (s.Preserves e) :=
  inferInstanceAs (Decidable (_ ∧ _))

instance (ips : List String) (state : Memory × Report) : Decidable (Report.Visits ips state) :=
  inferInstanceAs (Decidable (∀ _ ∈ _, _))

instance (s : LimiterMachine) : (e : OperationEvent) → Decidable (s.Visits e)
  | .checkLimit .. => inferInstanceAs (Decidable True)
  | .check .. => inferInstanceAs (Decidable True)
  | .getOnlineDevice _ => inferInstanceAs (Decidable (_ ∧ _))
  | .report .. => inferInstanceAs (Decidable (∀ _ ∈ _, _))

end LimiterMachine

/-! ### The memory -/

/-- The maps of addresses belong to the users under whom they are found, and the uids in them are
those of the users. -/
structure Memory.Proper (uidOf : String → Option ℤ) (m : Memory) : Prop where
  users : ∀ k u, m.userLimitInfo.lookup k = some u → uidOf k = some u.uid
  owned : m.Owned
  uids : ∀ p k ip v, m.owner p = some k → (m.ips p).lookup ip = some v → uidOf k = some v

namespace Memory.Proper

variable {uidOf : String → Option ℤ} {m m' : Memory}

/-- An operation that leaves the addresses as they are. -/
theorem of_eq (h : m.Proper uidOf)
    (husers : ∀ k u, m'.userLimitInfo.lookup k = some u → uidOf k = some u.uid)
    (honline : m'.userOnlineIP = m.userOnlineIP) (hmaps : m'.ipMaps = m.ipMaps) :
    m'.Proper uidOf := by
  refine ⟨husers, fun k p => ?_, fun p k ip v => ?_⟩
  · rw [honline, owner, hmaps]
    exact h.owned k p
  · rw [owner, ips, hmaps]
    exact h.uids p k ip v

theorem allocate (h : m.Proper uidOf) {k ip : String} {uid : ℤ} (hk : uidOf k = some uid) :
    (m.allocate k (Finmap.singleton ip uid)).Proper uidOf := by
  refine ⟨h.users, h.owned.allocate k _, fun p k' i v => ?_⟩
  rw [owner_allocate, ips_allocate]
  split_ifs with hp
  · rintro ⟨⟩ hlook
    rw [GoMap.lookup_singleton] at hlook
    split_ifs at hlook
    cases hlook
    exact hk
  · exact h.uids p k' i v

theorem insertIP (h : m.Proper uidOf) {p : ℕ} {k ip : String} {uid : ℤ} (hp : m.owner p = some k)
    (hk : uidOf k = some uid) : (m.setIPs p fun ipMap => ipMap.insert ip uid).Proper uidOf := by
  refine ⟨h.users, h.owned.setIPs p _, fun q k' i v => ?_⟩
  rw [owner_setIPs, ips_setIPs hp]
  split_ifs with hq
  · subst hq
    rw [hp, GoMap.lookup_insert]
    rintro ⟨⟩
    split_ifs with hi
    · rintro ⟨⟩
      exact hk
    · exact h.uids q k i v hp
  · exact h.uids q k' i v

theorem eraseIP (h : m.Proper uidOf) {p : ℕ} {k ip : String} (hp : m.owner p = some k) :
    (m.setIPs p fun ipMap => ipMap.erase ip).Proper uidOf := by
  refine ⟨h.users, h.owned.setIPs p _, fun q k' i v hq hlook => ?_⟩
  rw [owner_setIPs] at hq
  rw [ips_setIPs hp] at hlook
  split_ifs at hlook with hqp
  · subst hqp
    rw [GoMap.lookup_erase] at hlook
    split_ifs at hlook
    exact h.uids q k' i v hq hlook
  · exact h.uids q k' i v hq hlook

theorem eraseUser (h : m.Proper uidOf) (key : String) :
    ({ m with userOnlineIP := m.userOnlineIP.erase key } : Memory).Proper uidOf :=
  ⟨h.users, h.owned.eraseUser key, h.uids⟩

end Memory.Proper

/-! ### What a connection relies on -/

/-- The call has passed the device limit without a map of addresses. -/
def CheckPhase.deviceless : CheckPhase → Bool
  | .bucket none => true
  | .storeBucket none => true
  | .accepted none => true
  | _ => false

theorem CheckPhase.held_of_inserted {phase : CheckPhase} {p : ℕ} (h : phase.inserted = some p) :
    phase.held = some p := by
  cases phase <;> first | exact h | cases h

theorem CheckPhase.deviceless_of_inserted {phase : CheckPhase} {p : ℕ}
    (h : phase.inserted = some p) : phase.deviceless = false := by
  cases phase <;> cases h <;> rfl

/-- An accepted connection that counts as a device has a map of addresses. -/
theorem CheckPhase.exists_inserted {phase : CheckPhase} (hreturned : phase.returned = true)
    (hrejected : phase ≠ .rejected) (hdevice : phase.deviceless = false) :
    ∃ p, phase.inserted = some p := by
  cases phase with
  | accepted p =>
    cases p with
    | none => cases hdevice
    | some p => exact ⟨p, rfl⟩
  | rejected => exact (hrejected rfl).elim
  | _ => cases hreturned

namespace Connection

variable {uidOf : String → Option ℤ} {m m' : Memory} {rs : List Report} {x : Connection}

/-- What a connection relies on until a report has its device. A map that it is going to store its
address in is found under the user. Its address is in the map that it has, and either a report is
going to visit it there, or the map is found under the user and the first report after the return,
if started, is going to visit the user. -/
structure Safe (uidOf : String → Option ℤ) (m : Memory) (rs : List Report) (x : Connection) :
    Prop where
  uid : x.call.phase = .load ∨ x.call.phase = .rejected ∨
    uidOf x.call.taguuid = some x.call.uid
  owner : ∀ p, x.call.phase.held = some p ∨ x.call.phase = .undoIP p →
    m.owner p = some x.call.taguuid
  device : x.call.noSSUDP = true → x.call.phase.deviceless = false
  followed : x.followed = true → x.call.phase.returned = true
  storing : ∀ p, x.call.phase = .storeIP p →
    x.Covered rs ∨ m.userOnlineIP.lookup x.call.taguuid = some p
  inserted : ∀ p, x.call.phase.inserted = some p → x.Covered rs ∨
    (m.ips p).lookup x.call.ip = some x.call.uid ∧ (x.Awaited rs p ∨
      m.userOnlineIP.lookup x.call.taguuid = some p ∧ (x.followed = true → x.Queued rs))

/-- A connection without a map of addresses relies on nothing. -/
theorem Safe.of_idle (huid : x.call.phase = .load ∨ x.call.phase = .rejected ∨
      uidOf x.call.taguuid = some x.call.uid) (hheld : x.call.phase.held = none)
    (hundo : ∀ p, x.call.phase ≠ .undoIP p)
    (hdevice : x.call.noSSUDP = true → x.call.phase.deviceless = false)
    (hfollowed : x.followed = true → x.call.phase.returned = true) : x.Safe uidOf m rs where
  uid := huid
  owner := by
    rintro p (hp | hp)
    · rw [hheld] at hp
      cases hp
    · exact (hundo p hp).elim
  device := hdevice
  followed := hfollowed
  storing := fun p hp => by
    rw [hp] at hheld
    cases hheld
  inserted := fun p hp => by
    rw [CheckPhase.held_of_inserted hp] at hheld
    cases hheld

/-- The memory may change as long as nothing is taken away that the connection relies on. -/
theorem Safe.of_memory (h : x.Safe uidOf m rs)
    (howner : ∀ p, m.owner p = some x.call.taguuid → m'.owner p = some x.call.taguuid)
    (hattached : ∀ p, x.call.phase.held = some p →
      m.userOnlineIP.lookup x.call.taguuid = some p →
      m'.userOnlineIP.lookup x.call.taguuid = some p ∨ x.Covered rs ∨
        x.call.phase.inserted = some p ∧ x.Awaited rs p)
    (hpresent : ∀ p, x.call.phase.inserted = some p →
      (m.ips p).lookup x.call.ip = some x.call.uid →
      (m'.ips p).lookup x.call.ip = some x.call.uid ∨ x.Covered rs) : x.Safe uidOf m' rs where
  uid := h.uid
  owner := fun p hp => howner p (h.owner p hp)
  device := h.device
  followed := h.followed
  storing := fun p hp => by
    rcases h.storing p hp with hcovered | hlook
    · exact Or.inl hcovered
    · have hheld : x.call.phase.held = some p := by rw [hp]; rfl
      rcases hattached p hheld hlook with hlook' | hcovered | ⟨hinserted, -⟩
      · exact Or.inr hlook'
      · exact Or.inl hcovered
      · rw [hp] at hinserted
        cases hinserted
  inserted := fun p hp => by
    rcases h.inserted p hp with hcovered | ⟨hlook, hrest⟩
    · exact Or.inl hcovered
    · rcases hpresent p hp hlook with hlook' | hcovered
      · rcases hrest with hawaited | ⟨hattach, hqueued⟩
        · exact Or.inr ⟨hlook', Or.inl hawaited⟩
        · rcases hattached p (CheckPhase.held_of_inserted hp) hattach with
            hattach' | hcovered | ⟨-, hawaited⟩
          · exact Or.inr ⟨hlook', Or.inr ⟨hattach', hqueued⟩⟩
          · exact Or.inl hcovered
          · exact Or.inr ⟨hlook', Or.inl hawaited⟩
      · exact Or.inl hcovered

/-- An operation that leaves the addresses as they are. -/
theorem Safe.of_eq (h : x.Safe uidOf m rs) (honline : m'.userOnlineIP = m.userOnlineIP)
    (hmaps : m'.ipMaps = m.ipMaps) : x.Safe uidOf m' rs := by
  refine h.of_memory (fun p hp => ?_) (fun p _ hp => Or.inl ?_) (fun p _ hp => Or.inl ?_)
  · rw [Memory.owner, hmaps]
    exact hp
  · rw [honline]
    exact hp
  · rw [Memory.ips, hmaps]
    exact hp

theorem Safe.allocate (h : x.Safe uidOf m rs) {key : String}
    (hkey : m.userOnlineIP.lookup key = none) (ipMap : GoMap String ℤ) :
    x.Safe uidOf (m.allocate key ipMap) rs := by
  have hnew {p : ℕ} (hp : m.owner p = some x.call.taguuid) : p ≠ m.ipMaps.length :=
    (Memory.owner_lt hp).ne
  refine h.of_memory (fun p hp => ?_) (fun p _ hlook => Or.inl ?_) (fun p hp hlook => Or.inl ?_)
  · rw [Memory.owner_allocate, if_neg (hnew hp), hp]
  · rw [Memory.allocate, GoMap.lookup_insert, if_neg, hlook]
    rintro rfl
    rw [hkey] at hlook
    cases hlook
  · rw [Memory.ips_allocate, if_neg (hnew (h.owner p (Or.inl (CheckPhase.held_of_inserted hp)))),
      hlook]

theorem Safe.insertIP (h : x.Safe uidOf m rs) {q : ℕ} {key ip : String}
    (hq : m.owner q = some key) (habsent : (m.ips q).lookup ip = none) (uid : ℤ) :
    x.Safe uidOf (m.setIPs q fun ipMap => ipMap.insert ip uid) rs := by
  refine h.of_memory (fun p hp => ?_) (fun p _ hlook => Or.inl hlook) (fun p hp hlook => Or.inl ?_)
  · rw [Memory.owner_setIPs, hp]
  · rw [Memory.ips_setIPs hq]
    split_ifs with hpq
    · subst hpq
      rw [GoMap.lookup_insert, if_neg, hlook]
      rintro rfl
      rw [habsent] at hlook
      cases hlook
    · exact hlook

theorem Safe.eraseIP (h : x.Safe uidOf m rs) {q : ℕ} {key ip : String}
    (hq : m.owner q = some key)
    (hok : x.call.phase.inserted = some q → x.call.ip = ip → x.Covered rs) :
    x.Safe uidOf (m.setIPs q fun ipMap => ipMap.erase ip) rs := by
  refine h.of_memory (fun p hp => ?_) (fun p _ hlook => Or.inl hlook) (fun p hp hlook => ?_)
  · rw [Memory.owner_setIPs, hp]
  · rw [Memory.ips_setIPs hq]
    split_ifs with hpq
    · subst hpq
      by_cases hip : x.call.ip = ip
      · exact Or.inr (hok hp hip)
      · rw [GoMap.lookup_erase, if_neg hip]
        exact Or.inl hlook
    · exact Or.inl hlook

theorem Safe.eraseUser (h : x.Safe uidOf m rs) {key : String}
    (hok : ∀ p, m.userOnlineIP.lookup key = some p → x.call.phase.held = some p →
      x.Covered rs ∨ x.call.phase.inserted = some p ∧ x.Awaited rs p) :
    x.Safe uidOf { m with userOnlineIP := m.userOnlineIP.erase key } rs := by
  refine h.of_memory (fun p hp => hp) (fun p hp hlook => ?_) (fun p _ hlook => Or.inl hlook)
  rw [GoMap.lookup_erase]
  split_ifs with hkey
  · exact Or.inr (hok p (hkey ▸ hlook) hp)
  · exact Or.inl hlook

/-- The connection goes on with the map of addresses that it has, or without one. -/
theorem Safe.advance (h : x.Safe uidOf m rs) (hload : x.call.phase ≠ .load)
    (hactive : x.call.phase.returned = false) {phase : CheckPhase}
    (hinserted : ∀ p, phase.inserted = some p → x.call.phase.inserted = some p)
    (hstore : ∀ p, phase ≠ .storeIP p)
    (hheld : ∀ p, phase.held = some p → x.call.phase.held = some p)
    (hundo : ∀ p, phase = .undoIP p → x.call.phase.held = some p)
    (hdevice : x.call.noSSUDP = true → phase.deviceless = false) :
    Safe uidOf m rs { x with call := { x.call with phase := phase } } where
  uid := by
    rcases h.uid with hl | hr | huid
    · exact (hload hl).elim
    · rw [hr] at hactive
      cases hactive
    · exact Or.inr (Or.inr huid)
  owner := fun p hp => h.owner p (Or.inl (hp.elim (hheld p) (hundo p)))
  device := hdevice
  followed := fun hf => by
    rw [h.followed hf] at hactive
    cases hactive
  storing := fun p hp => (hstore p hp).elim
  inserted := fun p hp => h.inserted p (hinserted p hp)

/-- The connection goes on with its address in the map. -/
theorem Safe.advance_of_inserted (h : x.Safe uidOf m rs) {p : ℕ}
    (hinserted : x.call.phase.inserted = some p) (hactive : x.call.phase.returned = false)
    {phase : CheckPhase} (hphase : phase.inserted = some p) :
    Safe uidOf m rs { x with call := { x.call with phase := phase } } := by
  have hload : x.call.phase ≠ .load := by
    intro hl
    rw [hl] at hinserted
    cases hinserted
  have hheld : x.call.phase.held = some p := CheckPhase.held_of_inserted hinserted
  refine h.advance hload hactive (fun q hq => ?_) (fun q hq => ?_) (fun q hq => ?_)
    (fun q hq => ?_) fun _ => CheckPhase.deviceless_of_inserted hphase
  · exact hinserted.trans (hphase.symm.trans hq)
  · rw [hq] at hphase
    cases hphase
  · exact hheld.trans ((CheckPhase.held_of_inserted hphase).symm.trans hq)
  · rw [hq] at hphase
    cases hphase

/-- The connection goes on to give up its address. -/
theorem Safe.advance_of_undo (h : x.Safe uidOf m rs) {p : ℕ}
    (hinserted : x.call.phase.inserted = some p) (hactive : x.call.phase.returned = false)
    {phase : CheckPhase} (hphase : phase = .undoUser ∨ phase = .undoIP p) :
    Safe uidOf m rs { x with call := { x.call with phase := phase } } := by
  have hload : x.call.phase ≠ .load := by
    intro hl
    rw [hl] at hinserted
    cases hinserted
  have hheld : x.call.phase.held = some p := CheckPhase.held_of_inserted hinserted
  have hundo (q : ℕ) (hq : CheckPhase.undoIP p = .undoIP q) : x.call.phase.held = some q := by
    cases hq
    exact hheld
  rcases hphase with rfl | rfl
  · refine h.advance hload hactive ?_ ?_ ?_ ?_ fun _ => rfl
    all_goals
      intro q hq
      cases hq
  · refine h.advance hload hactive ?_ ?_ ?_ hundo fun _ => rfl
    all_goals
      intro q hq
      cases hq

end Connection

/-! ### One operation of a connection -/

namespace Connection

variable {uidOf : String → Option ℤ} {m : Memory} {rs : List Report} {x : Connection}

/-- The next operation of the connection `x` takes nothing away that `y` relies on. -/
def Spared (m : Memory) (rs : List Report) (x y : Connection) : Prop :=
  (∀ key ∈ x.call.removedUser, ∀ p ∈ m.userOnlineIP.lookup key, y.call.phase.held = some p →
    y.Covered rs ∨ y.call.phase.inserted = some p ∧ y.Awaited rs p) ∧
  ∀ q ∈ x.call.removedIP, y.call.phase.inserted = some q.1 → y.call.ip = q.2 → y.Covered rs

/-- The memory and the connection after an operation of the connection, and what the operation is to
the other ones. -/
structure Kept (uidOf : String → Option ℤ) (m : Memory) (rs : List Report) (x : Connection)
    (state : Memory × CheckCall) : Prop where
  proper : state.1.Proper uidOf
  actor : Safe uidOf state.1 rs { x with call := state.2 }
  others : ∀ y, y.Safe uidOf m rs → Spared m rs x y → y.Safe uidOf state.1 rs

/-- An operation that leaves the addresses as they are. -/
theorem Kept.quiet (hm : m.Proper uidOf) {m' : Memory} {c : CheckCall}
    (husers : ∀ k u, m'.userLimitInfo.lookup k = some u → uidOf k = some u.uid)
    (honline : m'.userOnlineIP = m.userOnlineIP) (hmaps : m'.ipMaps = m.ipMaps)
    (hactor : Safe uidOf m rs { x with call := c }) : Kept uidOf m rs x (m', c) :=
  ⟨hm.of_eq husers honline hmaps, hactor.of_eq honline hmaps, fun _ hy _ => hy.of_eq honline hmaps⟩

/-- The connection has its user, and goes on to the device limit or without it. -/
theorem Safe.of_afterLoad (hx : x.Safe uidOf m rs) (hactive : x.call.phase.returned = false)
    {c : CheckCall} (hdevice : c.noSSUDP = x.call.noSSUDP)
    (hphase : c.phase = x.call.afterLoad) (huid : uidOf c.taguuid = some c.uid) :
    Safe uidOf m rs { x with call := c } := by
  have hfollowed : x.followed = true → c.phase.returned = true := fun hf => by
    rw [hx.followed hf] at hactive
    cases hactive
  refine .of_idle (Or.inr (Or.inr huid)) ?_ ?_ ?_ hfollowed
  all_goals simp only [hphase, CheckCall.afterLoad, hdevice]
  all_goals cases x.call.noSSUDP <;> simp [CheckPhase.held, CheckPhase.inserted,
    CheckPhase.deviceless]

/-- The connection is rejected. -/
theorem Safe.of_rejected (x : Connection) {c : CheckCall} (hphase : c.phase = .rejected) :
    Safe uidOf m rs { x with call := c } := by
  refine .of_idle (Or.inr (Or.inl hphase)) ?_ ?_ ?_ ?_
  all_goals simp [hphase, CheckPhase.held, CheckPhase.inserted, CheckPhase.deviceless,
    CheckPhase.returned]

theorem kept_load (hm : m.Proper uidOf) (hx : x.Safe uidOf m rs) (hphase : x.call.phase = .load)
    (now : ℤ) : Kept uidOf m rs x (CheckCall.step now (m, x.call)) := by
  have hactive : x.call.phase.returned = false := by rw [hphase]; rfl
  cases hu : m.userLimitInfo.lookup x.call.taguuid with
  | none =>
    simp only [CheckCall.step, hphase, hu]
    exact .quiet hm hm.users rfl rfl (.of_rejected x rfl)
  | some u =>
    have huid := hm.users _ _ hu
    simp only [CheckCall.step, hphase, hu]
    split_ifs with hexpired hspeed
    · refine .quiet hm (fun k v hv => ?_) rfl rfl (hx.of_afterLoad hactive rfl rfl huid)
      rw [GoMap.lookup_insert] at hv
      split_ifs at hv with hk
      · cases hv
        rw [hk, huid]
      · exact hm.users k v hv
    · refine .quiet hm hm.users rfl rfl
        (.of_idle (Or.inr (Or.inr huid)) rfl (fun _ h => by cases h) (fun _ => rfl) ?_)
      intro hf
      rw [hx.followed hf] at hactive
      cases hactive
    · exact .quiet hm hm.users rfl rfl (hx.of_afterLoad hactive rfl rfl huid)

theorem Safe.uid_of_active (hx : x.Safe uidOf m rs) (hload : x.call.phase ≠ .load)
    (hactive : x.call.phase.returned = false) : uidOf x.call.taguuid = some x.call.uid := by
  rcases hx.uid with hl | hr | huid
  · exact (hload hl).elim
  · rw [hr] at hactive
    cases hactive
  · exact huid

theorem Safe.not_followed (hx : x.Safe uidOf m rs) (hactive : x.call.phase.returned = false) :
    x.followed = false := by
  cases hf : x.followed with
  | false => rfl
  | true =>
    rw [hx.followed hf] at hactive
    cases hactive

theorem kept_unregister (hm : m.Proper uidOf) (hx : x.Safe uidOf m rs)
    (hphase : x.call.phase = .unregister) (now : ℤ) :
    Kept uidOf m rs x (CheckCall.step now (m, x.call)) := by
  have hactive : x.call.phase.returned = false := by rw [hphase]; rfl
  have huid := hx.uid_of_active (by rw [hphase]; nofun) hactive
  simp only [CheckCall.step, hphase]
  refine .quiet hm (fun k v hv => ?_) rfl rfl (hx.of_afterLoad hactive rfl rfl huid)
  rw [GoMap.lookup_erase] at hv
  split_ifs at hv
  exact hm.users k v hv

/-- The address of the connection is in the map that is found under the user. -/
theorem Safe.of_inserted (hfollowed : x.followed = false) {c : CheckCall} {p : ℕ}
    (huid : uidOf c.taguuid = some c.uid) (hinserted : c.phase.inserted = some p)
    (howner : m.owner p = some c.taguuid)
    (hstored : Covered rs { x with call := c } ∨
      (m.ips p).lookup c.ip = some c.uid ∧ m.userOnlineIP.lookup c.taguuid = some p) :
    Safe uidOf m rs { x with call := c } where
  uid := Or.inr (Or.inr huid)
  owner := by
    rintro q (hq | hq)
    · obtain rfl : p = q :=
        Option.some.inj ((CheckPhase.held_of_inserted hinserted).symm.trans hq)
      exact howner
    · rw [show c.phase = .undoIP q from hq] at hinserted
      cases hinserted
  device := fun _ => by
    exact CheckPhase.deviceless_of_inserted hinserted
  followed := fun hf => by
    rw [show x.followed = true from hf] at hfollowed
    cases hfollowed
  storing := fun q hq => by
    rw [show c.phase = .storeIP q from hq] at hinserted
    cases hinserted
  inserted := fun q hq => by
    obtain rfl : p = q := Option.some.inj (hinserted.symm.trans hq)
    refine hstored.imp id fun ⟨hlook, hattached⟩ => ⟨hlook, Or.inr ⟨hattached, fun hf => ?_⟩⟩
    rw [show x.followed = true from hf] at hfollowed
    cases hfollowed

/-- The map of the user is found, or a new one is made with the address of the connection. -/
theorem kept_storeUser (hm : m.Proper uidOf) (hx : x.Safe uidOf m rs)
    (hphase : x.call.phase = .storeUser) (now : ℤ) :
    Kept uidOf m rs x (CheckCall.step now (m, x.call)) := by
  have hactive : x.call.phase.returned = false := by rw [hphase]; rfl
  have huid := hx.uid_of_active (by rw [hphase]; nofun) hactive
  have hfollowed := hx.not_followed hactive
  cases hlook : m.userOnlineIP.lookup x.call.taguuid with
  | some p =>
    simp only [CheckCall.step, hphase, hlook]
    refine .quiet hm hm.users rfl rfl
      ⟨Or.inr (Or.inr huid), ?_, fun _ => rfl, ?_, ?_, fun _ h => by cases h⟩
    · rintro q (hq | hq)
      · obtain rfl : p = q := Option.some.inj hq
        exact hm.owned _ _ hlook
      · cases hq
    · intro hf
      rw [show x.followed = true from hf] at hfollowed
      cases hfollowed
    · rintro q ⟨⟩
      exact Or.inr hlook
  | none =>
    simp only [CheckCall.step, hphase, hlook]
    refine ⟨hm.allocate huid, .of_inserted hfollowed huid rfl ?_ (Or.inr ⟨?_, ?_⟩),
      fun y hy _ => hy.allocate hlook _⟩
    · rw [Memory.owner_allocate, if_pos rfl]
    · rw [Memory.ips_allocate, if_pos rfl, GoMap.lookup_singleton, if_pos rfl]
    · rw [Memory.allocate, GoMap.lookup_insert, if_pos rfl]

/-- The address is found in the map of the user, or stored in it. -/
theorem kept_storeIP (hm : m.Proper uidOf) (hx : x.Safe uidOf m rs) {p : ℕ}
    (hphase : x.call.phase = .storeIP p) (now : ℤ) :
    Kept uidOf m rs x (CheckCall.step now (m, x.call)) := by
  have hactive : x.call.phase.returned = false := by rw [hphase]; rfl
  have huid := hx.uid_of_active (by rw [hphase]; nofun) hactive
  have hfollowed := hx.not_followed hactive
  have howner := hx.owner p (Or.inl (by rw [hphase]; rfl))
  have hstoring := hx.storing p hphase
  cases hip : (m.ips p).lookup x.call.ip with
  | some v =>
    have hv : v = x.call.uid := Option.some.inj ((hm.uids p _ _ v howner hip).symm.trans huid)
    simp only [CheckCall.step, hphase, hip]
    refine .quiet hm hm.users rfl rfl (.of_inserted hfollowed huid rfl howner ?_)
    exact hstoring.imp id fun hlook => ⟨hip.trans (by rw [hv]), hlook⟩
  | none =>
    simp only [CheckCall.step, hphase, hip]
    refine ⟨hm.insertIP howner huid, .of_inserted hfollowed huid rfl ?_ ?_,
      fun y hy _ => hy.insertIP howner hip _⟩
    · rw [Memory.owner_setIPs]
      exact howner
    · refine hstoring.imp id fun hlook => ⟨?_, hlook⟩
      rw [Memory.ips_setIPs howner, if_pos rfl, GoMap.lookup_insert, if_pos rfl]

/-- The last report is asked for the address: the address is kept or to be given up. -/
theorem kept_loadOld (hm : m.Proper uidOf) (hx : x.Safe uidOf m rs) {p : ℕ} {newUser : Bool}
    (hphase : x.call.phase = .loadOld p newUser) (now : ℤ) :
    Kept uidOf m rs x (CheckCall.step now (m, x.call)) := by
  have hactive : x.call.phase.returned = false := by rw [hphase]; rfl
  have hinserted : x.call.phase.inserted = some p := by rw [hphase]; rfl
  simp only [CheckCall.step, hphase]
  split
  · split_ifs
    · exact .quiet hm hm.users rfl rfl (hx.advance_of_inserted hinserted hactive rfl)
    · exact .quiet hm hm.users rfl rfl (hx.advance_of_inserted hinserted hactive rfl)
  · split_ifs
    · exact .quiet hm hm.users rfl rfl (hx.advance_of_undo hinserted hactive (Or.inl rfl))
    · exact .quiet hm hm.users rfl rfl (hx.advance_of_undo hinserted hactive (Or.inr rfl))
    · exact .quiet hm hm.users rfl rfl (hx.advance_of_inserted hinserted hactive rfl)

theorem kept_deleteOld (hm : m.Proper uidOf) (hx : x.Safe uidOf m rs) {p : ℕ}
    (hphase : x.call.phase = .deleteOld p) (now : ℤ) :
    Kept uidOf m rs x (CheckCall.step now (m, x.call)) := by
  have hactive : x.call.phase.returned = false := by rw [hphase]; rfl
  have hinserted : x.call.phase.inserted = some p := by rw [hphase]; rfl
  simp only [CheckCall.step, hphase]
  exact .quiet hm hm.users rfl rfl (hx.advance_of_inserted hinserted hactive rfl)

/-- The address is given up. -/
theorem kept_undoIP (hm : m.Proper uidOf) (hx : x.Safe uidOf m rs) {p : ℕ}
    (hphase : x.call.phase = .undoIP p) (now : ℤ) :
    Kept uidOf m rs x (CheckCall.step now (m, x.call)) := by
  have howner := hx.owner p (Or.inr hphase)
  have hremoved : x.call.removedIP = some (p, x.call.ip) := by rw [CheckCall.removedIP, hphase]
  simp only [CheckCall.step, hphase]
  exact ⟨hm.eraseIP howner, .of_rejected x rfl, fun y hy hok =>
    hy.eraseIP howner fun hp hip => hok.2 _ hremoved hp hip⟩

/-- The map of the user is given up. -/
theorem kept_undoUser (hm : m.Proper uidOf) (hphase : x.call.phase = .undoUser) (now : ℤ) :
    Kept uidOf m rs x (CheckCall.step now (m, x.call)) := by
  have hremoved : x.call.removedUser = some x.call.taguuid := by
    rw [CheckCall.removedUser, hphase]
  simp only [CheckCall.step, hphase]
  exact ⟨hm.eraseUser _, .of_rejected x rfl, fun y hy hok =>
    hy.eraseUser fun p hp hheld => hok.1 _ hremoved p hp hheld⟩

/-- The connection is accepted with the map of addresses that it has, or goes on to its bucket. -/
theorem Safe.of_bucket (hx : x.Safe uidOf m rs) {p : Option ℕ}
    (hphase : x.call.phase = .bucket p ∨ x.call.phase = .storeBucket p) {phase : CheckPhase}
    (hphase' : phase = .storeBucket p ∨ phase = .accepted p) :
    Safe uidOf m rs { x with call := { x.call with phase := phase } } := by
  have hload : x.call.phase ≠ .load := by rcases hphase with h | h <;> rw [h] <;> nofun
  have hactive : x.call.phase.returned = false := by rcases hphase with h | h <;> rw [h] <;> rfl
  have hinserted : x.call.phase.inserted = p := by rcases hphase with h | h <;> rw [h] <;> rfl
  have hheld : x.call.phase.held = p := by rcases hphase with h | h <;> rw [h] <;> rfl
  have hdevice : x.call.noSSUDP = true → p ≠ none := by
    rintro hd rfl
    have hnot := hx.device hd
    rcases hphase with h | h <;> rw [h] at hnot <;> cases hnot
  have hdeviceless (hd : x.call.noSSUDP = true) : phase.deviceless = false := by
    obtain ⟨q, rfl⟩ := Option.ne_none_iff_exists'.mp (hdevice hd)
    rcases hphase' with rfl | rfl <;> rfl
  refine hx.advance hload hactive ?_ ?_ ?_ ?_ hdeviceless
  · rcases hphase' with rfl | rfl <;> exact fun _ h => hinserted.trans h
  · rcases hphase' with rfl | rfl <;> nofun
  · rcases hphase' with rfl | rfl <;> exact fun _ h => hheld.trans h
  · rcases hphase' with rfl | rfl <;> nofun

theorem kept_bucket (hm : m.Proper uidOf) (hx : x.Safe uidOf m rs) {p : Option ℕ}
    (hphase : x.call.phase = .bucket p) (now : ℤ) :
    Kept uidOf m rs x (CheckCall.step now (m, x.call)) := by
  simp only [CheckCall.step, hphase]
  split_ifs
  · split
    · exact .quiet hm hm.users rfl rfl (hx.of_bucket (Or.inl hphase) (Or.inr rfl))
    · exact .quiet hm hm.users rfl rfl (hx.of_bucket (Or.inl hphase) (Or.inl rfl))
  · exact .quiet hm hm.users rfl rfl (hx.of_bucket (Or.inl hphase) (Or.inr rfl))

/-- **One operation of a connection** leaves what it relies on itself, and what others rely on that
it spares. -/
theorem kept_step (hm : m.Proper uidOf) (hx : x.Safe uidOf m rs) (now : ℤ) :
    Kept uidOf m rs x (CheckCall.step now (m, x.call)) := by
  cases hphase : x.call.phase with
  | load => exact kept_load hm hx hphase now
  | unregister => exact kept_unregister hm hx hphase now
  | storeUser => exact kept_storeUser hm hx hphase now
  | storeIP p => exact kept_storeIP hm hx hphase now
  | loadOld p newUser => exact kept_loadOld hm hx hphase now
  | deleteOld p => exact kept_deleteOld hm hx hphase now
  | undoIP p => exact kept_undoIP hm hx hphase now
  | undoUser => exact kept_undoUser hm hphase now
  | bucket p => exact kept_bucket hm hx hphase now
  | storeBucket p =>
    simp only [CheckCall.step, hphase]
    exact .quiet hm hm.users rfl rfl (hx.of_bucket (Or.inr hphase) (Or.inr rfl))
  | accepted p =>
    simp only [CheckCall.step, hphase]
    exact .quiet hm hm.users rfl rfl hx
  | rejected =>
    simp only [CheckCall.step, hphase]
    exact .quiet hm hm.users rfl rfl hx

end Connection

/-! ### One operation of a report -/

namespace Report

variable {m : Memory} {r : Report} {ips : List String}

/-- A report keeps the devices that it has. -/
theorem has_step {d : OnlineUser} (h : r.Has d) : (step ips (m, r)).2.Has d := by
  unfold Has at h ⊢
  cases hphase : r.phase with
  | next =>
    simp only [hphase, ReportPhase.inHand, reduceCtorEq, or_false] at h
    simp only [step, hphase]
    split
    · exact Or.inl h
    · split <;> exact Or.inl h
  | addresses key p todo =>
    simp only [hphase, ReportPhase.inHand, reduceCtorEq, or_false] at h
    cases todo with
    | nil =>
      simp only [step, hphase]
      exact Or.inl h
    | cons ip todo =>
      simp only [step, hphase]
      split <;> exact Or.inl h
  | store key p todo device =>
    simp only [hphase, ReportPhase.inHand, Option.some.injEq] at h
    simp only [step, hphase, List.mem_append, List.mem_singleton]
    exact Or.inl (h.imp_right Eq.symm)
  | delete key =>
    simp only [hphase, ReportPhase.inHand, reduceCtorEq, or_false] at h
    simp only [step, hphase]
    exact Or.inl h
  | returned =>
    simp only [hphase, ReportPhase.inHand, reduceCtorEq, or_false] at h
    simp only [step, hphase]
    exact Or.inl h

/-- An address that is in its map is found when it is visited. -/
theorem awaited_step {p : ℕ} {ip : String} {v : ℤ} (h : ip ∈ r.phase.awaited p)
    (hlook : (m.ips p).lookup ip = some v) :
    ip ∈ (step ips (m, r)).2.phase.awaited p ∨ (step ips (m, r)).2.Has ⟨v, ip⟩ := by
  cases hphase : r.phase with
  | addresses key q todo =>
    rw [hphase, ReportPhase.awaited] at h
    split_ifs at h with hq
    · subst hq
      cases todo with
      | nil => cases h
      | cons i todo =>
        simp only [step, hphase]
        rcases List.mem_cons.mp h with rfl | hmem
        · rw [hlook]
          exact Or.inr (Or.inr rfl)
        · left
          split <;> simpa only [ReportPhase.awaited, if_true] using hmem
    · cases h
  | store key q todo device =>
    rw [hphase] at h
    simp only [step, hphase]
    exact Or.inl h
  | next =>
    rw [hphase] at h
    cases h
  | delete key =>
    rw [hphase] at h
    cases h
  | returned =>
    rw [hphase] at h
    cases h

/-- When a user is visited, all its addresses are going to be visited. -/
theorem todo_step (hvisits : Visits ips (m, r)) {k : String} (hk : k ∈ r.todo) :
    k ∈ (step ips (m, r)).2.todo ∨ ∀ p, m.userOnlineIP.lookup k = some p →
      ∀ ip v, (m.ips p).lookup ip = some v → ip ∈ (step ips (m, r)).2.phase.awaited p := by
  cases hphase : r.phase with
  | next =>
    cases htodo : r.todo with
    | nil =>
      rw [htodo] at hk
      cases hk
    | cons key todo =>
      rw [htodo] at hk
      simp only [step, hphase, htodo]
      rcases List.mem_cons.mp hk with rfl | hmem
      · right
        intro p hp ip v hlook
        have hkeys : ip ∈ (m.ips p).keys :=
          Finmap.mem_keys.mpr (Finmap.mem_iff.mpr ⟨v, hlook⟩)
        simp only [hp, ReportPhase.awaited, if_true]
        exact (hvisits k (by rw [htodo]; rfl) p hp hphase).2 ip hkeys
      · left
        split <;> exact hmem
  | addresses key p todo =>
    left
    cases todo with
    | nil =>
      simp only [step, hphase]
      exact hk
    | cons ip todo =>
      simp only [step, hphase]
      split <;> exact hk
  | store key p todo device =>
    simp only [step, hphase]
    exact Or.inl hk
  | delete key =>
    simp only [step, hphase]
    exact Or.inl hk
  | returned =>
    simp only [step, hphase]
    exact Or.inl hk

/-- A report that has returned has visited every user. -/
theorem todo_of_returned (h : r.phase = .returned → r.todo = [])
    (hret : (step ips (m, r)).2.phase = .returned) : (step ips (m, r)).2.todo = [] := by
  cases hphase : r.phase with
  | next =>
    cases htodo : r.todo with
    | nil => simp only [step, hphase, htodo]
    | cons key todo =>
      simp only [step, hphase, htodo] at hret
      split at hret <;> cases hret
  | addresses key p todo =>
    cases todo with
    | nil =>
      simp only [step, hphase] at hret
      cases hret
    | cons ip todo =>
      simp only [step, hphase] at hret
      split at hret <;> cases hret
  | store key p todo device =>
    simp only [step, hphase] at hret
    cases hret
  | delete key =>
    simp only [step, hphase] at hret
    cases hret
  | returned =>
    simp only [step, hphase]
    exact h hphase

/-- The addresses after an operation of a report. -/
theorem step_fst (ips : List String) (m : Memory) (r : Report) :
    (∃ key, r.phase = .delete key ∧
      (step ips (m, r)).1 = { m with userOnlineIP := m.userOnlineIP.erase key }) ∨
    ∃ old, (step ips (m, r)).1 = { m with oldUserOnline := old } := by
  cases hphase : r.phase with
  | next =>
    right
    simp only [step, hphase]
    split
    · exact ⟨_, rfl⟩
    · split <;> exact ⟨_, rfl⟩
  | addresses key p todo =>
    right
    cases todo with
    | nil =>
      simp only [step, hphase]
      exact ⟨_, rfl⟩
    | cons ip todo =>
      simp only [step, hphase]
      split <;> exact ⟨_, rfl⟩
  | store key p todo device =>
    right
    simp only [step, hphase]
    exact ⟨_, rfl⟩
  | delete key =>
    left
    refine ⟨key, rfl, ?_⟩
    simp only [step, hphase]
  | returned =>
    right
    simp only [step, hphase]
    exact ⟨_, rfl⟩

end Report

namespace Connection

variable {uidOf : String → Option ℤ} {m : Memory} {rs : List Report} {x : Connection}

/-- A report does an operation that keeps a property, or gives it another one. -/
theorem Any.set {P Q : Report → Prop} (h : x.Any rs P) {j : ℕ} {r r' : Report}
    (hj : rs[j]? = some r) (hstep : P r → P r' ∨ Q r') :
    x.Any (rs.set j r') P ∨ x.Any (rs.set j r') Q := by
  obtain ⟨i, hi, r₀, hr₀, hP⟩ := h
  by_cases hij : i = j
  · subst hij
    obtain rfl : r = r₀ := Option.some.inj (hj.symm.trans hr₀)
    have hset : (rs.set i r')[i]? = some r' :=
      List.getElem?_set_self (List.getElem?_eq_some_iff.mp hj).1
    exact (hstep hP).imp (fun hP' => ⟨i, hi, r', hset, hP'⟩) fun hQ => ⟨i, hi, r', hset, hQ⟩
  · refine Or.inl ⟨i, hi, r₀, ?_, hP⟩
    rw [List.getElem?_set_ne (Ne.symm hij)]
    exact hr₀

/-- **One operation of a report** leaves what a connection relies on, up to the memory. -/
theorem Safe.report (h : x.Safe uidOf m rs) {j : ℕ} {r : Report} (hj : rs[j]? = some r)
    {ips : List String} (hvisits : Report.Visits ips (m, r)) :
    x.Safe uidOf m (rs.set j (Report.step ips (m, r)).2) := by
  have hcovered (hc : x.Covered rs) : x.Covered (rs.set j (Report.step ips (m, r)).2) :=
    (hc.set hj fun hd => Or.inl (Report.has_step hd)).elim id id
  refine ⟨h.uid, h.owner, h.device, h.followed, fun p hp => (h.storing p hp).imp_left hcovered,
    fun p hp => ?_⟩
  rcases h.inserted p hp with hc | ⟨hlook, hawaited | ⟨hattached, hqueued⟩⟩
  · exact Or.inl (hcovered hc)
  · rcases hawaited.set (Q := fun r => r.Has x.call.device) hj fun ha =>
      Report.awaited_step ha hlook with ha | hc
    · exact Or.inr ⟨hlook, Or.inl ha⟩
    · exact Or.inl hc
  · cases hf : x.followed with
    | false => exact Or.inr ⟨hlook, Or.inr ⟨hattached, nofun⟩⟩
    | true =>
      -- the first report after the return visits the user, or goes on to it later
      rcases (hqueued hf).set (Q := fun r => x.call.ip ∈ r.phase.awaited p) hj fun hk =>
        (Report.todo_step hvisits hk).imp_right fun hnext => hnext p hattached _ _ hlook
      with hq | ha
      · exact Or.inr ⟨hlook, Or.inr ⟨hattached, fun _ => hq⟩⟩
      · exact Or.inr ⟨hlook, Or.inl ha⟩

theorem call_follow (j : ℕ) (x : Connection) : (x.follow j).call = x.call := by
  unfold follow
  split_ifs <;> rfl

theorem Any.follow {P : Report → Prop} (h : x.Any rs P) (r : Report) :
    (x.follow rs.length).Any (rs ++ [r]) P := by
  obtain ⟨i, hi, r₀, hr₀, hP⟩ := h
  refine ⟨i, ?_, r₀, ?_, hP⟩
  · unfold Connection.follow
    split_ifs
    · exact hi
    · exact List.mem_cons_of_mem _ hi
  · rw [List.getElem?_append_left (List.getElem?_eq_some_iff.mp hr₀).1]
    exact hr₀

/-- A report is started: it is going to visit every user whose map is found. -/
theorem Safe.follow (h : x.Safe uidOf m rs) {keys : List String}
    (hkeys : ∀ k ∈ m.userOnlineIP.keys, k ∈ keys) :
    (x.follow rs.length).Safe uidOf m (rs ++ [{ todo := keys }]) := by
  have hcovered (hc : x.Covered rs) : (x.follow rs.length).Covered (rs ++ [{ todo := keys }]) := by
    unfold Covered
    rw [call_follow]
    exact Any.follow hc _
  have hqueued (hk : x.call.taguuid ∈ keys) (hf : x.followed = true → x.Queued rs) :
      (x.follow rs.length).Queued (rs ++ [{ todo := keys }]) := by
    unfold Queued
    rw [call_follow]
    cases hfollowed : x.followed with
    | true => exact (hf hfollowed).follow _
    | false =>
      refine ⟨rs.length, ?_, { todo := keys }, ?_, hk⟩
      · simp [Connection.follow, hfollowed]
      · rw [List.getElem?_append_right (Nat.le_refl _), Nat.sub_self]
        rfl
  constructor
  · rw [call_follow]
    exact h.uid
  · rw [call_follow]
    exact h.owner
  · rw [call_follow]
    exact h.device
  · unfold Connection.follow
    split_ifs
    · exact h.followed
    · exact id
  · rw [call_follow]
    exact fun p hp => (h.storing p hp).imp_left hcovered
  · rw [call_follow]
    intro p hp
    rcases h.inserted p hp with hc | ⟨hlook, hawaited | ⟨hattached, hq⟩⟩
    · exact Or.inl (hcovered hc)
    · refine Or.inr ⟨hlook, Or.inl ?_⟩
      unfold Awaited
      rw [call_follow]
      exact Any.follow hawaited _
    · refine Or.inr ⟨hlook, Or.inr ⟨hattached, fun _ => hqueued (hkeys _ ?_) hq⟩⟩
      exact Finmap.mem_keys.mpr (Finmap.mem_iff.mpr ⟨p, hattached⟩)

end Connection

/-! ### One operation -/

namespace LimiterMachine

/-- Every connection has what it relies on. -/
structure Sound (uidOf : String → Option ℤ) (s : LimiterMachine) : Prop where
  proper : s.memory.Proper uidOf
  safe : ∀ x ∈ s.calls, x.Safe uidOf s.memory s.reports
  todo : ∀ r ∈ s.reports, r.phase = .returned → r.todo = []

variable {uidOf : String → Option ℤ} {s : LimiterMachine}

/-- An operation of a connection. -/
theorem Sound.set (h : s.Sound uidOf) {m : Memory} (hm : m.Proper uidOf)
    (hothers : ∀ y ∈ s.calls, y.Safe uidOf m s.reports) {x : Connection}
    (hx : x.Safe uidOf m s.reports) (i : ℕ) :
    Sound uidOf { s with memory := m, calls := s.calls.set i x } := by
  refine ⟨hm, fun y hy => ?_, h.todo⟩
  rcases List.mem_or_eq_of_mem_set hy with hmem | rfl
  · exact hothers y hmem
  · exact hx

theorem Sound.check (h : s.Sound uidOf) (i : ℕ) (now : ℤ) (hok : s.Preserves (.check i now)) :
    (s.step (.check i now)).Sound uidOf := by
  cases hi : s.calls[i]? with
  | none =>
    simp only [step, hi]
    exact h
  | some x =>
    have hkept := Connection.kept_step h.proper (h.safe x (List.mem_of_getElem? hi)) now
    simp only [step, hi]
    refine h.set hkept.proper (fun y hy => hkept.others y (h.safe y hy) ⟨?_, ?_⟩) hkept.actor i
    · intro key hkey p hp
      exact hok.1 key (by simpa only [removedUser, hi, Option.bind_some] using hkey) p hp y hy
    · intro q hq
      exact hok.2 q (by simpa only [removedIP, hi, Option.bind_some] using hq) y hy

/-- An operation of a report. -/
theorem Sound.report (h : s.Sound uidOf) (j : ℕ) (ips : List String)
    (hvisits : s.Visits (.report j ips)) (hok : s.Preserves (.report j ips)) :
    (s.step (.report j ips)).Sound uidOf := by
  cases hj : s.reports[j]? with
  | none =>
    simp only [step, hj]
    exact h
  | some r =>
    have hr := hvisits r hj
    simp only [step, hj]
    have htodo (r' : Report) (hmem : r' ∈ s.reports.set j (Report.step ips (s.memory, r)).2)
        (hret : r'.phase = .returned) : r'.todo = [] := by
      rcases List.mem_or_eq_of_mem_set hmem with hold | rfl
      · exact h.todo r' hold hret
      · exact Report.todo_of_returned (h.todo r (List.mem_of_getElem? hj)) hret
    rcases Report.step_fst ips s.memory r with ⟨key, hphase, hmemory⟩ | ⟨old, hmemory⟩
    · rw [hmemory]
      refine ⟨h.proper.eraseUser key, fun x hx => ?_, htodo⟩
      have hremoved : s.removedUser (.report j ips) = some key := by
        rw [removedUser, hj, Option.bind_some, Report.removedUser, hphase]
      have hafter (m : Memory) : Report.Visits ips (m, r) :=
        fun _ _ _ _ hnext => by cases hphase.symm.trans hnext
      have hsafe := ((h.safe x hx).eraseUser fun p hp => hok.1 key hremoved p hp x hx).report hj
        (hafter _)
      simpa only [Report.step, hphase] using hsafe
    · rw [hmemory]
      refine ⟨h.proper.of_eq h.proper.users rfl rfl, fun x hx => ?_, htodo⟩
      exact ((h.safe x hx).report hj hr).of_eq rfl rfl

/-- **One operation** that takes nothing away leaves every connection what it relies on. -/
theorem Sound.step (h : s.Sound uidOf) (e : OperationEvent) (hvisits : s.Visits e)
    (hok : s.Preserves e) : (s.step e).Sound uidOf := by
  cases e with
  | checkLimit taguuid ip noSSUDP =>
    refine ⟨h.proper, fun x hx => ?_, h.todo⟩
    rcases List.mem_append.mp hx with hold | hnew
    · exact h.safe x hold
    · rw [List.mem_singleton.mp hnew]
      exact .of_idle (Or.inl rfl) rfl nofun (fun _ => rfl) nofun
  | check i now => exact h.check i now hok
  | getOnlineDevice keys =>
    refine ⟨h.proper.of_eq h.proper.users rfl rfl, fun x hx => ?_, fun r hr => ?_⟩
    · obtain ⟨y, hy, rfl⟩ := List.mem_map.mp hx
      exact ((h.safe y hy).follow hvisits.2).of_eq rfl rfl
    · rcases List.mem_append.mp hr with hold | hnew
      · exact h.todo r hold
      · rw [List.mem_singleton.mp hnew]
        nofun
  | report j ips => exact h.report j ips hvisits hok

theorem Sound.fresh (tag : String) (conf : LimitConfig) (users : List UserInfo)
    (aliveList : GoMap ℤ ℤ) :
    (LimiterMachine.fresh tag conf users aliveList).Sound fun k =>
      ((newLimiter tag conf users aliveList).userLimitInfo.lookup k).map UserLimitInfo.uid := by
  refine ⟨⟨fun k u hu => ?_, fun k p hlook => ?_, fun p k ip v howner => ?_⟩, fun x hx => ?_,
    fun r hr => ?_⟩
  · rw [show (newLimiter tag conf users aliveList).userLimitInfo.lookup k = some u from hu,
      Option.map_some]
  · have hempty : (LimiterMachine.fresh tag conf users aliveList).memory.userOnlineIP.lookup k =
        none := Finmap.lookup_empty k
    rw [hempty] at hlook
    cases hlook
  · cases howner
  · cases hx
  · cases hr

/-- A sound machine has lost no device. -/
theorem Sound.not_lost (h : s.Sound uidOf) {x : Connection} (hx : x ∈ s.calls) :
    ¬ x.Lost s.reports := by
  rintro ⟨⟨hdevice, hreturned, hrejected⟩, hfollowed, hreports⟩
  have hsafe := h.safe x hx
  obtain ⟨p, hp⟩ := CheckPhase.exists_inserted hreturned hrejected (hsafe.device hdevice)
  rcases hsafe.inserted p hp with
    ⟨j, hj, r, hr, hhas⟩ | ⟨-, ⟨j, hj, r, hr, hawaited⟩ | ⟨-, hqueued⟩⟩
  · obtain ⟨hret, hnot⟩ := hreports j hj r hr
    rcases hhas with hmem | hhand
    · exact hnot hmem
    · rw [hret] at hhand
      cases hhand
  · rw [(hreports j hj r hr).1] at hawaited
    cases hawaited
  · obtain ⟨j, hj, r, hr, hk⟩ := hqueued hfollowed
    rw [h.todo r (List.mem_of_getElem? hr) (hreports j hj r hr).1] at hk
    cases hk

end LimiterMachine

/-- **No device is lost.** In a run of any number of connections and reports, one atomic operation
after the other, in which no operation takes away what another connection relies on, every device
with an accepted connection is in a report that was in progress during the call of the connection,
or in the first one that was started after its return, once these have returned. -/
theorem not_lost_of_preserves (tag : String) (conf : LimitConfig) (users : List UserInfo)
    (aliveList : GoMap ℤ ℤ) {es : List OperationEvent}
    (hes : Guarded LimiterMachine.step (fun s e => s.Visits e ∧ s.Preserves e)
      (LimiterMachine.fresh tag conf users aliveList) es) (p q : List OperationEvent)
    (hpq : es = p ++ q) :
    let s := p.foldl LimiterMachine.step (LimiterMachine.fresh tag conf users aliveList)
    ∀ x ∈ s.calls, ¬ x.Lost s.reports := by
  intro s x hx
  have hsound := Guarded.invariant (fun s e (h : s.Sound _) hok => h.step e hok.1 hok.2)
    (LimiterMachine.Sound.fresh tag conf users aliveList) (hpq ▸ hes).of_append
  exact hsound.not_lost hx

/-- A user without limits. -/
def soleUser : LimiterMachine := .fresh "n" {} [⟨1, "a", 0, 0⟩] ∅

/-- The call of a connection from its beginning to its end, and what happens after it. -/
def connectAlone (i operations : ℕ) (ip : String) (rest : List OperationEvent) :
    List OperationEvent :=
  .checkLimit (userTag "n" "a") ip true :: (List.replicate operations (.check i 0)).append rest

/-- A first device is accepted and a report started, which does some operations; then a second
device of the user is accepted, and the report goes on to its end. Another report follows. -/
def secondDevice (ips : List String) (before after : ℕ) : List OperationEvent :=
  let report (n : ℕ) (rest : List OperationEvent) : List OperationEvent :=
    (List.replicate n (.report 0 ips)).append rest
  connectAlone 0 4 "1.1.1.1" (.getOnlineDevice [userTag "n" "a"] :: report before
    (connectAlone 1 5 "2.2.2.2" (report after [.getOnlineDevice [], .report 1 []])))

/-- The second device is stored before the report comes to the user, and not lost. -/
theorem secondDevice_not_lost :
    let s := (secondDevice ["1.1.1.1", "2.2.2.2"] 0 8).foldl LimiterMachine.step soleUser
    ∀ x ∈ s.calls, ¬ x.Lost s.reports := by
  have hes : Guarded LimiterMachine.step (fun s e => s.Visits e ∧ s.Preserves e) soleUser
      (secondDevice ["1.1.1.1", "2.2.2.2"] 0 8) := by decide +kernel
  exact not_lost_of_preserves "n" {} [⟨1, "a", 0, 0⟩] ∅ hes
    (secondDevice ["1.1.1.1", "2.2.2.2"] 0 8) [] (List.append_nil _).symm

/-- The second device is stored after the report has gone through the addresses of the user and
before it removes them: neither this report nor the next one has it. -/
theorem secondDevice_lost :
    Guarded LimiterMachine.step LimiterMachine.Visits soleUser (secondDevice ["1.1.1.1"] 3 3) ∧
    let s := (secondDevice ["1.1.1.1"] 3 3).foldl LimiterMachine.step soleUser
    ∃ x ∈ s.calls, x.Lost s.reports :=
  ⟨by decide +kernel, by decide +kernel⟩

end Tox.Limit
