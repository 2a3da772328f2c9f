import Mathlib.Data.List.Basic
import Mathlib.Logic.Function.Basic
import Mathlib.Tactic.Common

/-!
# The inbounds of the bundled sing-box

The repository's patch of sing-box gives every inbound the calls `AddUsers` and `DelUsers`, with
which the core changes the users of a running node. This file has the two parts that the inbounds
share.

* `ConnTable` — the map `userconns` from connections to the names under which they were recorded,
  with the loop of `DelUsers` that closes the connections recorded under a name.
* `IndexedInbound` — the inbounds that tell their users apart by the position in a list: hysteria,
  vless, vmess, trojan and shadowsocks, and anytls, whose list of names is edited in the same way.
  After every change of the list, all users are handed to the protocol's service anew. The service
  may refuse them and then keeps those that it has.
-/

namespace Tox.Inbound

/-! ### Recorded connections -/

/-- The recorded connections, by number, and the connections that are closed. -/
structure ConnTable where
  entries : ℕ → Option String := fun _ => none
  closed : ℕ → Bool := fun _ => false

namespace ConnTable

/-- `userconns.Store(conn, user)`. -/
def store (t : ConnTable) (conn : ℕ) (user : String) : ConnTable :=
  { t with entries := Function.update t.entries conn (some user) }

/-- `userconns.LoadOrStore(conn, user)`. -/
def loadOrStore (t : ConnTable) (conn : ℕ) (user : String) : ConnTable :=
  if t.entries conn = none then t.store conn user else t

/-- A connection is closed, and its close handler deletes it from the map. -/
def close (t : ConnTable) (conn : ℕ) : ConnTable where
  entries := Function.update t.entries conn none
  closed := Function.update t.closed conn true

/-- The connections recorded under the name are closed and deleted from the map. -/
def closeUser (t : ConnTable) (name : String) : ConnTable where
  entries conn := if t.entries conn = some name then none else t.entries conn
  closed conn := t.closed conn || decide (t.entries conn = some name)

theorem entries_closeUser (t : ConnTable) (name : String) (conn : ℕ) :
    (t.closeUser name).entries conn = if t.entries conn = some name then none else t.entries conn :=
  rfl

theorem closed_closeUser (t : ConnTable) (name : String) (conn : ℕ) :
    (t.closeUser name).closed conn = (t.closed conn || decide (t.entries conn = some name)) :=
  rfl

/-- The loop over the names of a call of `DelUsers`. -/
def closeUsers (t : ConnTable) (names : List String) : ConnTable :=
  names.foldl closeUser t

/-- The connection is recorded under one of the names. -/
def RecordedIn (t : ConnTable) (names : List String) (conn : ℕ) : Prop :=
  ∃ name ∈ names, t.entries conn = some name

instance (t : ConnTable) (names : List String) (conn : ℕ) : Decidable (t.RecordedIn names conn) :=
  inferInstanceAs (Decidable (∃ name ∈ names, t.entries conn = some name))

theorem recordedIn_cons (t : ConnTable) (name : String) (names : List String) (conn : ℕ) :
    t.RecordedIn (name :: names) conn ↔ t.entries conn = some name ∨ t.RecordedIn names conn :=
  List.exists_mem_cons_iff _ _ _

theorem recordedIn_closeUser (t : ConnTable) (name : String) (names : List String) (conn : ℕ) :
    (t.closeUser name).RecordedIn names conn ↔
      t.entries conn ≠ some name ∧ t.RecordedIn names conn := by
  change (∃ n ∈ names, (if t.entries conn = some name then none else t.entries conn) = some n) ↔ _
  by_cases h : t.entries conn = some name
  · simp [h]
  · rw [if_neg h]
    exact ⟨fun hrec => ⟨h, hrec⟩, fun hrec => hrec.2⟩

theorem entries_closeUsers (t : ConnTable) (names : List String) (conn : ℕ) :
    (t.closeUsers names).entries conn =
      if t.RecordedIn names conn then none else t.entries conn := by
  induction names generalizing t with
  | nil => simp [closeUsers, RecordedIn]
  | cons name names ih =>
    change ((t.closeUser name).closeUsers names).entries conn = _
    rw [ih, entries_closeUser]
    by_cases h : t.entries conn = some name
    · simp [recordedIn_cons, h]
    · simp [recordedIn_cons, recordedIn_closeUser, h]

theorem closed_closeUsers (t : ConnTable) (names : List String) (conn : ℕ) :
    (t.closeUsers names).closed conn =
      (t.closed conn || decide (t.RecordedIn names conn)) := by
  induction names generalizing t with
  | nil => simp [closeUsers, RecordedIn]
  | cons name names ih =>
    change ((t.closeUser name).closeUsers names).closed conn = _
    rw [ih, closed_closeUser]
    by_cases h : t.entries conn = some name
    · simp [recordedIn_cons, h]
    · simp [recordedIn_cons, recordedIn_closeUser, h]

end ConnTable

/-! ### Users by position -/

/-- A user of an inbound: the name and the credential of the protocol. -/
structure InboundUser where
  name : String
  credential : String
deriving DecidableEq, Repr

/-- What the inbounds with positions differ in: whether the service takes a list of credentials,
and whether `DelUsers` returns at once without names. -/
structure IndexedProtocol where
  accepts : List String → Bool
  skipsEmpty : Bool

namespace IndexedProtocol

/-- The hysteria service takes every list. The inbound lists the authentication strings. -/
def hysteria : IndexedProtocol := ⟨fun _ => true, true⟩

/-- The vless service takes every list: a text that is no UUID is mapped to one. -/
def vless : IndexedProtocol := ⟨fun _ => true, false⟩

/-- The vmess service takes every list, its ciphers being keyed by hashes of the right length. -/
def vmess : IndexedProtocol := ⟨fun _ => true, false⟩

/-- The trojan service refuses a list in which two passwords have the same key. -/
def trojan {κ : Type} [DecidableEq κ] (key : String → κ) : IndexedProtocol :=
  ⟨fun passwords => decide (passwords.map key).Nodup, false⟩

/-- The shadowsocks service refuses the passwords that its method cannot use. -/
def shadowsocks (accepts : List String → Bool) : IndexedProtocol := ⟨accepts, false⟩

/-- The anytls service takes every list. -/
def anytls : IndexedProtocol := ⟨fun _ => true, true⟩

end IndexedProtocol

/-- The list of users of an inbound, and the list that its service has taken last. -/
structure IndexedInbound where
  users : List InboundUser := []
  served : List InboundUser := []
deriving DecidableEq, Repr

namespace IndexedInbound

variable (P : IndexedProtocol)

/-- The call of the service's `UpdateUsers` with the positions and the credentials. -/
def updateUsers (h : IndexedInbound) : IndexedInbound :=
  if P.accepts (h.users.map InboundUser.credential) then { h with served := h.users } else h

/-- `Inbound.AddUsers`. -/
def addUsers (h : IndexedInbound) (users : List InboundUser) : IndexedInbound :=
  updateUsers P { h with users := h.users ++ users }

/-- `Inbound.DelUsers`, but for the connections. -/
def delUsers (h : IndexedInbound) (names : List String) : IndexedInbound :=
  if P.skipsEmpty ∧ names = [] then h
  else updateUsers P { h with users := h.users.filter fun user => user.name ∉ names }

end IndexedInbound

end Tox.Inbound
