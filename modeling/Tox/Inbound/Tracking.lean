import Tox.Inbound.Basic
import Mathlib.Data.List.Induction

/-!
# Connections of removed users

The vless, trojan and anytls inbounds record a connection in `userconns` when it is accepted, under
the user that its metadata names at that time. Which user it belongs to is found out afterwards, by
the service of the protocol, and is not recorded. `DelUsers` closes the connections that are
recorded under the removed names.

The machine below follows the connections through accepting, authentication and closing, along with
the changes of the users. After `DelUsers` the connections of the removed users are closed, and no
others, exactly if every open connection was accepted under a name that is removed if and only if
its user is (`TrackedInbound.closesExactly_iff`). The metadata of a connection from the listener
names no user.
-/

namespace Tox.Inbound

/-- An accepted connection: the user of its metadata at that time, and the user that it has
authenticated as. -/
structure TrackedConn where
  acceptedAs : String
  user : Option String := none
deriving DecidableEq, Repr

/-- An inbound with the connections that it has accepted, in order. -/
structure TrackedInbound where
  inbound : IndexedInbound := {}
  table : ConnTable := {}
  conns : List TrackedConn := []

inductive TrackEvent
  /-- `NewConnectionEx`, with the user of the metadata. -/
  | accept (user : String)
  /-- The service finds the credential of a connection at a position of its list. -/
  | authenticate (conn pos : ℕ)
  /-- A connection ends. -/
  | close (conn : ℕ)
  | addUsers (users : List InboundUser)
  | delUsers (names : List String)
deriving DecidableEq, Repr

namespace TrackedInbound

variable (P : IndexedProtocol)

/-- The connection ends, if it has been accepted. -/
def close (s : TrackedInbound) (conn : ℕ) : TrackedInbound :=
  if conn < s.conns.length then { s with table := s.table.close conn } else s

/-- An open connection that has not authenticated yet does so, or is closed when the service does
not know its credential. -/
def authenticate (s : TrackedInbound) (conn pos : ℕ) : TrackedInbound :=
  match s.conns[conn]? with
  | some ⟨acceptedAs, none⟩ =>
    if s.table.closed conn then s
    else
      match s.inbound.served[pos]? with
      | none => s.close conn
      | some user => { s with conns := s.conns.set conn ⟨acceptedAs, some user.name⟩ }
  | _ => s

def step (s : TrackedInbound) : TrackEvent → TrackedInbound
  | .accept user =>
    { s with
      table := s.table.store s.conns.length user
      conns := s.conns ++ [{ acceptedAs := user }] }
  | .authenticate conn pos => s.authenticate conn pos
  | .close conn => s.close conn
  | .addUsers users => { s with inbound := s.inbound.addUsers P users }
  | .delUsers names =>
    { s with
      inbound := s.inbound.delUsers P names
      table := s.table.closeUsers names }

/-- The connection with the number `conn` is open and has authenticated as `user`. -/
def OpenAs (s : TrackedInbound) (conn : ℕ) (acceptedAs user : String) : Prop :=
  s.conns[conn]? = some ⟨acceptedAs, some user⟩ ∧ s.table.closed conn = false

/-- `DelUsers` closes the open connections of the removed users and deletes their records, and
closes no connection of another user. -/
def ClosesExactly (s : TrackedInbound) (names : List String) : Prop :=
  ∀ conn acceptedAs user, s.OpenAs conn acceptedAs user →
    let table := (s.step P (.delUsers names)).table
    (user ∈ names → table.closed conn = true ∧ table.entries conn = none) ∧
      (user ∉ names → table.closed conn = false)

/-- The open connections were accepted under names that are removed exactly if their users are. -/
def RecordedAlike (s : TrackedInbound) (names : List String) : Prop :=
  ∀ conn acceptedAs user, s.OpenAs conn acceptedAs user → (user ∈ names ↔ acceptedAs ∈ names)

/-- Every open connection is recorded under the name with which it was accepted. -/
def Recorded (s : TrackedInbound) : Prop :=
  ∀ (conn : ℕ) (c : TrackedConn), s.conns[conn]? = some c → s.table.closed conn = false →
    s.table.entries conn = some c.acceptedAs

section Recorded

variable {s : TrackedInbound}

theorem Recorded.close (h : s.Recorded) (conn : ℕ) : (s.close conn).Recorded := by
  rw [TrackedInbound.close]
  split
  case isTrue =>
    intro k c hc hopen
    change Function.update s.table.closed conn true k = false at hopen
    change Function.update s.table.entries conn none k = _
    by_cases hk : k = conn
    · subst hk
      rw [Function.update_self] at hopen
      cases hopen
    · rw [Function.update_of_ne hk] at hopen ⊢
      exact h k c hc hopen
  case isFalse => exact h

theorem Recorded.authenticate (h : s.Recorded) (conn pos : ℕ) :
    (s.authenticate conn pos).Recorded := by
  rw [TrackedInbound.authenticate]
  split
  case h_1 acceptedAs hconn =>
    split
    case isTrue => exact h
    case isFalse =>
      split
      case h_1 => exact h.close conn
      case h_2 user _ =>
        intro k c hc hopen
        change (s.conns.set conn _)[k]? = some c at hc
        by_cases hk : k = conn
        · subst hk
          rw [List.getElem?_set_self (List.getElem?_eq_some_iff.mp hconn).1] at hc
          cases hc
          exact h k ⟨acceptedAs, none⟩ hconn hopen
        · rw [List.getElem?_set_ne (Ne.symm hk)] at hc
          exact h k c hc hopen
  case h_2 => exact h

theorem Recorded.accept (h : s.Recorded) (user : String) :
    (s.step P (.accept user)).Recorded := by
  intro k c hc hopen
  change (s.conns ++ [_])[k]? = some c at hc
  change Function.update s.table.entries s.conns.length (some user) k = _
  rcases Nat.lt_or_ge k s.conns.length with hk | hk
  · rw [List.getElem?_append_left hk] at hc
    rw [Function.update_of_ne (Nat.ne_of_lt hk)]
    exact h k c hc hopen
  · have hlen := (List.getElem?_eq_some_iff.mp hc).1
    rw [List.length_append, List.length_singleton] at hlen
    obtain rfl : k = s.conns.length := by omega
    rw [List.getElem?_append_right (Nat.le_refl _)] at hc
    obtain rfl := List.mem_singleton.mp (List.mem_of_getElem? hc)
    rw [Function.update_self]

theorem Recorded.delUsers (h : s.Recorded) (names : List String) :
    (s.step P (.delUsers names)).Recorded := by
  intro k c hc hopen
  change (s.table.closeUsers names).closed k = false at hopen
  change (s.table.closeUsers names).entries k = _
  rw [ConnTable.closed_closeUsers, Bool.or_eq_false_iff, decide_eq_false_iff_not] at hopen
  rw [ConnTable.entries_closeUsers, if_neg hopen.2]
  exact h k c hc hopen.1

theorem Recorded.step (h : s.Recorded) (e : TrackEvent) : (s.step P e).Recorded := by
  cases e with
  | accept user => exact h.accept P user
  | authenticate conn pos => exact h.authenticate conn pos
  | close conn => exact h.close conn
  | addUsers users => exact h
  | delUsers names => exact h.delUsers P names

end Recorded

theorem recorded_run (es : List TrackEvent) : Recorded (es.foldl (step P) {}) := by
  induction es using List.reverseRecOn with
  | nil => exact fun conn c hc => by cases hc
  | append_singleton es e ih =>
    rw [List.foldl_append]
    exact ih.step P e

/-- **Removed users lose their connections**, and no others do, after any run, if and only if the
open connections were accepted under names that are removed exactly if their users are. -/
theorem closesExactly_iff (es : List TrackEvent) (names : List String) :
    (es.foldl (step P) {}).ClosesExactly P names ↔
      (es.foldl (step P) {}).RecordedAlike names := by
  have hrec := recorded_run P es
  generalize es.foldl (step P) {} = s at hrec
  refine forall_congr' fun conn => forall_congr' fun acceptedAs => forall_congr' fun user =>
    forall_congr' fun hopen => ?_
  have hentry : s.table.entries conn = some acceptedAs := hrec conn _ hopen.1 hopen.2
  have hin : s.table.RecordedIn names conn ↔ acceptedAs ∈ names := by
    rw [ConnTable.RecordedIn, hentry]
    simp
  have hclosed : ((s.step P (.delUsers names)).table.closed conn = true) ↔ acceptedAs ∈ names := by
    change (s.table.closeUsers names).closed conn = true ↔ _
    rw [ConnTable.closed_closeUsers, hopen.2, Bool.false_or, decide_eq_true_eq, hin]
  have hentries : acceptedAs ∈ names → (s.step P (.delUsers names)).table.entries conn = none := by
    intro hmem
    change (s.table.closeUsers names).entries conn = none
    rw [ConnTable.entries_closeUsers, if_pos (hin.mpr hmem)]
  dsimp only
  rw [← Bool.not_eq_true, hclosed]
  constructor
  · rintro ⟨hremoved, hother⟩
    exact ⟨fun hmem => (hremoved hmem).1, fun hmem => by_contra fun hnot => hother hnot hmem⟩
  · intro hiff
    exact ⟨fun hmem => ⟨hiff.mp hmem, hentries (hiff.mp hmem)⟩, fun hnot => mt hiff.mpr hnot⟩

/-- A connection from the listener authenticates as `a` and stays open when `a` is removed. -/
theorem removed_user_stays_open :
    let es : List TrackEvent := [.addUsers [⟨"a", "a"⟩], .accept "", .authenticate 0 0]
    ¬ (es.foldl (step .vless) {}).ClosesExactly .vless ["a"] := by
  intro es h
  have hopen : (es.foldl (step .vless) {}).OpenAs 0 "" "a" := ⟨rfl, rfl⟩
  have hclosed := ((h 0 "" "a" hopen).1 List.mem_cons_self).1
  exact absurd hclosed (by decide)

end TrackedInbound

end Tox.Inbound
