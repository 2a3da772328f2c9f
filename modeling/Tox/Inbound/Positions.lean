import Tox.Inbound.Basic
import Tox.Foundation.Run
import Mathlib.Data.List.Nodup

/-!
# Users identified by their position

A session of an inbound with positions keeps the position that the service found for its credential,
and every later stream or packet connection looks the name up at that position of the inbound's
list. `AddUsers` appends to the list and `DelUsers` compacts it, so that the position of a session
may come to name another user, or lie beyond the end of the list, where the lookup panics.

A session is attributed to the user whose credential opened it as long as no call of `DelUsers`
removes a user at or before its position. For lists without repeated names there are no other runs
in which all sessions are (`PositionMachine.attributed_runs`).
-/

namespace Tox.Inbound

open Tox.Foundation

/-- A session: the position of its user, and the name of the user whose credential opened it. -/
structure Session where
  index : ℕ
  owner : String
  isOpen : Bool := true
deriving DecidableEq, Repr

structure PositionMachine where
  inbound : IndexedInbound := {}
  sessions : List Session := []
deriving DecidableEq, Repr

inductive PositionEvent
  | addUsers (users : List InboundUser)
  | delUsers (names : List String)
  /-- A session is opened with the credential that the service has at a position. -/
  | openSession (pos : ℕ)
  | closeSession (k : ℕ)
deriving DecidableEq, Repr

namespace PositionMachine

/-- An inbound that has been created with the given users. -/
def start (users : List InboundUser) : PositionMachine where
  inbound := ⟨users, users⟩

/-- The lookup of `NewConnectionEx` and `NewPacketConnectionEx` for a session, which panics beyond
the end of the list. -/
def lookup (s : PositionMachine) (session : Session) : Option String :=
  s.inbound.users[session.index]?.map InboundUser.name

section Step

variable (P : IndexedProtocol)

def step (s : PositionMachine) : PositionEvent → PositionMachine
  | .addUsers users => { s with inbound := s.inbound.addUsers P users }
  | .delUsers names => { s with inbound := s.inbound.delUsers P names }
  | .openSession pos =>
    match s.inbound.served[pos]? with
    | none => s
    | some user => { s with sessions := s.sessions ++ [{ index := pos, owner := user.name }] }
  | .closeSession k =>
    { s with sessions := s.sessions.modify k fun session => { session with isOpen := false } }

end Step

/-- Every open session is attributed to the user whose credential opened it. -/
def Attributed (s : PositionMachine) : Prop :=
  ∀ session ∈ s.sessions, session.isOpen = true → s.lookup session = some session.owner

/-- No user at or before the position of an open session is removed, and a session is opened where
the list of the service and that of the inbound have the same name. -/
def NoShift (s : PositionMachine) : PositionEvent → Prop
  | .delUsers names => ∀ session ∈ s.sessions, session.isOpen = true →
      ∀ user ∈ s.inbound.users.take (session.index + 1), user.name ∉ names
  | .openSession pos => ∀ user ∈ s.inbound.served[pos]?,
      s.inbound.users[pos]?.map InboundUser.name = some user.name
  | _ => True

instance (s : PositionMachine) : Decidable s.Attributed :=
  inferInstanceAs (Decidable (∀ session ∈ s.sessions, _ → _))

instance (s : PositionMachine) : ∀ e, Decidable (NoShift s e)
  | .delUsers _ => inferInstanceAs (Decidable (∀ session ∈ s.sessions, _ → ∀ user ∈ _, _))
  | .openSession pos => inferInstanceAs (Decidable (∀ user ∈ s.inbound.served[pos]?, _ = _))
  | .addUsers _ | .closeSession _ => inferInstanceAs (Decidable True)

/-- The names of the inbound stay distinct. -/
def FreshNames (s : PositionMachine) : PositionEvent → Prop
  | .addUsers users => ((s.inbound.users ++ users).map InboundUser.name).Nodup
  | _ => True

theorem users_addUsers (P : IndexedProtocol) (h : IndexedInbound) (users : List InboundUser) :
    (h.addUsers P users).users = h.users ++ users := by
  rw [IndexedInbound.addUsers, IndexedInbound.updateUsers]
  split <;> rfl

theorem users_delUsers (P : IndexedProtocol) (h : IndexedInbound) (names : List String) :
    (h.delUsers P names).users = h.users.filter fun user => user.name ∉ names := by
  rw [IndexedInbound.delUsers]
  split
  case isTrue hnil => simp [hnil.2]
  case isFalse =>
    rw [IndexedInbound.updateUsers]
    split <;> rfl

/-- A position keeps its entry if nothing at or before it is removed. -/
theorem getElem?_filter_of_take {l : List InboundUser} {p : InboundUser → Bool} {i : ℕ}
    {user : InboundUser} (hi : l[i]? = some user) (h : ∀ u ∈ l.take (i + 1), p u = true) :
    (l.filter p)[i]? = some user := by
  have hlen := (List.getElem?_eq_some_iff.mp hi).1
  have htake : i < (l.take (i + 1)).length := by
    rw [List.length_take]
    omega
  rw [← List.take_append_drop (i + 1) l, List.filter_append, List.filter_eq_self.mpr h,
    List.getElem?_append_left htake, List.getElem?_take_of_lt (Nat.lt_succ_self i), hi]

/-- A session that is looked up, with the entry at its position. -/
theorem lookup_eq_some_iff {s : PositionMachine} {session : Session} {name : String} :
    s.lookup session = some name ↔
      ∃ user, s.inbound.users[session.index]? = some user ∧ user.name = name :=
  Option.map_eq_some_iff

section Attributed

variable {P : IndexedProtocol} {s : PositionMachine}

/-- A change of the list that keeps the entry at the position of every open session. -/
theorem Attributed.of_kept (h : s.Attributed) {inbound : IndexedInbound}
    (hkept : ∀ session ∈ s.sessions, session.isOpen = true → ∀ user,
      s.inbound.users[session.index]? = some user → inbound.users[session.index]? = some user) :
    Attributed { s with inbound := inbound } := by
  intro session hmem hopen
  obtain ⟨user, huser, hname⟩ := lookup_eq_some_iff.mp (h session hmem hopen)
  exact lookup_eq_some_iff.mpr ⟨user, hkept session hmem hopen user huser, hname⟩

theorem Attributed.step (h : s.Attributed) (e : PositionEvent) (hok : NoShift s e) :
    (s.step P e).Attributed := by
  cases e with
  | addUsers users =>
    refine h.of_kept fun session _ _ user huser => ?_
    have hlen := (List.getElem?_eq_some_iff.mp huser).1
    rw [users_addUsers, List.getElem?_append_left hlen, huser]
  | delUsers names =>
    refine h.of_kept fun session hmem hopen user huser => ?_
    rw [users_delUsers]
    refine getElem?_filter_of_take huser fun u hu => ?_
    exact decide_eq_true (hok session hmem hopen u hu)
  | openSession pos =>
    rw [PositionMachine.step]
    split
    case h_1 => exact h
    case h_2 user huser =>
      intro session hmem hopen
      rcases List.mem_append.mp hmem with hmem | hmem
      · exact h session hmem hopen
      · rw [List.mem_singleton.mp hmem]
        exact hok user huser
  | closeSession k =>
    intro session hmem hopen
    obtain ⟨i, hi⟩ := List.mem_iff_getElem?.mp hmem
    change (s.sessions.modify k _)[i]? = some session at hi
    rw [List.getElem?_modify] at hi
    obtain ⟨session', hi', rfl⟩ := Option.map_eq_some_iff.mp hi
    by_cases hk : k = i
    · rw [if_pos hk] at hopen
      cases hopen
    · rw [if_neg hk] at hopen ⊢
      exact h session' (List.mem_of_getElem? hi') hopen

end Attributed

/-! ### Runs with distinct names -/

/-- A list without repeated names that loses a user at or before a position has another name there,
or none. -/
theorem name_ne_of_removed {l : List InboundUser} (hl : (l.map InboundUser.name).Nodup)
    {names : List String} {i : ℕ} {user removed : InboundUser} (hi : l[i]? = some user)
    (hremoved : removed ∈ l.take (i + 1)) (hnames : removed.name ∈ names) :
    (l.filter fun u => u.name ∉ names)[i]?.map InboundUser.name ≠ some user.name := by
  intro h
  obtain ⟨other, hother, hname⟩ := Option.map_eq_some_iff.mp h
  -- what is left of the first `i + 1` entries is too short to reach the position `i`
  have hshort : ((l.take (i + 1)).filter fun u => u.name ∉ names).length ≤ i := by
    have hlt : ((l.take (i + 1)).filter fun u => u.name ∉ names).length < (l.take (i + 1)).length :=
      List.length_filter_lt_length_iff_exists.mpr ⟨removed, hremoved, by simpa using hnames⟩
    rw [List.length_take] at hlt
    omega
  have hdrop : other ∈ l.drop (i + 1) := by
    rw [← List.take_append_drop (i + 1) l, List.filter_append,
      List.getElem?_append_right hshort] at hother
    exact List.mem_of_mem_filter (List.mem_of_getElem? hother)
  have htake : user ∈ l.take (i + 1) := by
    rw [← List.getElem?_take_of_lt (Nat.lt_succ_self i)] at hi
    exact List.mem_of_getElem? hi
  rw [← List.take_append_drop (i + 1) l, List.map_append, List.nodup_append] at hl
  exact hl.2.2 _ (List.mem_map_of_mem htake) _ (List.mem_map_of_mem hdrop) hname.symm

/-- The names of the inbound are distinct. -/
def DistinctNames (s : PositionMachine) : Prop :=
  (s.inbound.users.map InboundUser.name).Nodup

theorem DistinctNames.step {P : IndexedProtocol} {s : PositionMachine} (h : s.DistinctNames)
    (e : PositionEvent) (hfresh : FreshNames s e) : (s.step P e).DistinctNames := by
  cases e with
  | addUsers users =>
    change ((s.inbound.addUsers P users).users.map InboundUser.name).Nodup
    rw [users_addUsers]
    exact hfresh
  | delUsers names =>
    change ((s.inbound.delUsers P names).users.map InboundUser.name).Nodup
    rw [users_delUsers]
    exact h.sublist (List.filter_sublist.map _)
  | openSession pos =>
    rw [PositionMachine.step]
    split <;> exact h
  | closeSession k => exact h

/-- An event that shifts the position of an open session breaks its attribution. -/
theorem not_attributed_of_shift {P : IndexedProtocol} {s : PositionMachine}
    (hnames : s.DistinctNames) (h : s.Attributed) {e : PositionEvent} (hshift : ¬ NoShift s e) :
    ¬ (s.step P e).Attributed := by
  intro hafter
  cases e with
  | addUsers users => exact hshift trivial
  | closeSession k => exact hshift trivial
  | delUsers names =>
    refine hshift fun session hmem hopen removed hremoved hin => ?_
    obtain ⟨user, huser, hname⟩ := lookup_eq_some_iff.mp (h session hmem hopen)
    have hlookup := hafter session hmem hopen
    change (s.inbound.delUsers P names).users[session.index]?.map _ = _ at hlookup
    rw [users_delUsers, ← hname] at hlookup
    exact name_ne_of_removed hnames huser hremoved hin hlookup
  | openSession pos =>
    refine hshift fun user huser => ?_
    rw [PositionMachine.step, huser] at hafter
    exact hafter _ (List.mem_append_right _ (List.mem_singleton_self _)) rfl

/-- **Attribution by position.** In every run in which no user at or before the position of an open
session is removed, all open sessions are attributed to the users whose credentials opened them.
Where the names of the inbound are distinct, these are the only such runs. -/
theorem attributed_runs (P : IndexedProtocol) (users : List InboundUser)
    (es : List PositionEvent) :
    (Guarded (step P) NoShift (start users) es →
      ∀ p q, es = p ++ q → (p.foldl (step P) (start users)).Attributed) ∧
    ((users.map InboundUser.name).Nodup → Guarded (step P) FreshNames (start users) es →
      (∀ p q, es = p ++ q → (p.foldl (step P) (start users)).Attributed) →
        Guarded (step P) NoShift (start users) es) := by
  constructor
  · rintro h p q rfl
    have hstep : ∀ s e, Attributed s → NoShift s e → Attributed (step P s e) :=
      fun s e hs hok => hs.step e hok
    have hinit : (start users).Attributed := fun session hmem => by cases hmem
    exact Guarded.invariant hstep hinit h.of_append
  · intro hnames hfresh hsafe
    have hstep : ∀ s e, DistinctNames s → FreshNames s e → DistinctNames (step P s e) :=
      fun s e hs hok => hs.step e hok
    have hbad : ∀ s e, DistinctNames s → Attributed s → ¬ NoShift s e → ¬ Attributed (step P s e) :=
      fun s e hs hattr hnot => not_attributed_of_shift hs hattr hnot
    exact Guarded.of_forall_safe hstep hbad hnames hfresh hsafe

/-- The session of `a` keeps its position when a user behind it is removed. -/
theorem attributed_after_removal :
    let es : List PositionEvent :=
      [.addUsers [⟨"a", "a"⟩, ⟨"b", "b"⟩], .openSession 0, .delUsers ["b"]]
    Guarded (step .hysteria) NoShift (start []) es ∧
      (es.foldl (step .hysteria) (start [])).Attributed := by
  intro es
  have hguard : Guarded (step .hysteria) NoShift (start []) es := by decide
  exact ⟨hguard, (attributed_runs .hysteria [] es).1 hguard es [] (List.append_nil es).symm⟩

/-- A session of `b` after `a` has been removed: with two users its position is out of range, and
with three it has the name of `c`. -/
theorem misattributed_after_removal :
    let b : Session := { index := 1, owner := "b" }
    let short := [.addUsers [⟨"a", "a"⟩, ⟨"b", "b"⟩], .openSession 1, .delUsers ["a"]].foldl
      (step .hysteria) (start [])
    let long := [.addUsers [⟨"a", "a"⟩, ⟨"b", "b"⟩, ⟨"c", "c"⟩], .openSession 1,
      .delUsers ["a"]].foldl (step .hysteria) (start [])
    (short.sessions = [b] ∧ short.lookup b = none) ∧
      (long.sessions = [b] ∧ long.lookup b = some "c") ∧
      ¬ short.Attributed ∧ ¬ long.Attributed := by
  decide

end PositionMachine

end Tox.Inbound
