import Tox.Foundation.GoMap
import Tox.Foundation.Run

/-!
# Deleting a mieru user while connections are made

The mieru core keeps the open connections of a user in a set that is stored in `userConns` under
the user's name. A connection looks the set up, or stores a new one, and then adds itself to it;
deleting the user takes the set out of the map and then closes its members. Each of these steps is
atomic, and they interleave: a connection that holds the set may add itself after the members have
been closed, and is then neither closed nor found under the name of its user.

The machine below has any number of connections of any users, each with the steps of `bridgeTCP`
or `bridgeUDP`, and any number of calls of `DelUsers`.
-/

namespace Tox.Core

open Tox.Foundation

/-! ### The shared state -/

/-- The two connections of a bridge. -/
inductive Side
  | client
  | remote
deriving DecidableEq, Repr

/-- A connection: the number of its bridge and its side. -/
abbrev Conn : Type := ℕ × Side

/-- A running call of `Mieru.DelUsers`: the users that are still to be deleted, and the set of a
user that has been taken out of the map and not been closed yet. -/
structure Deletion where
  pending : List String
  detached : Option (String × ℕ) := none
deriving DecidableEq, Repr

/-- The sets of connections, by their numbers, and the map of the sets that are stored. The numbers
from `fresh` on have not been given out and stand for empty sets. -/
structure ConnState where
  userConns : GoMap String ℕ := ∅
  sets : ℕ → Finset Conn := fun _ => ∅
  fresh : ℕ := 0
  closed : Finset Conn := ∅
  deletions : List Deletion := []

namespace ConnState

/-- `userConns.LoadOrStore(user, &connSet{})`. -/
def loadOrStore (s : ConnState) (user : String) : ConnState × ℕ :=
  match s.userConns.lookup user with
  | some cs => (s, cs)
  | none =>
    ({ s with
        userConns := s.userConns.insert user s.fresh
        fresh := s.fresh + 1 }, s.fresh)

/-- `connSet.Add`. -/
def add (s : ConnState) (cs : ℕ) (c : Conn) : ConnState :=
  { s with sets := Function.update s.sets cs (insert c (s.sets cs)) }

/-- `connSet.Remove`. -/
def remove (s : ConnState) (cs : ℕ) (c : Conn) : ConnState :=
  { s with sets := Function.update s.sets cs ((s.sets cs).erase c) }

/-- `Conn.Close`. -/
def close (s : ConnState) (c : Conn) : ConnState :=
  { s with closed := insert c s.closed }

/-- `connSet.CloseAll`: the members are closed and the set is emptied. -/
def closeAll (s : ConnState) (cs : ℕ) : ConnState :=
  { s with closed := s.closed ∪ s.sets cs, sets := Function.update s.sets cs ∅ }

/-- The next step of the deletion with the number `j`: `CloseAll` on the set that it has taken out,
or else `LoadAndDelete` for the next user. -/
def advanceDeletion (s : ConnState) (j : ℕ) : ConnState :=
  match s.deletions[j]? with
  | none => s
  | some d =>
    match d.detached with
    | some (_, cs) =>
      { s.closeAll cs with deletions := s.deletions.set j { d with detached := none } }
    | none =>
      match d.pending with
      | [] => s
      | user :: rest =>
        { s with
          userConns := s.userConns.erase user
          deletions := s.deletions.set j
            ⟨rest, (s.userConns.lookup user).map fun cs => (user, cs)⟩ }

/-- The set `cs` is stored for the user, or a deletion has taken it out and will still close it. -/
def Live (s : ConnState) (user : String) (cs : ℕ) : Prop :=
  s.userConns.lookup user = some cs ∨ ∃ d ∈ s.deletions, d.detached = some (user, cs)

instance (s : ConnState) (user : String) (cs : ℕ) : Decidable (s.Live user cs) :=
  inferInstanceAs (Decidable (_ ∨ _))

/-- The connection `c` of the user is closed, or in the set `cs` and that set is live. -/
def Kept (s : ConnState) (user : String) (cs : ℕ) (c : Conn) : Prop :=
  c ∈ s.closed ∨ (c ∈ s.sets cs ∧ s.Live user cs)

/-! ### Connections stay kept -/

section Kept

variable {s : ConnState} {user : String} {cs : ℕ} {c : Conn}

theorem Kept.loadOrStore (h : s.Kept user cs c) (user' : String) :
    (s.loadOrStore user').1.Kept user cs c := by
  rw [ConnState.loadOrStore]
  split
  case h_1 => exact h
  case h_2 hnone =>
    refine h.imp_right (And.imp_right (Or.imp_left fun hstored => ?_))
    have hne : user ≠ user' := by
      rintro rfl
      rw [hnone] at hstored
      cases hstored
    rw [GoMap.lookup_insert, if_neg hne, hstored]

/-- A connection stays in its set when a set is replaced by one that has it too. -/
theorem mem_update_sets {sets : ℕ → Finset Conn} {cs' : ℕ} {new : Finset Conn}
    (hmem : c ∈ sets cs) (hnew : cs = cs' → c ∈ new) : c ∈ Function.update sets cs' new cs := by
  by_cases hcs : cs = cs'
  · subst hcs
    rw [Function.update_self]
    exact hnew rfl
  · rwa [Function.update_of_ne hcs]

theorem Kept.add (h : s.Kept user cs c) (cs' : ℕ) (c' : Conn) :
    (s.add cs' c').Kept user cs c := by
  refine h.imp_right (And.imp_left fun hmem => mem_update_sets hmem ?_)
  rintro rfl
  exact Finset.mem_insert_of_mem hmem

theorem Kept.remove (h : s.Kept user cs c) (cs' : ℕ) {c' : Conn} (hc : c ≠ c') :
    (s.remove cs' c').Kept user cs c := by
  refine h.imp_right (And.imp_left fun hmem => mem_update_sets hmem ?_)
  rintro rfl
  exact Finset.mem_erase_of_ne_of_mem hc hmem

theorem Kept.close (h : s.Kept user cs c) (c' : Conn) : (s.close c').Kept user cs c :=
  h.imp_left Finset.mem_insert_of_mem

/-- Replacing an entry of a list leaves the other entries in it. -/
theorem mem_set_of_ne {l : List Deletion} {j : ℕ} {d d' : Deletion} (hj : l[j]? = some d)
    (hd' : d' ∈ l) (hne : d' ≠ d) (x : Deletion) : d' ∈ l.set j x := by
  obtain ⟨i, hi⟩ := List.mem_iff_getElem?.mp hd'
  have hij : j ≠ i := by
    rintro rfl
    exact hne (Option.some.inj (hi.symm.trans hj))
  exact List.mem_iff_getElem?.mpr ⟨i, by rw [List.getElem?_set_ne hij, hi]⟩

/-- The deletion that closes a set closes the connections in it; the one that takes a set out of
the map keeps it live. -/
theorem Kept.advanceDeletion (h : s.Kept user cs c) (j : ℕ) :
    (s.advanceDeletion j).Kept user cs c := by
  rw [ConnState.advanceDeletion]
  rcases hj : s.deletions[j]? with _ | ⟨pending, _ | ⟨user', cs'⟩⟩
  · exact h
  · rcases pending with _ | ⟨user', rest⟩
    · exact h
    · refine h.imp_right (And.imp_right ?_)
      rintro (hstored | ⟨d, hd, hdet⟩)
      · by_cases huser : user = user'
        · subst huser
          have hj' := List.getElem?_eq_some_iff.mp hj
          refine .inr ⟨_, List.mem_set hj'.1 _, ?_⟩
          rw [hstored]
          rfl
        · left
          change (s.userConns.erase user').lookup user = some cs
          rw [GoMap.lookup_erase, if_neg huser, hstored]
      · refine .inr ⟨d, mem_set_of_ne hj hd ?_ _, hdet⟩
        rintro rfl
        cases hdet
  · rcases h with hclosed | ⟨hmem, hlive⟩
    · exact .inl (Finset.mem_union_left _ hclosed)
    · by_cases hcs : cs = cs'
      · subst hcs
        exact .inl (Finset.mem_union_right _ hmem)
      · refine .inr ⟨mem_update_sets hmem fun h => absurd h hcs, hlive.imp_right ?_⟩
        rintro ⟨d, hd, hdet⟩
        refine ⟨d, mem_set_of_ne hj hd ?_ _, hdet⟩
        rintro rfl
        cases hdet
        exact hcs rfl

end Kept

end ConnState

/-! ### The connections -/

/-- Where a bridge is: before it has a set, between its calls of `Add`, with all its connections
added, or between its calls of `Remove`. -/
inductive BridgePhase
  | entering
  | holding (cs : ℕ)
  | addedClient (cs : ℕ)
  | registered (cs : ℕ)
  | removing (cs : ℕ)
  | removedClient (cs : ℕ)
  | ended
deriving DecidableEq, Repr

/-- A call of `Mieru.bridgeTCP` or of `Mieru.bridgeUDP`, which has no remote connection. -/
structure Bridge where
  user : String
  tcp : Bool
  phase : BridgePhase := .entering
deriving DecidableEq, Repr

namespace Bridge

/-- The connections of the bridge with the number `i`. -/
def conns (b : Bridge) (i : ℕ) : List Conn :=
  if b.tcp then [(i, .client), (i, .remote)] else [(i, .client)]

/-- The connections that have been added, with the set that they have been added to. -/
def added (b : Bridge) (i : ℕ) : List (Conn × ℕ) :=
  match b.phase with
  | .addedClient cs => [((i, .client), cs)]
  | .registered cs => (b.conns i).map fun c => (c, cs)
  | _ => []

/-- The next atomic step of the bridge with the number `i`. While it is registered, it copies. -/
def advance (i : ℕ) (s : ConnState) (b : Bridge) : ConnState × Bridge :=
  match b.phase with
  | .entering => ((s.loadOrStore b.user).1, { b with phase := .holding (s.loadOrStore b.user).2 })
  | .holding cs =>
    (s.add cs (i, .client), { b with phase := if b.tcp then .addedClient cs else .registered cs })
  | .addedClient cs => (s.add cs (i, .remote), { b with phase := .registered cs })
  | .removing cs =>
    (s.remove cs (i, .client), { b with phase := if b.tcp then .removedClient cs else .ended })
  | .removedClient cs => (s.remove cs (i, .remote), { b with phase := .ended })
  | .registered _ | .ended => (s, b)

/-- The copying has ended: the deferred calls of `Remove` follow. -/
def finish (b : Bridge) : Bridge :=
  match b.phase with
  | .registered cs => { b with phase := .removing cs }
  | _ => b

/-- The next step does not add a connection to a set that is not live. -/
def AddsToLive (s : ConnState) (b : Bridge) : Prop :=
  match b.phase with
  | .holding cs | .addedClient cs => s.Live b.user cs
  | _ => True

instance (s : ConnState) (b : Bridge) : Decidable (AddsToLive s b) := by
  unfold AddsToLive
  split <;> infer_instance

theorem fst_of_mem_conns {b : Bridge} {i : ℕ} {c : Conn} (h : c ∈ b.conns i) : c.1 = i := by
  rw [conns] at h
  split at h
  · rcases List.mem_pair.mp h with rfl | rfl <;> rfl
  · rw [List.mem_singleton.mp h]

theorem fst_of_mem_added {b : Bridge} {i : ℕ} {p : Conn × ℕ} (h : p ∈ b.added i) :
    p.1.1 = i := by
  rw [added] at h
  split at h
  · rw [List.mem_singleton.mp h]
  · obtain ⟨c, hc, rfl⟩ := List.mem_map.mp h
    exact fst_of_mem_conns hc
  · cases h

theorem user_advance (i : ℕ) (s : ConnState) (b : Bridge) :
    (b.advance i s).2.user = b.user := by
  rw [advance]
  split <;> rfl

/-- A step of a bridge leaves the connections of the other bridges as they are. -/
theorem kept_advance_of_ne {i : ℕ} {s : ConnState} (b : Bridge) {user : String} {cs : ℕ} {c : Conn}
    (hc : c.1 ≠ i) (h : s.Kept user cs c) : (b.advance i s).1.Kept user cs c := by
  have hne : ∀ side, c ≠ (i, side) := by
    rintro side rfl
    exact hc rfl
  rw [advance]
  split
  · exact h.loadOrStore _
  · exact h.add _ _
  · exact h.add _ _
  · exact h.remove _ (hne _)
  · exact h.remove _ (hne _)
  · exact h
  · exact h

theorem kept_add {s : ConnState} {user : String} {cs : ℕ} (hlive : s.Live user cs) (c : Conn) :
    (s.add cs c).Kept user cs c := by
  refine .inr ⟨?_, hlive⟩
  change c ∈ Function.update s.sets cs _ cs
  rw [Function.update_self]
  exact Finset.mem_insert_self c _

/-- A bridge that adds its connections to a live set has them kept. -/
theorem kept_advance {i : ℕ} {s : ConnState} {b : Bridge} (hlive : b.AddsToLive s)
    (h : ∀ p ∈ b.added i, s.Kept b.user p.2 p.1) :
    ∀ p ∈ (b.advance i s).2.added i, (b.advance i s).1.Kept b.user p.2 p.1 := by
  obtain ⟨user, tcp, phase⟩ := b
  cases phase with
  | entering => exact fun p hp => nomatch hp
  | holding cs =>
    cases tcp with
    | false =>
      intro p hp
      rw [List.mem_singleton.mp hp]
      exact kept_add hlive _
    | true =>
      intro p hp
      rw [List.mem_singleton.mp hp]
      exact kept_add hlive _
  | addedClient cs =>
    have hclient := h ((i, .client), cs) (List.mem_singleton_self _)
    cases tcp with
    | false =>
      intro p hp
      rw [List.mem_singleton.mp hp]
      exact hclient.add _ _
    | true =>
      intro p hp
      rcases List.mem_pair.mp hp with rfl | rfl
      · exact hclient.add _ _
      · exact kept_add hlive _
  | registered cs => exact h
  | removing cs => cases tcp <;> exact fun p hp => nomatch hp
  | removedClient cs => exact fun p hp => nomatch hp
  | ended => exact fun p hp => nomatch hp

theorem added_finish (b : Bridge) (i : ℕ) : ∀ p ∈ b.finish.added i, p ∈ b.added i := by
  obtain ⟨user, tcp, phase⟩ := b
  cases phase with
  | registered cs => exact fun p hp => nomatch hp
  | _ => exact fun p hp => hp

theorem user_finish (b : Bridge) : b.finish.user = b.user := by
  rw [finish]
  split <;> rfl

end Bridge

/-- The connections, in the order in which their bridges began, and the shared state. -/
structure ConnMachine where
  state : ConnState := {}
  bridges : List Bridge := []

inductive ConnEvent
  /-- A call of `bridgeTCP` or `bridgeUDP` begins. -/
  | bridge (user : String) (tcp : Bool)
  /-- The next atomic step of a bridge. -/
  | advance (i : ℕ)
  /-- The copying of a bridge ends. -/
  | finish (i : ℕ)
  /-- A call of `DelUsers` begins. -/
  | delUsers (users : List String)
  /-- The next atomic step of a deletion. -/
  | advanceDeletion (j : ℕ)
  /-- A connection is closed by its bridge. -/
  | close (c : Conn)
deriving DecidableEq, Repr

namespace ConnMachine

def step (m : ConnMachine) : ConnEvent → ConnMachine
  | .bridge user tcp => { m with bridges := m.bridges ++ [{ user := user, tcp := tcp }] }
  | .advance i =>
    match m.bridges[i]? with
    | none => m
    | some b =>
      { state := (b.advance i m.state).1, bridges := m.bridges.set i (b.advance i m.state).2 }
  | .finish i => { m with bridges := m.bridges.modify i Bridge.finish }
  | .delUsers users =>
    { m with state := { m.state with deletions := m.state.deletions ++ [{ pending := users }] } }
  | .advanceDeletion j => { m with state := m.state.advanceDeletion j }
  | .close c => { m with state := m.state.close c }

/-- No connection is added to a set that a deletion has closed already. -/
def AddsToLive (m : ConnMachine) : ConnEvent → Prop
  | .advance i => ∀ b ∈ m.bridges[i]?, b.AddsToLive m.state
  | _ => True

instance (m : ConnMachine) : ∀ e, Decidable (AddsToLive m e)
  | .advance i => inferInstanceAs (Decidable (∀ b ∈ m.bridges[i]?, b.AddsToLive m.state))
  | .bridge _ _ | .finish _ | .delUsers _ | .advanceDeletion _ | .close _ =>
    inferInstanceAs (Decidable True)

/-- Every connection that has been added is closed, or in its set and the set is live. -/
def Sound (m : ConnMachine) : Prop :=
  ∀ (i : ℕ) (b : Bridge), m.bridges[i]? = some b → ∀ p ∈ b.added i, m.state.Kept b.user p.2 p.1

/-- Every connection of a registered bridge is closed, or in the set that is stored for its user,
unless a deletion has taken a set of the user out of the map and not closed it yet. -/
def Found (m : ConnMachine) : Prop :=
  ∀ (i : ℕ) (b : Bridge), m.bridges[i]? = some b → ∀ cs, b.phase = .registered cs →
    (∀ d ∈ m.state.deletions, ∀ cs', d.detached ≠ some (b.user, cs')) →
      ∀ c ∈ b.conns i, c ∈ m.state.closed ∨
        ∃ cs', m.state.userConns.lookup b.user = some cs' ∧ c ∈ m.state.sets cs'

theorem Sound.found {m : ConnMachine} (h : m.Sound) : m.Found := by
  intro i b hb cs hphase hdetached c hc
  have hmem : (c, cs) ∈ b.added i := by
    rw [Bridge.added, hphase]
    exact List.mem_map_of_mem hc
  rcases h i b hb _ hmem with hclosed | ⟨hset, hstored | ⟨d, hd, hdet⟩⟩
  · exact .inl hclosed
  · exact .inr ⟨cs, hstored, hset⟩
  · exact absurd hdet (hdetached d hd cs)

/-- A step of the shared state alone that keeps the connections. -/
theorem Sound.of_kept {m : ConnMachine} (h : m.Sound) {s : ConnState}
    (hs : ∀ user cs c, m.state.Kept user cs c → s.Kept user cs c) :
    Sound { m with state := s } :=
  fun i b hb p hp => hs _ _ _ (h i b hb p hp)

/-- A bridge that begins has added nothing yet. -/
theorem Sound.bridge {m : ConnMachine} (h : m.Sound) (user : String) (tcp : Bool) :
    Sound { m with bridges := m.bridges ++ [{ user := user, tcp := tcp }] } := by
  intro i b hb p hp
  change (m.bridges ++ [_])[i]? = some b at hb
  rcases Nat.lt_or_ge i m.bridges.length with hi | hi
  · rw [List.getElem?_append_left hi] at hb
    exact h i b hb p hp
  · rw [List.getElem?_append_right hi] at hb
    obtain rfl := List.mem_singleton.mp (List.mem_of_getElem? hb)
    cases hp

theorem Sound.advance {m : ConnMachine} (h : m.Sound) {i : ℕ} {b : Bridge}
    (hb : m.bridges[i]? = some b) (hlive : b.AddsToLive m.state) :
    Sound { state := (b.advance i m.state).1
            bridges := m.bridges.set i (b.advance i m.state).2 } := by
  intro k b' hb' p hp
  change (m.bridges.set i _)[k]? = some b' at hb'
  by_cases hk : k = i
  · subst hk
    have hlen := (List.getElem?_eq_some_iff.mp hb).1
    rw [List.getElem?_set_self hlen] at hb'
    cases hb'
    rw [Bridge.user_advance]
    exact Bridge.kept_advance hlive (h k b hb) p hp
  · rw [List.getElem?_set_ne (Ne.symm hk)] at hb'
    have hc : p.1.1 ≠ i := by rwa [Bridge.fst_of_mem_added hp]
    exact Bridge.kept_advance_of_ne b hc (h k b' hb' p hp)

theorem Sound.finish {m : ConnMachine} (h : m.Sound) (i : ℕ) :
    Sound { m with bridges := m.bridges.modify i Bridge.finish } := by
  intro k b' hb' p hp
  change (m.bridges.modify i Bridge.finish)[k]? = some b' at hb'
  rw [List.getElem?_modify] at hb'
  obtain ⟨b, hb, rfl⟩ := Option.map_eq_some_iff.mp hb'
  by_cases hk : i = k
  · rw [if_pos hk] at hp ⊢
    rw [Bridge.user_finish]
    exact h k b hb p (b.added_finish k p hp)
  · rw [if_neg hk] at hp ⊢
    exact h k b hb p hp

theorem Sound.step {m : ConnMachine} (h : m.Sound) (e : ConnEvent) (hok : AddsToLive m e) :
    (m.step e).Sound := by
  cases e with
  | bridge user tcp => exact h.bridge user tcp
  | advance i =>
    rw [ConnMachine.step]
    split
    case h_1 => exact h
    case h_2 b hb => exact h.advance hb (hok b hb)
  | finish i => exact h.finish i
  | delUsers users =>
    refine h.of_kept fun user cs c => Or.imp_right (And.imp_right (Or.imp_right ?_))
    rintro ⟨d, hd, hdet⟩
    exact ⟨d, List.mem_append_left _ hd, hdet⟩
  | advanceDeletion j => exact h.of_kept fun user cs c hkept => hkept.advanceDeletion j
  | close c' => exact h.of_kept fun user cs c hkept => hkept.close c'

/-- **Deleted users lose their connections.** In every state of a run in which no connection is
added to a set that a deletion has closed already, the connections of a registered bridge are
closed or found under the name of their user, unless a deletion of the user is under way. -/
theorem found_of_addsToLive {es : List ConnEvent} (h : Guarded step AddsToLive {} es) :
    ∀ p q, es = p ++ q → (p.foldl step {}).Found := by
  rintro p q rfl
  have hstep : ∀ m e, Sound m → AddsToLive m e → Sound (step m e) :=
    fun m e hm hok => hm.step e hok
  have hinit : Sound {} := fun i b hb => by cases hb
  exact (Guarded.invariant hstep hinit h.of_append).found

/-- The user is deleted while a connection is made: the connection holds the set before it is
taken out of the map, adds itself before the members are closed, and is closed. -/
theorem closed_while_deleted :
    let es : List ConnEvent := [.bridge "u" true, .advance 0, .delUsers ["u"], .advanceDeletion 0,
      .advance 0, .advance 0, .advanceDeletion 0]
    Guarded step AddsToLive {} es ∧ (es.foldl step {}).Found ∧
      (0, .client) ∈ (es.foldl step {}).state.closed := by
  intro es
  have hguard : Guarded step AddsToLive {} es := by decide
  exact ⟨hguard, found_of_addsToLive hguard es [] (List.append_nil es).symm, by decide⟩

/-- The members of the set are closed before the connection that holds it adds itself: it is
neither closed nor found under the name of its user when the deletion has ended. -/
theorem open_after_deletion :
    let m := [.bridge "u" true, .advance 0, .delUsers ["u"], .advanceDeletion 0,
      .advanceDeletion 0, .advance 0, .advance 0].foldl step {}
    m.state.deletions = [⟨[], none⟩] ∧ ¬ m.Found := by
  intro m
  have hbridge : m.bridges[0]? = some ⟨"u", true, .registered 0⟩ := by decide
  have hdeletions : m.state.deletions = [⟨[], none⟩] := by decide
  have hopen : (0, .client) ∉ m.state.closed := by decide
  have hstored : m.state.userConns.lookup "u" = none := by decide
  refine ⟨hdeletions, fun hfound => ?_⟩
  have hdetached : ∀ d ∈ m.state.deletions, ∀ cs', d.detached ≠ some ("u", cs') := by
    intro d hd cs'
    rw [hdeletions, List.mem_singleton] at hd
    rw [hd]
    exact nofun
  rcases hfound 0 _ hbridge 0 rfl hdetached (0, .client) List.mem_cons_self with
    hclosed | ⟨cs', hlookup, -⟩
  · exact hopen hclosed
  · rw [hstored] at hlookup
    cases hlookup

end ConnMachine

end Tox.Core
