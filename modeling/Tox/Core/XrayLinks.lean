import Tox.Foundation.GoMap
import Tox.Foundation.Run

/-!
# Deleting an xray user while links are made

The dispatcher keeps the open links of a user in a link manager, which `LinkManagers` has under the
name of the user. A new link looks the manager up, stores a new one if there is none, and is then
added to the manager that it has got. `DelUsers` looks the manager up, closes all its links, and
then deletes the entry of the user, whatever manager is there by then.

The machine below takes each of these operations as one step. Links are made and closed while
`DelUsers` is called again and again; a lock makes its calls follow each other. A link is lost if it
is open and in a manager that no call of `DelUsers` will find. Links are lost when a manager with
links is replaced by a new one, when its entry is deleted after links have been added behind
`CloseAll`, and when a link is added to a manager that is no longer there. Runs without such a step
are exactly those in which no link is ever lost (`LinkMachine.kept_iff_careful`).

`CloseAll` goes through the links without the lock of the manager; a link that is added meanwhile is
taken to come before or behind it.
-/

namespace Tox.Core

open Tox.Foundation

/-- How far `getLink` or `DispatchLink` has come. A manager is named by its user and a number; its
links are those that are `linked` to it. -/
inductive LinkPhase
  | entering
  /-- `LinkManagers.Load` has found no manager. -/
  | missed
  | holding (n : ℕ)
  | linked (n : ℕ)
  | closed
deriving DecidableEq, Repr

/-- The link after `LinkManagers.Load`. -/
def LinkPhase.load : Option ℕ → LinkPhase
  | none => .missed
  | some n => .holding n

structure LinkConn where
  user : String
  phase : LinkPhase := .entering
deriving DecidableEq, Repr

/-- How far a call of `DelUsers` has come, with the users that follow. -/
inductive LinkDeletion
  | absent
  | next (users : List String)
  /-- `LinkManagers.Load` has found the manager. -/
  | loaded (user : String) (n : ℕ) (rest : List String)
  /-- The links of the manager have been closed. -/
  | emptied (user : String) (rest : List String)
deriving DecidableEq, Repr

namespace LinkDeletion

/-- The call after `LinkManagers.Load`. -/
def load (user : String) (rest : List String) : Option ℕ → LinkDeletion
  | none => .next rest
  | some n => .loaded user n rest

/-- The call is about to close the links of the manager. -/
def Closes (user : String) (n : ℕ) : LinkDeletion → Prop
  | .loaded user' n' _ => user' = user ∧ n' = n
  | _ => False

end LinkDeletion

/-- The link managers, the links in the order in which they began, and the running deletion. The
numbers from `fresh` on stand for managers that have not been made. -/
structure LinkMachine where
  linkManagers : GoMap String ℕ := ∅
  fresh : ℕ := 0
  conns : List LinkConn := []
  deletion : LinkDeletion := .absent

inductive LinkEvent
  /-- A link of the user passes the limiter. -/
  | connect (user : String)
  /-- The next operation of a link. -/
  | advance (i : ℕ)
  /-- `ManagedWriter.Close` of a link. -/
  | close (i : ℕ)
  /-- `DelUsers` for the users that the user manager removes. -/
  | delUsers (users : List String)
  /-- The next operation of `DelUsers`. -/
  | advanceDeletion
deriving DecidableEq, Repr

namespace LinkMachine

/-! ### The operations -/

def setPhase (s : LinkMachine) (i : ℕ) (c : LinkConn) (phase : LinkPhase) : LinkMachine :=
  { s with conns := s.conns.set i { c with phase := phase } }

/-- `LinkManagers.Store` of a new manager. -/
def storeManager (s : LinkMachine) (user : String) : LinkMachine :=
  { s with linkManagers := s.linkManagers.insert user s.fresh, fresh := s.fresh + 1 }

/-- `LinkManager.CloseAll`. -/
def closeAll (s : LinkMachine) (user : String) (n : ℕ) : LinkMachine :=
  { s with conns := s.conns.map fun c =>
      if c = ⟨user, .linked n⟩ then { c with phase := .closed } else c }

/-- `LinkManagers.Delete`. -/
def deleteManager (s : LinkMachine) (user : String) : LinkMachine :=
  { s with linkManagers := s.linkManagers.erase user }

def advance (s : LinkMachine) (i : ℕ) (c : LinkConn) : LinkMachine :=
  match c.phase with
  | .entering => s.setPhase i c (.load (s.linkManagers.lookup c.user))
  | .missed => (s.storeManager c.user).setPhase i c (.holding s.fresh)
  -- `LinkManager.AddLink`
  | .holding n => s.setPhase i c (.linked n)
  | .linked _ | .closed => s

def close (s : LinkMachine) (i : ℕ) (c : LinkConn) : LinkMachine :=
  match c.phase with
  | .linked _ => s.setPhase i c .closed
  | _ => s

def advanceDeletion (s : LinkMachine) : LinkMachine :=
  match s.deletion with
  | .absent => s
  | .next [] => { s with deletion := .absent }
  | .next (user :: rest) => { s with deletion := .load user rest (s.linkManagers.lookup user) }
  | .loaded user n rest => { s.closeAll user n with deletion := .emptied user rest }
  | .emptied user rest => { s.deleteManager user with deletion := .next rest }

def step (s : LinkMachine) : LinkEvent → LinkMachine
  | .connect user => { s with conns := s.conns ++ [{ user := user }] }
  | .advance i => (s.conns[i]?).elim s (s.advance i)
  | .close i => (s.conns[i]?).elim s (s.close i)
  | .delUsers users =>
    -- a call that finds another one running waits for it
    if s.deletion = .absent then { s with deletion := .next users } else s
  | .advanceDeletion => s.advanceDeletion

/-! ### Links that are not lost -/

/-- A call of `DelUsers` finds the manager, or has found it and is about to close its links. -/
def Live (s : LinkMachine) (user : String) (n : ℕ) : Prop :=
  s.linkManagers.lookup user = some n ∨ s.deletion.Closes user n

/-- Every open link is in a live manager. -/
def Kept (s : LinkMachine) : Prop :=
  ∀ user n, ⟨user, .linked n⟩ ∈ s.conns → s.Live user n

/-- The manager of the user has no links, or they are about to be closed. -/
def Droppable (s : LinkMachine) (user : String) : Prop :=
  ∀ n, s.linkManagers.lookup user = some n → ⟨user, .linked n⟩ ∈ s.conns →
    s.deletion.Closes user n

/-- The next operation of a link replaces no manager with links and adds to a live manager only. -/
def CarefulConn (s : LinkMachine) (c : LinkConn) : Prop :=
  match c.phase with
  | .missed => s.Droppable c.user
  | .holding n => s.Live c.user n
  | _ => True

def Careful (s : LinkMachine) : LinkEvent → Prop
  | .advance i => ∀ c, s.conns[i]? = some c → s.CarefulConn c
  | .advanceDeletion => ∀ user rest, s.deletion = .emptied user rest → s.Droppable user
  | _ => True

/-- A link is lost when the entry of its user changes and its manager may not go. -/
theorem not_kept_of_not_droppable {s t : LinkMachine} {user : String} (hdrop : ¬ s.Droppable user)
    (hconns : ∀ n, ⟨user, .linked n⟩ ∈ s.conns → ⟨user, .linked n⟩ ∈ t.conns)
    (hlookup : ∀ n, s.linkManagers.lookup user = some n → t.linkManagers.lookup user ≠ some n)
    (hcloses : ∀ n, t.deletion.Closes user n → s.deletion.Closes user n) : ¬ t.Kept := by
  simp only [Droppable, not_forall] at hdrop
  obtain ⟨n, hstored, hmem, hnot⟩ := hdrop
  intro hkept
  rcases hkept user n (hconns n hmem) with hlive | hlive
  · exact hlookup n hstored hlive
  · exact hnot (hcloses n hlive)

/-- A link that is open after `CloseAll` was open before, and is in another manager. -/
theorem of_mem_closeAll {s : LinkMachine} {user u : String} {n m : ℕ}
    (hmem : ⟨u, .linked m⟩ ∈ (s.closeAll user n).conns) :
    (⟨u, .linked m⟩ : LinkConn) ∈ s.conns ∧ ¬ (u = user ∧ m = n) := by
  obtain ⟨c, hc, heq⟩ := List.mem_map.mp hmem
  split_ifs at heq with hlinked
  · cases heq
  · subst heq
    exact ⟨hc, by simpa using hlinked⟩

/-- No link is lost, and no entry has a number that has not been given out. -/
structure Sound (s : LinkMachine) : Prop where
  kept : s.Kept
  bound : ∀ {user n}, s.linkManagers.lookup user = some n → n < s.fresh

namespace Sound

variable {s : LinkMachine} {i : ℕ} {c : LinkConn}

/-- The links change, and those that are new are added to live managers. -/
theorem setConns (h : s.Sound) {conns : List LinkConn}
    (hconns : ∀ user n, ⟨user, .linked n⟩ ∈ conns → ⟨user, .linked n⟩ ∈ s.conns ∨ s.Live user n) :
    { s with conns := conns }.Sound :=
  ⟨fun user n hmem => (hconns user n hmem).elim (h.kept user n) id, h.bound⟩

theorem setPhase (h : s.Sound) {phase : LinkPhase}
    (hphase : ∀ n, phase = .linked n → s.Live c.user n) : (s.setPhase i c phase).Sound := by
  refine h.setConns fun user n hmem => (List.mem_or_eq_of_mem_set hmem).imp_right fun heq => ?_
  cases heq
  exact hphase n rfl

/-- The entry of a user changes whose manager may go. -/
theorem setManagers (h : s.Sound) {user : String} (hdrop : s.Droppable user)
    {managers : GoMap String ℕ} {fresh : ℕ}
    (hother : ∀ u, u ≠ user → managers.lookup u = s.linkManagers.lookup u)
    (hbound : ∀ {u n}, managers.lookup u = some n → n < fresh) :
    { s with linkManagers := managers, fresh := fresh }.Sound := by
  refine ⟨fun u n hmem => ?_, hbound⟩
  rcases h.kept u n hmem with hstored | hcloses
  · by_cases hu : u = user
    · subst hu
      exact .inr (hdrop n hstored hmem)
    · exact .inl ((hother u hu).trans hstored)
  · exact .inr hcloses

theorem storeManager (h : s.Sound) {user : String} (hdrop : s.Droppable user) :
    (s.storeManager user).Sound := by
  refine h.setManagers hdrop (fun u hu => ?_) fun {u n} hlookup => ?_
  · rw [GoMap.lookup_insert, if_neg hu]
  · rw [GoMap.lookup_insert] at hlookup
    split_ifs at hlookup
    · cases hlookup
      exact Nat.lt_succ_self _
    · exact Nat.lt_succ_of_lt (h.bound hlookup)

theorem deleteManager (h : s.Sound) {user : String} (hdrop : s.Droppable user) :
    (s.deleteManager user).Sound := by
  refine h.setManagers hdrop (fun u hu => ?_) fun {u n} hlookup => ?_
  · rw [GoMap.lookup_erase, if_neg hu]
  · rw [GoMap.lookup_erase] at hlookup
    split_ifs at hlookup
    exact h.bound hlookup

theorem setDeletion (h : s.Sound) {d : LinkDeletion}
    (hd : ∀ user n, ⟨user, .linked n⟩ ∈ s.conns → s.deletion.Closes user n → d.Closes user n) :
    { s with deletion := d }.Sound :=
  ⟨fun user n hmem => (h.kept user n hmem).imp_right (hd user n hmem), h.bound⟩

theorem advance (h : s.Sound) (hc : s.CarefulConn c) : (s.advance i c).Sound := by
  obtain ⟨user, phase⟩ := c
  cases phase with
  | entering =>
    refine h.setPhase fun n hn => ?_
    cases hlookup : s.linkManagers.lookup user <;> simp [LinkPhase.load, hlookup] at hn
  | missed => exact (h.storeManager hc).setPhase (by simp)
  | holding n => exact h.setPhase fun m hm => LinkPhase.linked.inj hm ▸ hc
  | linked n => exact h
  | closed => exact h

theorem advanceDeletion (h : s.Sound) (hs : s.Careful .advanceDeletion) :
    s.advanceDeletion.Sound := by
  unfold LinkMachine.advanceDeletion
  cases hd : s.deletion with
  | absent => exact h
  | next users =>
    cases users with
    | nil => exact h.setDeletion (by simp [hd, LinkDeletion.Closes])
    | cons user rest => exact h.setDeletion (by simp [hd, LinkDeletion.Closes])
  | loaded user n rest =>
    have hclosed : (s.closeAll user n).Sound :=
      h.setConns fun u m hmem => .inl (of_mem_closeAll hmem).1
    refine hclosed.setDeletion fun u m hmem hcloses => absurd ?_ (of_mem_closeAll hmem).2
    change s.deletion.Closes u m at hcloses
    rw [hd] at hcloses
    exact ⟨hcloses.1.symm, hcloses.2.symm⟩
  | emptied user rest =>
    refine (h.deleteManager (hs user rest hd)).setDeletion fun u m _ hcloses => ?_
    change s.deletion.Closes u m at hcloses
    simp [hd, LinkDeletion.Closes] at hcloses

/-- A careful step keeps the machine sound. -/
theorem step (h : s.Sound) (e : LinkEvent) (he : s.Careful e) : (s.step e).Sound := by
  cases e with
  | connect user => exact h.setConns fun u n hmem => .inl (by simpa using hmem)
  | advance i =>
    cases hi : s.conns[i]? with
    | none => simpa [LinkMachine.step, hi] using h
    | some c => simpa [LinkMachine.step, hi] using h.advance (he c hi)
  | close i =>
    cases hi : s.conns[i]? with
    | none => simpa [LinkMachine.step, hi] using h
    | some c =>
      suffices (s.close i c).Sound by simpa [LinkMachine.step, hi] using this
      unfold LinkMachine.close
      split
      · exact h.setPhase (by simp)
      · exact h
  | delUsers users =>
    simp only [LinkMachine.step]
    split_ifs with hd
    · exact h.setDeletion (by simp [hd, LinkDeletion.Closes])
    · exact h
  | advanceDeletion => exact h.advanceDeletion he

/-- A step that is not careful loses a link. -/
theorem not_kept_step (h : s.Sound) (e : LinkEvent) (he : ¬ s.Careful e) : ¬ (s.step e).Kept := by
  cases e with
  | advance i =>
    simp only [Careful, not_forall] at he
    obtain ⟨⟨user, phase⟩, hi, hc⟩ := he
    have hstep : s.step (.advance i) = s.advance i ⟨user, phase⟩ := by simp [LinkMachine.step, hi]
    rw [hstep]
    cases phase with
    | missed =>
      refine not_kept_of_not_droppable hc (fun n hmem => ?_) (fun n hn hnew => ?_)
        fun _ hcloses => hcloses
      · obtain ⟨j, hj⟩ := List.mem_iff_getElem?.mp hmem
        have hij : i ≠ j := by
          rintro rfl
          cases hi.symm.trans hj
        exact List.mem_of_getElem? ((List.getElem?_set_ne hij).trans hj)
      · -- The new manager has a number that the old one cannot have.
        change (s.linkManagers.insert user s.fresh).lookup user = some n at hnew
        rw [GoMap.lookup_insert, if_pos rfl] at hnew
        cases hnew
        exact (h.bound hn).false
    | holding n =>
      obtain ⟨hlt, -⟩ := List.getElem?_eq_some_iff.mp hi
      exact fun hkept => hc (hkept user n (List.mem_set hlt _))
    | entering => exact absurd trivial hc
    | linked n => exact absurd trivial hc
    | closed => exact absurd trivial hc
  | advanceDeletion =>
    simp only [Careful, not_forall] at he
    obtain ⟨user, rest, hd, hdrop⟩ := he
    have hstep : s.step .advanceDeletion =
        { s.deleteManager user with deletion := .next rest } := by
      simp only [LinkMachine.step, LinkMachine.advanceDeletion, hd]
    rw [hstep]
    refine not_kept_of_not_droppable hdrop (fun _ hmem => hmem) (fun n _ hnew => ?_)
      fun _ => False.elim
    change (s.linkManagers.erase user).lookup user = some n at hnew
    rw [GoMap.lookup_erase, if_pos rfl] at hnew
    cases hnew
  | connect user => exact absurd trivial he
  | close i => exact absurd trivial he
  | delUsers users => exact absurd trivial he

end Sound

theorem sound_empty : ({} : LinkMachine).Sound :=
  ⟨by simp [Kept], by simp⟩

/-- **Links and deletions of users.** However links are made and closed while users are deleted, no
link is ever lost if and only if no manager with links is replaced or has its entry deleted behind
`CloseAll`, and no link is added to a manager that is no longer there. -/
theorem kept_iff_careful (es : List LinkEvent) :
    Guarded step Careful {} es ↔ ∀ p q, es = p ++ q → (p.foldl step {}).Kept :=
  Guarded.iff_forall_safe (fun _ h => h.kept) (fun _ e _ h he => h.step e he)
    (fun _ e _ h he => h.not_kept_step e he) sound_empty

-- The second link finds the manager of the first one after `CloseAll`; it stays open when the entry
-- is deleted.
example :
    let s := [.connect "u", .advance 0, .advance 0, .advance 0, .delUsers ["u"], .advanceDeletion,
      .advanceDeletion, .connect "u", .advance 1, .advance 1, .advanceDeletion].foldl step {}
    s.linkManagers.lookup "u" = none ∧ s.conns = [⟨"u", .closed⟩, ⟨"u", .linked 0⟩] := by
  decide

end LinkMachine

end Tox.Core
