import Tox.Common.Counter
import Tox.Foundation.PointerMap
import Tox.Foundation.Run

/-!
# Registries that are filled on first use

A connection that passes the hook of the sing core, or the dispatcher of the xray core, looks for
the traffic counter of its tag and stores a new one if there is none, and then asks the counter for
the storage of its user. The dispatcher does the same with the link managers, by the name of the
user, and adds the link of the connection to the manager that it has got. `Load` and `Store` are two
steps on the outer maps, so that two connections may both find nothing and both store; the storages
inside a counter are obtained with `LoadOrStore`.

The machine below takes every operation of a `sync.Map`, and every call of `AddLink`, as one step of
one connection, in any interleaving. Storages and links are found again in every state of a run in
which no `Store` finds its key present, and in no other run that is complete
(`FirstUse.found_iff_noOverwrite`).
-/

namespace Tox.Core

open Tox.Foundation Tox.Counter

/-- The code that a connection runs through: `RoutedConnection` or `RoutedPacketConnection`,
`getLink`, or `DispatchLink`. -/
inductive ConnKind
  | routed
  | getLink
  | dispatchLink
deriving DecidableEq, Repr

/-- One operation of a connection. The pointers are those that the connection holds. -/
inductive FirstAction
  /-- `LinkManagers.Load`. -/
  | loadManager
  /-- `LinkManagers.Store` of a new manager. -/
  | storeManager
  /-- `AddLink` on the manager. -/
  | addLink (manager : ℕ)
  /-- `Counter.Load`. -/
  | loadCounter
  /-- `Counter.Store` of a new counter. -/
  | storeCounter
  /-- `Counters.Load` in `GetCounter`. -/
  | loadStorage (counter : ℕ)
  /-- `Counters.LoadOrStore` in `GetCounter`. -/
  | loadOrStoreStorage (counter : ℕ)
deriving DecidableEq, Repr

/-- A connection with what it has got so far. A storage is a pointer within the counter. -/
structure FirstConn where
  kind : ConnKind
  tag : String
  user : String
  manager : Slot := .pending
  linked : Bool := false
  counter : Slot := .pending
  storage : Slot := .pending
deriving DecidableEq, Repr

namespace FirstConn

/-- The operations that get the manager. -/
def nextManager (c : FirstConn) : Option FirstAction :=
  match c.manager with
  | .pending => some .loadManager
  | .missed => some .storeManager
  | .held _ => none

/-- `AddLink`, once there is a manager. -/
def nextLink (c : FirstConn) : Option FirstAction :=
  match c.manager with
  | .held n => if c.linked then none else some (.addLink n)
  | _ => none

/-- The operations that get the counter and then, by `GetCounter`, the storage. -/
def nextCounter (c : FirstConn) : Option FirstAction :=
  match c.counter with
  | .pending => some .loadCounter
  | .missed => some .storeCounter
  | .held t =>
    match c.storage with
    | .pending => some (.loadStorage t)
    | .missed => some (.loadOrStoreStorage t)
    | .held _ => none

/-- The next operation. `getLink` adds its link before it looks for the counter, and `DispatchLink`
after it has got the storage. -/
def next (c : FirstConn) : Option FirstAction :=
  match c.kind with
  | .routed => c.nextCounter
  | .getLink => c.nextManager.or (c.nextLink.or c.nextCounter)
  | .dispatchLink => c.nextManager.or (c.nextCounter.or c.nextLink)

/-- What an operation finds the connection to hold. -/
def Ready (c : FirstConn) : FirstAction → Prop
  | .loadManager => c.manager = .pending
  | .storeManager => c.manager = .missed ∧ c.kind ≠ .routed
  | .addLink n => c.manager = .held n
  | .loadCounter => c.counter = .pending
  | .storeCounter => c.counter = .missed
  | .loadStorage t => c.counter = .held t ∧ c.storage = .pending
  | .loadOrStoreStorage t => c.counter = .held t ∧ c.storage = .missed

theorem ready_of_nextManager {c : FirstConn} {a : FirstAction} (hkind : c.kind ≠ .routed)
    (h : c.nextManager = some a) : c.Ready a := by
  rw [nextManager] at h
  split at h <;> cases h
  case h_1 hslot => exact hslot
  case h_2 hslot => exact ⟨hslot, hkind⟩

theorem ready_of_nextLink {c : FirstConn} {a : FirstAction} (h : c.nextLink = some a) :
    c.Ready a := by
  rw [nextLink] at h
  split at h
  case h_1 hslot =>
    split at h <;> cases h
    exact hslot
  case h_2 => cases h

theorem ready_of_nextCounter {c : FirstConn} {a : FirstAction} (h : c.nextCounter = some a) :
    c.Ready a := by
  rw [nextCounter] at h
  split at h
  case h_1 hslot =>
    cases h
    exact hslot
  case h_2 hslot =>
    cases h
    exact hslot
  case h_3 hslot =>
    split at h <;> cases h
    case h_1 hstorage => exact ⟨hslot, hstorage⟩
    case h_2 hstorage => exact ⟨hslot, hstorage⟩

theorem ready_of_next {c : FirstConn} {a : FirstAction} (h : c.next = some a) : c.Ready a := by
  rw [next] at h
  split at h
  case h_1 => exact ready_of_nextCounter h
  case h_2 hkind =>
    rcases Option.or_eq_some_iff.mp h with h | ⟨-, h⟩
    · exact ready_of_nextManager (hkind ▸ nofun) h
    rcases Option.or_eq_some_iff.mp h with h | ⟨-, h⟩
    · exact ready_of_nextLink h
    · exact ready_of_nextCounter h
  case h_3 hkind =>
    rcases Option.or_eq_some_iff.mp h with h | ⟨-, h⟩
    · exact ready_of_nextManager (hkind ▸ nofun) h
    rcases Option.or_eq_some_iff.mp h with h | ⟨-, h⟩
    · exact ready_of_nextCounter h
    · exact ready_of_nextLink h

/-- A connection that has come to its end has got a counter and a storage. -/
theorem storage_of_next_eq_none {c : FirstConn} (h : c.next = none) :
    ∃ t p, c.counter = .held t ∧ c.storage = .held p := by
  have hcounter : c.nextCounter = none := by
    rw [next] at h
    split at h
    · exact h
    · exact (Option.or_eq_none_iff.mp (Option.or_eq_none_iff.mp h).2).2
    · exact (Option.or_eq_none_iff.mp (Option.or_eq_none_iff.mp h).2).1
  rw [nextCounter] at hcounter
  split at hcounter
  case h_1 => cases hcounter
  case h_2 => cases hcounter
  case h_3 t ht =>
    split at hcounter
    case h_1 => cases hcounter
    case h_2 => cases hcounter
    case h_3 p hp => exact ⟨t, p, ht, hp⟩

/-- A connection of the dispatcher that has come to its end has added its link. -/
theorem linked_of_next_eq_none {c : FirstConn} (h : c.next = none) (hkind : c.kind ≠ .routed)
    {n : ℕ} (hn : c.manager = .held n) : c.linked = true := by
  have hlink : c.nextLink = none := by
    rw [next] at h
    split at h
    case h_1 hrouted => exact absurd hrouted hkind
    case h_2 => exact (Option.or_eq_none_iff.mp (Option.or_eq_none_iff.mp h).2).1
    case h_3 => exact (Option.or_eq_none_iff.mp (Option.or_eq_none_iff.mp h).2).2
  simpa [nextLink, hn] using hlink

end FirstConn

/-- The two outer maps and the connections. The links of a manager are the numbers of their
connections. -/
structure FirstUse where
  counter : PointerMap String TrafficCounter := .empty
  linkManagers : PointerMap String (List ℕ) := .empty
  conns : List FirstConn := []

inductive FirstEvent
  /-- A connection of the user comes to the code. -/
  | connect (kind : ConnKind) (tag user : String)
  /-- A connection makes its next operation. -/
  | advance (conn : ℕ)
deriving DecidableEq, Repr

namespace FirstUse

variable (s : FirstUse)

def counterAfter (c : FirstConn) : FirstAction → PointerMap String TrafficCounter
  | .storeCounter => s.counter.store c.tag .newTrafficCounter
  | .loadOrStoreStorage t => s.counter.modify t fun counter => (counter.getCounter c.user).1
  | _ => s.counter

def managersAfter (i : ℕ) (c : FirstConn) : FirstAction → PointerMap String (List ℕ)
  | .storeManager => s.linkManagers.store c.user []
  | .addLink n => s.linkManagers.modify n (i :: ·)
  | _ => s.linkManagers

def connAfter (c : FirstConn) : FirstAction → FirstConn
  | .loadManager => { c with manager := .load (s.linkManagers.entries.lookup c.user) }
  | .storeManager => { c with manager := .held s.linkManagers.objects.length }
  | .addLink _ => { c with linked := true }
  | .loadCounter => { c with counter := .load (s.counter.entries.lookup c.tag) }
  | .storeCounter => { c with counter := .held s.counter.objects.length }
  | .loadStorage t =>
    { c with storage := .load (s.counter.objects[t]?.bind (·.counters.lookup c.user)) }
  | .loadOrStoreStorage t =>
    { c with storage := .load (s.counter.objects[t]?.map fun counter =>
        (counter.getCounter c.user).2) }

/-- The connection with the number `i` makes an operation. -/
def perform (i : ℕ) (c : FirstConn) (a : FirstAction) : FirstUse where
  counter := s.counterAfter c a
  linkManagers := s.managersAfter i c a
  conns := s.conns.set i (s.connAfter c a)

def step : FirstEvent → FirstUse
  | .connect kind tag user =>
    { s with conns := s.conns ++ [{ kind := kind, tag := tag, user := user }] }
  | .advance i =>
    match s.conns[i]? with
    | none => s
    | some c =>
      match c.next with
      | none => s
      | some a => s.perform i c a

variable {s}

/-- An event adds a connection, makes an operation or changes nothing. -/
theorem step_cases (s : FirstUse) (e : FirstEvent) :
    (∃ kind tag user, e = .connect kind tag user) ∨ s.step e = s ∨
      ∃ i c a, e = .advance i ∧ s.conns[i]? = some c ∧ c.next = some a ∧
        s.step e = s.perform i c a := by
  cases e with
  | connect kind tag user => exact .inl ⟨kind, tag, user, rfl⟩
  | advance i =>
    refine .inr ?_
    rw [step]
    split
    case h_1 => exact .inl rfl
    case h_2 c hc =>
      split
      case h_1 => exact .inl rfl
      case h_2 a ha => exact .inr ⟨i, c, a, rfl, hc, ha, rfl⟩

/-- A connection after an operation is the one that has made it, or it is as before. -/
theorem conns_perform {i j : ℕ} {c d : FirstConn} {a : FirstAction}
    (h : (s.perform i c a).conns[j]? = some d) :
    (j = i ∧ d = s.connAfter c a) ∨ s.conns[j]? = some d := by
  change (s.conns.set i (s.connAfter c a))[j]? = some d at h
  rw [List.getElem?_set] at h
  split_ifs at h with hij
  · cases h
    exact .inl ⟨hij.symm, rfl⟩
  · exact .inr h

theorem conns_perform_self {i : ℕ} {c : FirstConn} {a : FirstAction} (hi : s.conns[i]? = some c) :
    (s.perform i c a).conns[i]? = some (s.connAfter c a) :=
  List.getElem?_set_self (List.getElem?_eq_some_iff.mp hi).1

/-! ### What every operation keeps -/

/-- The counter keeps its storages. -/
def KeepsStorages (t t' : TrafficCounter) : Prop :=
  ∀ k p, t.counters.lookup k = some p → t'.counters.lookup k = some p

theorem evolves_counter (s : FirstUse) (c : FirstConn) (a : FirstAction) :
    s.counter.Evolves KeepsStorages (s.counterAfter c a) := by
  have hrefl : ∀ t, KeepsStorages t t := fun _ _ _ h => h
  cases a with
  | storeCounter => exact .store hrefl _ _ _
  | loadOrStoreStorage t =>
    exact .modify hrefl (fun t k p h => t.lookup_getCounter_of_some h c.user) _ _
  | _ => exact .refl hrefl _

theorem evolves_managers (s : FirstUse) (i : ℕ) (c : FirstConn) (a : FirstAction) :
    s.linkManagers.Evolves (· ⊆ ·) (s.managersAfter i c a) := by
  have hrefl : ∀ l : List ℕ, l ⊆ l := List.Subset.refl
  cases a with
  | storeManager => exact .store hrefl _ _ _
  | addLink n => exact .modify hrefl (fun l => List.subset_cons_self i l) _ _
  | _ => exact .refl hrefl _

/-- The connection is of the same kind, tag and user, and keeps what it holds. -/
structure Continues (c c' : FirstConn) : Prop where
  kind : c'.kind = c.kind
  tag : c'.tag = c.tag
  user : c'.user = c.user
  counter : ∀ t, c.counter = .held t → c'.counter = .held t
  manager : ∀ n, c.manager = .held n → c'.manager = .held n

theorem continues_connAfter {c : FirstConn} {a : FirstAction} (h : c.Ready a) :
    Continues c (s.connAfter c a) := by
  have hkeep : Continues c c := ⟨rfl, rfl, rfl, fun _ ht => ht, fun _ hn => hn⟩
  cases a with
  | loadCounter => exact ⟨rfl, rfl, rfl, fun t ht => absurd (ht.symm.trans h) nofun, hkeep.manager⟩
  | storeCounter => exact ⟨rfl, rfl, rfl, fun t ht => absurd (ht.symm.trans h) nofun, hkeep.manager⟩
  | loadManager =>
    exact ⟨rfl, rfl, rfl, hkeep.counter, fun n hn => absurd (hn.symm.trans h) nofun⟩
  | storeManager =>
    exact ⟨rfl, rfl, rfl, hkeep.counter, fun n hn => absurd (hn.symm.trans h.1) nofun⟩
  | _ => exact ⟨rfl, rfl, rfl, hkeep.counter, hkeep.manager⟩

/-- Every connection is still there after an operation. -/
theorem exists_conns_perform {i j : ℕ} {c d : FirstConn} {a : FirstAction}
    (hi : s.conns[i]? = some c) (h : c.Ready a) (hj : s.conns[j]? = some d) :
    ∃ d', (s.perform i c a).conns[j]? = some d' ∧ Continues d d' := by
  by_cases hij : j = i
  · subst hij
    rw [hi] at hj
    cases hj
    exact ⟨_, conns_perform_self hi, continues_connAfter h⟩
  · refine ⟨d, ?_, rfl, rfl, rfl, fun _ ht => ht, fun _ hn => hn⟩
    change (s.conns.set i _)[j]? = some d
    rw [List.getElem?_set_ne (Ne.symm hij), hj]

/-- The pointers of the connection with the number `i` are allocated, its storage is that of its
user in its counter, and its link is in its manager. -/
structure Holds (s : FirstUse) (i : ℕ) (c : FirstConn) : Prop where
  counter : ∀ t, c.counter = .held t → s.counter.At t fun _ => True
  manager : ∀ n, c.manager = .held n → s.linkManagers.At n fun _ => True
  storage : ∀ p, c.storage = .held p → ∃ t, c.counter = .held t ∧
    s.counter.At t fun counter => counter.counters.lookup c.user = some p
  linked : c.linked = true → ∃ n, c.manager = .held n ∧ s.linkManagers.At n (i ∈ ·)

section Holds

variable {i j : ℕ} {c d : FirstConn} {a : FirstAction}

/-- What a connection holds is not changed by the operations of another. -/
theorem Holds.perform (h : s.Holds j d) (i : ℕ) (c : FirstConn) (a : FirstAction) :
    (s.perform i c a).Holds j d where
  counter t ht := (h.counter t ht).evolves (evolves_counter s c a) fun _ _ _ hφ => hφ
  manager n hn := (h.manager n hn).evolves (evolves_managers s i c a) fun _ _ _ hφ => hφ
  storage p hp := by
    obtain ⟨t, ht, hat⟩ := h.storage p hp
    exact ⟨t, ht, hat.evolves (evolves_counter s c a) fun _ _ hkeeps => hkeeps _ _⟩
  linked hl := by
    obtain ⟨n, hn, hat⟩ := h.linked hl
    exact ⟨n, hn, hat.evolves (evolves_managers s i c a) fun _ _ hsub hmem => hsub hmem⟩

/-- The pointer of an entry is allocated. -/
theorem at_of_lookup {β : Type} {m : PointerMap String β} {k : String} {n : ℕ}
    (h : m.entries.lookup k = some n) : m.At n fun _ => True :=
  ⟨_, List.getElem?_eq_getElem (m.lt_length k n h), trivial⟩

/-- What a connection holds after an operation of its own. -/
theorem Holds.connAfter (h : s.Holds i c) (hready : c.Ready a) :
    (s.perform i c a).Holds i (s.connAfter c a) := by
  have hkept := h.perform i c a
  cases a with
  | loadManager =>
    refine ⟨hkept.counter, fun n hn => ?_, hkept.storage, fun hl => ?_⟩
    · exact at_of_lookup (Slot.load_eq_held_iff.mp hn)
    · obtain ⟨n, hn, -⟩ := h.linked hl
      exact absurd (hn.symm.trans hready) nofun
  | storeManager =>
    refine ⟨hkept.counter, fun n hn => ?_, hkept.storage, fun hl => ?_⟩
    · cases hn
      exact s.linkManagers.at_store_self c.user trivial
    · obtain ⟨n, hn, -⟩ := h.linked hl
      exact absurd (hn.symm.trans hready.1) nofun
  | addLink n =>
    refine ⟨hkept.counter, hkept.manager, hkept.storage, fun _ => ⟨n, hready, ?_⟩⟩
    exact (h.manager n hready).modify fun _ _ => List.mem_cons_self
  | loadCounter =>
    refine ⟨fun t ht => ?_, hkept.manager, fun p hp => ?_, hkept.linked⟩
    · exact at_of_lookup (Slot.load_eq_held_iff.mp ht)
    · obtain ⟨t, ht, -⟩ := h.storage p hp
      exact absurd (ht.symm.trans hready) nofun
  | storeCounter =>
    refine ⟨fun t ht => ?_, hkept.manager, fun p hp => ?_, hkept.linked⟩
    · cases ht
      exact s.counter.at_store_self c.tag trivial
    · obtain ⟨t, ht, -⟩ := h.storage p hp
      exact absurd (ht.symm.trans hready) nofun
  | loadStorage t =>
    refine ⟨hkept.counter, hkept.manager, fun p hp => ⟨t, hready.1, ?_⟩, hkept.linked⟩
    obtain ⟨counter, hcounter, hp⟩ := Option.bind_eq_some_iff.mp (Slot.load_eq_held_iff.mp hp)
    exact ⟨counter, hcounter, hp⟩
  | loadOrStoreStorage t =>
    refine ⟨hkept.counter, hkept.manager, fun p hp => ⟨t, hready.1, ?_⟩, hkept.linked⟩
    obtain ⟨counter, hcounter, rfl⟩ := Option.map_eq_some_iff.mp (Slot.load_eq_held_iff.mp hp)
    have hat : s.counter.At t (· = counter) := ⟨counter, hcounter, rfl⟩
    exact hat.modify fun b hb => hb ▸ counter.lookup_getCounter c.user

end Holds

/-- Every entry of the maps is held by a connection of its key, and the links are those of
connections that hold the manager. -/
structure Owned (s : FirstUse) : Prop where
  counter : ∀ k t, s.counter.entries.lookup k = some t →
    ∃ (i : ℕ) (c : FirstConn), s.conns[i]? = some c ∧ c.tag = k ∧ c.counter = .held t
  manager : ∀ k n, s.linkManagers.entries.lookup k = some n →
    ∃ (i : ℕ) (c : FirstConn), s.conns[i]? = some c ∧ c.kind ≠ .routed ∧ c.user = k ∧
      c.manager = .held n
  link : ∀ n i, s.linkManagers.At n (i ∈ ·) →
    ∃ c : FirstConn, s.conns[i]? = some c ∧ c.manager = .held n

section Owned

variable {i : ℕ} {c : FirstConn} {a : FirstAction}

/-- New entries of the counters are held by the connection that makes the operation. -/
theorem counter_of_lookup_counterAfter {k : String} {t : ℕ}
    (h : (s.counterAfter c a).entries.lookup k = some t) :
    s.counter.entries.lookup k = some t ∨ c.tag = k ∧ (s.connAfter c a).counter = .held t := by
  cases a with
  | storeCounter =>
    rcases PointerMap.lookup_of_store h with h | ⟨rfl, rfl⟩
    · exact .inl h
    · exact .inr ⟨rfl, rfl⟩
  | _ => exact .inl h

theorem manager_of_lookup_managersAfter (hready : c.Ready a) {k : String} {n : ℕ}
    (h : (s.managersAfter i c a).entries.lookup k = some n) :
    s.linkManagers.entries.lookup k = some n ∨
      c.kind ≠ .routed ∧ c.user = k ∧ (s.connAfter c a).manager = .held n := by
  cases a with
  | storeManager =>
    rcases PointerMap.lookup_of_store h with h | ⟨rfl, rfl⟩
    · exact .inl h
    · exact .inr ⟨hready.2, rfl, rfl⟩
  | _ => exact .inl h

/-- A new link is that of the connection that makes the operation. -/
theorem link_of_at_managersAfter (hready : c.Ready a) {n j : ℕ}
    (h : (s.managersAfter i c a).At n (j ∈ ·)) :
    s.linkManagers.At n (j ∈ ·) ∨ j = i ∧ (s.connAfter c a).manager = .held n := by
  cases a with
  | storeManager =>
    rcases PointerMap.At.of_store h with h | hj
    · exact .inl h
    · cases hj
  | addLink m =>
    rcases PointerMap.At.of_modify h with h | ⟨rfl, links, hlinks, hj⟩
    · exact .inl h
    · rcases List.mem_cons.mp hj with rfl | hj
      · exact .inr ⟨rfl, hready⟩
      · exact .inl ⟨links, hlinks, hj⟩
  | _ => exact .inl h

theorem Owned.perform (h : s.Owned) (hi : s.conns[i]? = some c) (hready : c.Ready a) :
    (s.perform i c a).Owned where
  counter k t hk := by
    rcases counter_of_lookup_counterAfter hk with hk | ⟨hk, ht⟩
    · obtain ⟨j, d, hj, hd, ht⟩ := h.counter k t hk
      obtain ⟨d', hd', hcont⟩ := exists_conns_perform hi hready hj
      exact ⟨j, d', hd', hcont.tag.trans hd, hcont.counter t ht⟩
    · exact ⟨i, _, conns_perform_self hi, (continues_connAfter hready).tag.trans hk, ht⟩
  manager k n hk := by
    rcases manager_of_lookup_managersAfter hready hk with hk | ⟨hkind, hk, hn⟩
    · obtain ⟨j, d, hj, hkind, hd, hn⟩ := h.manager k n hk
      obtain ⟨d', hd', hcont⟩ := exists_conns_perform hi hready hj
      exact ⟨j, d', hd', hcont.kind ▸ hkind, hcont.user.trans hd, hcont.manager n hn⟩
    · have hcont := continues_connAfter (s := s) hready
      exact ⟨i, _, conns_perform_self hi, hcont.kind ▸ hkind, hcont.user.trans hk, hn⟩
  link n j hj := by
    rcases link_of_at_managersAfter hready hj with hj | ⟨rfl, hn⟩
    · obtain ⟨d, hd, hn⟩ := h.link n j hj
      obtain ⟨d', hd', hcont⟩ := exists_conns_perform hi hready hd
      exact ⟨d', hd', hcont.manager n hn⟩
    · exact ⟨_, conns_perform_self hi, hn⟩

end Owned

/-- The facts that hold in all runs. -/
structure Consistent (s : FirstUse) : Prop where
  holds : ∀ (i : ℕ) (c : FirstConn), s.conns[i]? = some c → s.Holds i c
  owned : s.Owned

/-- A connection that has just come holds nothing. -/
theorem conns_connect {kind : ConnKind} {tag user : String} {j : ℕ} {d : FirstConn}
    (h : (s.step (.connect kind tag user)).conns[j]? = some d) :
    d = { kind := kind, tag := tag, user := user } ∨ s.conns[j]? = some d := by
  change (s.conns ++ [_])[j]? = some d at h
  rw [List.getElem?_append] at h
  split_ifs at h
  · exact .inr h
  · exact .inl (List.mem_singleton.mp (List.mem_of_getElem? h))

theorem conns_connect_of_some {kind : ConnKind} {tag user : String} {j : ℕ} {d : FirstConn}
    (h : s.conns[j]? = some d) : (s.step (.connect kind tag user)).conns[j]? = some d := by
  change (s.conns ++ [_])[j]? = some d
  rw [List.getElem?_append_left (List.getElem?_eq_some_iff.mp h).1, h]

theorem Consistent.connect (h : s.Consistent) (kind : ConnKind) (tag user : String) :
    (s.step (.connect kind tag user)).Consistent where
  holds i c hi := by
    rcases conns_connect hi with rfl | hi
    · exact ⟨nofun, nofun, nofun, nofun⟩
    · obtain ⟨hcounter, hmanager, hstorage, hlinked⟩ := h.holds i c hi
      exact ⟨hcounter, hmanager, hstorage, hlinked⟩
  owned := by
    refine ⟨fun k t hk => ?_, fun k n hk => ?_, fun n i hat => ?_⟩
    · obtain ⟨j, d, hj, hd⟩ := h.owned.counter k t hk
      exact ⟨j, d, conns_connect_of_some hj, hd⟩
    · obtain ⟨j, d, hj, hd⟩ := h.owned.manager k n hk
      exact ⟨j, d, conns_connect_of_some hj, hd⟩
    · obtain ⟨d, hd, hn⟩ := h.owned.link n i hat
      exact ⟨d, conns_connect_of_some hd, hn⟩

theorem Consistent.perform (h : s.Consistent) {i : ℕ} {c : FirstConn} {a : FirstAction}
    (hi : s.conns[i]? = some c) (hready : c.Ready a) : (s.perform i c a).Consistent where
  holds j d hj := by
    rcases conns_perform hj with ⟨rfl, rfl⟩ | hj
    · exact (h.holds j c hi).connAfter hready
    · exact (h.holds j d hj).perform i c a
  owned := h.owned.perform hi hready

theorem Consistent.step (h : s.Consistent) (e : FirstEvent) : (s.step e).Consistent := by
  rcases step_cases s e with ⟨kind, tag, user, rfl⟩ | hsame | ⟨i, c, a, -, hi, ha, hstep⟩
  · exact h.connect kind tag user
  · rw [hsame]
    exact h
  · rw [hstep]
    exact h.perform hi (FirstConn.ready_of_next ha)

theorem consistent_start : ({} : FirstUse).Consistent where
  holds i c hi := by cases hi
  owned := by
    have hlookup {β : Type} (k : String) (n : ℕ) :
        (PointerMap.empty : PointerMap String β).entries.lookup k ≠ some n := by
      change (∅ : GoMap String ℕ).lookup k ≠ some n
      rw [Finmap.lookup_empty]
      exact nofun
    refine ⟨fun k t hk => absurd hk (hlookup k t), fun k n hk => absurd hk (hlookup k n), ?_⟩
    rintro n i ⟨links, hlinks, -⟩
    cases hlinks

/-! ### Finding what the connections hold -/

/-- Every storage that a connection has got is the one that `GetUserTrafficSlice` finds for its tag
and user, and every link is in the manager that `DelUsers` finds for its user. -/
def Found (s : FirstUse) : Prop :=
  ∀ (i : ℕ) (c : FirstConn), s.conns[i]? = some c →
    (∀ p, c.storage = .held p → ∃ t, c.counter = .held t ∧
      s.counter.entries.lookup c.tag = some t ∧
      s.counter.At t fun counter => counter.counters.lookup c.user = some p) ∧
    (c.linked = true → ∃ n, s.linkManagers.entries.lookup c.user = some n ∧
      s.linkManagers.At n (i ∈ ·))

/-- A connection that stores a counter or a manager finds the key absent. -/
def NoOverwrite (s : FirstUse) : FirstEvent → Prop
  | .connect _ _ _ => True
  | .advance i => ∀ c ∈ s.conns[i]?,
      (c.next = some .storeCounter → s.counter.entries.lookup c.tag = none) ∧
      (c.next = some .storeManager → s.linkManagers.entries.lookup c.user = none)

instance (s : FirstUse) : ∀ e, Decidable (s.NoOverwrite e)
  | .connect _ _ _ => inferInstanceAs (Decidable True)
  | .advance i => inferInstanceAs (Decidable (∀ c ∈ s.conns[i]?, (_ → _) ∧ (_ → _)))

/-- The maps lead to the counters and managers that the connections hold. -/
def Stored (s : FirstUse) : Prop :=
  ∀ (i : ℕ) (c : FirstConn), s.conns[i]? = some c →
    (∀ t, c.counter = .held t → s.counter.entries.lookup c.tag = some t) ∧
    (∀ n, c.manager = .held n → s.linkManagers.entries.lookup c.user = some n)

theorem Stored.found (h : s.Stored) (hs : s.Consistent) : s.Found := by
  refine fun i c hi => ⟨fun p hp => ?_, fun hl => ?_⟩
  · obtain ⟨t, ht, hat⟩ := (hs.holds i c hi).storage p hp
    exact ⟨t, ht, (h i c hi).1 t ht, hat⟩
  · obtain ⟨n, hn, hat⟩ := (hs.holds i c hi).linked hl
    exact ⟨n, (h i c hi).2 n hn, hat⟩

section Stored

variable {i : ℕ} {c : FirstConn} {a : FirstAction}

theorem lookup_counterAfter (hok : a = .storeCounter → s.counter.entries.lookup c.tag = none)
    {k : String} {t : ℕ} (h : s.counter.entries.lookup k = some t) :
    (s.counterAfter c a).entries.lookup k = some t := by
  cases a with
  | storeCounter => exact PointerMap.lookup_store_of_absent (hok rfl) _ h
  | _ => exact h

theorem lookup_managersAfter
    (hok : a = .storeManager → s.linkManagers.entries.lookup c.user = none) {k : String} {n : ℕ}
    (h : s.linkManagers.entries.lookup k = some n) :
    (s.managersAfter i c a).entries.lookup k = some n := by
  cases a with
  | storeManager => exact PointerMap.lookup_store_of_absent (hok rfl) _ h
  | _ => exact h

/-- The counter that a connection holds after an operation is the old one, or the one to which the
map leads. -/
theorem counter_connAfter_eq_held {t : ℕ} (h : (s.connAfter c a).counter = .held t) :
    c.counter = .held t ∨ (s.counterAfter c a).entries.lookup c.tag = some t := by
  cases a with
  | loadCounter => exact .inr (Slot.load_eq_held_iff.mp h)
  | storeCounter =>
    cases h
    exact .inr (s.counter.lookup_store_self _ _)
  | _ => exact .inl h

theorem manager_connAfter_eq_held {n : ℕ} (h : (s.connAfter c a).manager = .held n) :
    c.manager = .held n ∨ (s.managersAfter i c a).entries.lookup c.user = some n := by
  cases a with
  | loadManager => exact .inr (Slot.load_eq_held_iff.mp h)
  | storeManager =>
    cases h
    exact .inr (s.linkManagers.lookup_store_self _ _)
  | _ => exact .inl h

theorem Stored.perform (h : s.Stored) (hi : s.conns[i]? = some c) (hready : c.Ready a)
    (hcounter : a = .storeCounter → s.counter.entries.lookup c.tag = none)
    (hmanager : a = .storeManager → s.linkManagers.entries.lookup c.user = none) :
    (s.perform i c a).Stored := by
  intro j d hj
  rcases conns_perform hj with ⟨rfl, rfl⟩ | hj
  · have hcont := continues_connAfter (s := s) hready
    rw [hcont.tag, hcont.user]
    refine ⟨fun t ht => ?_, fun n hn => ?_⟩
    · rcases counter_connAfter_eq_held ht with ht | ht
      · exact lookup_counterAfter hcounter ((h j c hi).1 t ht)
      · exact ht
    · rcases manager_connAfter_eq_held hn with hn | hn
      · exact lookup_managersAfter hmanager ((h j c hi).2 n hn)
      · exact hn
  · exact ⟨fun t ht => lookup_counterAfter hcounter ((h j d hj).1 t ht),
      fun n hn => lookup_managersAfter hmanager ((h j d hj).2 n hn)⟩

theorem Stored.step (h : s.Stored) (e : FirstEvent) (hok : s.NoOverwrite e) :
    (s.step e).Stored := by
  rcases step_cases s e with ⟨kind, tag, user, rfl⟩ | hsame | ⟨i, c, a, rfl, hi, ha, hstep⟩
  · intro j d hj
    rcases conns_connect hj with rfl | hj
    · exact ⟨nofun, nofun⟩
    · exact h j d hj
  · rw [hsame]
    exact h
  · rw [hstep]
    have hfree := hok c hi
    exact h.perform hi (FirstConn.ready_of_next ha) (fun hstore => hfree.1 (hstore ▸ ha))
      fun hstore => hfree.2 (hstore ▸ ha)

end Stored

/-! ### Overwritten entries -/

/-- A connection holds a counter or a manager that the map has lost. -/
def Orphaned (s : FirstUse) : Prop :=
  ∃ (i : ℕ) (c : FirstConn), s.conns[i]? = some c ∧
    ((∃ t, c.counter = .held t ∧ s.counter.Lost c.tag t) ∨
      (c.kind ≠ .routed ∧ ∃ n, c.manager = .held n ∧ s.linkManagers.Lost c.user n))

theorem Orphaned.step (h : s.Orphaned) (e : FirstEvent) : (s.step e).Orphaned := by
  obtain ⟨j, d, hj, hlost⟩ := h
  rcases step_cases s e with ⟨kind, tag, user, rfl⟩ | hsame | ⟨i, c, a, -, hi, ha, hstep⟩
  · exact ⟨j, d, conns_connect_of_some hj, hlost⟩
  · rw [hsame]
    exact ⟨j, d, hj, hlost⟩
  · obtain ⟨d', hd', hcont⟩ := exists_conns_perform hi (FirstConn.ready_of_next ha) hj
    rw [hstep]
    refine ⟨j, d', hd', ?_⟩
    rw [hcont.tag, hcont.user, hcont.kind]
    rcases hlost with ⟨t, ht, hlost⟩ | ⟨hkind, n, hn, hlost⟩
    · exact .inl ⟨t, hcont.counter t ht, hlost.evolves (evolves_counter s c a)⟩
    · exact .inr ⟨hkind, n, hcont.manager n hn, hlost.evolves (evolves_managers s i c a)⟩

/-- A `Store` that finds its key present leaves the connection of the old entry without it. -/
theorem orphaned_of_overwrite (h : s.Consistent) {e : FirstEvent} (hnot : ¬ s.NoOverwrite e) :
    (s.step e).Orphaned := by
  cases e with
  | connect kind tag user => exact absurd trivial hnot
  | advance i =>
    simp only [NoOverwrite, Option.mem_def, not_forall] at hnot
    obtain ⟨c, hi, hnot⟩ := hnot
    have hperform {a : FirstAction} (ha : c.next = some a) :
        s.step (.advance i) = s.perform i c a := by
      simp only [step, hi, ha]
    rcases not_and_or.mp hnot with hnot | hnot
    · obtain ⟨ha, hk⟩ := Classical.not_imp.mp hnot
      obtain ⟨t, ht⟩ := Option.ne_none_iff_exists'.mp hk
      obtain ⟨j, d, hj, hd, hheld⟩ := h.owned.counter c.tag t ht
      obtain ⟨d', hd', hcont⟩ := exists_conns_perform hi (FirstConn.ready_of_next ha) hj
      rw [hperform ha]
      refine ⟨j, d', hd', .inl ⟨t, hcont.counter t hheld, ?_⟩⟩
      rw [hcont.tag, hd]
      exact PointerMap.lost_store ht _
    · obtain ⟨ha, hk⟩ := Classical.not_imp.mp hnot
      obtain ⟨n, hn⟩ := Option.ne_none_iff_exists'.mp hk
      obtain ⟨j, d, hj, hkind, hd, hheld⟩ := h.owned.manager c.user n hn
      obtain ⟨d', hd', hcont⟩ := exists_conns_perform hi (FirstConn.ready_of_next ha) hj
      rw [hperform ha]
      refine ⟨j, d', hd', .inr ⟨hcont.kind ▸ hkind, n, hcont.manager n hheld, ?_⟩⟩
      rw [hcont.user, hd]
      exact PointerMap.lost_store hn _

/-- All connections have come to their end. -/
def Done (s : FirstUse) : Prop :=
  ∀ c ∈ s.conns, c.next = none

/-- What is lost for a connection is not found, once the connection has come to its end. -/
theorem Orphaned.not_found (h : s.Orphaned) (hs : s.Consistent) (hdone : s.Done) : ¬ s.Found := by
  intro hfound
  obtain ⟨i, c, hi, hlost⟩ := h
  have hend := hdone c (List.mem_of_getElem? hi)
  rcases hlost with ⟨t, ht, hlost⟩ | ⟨hkind, n, hn, hlost⟩
  · obtain ⟨t', p, ht', hp⟩ := FirstConn.storage_of_next_eq_none hend
    obtain ⟨u, hu, hlookup, -⟩ := (hfound i c hi).1 p hp
    cases ht.symm.trans hu
    exact hlost.2 hlookup
  · have hlinked := FirstConn.linked_of_next_eq_none hend hkind hn
    obtain ⟨m, hm, hat⟩ := (hfound i c hi).2 hlinked
    -- the link is only in the manager that the connection holds
    obtain ⟨d, hd, hheld⟩ := hs.owned.link m i hat
    cases hi.symm.trans hd
    cases hn.symm.trans hheld
    exact hlost.2 hm

/-- **First use.** If no `Store` of a run finds its key present, then in every state of the run all
storages and links are found. If a run in which all connections have come to their end finds them
all, then no `Store` has found its key present. -/
theorem found_iff_noOverwrite (es : List FirstEvent) :
    (Guarded step NoOverwrite {} es → ∀ p q, es = p ++ q → (p.foldl step {}).Found) ∧
    ((es.foldl step {}).Done → (es.foldl step {}).Found → Guarded step NoOverwrite {} es) := by
  have hconsistent (p : List FirstEvent) : (p.foldl step {}).Consistent :=
    List.foldlRecOn p step consistent_start fun s hs e _ => hs.step e
  constructor
  · rintro h p q rfl
    have hstep : ∀ s e, Stored s → NoOverwrite s e → Stored (step s e) :=
      fun s e hs hok => hs.step e hok
    have hinit : Stored {} := fun i c hi => by cases hi
    exact (Guarded.invariant hstep hinit h.of_append).found (hconsistent p)
  · intro hdone hfound
    have hstep : ∀ s e, Consistent s → Consistent (step s e) := fun s e hs => hs.step e
    have hbad : ∀ s e, Consistent s → ¬ NoOverwrite s e → Orphaned (step s e) :=
      fun s e hs hnot => orphaned_of_overwrite hs hnot
    have hstay : ∀ s e, Orphaned s → Orphaned (step s e) := fun s e hs => hs.step e
    refine Guarded.of_not_bad hstep hbad hstay consistent_start fun horphaned => ?_
    exact horphaned.not_found (hconsistent es) hdone hfound

/-- Two connections of the hook and two of the dispatcher, of which the second starts when the first
has stored. -/
theorem found_one_after_another :
    let es : List FirstEvent :=
      [.connect .routed "n" "a", .advance 0, .advance 0, .connect .routed "n" "a", .advance 1,
        .connect .getLink "x" "b", .advance 2, .advance 2, .connect .dispatchLink "x" "b",
        .advance 3, .advance 2, .advance 2, .advance 2, .advance 3]
    Guarded step NoOverwrite {} es ∧ (es.foldl step {}).Found := by
  intro es
  have hguard : Guarded step NoOverwrite {} es := by decide +kernel
  exact ⟨hguard, (found_iff_noOverwrite es).1 hguard es [] (List.append_nil es).symm⟩

/-- Two connections that have both loaded before either stores: the first loses its storage in the
hook, and its link in the dispatcher. -/
theorem lost_on_first_use :
    ¬ ([.connect .routed "n" "a", .connect .routed "n" "b", .advance 0, .advance 1, .advance 0,
        .advance 1, .advance 0, .advance 0].foldl step {}).Found ∧
      ¬ ([.connect .getLink "n" "a", .connect .getLink "n" "a", .advance 0, .advance 1, .advance 0,
        .advance 1, .advance 0].foldl step {}).Found := by
  constructor
  · intro h
    obtain ⟨t, ht, hlookup, -⟩ := (h 0 _ rfl).1 0 rfl
    cases ht
    revert hlookup
    decide +kernel
  · intro h
    obtain ⟨n, hn, links, hlinks, hmem⟩ := (h 0 _ rfl).2 rfl
    have hn' : some 1 = some n := hn
    cases hn'
    cases hlinks
    cases hmem

end FirstUse

end Tox.Core
