import Mathlib
import Tox.Foundation.Run
import Tox.Core.Traffic

/-!
# Counting while a report is taken

Connections add to the counters of their users while `GetUserTrafficSlice` reads them and sets them
to zero. Reading and clearing are separate atomic operations, on two counters, so that an amount
that is added in between is cleared without having been read.

A `TrafficMachine` is a node with any number of connections and calls; every event is one atomic
operation. A call that is not interrupted is the loop of `rangeCounters`
(`exists_iterate_step_eq_rangeCounters`). If every counter of a user that a call clears still holds
what the call has read from it (`Undisturbed`), every amount that is added for the user is reported
or still in the counter (`reported_add_count_eq_added`).
-/

namespace Tox.Core

open Tox.Foundation Tox.Counter Tox.Panel

/-! ### The operations of a call -/

/-- The next operation of a call of `GetUserTrafficSlice` that resets the counters, with the key,
the storage and the amounts that the round of the loop has read so far. -/
inductive Phase
  /-- The loop goes on to the next key. -/
  | next
  | loadUp (key : String) (p : ℕ)
  | loadDown (key : String) (p : ℕ) (up : Int64)
  | storeUp (key : String) (p : ℕ) (up down : Int64)
  | storeDown (key : String) (p : ℕ) (up down : Int64)
  /-- The entry is appended, or the key without a user id deleted. -/
  | finish (key : String) (p : ℕ) (up down : Int64)
deriving DecidableEq, Repr

/-- A call: the keys that are still to visit, the next operation and the entries so far. -/
structure Call where
  todo : List String
  phase : Phase := .next
  slice : List UserTraffic := []

section Call

variable (uidOf : String → ℤ) (min : Int64)

/-- One operation of a call. -/
def Call.step (state : TrafficCounter × Call) : TrafficCounter × Call :=
  let (c, x) := state
  match x.phase with
  | .next =>
    match x.todo with
    | [] => (c, x)
    | key :: todo =>
      match c.counters.lookup key with
      | none => (c, { x with todo := todo })
      | some p => (c, { x with todo := todo, phase := .loadUp key p })
  | .loadUp key p => (c, { x with phase := .loadDown key p (c.load p).upCounter })
  | .loadDown key p up =>
    let down := (c.load p).downCounter
    if up + down > min then (c, { x with phase := .storeUp key p up down })
    else (c, { x with phase := .next })
  | .storeUp key p up down => (c.clear p .up, { x with phase := .storeDown key p up down })
  | .storeDown key p up down => (c.clear p .down, { x with phase := .finish key p up down })
  | .finish key _ up down =>
    if uidOf key = 0 then (c.delete key, { x with phase := .next })
    else (c, { x with phase := .next, slice := x.slice ++ [⟨uidOf key, up, down⟩] })

/-- The operations of a call at one key, without interruption, are a round of the loop. -/
theorem exists_iterate_step_eq_visit (c : TrafficCounter) (key : String) (todo : List String)
    (slice : List UserTraffic) :
    ∃ n, (Call.step uidOf min)^[n] (c, { todo := key :: todo, slice := slice }) =
      ((visit uidOf min true (c, slice) key).1,
        { todo := todo, slice := (visit uidOf min true (c, slice) key).2 }) := by
  cases hp : c.counters.lookup key with
  | none => exact ⟨1, by simp only [Function.iterate_one, Call.step, visit, hp]⟩
  | some p =>
    by_cases hmin : (c.load p).upCounter + (c.load p).downCounter > min
    · refine ⟨6, ?_⟩
      simp only [Function.iterate_succ, Function.iterate_zero, Function.comp_apply, id_eq,
        Call.step, hp, visit, if_pos hmin, if_true, TrafficCounter.clear_clear]
      split_ifs <;> rfl
    · refine ⟨3, ?_⟩
      simp only [Function.iterate_succ, Function.iterate_zero, Function.comp_apply, id_eq,
        Call.step, hp, visit, if_neg hmin]

/-- The operations of a call, without interruption, are the rounds of the loop. -/
theorem exists_iterate_step_eq_foldl_visit (keys : List String) (c : TrafficCounter)
    (slice : List UserTraffic) :
    ∃ n, (Call.step uidOf min)^[n] (c, { todo := keys, slice := slice }) =
      ((keys.foldl (visit uidOf min true) (c, slice)).1,
        { todo := [], slice := (keys.foldl (visit uidOf min true) (c, slice)).2 }) := by
  induction keys generalizing c slice with
  | nil => exact ⟨0, rfl⟩
  | cons key keys ih =>
    obtain ⟨m, hm⟩ := exists_iterate_step_eq_visit uidOf min c key keys slice
    obtain ⟨n, hn⟩ := ih (visit uidOf min true (c, slice) key).1
      (visit uidOf min true (c, slice) key).2
    exact ⟨n + m, by rw [Function.iterate_add_apply, hm, hn, List.foldl_cons]⟩

/-- **A call alone.** Without interruption a call leaves the counters and returns the slice of the
loop. -/
theorem exists_iterate_step_eq_rangeCounters (range : RangeOrder String) (c : TrafficCounter) :
    ∃ n, (Call.step uidOf min)^[n] (c, { todo := range.keys c.counters }) =
      ((rangeCounters uidOf min true range c).1,
        { todo := [], slice := (rangeCounters uidOf min true range c).2 }) :=
  exists_iterate_step_eq_foldl_visit uidOf min (range.keys c.counters) c []

end Call

/-! ### Connections and calls -/

/-- A node with its connections and calls. -/
structure TrafficMachine where
  counter : TrafficCounter
  calls : List Call := []
  /-- The amounts added so far, with the storage and the direction. -/
  added : List (ℕ × Direction × Int64) := []

/-- The atomic operations of connections and calls. -/
inductive MachineEvent
  /-- A connection of a user gets its storage. -/
  | connect (key : String)
  /-- A connection adds to a counter of the storage it holds. -/
  | add (p : ℕ) (d : Direction) (n : Int64)
  /-- A call starts; its loop meets the given keys. -/
  | call (keys : List String)
  /-- The call at a position does its next operation. -/
  | step (i : ℕ)

/-- The total of a slice for a user id in one direction. -/
def sliceTotal (slice : List UserTraffic) (uid : ℤ) (d : Direction) : Int64 :=
  (slice.map fun t => if t.uid = uid then t.get d else 0).sum

namespace TrafficMachine

/-- One operation. -/
def step (uidOf : String → ℤ) (min : Int64) (s : TrafficMachine) : MachineEvent → TrafficMachine
  | .connect key => { s with counter := (s.counter.getCounter key).1 }
  | .add p d n => { s with counter := s.counter.addTo p d n, added := (p, d, n) :: s.added }
  | .call keys => { s with calls := s.calls ++ [{ todo := keys }] }
  | .step i =>
    match s.calls[i]? with
    | none => s
    | some x =>
      let (c, x) := Call.step uidOf min (s.counter, x)
      { s with counter := c, calls := s.calls.set i x }

/-- What the calls have reported for a user id in one direction. -/
def reported (s : TrafficMachine) (uid : ℤ) (d : Direction) : Int64 :=
  (s.calls.map fun x => sliceTotal x.slice uid d).sum

/-- What has been added to a storage in one direction. -/
def addedTo (s : TrafficMachine) (p : ℕ) (d : Direction) : Int64 :=
  (s.added.filterMap fun a => if a.1 = p ∧ a.2.1 = d then some a.2.2 else none).sum

end TrafficMachine

namespace Phase

/-- The key and the storage of the round. -/
def target : Phase → Option (String × ℕ)
  | .next => none
  | .loadUp key p | .loadDown key p _ | .storeUp key p _ _ | .storeDown key p _ _
  | .finish key p _ _ => some (key, p)

/-- The counter that the next operation clears, with the amount that the round has read from it. -/
def clears : Phase → Option (ℕ × Direction × Int64)
  | .storeUp _ p up _ => some (p, .up, up)
  | .storeDown _ p _ down => some (p, .down, down)
  | _ => none

/-- The amount that the round has taken out of a counter and not reported yet. -/
def taken (p : ℕ) (d : Direction) : Phase → Int64
  | .storeDown _ q up _ => if q = p ∧ d = .up then up else 0
  | .finish _ q up down => if q = p then (⟨0, up, down⟩ : UserTraffic).get d else 0
  | _ => 0

@[simp] theorem taken_next (p : ℕ) (d : Direction) : next.taken p d = 0 := rfl

end Phase

/-- A counter of the storage `p` that a call clears still holds what the call has read from it. -/
def Undisturbed (p : ℕ) (s : TrafficMachine) : MachineEvent → Prop
  | .step i => ∀ x, s.calls[i]? = some x → ∀ d v, x.phase.clears = some (p, d, v) →
      (s.counter.load p).get d = v
  | _ => True

/-! ### One operation of a call -/

/-- The total of a call for the user of the storage `p`: what it reports, and what it has taken out
of the counter. -/
def Call.total (uid : ℤ) (p : ℕ) (d : Direction) (x : Call) : Int64 :=
  sliceTotal x.slice uid d + x.phase.taken p d

/-- The call is at the storage `p` exactly if it is at the key `k`. -/
def Tracks (k : String) (p : ℕ) (x : Call) : Prop :=
  ∀ key q, x.phase.target = some (key, q) → (key = k ↔ q = p)

section Step

variable {uidOf : String → ℤ} {min : Int64} {k : String} {p : ℕ} {d : Direction}
  {c : TrafficCounter} {x : Call}

/-- A registered user keeps its storage. -/
theorem lookup_step (huid : uidOf k ≠ 0) (hp : c.counters.lookup k = some p) :
    (Call.step uidOf min (c, x)).1.counters.lookup k = some p := by
  unfold Call.step
  dsimp only
  split
  · split
    · exact hp
    · split <;> exact hp
  · exact hp
  · split_ifs <;> exact hp
  · exact hp
  · exact hp
  · rename_i key _ up down _
    split_ifs with hkey
    · have hne : k ≠ key := fun h => huid (h ▸ hkey)
      rw [TrafficCounter.counters_delete, Finmap.lookup_erase_ne hne, hp]
    · exact hp

/-- A call that is at no key tracks every user. -/
theorem Tracks.of_next {todo : List String} {slice : List UserTraffic} :
    Tracks k p { todo := todo, slice := slice } := fun _ _ h => by cases h

/-- A call goes on tracking the user: it meets the storage of the user at the key of the user. -/
theorem Tracks.step (h : Tracks k p x) (hp : c.counters.lookup k = some p) :
    Tracks k p (Call.step uidOf min (c, x)).2 := by
  obtain ⟨todo, phase, slice⟩ := x
  cases phase with
  | next =>
    cases todo with
    | nil => exact .of_next
    | cons key todo =>
      cases hq : c.counters.lookup key with
      | none => simpa only [Call.step, hq] using .of_next
      | some q =>
        simp only [Call.step, hq]
        rintro _ _ ⟨⟩
        constructor
        · rintro rfl
          exact Option.some.inj (hq.symm.trans hp)
        · rintro rfl
          exact c.injective key k q hq hp
  | loadUp key q => exact h
  | loadDown key q up =>
    simp only [Call.step]
    split_ifs
    · exact h
    · exact .of_next
  | storeUp key q up down => exact h
  | storeDown key q up down => exact h
  | finish key q up down =>
    simp only [Call.step]
    split_ifs <;> exact .of_next

/-- An operation of a call moves amounts between the counter of the user and the call, if a counter
that it clears holds what the call has read. -/
theorem total_step (huid : uidOf k ≠ 0) (huniq : ∀ j, uidOf j = uidOf k → j = k)
    (h : Tracks k p x) (hlt : p < c.storages.length)
    (hclears : ∀ v, x.phase.clears = some (p, d, v) → (c.load p).get d = v) :
    (Call.step uidOf min (c, x)).2.total (uidOf k) p d +
        ((Call.step uidOf min (c, x)).1.load p).get d =
      x.total (uidOf k) p d + (c.load p).get d := by
  obtain ⟨todo, phase, slice⟩ := x
  cases phase with
  | next =>
    cases todo with
    | nil => rfl
    | cons key todo =>
      simp only [Call.step]
      split <;> rfl
  | loadUp key q => rfl
  | loadDown key q up =>
    simp only [Call.step]
    split_ifs <;> rfl
  | storeUp key q up down =>
    simp only [Call.step, Call.total, Phase.taken, c.get_load_clear hlt]
    split_ifs with hq
    · obtain ⟨rfl, rfl⟩ := hq
      rw [hclears up rfl, Int64.add_zero, Int64.add_zero]
    · rfl
  | storeDown key q up down =>
    simp only [Call.step, Call.total, Phase.taken, c.get_load_clear hlt]
    by_cases hq : q = p
    · subst hq
      cases d with
      | up => simp [UserTraffic.get]
      | down =>
        rw [hclears down rfl]
        simp [UserTraffic.get]
    · simp [hq]
  | finish key q up down =>
    have hiff : key = k ↔ q = p := h key q rfl
    simp only [Call.step, Call.total, Phase.taken]
    split_ifs with hkey hq hq
    · exact absurd (hiff.mpr hq ▸ hkey) huid
    · rfl
    · obtain rfl := hiff.mpr hq
      simp [sliceTotal, UserTraffic.get]
    · have hne : uidOf key ≠ uidOf k := fun h => hq (hiff.mp (huniq key h))
      simp [sliceTotal, hne]

end Step

/-! ### Conservation -/

theorem sum_map_set (f : Call → Int64) {xs : List Call} {i : ℕ} {x : Call}
    (hx : xs[i]? = some x) (y : Call) :
    ((xs.set i y).map f).sum + f x = (xs.map f).sum + f y := by
  induction xs generalizing i with
  | nil => cases hx
  | cons z xs ih =>
    cases i with
    | zero =>
      cases hx
      simp only [List.set_cons_zero, List.map_cons, List.sum_cons]
      grind
    | succ i =>
      have hrest := ih (i := i) (by simpa using hx)
      simp only [List.set_cons_succ, List.map_cons, List.sum_cons]
      grind

/-- The user `k` has the storage `p`, the calls track it, and what the calls have taken together
with the contents of the counter is what the counter held at first and what has been added. -/
structure Balanced (uid : ℤ) (k : String) (p : ℕ) (d : Direction) (base : Int64)
    (s : TrafficMachine) : Prop where
  lookup_eq : s.counter.counters.lookup k = some p
  tracks : ∀ x ∈ s.calls, Tracks k p x
  total : (s.calls.map (Call.total uid p d)).sum + (s.counter.load p).get d =
    base + s.addedTo p d

namespace Balanced

variable {uidOf : String → ℤ} {min : Int64} {uid : ℤ} {k : String} {p : ℕ} {d : Direction}
  {base : Int64} {s : TrafficMachine}

theorem connect (h : Balanced uid k p d base s) (key : String) :
    Balanced uid k p d base (s.step uidOf min (.connect key)) where
  lookup_eq := s.counter.lookup_getCounter_of_some h.lookup_eq key
  tracks := h.tracks
  total := by
    have hload : ((s.step uidOf min (.connect key)).counter.load p).get d =
        (s.counter.load p).get d :=
      congrArg (TrafficStorage.get · d) (s.counter.load_getCounter key p)
    rw [hload]
    exact h.total

theorem add (h : Balanced uid k p d base s) (q : ℕ) (d' : Direction) (n : Int64) :
    Balanced uid k p d base (s.step uidOf min (.add q d' n)) := by
  refine ⟨h.lookup_eq, h.tracks, ?_⟩
  have hload := s.counter.get_load_addTo (s.counter.lt_length k p h.lookup_eq) q d d' n
  have htotal := h.total
  change (s.calls.map _).sum + ((s.counter.addTo q d' n).load p).get d = _
  simp only [hload, TrafficMachine.addedTo, TrafficMachine.step, List.filterMap_cons,
    eq_comm (a := d)] at htotal ⊢
  split_ifs
  · rw [List.sum_cons]
    grind
  · exact htotal

theorem call (h : Balanced uid k p d base s) (keys : List String) :
    Balanced uid k p d base (s.step uidOf min (.call keys)) := by
  refine ⟨h.lookup_eq, fun x hx => ?_, ?_⟩
  · rcases List.mem_append.mp hx with hx | hx
    · exact h.tracks x hx
    · obtain rfl := List.mem_singleton.mp hx
      exact .of_next
  · have hnew : ((s.calls ++ [({ todo := keys } : Call)]).map (Call.total uid p d)).sum =
        (s.calls.map (Call.total uid p d)).sum := by
      simp [Call.total, sliceTotal]
    change ((s.calls ++ [({ todo := keys } : Call)]).map (Call.total uid p d)).sum + _ = _
    rw [hnew]
    exact h.total

/-- An operation of a call keeps the total. -/
theorem step (h : Balanced (uidOf k) k p d base s) (huid : uidOf k ≠ 0)
    (huniq : ∀ j, uidOf j = uidOf k → j = k) {i : ℕ} (hok : Undisturbed p s (.step i)) :
    Balanced (uidOf k) k p d base (s.step uidOf min (.step i)) := by
  cases hi : s.calls[i]? with
  | none => simpa only [TrafficMachine.step, hi] using h
  | some x =>
    have hlt := s.counter.lt_length k p h.lookup_eq
    have hx := h.tracks x (List.mem_of_getElem? hi)
    have hstep : s.step uidOf min (.step i) =
        { s with
          counter := (Call.step uidOf min (s.counter, x)).1
          calls := s.calls.set i (Call.step uidOf min (s.counter, x)).2 } := by
      simp only [TrafficMachine.step, hi]
    rw [hstep]
    refine ⟨lookup_step huid h.lookup_eq, fun y hy => ?_, ?_⟩
    · rcases List.mem_or_eq_of_mem_set hy with hy | rfl
      · exact h.tracks y hy
      · exact hx.step h.lookup_eq
    · have hset := sum_map_set (Call.total (uidOf k) p d) hi
        (Call.step uidOf min (s.counter, x)).2
      have hmove : (Call.step uidOf min (s.counter, x)).2.total (uidOf k) p d +
          ((Call.step uidOf min (s.counter, x)).1.load p).get d =
            x.total (uidOf k) p d + (s.counter.load p).get d :=
        total_step huid huniq hx hlt (hok x hi d)
      have htotal := h.total
      change _ = base + s.addedTo p d
      grind

/-- Every operation that meets the condition keeps the balance. -/
theorem event (h : Balanced (uidOf k) k p d base s) (huid : uidOf k ≠ 0)
    (huniq : ∀ j, uidOf j = uidOf k → j = k) (e : MachineEvent) (hok : Undisturbed p s e) :
    Balanced (uidOf k) k p d base (s.step uidOf min e) := by
  cases e with
  | connect key => exact h.connect key
  | add q d' n => exact h.add q d' n
  | call keys => exact h.call keys
  | step i => exact h.step huid huniq hok

end Balanced

/-- **No amount is lost between reading and clearing.** Let a registered user have a storage, and
let connections and calls of `GetUserTrafficSlice` work on the counters, one atomic operation at a
time in any order, such that a counter of the user that a call clears still holds what the call has
read from it. When every call has finished the rounds it began, what the calls have reported for
the user together with the counter is what the counter held at first and what has been added. -/
theorem reported_add_count_eq_added (uidOf : String → ℤ) (min : Int64) (c : TrafficCounter)
    (k : String) (p : ℕ) (hp : c.counters.lookup k = some p) (huid : uidOf k ≠ 0)
    (huniq : ∀ j, uidOf j = uidOf k → j = k) (events : List MachineEvent)
    (hevents : Guarded (TrafficMachine.step uidOf min) (Undisturbed p) { counter := c } events)
    (d : Direction) :
    let s := events.foldl (TrafficMachine.step uidOf min) { counter := c }
    (∀ x ∈ s.calls, x.phase = .next) →
      s.reported (uidOf k) d + s.counter.getCount k d = c.getCount k d + s.addedTo p d := by
  intro s hdone
  have hstart : Balanced (uidOf k) k p d (c.getCount k d) { counter := c } := by
    refine ⟨hp, fun x hx => absurd hx List.not_mem_nil, ?_⟩
    rw [TrafficCounter.getCount_of_lookup hp]
    exact Int64.add_comm 0 _
  have hs : Balanced (uidOf k) k p d (c.getCount k d) s :=
    hevents.invariant (fun s e h hok => h.event huid huniq e hok) hstart
  have hreported : s.reported (uidOf k) d = (s.calls.map (Call.total (uidOf k) p d)).sum := by
    refine congrArg List.sum (List.map_congr_left fun x hx => ?_)
    rw [Call.total, hdone x hx, Phase.taken_next, Int64.add_zero]
  rw [hreported, TrafficCounter.getCount_of_lookup hs.lookup_eq, hs.total]

/-- A counter with one user, who has the storage `0`. -/
def oneUserCounter : TrafficCounter := TrafficCounter.newTrafficCounter.allocate "a"

/-- A report of ten bytes, with five bytes that are added after the given number of operations of
the call. -/
def addDuringCall (n : ℕ) : List MachineEvent :=
  [MachineEvent.add 0 .up 10, MachineEvent.call ["a"]] ++ List.replicate n (MachineEvent.step 0) ++
    [MachineEvent.add 0 .up 5] ++ List.replicate (6 - n) (MachineEvent.step 0)

/-- Bytes that are added after the call are still in the counter. -/
theorem addDuringCall_six_conserved :
    let s := (addDuringCall 6).foldl (TrafficMachine.step (fun k => if k = "a" then 1 else 0) 0)
      { counter := oneUserCounter }
    s.reported 1 .up + s.counter.getCount "a" .up = 15 := by
  refine (reported_add_count_eq_added (fun k => if k = "a" then 1 else 0) 0 oneUserCounter "a" 0
    rfl (by decide) (fun j hj => ?_) (addDuringCall 6) ?_ .up ?_).trans rfl
  · by_contra hne
    simp [hne] at hj
  · refine ⟨trivial, trivial, ?_, ?_, ?_, ?_, ?_, ?_, trivial, trivial⟩
    -- only the two stores of the call clear a counter
    all_goals rintro x ⟨⟩ d v ⟨⟩
    · rfl
    · rfl
  · decide

/-- Bytes that are added between the load and the store of the call are lost. -/
theorem addDuringCall_two_lost :
    let s := (addDuringCall 2).foldl (TrafficMachine.step (fun k => if k = "a" then 1 else 0) 0)
      { counter := oneUserCounter }
    (∀ x ∈ s.calls, x.phase = .next) ∧ s.addedTo 0 .up = 15 ∧ s.reported 1 .up = 10 ∧
      s.counter.getCount "a" .up = 0 := by
  decide

end Tox.Core
