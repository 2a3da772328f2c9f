import Mathlib
import Tox.Foundation.GoMap

/-!
# Traffic counters

`common/counter` counts a node's traffic per user. A `TrafficStorage` holds the two atomic 64-bit
counters of a user, and a `TrafficCounter` is a concurrent map from user keys to *pointers* to
storages. A connection asks for the storage of its user once (`getCounter`) and then adds to the
storage it was given, whether or not the map still refers to it.

The storages of a `TrafficCounter` are kept in the order of their allocation, and a pointer is a
position in that list: deleting a key detaches its storage, which stays where it is for the
connections that hold it. The structure carries the two facts on which the accounting rests: the
pointers of the map are allocated, and no two keys share a storage.
-/

namespace Tox.Counter

open Tox.Foundation

/-! ### Storages -/

/-- The direction of the traffic of a user: `UpCounter` or `DownCounter`. -/
inductive Direction
  | up
  | down
deriving DecidableEq, Repr

/-- `counter.TrafficStorage`: the two atomic counters of a user. -/
@[ext] structure TrafficStorage where
  upCounter : Int64 := 0
  downCounter : Int64 := 0
deriving DecidableEq, Repr

namespace TrafficStorage

/-- The counter of one direction. -/
def get (st : TrafficStorage) : Direction → Int64
  | .up => st.upCounter
  | .down => st.downCounter

/-- `Add` on the counter of one direction, with the wrap-around of 64-bit integers. -/
def add (st : TrafficStorage) : Direction → Int64 → TrafficStorage
  | .up, n => { st with upCounter := st.upCounter + n }
  | .down, n => { st with downCounter := st.downCounter + n }

/-- `Store(0)` on the counter of one direction. -/
def clear (st : TrafficStorage) : Direction → TrafficStorage
  | .up => { st with upCounter := 0 }
  | .down => { st with downCounter := 0 }

@[simp] theorem get_default (d : Direction) : (({} : TrafficStorage)).get d = 0 := by
  cases d <;> rfl

theorem get_add (st : TrafficStorage) (d d' : Direction) (n : Int64) :
    (st.add d n).get d' = if d' = d then st.get d' + n else st.get d' := by
  cases d <;> cases d' <;> rfl

theorem get_clear (st : TrafficStorage) (d d' : Direction) :
    (st.clear d).get d' = if d' = d then 0 else st.get d' := by
  cases d <;> cases d' <;> rfl

end TrafficStorage

/-! ### Counters of a node -/

/-- `counter.TrafficCounter`: the map from user keys to storages. The storages are listed in the
order of their allocation, and the map holds positions in the list. -/
structure TrafficCounter where
  /-- The storages allocated so far, those of deleted keys included. -/
  storages : List TrafficStorage
  /-- `Counters`, with the pointer of every key. -/
  counters : GoMap String ℕ
  lt_length : ∀ k p, counters.lookup k = some p → p < storages.length
  injective : ∀ k k' p, counters.lookup k = some p → counters.lookup k' = some p → k = k'

namespace TrafficCounter

variable (c : TrafficCounter)

theorem eq_of {c c' : TrafficCounter} (hs : c.storages = c'.storages)
    (hm : c.counters = c'.counters) : c = c' := by
  obtain ⟨_, _, _, _⟩ := c
  obtain ⟨_, _, _, _⟩ := c'
  subst hs hm
  rfl

/-- `counter.NewTrafficCounter`. -/
def newTrafficCounter : TrafficCounter where
  storages := []
  counters := ∅
  lt_length k p h := by rw [Finmap.lookup_empty] at h; cases h
  injective k k' p h := by rw [Finmap.lookup_empty] at h; cases h

/-- The contents of the storage at `p`. -/
def load (p : ℕ) : TrafficStorage := c.storages.getD p {}

/-- A write to the storage at `p`. -/
def modify (p : ℕ) (f : TrafficStorage → TrafficStorage) : TrafficCounter where
  storages := c.storages.modify p f
  counters := c.counters
  lt_length k q h := by rw [List.length_modify]; exact c.lt_length k q h
  injective := c.injective

/-- `Add` through a pointer held by a connection. -/
def addTo (p : ℕ) (d : Direction) (n : Int64) : TrafficCounter := c.modify p fun st => st.add d n

/-- `Store(0)` on one counter of the storage at `p`. -/
def clear (p : ℕ) (d : Direction) : TrafficCounter := c.modify p fun st => st.clear d

/-- `Store(0)` on both counters of the storage at `p`. -/
def reset (p : ℕ) : TrafficCounter := c.modify p fun _ => {}

/-- `TrafficCounter.Delete`: the key is dropped; its storage stays where it is. -/
def delete (k : String) : TrafficCounter where
  storages := c.storages
  counters := c.counters.erase k
  lt_length j p h := by
    rw [GoMap.lookup_erase] at h
    split_ifs at h
    exact c.lt_length j p h
  injective j j' p h h' := by
    rw [GoMap.lookup_erase] at h h'
    split_ifs at h
    split_ifs at h'
    exact c.injective j j' p h h'

/-- A new storage for the key `k`. -/
def allocate (k : String) : TrafficCounter where
  storages := c.storages ++ [{}]
  counters := c.counters.insert k c.storages.length
  lt_length j p h := by
    rw [GoMap.lookup_insert] at h
    rw [List.length_append, List.length_singleton]
    split_ifs at h
    · cases h
      exact Nat.lt_succ_self _
    · exact Nat.lt_succ_of_lt (c.lt_length j p h)
  injective j j' p h h' := by
    rw [GoMap.lookup_insert] at h h'
    split_ifs at h with hj <;> split_ifs at h' with hj'
    · exact hj.trans hj'.symm
    · cases h
      exact absurd (c.lt_length j' _ h') (Nat.lt_irrefl _)
    · cases h'
      exact absurd (c.lt_length j _ h) (Nat.lt_irrefl _)
    · exact c.injective j j' p h h'

/-- `TrafficCounter.GetCounter`: the storage of the key, a new one if it has none. -/
def getCounter (k : String) : TrafficCounter × ℕ :=
  match c.counters.lookup k with
  | some p => (c, p)
  | none => (c.allocate k, c.storages.length)

/-- `TrafficCounter.GetUpCount` and `TrafficCounter.GetDownCount`. -/
def getCount (k : String) (d : Direction) : Int64 :=
  match c.counters.lookup k with
  | some p => (c.load p).get d
  | none => 0

/-! ### Reading after one operation -/

theorem getCount_of_lookup {c : TrafficCounter} {k : String} {p : ℕ}
    (h : c.counters.lookup k = some p) (d : Direction) :
    c.getCount k d = (c.load p).get d := by
  simp only [getCount, h]

theorem getCount_of_none {c : TrafficCounter} {k : String} (h : c.counters.lookup k = none)
    (d : Direction) : c.getCount k d = 0 := by
  simp only [getCount, h]

@[simp] theorem counters_modify (p : ℕ) (f : TrafficStorage → TrafficStorage) :
    (c.modify p f).counters = c.counters := rfl

@[simp] theorem counters_delete (k : String) : (c.delete k).counters = c.counters.erase k := rfl

@[simp] theorem length_storages_modify (p : ℕ) (f : TrafficStorage → TrafficStorage) :
    (c.modify p f).storages.length = c.storages.length := List.length_modify ..

theorem load_modify_of_ne {p q : ℕ} (h : q ≠ p) (f : TrafficStorage → TrafficStorage) :
    (c.modify p f).load q = c.load q := by
  simp only [load, modify, List.getD_eq_getElem?_getD, List.getElem?_modify, Ne.symm h, if_false]
  cases c.storages[q]? <;> rfl

theorem load_modify_self {p : ℕ} (h : p < c.storages.length)
    (f : TrafficStorage → TrafficStorage) : (c.modify p f).load p = f (c.load p) := by
  simp only [load, modify, List.getD_eq_getElem?_getD, List.getElem?_modify, if_true,
    List.getElem?_eq_getElem h, Option.getD_some]
  rfl

theorem get_load_addTo {p : ℕ} (h : p < c.storages.length) (q : ℕ) (d d' : Direction) (n : Int64) :
    ((c.addTo q d' n).load p).get d =
      if q = p ∧ d = d' then (c.load p).get d + n else (c.load p).get d := by
  by_cases hq : q = p
  · subst hq
    rw [addTo, load_modify_self c h, TrafficStorage.get_add]
    simp only [true_and]
  · rw [addTo, load_modify_of_ne c (Ne.symm hq), if_neg fun hqd => hq hqd.1]

theorem get_load_clear {p : ℕ} (h : p < c.storages.length) (q : ℕ) (d d' : Direction) :
    ((c.clear q d').load p).get d = if q = p ∧ d = d' then 0 else (c.load p).get d := by
  by_cases hq : q = p
  · subst hq
    rw [clear, load_modify_self c h, TrafficStorage.get_clear]
    simp only [true_and]
  · rw [clear, load_modify_of_ne c (Ne.symm hq), if_neg fun hqd => hq hqd.1]

/-- Clearing the two counters one after the other is a reset. -/
theorem clear_clear (p : ℕ) : (c.clear p .up).clear p .down = c.reset p := by
  refine eq_of ?_ rfl
  simp only [clear, reset, modify, List.modify_modify_eq]
  rfl

/-- The amounts of a key after a write to the storage at `p`: only the key whose storage it is
sees the write. -/
theorem getCount_modify (p : ℕ) (f : TrafficStorage → TrafficStorage) (k : String)
    (d : Direction) : (c.modify p f).getCount k d =
      if c.counters.lookup k = some p then (f (c.load p)).get d else c.getCount k d := by
  cases hk : c.counters.lookup k with
  | none => simp [getCount, hk]
  | some q =>
    have hlook : (c.modify p f).counters.lookup k = some q := hk
    rw [getCount_of_lookup hlook, getCount_of_lookup hk]
    by_cases hq : q = p
    · subst hq
      rw [load_modify_self c (c.lt_length k q hk), if_pos rfl]
    · rw [load_modify_of_ne c hq, if_neg fun h => hq (Option.some.inj h)]

theorem getCount_addTo (p : ℕ) (d : Direction) (n : Int64) (k : String) (d' : Direction) :
    (c.addTo p d n).getCount k d' =
      if c.counters.lookup k = some p ∧ d' = d then c.getCount k d' + n else c.getCount k d' := by
  rw [addTo, getCount_modify]
  by_cases hk : c.counters.lookup k = some p
  · rw [if_pos hk, TrafficStorage.get_add, getCount_of_lookup hk]
    by_cases hd : d' = d <;> simp [hk, hd]
  · simp [hk]

theorem getCount_reset (p : ℕ) (k : String) (d : Direction) : (c.reset p).getCount k d =
    if c.counters.lookup k = some p then 0 else c.getCount k d := by
  rw [reset, getCount_modify, TrafficStorage.get_default]

theorem getCount_delete_of_ne {j k : String} (h : j ≠ k) (d : Direction) :
    (c.delete k).getCount j d = c.getCount j d := by
  simp only [getCount, GoMap.lookup_erase, if_neg h, load, delete]

theorem lookup_allocate (k j : String) : (c.allocate k).counters.lookup j =
    if j = k then some c.storages.length else c.counters.lookup j := GoMap.lookup_insert ..

theorem load_allocate (k : String) (p : ℕ) : (c.allocate k).load p = c.load p := by
  simp only [load, allocate, List.getD_eq_getElem?_getD, List.getElem?_append]
  split_ifs with h
  · rfl
  · rw [List.getElem?_eq_none (Nat.le_of_not_lt h)]
    cases hp : ([({} : TrafficStorage)])[p - c.storages.length]? with
    | none => rfl
    | some st => simpa using (List.mem_of_getElem? hp)

/-- Asking for the storage of a key changes no amount. -/
@[simp] theorem getCount_getCounter (k j : String) (d : Direction) :
    (c.getCounter k).1.getCount j d = c.getCount j d := by
  cases hk : c.counters.lookup k with
  | some p => simp only [getCounter, hk]
  | none =>
    simp only [getCounter, hk]
    by_cases hj : j = k
    · subst hj
      have hnew : (c.allocate j).counters.lookup j = some c.storages.length := by
        rw [lookup_allocate, if_pos rfl]
      rw [getCount_of_lookup hnew, load_allocate, getCount_of_none hk, load,
        List.getD_eq_getElem?_getD, List.getElem?_eq_none le_rfl]
      exact TrafficStorage.get_default d
    · simp only [getCount, lookup_allocate, if_neg hj, load_allocate]

theorem load_getCounter (k : String) (p : ℕ) : (c.getCounter k).1.load p = c.load p := by
  cases hk : c.counters.lookup k with
  | some q => simp only [getCounter, hk]
  | none => simp only [getCounter, hk, load_allocate]

/-- The pointer returned for a key is the one the map then holds for it. -/
theorem lookup_getCounter (k : String) :
    (c.getCounter k).1.counters.lookup k = some (c.getCounter k).2 := by
  cases hk : c.counters.lookup k with
  | some p => simp only [getCounter, hk]
  | none => simp only [getCounter, hk, lookup_allocate, if_true]

theorem lookup_getCounter_of_ne {j k : String} (h : j ≠ k) :
    (c.getCounter k).1.counters.lookup j = c.counters.lookup j := by
  cases hk : c.counters.lookup k with
  | some p => simp only [getCounter, hk]
  | none => simp only [getCounter, hk, lookup_allocate, if_neg h]

theorem lookup_getCounter_of_some {j : String} {p : ℕ} (h : c.counters.lookup j = some p)
    (k : String) : (c.getCounter k).1.counters.lookup j = some p := by
  by_cases hj : j = k
  · subst hj
    simp only [getCounter, h]
  · rw [lookup_getCounter_of_ne c hj, h]

theorem length_le_getCounter (k : String) :
    c.storages.length ≤ (c.getCounter k).1.storages.length := by
  cases hk : c.counters.lookup k with
  | some p => simp only [getCounter, hk, le_refl]
  | none => simp [getCounter, hk, allocate]

/-! ### Pointers held by connections -/

/-- The pointer `p` is allocated, and it is the pointer of the key `k` exactly if `mine` holds. -/
def Points (k : String) (mine : Prop) (p : ℕ) : Prop :=
  p < c.storages.length ∧ (c.counters.lookup k = some p ↔ mine)

theorem Points.congr {c c' : TrafficCounter} {k : String} {mine : Prop} {p : ℕ}
    (h : c.Points k mine p) (hlook : c'.counters.lookup k = c.counters.lookup k)
    (hlen : c'.storages.length = c.storages.length) : c'.Points k mine p :=
  ⟨hlen ▸ h.1, hlook ▸ h.2⟩

theorem points_getCounter (j k : String) :
    (c.getCounter j).1.Points k (j = k) (c.getCounter j).2 := by
  refine ⟨lt_length _ _ _ (c.lookup_getCounter j), fun h => ?_, ?_⟩
  · exact injective _ j k _ (c.lookup_getCounter j) h
  · rintro rfl
    exact c.lookup_getCounter j

/-- A new storage is none of the storages that connections hold. -/
theorem Points.getCounter {c : TrafficCounter} {k : String} {mine : Prop} {p : ℕ}
    (h : c.Points k mine p) (j : String) : (c.getCounter j).1.Points k mine p := by
  refine ⟨h.1.trans_le (c.length_le_getCounter j), ?_⟩
  rw [← h.2]
  by_cases hjk : k = j
  · subst hjk
    cases hk : c.counters.lookup k with
    | some q => simp only [TrafficCounter.getCounter, hk]
    | none =>
      have hne : c.storages.length ≠ p := h.1.ne'
      simp only [TrafficCounter.getCounter, hk, lookup_allocate, if_true, Option.some.injEq, hne,
        reduceCtorEq]
  · rw [c.lookup_getCounter_of_ne hjk]

end TrafficCounter

end Tox.Counter
