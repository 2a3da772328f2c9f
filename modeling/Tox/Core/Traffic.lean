import Mathlib
import Tox.Common.Counter
import Tox.Panel.Client

/-!
# Taking the traffic of a node from its counters

The sing core and the xray core account for traffic in the same way. Both keep a `TrafficCounter`
for every node, a map from user keys to user ids that is shared by all nodes, and a report
threshold for every node (`TrafficRegistry`); they differ in the key of a user.
`GetUserTrafficSlice` is the same loop in both: it ranges over the counters of the node and takes
those whose total exceeds the threshold, setting them to zero. A counter whose key has no user id
is dropped.

The loop visits the keys in the order that the runtime chooses, each key at most once. What it
returns and leaves behind is described key by key in terms of the counters before it:
`slice_rangeCounters` for the returned slice, `lookup_rangeCounters` and `getCount_rangeCounters`
for the counters.
-/

namespace Tox.Core

open Tox.Foundation Tox.Counter Tox.Panel

/-! ### The loop -/

section Loop

variable (uidOf : String → ℤ) (min : Int64) (reset : Bool)

/-- One round of the loop of `GetUserTrafficSlice`, at the key `key`. -/
def visit (state : TrafficCounter × List UserTraffic) (key : String) :
    TrafficCounter × List UserTraffic :=
  match state.1.counters.lookup key with
  | none => state
  | some p =>
    let up := (state.1.load p).upCounter
    let down := (state.1.load p).downCounter
    if up + down > min then
      let c := if reset then state.1.reset p else state.1
      if uidOf key = 0 then (c.delete key, state.2)
      else (c, state.2 ++ [⟨uidOf key, up, down⟩])
    else state

/-- The loop of `GetUserTrafficSlice`. -/
def rangeCounters (range : RangeOrder String) (c : TrafficCounter) :
    TrafficCounter × List UserTraffic :=
  (range.keys c.counters).foldl (visit uidOf min reset) (c, [])

/-- The counter of the key exists and its total exceeds the threshold. -/
def Exceeds (c : TrafficCounter) (key : String) : Prop :=
  key ∈ c.counters ∧ c.getCount key .up + c.getCount key .down > min

instance (c : TrafficCounter) (key : String) : Decidable (Exceeds min c key) :=
  inferInstanceAs (Decidable (_ ∧ _))

/-- The entry that a counter gives: none below the threshold and for keys without a user id. -/
def reportEntry (c : TrafficCounter) (key : String) : Option UserTraffic :=
  if Exceeds min c key ∧ uidOf key ≠ 0 then
    some ⟨uidOf key, c.getCount key .up, c.getCount key .down⟩
  else none

end Loop

/-! ### Counters that agree at a key -/

/-- The two counters have the same storage with the same amounts for the key. -/
def SameAt (key : String) (c c' : TrafficCounter) : Prop :=
  c'.counters.lookup key = c.counters.lookup key ∧ ∀ d, c'.getCount key d = c.getCount key d

theorem SameAt.refl (key : String) (c : TrafficCounter) : SameAt key c c := ⟨rfl, fun _ => rfl⟩

theorem SameAt.trans {key : String} {c c' c'' : TrafficCounter} (h : SameAt key c c')
    (h' : SameAt key c' c'') : SameAt key c c'' :=
  ⟨h'.1.trans h.1, fun d => (h'.2 d).trans (h.2 d)⟩

theorem SameAt.exceeds_iff {key : String} {c c' : TrafficCounter} (h : SameAt key c c')
    (min : Int64) : Exceeds min c' key ↔ Exceeds min c key := by
  simp only [Exceeds, ← Finmap.lookup_isSome, h.1, h.2]

theorem SameAt.reportEntry_eq {key : String} {c c' : TrafficCounter} (h : SameAt key c c')
    (uidOf : String → ℤ) (min : Int64) :
    reportEntry uidOf min c' key = reportEntry uidOf min c key := by
  simp only [reportEntry, h.exceeds_iff min, h.2]

theorem sameAt_reset_of_lookup {c : TrafficCounter} {key j : String} {p : ℕ}
    (hp : c.counters.lookup key = some p) (hj : j ≠ key) : SameAt j c (c.reset p) := by
  refine ⟨rfl, fun d => ?_⟩
  rw [TrafficCounter.getCount_reset, if_neg fun h => hj (c.injective j key p h hp)]

theorem sameAt_delete_of_ne (c : TrafficCounter) {key j : String} (hj : j ≠ key) :
    SameAt j c (c.delete key) :=
  ⟨Finmap.lookup_erase_ne hj, c.getCount_delete_of_ne hj⟩

/-! ### One round -/

section Round

variable (uidOf : String → ℤ) {min : Int64} (reset : Bool)
  {state : TrafficCounter × List UserTraffic} {key : String}

theorem exceeds_iff_of_lookup {c : TrafficCounter} {p : ℕ}
    (hp : c.counters.lookup key = some p) : Exceeds min c key ↔
      (c.load p).upCounter + (c.load p).downCounter > min := by
  have hmem : key ∈ c.counters := Finmap.mem_of_lookup_eq_some hp
  simp only [Exceeds, hmem, true_and, TrafficCounter.getCount_of_lookup hp, TrafficStorage.get]

theorem visit_of_not_exceeds (h : ¬ Exceeds min state.1 key) :
    visit uidOf min reset state key = state := by
  cases hp : state.1.counters.lookup key with
  | none => simp only [visit, hp]
  | some p =>
    rw [exceeds_iff_of_lookup hp] at h
    simp only [visit, hp, if_neg h]

/-- The three outcomes of a round at a counter that is taken, in terms of its storage. -/
theorem visit_of_exceeds (h : Exceeds min state.1 key) :
    ∃ p, state.1.counters.lookup key = some p ∧ visit uidOf min reset state key =
      (if uidOf key = 0 then
        ((if reset then state.1.reset p else state.1).delete key, state.2)
      else (if reset then state.1.reset p else state.1,
        state.2 ++ [⟨uidOf key, state.1.getCount key .up, state.1.getCount key .down⟩])) := by
  obtain ⟨p, hp⟩ := Finmap.mem_iff.mp h.1
  refine ⟨p, hp, ?_⟩
  rw [exceeds_iff_of_lookup hp] at h
  simp only [visit, hp, if_pos h, TrafficCounter.getCount_of_lookup hp, TrafficStorage.get]

theorem same_visit_of_ne {j : String} (hj : j ≠ key) :
    SameAt j state.1 (visit uidOf min reset state key).1 := by
  by_cases h : Exceeds min state.1 key
  · obtain ⟨p, hp, hvisit⟩ := visit_of_exceeds uidOf reset h
    have hreset : SameAt j state.1 (if reset then state.1.reset p else state.1) := by
      split_ifs
      · exact sameAt_reset_of_lookup hp hj
      · exact SameAt.refl j state.1
    rw [hvisit]
    by_cases huid : uidOf key = 0
    · rw [if_pos huid]
      exact hreset.trans (sameAt_delete_of_ne _ hj)
    · rw [if_neg huid]
      exact hreset
  · rw [visit_of_not_exceeds uidOf reset h]
    exact SameAt.refl j state.1

theorem slice_visit : (visit uidOf min reset state key).2 =
    state.2 ++ (reportEntry uidOf min state.1 key).toList := by
  by_cases h : Exceeds min state.1 key
  · obtain ⟨p, -, hvisit⟩ := visit_of_exceeds uidOf reset h
    rw [hvisit]
    by_cases huid : uidOf key = 0 <;> simp [reportEntry, h, huid]
  · rw [visit_of_not_exceeds uidOf reset h]
    simp [reportEntry, h]

theorem length_storages_visit : (visit uidOf min reset state key).1.storages.length =
    state.1.storages.length := by
  by_cases h : Exceeds min state.1 key
  · obtain ⟨p, -, hvisit⟩ := visit_of_exceeds uidOf reset h
    rw [hvisit]
    cases reset <;> split_ifs <;>
      simp [TrafficCounter.reset, TrafficCounter.modify, TrafficCounter.delete]
  · rw [visit_of_not_exceeds uidOf reset h]

/-- A key with a user id keeps its storage. -/
theorem lookup_visit_self (huid : uidOf key ≠ 0) :
    (visit uidOf min reset state key).1.counters.lookup key = state.1.counters.lookup key := by
  by_cases h : Exceeds min state.1 key
  · obtain ⟨p, -, hvisit⟩ := visit_of_exceeds uidOf reset h
    rw [hvisit, if_neg huid]
    cases reset <;> rfl
  · rw [visit_of_not_exceeds uidOf reset h]

/-- The amounts of a key with a user id after its round. -/
theorem getCount_visit_self (huid : uidOf key ≠ 0) (d : Direction) :
    (visit uidOf min true state key).1.getCount key d =
      if Exceeds min state.1 key then 0 else state.1.getCount key d := by
  by_cases h : Exceeds min state.1 key
  · obtain ⟨p, hp, hvisit⟩ := visit_of_exceeds uidOf true h
    rw [hvisit, if_neg huid, if_pos h]
    exact (TrafficCounter.getCount_reset ..).trans (if_pos hp)
  · rw [visit_of_not_exceeds uidOf true h, if_neg h]

end Round

/-! ### The whole loop -/

section Range

variable (uidOf : String → ℤ) {min : Int64} (reset : Bool)

theorem same_foldl_visit_of_notMem {order : List String} {j : String} (hj : j ∉ order)
    (state : TrafficCounter × List UserTraffic) :
    SameAt j state.1 (order.foldl (visit uidOf min reset) state).1 := by
  induction order generalizing state with
  | nil => exact SameAt.refl j state.1
  | cons k order ih =>
    rw [List.mem_cons, not_or] at hj
    exact (same_visit_of_ne uidOf reset hj.1).trans (ih hj.2 _)

theorem slice_foldl_visit {order : List String} (hnodup : order.Nodup)
    (state : TrafficCounter × List UserTraffic) :
    (order.foldl (visit uidOf min reset) state).2 =
      state.2 ++ order.filterMap (reportEntry uidOf min state.1) := by
  induction order generalizing state with
  | nil => simp
  | cons k order ih =>
    obtain ⟨hk, hrest⟩ := List.nodup_cons.mp hnodup
    -- the later rounds find the counters of the remaining keys as they were
    have hcongr : order.filterMap (reportEntry uidOf min (visit uidOf min reset state k).1) =
        order.filterMap (reportEntry uidOf min state.1) :=
      List.filterMap_congr fun j hj =>
        (same_visit_of_ne uidOf reset (ne_of_mem_of_not_mem hj hk)).reportEntry_eq uidOf min
    rw [List.foldl_cons, ih hrest, hcongr, slice_visit, List.append_assoc, List.filterMap_cons]
    cases reportEntry uidOf min state.1 k <;> rfl

theorem lookup_foldl_visit (order : List String) {j : String} (huid : uidOf j ≠ 0)
    (state : TrafficCounter × List UserTraffic) :
    (order.foldl (visit uidOf min reset) state).1.counters.lookup j =
      state.1.counters.lookup j := by
  induction order generalizing state with
  | nil => rfl
  | cons k order ih =>
    rw [List.foldl_cons, ih]
    by_cases hjk : j = k
    · subst hjk
      exact lookup_visit_self uidOf reset huid
    · exact (same_visit_of_ne uidOf reset hjk).1

theorem getCount_foldl_visit {order : List String} (hnodup : order.Nodup) {j : String}
    (huid : uidOf j ≠ 0) (state : TrafficCounter × List UserTraffic) (d : Direction) :
    (order.foldl (visit uidOf min true) state).1.getCount j d =
      if j ∈ order ∧ Exceeds min state.1 j then 0 else state.1.getCount j d := by
  induction order generalizing state with
  | nil => simp
  | cons k order ih =>
    obtain ⟨hk, hrest⟩ := List.nodup_cons.mp hnodup
    by_cases hjk : j = k
    · subst hjk
      rw [List.foldl_cons, (same_foldl_visit_of_notMem uidOf true hk _).2,
        getCount_visit_self uidOf huid]
      simp
    · have hsame : SameAt j state.1 (visit uidOf min true state k).1 :=
        same_visit_of_ne uidOf true hjk
      rw [List.foldl_cons, ih hrest]
      simp only [hsame.exceeds_iff, hsame.2, List.mem_cons, hjk, false_or]

theorem length_storages_foldl_visit (order : List String)
    (state : TrafficCounter × List UserTraffic) :
    (order.foldl (visit uidOf min reset) state).1.storages.length = state.1.storages.length := by
  induction order generalizing state with
  | nil => rfl
  | cons k order ih => rw [List.foldl_cons, ih, length_storages_visit]

theorem slice_rangeCounters (range : RangeOrder String) (c : TrafficCounter) :
    (rangeCounters uidOf min reset range c).2 =
      (range.keys c.counters).filterMap (reportEntry uidOf min c) :=
  slice_foldl_visit uidOf reset (range.nodup_keys c.counters) (c, [])

/-- The slice has one entry for each counter that is taken and has a user id. -/
theorem exists_keys_rangeCounters (range : RangeOrder String) (c : TrafficCounter) :
    ∃ keys : List String, keys.Nodup ∧
      (∀ k, k ∈ keys ↔ Exceeds min c k ∧ uidOf k ≠ 0) ∧
      (rangeCounters uidOf min reset range c).2 =
        keys.map fun k => ⟨uidOf k, c.getCount k .up, c.getCount k .down⟩ := by
  refine ⟨(range.keys c.counters).filter fun k => decide (Exceeds min c k ∧ uidOf k ≠ 0),
    (range.nodup_keys c.counters).filter _, fun k => ?_, ?_⟩
  · rw [List.mem_filter, decide_eq_true_iff, range.mem_keys]
    exact and_iff_right_of_imp fun h => h.1.1
  · rw [slice_rangeCounters, ← List.filterMap_eq_map, List.filterMap_filter]
    refine List.filterMap_congr fun k _ => ?_
    simp only [reportEntry, decide_eq_true_eq, Function.comp]

theorem lookup_rangeCounters (range : RangeOrder String) (c : TrafficCounter) {j : String}
    (huid : uidOf j ≠ 0) :
    (rangeCounters uidOf min reset range c).1.counters.lookup j = c.counters.lookup j :=
  lookup_foldl_visit uidOf reset _ huid (c, [])

theorem getCount_rangeCounters (range : RangeOrder String) (c : TrafficCounter) {j : String}
    (huid : uidOf j ≠ 0) (d : Direction) :
    (rangeCounters uidOf min true range c).1.getCount j d =
      if Exceeds min c j then 0 else c.getCount j d := by
  rw [rangeCounters, getCount_foldl_visit uidOf (range.nodup_keys c.counters) huid]
  have hiff : j ∈ range.keys c.counters ∧ Exceeds min c j ↔ Exceeds min c j :=
    and_iff_right_of_imp fun h => (range.mem_keys ..).mpr h.1
  simp only [hiff]

theorem length_storages_rangeCounters (range : RangeOrder String) (c : TrafficCounter) :
    (rangeCounters uidOf min reset range c).1.storages.length = c.storages.length :=
  length_storages_foldl_visit uidOf reset _ (c, [])

theorem mem_of_mem_rangeCounters {range : RangeOrder String} {c : TrafficCounter} {j : String}
    (hj : j ∈ (rangeCounters uidOf min reset range c).1.counters) : j ∈ c.counters := by
  by_contra hc
  have hsame : SameAt j c (rangeCounters uidOf min reset range c).1 :=
    same_foldl_visit_of_notMem uidOf reset (mt (range.mem_keys ..).mp hc) (c, [])
  rw [← Finmap.lookup_isSome] at hj hc
  exact hc (hsame.1 ▸ hj)

/-- What the posted slice holds for a user id that only the key `k` has among the counted keys. -/
theorem reportedFor_rangeCounters (range : RangeOrder String) (c : TrafficCounter) {k : String}
    (huid : uidOf k ≠ 0) (huniq : ∀ j ∈ c.counters, uidOf j = uidOf k → j = k) (d : Direction) :
    reportedFor (trafficData (rangeCounters uidOf min reset range c).2) (uidOf k) d =
      if Exceeds min c k then c.getCount k d else 0 := by
  rw [slice_rangeCounters]
  have hentry : ∀ t ∈ (range.keys c.counters).filterMap (reportEntry uidOf min c),
      t.uid = uidOf k →
        Exceeds min c k ∧ t = ⟨uidOf k, c.getCount k .up, c.getCount k .down⟩ := by
    intro t ht htk
    obtain ⟨j, hj, hjt⟩ := List.mem_filterMap.mp ht
    obtain ⟨⟨hex, -⟩, hsome⟩ := Option.ite_none_right_eq_some.mp hjt
    obtain rfl := Option.some.inj hsome
    obtain rfl := huniq j hex.1 htk
    exact ⟨hex, rfl⟩
  by_cases hex : Exceeds min c k
  · have hmem : (⟨uidOf k, c.getCount k .up, c.getCount k .down⟩ : UserTraffic) ∈
        (range.keys c.counters).filterMap (reportEntry uidOf min c) :=
      List.mem_filterMap.mpr ⟨k, (range.mem_keys ..).mpr hex.1, if_pos ⟨hex, huid⟩⟩
    rw [if_pos hex, reportedFor_trafficData_of_unique hmem fun t ht htk => (hentry t ht htk).2]
    cases d <;> rfl
  · rw [if_neg hex]
    exact reportedFor_trafficData_of_forall_ne (fun t ht htk => hex (hentry t ht htk).1) d

/-- The loop reads the user ids of the counted keys only. -/
theorem rangeCounters_congr {uidOf' : String → ℤ} (range : RangeOrder String) (c : TrafficCounter)
    (h : ∀ k ∈ c.counters, uidOf k = uidOf' k) :
    rangeCounters uidOf min reset range c = rangeCounters uidOf' min reset range c := by
  refine List.foldl_ext _ _ _ fun state k hk => ?_
  simp only [visit, h k ((range.mem_keys ..).mp hk)]

end Range

/-! ### The counters of all nodes -/

/-- The maps of a core that the accounting uses. -/
structure TrafficRegistry where
  /-- The counters of every node, by tag. -/
  counter : GoMap String TrafficCounter := ∅
  /-- The user ids of the registered users of all nodes. -/
  uidMap : GoMap String ℤ := ∅
  /-- The report threshold of every node, by tag. -/
  nodeReportMinTrafficBytes : GoMap String Int64 := ∅

namespace TrafficRegistry

/-- The user id of a key, `0` when the key is not registered. -/
def uid (r : TrafficRegistry) (key : String) : ℤ := GoMap.getD r.uidMap key 0

/-- The report threshold of a node. -/
def minTraffic (r : TrafficRegistry) (tag : String) : Int64 :=
  GoMap.getD r.nodeReportMinTrafficBytes tag 0

/-- The counters of a node, empty before its first connection. -/
def trafficCounter (r : TrafficRegistry) (tag : String) : TrafficCounter :=
  GoMap.getD r.counter tag .newTrafficCounter

/-- A connection of the user `key` gets its storage; the counters of a node are created with its
first connection. -/
def attach (r : TrafficRegistry) (tag key : String) : TrafficRegistry × ℕ :=
  let (t, p) := (r.trafficCounter tag).getCounter key
  ({ r with counter := r.counter.insert tag t }, p)

/-- The counters of a node changed in place, if there are any. -/
def modifyCounter (r : TrafficRegistry) (tag : String) (f : TrafficCounter → TrafficCounter) :
    TrafficRegistry :=
  match r.counter.lookup tag with
  | none => r
  | some c => { r with counter := r.counter.insert tag (f c) }

/-- A connection that holds the storage `p` of a node adds to a counter. -/
def addTo (r : TrafficRegistry) (tag : String) (p : ℕ) (d : Direction) (n : Int64) :
    TrafficRegistry :=
  r.modifyCounter tag fun c => c.addTo p d n

/-- `DelUsers` for one key: its counter and its user id are dropped. -/
def forget (r : TrafficRegistry) (tag key : String) : TrafficRegistry :=
  { r.modifyCounter tag (fun c => c.delete key) with uidMap := r.uidMap.erase key }

/-- `AddUsers`: the user ids of the users, each under its key. -/
def register (r : TrafficRegistry) (key : UserInfo → String) (users : List UserInfo) :
    TrafficRegistry :=
  { r with uidMap := GoMap.storeAll key UserInfo.id users r.uidMap }

/-- `GetUserTrafficSlice` of the sing core and of the xray core. -/
def getUserTrafficSlice (r : TrafficRegistry) (tag : String) (reset : Bool)
    (range : RangeOrder String) : TrafficRegistry × List UserTraffic :=
  match r.counter.lookup tag with
  | none => (r, [])
  | some c =>
    let (c', slice) := rangeCounters r.uid (r.minTraffic tag) reset range c
    ({ r with counter := r.counter.insert tag c' }, slice)

/-! ### The maps after an operation -/

variable (r : TrafficRegistry) (tag t : String)

@[simp] theorem uid_attach (key : String) : (r.attach tag key).1.uid = r.uid := rfl

@[simp] theorem minTraffic_attach (key : String) :
    (r.attach tag key).1.minTraffic = r.minTraffic := rfl

theorem trafficCounter_attach (key : String) : (r.attach tag key).1.trafficCounter t =
    if t = tag then ((r.trafficCounter tag).getCounter key).1 else r.trafficCounter t := by
  simp only [attach, trafficCounter, GoMap.getD, GoMap.lookup_insert]
  split_ifs <;> rfl

section ModifyCounter

variable {f : TrafficCounter → TrafficCounter}

@[simp] theorem uidMap_modifyCounter : (r.modifyCounter tag f).uidMap = r.uidMap := by
  unfold modifyCounter
  split <;> rfl

@[simp] theorem uid_modifyCounter : (r.modifyCounter tag f).uid = r.uid := by
  unfold uid
  rw [uidMap_modifyCounter]

@[simp] theorem minTraffic_modifyCounter : (r.modifyCounter tag f).minTraffic = r.minTraffic := by
  unfold modifyCounter
  split <;> rfl

theorem trafficCounter_modifyCounter (hf : f .newTrafficCounter = .newTrafficCounter) :
    (r.modifyCounter tag f).trafficCounter t =
      if t = tag then f (r.trafficCounter tag) else r.trafficCounter t := by
  unfold modifyCounter
  split <;> rename_i hlook
  · split_ifs with ht
    · subst ht
      simp only [trafficCounter, GoMap.getD, hlook, Option.getD_none, hf]
    · rfl
  · simp only [trafficCounter, GoMap.getD, GoMap.lookup_insert, hlook, Option.getD_some]
    split_ifs <;> rfl

end ModifyCounter

@[simp] theorem uid_addTo (p : ℕ) (d : Direction) (n : Int64) :
    (r.addTo tag p d n).uid = r.uid := uid_modifyCounter r tag

@[simp] theorem minTraffic_addTo (p : ℕ) (d : Direction) (n : Int64) :
    (r.addTo tag p d n).minTraffic = r.minTraffic := minTraffic_modifyCounter r tag

theorem trafficCounter_addTo (p : ℕ) (d : Direction) (n : Int64) :
    (r.addTo tag p d n).trafficCounter t =
      if t = tag then (r.trafficCounter tag).addTo p d n else r.trafficCounter t :=
  trafficCounter_modifyCounter r tag t (by
    simp [TrafficCounter.addTo, TrafficCounter.modify, TrafficCounter.newTrafficCounter])

section Register

variable {key : UserInfo → String} {users : List UserInfo} {k : String}

theorem uid_register_of_forall_ne (h : ∀ u ∈ users, key u ≠ k) :
    (r.register key users).uid k = r.uid k := by
  simp only [uid, register, GoMap.getD, GoMap.lookup_storeAll_of_forall_ne key _ h]

theorem exists_uid_register {u : UserInfo} (hu : u ∈ users) :
    ∃ u' ∈ users, key u' = key u ∧ (r.register key users).uid (key u) = u'.id := by
  obtain ⟨u', hu', hkey, hlook⟩ := GoMap.exists_lookup_storeAll key UserInfo.id hu r.uidMap
  exact ⟨u', hu', hkey, by simp only [uid, register, GoMap.getD, hlook, Option.getD_some]⟩

/-- Users that are registered with the id they have leave it as it is. -/
theorem uid_register_of_forall (h : ∀ u ∈ users, key u = k → u.id = r.uid k) :
    (r.register key users).uid k = r.uid k := by
  by_cases hk : ∃ u ∈ users, key u = k
  · obtain ⟨u, hu, rfl⟩ := hk
    obtain ⟨u', hu', hkey, huid⟩ := exists_uid_register r hu
    exact huid.trans (h u' hu' hkey)
  · exact uid_register_of_forall_ne r fun u hu hkey => hk ⟨u, hu, hkey⟩

theorem uid_register_congr {r r' : TrafficRegistry}
    (h : r'.uid k = r.uid k ∨ ∃ u ∈ users, key u = k) :
    (r'.register key users).uid k = (r.register key users).uid k := by
  by_cases hk : ∃ u ∈ users, key u = k
  · obtain ⟨u, hu, rfl⟩ := hk
    simp only [uid, register, GoMap.getD, GoMap.lookup_storeAll_congr key _ hu r'.uidMap r.uidMap]
  · have hne : ∀ u ∈ users, key u ≠ k := fun u hu hkey => hk ⟨u, hu, hkey⟩
    rw [uid_register_of_forall_ne r' hne, uid_register_of_forall_ne r hne]
    exact h.resolve_right hk

end Register

section Forget

variable (key : String)

theorem uid_forget (k : String) : (r.forget tag key).uid k = if k = key then 0 else r.uid k := by
  simp only [uid, forget, GoMap.getD, GoMap.lookup_erase]
  split_ifs <;> rfl

@[simp] theorem minTraffic_forget : (r.forget tag key).minTraffic = r.minTraffic :=
  minTraffic_modifyCounter r tag

theorem trafficCounter_forget : (r.forget tag key).trafficCounter t =
    if t = tag then (r.trafficCounter tag).delete key else r.trafficCounter t :=
  trafficCounter_modifyCounter r tag t (TrafficCounter.eq_of rfl rfl)

theorem uidMap_foldl_forget (key : UserInfo → String) (users : List UserInfo) :
    (users.foldl (fun r u => r.forget tag (key u)) r).uidMap =
      GoMap.deleteAll (users.map key) r.uidMap := by
  induction users generalizing r with
  | nil => rfl
  | cons u users ih => exact ih (r.forget tag (key u))

theorem counters_foldl_forget (key : UserInfo → String) (users : List UserInfo) :
    ((users.foldl (fun r u => r.forget tag (key u)) r).trafficCounter tag).counters =
      GoMap.deleteAll (users.map key) (r.trafficCounter tag).counters := by
  induction users generalizing r with
  | nil => rfl
  | cons u users ih =>
    rw [List.foldl_cons, ih, trafficCounter_forget, if_pos rfl]
    rfl

end Forget

theorem rangeCounters_newTrafficCounter (uidOf : String → ℤ) (min : Int64) (reset : Bool)
    (range : RangeOrder String) : rangeCounters uidOf min reset range .newTrafficCounter =
      (.newTrafficCounter, []) := by
  have hkeys : range.keys TrafficCounter.newTrafficCounter.counters = [] :=
    List.eq_nil_iff_forall_not_mem.mpr fun k hk =>
      Finmap.notMem_empty ((range.mem_keys ..).mp hk)
  rw [rangeCounters, hkeys, List.foldl_nil]

section GetUserTrafficSlice

variable (reset : Bool) (range : RangeOrder String)

@[simp] theorem uidMap_getUserTrafficSlice :
    (r.getUserTrafficSlice tag reset range).1.uidMap = r.uidMap := by
  unfold getUserTrafficSlice
  split <;> rfl

@[simp] theorem uid_getUserTrafficSlice :
    (r.getUserTrafficSlice tag reset range).1.uid = r.uid := by
  unfold uid
  rw [uidMap_getUserTrafficSlice]

@[simp] theorem minTraffic_getUserTrafficSlice :
    (r.getUserTrafficSlice tag reset range).1.minTraffic = r.minTraffic := by
  unfold getUserTrafficSlice
  split <;> rfl

/-- The slice is the one of the loop over the counters of the node. -/
theorem getUserTrafficSlice_snd : (r.getUserTrafficSlice tag reset range).2 =
    (rangeCounters r.uid (r.minTraffic tag) reset range (r.trafficCounter tag)).2 := by
  unfold getUserTrafficSlice
  split <;> rename_i hlook <;> simp only [trafficCounter, GoMap.getD, hlook, Option.getD_none,
    Option.getD_some, rangeCounters_newTrafficCounter]

theorem trafficCounter_getUserTrafficSlice :
    (r.getUserTrafficSlice tag reset range).1.trafficCounter t =
      if t = tag then
        (rangeCounters r.uid (r.minTraffic tag) reset range (r.trafficCounter tag)).1
      else r.trafficCounter t := by
  unfold getUserTrafficSlice
  split <;> rename_i hlook
  · split_ifs with ht
    · subst ht
      simp only [trafficCounter, GoMap.getD, hlook, Option.getD_none,
        rangeCounters_newTrafficCounter]
    · rfl
  · simp only [trafficCounter, GoMap.getD, GoMap.lookup_insert, hlook, Option.getD_some]
    split_ifs <;> rfl

end GetUserTrafficSlice

end TrafficRegistry

end Tox.Core
