import Mathlib.Data.Finmap
import Mathlib.Data.List.Sort
import Mathlib.Order.Defs.LinearOrder
import Mathlib.Tactic.Common

/-!
# Finite maps as the program uses them

A map of the program is a finite partial function with extensional equality. The maps are
Mathlib's `Finmap`; this file fixes the non-dependent form `GoMap`, the lookups after one write
as case distinctions on the key, and the two bulk writes that the program's loops perform:
storing an entry for every element of a list (`GoMap.storeAll`) and deleting a list of keys
(`GoMap.deleteAll`).

The iteration order of a map is not determined by its contents. A function that ranges over a map
takes a `RangeOrder` as an argument, which fixes for every map an order that visits each key of the
map exactly once.
-/

namespace Tox.Foundation

/-- A finite map from `κ` to `ν`. -/
abbrev GoMap (κ ν : Type*) := Finmap fun _ : κ => ν

namespace GoMap

variable {α κ ν : Type*} [DecidableEq κ]

/-! ### One write -/

theorem lookup_insert (m : GoMap κ ν) (a k : κ) (b : ν) :
    (m.insert a b).lookup k = if k = a then some b else m.lookup k := by
  split_ifs with h
  · subst h
    exact Finmap.lookup_insert m
  · exact Finmap.lookup_insert_of_ne m h

theorem lookup_erase (m : GoMap κ ν) (a k : κ) :
    (m.erase a).lookup k = if k = a then none else m.lookup k := by
  split_ifs with h
  · subst h
    exact Finmap.lookup_erase k m
  · exact Finmap.lookup_erase_ne h

theorem lookup_singleton (a k : κ) (b : ν) :
    (Finmap.singleton a b : GoMap κ ν).lookup k = if k = a then some b else none := by
  split_ifs with h
  · subst h
    exact Finmap.lookup_singleton_eq
  · exact Finmap.lookup_eq_none.mpr fun hmem => h ((Finmap.mem_singleton k a b).mp hmem)

/-- An entry that is there already changes nothing. -/
theorem insert_of_lookup {m : GoMap κ ν} {a : κ} {b : ν} (h : m.lookup a = some b) :
    m.insert a b = m := by
  refine Finmap.ext_lookup fun k => ?_
  rw [lookup_insert]
  split_ifs with hk
  · subst hk
    exact h.symm
  · rfl

/-- An absent key is erased without a change. -/
theorem erase_of_notMem {m : GoMap κ ν} {a : κ} (h : a ∉ m) : m.erase a = m := by
  refine Finmap.ext_lookup fun k => ?_
  rw [lookup_erase]
  split_ifs with hk
  · subst hk
    exact (Finmap.lookup_eq_none.mpr h).symm
  · rfl

/-- Storing under a new key is undone by deleting the key. -/
theorem erase_insert_of_lookup_eq_none {m : GoMap κ ν} {a : κ} (h : m.lookup a = none) (b : ν) :
    (m.insert a b).erase a = m := by
  refine Finmap.ext_lookup fun k => ?_
  rw [lookup_erase, lookup_insert]
  split_ifs with hk
  · rw [hk, h]
  · rfl

/-- The value of a key, or `d` when the key is absent. -/
def getD (m : GoMap κ ν) (k : κ) (d : ν) : ν := (m.lookup k).getD d

theorem getD_insert (m : GoMap κ ν) (a k : κ) (b d : ν) :
    getD (m.insert a b) k d = if k = a then b else getD m k d := by
  rw [getD, lookup_insert]
  split_ifs <;> rfl

theorem getD_of_notMem {m : GoMap κ ν} {k : κ} (h : k ∉ m) (d : ν) : getD m k d = d := by
  rw [getD, Finmap.lookup_eq_none.mpr h, Option.getD_none]

/-! ### Bulk writes -/

/-- The entries `key x ↦ val x` stored one after the other along a list: of two elements with the
same key the later one stays. -/
def storeAll (key : α → κ) (val : α → ν) (xs : List α) (m : GoMap κ ν) : GoMap κ ν :=
  xs.foldl (fun m x => m.insert (key x) (val x)) m

/-- The keys of a list deleted one after the other. -/
def deleteAll (ks : List κ) (m : GoMap κ ν) : GoMap κ ν :=
  ks.foldl (fun m k => m.erase k) m

section StoreAll

variable (key : α → κ) (val : α → ν)

@[simp] theorem storeAll_nil (m : GoMap κ ν) : storeAll key val [] m = m := rfl

theorem storeAll_cons (x : α) (xs : List α) (m : GoMap κ ν) :
    storeAll key val (x :: xs) m = storeAll key val xs (m.insert (key x) (val x)) := rfl

theorem storeAll_append (xs ys : List α) (m : GoMap κ ν) :
    storeAll key val (xs ++ ys) m = storeAll key val ys (storeAll key val xs m) :=
  List.foldl_append

/-- The keys of the list are added to those of the map. -/
theorem keys_storeAll (xs : List α) (m : GoMap κ ν) :
    (storeAll key val xs m).keys = m.keys ∪ (xs.map key).toFinset := by
  induction xs generalizing m with
  | nil => rw [storeAll_nil, List.map_nil, List.toFinset_nil, Finset.union_empty]
  | cons x xs ih =>
    rw [storeAll_cons, ih, List.map_cons, List.toFinset_cons]
    ext k
    simp only [Finset.mem_union, Finset.mem_insert, Finmap.mem_keys, Finmap.mem_insert]
    tauto

theorem lookup_storeAll_of_forall_ne {xs : List α} {k : κ} (h : ∀ x ∈ xs, key x ≠ k)
    (m : GoMap κ ν) : (storeAll key val xs m).lookup k = m.lookup k := by
  induction xs generalizing m with
  | nil => rfl
  | cons x xs ih =>
    rw [storeAll_cons, ih (fun y hy => h y (List.mem_cons_of_mem _ hy)), lookup_insert,
      if_neg (h x List.mem_cons_self).symm]

/-- A key of the list is bound to the value of an element of the list with that key. -/
theorem exists_lookup_storeAll {xs : List α} {x : α} (hx : x ∈ xs) (m : GoMap κ ν) :
    ∃ y ∈ xs, key y = key x ∧ (storeAll key val xs m).lookup (key x) = some (val y) := by
  induction xs generalizing m x with
  | nil => cases hx
  | cons z zs ih =>
    rw [storeAll_cons]
    by_cases hz : ∃ y ∈ zs, key y = key x
    · obtain ⟨y, hy, hyx⟩ := hz
      obtain ⟨w, hw, hwy, hlook⟩ := ih hy (m.insert (key z) (val z))
      exact ⟨w, List.mem_cons_of_mem _ hw, hwy.trans hyx, hyx ▸ hlook⟩
    · have hxz : x = z := by
        rcases List.mem_cons.mp hx with h | h
        · exact h
        · exact absurd ⟨x, h, rfl⟩ hz
      subst hxz
      refine ⟨x, List.mem_cons_self, rfl, ?_⟩
      rw [lookup_storeAll_of_forall_ne key val (fun y hy hyx => hz ⟨y, hy, hyx⟩), lookup_insert,
        if_pos rfl]

/-- If the keys are different, every element of the list is stored. -/
theorem lookup_storeAll_of_nodup {xs : List α} (h : (xs.map key).Nodup) {x : α} (hx : x ∈ xs)
    (m : GoMap κ ν) : (storeAll key val xs m).lookup (key x) = some (val x) := by
  obtain ⟨y, hy, hyx, hlookup⟩ := exists_lookup_storeAll key val hx m
  rw [hlookup, List.inj_on_of_nodup_map h hy hx hyx]

/-- An entry of what has been stored in an empty map comes from the list. -/
theorem exists_mem_of_lookup_storeAll {xs : List α} {k : κ} {v : ν}
    (h : (storeAll key val xs ∅).lookup k = some v) : ∃ x ∈ xs, key x = k ∧ val x = v := by
  by_cases hk : ∃ x ∈ xs, key x = k
  · obtain ⟨x, hx, rfl⟩ := hk
    obtain ⟨y, hy, hyx, hlookup⟩ := exists_lookup_storeAll key val hx ∅
    exact ⟨y, hy, hyx, Option.some.inj (hlookup.symm.trans h)⟩
  · rw [lookup_storeAll_of_forall_ne key val fun x hx hxk => hk ⟨x, hx, hxk⟩,
      Finmap.lookup_empty] at h
    cases h

/-- What a key of the list is bound to does not depend on the map before. -/
theorem lookup_storeAll_congr {xs : List α} {x : α} (hx : x ∈ xs) (m m' : GoMap κ ν) :
    (storeAll key val xs m).lookup (key x) = (storeAll key val xs m').lookup (key x) := by
  induction xs generalizing m m' x with
  | nil => cases hx
  | cons z zs ih =>
    rw [storeAll_cons, storeAll_cons]
    by_cases hz : ∃ y ∈ zs, key y = key x
    · obtain ⟨y, hy, hyx⟩ := hz
      exact hyx ▸ ih hy _ _
    · have hne : ∀ y ∈ zs, key y ≠ key x := fun y hy hyx => hz ⟨y, hy, hyx⟩
      have hzx : x = z := (List.mem_cons.mp hx).resolve_right fun h => hne x h rfl
      subst hzx
      rw [lookup_storeAll_of_forall_ne key val hne, lookup_storeAll_of_forall_ne key val hne,
        lookup_insert, lookup_insert, if_pos rfl, if_pos rfl]

/-- A key that is bound alike before is bound alike after. -/
theorem lookup_storeAll_of_lookup_eq (xs : List α) {k : κ} {m m' : GoMap κ ν}
    (h : m.lookup k = m'.lookup k) :
    (storeAll key val xs m).lookup k = (storeAll key val xs m').lookup k := by
  induction xs generalizing m m' with
  | nil => exact h
  | cons x xs ih => exact ih (by rw [lookup_insert, lookup_insert, h])

/-- Entries that are there already change nothing. -/
theorem storeAll_of_forall_lookup {xs : List α} {m : GoMap κ ν}
    (h : ∀ x ∈ xs, m.lookup (key x) = some (val x)) : storeAll key val xs m = m := by
  induction xs with
  | nil => rfl
  | cons x xs ih =>
    obtain ⟨hx, hxs⟩ := List.forall_mem_cons.mp h
    rw [storeAll_cons, insert_of_lookup hx, ih hxs]

/-- A key keeps its value if the last element with the key has this value. -/
theorem lookup_storeAll_of_last {xs : List α} {m : GoMap κ ν} {k : κ}
    (h : ∀ pre x post, xs = pre ++ x :: post → key x = k → k ∉ post.map key →
      m.lookup k = some (val x)) : (storeAll key val xs m).lookup k = m.lookup k := by
  induction xs using List.reverseRecOn with
  | nil => rfl
  | append_singleton xs x ih =>
    rw [storeAll_append, storeAll_cons, storeAll_nil, lookup_insert]
    split_ifs with hk
    · exact (h xs x [] rfl hk.symm List.not_mem_nil).symm
    · refine ih fun pre y post hxs hy hpost => h pre y (post ++ [x]) ?_ hy ?_
      · rw [hxs, List.append_assoc, List.cons_append]
      · simpa [hk] using hpost

/-- Nothing changes if and only if the last element with each key is stored already. -/
theorem storeAll_eq_self_iff {xs : List α} {m : GoMap κ ν} :
    storeAll key val xs m = m ↔ ∀ pre x post, xs = pre ++ x :: post → key x ∉ post.map key →
      m.lookup (key x) = some (val x) := by
  constructor
  · rintro hsame pre x post rfl hpost
    have hne : ∀ y ∈ post, key y ≠ key x := fun y hy hyx => hpost (hyx ▸ List.mem_map_of_mem hy)
    rw [← hsame, storeAll_append, storeAll_cons, lookup_storeAll_of_forall_ne key val hne,
      lookup_insert, if_pos rfl]
  · intro h
    refine Finmap.ext_lookup fun k => lookup_storeAll_of_last key val ?_
    rintro pre x post hxs rfl hpost
    exact h pre x post hxs hpost

end StoreAll

@[simp] theorem deleteAll_nil (m : GoMap κ ν) : deleteAll [] m = m := rfl

theorem deleteAll_cons (k : κ) (ks : List κ) (m : GoMap κ ν) :
    deleteAll (k :: ks) m = deleteAll ks (m.erase k) := rfl

/-- Absent keys are deleted without a change. -/
theorem deleteAll_of_forall_notMem {ks : List κ} {m : GoMap κ ν} (h : ∀ k ∈ ks, k ∉ m) :
    deleteAll ks m = m := by
  induction ks with
  | nil => rfl
  | cons k ks ih =>
    obtain ⟨hk, hks⟩ := List.forall_mem_cons.mp h
    rw [deleteAll_cons, erase_of_notMem hk, ih hks]

theorem lookup_deleteAll (ks : List κ) (m : GoMap κ ν) (k : κ) :
    (deleteAll ks m).lookup k = if k ∈ ks then none else m.lookup k := by
  induction ks generalizing m with
  | nil => simp
  | cons a ks ih =>
    rw [deleteAll_cons, ih, lookup_erase]
    by_cases hk : k ∈ ks
    · simp [hk]
    · by_cases ha : k = a <;> simp [hk, ha]

theorem getD_deleteAll (ks : List κ) (m : GoMap κ ν) (k : κ) (d : ν) :
    getD (deleteAll ks m) k d = if k ∈ ks then d else getD m k d := by
  rw [getD, lookup_deleteAll]
  split_ifs <;> rfl

/-! ### Maps that index a list -/

section Indexes

variable {key : α → κ} {val : α → ν} {m : GoMap κ ν} {l : List α}

/-- The entries of the map are `key a ↦ val a` for the elements `a` of a list. -/
def Indexes (m : GoMap κ ν) (key : α → κ) (val : α → ν) (l : List α) : Prop :=
  ∀ k v, m.lookup k = some v ↔ ∃ a ∈ l, key a = k ∧ val a = v

theorem indexes_empty : Indexes ∅ key val [] := by
  intro k v
  rw [Finmap.lookup_empty]
  exact ⟨nofun, nofun⟩

namespace Indexes

theorem lookup (h : Indexes m key val l) {a : α} (ha : a ∈ l) : m.lookup (key a) = some (val a) :=
  (h _ _).mpr ⟨a, ha, rfl, rfl⟩

theorem mem_iff (h : Indexes m key val l) {k : κ} : k ∈ m ↔ ∃ a ∈ l, key a = k := by
  rw [← Finmap.lookup_isSome, Option.isSome_iff_exists]
  constructor
  · rintro ⟨v, hv⟩
    obtain ⟨a, ha, hkey, -⟩ := (h k v).mp hv
    exact ⟨a, ha, hkey⟩
  · rintro ⟨a, ha, rfl⟩
    exact ⟨val a, h.lookup ha⟩

/-- An element with a new key. -/
theorem insert (h : Indexes m key val l) {a : α} (hnew : ∀ b ∈ l, key b ≠ key a) :
    Indexes (m.insert (key a) (val a)) key val (l ++ [a]) := by
  intro k v
  rw [lookup_insert]
  simp only [List.mem_append, List.mem_singleton]
  by_cases hk : k = key a
  · subst hk
    rw [if_pos rfl]
    refine ⟨fun hv => ⟨a, .inr rfl, rfl, Option.some.inj hv⟩, ?_⟩
    rintro ⟨b, hb | rfl, hkey, rfl⟩
    · exact absurd hkey (hnew b hb)
    · rfl
  · rw [if_neg hk, h k v]
    refine ⟨fun ⟨b, hb, hkey, hval⟩ => ⟨b, .inl hb, hkey, hval⟩, ?_⟩
    rintro ⟨b, hb | rfl, hkey, hval⟩
    · exact ⟨b, hb, hkey, hval⟩
    · exact absurd hkey.symm hk

/-- The elements with a key are removed. -/
theorem erase (h : Indexes m key val l) {k : κ} {p : α → Bool}
    (hp : ∀ a ∈ l, key a = k ↔ p a = false) : Indexes (m.erase k) key val (l.filter p) := by
  intro k' v
  rw [lookup_erase]
  simp only [List.mem_filter]
  by_cases hk : k' = k
  · subst hk
    rw [if_pos rfl]
    refine ⟨nofun, ?_⟩
    rintro ⟨a, ⟨ha, hpa⟩, hkey, -⟩
    rw [(hp a ha).mp hkey] at hpa
    cases hpa
  · rw [if_neg hk, h k' v]
    constructor
    · rintro ⟨a, ha, rfl, hval⟩
      have hpa : p a = true := by
        rw [← Bool.not_eq_false]
        exact fun hpa => hk ((hp a ha).mpr hpa)
      exact ⟨a, ⟨ha, hpa⟩, rfl, hval⟩
    · rintro ⟨a, ⟨ha, -⟩, hkey, hval⟩
      exact ⟨a, ha, hkey, hval⟩

end Indexes

/-- Two maps that are inverse to each other. -/
def Inverse (m : GoMap κ ν) [DecidableEq ν] (m' : GoMap ν κ) : Prop :=
  ∀ k v, m.lookup k = some v ↔ m'.lookup v = some k

/-- The indexes of a list by two of its fields are inverse to each other. -/
theorem Indexes.inverse [DecidableEq ν] {m' : GoMap ν κ} (h : Indexes m key val l)
    (h' : Indexes m' val key l) : Inverse m m' := by
  intro k v
  rw [h k v, h' v k]
  exact exists_congr fun a => and_congr_right fun _ => and_comm

end Indexes

end GoMap

/-! ### Iteration orders -/

/-- A choice of the order in which a loop over a map visits its keys: every key, each once. -/
structure RangeOrder (κ : Type*) where
  /-- The keys in the order of the visit. -/
  order : Finset κ → List κ
  nodup : ∀ s, (order s).Nodup
  mem_order : ∀ s k, k ∈ order s ↔ k ∈ s

namespace RangeOrder

/-- The order in which a loop over `m` visits its keys. -/
def keys {κ ν : Type*} (range : RangeOrder κ) (m : GoMap κ ν) : List κ := range.order m.keys

variable {κ ν : Type*}

theorem nodup_keys (range : RangeOrder κ) (m : GoMap κ ν) : (range.keys m).Nodup :=
  range.nodup m.keys

@[simp] theorem mem_keys (range : RangeOrder κ) (m : GoMap κ ν) (k : κ) :
    k ∈ range.keys m ↔ k ∈ m := by
  rw [keys, range.mem_order, Finmap.mem_keys]

/-- What two visits collect from keys that both maps have does not depend on the orders, up to a
permutation. -/
theorem perm_filterMap_keys {α ν' : Type*} [DecidableEq κ] (range range' : RangeOrder κ)
    {m : GoMap κ ν} {m' : GoMap κ ν'} {f : κ → Option α}
    (h : ∀ k, (f k).isSome → k ∈ m ∧ k ∈ m') :
    ((range.keys m).filterMap f).Perm ((range'.keys m').filterMap f) := by
  have hfilter (l : List κ) : l.filterMap f = (l.filter fun k => (f k).isSome).filterMap f := by
    rw [List.filterMap_filter]
    refine List.filterMap_congr fun k _ => ?_
    cases f k <;> rfl
  rw [hfilter (range.keys m), hfilter (range'.keys m')]
  refine List.Perm.filterMap f ?_
  refine (List.perm_ext_iff_of_nodup ((range.nodup_keys m).filter _)
    ((range'.nodup_keys m').filter _)).mpr fun k => ?_
  rw [List.mem_filter, List.mem_filter, mem_keys, mem_keys]
  exact and_congr_left fun hk => iff_of_true (h k hk).1 (h k hk).2

/-- The visit in ascending order of the keys. -/
def ascending [LinearOrder κ] : RangeOrder κ where
  order s := Quotient.liftOn s.val (List.insertionSort (· ≤ ·)) fun l₁ l₂ h =>
    (((List.perm_insertionSort _ l₁).trans h).trans
      (List.perm_insertionSort _ l₂).symm).eq_of_pairwise' (List.pairwise_insertionSort _ l₁)
      (List.pairwise_insertionSort _ l₂)
  nodup := by
    rintro ⟨⟨l⟩, hl⟩
    exact (List.perm_insertionSort _ l).nodup_iff.mpr hl
  mem_order := by
    rintro ⟨⟨l⟩, hl⟩ k
    exact (List.perm_insertionSort _ l).mem_iff

end RangeOrder

end Tox.Foundation
