import Tox.Foundation.GoMap

/-!
# Maps to allocated objects

A concurrent map of pointers: the map from keys to pointers, and the objects in the order of their
allocation. A pointer is a position in the list of objects, so that an object that the map no longer
refers to stays where it is for those who hold its pointer.

A client that wants the object of a key loads the key and, if that fails, stores a new object. The
two steps of one client are interrupted by those of others; a `Slot` is how far a client has come.
Storing an object under a key that has one already makes the pointer to the old one lost for good
(`PointerMap.Lost`), and `PointerMap.Evolves` is what all writes to the map and to the objects have
in common, from which lost pointers stay lost and what holds of an object goes on to hold.
-/

namespace Tox.Foundation

/-- The pointer of a client: not yet loaded, loaded without success, or held. -/
inductive Slot
  | pending
  | missed
  | held (n : ℕ)
deriving DecidableEq, Repr

/-- The slot after a load. -/
def Slot.load : Option ℕ → Slot
  | none => .missed
  | some n => .held n

theorem Slot.load_eq_held_iff {o : Option ℕ} {n : ℕ} : Slot.load o = .held n ↔ o = some n := by
  cases o <;> simp [Slot.load]

/-- A map from keys to pointers, with the objects allocated so far. -/
structure PointerMap (κ β : Type*) [DecidableEq κ] where
  entries : GoMap κ ℕ
  objects : List β
  lt_length : ∀ k n, entries.lookup k = some n → n < objects.length

namespace PointerMap

variable {κ β : Type*} [DecidableEq κ]

def empty : PointerMap κ β where
  entries := ∅
  objects := []
  lt_length k n h := by
    rw [Finmap.lookup_empty] at h
    cases h

/-- A new object is stored under the key. -/
def store (m : PointerMap κ β) (k : κ) (b : β) : PointerMap κ β where
  entries := m.entries.insert k m.objects.length
  objects := m.objects ++ [b]
  lt_length j n h := by
    rw [GoMap.lookup_insert] at h
    rw [List.length_append, List.length_singleton]
    split_ifs at h with hj
    · cases h
      omega
    · have := m.lt_length j n h
      omega

/-- A write to the object at a pointer. -/
def modify (m : PointerMap κ β) (n : ℕ) (f : β → β) : PointerMap κ β where
  entries := m.entries
  objects := m.objects.modify n f
  lt_length k i h := by
    rw [List.length_modify]
    exact m.lt_length k i h

/-- The pointer is allocated, and its object has the property. -/
def At (m : PointerMap κ β) (n : ℕ) (φ : β → Prop) : Prop :=
  ∃ b, m.objects[n]? = some b ∧ φ b

/-- The pointer is allocated, and the key does not lead to it. -/
def Lost (m : PointerMap κ β) (k : κ) (n : ℕ) : Prop :=
  n < m.objects.length ∧ m.entries.lookup k ≠ some n

/-- The entries after a `store`: the old ones, and the new one under its key. -/
theorem lookup_of_store {m : PointerMap κ β} {k j : κ} {b : β} {n : ℕ}
    (h : (m.store k b).entries.lookup j = some n) :
    m.entries.lookup j = some n ∨ j = k ∧ n = m.objects.length := by
  change (m.entries.insert k m.objects.length).lookup j = some n at h
  rw [GoMap.lookup_insert] at h
  split_ifs at h with hj
  · cases h
    exact .inr ⟨hj, rfl⟩
  · exact .inl h

/-- The objects after a `store`: the old ones, and the new one. -/
theorem At.of_store {m : PointerMap κ β} {k : κ} {b : β} {n : ℕ} {φ : β → Prop}
    (h : (m.store k b).At n φ) : m.At n φ ∨ φ b := by
  obtain ⟨c, hc, hφ⟩ := h
  change (m.objects ++ [b])[n]? = some c at hc
  rw [List.getElem?_append] at hc
  split_ifs at hc
  · exact .inl ⟨c, hc, hφ⟩
  · cases List.mem_singleton.mp (List.mem_of_getElem? hc)
    exact .inr hφ

/-- The objects after a write: those that it left alone, and the one that it changed. -/
theorem At.of_modify {m : PointerMap κ β} {f : β → β} {i n : ℕ} {φ : β → Prop}
    (h : (m.modify i f).At n φ) : m.At n φ ∨ i = n ∧ m.At n fun b => φ (f b) := by
  obtain ⟨c, hc, hφ⟩ := h
  change (m.objects.modify i f)[n]? = some c at hc
  rw [List.getElem?_modify] at hc
  obtain ⟨b, hb, rfl⟩ := Option.map_eq_some_iff.mp hc
  split_ifs at hφ with hi
  · exact .inr ⟨hi, b, hb, hφ⟩
  · exact .inl ⟨b, hb, hφ⟩

/-- The objects stay where they are, changed according to `R`, and new entries have new pointers. -/
structure Evolves (R : β → β → Prop) (m m' : PointerMap κ β) : Prop where
  objects : ∀ (n : ℕ) b, m.objects[n]? = some b → ∃ b', m'.objects[n]? = some b' ∧ R b b'
  entries : ∀ k n, m'.entries.lookup k = some n →
    m.entries.lookup k = some n ∨ m.objects.length ≤ n

section Evolves

variable {R : β → β → Prop} {m m' : PointerMap κ β} {k : κ} {n : ℕ}

theorem Evolves.refl (hR : ∀ b, R b b) (m : PointerMap κ β) : Evolves R m m where
  objects _ b hb := ⟨b, hb, hR b⟩
  entries _ _ h := .inl h

theorem Evolves.store (hR : ∀ b, R b b) (m : PointerMap κ β) (k : κ) (b : β) :
    Evolves R m (m.store k b) where
  objects n c hc := by
    refine ⟨c, ?_, hR c⟩
    change (m.objects ++ [b])[n]? = some c
    rw [List.getElem?_append_left (List.getElem?_eq_some_iff.mp hc).1, hc]
  entries j n h := by
    rcases lookup_of_store h with h | ⟨-, rfl⟩
    · exact .inl h
    · exact .inr (Nat.le_refl _)

theorem Evolves.modify (hR : ∀ b, R b b) {f : β → β} (hf : ∀ b, R b (f b)) (m : PointerMap κ β)
    (n : ℕ) : Evolves R m (m.modify n f) where
  objects i b hb := by
    change ∃ b', (m.objects.modify n f)[i]? = some b' ∧ R b b'
    rw [List.getElem?_modify, hb]
    by_cases hi : n = i
    · exact ⟨f b, by simp [hi], hf b⟩
    · exact ⟨b, by simp [hi], hR b⟩
  entries _ _ h := .inl h

/-- What the changes of an object keep goes on to hold. -/
theorem At.evolves {φ : β → Prop} (h : m.At n φ) (hm : Evolves R m m')
    (hφ : ∀ b b', R b b' → φ b → φ b') : m'.At n φ := by
  obtain ⟨b, hb, hb'⟩ := h
  obtain ⟨c, hc, hR⟩ := hm.objects n b hb
  exact ⟨c, hc, hφ b c hR hb'⟩

/-- A lost pointer stays lost. -/
theorem Lost.evolves (h : m.Lost k n) (hm : Evolves R m m') : m'.Lost k n := by
  obtain ⟨c, hc, -⟩ := hm.objects n _ (List.getElem?_eq_getElem h.1)
  refine ⟨(List.getElem?_eq_some_iff.mp hc).1, fun hk => ?_⟩
  rcases hm.entries k n hk with hk | hn
  · exact h.2 hk
  · have := h.1
    omega

end Evolves

variable {m : PointerMap κ β} {k : κ} {n : ℕ}

theorem lookup_store_self (m : PointerMap κ β) (k : κ) (b : β) :
    (m.store k b).entries.lookup k = some m.objects.length :=
  Finmap.lookup_insert m.entries

/-- Storing under a key that leads to `n` makes `n` lost. -/
theorem lost_store (h : m.entries.lookup k = some n) (b : β) : (m.store k b).Lost k n := by
  have hn := m.lt_length k n h
  refine ⟨?_, fun hk => ?_⟩
  · change n < (m.objects ++ [b]).length
    rw [List.length_append]
    omega
  · cases (m.lookup_store_self k b).symm.trans hk
    omega

/-- Storing under an absent key keeps the entries. -/
theorem lookup_store_of_absent (hk : m.entries.lookup k = none) (b : β) {j : κ}
    (h : m.entries.lookup j = some n) : (m.store k b).entries.lookup j = some n := by
  change (m.entries.insert k m.objects.length).lookup j = some n
  have hj : j ≠ k := fun hj => by
    rw [hj, hk] at h
    cases h
  rw [GoMap.lookup_insert, if_neg hj, h]

theorem at_store_self (m : PointerMap κ β) (k : κ) {b : β} {φ : β → Prop} (hb : φ b) :
    (m.store k b).At m.objects.length φ :=
  ⟨b, List.getElem?_concat_length, hb⟩

/-- The object at a pointer after a write there. -/
theorem At.modify {φ ψ : β → Prop} {f : β → β} (h : m.At n φ) (hf : ∀ b, φ b → ψ (f b)) :
    (m.modify n f).At n ψ := by
  obtain ⟨b, hb, hφ⟩ := h
  refine ⟨f b, ?_, hf b hφ⟩
  change (m.objects.modify n f)[n]? = some (f b)
  rw [List.getElem?_modify_eq, hb]
  rfl

end PointerMap

end Tox.Foundation
