import Tox.Foundation.GoMap

/-!
# The last match of a visit

A loop over a map that overwrites its result at every match ends with the match it has visited last.
Any matching key can be that one, in the order in which it is moved to the end
(`RangeOrder.moveLast`), so the result depends on the order as soon as two keys match. In the same
way, any key can be the one that a loop begins with (`RangeOrder.moveFirst`).
-/

namespace Tox.Foundation

variable {κ ν : Type*}

/-- The loop that overwrites its result at every match. -/
theorem foldl_overwrite_eq (p : κ → Bool) (l : List κ) (found : Option κ) :
    l.foldl (fun found k => if p k then some k else found) found =
      (l.filter p).getLast?.or found := by
  induction l generalizing found with
  | nil => rfl
  | cons k l ih =>
    rw [List.foldl_cons, ih, List.filter_cons]
    by_cases hk : p k
    · rw [if_pos hk, if_pos hk, List.getLast?_cons]
      rcases (l.filter p).getLast? with _ | k'
      · rfl
      · rfl
    · rw [if_neg hk, if_neg hk]

namespace RangeOrder

section MoveLast

variable [DecidableEq κ]

/-- The visit in which the key `k` comes last. -/
def moveLast (range : RangeOrder κ) (k : κ) : RangeOrder κ where
  order s := (range.order s).erase k ++ if k ∈ s then [k] else []
  nodup s := by
    refine ((range.nodup s).erase k).append (by split_ifs <;> simp) fun k' hk' hlast => ?_
    split_ifs at hlast
    · rw [List.mem_singleton.mp hlast] at hk'
      exact (range.nodup s).not_mem_erase hk'
    · exact List.not_mem_nil hlast
  mem_order s k' := by
    rw [List.mem_append, (range.nodup s).mem_erase_iff, range.mem_order]
    by_cases hk : k' = k
    · subst hk
      by_cases hs : k' ∈ s
      · simp [hs]
      · simp [hs]
    · split_ifs
      · simp [hk]
      · simp [hk]

/-- The visit in which the key `k` comes first. -/
def moveFirst (range : RangeOrder κ) (k : κ) : RangeOrder κ where
  order s := if k ∈ s then k :: (range.order s).erase k else range.order s
  nodup s := by
    split_ifs
    · exact List.nodup_cons.mpr ⟨(range.nodup s).not_mem_erase, (range.nodup s).erase k⟩
    · exact range.nodup s
  mem_order s k' := by
    split_ifs with hs
    · rw [List.mem_cons, (range.nodup s).mem_erase_iff, range.mem_order]
      by_cases hk : k' = k
      · simp [hk, hs]
      · simp [hk]
    · exact range.mem_order s k'

theorem keys_moveFirst (range : RangeOrder κ) {m : GoMap κ ν} {k : κ} (hk : k ∈ m) :
    (range.moveFirst k).keys m = k :: (range.keys m).erase k :=
  if_pos (Finmap.mem_keys.mpr hk)

/-- The key that comes last is the last match, if it is one. -/
theorem getLast?_filter_moveLast (range : RangeOrder κ) {m : GoMap κ ν} {p : κ → Bool} {k : κ}
    (hk : k ∈ m) (hp : p k) : (((range.moveLast k).keys m).filter p).getLast? = some k := by
  have hmem : k ∈ m.keys := Finmap.mem_keys.mpr hk
  rw [keys, moveLast]
  dsimp only
  rw [if_pos hmem, List.filter_append, List.filter_singleton, hp, cond_true, List.getLast?_concat]

end MoveLast

/-- The last match is a match. -/
theorem of_getLast?_filter_keys {range : RangeOrder κ} {m : GoMap κ ν} {p : κ → Bool} {k : κ}
    (h : ((range.keys m).filter p).getLast? = some k) : k ∈ m ∧ p k := by
  obtain ⟨hmem, hp⟩ := List.mem_filter.mp (List.mem_of_getLast? h)
  exact ⟨(range.mem_keys m k).mp hmem, hp⟩

end RangeOrder

end Tox.Foundation
