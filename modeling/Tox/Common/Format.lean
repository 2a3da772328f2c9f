import Mathlib

/-!
# Formatted keys

The program keys its shared maps by formatted strings: `common/format` joins a node's tag and a
user's uuid by `|` (`userTag`), and the user-list comparison appends the decimal speed limit to the
uuid (`Panel.UserInfo` keys, built from `itoa`). The maps keep their owners apart only as far as
these formats are injective. For one tag `userTag` is injective; over all tags it is injective on
the uuids without `|` (`userTag_inj_of_notMem`), the tag being free. Appending a number is
injective for uuids of one length (`append_itoa_inj`), and not in general.
-/

namespace Tox.Format

/-- `format.UserTag`: the key of the user `uuid` on the node `tag`. -/
def userTag (tag uuid : String) : String := tag ++ "|" ++ uuid

/-- `strconv.Itoa`. -/
def itoa (n : ℤ) : String := toString n

theorem userTag_right_injective (tag : String) : Function.Injective (userTag tag) := by
  intro u v h
  exact (String.append_right_inj (tag ++ "|")).mp h

@[simp] theorem userTag_inj {tag u v : String} : userTag tag u = userTag tag v ↔ u = v :=
  (userTag_right_injective tag).eq_iff

/-- Two lists that are split at their last occurrence of `a` are split alike. -/
theorem append_cons_inj_of_notMem_right {α : Type*} {a : α} {l l' r r' : List α} (hr : a ∉ r)
    (hr' : a ∉ r') (h : l ++ a :: r = l' ++ a :: r') : l = l' ∧ r = r' := by
  induction l generalizing l' with
  | nil =>
    cases l' with
    | nil => exact ⟨rfl, (List.cons.inj h).2⟩
    | cons b l' =>
      have hmem : a ∈ r := by
        rw [(List.cons.inj h).2]
        exact List.mem_append_right _ List.mem_cons_self
      exact absurd hmem hr
  | cons b l ih =>
    cases l' with
    | nil =>
      have hmem : a ∈ r' := by
        rw [← (List.cons.inj h).2]
        exact List.mem_append_right _ List.mem_cons_self
      exact absurd hmem hr'
    | cons c l' =>
      obtain ⟨hbc, htail⟩ := List.cons.inj h
      obtain ⟨hl, hr⟩ := ih htail
      exact ⟨by rw [hbc, hl], hr⟩

/-- **The key of a user determines the node and the user**, for uuids without the separator,
whatever the tags contain. -/
theorem userTag_inj_of_notMem {tag tag' u u' : String} (hu : '|' ∉ u.toList)
    (hu' : '|' ∉ u'.toList) (h : userTag tag u = userTag tag' u') : tag = tag' ∧ u = u' := by
  have hbar : ("|" : String).toList = ['|'] := rfl
  have hlist : tag.toList ++ '|' :: u.toList = tag'.toList ++ '|' :: u'.toList := by
    have := congrArg String.toList h
    simpa only [userTag, String.toList_append, hbar, List.append_assoc, List.singleton_append]
      using this
  obtain ⟨ht, hu⟩ := append_cons_inj_of_notMem_right hu hu' hlist
  exact ⟨String.toList_inj.mp ht, String.toList_inj.mp hu⟩

theorem itoa_injective : Function.Injective itoa := fun _ _ h => Int.repr_injective h

/-- Appending a decimal number is injective on the strings of one length. -/
theorem append_itoa_inj {u v : String} {m n : ℤ} (hlen : u.length = v.length)
    (h : u ++ itoa m = v ++ itoa n) : u = v ∧ m = n := by
  have hlist : u.toList ++ (itoa m).toList = v.toList ++ (itoa n).toList := by
    simpa only [String.toList_append] using congrArg String.toList h
  obtain ⟨hu, hm⟩ := List.append_inj hlist (by simpa only [String.length_toList] using hlen)
  exact ⟨String.toList_inj.mp hu, itoa_injective (String.toList_inj.mp hm)⟩

end Tox.Format
