import Mathlib
import Tox.Foundation.Run
import Tox.Limiter.Calls

/-!
# Dynamic speed limits over whole runs

A dynamic limit is meant to be a change for a time: the registered users and their own uids and
limits (`UserLimitInfo.own`) should stay those with which the limiter was created. Two calls break
this. A connection after the end of a dynamic limit removes the whole entry of a user without a
speed limit of its own, and `AddDynamicSpeedLimit` replaces the entry of the user by one without uid
and limits. No other call does (`unaltered_iff_harmless`).
-/

namespace Tox.Limit

open Tox.Foundation Tox.Panel Tox.Format

/-- The part of an entry that is not about dynamic limits. -/
def UserLimitInfo.own (info : UserLimitInfo) : ℤ × ℤ × ℤ :=
  (info.uid, info.speedLimit, info.deviceLimit)

/-- The calls of a run with dynamic limits for the users of `l₀`. -/
def LimiterEvent.Concerns (l₀ : Limiter) : LimiterEvent → Prop
  | .check .. => True
  | .report .. => True
  | .update .. => False
  | .updateDynamic .. => True
  | .addDynamic _ tag userInfo _ _ => ¬ l₀.IsUnknown (userTag tag userInfo.uuid)
  | .setAlive _ => True

namespace Limiter

/-- The same users are registered as in `l₀`, with the same uids and limits of their own. -/
def Unaltered (l₀ l : Limiter) : Prop :=
  ∀ k, (l.userLimitInfo.lookup k).map UserLimitInfo.own =
    (l₀.userLimitInfo.lookup k).map UserLimitInfo.own

/-- The call is not one of the two that alter a user: a connection of a user without a speed limit
after the end of its dynamic limit, and a new dynamic limit for a user that has a uid or a limit. -/
def Harmless (l : Limiter) : LimiterEvent → Prop
  | .check now taguuid _ _ _ => ∀ u ∈ l.userLimitInfo.lookup taguuid,
      ¬ ((u.expireTime < now ∧ u.expireTime ≠ 0) ∧ u.speedLimit = 0)
  | .addDynamic _ tag userInfo _ _ =>
    ∀ u ∈ l.userLimitInfo.lookup (userTag tag userInfo.uuid), u.own = (0, 0, 0)
  | _ => True

instance (l : Limiter) : (e : LimiterEvent) → Decidable (l.Harmless e)
  | .check .. => inferInstanceAs (Decidable (∀ _ ∈ _, _))
  | .report .. => inferInstanceAs (Decidable True)
  | .update .. => inferInstanceAs (Decidable True)
  | .updateDynamic .. => inferInstanceAs (Decidable True)
  | .addDynamic .. => inferInstanceAs (Decidable (∀ _ ∈ _, _))
  | .setAlive _ => inferInstanceAs (Decidable True)

variable {l₀ l : Limiter}

theorem Unaltered.isUnknown_iff (h : Unaltered l₀ l) (k : String) :
    l.IsUnknown k ↔ l₀.IsUnknown k := by
  rw [IsUnknown, IsUnknown, ← Option.map_eq_none_iff (f := UserLimitInfo.own), h k,
    Option.map_eq_none_iff]

/-- An entry that is written over by one with the same uid and limits. -/
theorem Unaltered.insert (h : Unaltered l₀ l) {l' : Limiter} {k : String} {u v : UserLimitInfo}
    (hu : l.userLimitInfo.lookup k = some u) (hl' : l'.userLimitInfo = l.userLimitInfo.insert k v)
    (hv : v.own = u.own) : Unaltered l₀ l' := by
  intro k'
  rw [hl', GoMap.lookup_insert]
  split_ifs with hk
  · rw [hk, ← h k, hu, Option.map_some, Option.map_some, hv]
  · exact h k'

theorem Unaltered.of_eq (h : Unaltered l₀ l) {l' : Limiter}
    (hl' : l'.userLimitInfo = l.userLimitInfo) : Unaltered l₀ l' := by
  intro k
  rw [hl', h k]

/-- A connection, unless it finds the end of a dynamic limit of a user without a limit of its own.
-/
theorem Unaltered.checkLimit (h : Unaltered l₀ l) {now : ℤ} {taguuid ip : String}
    {isTcp noSSUDP : Bool} (hok : l.Harmless (.check now taguuid ip isTcp noSSUDP)) :
    Unaltered l₀ (l.checkLimit now taguuid ip isTcp noSSUDP).1 := by
  cases hu : l.userLimitInfo.lookup taguuid with
  | none => rwa [checkLimit_of_isUnknown hu]
  | some u =>
    have husers := userLimitInfo_checkLimit hu now ip isTcp noSSUDP
    unfold userSpeedLimit at husers
    split_ifs at husers with hexpired hspeed
    · exact h.insert hu husers rfl
    · exact (hok u hu ⟨hexpired, not_not.mp hspeed⟩).elim
    · exact h.of_eq husers

/-- **One harmless call** leaves the users as they are. -/
theorem Unaltered.step (h : Unaltered l₀ l) {e : LimiterEvent} (he : e.Concerns l₀)
    (hok : l.Harmless e) : Unaltered l₀ (l.step e) := by
  cases e with
  | check now taguuid ip isTcp noSSUDP => exact h.checkLimit hok
  | report range ips =>
    refine h.of_eq ?_
    rw [Limiter.step, getOnlineDevice_eq]
  | update tag added deleted => exact he.elim
  | updateDynamic tag uuid limit expire =>
    rw [Limiter.step, updateDynamicSpeedLimit]
    split
    · rename_i info hinfo
      exact h.insert hinfo rfl rfl
    · exact h
  | addDynamic now tag userInfo limitNum expire =>
    obtain ⟨u, hu⟩ := Option.ne_none_iff_exists'.mp fun hnone => he ((h.isUnknown_iff _).mp hnone)
    exact h.insert hu rfl (hok u hu).symm
  | setAlive alive => exact h.of_eq rfl

/-- **One call that is not harmless** alters a user. -/
theorem not_unaltered_step (h : Unaltered l₀ l) {e : LimiterEvent} (hbad : ¬ l.Harmless e) :
    ¬ Unaltered l₀ (l.step e) := by
  intro h'
  cases e with
  | check now taguuid ip isTcp noSSUDP =>
    obtain ⟨u, hu, hend⟩ : ∃ u, l.userLimitInfo.lookup taguuid = some u ∧
        ((u.expireTime < now ∧ u.expireTime ≠ 0) ∧ u.speedLimit = 0) := by
      by_contra hnone
      exact hbad fun u hu hend => hnone ⟨u, hu, hend⟩
    have hgone : (l.step (.check now taguuid ip isTcp noSSUDP)).IsUnknown taguuid := by
      rw [IsUnknown, Limiter.step, userLimitInfo_checkLimit hu, userSpeedLimit, if_pos hend.1,
        if_neg fun hspeed => hspeed hend.2, GoMap.lookup_erase, if_pos rfl]
    rw [h'.isUnknown_iff, ← h.isUnknown_iff, IsUnknown, hu] at hgone
    cases hgone
  | addDynamic now tag userInfo limitNum expire =>
    obtain ⟨u, hu, hown⟩ : ∃ u, l.userLimitInfo.lookup (userTag tag userInfo.uuid) = some u ∧
        u.own ≠ (0, 0, 0) := by
      by_contra hnone
      exact hbad fun u hu => by_contra fun hown => hnone ⟨u, hu, hown⟩
    have hk := (h' (userTag tag userInfo.uuid)).trans (h _).symm
    rw [Limiter.step, addDynamicSpeedLimit, GoMap.lookup_insert, if_pos rfl, hu] at hk
    exact hown (Option.some.inj hk).symm
  | report range ips => exact hbad trivial
  | update tag added deleted => exact hbad trivial
  | updateDynamic tag uuid limit expire => exact hbad trivial
  | setAlive alive => exact hbad trivial

end Limiter

/-- **Dynamic limits.** In a run of connections, reports and dynamic limits, the registered users
and their own uids and limits stay as they were at the creation of the limiter, and every user is
still accepted, if and only if all calls are harmless. -/
theorem unaltered_iff_harmless (tag : String) (conf : LimitConfig) (users : List UserInfo)
    (aliveList : GoMap ℤ ℤ) {es : List LimiterEvent}
    (hes : ∀ e ∈ es, e.Concerns (newLimiter tag conf users aliveList)) :
    (∀ p q, es = p ++ q →
      Limiter.Unaltered (newLimiter tag conf users aliveList)
        (p.foldl Limiter.step (newLimiter tag conf users aliveList)) ∧
      ∀ k, ¬ (newLimiter tag conf users aliveList).IsUnknown k → ∀ now ip isTcp,
        ((p.foldl Limiter.step (newLimiter tag conf users aliveList)).checkLimit now k ip isTcp
          false).2.2 = false) ↔
    Guarded Limiter.step Limiter.Harmless (newLimiter tag conf users aliveList) es := by
  generalize newLimiter tag conf users aliveList = l₀ at hes ⊢
  have hsafe (l : Limiter) (h : l₀.Unaltered l) : l₀.Unaltered l ∧
      ∀ k, ¬ l₀.IsUnknown k → ∀ now ip isTcp, (l.checkLimit now k ip isTcp false).2.2 = false := by
    refine ⟨h, fun k hk now ip isTcp => ?_⟩
    obtain ⟨u, hu⟩ := Option.ne_none_iff_exists'.mp fun hnone => hk ((h.isUnknown_iff k).mp hnone)
    exact (Limiter.checkLimit_udp hu now ip isTcp).1
  refine (Guarded.iff_forall_safe hsafe (fun l e he h hok => h.step (hes e he) hok)
    (fun l e _ h hbad hsafe' => Limiter.not_unaltered_step h hbad hsafe'.1) fun _ => rfl).symm

/-- A user with a speed limit of its own and one without. -/
def limitedUsers : List UserInfo := [⟨1, "a", 100, 2⟩, ⟨2, "b", 0, 2⟩]

/-- A dynamic limit until the time 5, and a connection at the time 6. -/
def expiredLimit (uuid : String) : List LimiterEvent :=
  [.updateDynamic "n" uuid 10 5, .check 6 (userTag "n" uuid) "1.1.1.1" true true]

/-- The user with a speed limit of its own is accepted after the end of its dynamic limit. -/
theorem expiredLimit_accepted :
    (((expiredLimit "a").foldl Limiter.step (newLimiter "n" {} limitedUsers ∅)).checkLimit 7
      (userTag "n" "a") "1.1.1.1" true false).2.2 = false := by
  have hes : ∀ e ∈ expiredLimit "a", e.Concerns (newLimiter "n" {} limitedUsers ∅) := by
    simp [expiredLimit, LimiterEvent.Concerns]
  exact ((unaltered_iff_harmless "n" {} limitedUsers ∅ hes).mpr (by decide) _ [] rfl).2 _
    (by decide) 7 _ _

/-- The user without one is unknown from then on, and a user that `AddDynamicSpeedLimit` has limited
has neither a uid nor a device limit. -/
theorem expiredLimit_rejected :
    ¬ (newLimiter "n" {} limitedUsers ∅).IsUnknown (userTag "n" "b") ∧
    (((expiredLimit "b").foldl Limiter.step (newLimiter "n" {} limitedUsers ∅)).checkLimit 7
      (userTag "n" "b") "1.1.1.1" true false).2.2 = true ∧
    ((newLimiter "n" {} limitedUsers ∅).userLimitInfo.lookup (userTag "n" "a")).map
      UserLimitInfo.own = some (1, 100, 2) ∧
    (((newLimiter "n" {} limitedUsers ∅).step
      (.addDynamic 0 "n" ⟨1, "a", 100, 2⟩ 10 60)).userLimitInfo.lookup (userTag "n" "a")).map
        UserLimitInfo.own = some (0, 0, 0) :=
  ⟨by decide, by decide, by decide, by decide⟩

end Tox.Limit
