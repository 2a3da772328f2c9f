import Tox.Limiter.Basic

/-!
# Registered limiters

The limiter package keeps one limiter for every tag in a global map of pointers. A controller keeps
the pointer to its limiter as well and changes the limiter through it, while the cores look the
limiter up by the tag of a connection. The limiters allocated so far are a list and a pointer is a
position in it, as for the traffic storages.
-/

namespace Tox.Limit

open Tox.Foundation Tox.Format Tox.Panel

/-- Without pointers there is nothing to point to. -/
theorem lt_length_of_lookup_empty (tag : String) (p : ℕ)
    (h : (∅ : GoMap String ℕ).lookup tag = some p) : p < ([] : List Limiter).length := by
  rw [Finmap.lookup_empty] at h
  cases h

/-- The limiters of the program. -/
structure LimiterStore where
  /-- The limiters allocated so far, those that are no longer registered included. -/
  limiters : List Limiter := []
  /-- The global map `limiter`, with the pointer of every tag. -/
  registry : GoMap String ℕ := ∅
  lt_length : ∀ tag p, registry.lookup tag = some p → p < limiters.length := by
    exact lt_length_of_lookup_empty

namespace LimiterStore

variable (st : LimiterStore)

/-- The limiter at a pointer. -/
def get (p : ℕ) : Option Limiter := st.limiters[p]?

/-- `limiter.AddLimiter`. -/
def addLimiter (tag : String) (conf : LimitConfig) (users : List UserInfo)
    (aliveList : GoMap ℤ ℤ) : LimiterStore × ℕ :=
  ({ limiters := st.limiters ++ [newLimiter tag conf users aliveList]
     registry := st.registry.insert tag st.limiters.length
     lt_length := fun t p h => by
      rw [GoMap.lookup_insert] at h
      rw [List.length_append, List.length_singleton]
      split_ifs at h
      · cases h
        exact Nat.lt_succ_self _
      · exact Nat.lt_succ_of_lt (st.lt_length t p h) },
    st.limiters.length)

/-- `limiter.GetLimiter`. -/
def getLimiter (tag : String) : Option Limiter := (st.registry.lookup tag).bind st.get

/-- `limiter.DeleteLimiter`: the tag is dropped; the limiter stays where it is. -/
def deleteLimiter (tag : String) : LimiterStore where
  limiters := st.limiters
  registry := st.registry.erase tag
  lt_length t p h := by
    rw [GoMap.lookup_erase] at h
    split_ifs at h
    exact st.lt_length t p h

/-- A change of the limiter at a pointer. -/
def modify (p : ℕ) (f : Limiter → Limiter) : LimiterStore where
  limiters := st.limiters.modify p f
  registry := st.registry
  lt_length t q h := by rw [List.length_modify]; exact st.lt_length t q h

/-- `Limiter.UpdateRule` through a pointer. A pattern that does not compile panics; there is no
other failure. -/
def updateRule (compiles : String → Bool) (p : ℕ) (rule : Rules) :
    Except PanicKind LimiterStore :=
  if rule.regexp.all compiles then .ok (st.modify p fun l => l.setRules rule)
  else .error .regexpCompile

/-- The alive list of the limiter at a pointer replaced, if there is a new one. -/
def setAliveList (p : ℕ) (alive : Option (GoMap ℤ ℤ)) : LimiterStore :=
  match alive with
  | none => st
  | some alive => st.modify p fun l => { l with aliveList := alive }

/-! ### Reading after one operation -/

theorem get_addLimiter (tag : String) (conf : LimitConfig) (users : List UserInfo)
    (aliveList : GoMap ℤ ℤ) :
    (st.addLimiter tag conf users aliveList).1.get (st.addLimiter tag conf users aliveList).2 =
      some (newLimiter tag conf users aliveList) := by
  simp [get, addLimiter]

theorem getLimiter_addLimiter (tag : String) (conf : LimitConfig) (users : List UserInfo)
    (aliveList : GoMap ℤ ℤ) :
    (st.addLimiter tag conf users aliveList).1.getLimiter tag =
      some (newLimiter tag conf users aliveList) := by
  have hlook : (st.addLimiter tag conf users aliveList).1.registry.lookup tag =
      some (st.addLimiter tag conf users aliveList).2 :=
    Finmap.lookup_insert _
  rw [getLimiter, hlook, Option.bind_some, get_addLimiter]

theorem updateRule_ok {st st' : LimiterStore} {compiles : String → Bool} {p : ℕ} {rule : Rules}
    (h : st.updateRule compiles p rule = .ok st') : st' = st.modify p fun l => l.setRules rule := by
  unfold updateRule at h
  split_ifs at h
  cases h
  rfl

theorem get_modify (p q : ℕ) (f : Limiter → Limiter) :
    (st.modify p f).get q = if p = q then (st.get q).map f else st.get q := by
  simp only [get, modify, List.getElem?_modify]
  split_ifs
  · rfl
  · cases st.limiters[q]? <;> rfl

/-- A change that keeps the entries of the limiter at `p` keeps those of every limiter. -/
theorem userLimitInfo_get_modify {p : ℕ} {f : Limiter → Limiter}
    (hf : ∀ l, (f l).userLimitInfo = l.userLimitInfo) (q : ℕ) :
    ((st.modify p f).get q).map Limiter.userLimitInfo = (st.get q).map Limiter.userLimitInfo := by
  rw [get_modify]
  split_ifs
  · cases st.get q with
    | none => rfl
    | some l => exact congrArg some (hf l)
  · rfl

theorem get_setAliveList (p : ℕ) (alive : Option (GoMap ℤ ℤ)) :
    (st.setAliveList p alive).get p =
      (st.get p).map fun l => { l with aliveList := alive.getD l.aliveList } := by
  cases alive with
  | none => exact Option.map_id'.symm
  | some alive => rw [setAliveList, get_modify, if_pos rfl]; rfl

theorem userLimitInfo_get_setAliveList (p : ℕ) (alive : Option (GoMap ℤ ℤ)) (q : ℕ) :
    ((st.setAliveList p alive).get q).map Limiter.userLimitInfo =
      (st.get q).map Limiter.userLimitInfo := by
  cases alive with
  | none => rfl
  | some alive =>
    exact st.userLimitInfo_get_modify (f := fun l => { l with aliveList := alive }) (fun _ => rfl) q

theorem userLimitInfo_getLimiter_modify {p : ℕ} {f : Limiter → Limiter}
    (hf : ∀ l, (f l).userLimitInfo = l.userLimitInfo) (tag : String) :
    ((st.modify p f).getLimiter tag).map Limiter.userLimitInfo =
      (st.getLimiter tag).map Limiter.userLimitInfo := by
  have hreg : (st.modify p f).registry = st.registry := rfl
  simp only [getLimiter, hreg]
  cases st.registry.lookup tag with
  | none => rfl
  | some q => exact st.userLimitInfo_get_modify hf q

theorem userLimitInfo_getLimiter_setRules (p : ℕ) (rule : Rules) (tag : String) :
    ((st.modify p fun l => l.setRules rule).getLimiter tag).map Limiter.userLimitInfo =
      (st.getLimiter tag).map Limiter.userLimitInfo :=
  st.userLimitInfo_getLimiter_modify (f := fun l => l.setRules rule) (fun _ => rfl) tag

theorem userLimitInfo_getLimiter_setAliveList (p : ℕ) (alive : Option (GoMap ℤ ℤ))
    (tag : String) : ((st.setAliveList p alive).getLimiter tag).map Limiter.userLimitInfo =
      (st.getLimiter tag).map Limiter.userLimitInfo := by
  cases alive with
  | none => rfl
  | some alive =>
    exact st.userLimitInfo_getLimiter_modify (f := fun l => { l with aliveList := alive })
      (fun _ => rfl) tag

/-- A limiter is registered under the tag, and it agrees with the users. -/
def Agrees (tag : String) (users : List UserInfo) : Prop :=
  ∃ l, st.getLimiter tag = some l ∧ l.Agrees tag users

/-- Agreement depends on the entries of the registered limiter only. -/
theorem agrees_iff_of_userLimitInfo_eq {st : LimiterStore} {tag : String}
    {entries : Option (GoMap String UserLimitInfo)}
    (h : (st.getLimiter tag).map Limiter.userLimitInfo = entries) (users : List UserInfo) :
    st.Agrees tag users ↔
      ∃ m, entries = some m ∧ ({ userLimitInfo := m } : Limiter).Agrees tag users := by
  subst h
  constructor
  · rintro ⟨l, hl, hagrees⟩
    exact ⟨l.userLimitInfo, by rw [hl, Option.map_some], hagrees⟩
  · rintro ⟨m, hm, hagrees⟩
    obtain ⟨l, hl, rfl⟩ := Option.map_eq_some_iff.mp hm
    exact ⟨l, hl, hagrees⟩

/-- A registered limiter without an entry for a user does not agree with a list that has it. -/
theorem not_agrees_of_lookup_eq_none {st : LimiterStore} {tag : String} {users : List UserInfo}
    {u : UserInfo} (hu : u ∈ users)
    (h : (st.getLimiter tag).map (fun l => l.userLimitInfo.lookup (userTag tag u.uuid)) =
      some none) : ¬ st.Agrees tag users := by
  rintro ⟨l, hl, hagrees⟩
  obtain ⟨info, hinfo, -⟩ := hagrees.1 u hu
  rw [hl, Option.map_some, hinfo] at h
  cases h

end LimiterStore

end Tox.Limit
