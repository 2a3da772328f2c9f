import Tox.Core.Traffic

/-!
# Two registries that agree on a node

The accounting maps of a core serve several nodes. `TrafficRegistry.Agree t K r r'` says that two
registries cannot be told apart by the node `t` whose users have the keys `K`: the counters and the
report threshold of the node are the same, and so are the user ids of these keys. Operations of
other nodes lead to a registry that agrees with the one before, provided that they leave the user
ids of the keys `K` alone; operations of the node `t` lead from registries that agree to registries
that agree, and return the same.
-/

namespace Tox.Core.TrafficRegistry

open Tox.Foundation Tox.Counter Tox.Panel

/-- The two registries have the same counters and the same threshold for the node `t`, and the same
user ids for the keys `K`. -/
structure Agree (t : String) (K : String → Prop) (r r' : TrafficRegistry) : Prop where
  counter : r.trafficCounter t = r'.trafficCounter t
  minTraffic : r.minTraffic t = r'.minTraffic t
  uid : ∀ k, K k → r.uid k = r'.uid k

variable {t tag : String} {K K' : String → Prop} {r r' r'' : TrafficRegistry}

namespace Agree

theorem refl (r : TrafficRegistry) : Agree t K r r := ⟨rfl, rfl, fun _ _ => rfl⟩

theorem trans (h : Agree t K r r') (h' : Agree t K r' r'') : Agree t K r r'' :=
  ⟨h.counter.trans h'.counter, h.minTraffic.trans h'.minTraffic,
    fun k hk => (h.uid k hk).trans (h'.uid k hk)⟩

theorem mono (h : Agree t K r r') (hK : ∀ k, K' k → K k) : Agree t K' r r' :=
  ⟨h.counter, h.minTraffic, fun k hk => h.uid k (hK k hk)⟩

end Agree

/-! ### The counted keys after an operation -/

theorem mem_of_mem_attach {key k : String}
    (h : k ∈ ((r.attach tag key).1.trafficCounter t).counters) :
    (t = tag ∧ k = key) ∨ k ∈ (r.trafficCounter t).counters := by
  rw [trafficCounter_attach] at h
  split_ifs at h with ht
  · subst ht
    by_cases hk : k = key
    · exact Or.inl ⟨rfl, hk⟩
    · rw [← Finmap.lookup_isSome, TrafficCounter.lookup_getCounter_of_ne _ hk,
        Finmap.lookup_isSome] at h
      exact Or.inr h
  · exact Or.inr h

theorem mem_of_mem_addTo {p : ℕ} {d : Direction} {n : Int64} {k : String}
    (h : k ∈ ((r.addTo tag p d n).trafficCounter t).counters) :
    k ∈ (r.trafficCounter t).counters := by
  rw [trafficCounter_addTo] at h
  split_ifs at h with ht
  · subst ht
    exact h
  · exact h

theorem mem_of_mem_getUserTrafficSlice {reset : Bool} {range : RangeOrder String} {k : String}
    (h : k ∈ ((r.getUserTrafficSlice tag reset range).1.trafficCounter t).counters) :
    k ∈ (r.trafficCounter t).counters := by
  rw [trafficCounter_getUserTrafficSlice] at h
  split_ifs at h with ht
  · subst ht
    exact mem_of_mem_rangeCounters _ reset h
  · exact h

theorem mem_of_mem_foldl_forget {key : UserInfo → String} {users : List UserInfo} {k : String}
    (h : k ∈ ((users.foldl (fun r u => r.forget tag (key u)) r).trafficCounter t).counters) :
    k ∈ (r.trafficCounter t).counters := by
  induction users generalizing r with
  | nil => exact h
  | cons u users ih =>
    have hrest := ih h
    rw [trafficCounter_forget] at hrest
    split_ifs at hrest with ht
    · subst ht
      exact (Finmap.mem_erase.mp hrest).2
    · exact hrest

/-! ### Operations of other nodes -/

section Other

variable (K r)

theorem agree_setMinTraffic_of_ne (htag : t ≠ tag) (n : Int64) :
    Agree t K { r with
      nodeReportMinTrafficBytes := r.nodeReportMinTrafficBytes.insert tag n } r :=
  ⟨rfl, by simp only [TrafficRegistry.minTraffic, GoMap.getD, GoMap.lookup_insert, if_neg htag],
    fun _ _ => rfl⟩

theorem agree_attach_of_ne (htag : t ≠ tag) (key : String) :
    Agree t K (r.attach tag key).1 r :=
  ⟨by rw [trafficCounter_attach, if_neg htag], by rw [minTraffic_attach], fun _ _ => by
    rw [uid_attach]⟩

theorem agree_addTo_of_ne (htag : t ≠ tag) (p : ℕ) (d : Direction) (n : Int64) :
    Agree t K (r.addTo tag p d n) r :=
  ⟨by rw [trafficCounter_addTo, if_neg htag], by rw [minTraffic_addTo], fun _ _ => by
    rw [uid_addTo]⟩

theorem agree_getUserTrafficSlice_of_ne (htag : t ≠ tag) (reset : Bool)
    (range : RangeOrder String) : Agree t K (r.getUserTrafficSlice tag reset range).1 r :=
  ⟨by rw [trafficCounter_getUserTrafficSlice, if_neg htag],
    by rw [minTraffic_getUserTrafficSlice], fun _ _ => by rw [uid_getUserTrafficSlice]⟩

variable {K r}

/-- Users of the node may be registered again with the id they have. -/
theorem agree_register_of_forall {key : UserInfo → String} {users : List UserInfo}
    (h : ∀ u ∈ users, K (key u) → u.id = r.uid (key u)) : Agree t K (r.register key users) r :=
  ⟨rfl, rfl, fun _ hk => uid_register_of_forall r fun u hu hkey => hkey ▸ h u hu (hkey ▸ hk)⟩

theorem agree_forget_of_ne (htag : t ≠ tag) {key : String} (h : K key → r.uid key = 0) :
    Agree t K (r.forget tag key) r := by
  refine ⟨by rw [trafficCounter_forget, if_neg htag], by rw [minTraffic_forget], fun k hk => ?_⟩
  rw [uid_forget]
  split_ifs with hkey
  · subst hkey
    exact (h hk).symm
  · rfl

/-- Users of the node may be forgotten if they have no user id. -/
theorem agree_foldl_forget_of_ne (htag : t ≠ tag) (key : UserInfo → String)
    {users : List UserInfo} (h : ∀ u ∈ users, K (key u) → r.uid (key u) = 0) :
    Agree t K (users.foldl (fun r u => r.forget tag (key u)) r) r := by
  induction users generalizing r with
  | nil => exact Agree.refl r
  | cons u users ih =>
    obtain ⟨hu, husers⟩ := List.forall_mem_cons.mp h
    have hfirst : Agree t K (r.forget tag (key u)) r := agree_forget_of_ne htag hu
    exact (ih fun v hv hK => (hfirst.uid (key v) hK).trans (husers v hv hK)).trans hfirst

end Other

/-! ### Operations of the node -/

namespace Agree

theorem setMinTraffic (h : Agree t K r r') (n : Int64) :
    Agree t K
      { r with nodeReportMinTrafficBytes := r.nodeReportMinTrafficBytes.insert t n }
      { r' with nodeReportMinTrafficBytes := r'.nodeReportMinTrafficBytes.insert t n } :=
  ⟨h.counter, by simp only [TrafficRegistry.minTraffic, GoMap.getD, GoMap.lookup_insert, if_true],
    h.uid⟩

theorem attach (h : Agree t K r r') (key : String) :
    (r.attach t key).2 = (r'.attach t key).2 ∧
      Agree t K (r.attach t key).1 (r'.attach t key).1 := by
  refine ⟨congrArg (fun c => (c.getCounter key).2) h.counter, ?_, h.minTraffic, h.uid⟩
  rw [trafficCounter_attach, trafficCounter_attach, if_pos rfl, if_pos rfl, h.counter]

theorem addTo (h : Agree t K r r') (p : ℕ) (d : Direction) (n : Int64) :
    Agree t K (r.addTo t p d n) (r'.addTo t p d n) := by
  refine ⟨?_, ?_, fun k hk => ?_⟩
  · rw [trafficCounter_addTo, trafficCounter_addTo, if_pos rfl, if_pos rfl, h.counter]
  · rw [minTraffic_addTo, minTraffic_addTo, h.minTraffic]
  · rw [uid_addTo, uid_addTo, h.uid k hk]

/-- Registering users makes their user ids the same. -/
theorem register (h : Agree t K r r') (key : UserInfo → String) (users : List UserInfo) :
    Agree t (fun k => K k ∨ ∃ u ∈ users, key u = k) (r.register key users)
      (r'.register key users) :=
  ⟨h.counter, h.minTraffic, fun _ hk => uid_register_congr (hk.imp_left (h.uid _))⟩

theorem foldl_forget (h : Agree t K r r') (key : UserInfo → String) (users : List UserInfo) :
    Agree t K (users.foldl (fun r u => r.forget t (key u)) r)
      (users.foldl (fun r u => r.forget t (key u)) r') := by
  induction users generalizing r r' with
  | nil => exact h
  | cons u users ih =>
    refine ih ⟨?_, ?_, fun k hk => ?_⟩
    · rw [trafficCounter_forget, trafficCounter_forget, if_pos rfl, if_pos rfl, h.counter]
    · rw [minTraffic_forget, minTraffic_forget, h.minTraffic]
    · rw [uid_forget, uid_forget, h.uid k hk]

/-- The slices of the node are the same if the counted keys are among the keys `K`. -/
theorem getUserTrafficSlice (h : Agree t K r r')
    (hK : ∀ k ∈ (r'.trafficCounter t).counters, K k) (reset : Bool) (range : RangeOrder String) :
    (r.getUserTrafficSlice t reset range).2 = (r'.getUserTrafficSlice t reset range).2 ∧
      Agree t K (r.getUserTrafficSlice t reset range).1
        (r'.getUserTrafficSlice t reset range).1 := by
  have hloop : rangeCounters r.uid (r.minTraffic t) reset range (r.trafficCounter t) =
      rangeCounters r'.uid (r'.minTraffic t) reset range (r'.trafficCounter t) := by
    rw [h.counter, h.minTraffic]
    exact rangeCounters_congr _ reset range _ fun k hk => h.uid k (hK k hk)
  refine ⟨?_, ?_, ?_, fun k hk => ?_⟩
  · rw [getUserTrafficSlice_snd, getUserTrafficSlice_snd, hloop]
  · rw [trafficCounter_getUserTrafficSlice, trafficCounter_getUserTrafficSlice, if_pos rfl,
      if_pos rfl, hloop]
  · rw [minTraffic_getUserTrafficSlice, minTraffic_getUserTrafficSlice, h.minTraffic]
  · rw [uid_getUserTrafficSlice, uid_getUserTrafficSlice, h.uid k hk]

end Agree

end Tox.Core.TrafficRegistry
