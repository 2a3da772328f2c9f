import Mathlib.Data.List.Forall2
import Tox.Limiter.Registry

/-!
# Replacing the rules of a limiter

`UpdateRule` puts a new slice of nil pointers in the place of the domain rules, compiles the
patterns into it one after the other, and takes the protocol rules over at the end. It declares an
error and never returns one: a pattern that does not compile panics in the middle of the loop. The
slice then has the patterns before it and nil pointers from there on, and the protocol rules are
still the old ones. No caller recovers, and a connection that reaches a nil pointer panics in turn.

In the registry of limiters the rules are a list of patterns and an update is one change
(`LimiterStore.updateRule`). The slices refine it: both panic on the same rules, and the slices hold
the compiled patterns of the limiter otherwise (`RuleSlices.updateRule_refines`).
-/

namespace Tox.Limit

open Tox.Panel

variable {ρ : Type*}

/-- The rules of a limiter as the source has them, with compiled expressions `ρ`. The entry `none`
is a nil pointer. -/
@[ext] structure RuleSlices (ρ : Type*) where
  domainRules : List (Option ρ) := []
  protocolRules : List String := []
deriving DecidableEq

/-! ### The patterns before the first failure -/

/-- `regexp.MustCompile`. -/
def mustCompile (compile : String → Except String ρ) (pattern : String) : Except PanicKind ρ :=
  match compile pattern with
  | .ok r => .ok r
  | .error _ => .error .regexpCompile

/-- The compiled patterns up to the first that does not compile. -/
def compiledPrefix (compile : String → Except String ρ) : List String → List ρ
  | [] => []
  | p :: ps =>
    match compile p with
    | .ok r => r :: compiledPrefix compile ps
    | .error _ => []

section Prefix

variable {compile : String → Except String ρ} {ps : List String}

theorem length_compiledPrefix_le (compile : String → Except String ρ) (ps : List String) :
    (compiledPrefix compile ps).length ≤ ps.length := by
  induction ps with
  | nil => exact le_rfl
  | cons p ps ih =>
    rw [compiledPrefix, List.length_cons]
    split
    · exact Nat.succ_le_succ ih
    · exact Nat.zero_le _

/-- The prefix is everything if and only if every pattern compiles. -/
theorem length_compiledPrefix_eq_iff :
    (compiledPrefix compile ps).length = ps.length ↔ ∀ p ∈ ps, ∃ r, compile p = .ok r := by
  induction ps with
  | nil => exact iff_of_true rfl fun p hp => absurd hp List.not_mem_nil
  | cons p ps ih =>
    rw [compiledPrefix, List.forall_mem_cons]
    rcases compile p with e | r
    · exact iff_of_false (Nat.succ_ne_zero _).symm fun h => nomatch h.1.choose_spec
    · rw [← ih, and_iff_right ⟨r, rfl⟩]
      exact Nat.succ_inj

theorem forall₂_compiledPrefix (h : ∀ p ∈ ps, ∃ r, compile p = .ok r) :
    List.Forall₂ (fun p r => compile p = .ok r) ps (compiledPrefix compile ps) := by
  induction ps with
  | nil => exact .nil
  | cons p ps ih =>
    obtain ⟨⟨r, hr⟩, hps⟩ := List.forall_mem_cons.mp h
    rw [compiledPrefix, hr]
    exact .cons hr (ih hps)

end Prefix

namespace RuleSlices

/-! ### The update -/

/-- The loop of `UpdateRule` over the patterns from the index `i` on, with the panic it ends in. -/
def compileFrom (compile : String → Except String ρ) (s : RuleSlices ρ) (i : ℕ) :
    List String → RuleSlices ρ × Option PanicKind
  | [] => (s, none)
  | p :: ps =>
    match mustCompile compile p with
    | .ok r => compileFrom compile { s with domainRules := s.domainRules.set i (some r) } (i + 1) ps
    | .error k => (s, some k)

/-- `Limiter.UpdateRule`: the rules afterwards, and the error it returns or the panic. -/
def updateRule (compile : String → Except String ρ) (s : RuleSlices ρ) (rule : Rules) :
    RuleSlices ρ × Except PanicKind (Option String) :=
  match compileFrom compile { s with domainRules := List.replicate rule.regexp.length none } 0
      rule.regexp with
  | (s, some k) => (s, .error k)
  | (s, none) => ({ s with protocolRules := rule.protocol }, .ok none)

/-- `Limiter.CheckDomainRule` with the method call on each pointer. -/
def checkDomainRule (matchString : ρ → String → Bool) (destination : String) :
    List (Option ρ) → Except PanicKind Bool
  | [] => .ok false
  | none :: _ => .error .nilDereference
  | some r :: rules =>
    if matchString r destination then .ok true else checkDomainRule matchString destination rules

/-- The pointers before the first nil pointer decide first. -/
theorem checkDomainRule_append (matchString : ρ → String → Bool) (destination : String)
    (rs : List ρ) (rules : List (Option ρ)) :
    checkDomainRule matchString destination (rs.map some ++ rules) =
      if rs.any (matchString · destination) then .ok true
      else checkDomainRule matchString destination rules := by
  induction rs with
  | nil => rfl
  | cons r rs ih =>
    rw [List.map_cons, List.cons_append, checkDomainRule, ih, List.any_cons]
    by_cases hr : matchString r destination
    · simp only [hr, if_true, Bool.true_or]
    · simp only [hr, Bool.false_or, Bool.false_eq_true, if_false]

section Update

variable (compile : String → Except String ρ) (s : RuleSlices ρ) (rule : Rules)

/-- The slice after the loop, and the panic. -/
theorem compileFrom_eq (done : List (Option ρ)) (ps : List String)
    (hs : s.domainRules = done ++ List.replicate ps.length none) :
    compileFrom compile s done.length ps =
      ({ s with
          domainRules := done ++ ((compiledPrefix compile ps).map some ++
            List.replicate (ps.length - (compiledPrefix compile ps).length) none) },
        if (compiledPrefix compile ps).length = ps.length then none else some .regexpCompile) := by
  induction ps generalizing s done with
  | nil =>
    exact congrArg (·, none) (RuleSlices.ext hs rfl)
  | cons p ps ih =>
    rw [compileFrom, compiledPrefix, mustCompile]
    rcases compile p with e | r
    · dsimp only
      rw [List.length_nil, List.length_cons, if_neg (Nat.succ_ne_zero _).symm]
      exact congrArg (·, some PanicKind.regexpCompile) (RuleSlices.ext hs rfl)
    · -- The entry under the index becomes the compiled pattern and joins those that are done.
      have hset : s.domainRules.set done.length (some r) =
          (done ++ [some r]) ++ List.replicate ps.length none := by
        rw [hs, List.set_append_right _ _ le_rfl, Nat.sub_self, List.length_cons,
          List.replicate_succ, List.set_cons_zero, List.append_assoc, List.singleton_append]
      have hlen : (done ++ [some r]).length = done.length + 1 := List.length_append
      dsimp only
      rw [← hlen, ih _ _ hset]
      simp only [List.append_assoc, List.map_cons, List.cons_append, List.nil_append,
        List.length_cons, Nat.add_sub_add_right, Nat.succ_inj]

/-- Every outcome of an update: the rules are replaced, or the update panics. -/
theorem updateRule_eq : s.updateRule compile rule =
    if (compiledPrefix compile rule.regexp).length = rule.regexp.length then
      (⟨(compiledPrefix compile rule.regexp).map some, rule.protocol⟩, .ok none)
    else
      (⟨(compiledPrefix compile rule.regexp).map some ++
          List.replicate
            (rule.regexp.length - (compiledPrefix compile rule.regexp).length) none,
        s.protocolRules⟩, .error .regexpCompile) := by
  have hloop := compileFrom_eq compile
    { s with domainRules := List.replicate rule.regexp.length none } [] rule.regexp rfl
  rw [updateRule, show (0 : ℕ) = ([] : List (Option ρ)).length from rfl, hloop]
  split_ifs with hall
  · dsimp only
    rw [hall, Nat.sub_self, List.replicate_zero, List.append_nil, List.nil_append]
  · rfl

/-- **An update is not atomic.** The given rules are installed, or the previous rules stay in force
and an error is returned, if and only if every pattern compiles. If a pattern does not, the update
panics. The domain rules are then the compiled patterns before the first failure and nil pointers
after them; a connection to a destination that these patterns do not match dereferences one. -/
theorem updateRule_atomic_iff (matchString : ρ → String → Bool) :
    (((∃ rs, List.Forall₂ (fun p r => compile p = .ok r) rule.regexp rs ∧
          s.updateRule compile rule = (⟨rs.map some, rule.protocol⟩, .ok none)) ∨
        ∃ err, s.updateRule compile rule = (s, .ok (some err))) ↔
      ∀ p ∈ rule.regexp, ∃ r, compile p = .ok r) ∧
    ((¬ ∀ p ∈ rule.regexp, ∃ r, compile p = .ok r) →
      (s.updateRule compile rule).2 = .error .regexpCompile ∧
      (s.updateRule compile rule).1.protocolRules = s.protocolRules ∧
      ∀ destination,
        checkDomainRule matchString destination (s.updateRule compile rule).1.domainRules =
          if (compiledPrefix compile rule.regexp).any (matchString · destination) then .ok true
          else .error .nilDereference) := by
  rw [← length_compiledPrefix_eq_iff, updateRule_eq]
  refine ⟨⟨?_, fun hall => Or.inl ?_⟩, fun hall => ?_⟩
  · split_ifs with hall
    · exact fun _ => hall
    · rintro (⟨rs, -, hrs⟩ | ⟨err, herr⟩)
      · cases congrArg Prod.snd hrs
      · cases congrArg Prod.snd herr
  · rw [if_pos hall]
    exact ⟨_, forall₂_compiledPrefix (length_compiledPrefix_eq_iff.mp hall), rfl⟩
  · rw [if_neg hall]
    refine ⟨rfl, rfl, fun destination => ?_⟩
    obtain ⟨n, hn⟩ :
        ∃ n, rule.regexp.length - (compiledPrefix compile rule.regexp).length = n + 1 :=
      Nat.exists_eq_succ_of_ne_zero (Nat.sub_ne_zero_of_lt
        (lt_of_le_of_ne (length_compiledPrefix_le compile rule.regexp) hall))
    dsimp only
    rw [checkDomainRule_append, hn, List.replicate_succ, checkDomainRule]

end Update

/-- A block route of the panel with the pattern `(`, which the compiler of the example refuses. The
old rule is gone and the old protocol rule is still there; a connection to the domain of the old
rule panics. -/
theorem updateRule_panics :
    let node : NodeInfo := { id := 1, type := .vless }
    let block : Route := ⟨1, .array [.string "regexp:a.com", .string "regexp:("], "block", ""⟩
    let compile : String → Except String String := fun p =>
      if p = "(" then .error "missing closing )" else .ok p
    let old : RuleSlices String := ⟨[some "b.com"], ["bittorrent"]⟩
    (parseRoutes node 0 [block]).map (·.rules) = .ok ⟨["a.com", "("], []⟩ ∧
    old.updateRule compile ⟨["a.com", "("], []⟩ =
      (⟨[some "a.com", none], ["bittorrent"]⟩, .error .regexpCompile) ∧
    checkDomainRule (· == ·) "b.com" (old.updateRule compile ⟨["a.com", "("], []⟩).1.domainRules =
      .error .nilDereference := by
  decide

/-! ### The limiters of the registry -/

/-- The slices hold the rules of the limiter, compiled. -/
def Holds (compile : String → Except String ρ) (s : RuleSlices ρ) (l : Limiter) : Prop :=
  (∃ rs, List.Forall₂ (fun p r => compile p = .ok r) l.domainRules rs ∧
    s.domainRules = rs.map some) ∧ s.protocolRules = l.protocolRules

section Registry

variable {compile : String → Except String ρ} {s : RuleSlices ρ} {l : Limiter}

/-- An update of the slices panics where the update in the registry does, and the slices hold the
rules of the changed limiter otherwise. -/
theorem updateRule_refines {compiles : String → Bool}
    (hcompiles : ∀ p, compiles p = true ↔ ∃ r, compile p = .ok r) (s : RuleSlices ρ)
    (st : LimiterStore) (p : ℕ) (rule : Rules) :
    match st.updateRule compiles p rule with
    | .error k => (s.updateRule compile rule).2 = .error k
    | .ok st' => (s.updateRule compile rule).2 = .ok none ∧
      ∀ l ∈ st'.get p, (s.updateRule compile rule).1.Holds compile l := by
  have hall : rule.regexp.all compiles = true ↔
      (compiledPrefix compile rule.regexp).length = rule.regexp.length := by
    rw [List.all_eq_true, length_compiledPrefix_eq_iff]
    exact forall₂_congr fun p _ => hcompiles p
  rw [LimiterStore.updateRule, updateRule_eq]
  simp only [hall]
  split_ifs with hlen
  · refine ⟨rfl, fun l hl => ⟨⟨_, ?_, rfl⟩, ?_⟩⟩
    all_goals
      rw [LimiterStore.get_modify, if_pos rfl, Option.mem_def, Option.map_eq_some_iff] at hl
      obtain ⟨l', -, rfl⟩ := hl
    · exact forall₂_compiledPrefix (length_compiledPrefix_eq_iff.mp hlen)
    · rfl
  · rfl

/-- Slices that hold the rules of a limiter decide as the limiter does. -/
theorem Holds.checkDomainRule_eq (h : s.Holds compile l) {matchString : ρ → String → Bool}
    {matchPattern : String → String → Bool}
    (hmatch : ∀ p r, compile p = .ok r → matchPattern p = matchString r) (destination : String) :
    checkDomainRule matchString destination s.domainRules =
      .ok (l.checkDomainRule matchPattern destination) := by
  obtain ⟨⟨rs, hrs, hs⟩, -⟩ := h
  have hany : rs.any (matchString · destination) = l.checkDomainRule matchPattern destination := by
    clear hs
    rw [Limiter.checkDomainRule]
    generalize l.domainRules = ps at hrs
    induction hrs with
    | nil => rfl
    | cons hr _ ih => rw [List.any_cons, List.any_cons, ih, hmatch _ _ hr]
  rw [hs, ← List.append_nil (rs.map some), checkDomainRule_append, checkDomainRule, hany]
  rcases l.checkDomainRule matchPattern destination with _ | _
  · rfl
  · rfl

end Registry

end RuleSlices

end Tox.Limit
