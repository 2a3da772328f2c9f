import Tox.Foundation.Join
import Tox.Panel.Translation

/-!
# The two wire forms of a route

The match of a route comes as a list of texts or as one text in which they are joined by commas, and
`GetNodeInfo` splits the latter again. The two forms of a route are translated alike as long as no
text contains a comma. A text with a comma is split into several, which are separate rules or
domains then; for the main DNS configuration, which is one JSON text, the pieces are put together
without the commas.

The translation of a list of routes is described by what each route contributes
(`Route.blocked`, `Route.dnsEntry`, `Route.dnsText`), and two lists are compared contribution by
contribution.
-/

namespace Tox.Panel

open Tox.Foundation Tox.Format

/-! ### Commas -/

/-- `strings.Join` with commas. -/
def joinComma (ss : List String) : String := ",".intercalate ss

/-- No text of the list has a comma. -/
def CommaFree (ss : List String) : Prop := ∀ s ∈ ss, ',' ∉ s.toList

instance (ss : List String) : Decidable (CommaFree ss) := inferInstanceAs (Decidable (∀ s ∈ ss, _))

section Commas

variable {ss : List String}

/-- The pieces of a joined text are the pieces of its parts. -/
theorem splitComma_joinComma (hne : ss ≠ []) :
    splitComma (joinComma ss) = ss.flatMap splitComma := by
  have hcomma : (",".toList : List Char) = [','] := rfl
  rw [splitComma, joinComma, String.toList_intercalate, hcomma,
    splitOn_intercalate_eq_flatMap ',' (List.map_eq_nil_iff.not.mpr hne), List.flatMap_map,
    List.map_flatMap]
  rfl

theorem length_flatMap_splitComma (ss : List String) :
    (ss.flatMap splitComma).length =
      ((ss.map String.toList).flatMap (List.splitOn ',')).length := by
  simp only [List.length_flatMap, List.map_map, Function.comp_def, splitComma, List.length_map]

/-- There are as many pieces as texts if and only if there is a text and none has a comma. -/
theorem length_splitComma_joinComma_eq_iff :
    (splitComma (joinComma ss)).length = ss.length ↔ ss ≠ [] ∧ CommaFree ss := by
  rcases eq_or_ne ss [] with rfl | hne
  · exact iff_of_false (by decide) fun h => h.1 rfl
  · have hlen : (ss.map String.toList).length = ss.length := List.length_map ..
    rw [splitComma_joinComma hne, length_flatMap_splitComma, and_iff_right hne, ← hlen,
      length_flatMap_splitOn_eq_iff, CommaFree, List.forall_mem_map]

theorem length_le_length_splitComma_joinComma (ss : List String) :
    ss.length ≤ (splitComma (joinComma ss)).length := by
  rcases eq_or_ne ss [] with rfl | hne
  · exact Nat.zero_le _
  · rw [splitComma_joinComma hne, length_flatMap_splitComma]
    exact (List.length_map ..).symm.trans_le (length_le_length_flatMap_splitOn ',' _)

/-- The texts come back if and only if there is one and none has a comma. -/
theorem splitComma_joinComma_eq_iff :
    splitComma (joinComma ss) = ss ↔ ss ≠ [] ∧ CommaFree ss := by
  refine ⟨fun h => length_splitComma_joinComma_eq_iff.mp (congrArg List.length h), ?_⟩
  rintro ⟨hne, hfree⟩
  have hsplit : ∀ s ∈ ss, splitComma s = [s] := fun s hs => by
    rw [splitComma, splitOn_of_notMem ',' (hfree s hs), List.map_singleton, String.ofList_toList]
  rw [splitComma_joinComma hne, List.flatMap_congr hsplit, List.flatMap_singleton']

/-- The pieces put together are the texts without their commas. -/
theorem join_flatMap_splitComma (ss : List String) :
    String.join (ss.flatMap splitComma) =
      String.ofList ((ss.flatMap String.toList).filter (· ≠ ',')) := by
  have hpieces : ∀ s : String, (splitComma s).flatMap String.toList =
      s.toList.filter (· ≠ ',') := by
    intro s
    rw [splitComma, List.flatMap_map, ← flatten_splitOn]
    simp only [String.toList_ofList, List.flatMap_id']
  rw [← String.toList_inj, String.toList_join, String.toList_ofList, List.flatMap_assoc,
    List.filter_flatMap]
  exact List.flatMap_congr fun s _ => hpieces s

theorem join_flatMap_splitComma_eq_iff :
    String.join (ss.flatMap splitComma) = String.join ss ↔ CommaFree ss := by
  rw [join_flatMap_splitComma, ← String.toList_inj, String.toList_ofList, String.toList_join,
    List.filter_eq_self]
  simp only [List.mem_flatMap, forall_exists_index, and_imp, decide_eq_true_eq, CommaFree]
  constructor
  · exact fun h s hs hmem => h ',' s hs hmem rfl
  · rintro h a s hs ha rfl
    exact h s hs ha

end Commas

/-! ### What a route contributes -/

namespace Route

/-- The texts of a route. -/
def matchs (r : Route) : List String := (matchStrings r.match).toOption.getD []

/-- The patterns of a `block` route. -/
def blocked (r : Route) : List String := if r.action = "block" then r.matchs else []

/-- The route gives the main DNS configuration. -/
def IsMain (r : Route) : Prop := r.action = "dns" ∧ r.matchs.head? = some "main"

instance (r : Route) : Decidable r.IsMain := inferInstanceAs (Decidable (_ ∧ _))

/-- The DNS entry of a `dns` route. -/
def dnsEntry (r : Route) : Option DnsEntry :=
  if r.action = "dns" ∧ ¬ r.IsMain then some ⟨r.actionValue, r.matchs⟩ else none

/-- The text of the main DNS configuration. -/
def dnsText (r : Route) : Option String :=
  if r.IsMain then some (String.join r.matchs.tail) else none

theorem matchs_of_ok {r : Route} {ss : List String} (h : matchStrings r.match = .ok ss) :
    r.matchs = ss := by
  rw [matchs, h]
  rfl

end Route

/-- A node with what the route at position `i` contributes. -/
def NodeInfo.withRoute (node : NodeInfo) (i : ℕ) (r : Route) : NodeInfo :=
  { node with
    rules := addBlockRules node.rules r.blocked
    rawDNS :=
      { dnsMap :=
          match r.dnsEntry with
          | some entry => node.rawDNS.dnsMap.insert (itoa i) entry
          | none => node.rawDNS.dnsMap
        dnsJson := r.dnsText.getD node.rawDNS.dnsJson } }

/-- A node with what the routes from position `i` on contribute. -/
def NodeInfo.withRoutes (node : NodeInfo) (i : ℕ) : List Route → NodeInfo
  | [] => node
  | r :: rs => (node.withRoute i r).withRoutes (i + 1) rs

theorem parseRoute_of_translatable {r : Route} (h : r.Translatable) (node : NodeInfo) (i : ℕ) :
    parseRoute node i r = .ok (node.withRoute i r) := by
  obtain ⟨ss, hss⟩ := exists_matchStrings_iff.mpr h.1
  have hmatchs := Route.matchs_of_ok hss
  have hdns : "block" ≠ "dns" := by decide
  simp only [parseRoute, hss, bind, Except.bind, pure, Except.pure, NodeInfo.withRoute,
    Route.blocked, Route.dnsEntry, Route.dnsText, Route.IsMain, hmatchs]
  by_cases hblock : r.action = "block"
  · simp [hblock, hdns]
  · by_cases hdns : r.action = "dns"
    · rcases ss with _ | ⟨first, rest⟩
      · exact absurd (matchStrings_eq_nil_iff.mp hss) (h.2 hdns)
      · by_cases hmain : first = "main"
        · simp [hdns, hmain, addBlockRules]
        · simp [hdns, hmain, addBlockRules]
    · simp [hblock, hdns, addBlockRules]

/-- The translation of routes that are translatable. -/
theorem parseRoutes_of_translatable {rs : List Route} (h : ∀ r ∈ rs, r.Translatable)
    (node : NodeInfo) (i : ℕ) : parseRoutes node i rs = .ok (node.withRoutes i rs) := by
  induction rs generalizing node i with
  | nil => rfl
  | cons r rs ih =>
    obtain ⟨hr, hrs⟩ := List.forall_mem_cons.mp h
    simp only [parseRoutes, parseRoute_of_translatable hr, bind, Except.bind]
    exact ih hrs _ _

/-! ### The parts of the translation -/

section Parts

variable (rs : List Route) (node : NodeInfo) (i : ℕ)

theorem rules_withRoutes :
    (node.withRoutes i rs).rules = addBlockRules node.rules (rs.flatMap Route.blocked) := by
  induction rs generalizing node i with
  | nil => rfl
  | cons r rs ih =>
    rw [NodeInfo.withRoutes, ih, List.flatMap_cons]
    exact (List.foldl_append ..).symm

/-- Every pattern becomes one rule. -/
theorem length_addBlockRules (rules : Rules) (vs : List String) :
    (addBlockRules rules vs).regexp.length + (addBlockRules rules vs).protocol.length =
      rules.regexp.length + rules.protocol.length + vs.length := by
  induction vs generalizing rules with
  | nil => rfl
  | cons v vs ih =>
    rw [addBlockRules, List.foldl_cons, ← addBlockRules, ih, List.length_cons]
    split_ifs
    · simp only [List.length_append, List.length_singleton]
      omega
    · simp only [List.length_append, List.length_singleton]
      omega

/-- The text of the last main DNS configuration. -/
def lastText : List Route → Option String
  | [] => none
  | r :: rs => (lastText rs).or r.dnsText

theorem dnsJson_withRoutes :
    (node.withRoutes i rs).rawDNS.dnsJson = (lastText rs).getD node.rawDNS.dnsJson := by
  induction rs generalizing node i with
  | nil => rfl
  | cons r rs ih =>
    rw [NodeInfo.withRoutes, ih, lastText]
    rcases lastText rs with _ | text
    · rfl
    · rfl

theorem lookup_withRoute (r : Route) (j : ℕ) :
    (node.withRoute i r).rawDNS.dnsMap.lookup (itoa j) =
      if j = i then r.dnsEntry.or (node.rawDNS.dnsMap.lookup (itoa j))
      else node.rawDNS.dnsMap.lookup (itoa j) := by
  have hkey : itoa (j : ℤ) = itoa (i : ℤ) ↔ j = i := by
    rw [itoa_injective.eq_iff, Nat.cast_inj]
  simp only [NodeInfo.withRoute]
  rcases r.dnsEntry with _ | entry
  · rw [Option.none_or, ite_self]
  · dsimp only
    rw [GoMap.lookup_insert, Option.some_or]
    simp only [hkey]

/-- The entries of the positions before are kept. -/
theorem lookup_withRoutes_of_lt {j : ℕ} (h : j < i) :
    (node.withRoutes i rs).rawDNS.dnsMap.lookup (itoa j) =
      node.rawDNS.dnsMap.lookup (itoa j) := by
  induction rs generalizing node i with
  | nil => rfl
  | cons r rs ih =>
    rw [NodeInfo.withRoutes, ih _ _ (by omega), lookup_withRoute, if_neg (by omega)]

/-- The entry under the position of a route is the entry of the route. -/
theorem lookup_withRoutes_add {k : ℕ}
    (hnew : node.rawDNS.dnsMap.lookup (itoa ((i + k : ℕ) : ℤ)) = none) :
    (node.withRoutes i rs).rawDNS.dnsMap.lookup (itoa ((i + k : ℕ) : ℤ)) =
      rs[k]?.bind Route.dnsEntry := by
  induction rs generalizing node i k with
  | nil => exact hnew
  | cons r rs ih =>
    rcases k with _ | k
    · rw [Nat.add_zero] at hnew ⊢
      rw [NodeInfo.withRoutes, lookup_withRoutes_of_lt _ _ _ (by omega), lookup_withRoute,
        if_pos rfl, hnew, Option.or_none, List.getElem?_cons_zero, Option.bind_some]
    · have hindex : i + (k + 1) = i + 1 + k := by omega
      rw [hindex] at hnew ⊢
      rw [NodeInfo.withRoutes, ih, List.getElem?_cons_succ]
      rw [lookup_withRoute, if_neg (by omega)]
      exact hnew

/-- Routes with the same entries give the same map. -/
theorem dnsMap_withRoutes_congr {rs rs' : List Route}
    (h : List.Forall₂ (fun r r' => r'.dnsEntry = r.dnsEntry) rs rs') {node node' : NodeInfo}
    (hnode : node'.rawDNS.dnsMap = node.rawDNS.dnsMap) (i : ℕ) :
    (node'.withRoutes i rs').rawDNS.dnsMap = (node.withRoutes i rs).rawDNS.dnsMap := by
  induction h generalizing node node' i with
  | nil => exact hnode
  | cons hr _ ih =>
    refine ih ?_ (i + 1)
    simp only [NodeInfo.withRoute, hr, hnode]

end Parts

/-! ### The two forms of one route -/

/-- The route, or the route with its list of texts joined by commas. -/
def Rejoins (r r' : Route) : Prop :=
  r' = r ∨ ∃ ss : List String, r.match = .array (ss.map .string) ∧
    r' = { r with «match» := .string (joinComma ss) }

/-- Joining the texts of the route makes no difference, if the routes `later` follow. The main DNS
configuration of a route makes no difference if a later route has one. -/
def Route.JoinSafe (r : Route) (later : List Route) : Prop :=
  (r.action = "block" → r.matchs ≠ [] ∧ CommaFree r.matchs) ∧
    (r.action = "dns" → (r.IsMain → ∀ q ∈ later, ¬ q.IsMain) → CommaFree r.matchs)

namespace Rejoins

variable {r r' : Route}

/-- A route in the other form has the pieces of its joined texts. -/
theorem eq_or_matchs (h : Rejoins r r') :
    r' = r ∨ (r' ≠ r ∧ r'.action = r.action ∧ r'.actionValue = r.actionValue ∧
      r'.matchs = splitComma (joinComma r.matchs)) := by
  rcases h with rfl | ⟨ss, hss, rfl⟩
  · exact Or.inl rfl
  · refine Or.inr ⟨fun heq => ?_, rfl, rfl, ?_⟩
    · have hmatch := congrArg Route.match heq
      rw [hss] at hmatch
      cases hmatch
    · rw [Route.matchs_of_ok (matchStrings_eq_ok_iff.mpr (Or.inr hss))]
      rfl

theorem translatable (h : Rejoins r r') (hr : r.Translatable) : r'.Translatable := by
  rcases h with rfl | ⟨ss, -, rfl⟩
  · exact hr
  · exact ⟨Or.inl ⟨_, rfl⟩, fun _ => nofun⟩

theorem length_blocked_le (h : Rejoins r r') : r.blocked.length ≤ r'.blocked.length := by
  rcases h.eq_or_matchs with rfl | ⟨-, haction, -, hmatchs⟩
  · exact le_rfl
  · rw [Route.blocked, Route.blocked, haction, hmatchs]
    split_ifs
    · exact length_le_length_splitComma_joinComma _
    · exact le_rfl

/-- The rules agree under the first part of the condition. -/
theorem blocked_eq_iff (h : Rejoins r r') : r'.blocked = r.blocked ↔
    (r' ≠ r → r.action = "block" → r.matchs ≠ [] ∧ CommaFree r.matchs) := by
  rcases h.eq_or_matchs with rfl | ⟨hne, haction, -, hmatchs⟩
  · exact iff_of_true rfl fun hne => absurd rfl hne
  · rw [Route.blocked, Route.blocked, haction, hmatchs, ← splitComma_joinComma_eq_iff]
    by_cases hblock : r.action = "block"
    · simp only [hblock, if_true, hne, ne_eq, not_false_eq_true, forall_const]
    · simp only [hblock, if_false, false_imp_iff, implies_true]

theorem length_blocked_eq_iff (h : Rejoins r r') :
    r.blocked.length = r'.blocked.length ↔ r'.blocked = r.blocked := by
  refine ⟨fun hlen => ?_, fun heq => by rw [heq]⟩
  rcases h.eq_or_matchs with rfl | ⟨-, haction, -, hmatchs⟩
  · rfl
  · rw [Route.blocked, Route.blocked, haction, hmatchs] at hlen ⊢
    split_ifs at hlen ⊢
    · exact splitComma_joinComma_eq_iff.mpr (length_splitComma_joinComma_eq_iff.mp hlen.symm)
    · rfl

/-- The texts of a main DNS configuration begin with `main` in both forms. -/
theorem matchs_of_isMain {rest : List String}
    (hmatchs : r'.matchs = splitComma (joinComma r.matchs))
    (hr : r.matchs = "main" :: rest) : r'.matchs = "main" :: rest.flatMap splitComma := by
  have hmain : splitComma "main" = ["main"] := by decide
  rw [hmatchs, hr, splitComma_joinComma (List.cons_ne_nil _ _), List.flatMap_cons, hmain,
    List.singleton_append]

theorem isMain (h : Rejoins r r') (hr : r.IsMain) : r'.IsMain := by
  rcases h.eq_or_matchs with rfl | ⟨-, haction, -, hmatchs⟩
  · exact hr
  · obtain ⟨rest, hrest⟩ := List.head?_eq_some_iff.mp hr.2
    refine ⟨haction.trans hr.1, ?_⟩
    rw [matchs_of_isMain hmatchs hrest, List.head?_cons]

/-- The DNS entries agree if the route has none or no text has a comma. -/
theorem dnsEntry_eq_iff (h : Rejoins r r') (hr : r.Translatable) : r'.dnsEntry = r.dnsEntry ↔
    (r' ≠ r → r.action = "dns" → ¬ r.IsMain → CommaFree r.matchs) := by
  rcases h.eq_or_matchs with rfl | ⟨hne, haction, hvalue, hmatchs⟩
  · exact iff_of_true rfl fun hne => absurd rfl hne
  by_cases hdns : r.action = "dns" ∧ ¬ r.IsMain
  · have hentry : r.dnsEntry = some ⟨r.actionValue, r.matchs⟩ := if_pos hdns
    have hnil : r.matchs ≠ [] := by
      obtain ⟨ss, hss⟩ := exists_matchStrings_iff.mpr hr.1
      rw [Route.matchs_of_ok hss]
      rintro rfl
      exact hr.2 hdns.1 (matchStrings_eq_nil_iff.mp hss)
    have hfree : CommaFree r.matchs ↔ r'.matchs = r.matchs := by
      rw [hmatchs, splitComma_joinComma_eq_iff, and_iff_right hnil]
    rw [hfree]
    constructor
    · intro heq _ _ _
      rw [hentry, Route.dnsEntry] at heq
      split_ifs at heq
      exact congrArg DnsEntry.domains (Option.some.inj heq)
    · intro heq
      have hsame := heq hne hdns.1 hdns.2
      simp only [Route.dnsEntry, Route.IsMain, haction, hvalue, hsame]
      exact if_congr Iff.rfl rfl rfl
  · have hentry : r.dnsEntry = none := if_neg hdns
    refine iff_of_true ?_ fun _ h₁ h₂ => absurd ⟨h₁, h₂⟩ hdns
    rw [hentry, Route.dnsEntry, haction, if_neg]
    exact fun hc => hdns ⟨hc.1, fun hmain => hc.2 (h.isMain hmain)⟩

/-- Routes with the same DNS entry are both the main DNS configuration or both not. -/
theorem isMain_iff (h : Rejoins r r') (hentry : r'.dnsEntry = r.dnsEntry) :
    r'.IsMain ↔ r.IsMain := by
  refine ⟨fun hmain => ?_, h.isMain⟩
  by_contra hnot
  have haction : r'.action = r.action := by
    rcases h.eq_or_matchs with rfl | ⟨-, haction, -⟩
    · rfl
    · exact haction
  have hsome : r.dnsEntry = some ⟨r.actionValue, r.matchs⟩ := if_pos ⟨haction ▸ hmain.1, hnot⟩
  have hnone : r'.dnsEntry = none := if_neg fun hc => hc.2 hmain
  rw [hsome, hnone] at hentry
  cases hentry

/-- The texts of a main DNS configuration agree if no text has a comma. -/
theorem dnsText_eq_iff (h : Rejoins r r') (hmain : r.IsMain) :
    r'.dnsText = r.dnsText ↔ (r' ≠ r → CommaFree r.matchs) := by
  rcases h.eq_or_matchs with rfl | ⟨hne, -, -, hmatchs⟩
  · exact iff_of_true rfl fun hne => absurd rfl hne
  · obtain ⟨rest, hrest⟩ := List.head?_eq_some_iff.mp hmain.2
    have hword : ',' ∉ "main".toList := by decide
    rw [Route.dnsText, Route.dnsText, if_pos hmain, if_pos (h.isMain hmain), Option.some_inj,
      matchs_of_isMain hmatchs hrest, hrest, List.tail_cons, List.tail_cons,
      join_flatMap_splitComma_eq_iff, CommaFree, CommaFree, List.forall_mem_cons,
      and_iff_right hword]
    exact (imp_iff_right hne).symm

end Rejoins

/-! ### The two forms of a list of routes -/

section Lists

variable {rs rs' : List Route}

theorem isSome_lastText (rs : List Route) : (lastText rs).isSome ↔ ∃ q ∈ rs, q.IsMain := by
  induction rs with
  | nil => simp [lastText]
  | cons r rs ih =>
    have hr : r.dnsText.isSome ↔ r.IsMain := by
      rw [Route.dnsText]
      split_ifs with hmain
      · exact iff_of_true rfl hmain
      · exact iff_of_false nofun hmain
    rw [lastText, Option.isSome_or, Bool.or_eq_true, ih, hr, List.exists_mem_cons_iff, or_comm]

/-- The rules agree if every route gives the same rules, for joining never makes rules fewer. -/
theorem rules_withRoutes_eq_iff (h : List.Forall₂ Rejoins rs rs') (node : NodeInfo) (i : ℕ) :
    (node.withRoutes i rs').rules = (node.withRoutes i rs).rules ↔
      List.Forall₂ (fun r r' => r'.blocked = r.blocked) rs rs' := by
  rw [rules_withRoutes, rules_withRoutes]
  constructor
  · intro heq
    have hlen := length_addBlockRules node.rules (rs'.flatMap Route.blocked)
    rw [heq, length_addBlockRules, Nat.add_right_inj, List.length_flatMap, List.length_flatMap]
      at hlen
    have hle : List.Forall₂ (fun r r' : Route => r.blocked.length ≤ r'.blocked.length) rs rs' :=
      h.imp fun r r' hr => hr.length_blocked_le
    have hlengths := forall₂_eq_of_sum_eq hle hlen
    exact List.Forall₂.mp (fun r r' hr hlength => hr.length_blocked_eq_iff.mp hlength) h hlengths
  · intro hblocked
    have hflat : rs'.flatMap Route.blocked = rs.flatMap Route.blocked := by
      induction hblocked with
      | nil => rfl
      | cons hr _ ih => rw [List.flatMap_cons, List.flatMap_cons, hr, ih (List.forall₂_cons.mp h).2]
    rw [hflat]

/-- The DNS maps agree if every route gives the same entry, for every position has its own key. -/
theorem dnsMap_withRoutes_eq_iff (h : List.Forall₂ Rejoins rs rs') {node : NodeInfo}
    (hnode : node.rawDNS.dnsMap = ∅) :
    (node.withRoutes 0 rs').rawDNS.dnsMap = (node.withRoutes 0 rs).rawDNS.dnsMap ↔
      List.Forall₂ (fun r r' => r'.dnsEntry = r.dnsEntry) rs rs' := by
  refine ⟨fun heq => ?_, fun hentries => dnsMap_withRoutes_congr hentries rfl 0⟩
  have hentry : ∀ k : ℕ, rs'[k]?.bind Route.dnsEntry = rs[k]?.bind Route.dnsEntry := by
    intro k
    have hnew : node.rawDNS.dnsMap.lookup (itoa ((0 + k : ℕ) : ℤ)) = none := by
      rw [hnode, Finmap.lookup_empty]
    rw [← lookup_withRoutes_add rs node 0 hnew, ← lookup_withRoutes_add rs' node 0 hnew, heq]
  clear heq hnode
  induction h with
  | nil => exact .nil
  | cons _ _ ih => exact .cons (hentry 0) (ih fun k => hentry (k + 1))

/-- The main DNS configurations agree if the last one has no comma or was not joined. -/
theorem lastText_eq_iff (h : List.Forall₂ Rejoins rs rs')
    (hentries : List.Forall₂ (fun r r' => r'.dnsEntry = r.dnsEntry) rs rs') :
    ((lastText rs').isSome ↔ (lastText rs).isSome) ∧
    (lastText rs' = lastText rs ↔ ∀ (k : ℕ) r, rs[k]? = some r → rs'[k]? ≠ some r → r.IsMain →
      (∀ q ∈ rs.drop (k + 1), ¬ q.IsMain) → CommaFree r.matchs) := by
  induction h with
  | nil => simp [lastText]
  | @cons r r' rs rs' hr _ ih =>
    obtain ⟨hentry, hentries⟩ := List.forall₂_cons.mp hentries
    obtain ⟨hsome, htail⟩ := ih hentries
    have hmain := hr.isMain_iff hentry
    refine ⟨?_, ?_⟩
    · rw [isSome_lastText, isSome_lastText, List.exists_mem_cons_iff, List.exists_mem_cons_iff,
        hmain, ← isSome_lastText, ← isSome_lastText, hsome]
    · rw [← Nat.and_forall_add_one]
      simp only [List.getElem?_cons_succ, List.drop_succ_cons, ← htail, List.getElem?_cons_zero,
        List.drop_zero, Option.some.injEq, ne_eq, forall_eq', lastText]
      have hlater : (∀ q ∈ rs, ¬ q.IsMain) ↔ lastText rs = none := by
        rw [← Option.not_isSome_iff_eq_none, isSome_lastText]
        push Not
        rfl
      rw [hlater]
      rcases hlast : lastText rs with _ | text
      · -- the head has the last main DNS configuration, if it has one
        have hlast' : lastText rs' = none := by
          rw [← Option.not_isSome_iff_eq_none, hsome, hlast]
          exact nofun
        rw [hlast', Option.none_or, Option.none_or]
        by_cases hmain' : r.IsMain
        · rw [hr.dnsText_eq_iff hmain']
          simp [hmain']
        · have htext : r.dnsText = none := if_neg hmain'
          have htext' : r'.dnsText = none := if_neg fun hc => hmain' (hmain.mp hc)
          simp [htext, htext', hmain']
      · obtain ⟨text', hlast'⟩ := Option.isSome_iff_exists.mp (hsome.mpr (by rw [hlast]; rfl))
        rw [hlast', Option.some_or, Option.some_or]
        simp

end Lists

theorem rawDNS_eq_iff {x y : RawDNS} : x = y ↔ x.dnsMap = y.dnsMap ∧ x.dnsJson = y.dnsJson := by
  cases x
  cases y
  exact RawDNS.mk.injEq .. ▸ Iff.rfl

/-- The translations agree if joining is safe for every route that was joined. -/
theorem withRoutes_agree_iff {routes routes' : List Route}
    (hforms : List.Forall₂ Rejoins routes routes') (htrans : ∀ r ∈ routes, r.Translatable)
    {node : NodeInfo} (hnode : node.rawDNS.dnsMap = ∅) :
    ((node.withRoutes 0 routes').rules = (node.withRoutes 0 routes).rules ∧
      (node.withRoutes 0 routes').rawDNS = (node.withRoutes 0 routes).rawDNS) ↔
    ∀ (k : ℕ) r, routes[k]? = some r → routes'[k]? ≠ some r →
      r.JoinSafe (routes.drop (k + 1)) := by
  have hboth : List.Forall₂ (fun r r' => r.Translatable ∧ Rejoins r r') routes routes' :=
    (List.forall₂_and_left routes routes').mpr ⟨htrans, hforms⟩
  have hrules := forall₂_iff_forall_ne hforms fun r r' hr => hr.blocked_eq_iff
  have hentries := forall₂_iff_forall_ne hboth fun r r' hr => hr.2.dnsEntry_eq_iff hr.1
  rw [rules_withRoutes_eq_iff hforms, rawDNS_eq_iff, dnsMap_withRoutes_eq_iff hforms hnode,
    dnsJson_withRoutes, dnsJson_withRoutes]
  constructor
  · rintro ⟨hblocked, hentry, hjson⟩ k r hr hr'
    obtain ⟨hsome, hlast⟩ := lastText_eq_iff hforms hentry
    have htext : lastText routes' = lastText routes := by
      rcases htext : lastText routes with _ | text
      · rw [← Option.not_isSome_iff_eq_none, hsome, htext]
        exact nofun
      · obtain ⟨text', htext'⟩ := Option.isSome_iff_exists.mp (hsome.mpr (by rw [htext]; rfl))
        rw [htext, htext'] at hjson
        rw [htext']
        exact congrArg some hjson
    refine ⟨hrules.mp hblocked k r hr hr', fun hdns hlater => ?_⟩
    by_cases hmain : r.IsMain
    · exact hlast.mp htext k r hr hr' hmain (hlater hmain)
    · exact hentries.mp hentry k r hr hr' hdns hmain
  · intro hsafe
    have hentry : List.Forall₂ (fun r r' : Route => r'.dnsEntry = r.dnsEntry) routes routes' :=
      hentries.mpr fun k r hr hr' hdns hmain =>
        (hsafe k r hr hr').2 hdns fun hc => absurd hc hmain
    have hlast := (lastText_eq_iff hforms hentry).2.mpr fun k r hr hr' hmain hlater =>
      (hsafe k r hr hr').2 hmain.1 fun _ => hlater
    exact ⟨hrules.mpr fun k r hr hr' => (hsafe k r hr hr').1, hentry, by rw [hlast]⟩

/-- **The two wire forms.** Let routes be translated, and let the lists of some of them be given as
comma-joined texts instead. The same rules and the same DNS configuration come out if and only if
joining is safe for each of these routes: the list of a `block` route is not empty and its texts
have no comma, the texts of a `dns` route have no comma, and neither have the texts of the last main
DNS configuration.

For every text `j`, a route with the list `main, j` gives the main DNS configuration `j`. The route
with the text `main,j` gives it if and only if `j` has no comma. -/
theorem wireForms_agree_iff (node : NodeInfo) (hnode : node.rawDNS.dnsMap = ∅)
    (routes routes' : List Route) (hforms : List.Forall₂ Rejoins routes routes') (a : NodeInfo)
    (ha : parseRoutes node 0 routes = .ok a) :
    ((∃ b, parseRoutes node 0 routes' = .ok b ∧ b.rules = a.rules ∧ b.rawDNS = a.rawDNS) ↔
      ∀ (k : ℕ) r, routes[k]? = some r → routes'[k]? ≠ some r →
        r.JoinSafe (routes.drop (k + 1))) ∧
    ∀ id value j, ∃ b c,
      parseRoutes node 0 [⟨id, .array [.string "main", .string j], "dns", value⟩] = .ok b ∧
      b.rawDNS.dnsJson = j ∧
      parseRoutes node 0 [⟨id, .string ("main," ++ j), "dns", value⟩] = .ok c ∧
      (c.rawDNS.dnsJson = j ↔ ',' ∉ j.toList) := by
  have htrans : ∀ r ∈ routes, r.Translatable := (exists_parseRoutes_iff node 0).mp ⟨a, ha⟩
  have htrans' : ∀ r ∈ routes', r.Translatable := by
    clear ha
    induction hforms with
    | nil => exact nofun
    | cons hr _ ih =>
      obtain ⟨hhead, htail⟩ := List.forall_mem_cons.mp htrans
      exact List.forall_mem_cons.mpr ⟨hr.translatable hhead, ih htail⟩
  obtain rfl : node.withRoutes 0 routes = a := by
    rw [parseRoutes_of_translatable htrans] at ha
    exact Except.ok.inj ha
  refine ⟨?_, fun id value j => ?_⟩
  · rw [← withRoutes_agree_iff hforms htrans hnode, parseRoutes_of_translatable htrans']
    simp only [Except.ok.injEq, exists_eq_left']
  · set r : Route := ⟨id, .array [.string "main", .string j], "dns", value⟩
    set r' : Route := ⟨id, .string ("main," ++ j), "dns", value⟩
    have hr : r.Translatable := ⟨Or.inr ⟨["main", j], rfl⟩, fun _ => nofun⟩
    have hrejoins : Rejoins r r' := Or.inr ⟨["main", j], rfl, rfl⟩
    have hne : r' ≠ r := fun heq => nomatch congrArg Route.match heq
    have hmain : r.IsMain := ⟨rfl, rfl⟩
    have htext : r.dnsText = some j := by
      rw [Route.dnsText, if_pos hmain]
      change some (String.join [j]) = some j
      rw [Option.some_inj, ← String.toList_inj, String.toList_join, List.flatMap_singleton]
    have hsingle := fun q : Route => dnsJson_withRoutes [q] node 0
    refine ⟨_, _, parseRoutes_of_translatable (List.forall_mem_singleton.mpr hr) node 0, ?_,
      parseRoutes_of_translatable
        (List.forall_mem_singleton.mpr (hrejoins.translatable hr)) node 0, ?_⟩
    · rw [hsingle, lastText, lastText, Option.none_or, htext, Option.getD_some]
    · obtain ⟨text, htext'⟩ : ∃ text, r'.dnsText = some text :=
        ⟨_, if_pos (hrejoins.isMain hmain)⟩
      have hiff := hrejoins.dnsText_eq_iff hmain
      rw [htext, htext', Option.some_inj, imp_iff_right hne] at hiff
      rw [hsingle, lastText, lastText, Option.none_or, htext', Option.getD_some, hiff]
      change CommaFree ["main", j] ↔ _
      rw [CommaFree, List.forall_mem_cons, List.forall_mem_singleton, and_iff_right (by decide)]

/-! ### Texts with and without commas -/

/-- Two domains come out of both forms. -/
theorem wireForms_agree_iff_domains :
    ∃ b, parseRoutes { id := 1, type := .vless } 0
        [⟨1, .string "a.com,b.com", "block", ""⟩] = .ok b ∧
      b.rules = ⟨["a.com", "b.com"], []⟩ := by
  have hagree := (wireForms_agree_iff { id := 1, type := .vless } rfl
    [⟨1, .array [.string "a.com", .string "b.com"], "block", ""⟩]
    [⟨1, .string "a.com,b.com", "block", ""⟩]
    (.cons (Or.inr ⟨["a.com", "b.com"], rfl, rfl⟩) .nil) _ rfl).1
  have hsafe : (⟨1, .array [.string "a.com", .string "b.com"], "block", ""⟩ : Route).JoinSafe [] :=
    ⟨fun _ => ⟨by decide, by decide⟩, fun hdns => absurd hdns (by decide)⟩
  obtain ⟨b, hb, hrules, -⟩ := hagree.mpr (by
    rintro (_ | k) r hr -
    · exact Option.some.inj hr ▸ hsafe
    · cases hr)
  exact ⟨b, hb, hrules.trans (by decide)⟩

/-- **Texts with commas.** The comma between two members of the main DNS configuration is lost, and
a pattern with a comma becomes two patterns. -/
theorem wireForms_disagree :
    let node : NodeInfo := { id := 1, type := .vless }
    let json := "\x7b\"tag\":\"dns\",\"servers\":[]\x7d"
    (parseRoutes node 0 [⟨1, .array [.string "main", .string json], "dns", ""⟩]).map
      (·.rawDNS.dnsJson) = .ok json ∧
    (parseRoutes node 0 [⟨1, .string ("main," ++ json), "dns", ""⟩]).map (·.rawDNS.dnsJson) =
      .ok "\x7b\"tag\":\"dns\"\"servers\":[]\x7d" ∧
    (parseRoutes node 0 [⟨1, .array [.string "regexp:ab\x7b1,2\x7d"], "block", ""⟩]).map
      (·.rules) = .ok ⟨["ab\x7b1,2\x7d"], []⟩ ∧
    (parseRoutes node 0 [⟨1, .string "regexp:ab\x7b1,2\x7d", "block", ""⟩]).map (·.rules) =
      .ok ⟨["ab\x7b1", "2\x7d"], []⟩ := by
  decide

end Tox.Panel
