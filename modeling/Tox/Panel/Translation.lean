import Tox.Panel.Node

/-!
# The configurations that are translated without a panic

`GetNodeInfo` reads routes and intervals of unknown type by type assertions, an index and
reflection, none of which is guarded. This file says which decoded records are translated and which
end the program. A record is translated if every route has a match that is a text or a list of
texts, not the empty list for a `dns` route, and if there is a base configuration whose intervals
are texts or numbers (`CommonNode.Translatable`). The translation of any other record panics.
-/

namespace Tox.Panel

/-- A match that can be read: a text, or a list of texts. -/
def Any.IsMatch (a : Any) : Prop :=
  (∃ s, a = .string s) ∨ ∃ ss : List String, a = .array (ss.map .string)

/-- An interval that can be read: a text or a number. -/
def Any.IsInterval (a : Any) : Prop := (∃ s, a = .string s) ∨ ∃ q, a = .number q

/-- A route that can be translated. The first text of a `dns` route is looked at, so that there has
to be one. -/
def Route.Translatable (r : Route) : Prop :=
  r.match.IsMatch ∧ (r.action = "dns" → r.match ≠ .array [])

/-- A record that can be translated. -/
def CommonNode.Translatable (cm : CommonNode) : Prop :=
  (∀ r ∈ cm.routes, r.Translatable) ∧
    ∃ base, cm.baseConfig = some base ∧ base.pushInterval.IsInterval ∧ base.pullInterval.IsInterval

/-! ### Routes -/

theorem splitComma_ne_nil (s : String) : splitComma s ≠ [] := by
  rw [splitComma, ne_eq, List.map_eq_nil_iff]
  exact List.splitOnP_ne_nil _ _

/-- A list is read value by value. -/
theorem matchStrings_array_cons {a : Any} {l : List Any} {ss : List String} :
    matchStrings (.array (a :: l)) = .ok ss ↔
      ∃ s tail, a = .string s ∧ matchStrings (.array l) = .ok tail ∧ ss = s :: tail := by
  simp only [matchStrings, List.mapM_cons, bind, Except.bind, pure, Except.pure]
  cases a with
  | string s =>
    generalize (List.mapM _ l : Except PanicKind (List String)) = result
    rcases result with k | tail
    · simp
    · simp [eq_comm]
  | _ => simp

theorem matchStrings_array_eq_ok_iff {l : List Any} {ss : List String} :
    matchStrings (.array l) = .ok ss ↔ l = ss.map .string := by
  induction l generalizing ss with
  | nil =>
    rw [eq_comm (a := []), List.map_eq_nil_iff]
    exact ⟨fun h => (Except.ok.inj h).symm, fun h => h ▸ rfl⟩
  | cons a l ih =>
    rw [matchStrings_array_cons]
    constructor
    · rintro ⟨s, tail, rfl, htail, rfl⟩
      rw [ih.mp htail, List.map_cons]
    · intro h
      obtain ⟨s, tail, rfl, hs, htail⟩ := List.map_eq_cons_iff.mp h.symm
      exact ⟨s, tail, hs.symm, ih.mpr htail.symm, rfl⟩

theorem matchStrings_eq_ok_iff {a : Any} {ss : List String} :
    matchStrings a = .ok ss ↔
      (∃ s, a = .string s ∧ ss = splitComma s) ∨ a = .array (ss.map .string) := by
  cases a with
  | string s => simp [matchStrings, eq_comm]
  | array l => simp [matchStrings_array_eq_ok_iff]
  | _ => simp [matchStrings]

theorem exists_matchStrings_iff {a : Any} : (∃ ss, matchStrings a = .ok ss) ↔ a.IsMatch := by
  constructor
  · rintro ⟨ss, hss⟩
    rcases matchStrings_eq_ok_iff.mp hss with ⟨s, rfl, -⟩ | rfl
    · exact Or.inl ⟨s, rfl⟩
    · exact Or.inr ⟨ss, rfl⟩
  · rintro (⟨s, rfl⟩ | ⟨ss, rfl⟩)
    · exact ⟨splitComma s, rfl⟩
    · exact ⟨ss, matchStrings_array_eq_ok_iff.mpr rfl⟩

/-- Only the empty list has no text. -/
theorem matchStrings_eq_nil_iff {a : Any} : matchStrings a = .ok [] ↔ a = .array [] := by
  rw [matchStrings_eq_ok_iff, or_iff_right]
  · rfl
  · rintro ⟨s, -, hs⟩
    exact splitComma_ne_nil s hs.symm

theorem exists_parseRoute_iff (node : NodeInfo) (i : ℕ) {r : Route} :
    (∃ node', parseRoute node i r = .ok node') ↔ r.Translatable := by
  rw [Route.Translatable, ← exists_matchStrings_iff, ne_eq, ← matchStrings_eq_nil_iff]
  simp only [parseRoute, bind, Except.bind, pure, Except.pure]
  rcases matchStrings r.match with k | matchs
  · simp
  · simp only [Except.ok.injEq, exists_eq', true_and]
    by_cases hblock : r.action = "block"
    · simp [hblock]
    · by_cases hdns : r.action = "dns"
      · rcases matchs with _ | ⟨first, rest⟩
        · simp [hdns]
        · by_cases hmain : first = "main" <;> simp [hdns, hmain]
      · simp [hblock, hdns]

theorem exists_parseRoutes_iff {rs : List Route} (node : NodeInfo) (i : ℕ) :
    (∃ node', parseRoutes node i rs = .ok node') ↔ ∀ r ∈ rs, r.Translatable := by
  induction rs generalizing node i with
  | nil => simp [parseRoutes]
  | cons r rs ih =>
    rw [List.forall_mem_cons, ← exists_parseRoute_iff node i]
    simp only [parseRoutes, bind, Except.bind]
    rcases parseRoute node i r with k | node₁
    · simp
    · simp [ih]

/-! ### Intervals -/

theorem exists_intervalToTime_iff {a : Any} : (∃ d, intervalToTime a = .ok d) ↔ a.IsInterval := by
  cases a <;> simp [intervalToTime, Any.IsInterval]

theorem exists_finishNode_iff {cm : CommonNode} {node : NodeInfo} :
    (∃ node', finishNode cm node = .ok node') ↔
      ∃ base, cm.baseConfig = some base ∧ base.pushInterval.IsInterval ∧
        base.pullInterval.IsInterval := by
  simp only [finishNode]
  rcases cm.baseConfig with _ | base
  · simp
  · simp only [Option.some.injEq, exists_eq_left', ← exists_intervalToTime_iff, bind, Except.bind,
      pure, Except.pure]
    rcases intervalToTime base.pushInterval with k | push
    · simp
    · rcases intervalToTime base.pullInterval with k | pull <;> simp

/-! ### Bodies -/

/-- The translation of a record panics unless the record is translatable. -/
theorem exists_translation_iff {cm : CommonNode} (node : NodeInfo) :
    (∃ node', parseRoutes node 0 cm.routes >>= finishNode cm = .ok node') ↔ cm.Translatable := by
  rw [CommonNode.Translatable, ← exists_parseRoutes_iff node 0]
  simp only [bind, Except.bind]
  rcases parseRoutes node 0 cm.routes with k | node₁
  · simp
  · simp [exists_finishNode_iff]

/-- **Decoding without a panic.** For every node type and every body, decoding returns an error or a
node if and only if the record that the body decodes to, if it decodes, is translatable. -/
theorem decodeNodeInfo_returns_iff (cd : NodeCodec) (c : Client) (body : Body) :
    ((∃ e, c.decodeNodeInfo cd body = .error (.error e)) ∨
      ∃ node, c.decodeNodeInfo cd body = .ok node) ↔
    ∀ cm node, c.unmarshalNode cd body = .ok (cm, node) → cm.Translatable := by
  simp only [Client.decodeNodeInfo]
  rcases c.unmarshalNode cd body with e | ⟨cm, node⟩
  · simp
  · have hrecord : (∀ cm' node', (.ok (cm, node) : Except PanelError _) = .ok (cm', node') →
        cm'.Translatable) ↔ cm.Translatable :=
      ⟨fun h => h cm node rfl, fun h cm' node' heq => by cases heq; exact h⟩
    rw [hrecord, ← exists_translation_iff node]
    dsimp only
    generalize parseRoutes node 0 cm.routes >>= finishNode cm = result
    rcases result with k | node'
    · simp
    · simp

/-! ### Records that end the program -/

/-- A codec that reads every body as the given record. -/
def recordCodec (cm : CommonNode) : NodeCodec where
  sha256 _ := ""
  decodeMsgpack _ := .ok none
  decodeJson _ := .ok none
  unmarshalAlive _ := .ok none
  unmarshalVAllss _ := .ok { cm with }
  unmarshalMieru _ := .ok { cm with }
  unmarshalCommon _ _ := .ok cm

/-- The error or the node of a record for a node of the given type. -/
def decodeRecord (cm : CommonNode) (type : NodeType) : Except Failure NodeInfo :=
  Client.decodeNodeInfo (recordCodec cm) { apiHost := "", nodeType := type, nodeId := 1 } []

/-- Intervals of a minute. -/
def minutes : BaseConfig := ⟨.number 60, .string "60"⟩

/-- Records that panic, for every node type: a record without a base configuration, a route without
a match, a match that contains a number, a `dns` route with the empty list, and intervals that are
null or a Boolean. -/
theorem decodeRecord_panics (type : NodeType) :
    decodeRecord {} type = .error (.panic .nilDereference) ∧
    decodeRecord { routes := [⟨1, .null, "block", ""⟩], baseConfig := some minutes } type =
      .error (.panic .typeAssertion) ∧
    decodeRecord { routes := [⟨1, .array [.number 1], "block", ""⟩], baseConfig := some minutes }
      type = .error (.panic .typeAssertion) ∧
    decodeRecord { routes := [⟨1, .array [], "dns", ""⟩], baseConfig := some minutes } type =
      .error (.panic .indexOutOfRange) ∧
    decodeRecord { baseConfig := some ⟨.null, .null⟩ } type = .error (.panic .nilDereference) ∧
    decodeRecord { baseConfig := some ⟨.number 60, .bool true⟩ } type =
      .error (.panic .reflectKind) := by
  cases type <;> exact ⟨rfl, rfl, rfl, rfl, rfl, rfl⟩

/-- **Records that end the program.** A vless node without a base configuration dereferences a nil
pointer, and a `dns` route of a trojan node with the empty list reads its first text. -/
theorem decodeNodeInfo_panics :
    decodeRecord {} .vless = .error (.panic .nilDereference) ∧
    decodeRecord { routes := [⟨1, .array [], "dns", ""⟩], baseConfig := some minutes } .trojan =
      .error (.panic .indexOutOfRange) :=
  ⟨(decodeRecord_panics .vless).1, (decodeRecord_panics .trojan).2.2.2.1⟩

end Tox.Panel
