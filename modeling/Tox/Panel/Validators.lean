import Tox.Panel.Node

/-!
# The cache validators after a failed request

`Client.GetNodeInfo` keeps two validators of the last configuration: its entity tag, which the next
request carries, and the digest of its body, with which the next body is compared. Both are replaced
before the response is checked and decoded. So a request that fails leaves the validators of a
response that was never used. What follows from this shows in the later requests: the response that
failed is taken for an unchanged configuration when it comes again, and the configuration that the
client already has is taken for a new one.
-/

namespace Tox.Panel

namespace Client

variable {cd : NodeCodec} {c : Client} {r : Reply}

/-- The response is not an error, and the record of the protocol can be read from its body. -/
def Decodes (cd : NodeCodec) (c : Client) (r : Reply) : Prop :=
  checkResponse r "/api/v1/server/UniProxy/config" = none ∧
    ∃ rsp, c.unmarshalNode cd r.body = .ok rsp

/-- The translation of the record panics or succeeds; errors come from the record only. -/
theorem exists_decodeNodeInfo_error_iff {body : Body} :
    (∃ e, c.decodeNodeInfo cd body = .error (.error e)) ↔
      ∃ e, c.unmarshalNode cd body = .error e := by
  simp only [decodeNodeInfo]
  rcases c.unmarshalNode cd body with e | ⟨cm, node⟩
  · exact iff_of_true ⟨e, rfl⟩ ⟨e, rfl⟩
  · refine iff_of_false ?_ nofun
    rintro ⟨e, he⟩
    dsimp only at he
    generalize parseRoutes node 0 cm.routes >>= finishNode cm = result at he
    rcases result with k | node'
    · cases he
    · cases he

/-- An error is returned for a response that is not known yet and is an error or does not decode. -/
theorem exists_error_iff :
    (∃ e, (c.getNodeInfo cd r).2 = .error (.error e)) ↔
      r.status ≠ 304 ∧ c.responseBodyHash ≠ cd.sha256 r.body ∧ ¬ c.Decodes cd r := by
  rcases c.getNodeInfo_eq cd r with
    ⟨hknown, hget⟩ | ⟨⟨h304, hhash⟩, ⟨e, hcheck, hget⟩ | ⟨hcheck, hget⟩⟩
  · rw [hget]
    refine iff_of_false nofun fun h => ?_
    exact hknown.elim h.1 h.2.1
  · rw [hget]
    refine iff_of_true ⟨e, rfl⟩ ⟨h304, hhash, fun h => ?_⟩
    exact Option.some_ne_none e (hcheck.symm.trans h.1)
  · have hmap : (∃ e, (c.decodeNodeInfo cd r.body).map some = .error (.error e)) ↔
        ∃ e, c.decodeNodeInfo cd r.body = .error (.error e) := by
      generalize c.decodeNodeInfo cd r.body = result
      rcases result with f | node
      · exact exists_congr fun e => by simp only [Except.map, Except.error.injEq]
      · exact iff_of_false nofun nofun
    rw [hget, hmap, exists_decodeNodeInfo_error_iff, and_iff_right h304, and_iff_right hhash,
      Decodes, and_iff_right hcheck]
    generalize c.unmarshalNode cd r.body = record
    rcases record with e | rsp
    · simp only [Except.error.injEq, exists_eq', reduceCtorEq, exists_false, not_false_eq_true]
    · simp only [Except.ok.injEq, exists_eq', reduceCtorEq, exists_false, not_true_eq_false]

/-- A request that returns an error has taken over the validators of the response. -/
theorem fst_getNodeInfo_of_error {e : PanelError}
    (h : (c.getNodeInfo cd r).2 = .error (.error e)) : (c.getNodeInfo cd r).1 = c.seen cd r := by
  rcases c.getNodeInfo_eq cd r with ⟨-, hget⟩ | ⟨-, ⟨e', -, hget⟩ | ⟨-, hget⟩⟩
  · rw [hget] at h
    cases h
  · rw [hget]
  · rw [hget]

/-- A response that is not known yet, is no error and decodes gives its node. -/
theorem getNodeInfo_of_new {node : NodeInfo} (h304 : r.status ≠ 304)
    (hcheck : checkResponse r "/api/v1/server/UniProxy/config" = none)
    (hhash : c.responseBodyHash ≠ cd.sha256 r.body)
    (hnode : c.decodeNodeInfo cd r.body = .ok node) :
    (c.getNodeInfo cd r).2 = .ok (some node) := by
  rcases c.getNodeInfo_eq cd r with ⟨hknown, -⟩ | ⟨-, ⟨e, hcheck', -⟩ | ⟨-, hget⟩⟩
  · exact absurd hknown (not_or.mpr ⟨h304, hhash⟩)
  · rw [hcheck] at hcheck'
    cases hcheck'
  · rw [hget, hnode]
    rfl

theorem getNodeInfo_of_hash_eq (h : c.responseBodyHash = cd.sha256 r.body) :
    c.getNodeInfo cd r = (c, .ok none) := by
  rcases c.getNodeInfo_eq cd r with ⟨-, hget⟩ | ⟨⟨-, hhash⟩, -⟩
  · exact hget
  · exact absurd h hhash

end Client

/-- **A failed request changes the validators.** That a failed request leaves the entity tag and the
digest as they were is true only of the responses for which no error is returned: those with the
status 304, with the body of the last response, or with a body that decodes.

After every error, the response that failed is taken for an unchanged configuration when it comes
again, and a configuration with the digest that the client had, which it would have taken for
unchanged before, is taken for a new one. -/
theorem getNodeInfo_unchanged_iff (cd : NodeCodec) (c : Client) (r : Reply) :
    let c' := (c.getNodeInfo cd r).1
    let failed := ∃ e, (c.getNodeInfo cd r).2 = .error (.error e)
    ((failed → c'.nodeEtag = c.nodeEtag ∧ c'.responseBodyHash = c.responseBodyHash) ↔
      r.status = 304 ∨ c.responseBodyHash = cd.sha256 r.body ∨ c.Decodes cd r) ∧
    (failed → c'.getNodeInfo cd r = (c', .ok none) ∧
      ∀ good node, good.status ≠ 304 →
        checkResponse good "/api/v1/server/UniProxy/config" = none →
        cd.sha256 good.body = c.responseBodyHash → c.decodeNodeInfo cd good.body = .ok node →
        (c.getNodeInfo cd good).2 = .ok none ∧ (c'.getNodeInfo cd good).2 = .ok (some node)) := by
  intro c' failed
  have hseen : failed → c' = c.seen cd r := fun ⟨e, he⟩ => Client.fst_getNodeInfo_of_error he
  refine ⟨⟨fun h => ?_, fun h hfailed => ?_⟩, fun hfailed => ⟨?_, ?_⟩⟩
  · by_contra hnone
    have hnew : r.status ≠ 304 ∧ c.responseBodyHash ≠ cd.sha256 r.body ∧ ¬ c.Decodes cd r := by
      simpa only [not_or] using hnone
    have hfailed : failed := Client.exists_error_iff.mpr hnew
    have hhash := (h hfailed).2
    rw [hseen hfailed] at hhash
    exact hnew.2.1 hhash.symm
  · obtain ⟨h304, hhash, hdecodes⟩ := Client.exists_error_iff.mp hfailed
    rcases h with h | h | h
    · exact absurd h h304
    · exact absurd h hhash
    · exact absurd h hdecodes
  · rw [hseen hfailed]
    exact Client.getNodeInfo_of_hash_eq rfl
  · intro good node h304 hcheck hgood hnode
    refine ⟨by rw [Client.getNodeInfo_of_hash_eq hgood.symm], ?_⟩
    obtain ⟨-, hhash, -⟩ := Client.exists_error_iff.mp hfailed
    rw [hseen hfailed]
    refine Client.getNodeInfo_of_new h304 hcheck (fun h => hhash ?_) hnode
    rw [← hgood]
    exact h.symm

/-! ### A panel that fails once -/

/-- A codec that reads the port from a body of one byte. -/
def portCodec : NodeCodec where
  sha256 body := String.ofList (body.map fun b => Char.ofNat b.toNat)
  decodeMsgpack _ := .ok none
  decodeJson _ := .ok none
  unmarshalAlive _ := .ok none
  unmarshalVAllss _ := .error "unexpected end of JSON input"
  unmarshalMieru _ := .error "unexpected end of JSON input"
  unmarshalCommon _ body :=
    match body with
    | [port] => .ok { serverPort := port.toNat, baseConfig := some ⟨.number 60, .number 60⟩ }
    | _ => .error "unexpected end of JSON input"

/-- A client that has the configuration with the port 80. -/
def portClient : Client where
  apiHost := "http://127.0.0.1"
  nodeType := .trojan
  nodeId := 1
  nodeEtag := "80"
  responseBodyHash := portCodec.sha256 [80]

/-- After an error page the same page is taken for an unchanged configuration, and the configuration
with the port 80, which the client had, for a new one. -/
theorem getNodeInfo_unchanged_iff_errorPage :
    let page : Reply := .received 502 [60, 104] "" "" none
    let good : Reply := .received 200 [80] "80" "" none
    let c' := (portClient.getNodeInfo portCodec page).1
    (∃ e, (portClient.getNodeInfo portCodec page).2 = .error (.error e)) ∧
      c'.getNodeInfo portCodec page = (c', .ok none) ∧
      (portClient.getNodeInfo portCodec good).2 = .ok none ∧
      ∃ node, (c'.getNodeInfo portCodec good).2 = .ok (some node) := by
  intro page good c'
  have hfailed : ∃ e, (portClient.getNodeInfo portCodec page).2 = .error (.error e) := ⟨_, rfl⟩
  obtain ⟨hpage, hgood⟩ := (getNodeInfo_unchanged_iff portCodec portClient page).2 hfailed
  obtain ⟨hbefore, hafter⟩ := hgood good _ (by decide) rfl rfl rfl
  exact ⟨hfailed, hpage, hbefore, _, hafter⟩

/-- **A transient failure.** The panel answers once with an error page, or once with a body that
does not decode. Both validators are those of the failed response afterwards. The configuration with
the port 80 is then taken for a new one, and the body that did not decode for an unchanged one. -/
theorem getNodeInfo_forgets :
    let path := "/api/v1/server/UniProxy/config"
    let page : Reply := .received 502 [60, 104] "" "" none
    let broken : Reply := .received 200 [1, 2] "new" "" none
    let good : Reply := .received 200 [80] "80" "" none
    let (c₁, result₁) := portClient.getNodeInfo portCodec page
    let (c₂, result₂) := portClient.getNodeInfo portCodec broken
    (result₁ = .error (.error (.status path [60, 104])) ∧ c₁.nodeEtag = "" ∧
      c₁.responseBodyHash = portCodec.sha256 [60, 104]) ∧
    (portClient.getNodeInfo portCodec good).2 = .ok none ∧
    (∃ node, (c₁.getNodeInfo portCodec good).2 = .ok (some node)) ∧
    (result₂ = .error (.error (.decode "trojan params" "unexpected end of JSON input")) ∧
      c₂.nodeEtag = "new" ∧ (c₂.getNodeInfo portCodec broken).2 = .ok none) := by
  refine ⟨⟨rfl, rfl, rfl⟩, ?_, ⟨_, rfl⟩, rfl, rfl, ?_⟩
  · exact congrArg Prod.snd (Client.getNodeInfo_of_hash_eq rfl)
  · exact congrArg Prod.snd (Client.getNodeInfo_of_hash_eq rfl)

end Tox.Panel
