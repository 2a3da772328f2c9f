import Mathlib
import Tox.Common.Format
import Tox.Panel.Client

/-!
# The node configuration

`Client.GetNodeInfo` fetches the configuration of the node and translates it into a `NodeInfo`.
The request carries the entity tag of the last configuration. A configuration counts as unchanged
when the panel says so (status 304) and when its body has the digest of the last body; otherwise
both validators are replaced by those of the response *before* the response is checked or decoded.

The decoders of the protocol records are library functions (`NodeCodec`). The translation of the
decoded record is the program's own: the routes become block rules and DNS entries, and the
intervals become durations. It panics on routes and intervals of unexpected types.
-/

namespace Tox.Panel

open Tox.Foundation

/-! ### Decoded values -/

/-- A decoded JSON value of unknown type. -/
inductive Any
  | null
  | bool (b : Bool)
  | number (q : ℚ)
  | string (s : String)
  | array (l : List Any)
  | object (l : List (String × Any))

/-- `panel.Route`. -/
structure Route where
  id : ℤ
  «match» : Any
  action : String
  actionValue : String

/-- `panel.BaseConfig`. -/
structure BaseConfig where
  pushInterval : Any
  pullInterval : Any

/-- `panel.CommonNode`. -/
structure CommonNode where
  host : String := ""
  serverPort : ℤ := 0
  serverName : String := ""
  routes : List Route := []
  baseConfig : Option BaseConfig := none

/-- `panel.VAllssNode`, the record of vmess, vless and xhttp nodes. -/
structure VAllssNode extends CommonNode where
  tls : ℤ := 0

/-- `panel.MieruNode`. -/
structure MieruNode extends CommonNode where
  portRange : String := ""
  transport : String := ""

/-- An entry of `RawDNS.DNSMap`. -/
structure DnsEntry where
  address : String
  domains : List String
deriving DecidableEq, Repr

/-- `panel.RawDNS`. -/
structure RawDNS where
  dnsMap : GoMap String DnsEntry := ∅
  dnsJson : String := ""

/-- `panel.Rules`. -/
structure Rules where
  regexp : List String := []
  protocol : List String := []
deriving DecidableEq, Repr

/-- The values of `NodeInfo.Security`. -/
def Security.none : ℤ := 0

/-- The value of `NodeInfo.Security` of nodes with a certificate of their own. -/
def Security.tls : ℤ := 1

/-- `panel.NodeInfo`. Durations are in nanoseconds. -/
structure NodeInfo where
  id : ℤ
  type : NodeType
  security : ℤ := 0
  pushInterval : Int64 := 0
  pullInterval : Int64 := 0
  rawDNS : RawDNS := {}
  rules : Rules := {}
  mieru : Option MieruNode := none
  common : CommonNode := {}

/-- The library decoders of the protocol records. -/
structure NodeCodec extends Codec where
  unmarshalVAllss : Body → Except String VAllssNode
  unmarshalMieru : Body → Except String MieruNode
  /-- The decoders of the records of which only the common part is used. -/
  unmarshalCommon : NodeType → Body → Except String CommonNode

/-! ### Panics -/

/-- The runtime errors that end the program. -/
inductive PanicKind
  | typeAssertion
  | indexOutOfRange
  | nilDereference
  | reflectKind
  | regexpCompile
  | logged (msg : String)
deriving DecidableEq, Repr

/-- The ways in which a call may fail: a returned error or a panic. -/
inductive Failure
  | error (e : PanelError)
  | panic (k : PanicKind)
deriving DecidableEq, Repr

/-! ### Routes -/

/-- `strings.Split` at commas. -/
def splitComma (s : String) : List String := (s.toList.splitOn ',').map String.ofList

/-- `strings.TrimPrefix`. -/
def trimPrefix (s pre : String) : String :=
  if pre.toList.isPrefixOf s.toList then String.ofList (s.toList.drop pre.toList.length) else s

/-- `strings.HasPrefix`. -/
def startsWith (s pre : String) : Bool := pre.toList.isPrefixOf s.toList

/-- The patterns of a route, given as one comma-separated string or as a list of strings. -/
def matchStrings : Any → Except PanicKind (List String)
  | .string s => .ok (splitComma s)
  | .array l => l.mapM fun
    | .string s => .ok s
    | _ => .error .typeAssertion
  | _ => .error .typeAssertion

/-- The patterns of a `block` route, added to the rules in order. -/
def addBlockRules (rules : Rules) (matchs : List String) : Rules :=
  matchs.foldl (fun rules v =>
    if startsWith v "protocol:" then
      { rules with protocol := rules.protocol ++ [trimPrefix v "protocol:"] }
    else { rules with regexp := rules.regexp ++ [trimPrefix v "regexp:"] }) rules

/-- The route at position `i`: block rules, a DNS entry under the position, or the DNS text. -/
def parseRoute (node : NodeInfo) (i : ℕ) (r : Route) : Except PanicKind NodeInfo := do
  let matchs ← matchStrings r.match
  if r.action = "block" then
    return { node with rules := addBlockRules node.rules matchs }
  else if r.action = "dns" then
    match matchs with
    | [] => .error .indexOutOfRange
    | first :: rest =>
      if first ≠ "main" then
        return { node with rawDNS := { node.rawDNS with
          dnsMap := node.rawDNS.dnsMap.insert (Format.itoa i) ⟨r.actionValue, matchs⟩ } }
      else
        return { node with rawDNS := { node.rawDNS with dnsJson := String.join rest } }
  else return node

/-- The routes from position `i` on. -/
def parseRoutes (node : NodeInfo) (i : ℕ) : List Route → Except PanicKind NodeInfo
  | [] => .ok node
  | r :: rs => do parseRoutes (← parseRoute node i r) (i + 1) rs

/-! ### Intervals -/

/-- The digits of an unsigned number below `2^64`. Reading stops at the first digit that leaves
the range, with the largest number; it fails at a character that is not a digit. -/
def parseUint : List Char → ℕ → Option ℕ
  | [], n => some n
  | c :: cs, n =>
    if c.isDigit then
      if 10 * n + (c.toNat - '0'.toNat) < 2 ^ 64 then
        parseUint cs (10 * n + (c.toNat - '0'.toNat))
      else some (2 ^ 64 - 1)
    else none

/-- The number of `strconv.Atoi`, its error being dropped: `0` for texts that are not a number,
and the nearest 64-bit integer for numbers out of range. -/
def atoi (s : String) : ℤ :=
  match s.toList with
  | '-' :: c :: cs => ((parseUint (c :: cs) 0).map fun n => -min (n : ℤ) (2 ^ 63)).getD 0
  | '+' :: c :: cs => ((parseUint (c :: cs) 0).map fun n => min (n : ℤ) (2 ^ 63 - 1)).getD 0
  | c :: cs => ((parseUint (c :: cs) 0).map fun n => min (n : ℤ) (2 ^ 63 - 1)).getD 0
  | [] => 0

/-- The conversion of a floating point number to a 64-bit integer: the fraction is dropped, and
numbers out of range become the least integer, as on amd64. -/
def truncate (q : ℚ) : ℤ :=
  let n := q.num.tdiv q.den
  if -2 ^ 63 ≤ n ∧ n < 2 ^ 63 then n else -2 ^ 63

/-- `intervalToTime`: a number of seconds as a duration. -/
def intervalToTime : Any → Except PanicKind Int64
  | .null => .error .nilDereference
  | .string s => .ok (Int64.ofInt (atoi s) * 1000000000)
  | .number q => .ok (Int64.ofInt (truncate q) * 1000000000)
  | _ => .error .reflectKind

/-! ### Decoding -/

/-- The protocol record of a response: its common part, and the `NodeInfo` with the fields that
the record determines. -/
def Client.unmarshalNode (cd : NodeCodec) (c : Client) (body : Body) :
    Except PanelError (CommonNode × NodeInfo) :=
  let node : NodeInfo := { id := c.nodeId, type := c.nodeType }
  match c.nodeType with
  | .vmess | .vless | .xhttp =>
    match cd.unmarshalVAllss body with
    | .error e => .error (.decode "v2ray params" e)
    | .ok rsp => .ok (rsp.toCommonNode, { node with security := rsp.tls })
  | .mieru =>
    match cd.unmarshalMieru body with
    | .error e => .error (.decode "mieru params" e)
    | .ok rsp => .ok (rsp.toCommonNode, { node with
        security := Security.none
        mieru := some { rsp with routes := [], baseConfig := none } })
  | .shadowsocks =>
    match cd.unmarshalCommon c.nodeType body with
    | .error e => .error (.decode "shadowsocks params" e)
    | .ok rsp => .ok (rsp, { node with security := Security.none })
  | .trojan | .tuic | .anytls | .hysteria | .hysteria2 =>
    match cd.unmarshalCommon c.nodeType body with
    | .error e => .error (.decode (c.nodeType.name ++ " params") e)
    | .ok rsp => .ok (rsp, { node with security := Security.tls })

/-- The durations and the common part of a node. The routes and the base configuration are
cleared. -/
def finishNode (cm : CommonNode) (node : NodeInfo) : Except PanicKind NodeInfo := do
  match cm.baseConfig with
  | none => .error .nilDereference
  | some base =>
    let push ← intervalToTime base.pushInterval
    let pull ← intervalToTime base.pullInterval
    return { node with
      pushInterval := push
      pullInterval := pull
      common := { cm with routes := [], baseConfig := none } }

/-- The `NodeInfo` of a response body. -/
def Client.decodeNodeInfo (cd : NodeCodec) (c : Client) (body : Body) :
    Except Failure NodeInfo :=
  match c.unmarshalNode cd body with
  | .error e => .error (.error e)
  | .ok (cm, node) =>
    match parseRoutes node 0 cm.routes >>= finishNode cm with
    | .error k => .error (.panic k)
    | .ok node => .ok node

/-- `Client.GetNodeInfo`: `none` when the configuration did not change. -/
def Client.getNodeInfo (cd : NodeCodec) (c : Client) (r : Reply) :
    Client × Except Failure (Option NodeInfo) :=
  if r.status = 304 then (c, .ok none)
  else if c.responseBodyHash = cd.sha256 r.body then (c, .ok none)
  else
    let c' := { c with responseBodyHash := cd.sha256 r.body, nodeEtag := r.etag }
    match checkResponse r "/api/v1/server/UniProxy/config" with
    | some e => (c', .error (.error e))
    | none => (c', (c'.decodeNodeInfo cd r.body).map some)

/-! ### What a fetch does to the client -/

/-- The client after a response that is not known yet: its validators are those of the response. -/
def Client.seen (cd : NodeCodec) (c : Client) (r : Reply) : Client :=
  { c with responseBodyHash := cd.sha256 r.body, nodeEtag := r.etag }

/-- A fetch finds the configuration unchanged and leaves the client as it is, or takes over the
validators of the response. In the second case the response is an error, or does not decode, or
gives the new node. -/
theorem Client.getNodeInfo_eq (cd : NodeCodec) (c : Client) (r : Reply) :
    ((r.status = 304 ∨ c.responseBodyHash = cd.sha256 r.body) ∧
      c.getNodeInfo cd r = (c, .ok none)) ∨
    ((r.status ≠ 304 ∧ c.responseBodyHash ≠ cd.sha256 r.body) ∧
      ((∃ e, checkResponse r "/api/v1/server/UniProxy/config" = some e ∧
          c.getNodeInfo cd r = (c.seen cd r, .error (.error e))) ∨
        (checkResponse r "/api/v1/server/UniProxy/config" = none ∧
          c.getNodeInfo cd r = (c.seen cd r, (c.decodeNodeInfo cd r.body).map some)))) := by
  by_cases h304 : r.status = 304
  · exact Or.inl ⟨Or.inl h304, by simp only [getNodeInfo, h304, if_true]⟩
  by_cases hhash : c.responseBodyHash = cd.sha256 r.body
  · exact Or.inl ⟨Or.inr hhash, by simp only [getNodeInfo, h304, hhash, if_true, if_false]⟩
  refine Or.inr ⟨⟨h304, hhash⟩, ?_⟩
  cases hcheck : checkResponse r "/api/v1/server/UniProxy/config" with
  | some e =>
    refine Or.inl ⟨e, rfl, ?_⟩
    simp only [getNodeInfo, h304, hhash, if_false, hcheck]
    rfl
  | none =>
    refine Or.inr ⟨rfl, ?_⟩
    simp only [getNodeInfo, h304, hhash, if_false, hcheck]
    rfl

/-! ### The identity of a decoded node -/

/-- The fields of a node that its protocol record determines. -/
def NodeInfo.header (node : NodeInfo) : ℤ × NodeType × ℤ × Option MieruNode :=
  (node.id, node.type, node.security, node.mieru)

theorem header_parseRoute {node node' : NodeInfo} {i : ℕ} {r : Route}
    (h : parseRoute node i r = .ok node') : node'.header = node.header := by
  unfold parseRoute at h
  cases hm : matchStrings r.match with
  | error k => rw [hm] at h; cases h
  | ok matchs =>
    simp only [hm, bind, Except.bind] at h
    split_ifs at h
    · cases h; rfl
    · cases matchs with
      | nil => cases h
      | cons first rest =>
        dsimp only at h
        split_ifs at h <;> cases h <;> rfl
    · cases h; rfl

theorem header_parseRoutes {rs : List Route} {node node' : NodeInfo} {i : ℕ}
    (h : parseRoutes node i rs = .ok node') : node'.header = node.header := by
  induction rs generalizing node i with
  | nil => cases h; rfl
  | cons r rs ih =>
    simp only [parseRoutes, bind, Except.bind] at h
    cases hr : parseRoute node i r with
    | error k => rw [hr] at h; cases h
    | ok node₁ =>
      rw [hr] at h
      exact (ih h).trans (header_parseRoute hr)

theorem header_finishNode {cm : CommonNode} {node node' : NodeInfo}
    (h : finishNode cm node = .ok node') : node'.header = node.header := by
  unfold finishNode at h
  cases hb : cm.baseConfig with
  | none => rw [hb] at h; cases h
  | some base =>
    simp only [hb, bind, Except.bind] at h
    cases hpush : intervalToTime base.pushInterval with
    | error k => rw [hpush] at h; cases h
    | ok push =>
      cases hpull : intervalToTime base.pullInterval with
      | error k => rw [hpush, hpull] at h; cases h
      | ok pull =>
        rw [hpush, hpull] at h
        cases h
        rfl

/-- The translation of routes and intervals keeps what the protocol record has determined. -/
theorem header_translation {cm : CommonNode} {node node' : NodeInfo}
    (h : parseRoutes node 0 cm.routes >>= finishNode cm = .ok node') :
    node'.header = node.header := by
  cases hr : parseRoutes node 0 cm.routes with
  | error k => rw [hr] at h; cases h
  | ok node₁ =>
    rw [hr] at h
    exact (header_finishNode h).trans (header_parseRoutes hr)

end Tox.Panel
