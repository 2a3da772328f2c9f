import Tox.Panel.Translation

/-!
# Protocol records

`GetNodeInfo` decodes the body into the record of the protocol and keeps a pointer to it in the
`NodeInfo`, next to the common part. The controller reads the common part only; the cores read the
record, through the pointer that belongs to the type of the node. This file adds the records to the
model of the node configuration. Forgetting them gives the `NodeInfo` of before
(`Client.decodeNodeInfo_eq_map`).

A decoded node has the pointer of its own protocol, and its security follows from the protocol
(`ProtocolInfo.Fits`). A vmess, vless or xhttp node has the security that the panel says; the others
have a fixed one.
-/

namespace Tox.Panel

/-! ### The records -/

/-- `panel.TlsSettings`. -/
structure TlsSettings where
  serverName : String := ""
  dest : String := ""
  serverPort : String := ""
  shortId : String := ""
  privateKey : String := ""
  mldsa65Seed : String := ""
  xver : UInt64 := 0
deriving DecidableEq, Repr

/-- `panel.EncSettings`. -/
structure EncSettings where
  mode : String := ""
  ticket : String := ""
  serverPadding : String := ""
  privateKey : String := ""
deriving DecidableEq, Repr

/-- `panel.RealityConfig`, which is not decoded. -/
structure RealityConfig where
  xver : UInt64 := 0
  minClientVer : String := ""
  maxClientVer : String := ""
  maxTimeDiff : String := ""
deriving DecidableEq, Repr

/-- `panel.VAllssNode` with the fields that the cores read. -/
structure VAllssRecord extends VAllssNode where
  tlsSettings : TlsSettings := {}
  tlsSettingsBack : Option TlsSettings := none
  network : String := ""
  networkSettings : Body := []
  networkSettingsBack : Body := []
  encryption : String := ""
  encryptionSettings : EncSettings := {}
  flow : String := ""
  realityConfig : RealityConfig := {}

/-- `panel.ShadowsocksNode`. -/
structure ShadowsocksNode extends CommonNode where
  cipher : String := ""
  serverKey : String := ""

/-- `panel.TrojanNode`. -/
structure TrojanNode extends CommonNode where
  network : String := ""
  networkSettings : Body := []

/-- `panel.TuicNode`. -/
structure TuicNode extends CommonNode where
  congestionControl : String := ""
  zeroRTTHandshake : Bool := false

/-- `panel.AnyTlsNode`. -/
structure AnyTlsNode extends CommonNode where
  paddingScheme : List String := []

/-- `panel.HysteriaNode`. -/
structure HysteriaNode extends CommonNode where
  upMbps : ℤ := 0
  downMbps : ℤ := 0
  obfs : String := ""

/-- `panel.Hysteria2Node`. -/
structure Hysteria2Node extends CommonNode where
  ignoreClientBandwidth : Bool := false
  upMbps : ℤ := 0
  downMbps : ℤ := 0
  obfsType : String := ""
  obfsPassword : String := ""

/-- The value of `NodeInfo.Security` of Reality nodes. -/
def Security.reality : ℤ := 2

/-- `panel.NodeInfo` with the pointers to the protocol records; `none` is a nil pointer. -/
structure ProtocolInfo extends NodeInfo where
  vAllss : Option VAllssRecord := none
  shadowsocks : Option ShadowsocksNode := none
  trojan : Option TrojanNode := none
  tuic : Option TuicNode := none
  anyTls : Option AnyTlsNode := none
  hysteria : Option HysteriaNode := none
  hysteria2 : Option Hysteria2Node := none

/-- A node of one of the three types that share a record. -/
def NodeType.IsV2ray (type : NodeType) : Prop := type = .vmess ∨ type = .vless ∨ type = .xhttp

/-! ### Decoding -/

/-- The library decoders of the protocol records. -/
structure ProtocolCodec extends Codec where
  unmarshalVAllss : Body → Except String VAllssRecord
  unmarshalShadowsocks : Body → Except String ShadowsocksNode
  unmarshalTrojan : Body → Except String TrojanNode
  unmarshalTuic : Body → Except String TuicNode
  unmarshalAnyTls : Body → Except String AnyTlsNode
  unmarshalHysteria : Body → Except String HysteriaNode
  unmarshalHysteria2 : Body → Except String Hysteria2Node
  unmarshalMieru : Body → Except String MieruNode

/-- The decoders, up to the parts of the records that the controller reads. -/
def ProtocolCodec.toNodeCodec (cd : ProtocolCodec) : NodeCodec where
  toCodec := cd.toCodec
  unmarshalVAllss body := (cd.unmarshalVAllss body).map VAllssRecord.toVAllssNode
  unmarshalMieru := cd.unmarshalMieru
  unmarshalCommon
    | .shadowsocks, body => (cd.unmarshalShadowsocks body).map ShadowsocksNode.toCommonNode
    | .trojan, body => (cd.unmarshalTrojan body).map TrojanNode.toCommonNode
    | .tuic, body => (cd.unmarshalTuic body).map TuicNode.toCommonNode
    | .anytls, body => (cd.unmarshalAnyTls body).map AnyTlsNode.toCommonNode
    | .hysteria, body => (cd.unmarshalHysteria body).map HysteriaNode.toCommonNode
    | .hysteria2, body => (cd.unmarshalHysteria2 body).map Hysteria2Node.toCommonNode
    | _, _ => .error ""

/-- The settings under their second names replace those under the first. -/
def VAllssRecord.takeBack (rsp : VAllssRecord) : VAllssRecord :=
  let rsp :=
    if rsp.networkSettingsBack.length > 0 then
      { rsp with networkSettings := rsp.networkSettingsBack, networkSettingsBack := [] }
    else rsp
  match rsp.tlsSettingsBack with
  | some tlsSettings => { rsp with tlsSettings := tlsSettings, tlsSettingsBack := none }
  | none => rsp

theorem VAllssRecord.tls_takeBack (rsp : VAllssRecord) : rsp.takeBack.tls = rsp.tls := by
  rw [takeBack]
  split_ifs
  · rcases rsp.tlsSettingsBack with _ | tlsSettings <;> rfl
  · rcases rsp.tlsSettingsBack with _ | tlsSettings <;> rfl

/-- A decoded record: its common part, and the `NodeInfo` made of it. -/
def readRecord {ρ : Type} (what : String) (decoded : Except String ρ) (common : ρ → CommonNode)
    (info : ρ → ProtocolInfo) : Except PanelError (CommonNode × ProtocolInfo) :=
  match decoded with
  | .error e => .error (.decode what e)
  | .ok rsp => .ok (common rsp, info rsp)

theorem readRecord_eq_ok {ρ : Type} {what : String} {decoded : Except String ρ}
    {common : ρ → CommonNode} {make : ρ → ProtocolInfo} {cm : CommonNode} {info : ProtocolInfo}
    (h : readRecord what decoded common make = .ok (cm, info)) :
    ∃ rsp, decoded = .ok rsp ∧ info = make rsp := by
  rcases decoded with e | rsp
  · cases h
  · cases h
    exact ⟨rsp, rfl, rfl⟩

/-- The protocol record of a response: its common part, and the `NodeInfo` with the record and the
fields that it determines. The routes and the base configuration of the record are cleared at the
end, through the pointer to its common part; no one reads them from the record before. -/
def Client.unmarshalProtocol (cd : ProtocolCodec) (c : Client) (body : Body) :
    Except PanelError (CommonNode × ProtocolInfo) :=
  let node : NodeInfo := { id := c.nodeId, type := c.nodeType }
  match c.nodeType with
  | .vmess | .vless | .xhttp =>
    readRecord "v2ray params" (cd.unmarshalVAllss body) (·.toCommonNode) fun rsp =>
      { node with
        security := rsp.tls
        vAllss := some { rsp.takeBack with routes := [], baseConfig := none } }
  | .shadowsocks =>
    readRecord "shadowsocks params" (cd.unmarshalShadowsocks body) (·.toCommonNode) fun rsp =>
      { node with
        security := Security.none
        shadowsocks := some { rsp with routes := [], baseConfig := none } }
  | .trojan =>
    readRecord "trojan params" (cd.unmarshalTrojan body) (·.toCommonNode) fun rsp =>
      { node with
        security := Security.tls
        trojan := some { rsp with routes := [], baseConfig := none } }
  | .tuic =>
    readRecord "tuic params" (cd.unmarshalTuic body) (·.toCommonNode) fun rsp =>
      { node with
        security := Security.tls
        tuic := some { rsp with routes := [], baseConfig := none } }
  | .anytls =>
    readRecord "anytls params" (cd.unmarshalAnyTls body) (·.toCommonNode) fun rsp =>
      { node with
        security := Security.tls
        anyTls := some { rsp with routes := [], baseConfig := none } }
  | .hysteria =>
    readRecord "hysteria params" (cd.unmarshalHysteria body) (·.toCommonNode) fun rsp =>
      { node with
        security := Security.tls
        hysteria := some { rsp with routes := [], baseConfig := none } }
  | .hysteria2 =>
    readRecord "hysteria2 params" (cd.unmarshalHysteria2 body) (·.toCommonNode) fun rsp =>
      { node with
        security := Security.tls
        hysteria2 := some { rsp with routes := [], baseConfig := none } }
  | .mieru =>
    readRecord "mieru params" (cd.unmarshalMieru body) (·.toCommonNode) fun rsp =>
      { node with
        security := Security.none
        mieru := some { rsp with routes := [], baseConfig := none } }

/-- The `NodeInfo` of a response body, with the protocol records. -/
def Client.decodeProtocolInfo (cd : ProtocolCodec) (c : Client) (body : Body) :
    Except Failure ProtocolInfo :=
  match c.unmarshalProtocol cd body with
  | .error e => .error (.error e)
  | .ok (cm, info) =>
    match parseRoutes info.toNodeInfo 0 cm.routes >>= finishNode cm with
    | .error k => .error (.panic k)
    | .ok node => .ok { info with toNodeInfo := node }

/-! ### Forgetting the records -/

/-- The parts of the records that the controller reads are decoded as before. -/
theorem Client.unmarshalNode_eq_map (cd : ProtocolCodec) (c : Client) (body : Body) :
    c.unmarshalNode cd.toNodeCodec body =
      (c.unmarshalProtocol cd body).map fun p => (p.1, p.2.toNodeInfo) := by
  simp only [unmarshalNode, unmarshalProtocol, ProtocolCodec.toNodeCodec, readRecord]
  rcases c.nodeType
  all_goals dsimp only
  case vmess | vless | xhttp => rcases cd.unmarshalVAllss body with e | rsp <;> rfl
  case shadowsocks => rcases cd.unmarshalShadowsocks body with e | rsp <;> rfl
  case trojan => rcases cd.unmarshalTrojan body with e | rsp <;> rfl
  case tuic => rcases cd.unmarshalTuic body with e | rsp <;> rfl
  case anytls => rcases cd.unmarshalAnyTls body with e | rsp <;> rfl
  case hysteria => rcases cd.unmarshalHysteria body with e | rsp <;> rfl
  case hysteria2 => rcases cd.unmarshalHysteria2 body with e | rsp <;> rfl
  case mieru => rcases cd.unmarshalMieru body with e | rsp <;> rfl

/-- A node with its records is the node of before, once the records are forgotten. -/
theorem Client.decodeNodeInfo_eq_map (cd : ProtocolCodec) (c : Client) (body : Body) :
    c.decodeNodeInfo cd.toNodeCodec body =
      (c.decodeProtocolInfo cd body).map ProtocolInfo.toNodeInfo := by
  rw [decodeNodeInfo, decodeProtocolInfo, unmarshalNode_eq_map]
  rcases c.unmarshalProtocol cd body with e | ⟨cm, info⟩
  · rfl
  · dsimp only [Except.map]
    generalize parseRoutes info.toNodeInfo 0 cm.routes >>= finishNode cm = result
    rcases result with k | node
    · rfl
    · rfl

/-! ### The pointers of a decoded node -/

namespace ProtocolInfo

/-- The node has the record of its protocol, and the security that goes with it. -/
def Fits (info : ProtocolInfo) : Prop :=
  match info.type with
  | .vmess | .vless | .xhttp => ∃ v, info.vAllss = some v ∧ info.security = v.tls
  | .shadowsocks => info.shadowsocks.isSome ∧ info.security = Security.none
  | .trojan => info.trojan.isSome ∧ info.security = Security.tls
  | .tuic => info.tuic.isSome ∧ info.security = Security.tls
  | .anytls => info.anyTls.isSome ∧ info.security = Security.tls
  | .hysteria => info.hysteria.isSome ∧ info.security = Security.tls
  | .hysteria2 => info.hysteria2.isSome ∧ info.security = Security.tls
  | .mieru => info.mieru.isSome ∧ info.security = Security.none

variable {info : ProtocolInfo}

theorem Fits.exists_vAllss (h : info.Fits) (htype : info.type.IsV2ray) :
    ∃ v, info.vAllss = some v ∧ info.security = v.tls := by
  rcases htype with htype | htype | htype <;> simpa only [Fits, htype] using h

theorem Fits.exists_trojan (h : info.Fits) (htype : info.type = .trojan) :
    ∃ t, info.trojan = some t := by
  simp only [Fits, htype] at h
  exact Option.isSome_iff_exists.mp h.1

theorem Fits.exists_shadowsocks (h : info.Fits) (htype : info.type = .shadowsocks) :
    ∃ s, info.shadowsocks = some s := by
  simp only [Fits, htype] at h
  exact Option.isSome_iff_exists.mp h.1

/-- The pointers are not touched after the record has been read. -/
theorem Fits.of_header_eq (h : info.Fits) {node : NodeInfo}
    (hnode : node.header = info.toNodeInfo.header) :
    ({ info with toNodeInfo := node } : ProtocolInfo).Fits := by
  obtain ⟨-, htype, hsecurity, hmieru⟩ : node.id = info.id ∧ node.type = info.type ∧
      node.security = info.security ∧ node.mieru = info.mieru := by
    simpa only [NodeInfo.header, Prod.mk.injEq] using hnode
  simpa only [Fits, htype, hsecurity, hmieru] using h

/-- Only a vmess, vless or xhttp node can have Reality. -/
theorem Fits.isV2ray_of_reality (h : info.Fits) (hreality : info.security = Security.reality) :
    info.type.IsV2ray := by
  have hnone : Security.none ≠ Security.reality := by decide
  have htls : Security.tls ≠ Security.reality := by decide
  rcases htype : info.type
  case vmess | vless | xhttp => simp [NodeType.IsV2ray]
  all_goals
    simp only [Fits, htype, hreality, hnone.symm, htls.symm, and_false] at h

/-- A Reality node has the record of vmess, vless and xhttp nodes. -/
theorem Fits.vAllss_of_reality (h : info.Fits) (hreality : info.security = Security.reality) :
    ∃ v, info.vAllss = some v := by
  obtain ⟨v, hv, -⟩ := h.exists_vAllss (h.isV2ray_of_reality hreality)
  exact ⟨v, hv⟩

theorem fits_of_unmarshalProtocol {cd : ProtocolCodec} {c : Client} {body : Body} {cm : CommonNode}
    (h : c.unmarshalProtocol cd body = .ok (cm, info)) : info.Fits := by
  rcases htype : c.nodeType
  all_goals
    simp only [Client.unmarshalProtocol, htype] at h
    obtain ⟨rsp, -, rfl⟩ := readRecord_eq_ok h
  case vmess | vless | xhttp => exact ⟨_, rfl, (VAllssRecord.tls_takeBack _).symm⟩
  all_goals exact ⟨rfl, rfl⟩

/-- **A decoded node** has the record of its protocol and the security that goes with it. -/
theorem fits_of_decode {cd : ProtocolCodec} {c : Client} {body : Body}
    (h : c.decodeProtocolInfo cd body = .ok info) : info.Fits := by
  rw [Client.decodeProtocolInfo] at h
  rcases hrecord : c.unmarshalProtocol cd body with e | ⟨cm, info₀⟩
  · rw [hrecord] at h
    cases h
  · rw [hrecord] at h
    dsimp only at h
    rcases hnode : parseRoutes info₀.toNodeInfo 0 cm.routes >>= finishNode cm with k | node
    · rw [hnode] at h
      cases h
    · rw [hnode] at h
      obtain rfl := Except.ok.inj h
      exact (fits_of_unmarshalProtocol hrecord).of_header_eq (header_translation hnode)

end ProtocolInfo

/-! ### The texts of a few nodes -/

/-- The bytes of a text. -/
def bytesOf (text : String) : Body := text.toList.map fun c => UInt8.ofNat c.toNat

/-- A decoder that knows the texts of a table and refuses all others. -/
def readText {α : Type} (table : List (String × α)) (body : Body) : Except String α :=
  match table.find? fun entry => bytesOf entry.1 = body with
  | some entry => .ok entry.2
  | none => .error (if body = [] then "unexpected end of JSON input" else "invalid character")

theorem readText_self {α : Type} (text : String) (a : α) (table : List (String × α)) :
    readText ((text, a) :: table) (bytesOf text) = .ok a := by
  simp [readText]

theorem readText_nil {α : Type} (a : α) : readText [("", a)] [] = .ok a := rfl

/-- A codec that knows the texts of some nodes. -/
def textCodec (v : List (String × VAllssRecord)) (t : List (String × TrojanNode)) :
    ProtocolCodec where
  sha256 body := String.ofList (body.map fun b => Char.ofNat b.toNat)
  decodeMsgpack := readText []
  decodeJson := readText []
  unmarshalAlive := readText []
  unmarshalVAllss := readText v
  unmarshalShadowsocks := readText []
  unmarshalTrojan := readText t
  unmarshalTuic := readText []
  unmarshalAnyTls := readText []
  unmarshalHysteria := readText []
  unmarshalHysteria2 := readText []
  unmarshalMieru := readText []

/-- A client for a node of the given type. -/
def clientOf (type : NodeType) : Client where
  apiHost := ""
  nodeType := type
  nodeId := 1

/-- The text of a node with the given members next to its intervals. -/
def nodeText (members : String) : String :=
  "\x7b\"base_config\":\x7b\"push_interval\":60,\"pull_interval\":\"60\"\x7d," ++ members ++ "\x7d"

/-- The record of a node over tcp with the given network settings. -/
def tcpNode (networkSettings : Body) : VAllssRecord where
  baseConfig := some minutes
  network := "tcp"
  networkSettings := networkSettings

/-- A vless node is read from its text. -/
def vlessInfo (members : String) (v : VAllssRecord) : Except Failure ProtocolInfo :=
  (clientOf .vless).decodeProtocolInfo (textCodec [(nodeText members, v)] [])
    (bytesOf (nodeText members))

/-- The text of a trojan node. -/
def trojanText (port : ℤ) : String := nodeText ("\"server_port\":" ++ toString port)

/-- A trojan node on the given port is read from its text. -/
def trojanInfo (port : ℤ) : Except Failure ProtocolInfo :=
  (clientOf .trojan).decodeProtocolInfo
    (textCodec [] [(trojanText port, { baseConfig := some minutes, serverPort := port })])
    (bytesOf (trojanText port))

/-- What the client makes of a node does not depend on the text of its record. -/
theorem vlessInfo_eq (members : String) (v : VAllssRecord) : vlessInfo members v =
    (clientOf .vless).decodeProtocolInfo (textCodec [("", v)] []) [] := by
  simp only [vlessInfo, Client.decodeProtocolInfo, Client.unmarshalProtocol, clientOf, textCodec]
  rw [readText_self, readText_nil]

@[inherit_doc vlessInfo_eq]
theorem trojanInfo_eq (port : ℤ) : trojanInfo port = (clientOf .trojan).decodeProtocolInfo
    (textCodec [] [("", { baseConfig := some minutes, serverPort := port })]) [] := by
  simp only [trojanInfo, Client.decodeProtocolInfo, Client.unmarshalProtocol, clientOf, textCodec]
  rw [readText_self, readText_nil]

end Tox.Panel
