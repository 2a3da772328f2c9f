import Tox.Foundation.Outcome
import Tox.Conf.Options
import Tox.Panel.Protocols

/-!
# The inbound of a node in the xray core

`buildInbound` turns a node and its options into the configuration of an inbound, which is handed to
the builder of the library. A function for each protocol sets the protocol, its settings and the
stream settings. The common tail then sets the port, the address and the sniffing, and completes the
stream settings for the network and the security of the node; it dereferences the pointer to them
for every network.

`buildV2ray` returns before it has made stream settings when the panel has sent no network settings.
The tail then dereferences a nil pointer. There is no other way to a panic
(`panics_buildInbound_iff`).
-/

namespace Tox.Core.XrayInbound

open Tox.Foundation Tox.Panel Tox.Conf

/-! ### The configuration of the library -/

/-- `TCPConfig`. -/
structure TCPConfig where
  headerConfig : Body := []
  acceptProxyProtocol : Bool := false

/-- `WebSocketConfig`. -/
structure WebSocketConfig where
  host : String := ""
  path : String := ""
  headers : GoMap String String := ∅
  acceptProxyProtocol : Bool := false
  heartbeatPeriod : UInt32 := 0

/-- `SplitHTTPConfig`, with the members that are not used here as they are in the text. -/
structure SplitHTTPConfig where
  host : String := ""
  path : String := ""
  members : Body := []

/-- A record that is decoded and passed on, as it is in the text. -/
structure PassedOn where
  members : Body

/-- `SocketConfig`. -/
structure SocketConfig where
  acceptProxyProtocol : Bool
  tfo : Bool

/-- `TLSCertConfig`. -/
structure TLSCertConfig where
  certFile : String
  keyFile : String
  ocspStapling : ℕ

/-- `TLSConfig`. -/
structure TLSConfig where
  certs : List TLSCertConfig := []
  rejectUnknownSNI : Bool := false
  alpn : List String := []

/-- `REALITYConfig`. -/
structure REALITYConfig where
  dest : String
  xver : UInt64
  «show» : Bool
  serverNames : List String
  privateKey : String
  minClientVer : String
  maxClientVer : String
  maxTimeDiff : UInt64
  shortIds : List String
  mldsa65Seed : String

/-- `StreamConfig`. -/
structure StreamConfig where
  network : String
  security : String := ""
  tcpSettings : Option TCPConfig := none
  wsSettings : Option WebSocketConfig := none
  grpcSettings : Option PassedOn := none
  httpUpgradeSettings : Option PassedOn := none
  splitHTTPSettings : Option SplitHTTPConfig := none
  xhttpSettings : Option SplitHTTPConfig := none
  tlsSettings : Option TLSConfig := none
  realitySettings : Option REALITYConfig := none
  socketSettings : Option SocketConfig := none

/-- `SniffingConfig`. -/
structure SniffingConfig where
  enabled : Bool
  destOverride : List String

/-- `InboundDetourConfig`. The port is a range, from and to. -/
structure InboundDetourConfig where
  protocol : String := ""
  settings : Option Body := none
  portList : Option (ℕ × ℕ) := none
  listenOn : Option String := none
  sniffingConfig : Option SniffingConfig := none
  streamSetting : Option StreamConfig := none
  tag : String := ""

/-- `OutboundDetourConfig`. -/
structure OutboundDetourConfig where
  protocol : String
  tag : String
  sendThrough : Option String
  settings : Option Body

/-- `VLessInboundFallback` and `TrojanInboundFallback`. -/
structure InboundFallback where
  name : String
  alpn : String
  path : String
  dest : Body
  xver : UInt64

/-- The settings of a protocol, before they are encoded. -/
inductive Settings
  /-- `VLessInboundConfig`. -/
  | vless (decryption : String) (fallbacks : List InboundFallback)
  /-- `VMessInboundConfig`. -/
  | vmess
  /-- `TrojanServerConfig`. -/
  | trojan (fallbacks : List InboundFallback)
  /-- `ShadowsocksServerConfig`, with the cipher and the password of each user. -/
  | shadowsocks (cipher password : String) (users : List (String × String))
    (networkList : List String)
  /-- `FreedomConfig`. -/
  | freedom (domainStrategy : String)

/-- The functions of the libraries. A record that is decoded into a nil pointer stays nil if the
text is null. -/
structure XrayLibrary where
  parseAddress : String → String
  marshal : Settings → Except String Body
  marshalString : String → Except String Body
  unmarshalTCP : Body → Except String (Option TCPConfig)
  unmarshalWS : Body → Except String (Option WebSocketConfig)
  unmarshalGRPC : Body → Except String (Option PassedOn)
  unmarshalHTTPUpgrade : Body → Except String (Option PassedOn)
  unmarshalSplitHTTP : Body → Except String (Option SplitHTTPConfig)
  /-- The decoder of an object, its error being dropped. The map is nil if the text is null. -/
  unmarshalMap : Body → Option (List (String × Any))
  /-- The encoder of an object, its error being dropped. -/
  marshalMap : List (String × Any) → Body
  /-- The decoder into a record that exists, its error being dropped. -/
  fillSplitHTTP : Body → SplitHTTPConfig → SplitHTTPConfig
  hexEncode : List UInt8 → String
  base64Encode : String → String
  /-- The microseconds of a duration, the error of its parser being dropped. -/
  parseMicroseconds : String → UInt64

/-- What a function of the core ends with. -/
abbrev Result (α : Type) := Outcome String PanicKind α

/-- A pointer is dereferenced. -/
abbrev deref {α : Type} (p : Option α) : Result α := Outcome.deref .nilDereference p

/-! ### Fallbacks -/

section Build

variable (lib : XrayLibrary)

/-- One fallback. -/
def buildFallback (c : FallBackConfigForXray) : Result InboundFallback :=
  if c.dest = "" then Outcome.fail "dest is required for fallback fialed"
  else do
    let dest ← Outcome.orFail ("marshal dest  config fialed: " ++ ·) (lib.marshalString c.dest)
    return ⟨c.sni, c.alpn, c.path, dest, c.proxyProtocolVer⟩

/-- The fallbacks of a protocol. -/
def buildFallbacks (fallbackConfigs : Option (List FallBackConfigForXray)) :
    Result (List InboundFallback) :=
  match fallbackConfigs with
  | none => Outcome.fail "you must provide FallBackConfigs"
  | some configs => configs.mapM (buildFallback lib)

/-- `buildVlessFallbacks`. -/
def buildVlessFallbacks (fallbackConfigs : Option (List FallBackConfigForXray)) :
    Result (List InboundFallback) := buildFallbacks lib fallbackConfigs

/-- `buildTrojanFallbacks`. -/
def buildTrojanFallbacks (fallbackConfigs : Option (List FallBackConfigForXray)) :
    Result (List InboundFallback) := buildFallbacks lib fallbackConfigs

/-! ### vmess, vless and xhttp -/

/-- The decryption of a vless node. -/
def decryption (v : VAllssRecord) : Result String :=
  if v.encryption = "" then return "none"
  else if v.encryption = "mlkem768x25519plus" then
    let enc := v.encryptionSettings
    let parts := ["mlkem768x25519plus", enc.mode, enc.ticket]
    let parts := if enc.serverPadding ≠ "" then parts ++ [enc.serverPadding] else parts
    return ".".intercalate (parts ++ [enc.privateKey])
  else Outcome.fail ("vless decryption method " ++ v.encryption ++ " is not support")

/-- The first half of `buildV2ray`: the protocol and its settings. -/
def v2raySettings (config : Options) (info : ProtocolInfo) (inbound : InboundDetourConfig) :
    Result InboundDetourConfig :=
  if info.type = .vless ∨ info.type = .xhttp then do
    let x ← deref config.xrayOptions
    if x.enableFallback ∧ info.security ≠ Security.reality then
      let fallbacks ← buildVlessFallbacks lib x.fallBackConfigs
      let s ← Outcome.orFail ("marshal vless fallback config error: " ++ ·)
        (lib.marshal (.vless "none" fallbacks))
      return { inbound with protocol := "vless", settings := some s }
    else
      let v ← deref info.vAllss
      let decryption ← decryption v
      let s ← Outcome.orFail ("marshal vless config error: " ++ ·)
        (lib.marshal (.vless decryption []))
      return { inbound with protocol := "vless", settings := some s }
  else do
    let s ← Outcome.orFail ("marshal vmess settings error: " ++ ·) (lib.marshal .vmess)
    return { inbound with protocol := "vmess", settings := some s }

/-- The settings of the xhttp network: the text is decoded and encoded again. -/
def xhttpSettings (stream : StreamConfig) (networkSettings : Body) : SplitHTTPConfig :=
  let xhttp := stream.xhttpSettings.getD {}
  let settings :=
    if networkSettings.length > 0 then (lib.unmarshalMap networkSettings).getD [] else []
  let xhttp := lib.fillSplitHTTP (lib.marshalMap settings) xhttp
  match stream.splitHTTPSettings with
  | some split =>
    if xhttp.host = "" then { xhttp with host := split.host, path := split.path } else xhttp
  | none => xhttp

/-- The network settings are decoded and taken over. -/
def decodeSettings {α : Type} (network : String) (decoded : Except String α)
    (take : α → StreamConfig) : Result StreamConfig := do
  let settings ← Outcome.orFail (("unmarshal " ++ network ++ " settings error: ") ++ ·) decoded
  return take settings

/-- The second half of `buildV2ray`: the stream settings of the network. -/
def v2rayStream (v : VAllssRecord) : Result StreamConfig :=
  let stream : StreamConfig := { network := v.network }
  match v.network with
  | "tcp" => decodeSettings "tcp" (lib.unmarshalTCP v.networkSettings) fun tcp =>
      { stream with tcpSettings := tcp }
  | "ws" => decodeSettings "ws" (lib.unmarshalWS v.networkSettings) fun ws =>
      { stream with
        wsSettings := ws.map fun ws =>
          { ws with headers := (ws.headers.erase "Host").erase "host" } }
  | "grpc" => decodeSettings "grpc" (lib.unmarshalGRPC v.networkSettings) fun grpc =>
      { stream with grpcSettings := grpc }
  | "httpupgrade" =>
    decodeSettings "httpupgrade" (lib.unmarshalHTTPUpgrade v.networkSettings) fun upgrade =>
      { stream with httpUpgradeSettings := upgrade }
  | "splithttp" =>
    decodeSettings "splithttp" (lib.unmarshalSplitHTTP v.networkSettings) fun split =>
      { stream with splitHTTPSettings := split }
  | "xhttp" =>
    return { stream with xhttpSettings := some (xhttpSettings lib stream v.networkSettings) }
  | _ => Outcome.fail "the network type is not vail"

/-- `buildV2ray`. Without network settings it returns with the stream settings still nil. -/
def buildV2ray (config : Options) (info : ProtocolInfo) (inbound : InboundDetourConfig) :
    Result InboundDetourConfig := do
  let inbound ← v2raySettings lib config info inbound
  let v ← deref info.vAllss
  if v.networkSettings.length = 0 then return inbound
  else
    let stream ← v2rayStream lib v
    return { inbound with streamSetting := some stream }

/-! ### trojan and shadowsocks -/

/-- The settings of a trojan node. -/
def trojanSettings (config : Options) : Result Body := do
  let x ← deref config.xrayOptions
  if x.enableFallback then
    let fallbacks ← buildTrojanFallbacks lib x.fallBackConfigs
    Outcome.orFail ("marshal trojan fallback config error: " ++ ·) (lib.marshal (.trojan fallbacks))
  else return [0x7b, 0x7d]

/-- The network of a trojan node. -/
def trojanNetwork (v : TrojanNode) : String := if v.network = "" then "tcp" else v.network

/-- The stream settings of a trojan node. -/
def trojanStream (v : TrojanNode) : Result StreamConfig :=
  let stream : StreamConfig := { network := trojanNetwork v }
  match trojanNetwork v with
  | "tcp" => decodeSettings "tcp" (lib.unmarshalTCP v.networkSettings) fun tcp =>
      { stream with tcpSettings := tcp }
  | "ws" => decodeSettings "ws" (lib.unmarshalWS v.networkSettings) fun ws =>
      { stream with wsSettings := ws }
  | "grpc" => decodeSettings "grpc" (lib.unmarshalGRPC v.networkSettings) fun grpc =>
      { stream with grpcSettings := grpc }
  | _ => Outcome.fail "the network type is not vail"

/-- `buildTrojan`. -/
def buildTrojan (config : Options) (info : ProtocolInfo) (inbound : InboundDetourConfig) :
    Result InboundDetourConfig := do
  let settings ← trojanSettings lib config
  let v ← deref info.trojan
  let stream ← trojanStream lib v
  return { inbound with
    protocol := "trojan", settings := some settings, streamSetting := some stream }

/-- `buildShadowsocks`; `random` is what the random source gives. -/
def buildShadowsocks (random : Except String (List UInt8)) (info : ProtocolInfo)
    (inbound : InboundDetourConfig) : Result InboundDetourConfig := do
  let s ← deref info.shadowsocks
  let p ← Outcome.orFail ("generate random password error: " ++ ·) random
  let randomPasswd := lib.hexEncode p
  let (password, randomPasswd, cipher) :=
    if s.serverKey ≠ "" then (s.serverKey, lib.base64Encode randomPasswd, "")
    else ("", randomPasswd, s.cipher)
  let sets ← Outcome.orFail ("marshal shadowsocks settings error: " ++ ·)
    (lib.marshal (.shadowsocks s.cipher password [(cipher, randomPasswd)] ["tcp", "udp"]))
  return { inbound with
    protocol := "shadowsocks"
    settings := some sets
    streamSetting := some { network := "tcp" } }

/-! ### The common tail -/

/-- The stream settings completed for the network. -/
def setNetwork (x : XrayOptions) (network : String) (stream : StreamConfig) : StreamConfig :=
  match network with
  | "tcp" =>
    let tcp := stream.tcpSettings.getD {}
    { stream with tcpSettings := some { tcp with acceptProxyProtocol := x.enableProxyProtocol } }
  | "ws" =>
    let ws := stream.wsSettings.getD {}
    { stream with wsSettings := some { ws with acceptProxyProtocol := x.enableProxyProtocol } }
  | _ => { stream with socketSettings := some ⟨x.enableProxyProtocol, x.enableTFO⟩ }

/-- The stream settings with the certificate of the node. -/
def setTls (option : Options) (stream : StreamConfig) : Result StreamConfig :=
  match option.certConfig with
  | none => Outcome.fail "the CertConfig is not vail"
  | some cert =>
    match cert.certMode with
    | "none" | "" => return stream
    | _ => return { stream with
        security := "tls"
        tlsSettings := some
          { certs := [⟨cert.certFile, cert.keyFile, 3600⟩]
            rejectUnknownSNI := cert.rejectUnknownSni } }

/-- The stream settings for Reality. -/
def setReality (v : VAllssRecord) (stream : StreamConfig) : StreamConfig :=
  let tls := v.tlsSettings
  let dest := if tls.dest = "" then tls.serverName else tls.dest
  let serverPort := if tls.serverPort = "" then "443" else tls.serverPort
  { stream with
    security := "reality"
    tlsSettings := some { alpn := ["h2", "http/1.1"] }
    realitySettings := some
      { dest := "\"" ++ dest ++ ":" ++ serverPort ++ "\""
        xver := if tls.xver = 0 then v.realityConfig.xver else tls.xver
        «show» := false
        serverNames := [tls.serverName]
        privateKey := tls.privateKey
        minClientVer := v.realityConfig.minClientVer
        maxClientVer := v.realityConfig.maxClientVer
        maxTimeDiff := lib.parseMicroseconds v.realityConfig.maxTimeDiff
        shortIds := [tls.shortId]
        mldsa65Seed := tls.mldsa65Seed } }

/-- The stream settings completed for the security. -/
def setSecurity (option : Options) (info : ProtocolInfo) (stream : StreamConfig) :
    Result StreamConfig :=
  if info.security = Security.tls then setTls option stream
  else if info.security = Security.reality then do
    let v ← deref info.vAllss
    return setReality lib v stream
  else return stream

/-- The conversion to `uint32`. -/
def toUint32 (n : ℤ) : ℕ := (n % 2 ^ 32).toNat

/-- The configuration with everything that does not depend on the protocol. -/
def complete (option : Options) (info : ProtocolInfo) (tag : String) (x : XrayOptions)
    (stream : StreamConfig) (inbound : InboundDetourConfig) : InboundDetourConfig :=
  let port := toUint32 info.common.serverPort
  { inbound with
    portList := some (port, port)
    listenOn := some (lib.parseAddress option.listenIP)
    sniffingConfig := some ⟨!x.disableSniffing, ["http", "tls"]⟩
    streamSetting := some stream
    tag := tag }

/-- The end of `buildInbound`, up to the call of `Build`. -/
def finishInbound (option : Options) (info : ProtocolInfo) (tag network : String)
    (inbound : InboundDetourConfig) : Result InboundDetourConfig := do
  let x ← deref option.xrayOptions
  let stream ← deref inbound.streamSetting
  let stream ← setSecurity lib option info (setNetwork x network stream)
  return complete lib option info tag x stream inbound

/-- `buildInbound`, up to the call of `Build`: the configuration that is built. The network of the
record is read before the error of the function for the protocol is looked at. -/
def buildInbound (random : Except String (List UInt8)) (option : Options) (info : ProtocolInfo)
    (tag : String) : Result InboundDetourConfig :=
  match info.type with
  | .vmess | .vless | .xhttp => do
    let (inbound, v) ← Outcome.thenDeref .nilDereference (buildV2ray lib option info {}) info.vAllss
    finishInbound lib option info tag v.network inbound
  | .trojan => do
    let (inbound, v) ←
      Outcome.thenDeref .nilDereference (buildTrojan lib option info {}) info.trojan
    finishInbound lib option info tag (trojanNetwork v) inbound
  | .shadowsocks => do
    let inbound ← buildShadowsocks lib random info {}
    finishInbound lib option info tag "tcp" inbound
  | type => Outcome.fail
    ("unsupported node type: " ++ type.name ++ ", Only support: V2ray, Trojan, Shadowsocks")

/-! ### The outbound -/

/-- `buildOutbound`, up to the call of `Build`. -/
def buildOutbound (config : Options) (tag : String) : Result OutboundDetourConfig := do
  let x ← deref config.xrayOptions
  let domainStrategy :=
    if x.enableDNS then if x.dnsType ≠ "" then x.dnsType else "UseIP" else "Asis"
  let setting ← Outcome.orFail ("marshal proxy config error: " ++ ·)
    (lib.marshal (.freedom domainStrategy))
  return ⟨"freedom", tag, if config.sendIP ≠ "" then some config.sendIP else none, some setting⟩

end Build

/-! ### The functions for the protocols -/

section Protocols

open Outcome

variable {lib : XrayLibrary} {random : Except String (List UInt8)} {option : Options}
  {info : ProtocolInfo} {tag network : String} {inbound inbound' : InboundDetourConfig}
  {x : XrayOptions}

theorem not_panics_buildFallbacks (fallbackConfigs : Option (List FallBackConfigForXray)) :
    ¬ Panics (buildFallbacks lib fallbackConfigs) := by
  rcases fallbackConfigs with _ | configs
  · exact not_panics_fail
  · refine not_panics_mapM (fun c => ?_) configs
    rw [buildFallback]
    split_ifs
    · exact not_panics_fail
    · exact not_panics_bind not_panics_orFail fun _ => not_panics_pure

theorem not_panics_decryption (v : VAllssRecord) : ¬ Panics (decryption v) := by
  rw [decryption]
  split_ifs
  · exact not_panics_pure
  · exact not_panics_pure
  · exact not_panics_fail

theorem not_panics_v2raySettings (hx : option.xrayOptions = some x) {v : VAllssRecord}
    (hv : info.vAllss = some v) : ¬ Panics (v2raySettings lib option info inbound) := by
  rw [v2raySettings, hx, hv]
  split_ifs
  · refine not_panics_bind (by simp) fun x => ?_
    split_ifs
    · exact not_panics_bind (not_panics_buildFallbacks _) fun _ =>
        not_panics_bind not_panics_orFail fun _ => not_panics_pure
    · exact not_panics_bind (by simp) fun v => not_panics_bind (not_panics_decryption v) fun _ =>
        not_panics_bind not_panics_orFail fun _ => not_panics_pure
  · exact not_panics_bind not_panics_orFail fun _ => not_panics_pure

theorem not_panics_decodeSettings {α : Type} {decoded : Except String α}
    {take : α → StreamConfig} : ¬ Panics (decodeSettings network decoded take) :=
  not_panics_bind not_panics_orFail fun _ => not_panics_pure

theorem not_panics_v2rayStream (v : VAllssRecord) : ¬ Panics (v2rayStream lib v) := by
  rw [v2rayStream]
  dsimp only
  split <;>
    first
      | exact not_panics_decodeSettings
      | exact not_panics_pure
      | exact not_panics_fail

/-- The first half of `buildV2ray` leaves the stream settings alone. -/
theorem streamSetting_v2raySettings (h : v2raySettings lib option info inbound = .ok inbound') :
    inbound'.streamSetting = inbound.streamSetting := by
  rw [v2raySettings] at h
  split_ifs at h
  · obtain ⟨x, -, h⟩ := bind_eq_ok_iff.mp h
    split_ifs at h
    · obtain ⟨fallbacks, -, h⟩ := bind_eq_ok_iff.mp h
      obtain ⟨s, -, h⟩ := bind_eq_ok_iff.mp h
      exact pure_eq_ok_iff.mp h ▸ rfl
    · obtain ⟨v, -, h⟩ := bind_eq_ok_iff.mp h
      obtain ⟨decryption, -, h⟩ := bind_eq_ok_iff.mp h
      obtain ⟨s, -, h⟩ := bind_eq_ok_iff.mp h
      exact pure_eq_ok_iff.mp h ▸ rfl
  · obtain ⟨s, -, h⟩ := bind_eq_ok_iff.mp h
    exact pure_eq_ok_iff.mp h ▸ rfl

theorem not_panics_buildV2ray (hx : option.xrayOptions = some x) {v : VAllssRecord}
    (hv : info.vAllss = some v) : ¬ Panics (buildV2ray lib option info inbound) := by
  refine not_panics_bind (not_panics_v2raySettings hx hv) fun _ =>
    not_panics_bind (by simp [hv]) fun v => ?_
  split_ifs
  · exact not_panics_pure
  · exact not_panics_bind (not_panics_v2rayStream v) fun _ => not_panics_pure

/-- `buildV2ray` returns without stream settings if and only if the first half succeeds and there
are no network settings. -/
theorem exists_buildV2ray_iff {v : VAllssRecord} (hv : info.vAllss = some v) :
    (∃ inbound, buildV2ray lib option info {} = .ok inbound ∧ inbound.streamSetting = none) ↔
      v.networkSettings = [] ∧ ∃ inbound, v2raySettings lib option info {} = .ok inbound := by
  have hbuild : buildV2ray lib option info {} = (do
      let inbound ← v2raySettings lib option info {}
      if v.networkSettings.length = 0 then return inbound
      else
        let stream ← v2rayStream lib v
        return { inbound with streamSetting := some stream }) := by
    rw [buildV2ray, hv]
    rfl
  rw [hbuild]
  constructor
  · rintro ⟨inbound, h, hnone⟩
    obtain ⟨inbound₁, hsettings, h⟩ := bind_eq_ok_iff.mp h
    split_ifs at h with hlen
    · exact ⟨List.length_eq_zero_iff.mp hlen, inbound₁, hsettings⟩
    · obtain ⟨stream, -, h⟩ := bind_eq_ok_iff.mp h
      rw [← pure_eq_ok_iff.mp h] at hnone
      cases hnone
  · rintro ⟨hnil, inbound, hsettings⟩
    refine ⟨inbound, bind_eq_ok_iff.mpr ⟨inbound, hsettings, ?_⟩,
      streamSetting_v2raySettings hsettings⟩
    rw [if_pos (List.length_eq_zero_iff.mpr hnil)]
    rfl

theorem not_panics_buildTrojan (hx : option.xrayOptions = some x) {t : TrojanNode}
    (ht : info.trojan = some t) : ¬ Panics (buildTrojan lib option info inbound) := by
  refine not_panics_bind ?_ fun _ => not_panics_bind ?_ fun v =>
    not_panics_bind ?_ fun _ => not_panics_pure
  · rw [trojanSettings, hx]
    refine not_panics_bind (by simp) fun x => ?_
    split_ifs
    · exact not_panics_bind (not_panics_buildFallbacks _) fun _ => not_panics_orFail
    · exact not_panics_pure
  · rw [ht]
    exact not_panics_ok
  · rw [trojanStream]
    dsimp only
    split <;>
      first
        | exact not_panics_decodeSettings
        | exact not_panics_fail

theorem streamSetting_buildTrojan (h : buildTrojan lib option info inbound = .ok inbound') :
    inbound'.streamSetting ≠ none := by
  obtain ⟨settings, -, h⟩ := bind_eq_ok_iff.mp h
  obtain ⟨v, -, h⟩ := bind_eq_ok_iff.mp h
  obtain ⟨stream, -, h⟩ := bind_eq_ok_iff.mp h
  rw [← pure_eq_ok_iff.mp h]
  exact nofun

theorem not_panics_buildShadowsocks {s : ShadowsocksNode} (hs : info.shadowsocks = some s) :
    ¬ Panics (buildShadowsocks lib random info inbound) := by
  refine not_panics_bind ?_ fun s => not_panics_bind not_panics_orFail fun p =>
    not_panics_bind not_panics_orFail fun _ => not_panics_pure
  rw [hs]
  exact not_panics_ok

theorem streamSetting_buildShadowsocks
    (h : buildShadowsocks lib random info inbound = .ok inbound') :
    inbound'.streamSetting ≠ none := by
  obtain ⟨s, -, h⟩ := bind_eq_ok_iff.mp h
  obtain ⟨p, -, h⟩ := bind_eq_ok_iff.mp h
  obtain ⟨sets, -, h⟩ := bind_eq_ok_iff.mp h
  rw [← pure_eq_ok_iff.mp h]
  exact nofun

end Protocols

/-! ### The whole function -/

section Whole

open Outcome

variable {lib : XrayLibrary} {random : Except String (List UInt8)} {option : Options}
  {info : ProtocolInfo} {tag network : String} {inbound : InboundDetourConfig} {x : XrayOptions}

theorem not_panics_setSecurity (hinfo : info.Fits) (stream : StreamConfig) :
    ¬ Panics (setSecurity lib option info stream) := by
  rw [setSecurity]
  split_ifs with htls hreality
  · rw [setTls]
    split
    · exact not_panics_fail
    · split <;> exact not_panics_pure
  · refine not_panics_bind ?_ fun _ => not_panics_pure
    obtain ⟨v, hv⟩ := hinfo.vAllss_of_reality hreality
    rw [hv]
    exact not_panics_ok
  · exact not_panics_pure

/-- The tail panics if and only if the stream settings are nil. -/
theorem panics_finishInbound_iff (hinfo : info.Fits) (hx : option.xrayOptions = some x) :
    Panics (finishInbound lib option info tag network inbound) ↔ inbound.streamSetting = none := by
  have htail : finishInbound lib option info tag network inbound =
      deref inbound.streamSetting >>= fun stream => do
        let stream ← setSecurity lib option info (setNetwork x network stream)
        return complete lib option info tag x stream inbound := by
    rw [finishInbound, hx]
    rfl
  rw [htail, panics_bind_iff_left fun stream =>
    not_panics_bind (not_panics_setSecurity hinfo _) fun _ => not_panics_pure, panics_deref_iff]

/-- After a function that does not panic and leaves stream settings, the tail does not panic. -/
theorem not_panics_bind_finishInbound (hinfo : info.Fits) (hx : option.xrayOptions = some x)
    {build : Result InboundDetourConfig} (hbuild : ¬ Panics build)
    (hstream : ∀ inbound, build = .ok inbound → inbound.streamSetting ≠ none) :
    ¬ Panics (build >>= finishInbound lib option info tag network) := by
  rw [panics_bind_iff, not_or, not_exists]
  refine ⟨hbuild, fun inbound h => ?_⟩
  exact hstream inbound h.1 ((panics_finishInbound_iff hinfo hx).mp h.2)

/-- A vmess, vless or xhttp node panics if and only if it has no network settings and its protocol
settings are made. -/
theorem panics_buildInbound_v2ray_iff (hinfo : info.Fits) (hx : option.xrayOptions = some x)
    (htype : info.type.IsV2ray) {v : VAllssRecord} (hv : info.vAllss = some v) :
    Panics (buildInbound lib random option info tag) ↔
      v.networkSettings = [] ∧ ∃ inbound, v2raySettings lib option info {} = .ok inbound := by
  have hbuild : buildInbound lib random option info tag =
      buildV2ray lib option info {} >>= finishInbound lib option info tag v.network := by
    rcases htype with htype | htype | htype <;>
      rw [buildInbound, htype, hv] <;> exact thenDeref_some_bind _
  rw [hbuild, panics_bind_iff, or_iff_right (not_panics_buildV2ray hx hv),
    ← exists_buildV2ray_iff hv]
  exact exists_congr fun inbound => and_congr_right fun _ => panics_finishInbound_iff hinfo hx

/-- The other nodes do not panic. -/
theorem not_panics_buildInbound (hinfo : info.Fits) (hx : option.xrayOptions = some x)
    (htype : ¬ info.type.IsV2ray) : ¬ Panics (buildInbound lib random option info tag) := by
  rcases hcase : info.type
  case vmess | vless | xhttp => exact absurd (by simp [NodeType.IsV2ray, hcase]) htype
  case trojan =>
    obtain ⟨t, ht⟩ := hinfo.exists_trojan hcase
    have hbuild : buildInbound lib random option info tag =
        buildTrojan lib option info {} >>= finishInbound lib option info tag (trojanNetwork t) := by
      rw [buildInbound, hcase, ht]
      exact thenDeref_some_bind _
    rw [hbuild]
    exact not_panics_bind_finishInbound hinfo hx (not_panics_buildTrojan hx ht)
      fun _ => streamSetting_buildTrojan
  case shadowsocks =>
    obtain ⟨s, hs⟩ := hinfo.exists_shadowsocks hcase
    have hbuild : buildInbound lib random option info tag =
        buildShadowsocks lib random info {} >>= finishInbound lib option info tag "tcp" := by
      rw [buildInbound, hcase]
    rw [hbuild]
    exact not_panics_bind_finishInbound hinfo hx (not_panics_buildShadowsocks hs)
      fun _ => streamSetting_buildShadowsocks
  all_goals
    rw [buildInbound, hcase]
    exact not_panics_fail

/-- A call that comes to `Build` has dereferenced the xray options. -/
theorem xrayOptions_ne_none_of_buildInbound
    (h : buildInbound lib random option info tag = .ok inbound) : option.xrayOptions ≠ none := by
  have hfinish : ∀ {network inbound₁}, finishInbound lib option info tag network inbound₁ =
      .ok inbound → option.xrayOptions ≠ none := by
    intro network inbound₁ h
    obtain ⟨x, hx, -⟩ := bind_eq_ok_iff.mp h
    rw [deref_eq_ok_iff.mp hx]
    exact nofun
  rcases hcase : info.type
  all_goals rw [buildInbound, hcase] at h
  case vmess | vless | xhttp | trojan | shadowsocks =>
    obtain ⟨p, -, h⟩ := bind_eq_ok_iff.mp h
    exact hfinish h
  all_goals cases h

/-- The outbound panics if and only if the xray options are nil. -/
theorem panics_buildOutbound_iff :
    Panics (buildOutbound lib option tag) ↔ option.xrayOptions = none := by
  rw [buildOutbound, panics_bind_iff_left fun x =>
    not_panics_bind not_panics_orFail fun _ => not_panics_pure, panics_deref_iff]

end Whole

/-- **Panics in the xray core.** Let a node be decoded from a response of the panel and have xray
options. Building its inbound panics if and only if it is a vmess, vless or xhttp node for which the
panel has sent no network settings and whose protocol settings are made without an error. -/
theorem panics_buildInbound_iff {cd : ProtocolCodec} {c : Client} {body : Body}
    {info : ProtocolInfo} (hinfo : c.decodeProtocolInfo cd body = .ok info) {option : Options}
    {x : XrayOptions} (hx : option.xrayOptions = some x) (lib : XrayLibrary)
    (random : Except String (List UInt8)) (tag : String) :
    Outcome.Panics (buildInbound lib random option info tag) ↔
      info.type.IsV2ray ∧ ∃ v, info.vAllss = some v ∧ v.networkSettings = [] ∧
        ∃ inbound, v2raySettings lib option info {} = .ok inbound := by
  have hfits := ProtocolInfo.fits_of_decode hinfo
  by_cases htype : info.type.IsV2ray
  · obtain ⟨v, hv, -⟩ := hfits.exists_vAllss htype
    rw [panics_buildInbound_v2ray_iff hfits hx htype hv, and_iff_right htype]
    exact ⟨fun h => ⟨v, hv, h⟩, fun ⟨v', hv', h⟩ => Option.some.inj (hv.symm.trans hv') ▸ h⟩
  · exact iff_of_false (not_panics_buildInbound hfits hx htype) fun h => htype h.1

/-- A library that knows the texts of nil and of a record without members. -/
def plainLibrary : XrayLibrary where
  parseAddress := id
  marshal _ := .ok (bytesOf "\x7b\x7d")
  marshalString s := .ok (bytesOf ("\"" ++ s ++ "\""))
  unmarshalTCP := readText [("null", none), ("\x7b\x7d", some {})]
  unmarshalWS := readText [("null", none), ("\x7b\x7d", some {})]
  unmarshalGRPC := readText [("null", none), ("\x7b\x7d", some ⟨bytesOf "\x7b\x7d"⟩)]
  unmarshalHTTPUpgrade := readText [("null", none), ("\x7b\x7d", some ⟨bytesOf "\x7b\x7d"⟩)]
  unmarshalSplitHTTP := readText [("null", none), ("\x7b\x7d", some {})]
  unmarshalMap body := if body = bytesOf "\x7b\x7d" then some [] else none
  marshalMap _ := bytesOf "\x7b\x7d"
  fillSplitHTTP _ c := c
  hexEncode bytes := String.ofList
    (bytes.flatMap fun b => [Nat.digitChar (b.toNat / 16), Nat.digitChar (b.toNat % 16)])
  base64Encode := id
  parseMicroseconds _ := 0

/-- A vless node over tcp whose network settings are the text `null` does not panic. -/
theorem panics_buildInbound_iff_null :
    ∃ info : ProtocolInfo,
      vlessInfo "\"network\":\"tcp\",\"networkSettings\":null" (tcpNode (bytesOf "null")) =
        .ok info ∧
      ¬ Outcome.Panics (buildInbound plainLibrary (.ok []) { xrayOptions := some newXrayOptions }
        info "node") := by
  obtain ⟨info, hinfo⟩ : ∃ info, vlessInfo "\"network\":\"tcp\",\"networkSettings\":null"
      (tcpNode (bytesOf "null")) = .ok info := ⟨_, vlessInfo_eq _ _⟩
  refine ⟨info, hinfo, fun h => ?_⟩
  obtain ⟨-, v, hv, hnil, -⟩ := (panics_buildInbound_iff hinfo rfl _ _ _).mp h
  rw [vlessInfo_eq] at hinfo
  cases hinfo
  cases hv
  cases hnil

/-- **No network settings.** The panel sends a vless node without network settings, and the core
dereferences a nil pointer. -/
theorem buildInbound_panics :
    ∃ info : ProtocolInfo,
      vlessInfo "\"network\":\"tcp\"" (tcpNode []) = .ok info ∧
      buildInbound plainLibrary (.ok []) { xrayOptions := some newXrayOptions } info "node" =
        .error (.panic .nilDereference) := by
  rw [vlessInfo_eq]
  exact ⟨_, rfl, rfl⟩

end Tox.Core.XrayInbound
