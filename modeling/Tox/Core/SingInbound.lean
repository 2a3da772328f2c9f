import Tox.Foundation.Outcome
import Tox.Conf.Options
import Tox.Panel.Atoi
import Tox.Panel.Protocols

/-!
# The inbound of a node in the sing core

`getInboundOptions` turns a node and its options into the description of an inbound. The options for
sing may be nil, and most of the function looks at the pointer first. The network settings are
decoded into a record for each transport.

Two steps are not guarded. The request of an http header is decoded, and the first of its paths is
taken, of which there may be none. And the fallbacks of a trojan node are read through the pointer
to the options. The function panics there and nowhere else (`panics_getInboundOptions_iff`).
-/

namespace Tox.Core.SingInbound

open Tox.Foundation Tox.Panel Tox.Conf

/-! ### The description of an inbound -/

/-- `ListenOptions`. -/
structure ListenOptions where
  listen : String
  listenPort : UInt16
  tcpFastOpen : Bool

/-- `InboundMultiplexOptions`. -/
structure InboundMultiplexOptions where
  enabled : Bool
  padding : Bool
  brutal : Option BrutalOptions

/-- `ServerOptions`. -/
structure ServerOptions where
  server : String
  serverPort : UInt16
deriving DecidableEq, Repr

/-- `InboundRealityOptions`. -/
structure InboundRealityOptions where
  enabled : Bool
  shortID : List String
  privateKey : String
  xver : UInt8
  handshake : ServerOptions
  maxTimeDifference : ℤ

/-- `InboundTLSOptions`. -/
structure InboundTLSOptions where
  enabled : Bool := false
  serverName : String := ""
  alpn : List String := []
  certificatePath : String := ""
  keyPath : String := ""
  reality : Option InboundRealityOptions := none

/-- `V2RayHTTPOptions`. -/
structure V2RayHTTPOptions where
  host : List String := []
  path : String := ""
  method : String := ""

/-- `V2RayWebsocketOptions`. -/
structure V2RayWebsocketOptions where
  path : String := ""
  earlyDataHeaderName : String := ""
  maxEarlyData : UInt32 := 0
  headers : GoMap String (List String) := ∅

/-- `V2RayGRPCOptions`. -/
structure V2RayGRPCOptions where
  serviceName : String := ""
  headers : GoMap String (List String) := ∅
  obfuscated : Bool := false

/-- `V2RayHTTPUpgradeOptions`. -/
structure V2RayHTTPUpgradeOptions where
  path : String := ""
  host : String := ""

/-- `V2RayTransportOptions`. -/
structure V2RayTransportOptions where
  type : String
  httpOptions : V2RayHTTPOptions := {}
  websocketOptions : V2RayWebsocketOptions := {}
  grpcOptions : V2RayGRPCOptions := {}
  httpUpgradeOptions : V2RayHTTPUpgradeOptions := {}

/-- The options of a protocol, besides those for listening and TLS. -/
inductive ProtocolOptions
  | vless (transport : V2RayTransportOptions) (multiplex : Option InboundMultiplexOptions)
    (flow : String) (fallback : Option ServerOptions)
  | vmess (transport : V2RayTransportOptions) (multiplex : Option InboundMultiplexOptions)
  | shadowsocks (method password : String) (users : List String)
    (multiplex : Option InboundMultiplexOptions)
  | trojan (transport : V2RayTransportOptions) (multiplex : Option InboundMultiplexOptions)
    (fallback : Option ServerOptions) (fallbackForALPN : GoMap String ServerOptions)
  | tuic (congestionControl : String) (zeroRTTHandshake : Bool)
  | anytls (paddingScheme : List String)
  | hysteria (upMbps downMbps : ℤ) (obfs : String)
  /-- The obfuscation is a type and a password. -/
  | hysteria2 (upMbps downMbps : ℤ) (ignoreClientBandwidth : Bool)
    (obfs : Option (String × String))

/-- `option.Inbound`. Shadowsocks has no TLS. -/
structure Inbound where
  tag : String
  type : String
  listen : ListenOptions
  tls : Option InboundTLSOptions
  options : ProtocolOptions

/-! ### The network settings -/

/-- `HttpNetworkConfig`. -/
structure HttpNetworkConfig where
  type : String := ""
  request : Option Body := none

/-- `HttpRequest`. -/
structure HttpRequest where
  method : String := ""
  path : List String := []
  host : List String := []

/-- `WsNetworkConfig`. -/
structure WsNetworkConfig where
  path : String := ""
  headers : GoMap String String := ∅

/-- `GrpcNetworkConfig`. -/
structure GrpcNetworkConfig where
  serviceName : String := ""
  headers : GoMap String String := ∅
  obfuscated : Bool := false

/-- `HttpupgradeNetworkConfig`. -/
structure HttpupgradeNetworkConfig where
  path : String := ""
  host : String := ""

/-- The functions of the libraries. -/
structure SingLibrary where
  parseAddr : String → Except String String
  unmarshalHttp : Body → Except String HttpNetworkConfig
  unmarshalRequest : Body → Except String HttpRequest
  unmarshalWs : Body → Except String WsNetworkConfig
  unmarshalGrpc : Body → Except String GrpcNetworkConfig
  unmarshalHttpupgrade : Body → Except String HttpupgradeNetworkConfig
  /-- The path of a URL, and the value `ed` of its query. -/
  parseURL : String → Except String (String × String)
  /-- A duration, the error of its parser being dropped. -/
  parseDuration : String → ℤ
  /-- Random bytes, the error being dropped. -/
  random : ℕ → List UInt8
  string : List UInt8 → String
  base64Encode : List UInt8 → String

/-- What a function of the core ends with. -/
abbrev Result (α : Type) := Outcome String PanicKind α

/-- A pointer is dereferenced. -/
abbrev deref {α : Type} (p : Option α) : Result α := Outcome.deref .nilDereference p

/-- Network settings that are there are decoded. -/
def decodeNetwork {α : Type} (unmarshal : Body → Except String α) (zero : α) (settings : Body) :
    Result α :=
  if settings.length ≠ 0 then
    Outcome.orFail ("decode NetworkSettings error: " ++ ·) (unmarshal settings)
  else return zero

section Build

variable (lib : SingLibrary) (range : RangeOrder String)

/-- Headers with the one value that each of them has. -/
def listable (headers : GoMap String String) : GoMap String (List String) :=
  GoMap.storeAll id (fun k => [headers.getD k ""]) (range.keys headers) ∅

/-- The websocket transport. -/
def wsTransport (settings : Body) (t : V2RayTransportOptions) : Result V2RayTransportOptions :=
  if settings.length ≠ 0 then do
    let network ← Outcome.orFail ("decode NetworkSettings error: " ++ ·) (lib.unmarshalWs settings)
    let (path, ed) ← Outcome.orFail ("parse path error: " ++ ·) (lib.parseURL network.path)
    return { t with websocketOptions :=
      { path := path
        earlyDataHeaderName := "Sec-WebSocket-Protocol"
        maxEarlyData := UInt32.ofNat (atoi ed % 2 ^ 32).toNat
        headers := listable range network.headers } }
  else
    return { t with websocketOptions := { earlyDataHeaderName := "Sec-WebSocket-Protocol" } }

/-- The transport of a node over tcp, which is http if its settings say so. -/
def tcpTransport (settings : Body) (t : V2RayTransportOptions) : Result V2RayTransportOptions :=
  if settings.length ≠ 0 then do
    let network ←
      Outcome.orFail ("decode NetworkSettings error: " ++ ·) (lib.unmarshalHttp settings)
    if network.type = "http" then
      match network.request with
      | some raw =>
        let request ← Outcome.orFail ("decode HttpRequest error: " ++ ·) (lib.unmarshalRequest raw)
        let path ← Outcome.first .indexOutOfRange request.path
        return { t with type := "http", httpOptions := ⟨request.host, path, request.method⟩ }
      | none => return { t with type := "http" }
    else return { t with type := "" }
  else return { t with type := "" }

/-- The transport of a vmess or vless node. -/
def v2rayTransport (n : VAllssRecord) : Result V2RayTransportOptions :=
  let t : V2RayTransportOptions := { type := n.network }
  match n.network with
  | "tcp" => tcpTransport lib n.networkSettings t
  | "ws" => wsTransport lib range n.networkSettings t
  | "grpc" => do
    let network ← decodeNetwork lib.unmarshalGrpc {} n.networkSettings
    return { t with grpcOptions :=
      ⟨network.serviceName, listable range network.headers, network.obfuscated⟩ }
  | "httpupgrade" => do
    let network ← decodeNetwork lib.unmarshalHttpupgrade {} n.networkSettings
    return { t with httpUpgradeOptions := ⟨network.path, network.host⟩ }
  | _ => return t

/-- The transport of a trojan node. -/
def trojanTransport (n : TrojanNode) : Result V2RayTransportOptions :=
  let t : V2RayTransportOptions := { type := n.network }
  match n.network with
  | "tcp" => return { t with type := "" }
  | "ws" => wsTransport lib range n.networkSettings t
  | "grpc" => do
    let network ← decodeNetwork lib.unmarshalGrpc {} n.networkSettings
    return { t with grpcOptions := { serviceName := network.serviceName } }
  | _ => return { t with type := "" }

/-! ### Security -/

/-- The handshake of a Reality node. The error of the port is dropped. -/
def realityOptions (v : VAllssRecord) : InboundRealityOptions where
  enabled := true
  shortID := [v.tlsSettings.shortId]
  privateKey := v.tlsSettings.privateKey
  xver := UInt8.ofNat v.tlsSettings.xver.toNat
  handshake :=
    { server := if v.tlsSettings.dest ≠ "" then v.tlsSettings.dest else v.tlsSettings.serverName
      serverPort := toUint16 (atoi v.tlsSettings.serverPort) }
  maxTimeDifference := lib.parseDuration v.realityConfig.maxTimeDiff

/-- The TLS options for the security of the node. -/
def tlsOptions (info : ProtocolInfo) (c : Options) : Result InboundTLSOptions :=
  if info.security = Security.tls then
    match c.certConfig with
    | none => Outcome.fail "the CertConfig is not vail"
    | some cert =>
      match cert.certMode with
      | "none" | "" => return {}
      | _ => return { enabled := true, certificatePath := cert.certFile, keyPath := cert.keyFile }
  else if info.security = Security.reality then do
    let v ← deref info.vAllss
    return { enabled := true
             serverName := v.tlsSettings.serverName
             reality := some (realityOptions lib v) }
  else return {}

/-- The application protocols of a vmess or vless node. -/
def v2rayAlpn (network : String) (tls : InboundTLSOptions) : InboundTLSOptions :=
  match network with
  | "grpc" => { tls with alpn := ["h2"] }
  | "tcp" => { tls with alpn := ["http/1.1"] }
  | _ => tls

/-! ### Fallbacks of a trojan node -/

/-- The address of a fallback, if its port is a number. -/
def fallbackServer (f : FallBack) : Option ServerOptions :=
  (atoi? f.serverPort).map fun port => ⟨f.server, toUint16 port⟩

/-- `processFallback`; `none` is an error, with which the caller drops the map. -/
def processFallback (entries : GoMap String FallBack) : Option (GoMap String ServerOptions) :=
  (range.keys entries).foldlM (fun m k =>
    (fallbackServer ((entries.lookup k).getD {})).map fun server => m.insert k server) ∅

/-- The fallbacks of a trojan node: the default one, and those by application protocol. -/
def trojanFallback (c : Options) :
    Result (Option ServerOptions × GoMap String ServerOptions) := do
  let sing ← deref c.singOptions
  match sing.fallBackConfigs with
  | none => return (none, ∅)
  | some configs =>
    return (fallbackServer configs.fallBack,
      (processFallback range configs.fallBackForALPN).getD ∅)

/-! ### The whole function -/

/-- The multiplex options. -/
def multiplexOptions (c : Options) : Option InboundMultiplexOptions :=
  (c.singOptions.bind SingOptions.multiplex).map fun m => ⟨m.enabled, m.padding, some m.brutal⟩

/-- The length of a shadowsocks key. -/
def keyLength (cipher : String) : ℕ :=
  match cipher with
  | "2022-blake3-aes-128-gcm" => 16
  | "2022-blake3-aes-256-gcm" | "2022-blake3-chacha20-poly1305" => 32
  | _ => 16

/-- The options of a shadowsocks node, with a random password for the first user. -/
def shadowsocksOptions (n : ShadowsocksNode) (multiplex : Option InboundMultiplexOptions) :
    ProtocolOptions :=
  let p := lib.random (keyLength n.cipher)
  if "2022".toList <:+: n.cipher.toList then
    .shadowsocks n.cipher n.serverKey [lib.base64Encode p] multiplex
  else .shadowsocks n.cipher "" [lib.string p] multiplex

/-- The obfuscation of a hysteria2 node. -/
def hysteria2Obfs (n : Hysteria2Node) : Option (String × String) :=
  if n.obfsType ≠ "" ∧ n.obfsPassword ≠ "" then some (n.obfsType, n.obfsPassword)
  else if n.obfsType ≠ "" then some ("salamander", n.obfsType)
  else none

/-- The end of `getInboundOptions`: the TLS options and those of the protocol. -/
def protocolOptions (info : ProtocolInfo) (c : Options) (tls : InboundTLSOptions) :
    Result (Option InboundTLSOptions × ProtocolOptions) :=
  match info.type with
  | .vless => do
    let n ← deref info.vAllss
    let t ← v2rayTransport lib range n
    let tls := v2rayAlpn n.network tls
    let fallback : Option ServerOptions :=
      if tls.enabled ∧ tls.reality.isNone then some ⟨"127.0.0.1", 8080⟩ else none
    return (some tls, .vless t (multiplexOptions c) n.flow fallback)
  | .vmess => do
    let n ← deref info.vAllss
    let t ← v2rayTransport lib range n
    return (some (v2rayAlpn n.network tls), .vmess t (multiplexOptions c))
  | .shadowsocks => do
    let n ← deref info.shadowsocks
    return (none, shadowsocksOptions lib n (multiplexOptions c))
  | .trojan => do
    let n ← deref info.trojan
    let t ← trojanTransport lib range n
    let tls := if n.network = "grpc" then { tls with alpn := ["h2"] } else tls
    let (fallback, fallbackForALPN) ← trojanFallback range c
    return (some tls, .trojan t (multiplexOptions c) fallback fallbackForALPN)
  | .tuic => do
    let n ← deref info.tuic
    return (some { tls with alpn := tls.alpn ++ ["h3"] },
      .tuic n.congestionControl n.zeroRTTHandshake)
  | .anytls => do
    let n ← deref info.anyTls
    return (some tls, .anytls n.paddingScheme)
  | .hysteria => do
    let n ← deref info.hysteria
    return (some tls, .hysteria n.upMbps n.downMbps n.obfs)
  | .hysteria2 => do
    let n ← deref info.hysteria2
    return (some tls, .hysteria2 n.upMbps n.downMbps n.ignoreClientBandwidth (hysteria2Obfs n))
  | type => Outcome.fail ("protocol " ++ type.name ++
      " is not supported by Sing core, please check your config.json cores settings")

/-- The options for listening. -/
def listenOptions (addr : String) (info : ProtocolInfo) (c : Options) : ListenOptions where
  listen := addr
  listenPort := toUint16 info.common.serverPort
  tcpFastOpen := (c.singOptions.map SingOptions.tcpFastOpen).getD false

/-- `getInboundOptions`. -/
def getInboundOptions (tag : String) (info : ProtocolInfo) (c : Options) : Result Inbound := do
  let addr ← Outcome.orFail (fun _ => "the listen ip not vail") (lib.parseAddr c.listenIP)
  let tls ← tlsOptions lib info c
  let (tls, options) ← protocolOptions lib range info c tls
  return ⟨tag, info.type.name, listenOptions addr info c, tls, options⟩

end Build

/-! ### Transports that panic -/

section Panics

open Outcome

variable {lib : SingLibrary} {range : RangeOrder String} {info : ProtocolInfo} {c : Options}

/-- The settings have an http header with a request without a path. -/
def EmptyPath (lib : SingLibrary) (settings : Body) : Prop :=
  settings ≠ [] ∧ ∃ network raw request, lib.unmarshalHttp settings = .ok network ∧
    network.type = "http" ∧ network.request = some raw ∧
    lib.unmarshalRequest raw = .ok request ∧ request.path = []

theorem not_panics_decodeNetwork {α : Type} {unmarshal : Body → Except String α} {zero : α}
    {settings : Body} : ¬ Panics (decodeNetwork unmarshal zero settings) := by
  rw [decodeNetwork]
  split_ifs
  · exact not_panics_orFail
  · exact not_panics_pure

theorem not_panics_wsTransport (settings : Body) (t : V2RayTransportOptions) :
    ¬ Panics (wsTransport lib range settings t) := by
  rw [wsTransport]
  split_ifs
  · exact not_panics_bind not_panics_orFail fun _ =>
      not_panics_bind not_panics_orFail fun _ => not_panics_pure
  · exact not_panics_pure

theorem panics_tcpTransport_iff {settings : Body} {t : V2RayTransportOptions} :
    Panics (tcpTransport lib settings t) ↔ EmptyPath lib settings := by
  rw [tcpTransport, EmptyPath]
  by_cases hnil : settings = []
  · subst hnil
    simp
  · rw [if_pos (by simpa using hnil), panics_bind_iff, or_iff_right not_panics_orFail,
      and_iff_right hnil]
    simp only [orFail_eq_ok_iff]
    constructor
    · rintro ⟨network, hnetwork, h⟩
      split_ifs at h with hhttp
      · rcases hrequest : network.request with _ | raw
        · simp only [hrequest] at h
          exact absurd h not_panics_pure
        · simp only [hrequest] at h
          obtain ⟨request, hraw, h⟩ := (panics_bind_iff.mp h).resolve_left not_panics_orFail
          rw [panics_bind_iff_left fun _ => not_panics_pure, panics_first_iff] at h
          exact ⟨network, raw, request, hnetwork, hhttp, hrequest, orFail_eq_ok_iff.mp hraw, h⟩
      · exact absurd h not_panics_pure
    · rintro ⟨network, raw, request, hnetwork, hhttp, hrequest, hraw, hpath⟩
      refine ⟨network, hnetwork, ?_⟩
      simp only [hhttp, if_true, hrequest]
      refine panics_bind_iff.mpr (Or.inr ⟨request, orFail_eq_ok_iff.mpr hraw, ?_⟩)
      exact panics_bind_iff.mpr (Or.inl (panics_first_iff.mpr hpath))

/-- A vmess or vless transport panics for an http request without a path, over tcp. -/
theorem panics_v2rayTransport_iff {n : VAllssRecord} :
    Panics (v2rayTransport lib range n) ↔
      n.network = "tcp" ∧ EmptyPath lib n.networkSettings := by
  rw [v2rayTransport]
  dsimp only
  split
  case h_1 heq => rw [panics_tcpTransport_iff, and_iff_right heq]
  case h_2 heq =>
    exact iff_of_false (not_panics_wsTransport _ _) fun h => absurd (heq.symm.trans h.1) (by decide)
  case h_3 heq =>
    exact iff_of_false (not_panics_bind not_panics_decodeNetwork fun _ => not_panics_pure)
      fun h => absurd (heq.symm.trans h.1) (by decide)
  case h_4 heq =>
    exact iff_of_false (not_panics_bind not_panics_decodeNetwork fun _ => not_panics_pure)
      fun h => absurd (heq.symm.trans h.1) (by decide)
  case h_5 htcp _ _ _ => exact iff_of_false not_panics_pure fun h => htcp h.1

theorem not_panics_trojanTransport (n : TrojanNode) : ¬ Panics (trojanTransport lib range n) := by
  rw [trojanTransport]
  dsimp only
  split
  · exact not_panics_pure
  · exact not_panics_wsTransport _ _
  · exact not_panics_bind not_panics_decodeNetwork fun _ => not_panics_pure
  · exact not_panics_pure

/-- The fallbacks of a trojan node panic without options for sing. -/
theorem panics_trojanFallback_iff : Panics (trojanFallback range c) ↔ c.singOptions = none := by
  have hrest : ∀ sing : SingOptions, ¬ Panics (match sing.fallBackConfigs with
      | none => pure (none, ∅)
      | some configs => pure (fallbackServer configs.fallBack,
          (processFallback range configs.fallBackForALPN).getD ∅) :
      Result (Option ServerOptions × GoMap String ServerOptions)) := fun sing => by
    split <;> exact not_panics_pure
  rw [trojanFallback, panics_bind_iff_left hrest, panics_deref_iff]

theorem not_panics_tlsOptions (hinfo : info.Fits) : ¬ Panics (tlsOptions lib info c) := by
  rw [tlsOptions]
  split_ifs with htls hreality
  · split
    · exact not_panics_fail
    · split <;> exact not_panics_pure
  · obtain ⟨v, hv⟩ := hinfo.vAllss_of_reality hreality
    rw [hv]
    exact not_panics_bind not_panics_ok fun _ => not_panics_pure
  · exact not_panics_pure

/-- There are TLS options unless a certificate is needed and not configured. -/
theorem exists_tlsOptions_iff (hinfo : info.Fits) :
    (∃ tls, tlsOptions lib info c = .ok tls) ↔
      (info.security = Security.tls → c.certConfig ≠ none) := by
  rw [tlsOptions]
  split_ifs with htls hreality
  · rcases c.certConfig with _ | cert
    · exact iff_of_false (fun ⟨_, h⟩ => nomatch h) fun h => h htls rfl
    · refine iff_of_true ?_ fun _ => nofun
      dsimp only
      split <;> exact ⟨_, rfl⟩
  · obtain ⟨v, hv⟩ := hinfo.vAllss_of_reality hreality
    rw [hv]
    exact iff_of_true ⟨_, rfl⟩ fun h => absurd h htls
  · exact iff_of_true ⟨_, rfl⟩ fun h => absurd h htls

/-- The protocol of the node panics: the transport of a vmess or vless node, or the fallbacks of a
trojan node whose transport has been made. -/
def ProtocolPanics (lib : SingLibrary) (range : RangeOrder String) (info : ProtocolInfo)
    (c : Options) : Prop :=
  ((info.type = .vmess ∨ info.type = .vless) ∧
    ∃ v, info.vAllss = some v ∧ v.network = "tcp" ∧ EmptyPath lib v.networkSettings) ∨
  (info.type = .trojan ∧ c.singOptions = none ∧
    ∃ t transport, info.trojan = some t ∧ trojanTransport lib range t = .ok transport)

theorem panics_protocolOptions_iff (hinfo : info.Fits) (tls : InboundTLSOptions) :
    Panics (protocolOptions lib range info c tls) ↔ ProtocolPanics lib range info c := by
  rw [ProtocolPanics]
  rcases htype : info.type
  case vmess | vless =>
    obtain ⟨v, hv, -⟩ := hinfo.exists_vAllss (by simp [NodeType.IsV2ray, htype])
    have hrest : Panics (protocolOptions lib range info c tls) ↔
        Panics (v2rayTransport lib range v) := by
      rw [protocolOptions, htype, hv]
      exact panics_bind_iff_left fun _ => not_panics_pure
    rw [hrest, panics_v2rayTransport_iff, hv]
    simp
  case trojan =>
    obtain ⟨t, ht⟩ := hinfo.exists_trojan htype
    have hrest : Panics (protocolOptions lib range info c tls) ↔
        (∃ transport, trojanTransport lib range t = .ok transport) ∧ c.singOptions = none := by
      rw [protocolOptions, htype, ht, ← panics_trojanFallback_iff]
      change Panics (trojanTransport lib range t >>= _) ↔ _
      rw [panics_bind_iff, or_iff_right (not_panics_trojanTransport t), ← exists_and_right]
      exact exists_congr fun _ => and_congr_right fun _ =>
        panics_bind_iff_left fun _ => not_panics_pure
    rw [hrest, ht]
    simp [and_comm]
  case xhttp | mieru =>
    rw [protocolOptions, htype]
    simp
  all_goals
    simp only [ProtocolInfo.Fits, htype] at hinfo
    obtain ⟨n, hn⟩ := Option.isSome_iff_exists.mp hinfo.1
    rw [protocolOptions, htype, hn]
    refine iff_of_false (not_panics_bind not_panics_ok fun _ => not_panics_pure) ?_
    simp

end Panics

/-- **Panics in the sing core.** Let a node be decoded from a response of the panel. Building its
inbound panics if and only if the address to listen on is valid, a certificate is configured where
one is needed, and either it is a vmess or vless node over tcp with an http request without a path,
or a trojan node whose network settings are decoded and whose options for sing are nil. -/
theorem panics_getInboundOptions_iff {cd : ProtocolCodec} {client : Client} {body : Body}
    {info : ProtocolInfo} (hinfo : client.decodeProtocolInfo cd body = .ok info)
    (lib : SingLibrary) (range : RangeOrder String) (tag : String) (c : Options) :
    Outcome.Panics (getInboundOptions lib range tag info c) ↔
      (∃ addr, lib.parseAddr c.listenIP = .ok addr) ∧
      (info.security = Security.tls → c.certConfig ≠ none) ∧
      ProtocolPanics lib range info c := by
  have hfits := ProtocolInfo.fits_of_decode hinfo
  have htls : (∃ tls, tlsOptions lib info c = .ok tls) ↔ _ := exists_tlsOptions_iff hfits
  rw [getInboundOptions, Outcome.panics_bind_iff, or_iff_right Outcome.not_panics_orFail, ← htls,
    ← exists_and_right]
  simp only [Outcome.orFail_eq_ok_iff]
  refine exists_congr fun addr => and_congr_right fun _ => ?_
  rw [Outcome.panics_bind_iff, or_iff_right (not_panics_tlsOptions hfits), ← exists_and_right]
  refine exists_congr fun tls => and_congr_right fun _ => ?_
  rw [Outcome.panics_bind_iff_left fun _ => Outcome.not_panics_pure,
    panics_protocolOptions_iff hfits]

/-- The network settings of an http header with an empty request. -/
def httpSettings : String := "\x7b\"header\":\x7b\"type\":\"http\",\"request\":\x7b\x7d\x7d\x7d"

/-- A library that knows one address, the texts of records without members, and `httpSettings`. -/
def plainLibrary : SingLibrary where
  parseAddr addr := if addr = "0.0.0.0" then .ok addr else .error "unable to parse IP"
  unmarshalHttp := readText [("\x7b\x7d", {}),
    (httpSettings, { type := "http", request := some (bytesOf "\x7b\x7d") })]
  unmarshalRequest := readText [("\x7b\x7d", {})]
  unmarshalWs := readText [("\x7b\x7d", {})]
  unmarshalGrpc := readText [("\x7b\x7d", {})]
  unmarshalHttpupgrade := readText [("\x7b\x7d", {})]
  parseURL path := .ok (path, "")
  parseDuration _ := 0
  random n := List.replicate n 0
  string bytes := String.ofList (bytes.map fun b => Char.ofNat b.toNat)
  base64Encode bytes := String.ofList (bytes.map fun b => Char.ofNat b.toNat)

/-- A trojan node with options for sing does not panic. -/
theorem panics_getInboundOptions_iff_trojan :
    ∃ info : ProtocolInfo,
      trojanInfo 443 = .ok info ∧
      ¬ Outcome.Panics (getInboundOptions plainLibrary RangeOrder.ascending "node" info
        { defaultOptions with singOptions := some newSingOptions }) := by
  obtain ⟨info, hinfo⟩ : ∃ info, trojanInfo 443 = .ok info := ⟨_, trojanInfo_eq 443⟩
  refine ⟨info, hinfo, fun h => ?_⟩
  rcases ((panics_getInboundOptions_iff hinfo _ _ _ _).mp h).2.2 with ⟨htype, -⟩ | ⟨-, hsing, -⟩
  · rw [trojanInfo_eq] at hinfo
    cases hinfo
    rcases htype with htype | htype <;> cases htype
  · cases hsing

/-- **Unguarded steps.** A vless node whose http request has no path, with the default options for
sing, and a trojan node without options for sing. -/
theorem getInboundOptions_panics :
    (∃ info : ProtocolInfo,
      vlessInfo ("\"network\":\"tcp\",\"networkSettings\":" ++ httpSettings)
        (tcpNode (bytesOf httpSettings)) = .ok info ∧
      getInboundOptions plainLibrary RangeOrder.ascending "node" info
        { defaultOptions with singOptions := some newSingOptions } =
          .error (.panic .indexOutOfRange)) ∧
    ∃ info : ProtocolInfo,
      trojanInfo 443 = .ok info ∧
      getInboundOptions plainLibrary RangeOrder.ascending "node" info defaultOptions =
        .error (.panic .nilDereference) := by
  rw [vlessInfo_eq, trojanInfo_eq]
  exact ⟨⟨_, rfl, rfl⟩, ⟨_, rfl, rfl⟩⟩

end Tox.Core.SingInbound
