import Tox.Core.SingInbound

/-!
# The ports of an inbound in the sing core

A port comes as an integer or as a text and is converted to 16 bits without a check. The port to
listen on is cut to 16 bits. The port of a Reality handshake is read without looking at the error,
so that a missing port is 0 and a text that is not a number is 0. The port of the default fallback
of a trojan node is dropped with the fallback if it is not a number, and one such port among the
fallbacks by application protocol drops all of them.

If an inbound is built, its ports are those of the panel and of the options if and only if all of
them are ports to begin with (`portsSurvive_iff`). None is ever rejected.
-/

namespace Tox.Core.SingInbound

open Tox.Foundation Tox.Panel Tox.Conf

/-! ### One port -/

/-- The port is the integer that the text denotes. -/
def Denotes (s : String) (port : UInt16) : Prop := integerOf s = some (port.toNat : ℤ)

/-- The text denotes a port. -/
def IsPort (s : String) : Prop := ∃ n, integerOf s = some n ∧ 0 ≤ n ∧ n ≤ 65535

theorem Denotes.isPort {s : String} {port : UInt16} (h : Denotes s port) : IsPort s := by
  have hlt := port.toNat_lt
  exact ⟨_, h, by omega, by omega⟩

theorem IsPort.ne_empty {s : String} (h : IsPort s) : s ≠ "" := by
  rintro rfl
  obtain ⟨n, hn, -⟩ := h
  cases hn

/-- Without the error of `Atoi` a port survives if and only if it is one. -/
theorem denotes_toUint16_atoi_iff {s : String} :
    Denotes s (toUint16 (atoi s)) ↔ IsPort s := by
  refine ⟨Denotes.isPort, ?_⟩
  rintro ⟨n, hn, hle, hge⟩
  have hatoi : atoi s = n := by
    rw [atoi_eq_of_integerOf hn]
    omega
  rw [Denotes, hatoi, hn, toNat_toUint16_eq_iff.mpr ⟨hle, hge⟩]

theorem atoi?_of_isPort {s : String} (h : IsPort s) :
    ∃ n, atoi? s = some n ∧ Denotes s (toUint16 n) := by
  obtain ⟨n, hn, hle, hge⟩ := h
  refine ⟨n, ?_, ?_⟩
  · rw [atoi?, hn, Option.filter_some, if_pos (by simp; omega)]
  · rw [Denotes, hn, toNat_toUint16_eq_iff.mpr ⟨hle, hge⟩]

/-- A fallback is there with its port if and only if it has one. -/
theorem exists_fallbackServer_iff {f : FallBack} :
    (∃ server, fallbackServer f = some server ∧ Denotes f.serverPort server.serverPort) ↔
      IsPort f.serverPort := by
  constructor
  · rintro ⟨server, -, hport⟩
    exact hport.isPort
  · intro h
    obtain ⟨n, hn, hport⟩ := atoi?_of_isPort h
    exact ⟨⟨f.server, toUint16 n⟩, by rw [fallbackServer, hn, Option.map_some], hport⟩

/-! ### The fallbacks by application protocol -/

/-- The loop of `processFallback` over keys whose fallbacks have a port. -/
theorem exists_foldlM_fallbackServer {server : String → Option ServerOptions} {ks : List String}
    (h : ∀ k ∈ ks, (server k).isSome) (m : GoMap String ServerOptions) :
    ∃ m', ks.foldlM (fun m k => (server k).map fun s => m.insert k s) m = some m' ∧
      ∀ k, m'.lookup k = if k ∈ ks then server k else m.lookup k := by
  induction ks generalizing m with
  | nil => exact ⟨m, rfl, fun k => (if_neg List.not_mem_nil).symm⟩
  | cons k ks ih =>
    obtain ⟨hk, hks⟩ := List.forall_mem_cons.mp h
    obtain ⟨s, hs⟩ := Option.isSome_iff_exists.mp hk
    obtain ⟨m', hm', hlookup⟩ := ih hks (m.insert k s)
    refine ⟨m', ?_, fun k' => ?_⟩
    · rw [List.foldlM_cons, hs, Option.map_some]
      exact hm'
    · rw [hlookup, GoMap.lookup_insert]
      simp only [List.mem_cons]
      by_cases hmem : k' ∈ ks
      · rw [if_pos hmem, if_pos (Or.inr hmem)]
      · by_cases heq : k' = k
        · rw [if_neg hmem, if_pos heq, if_pos (Or.inl heq), heq, hs]
        · rw [if_neg hmem, if_neg heq, if_neg (not_or.mpr ⟨heq, hmem⟩)]

/-- If every entry has a port, the fallbacks are those of the entries. -/
theorem exists_processFallback (range : RangeOrder String) {entries : GoMap String FallBack}
    (h : ∀ k f, entries.lookup k = some f → IsPort f.serverPort) :
    ∃ m, processFallback range entries = some m ∧
      ∀ k f, entries.lookup k = some f → m.lookup k = fallbackServer f := by
  have hall : ∀ k ∈ range.keys entries,
      (fallbackServer ((entries.lookup k).getD {})).isSome := fun k hk => by
    obtain ⟨f, hf⟩ := Finmap.mem_iff.mp ((range.mem_keys entries k).mp hk)
    obtain ⟨server, hserver, -⟩ := exists_fallbackServer_iff.mpr (h k f hf)
    rw [hf, Option.getD_some, hserver]
    rfl
  obtain ⟨m, hm, hlookup⟩ := exists_foldlM_fallbackServer hall ∅
  refine ⟨m, hm, fun k f hf => ?_⟩
  have hk : k ∈ range.keys entries :=
    (range.mem_keys entries k).mpr (Finmap.mem_of_lookup_eq_some hf)
  rw [hlookup, if_pos hk, hf, Option.getD_some]

/-! ### The ports of an inbound -/

namespace Inbound

/-- The port of the Reality handshake. -/
def realityPort (inbound : Inbound) : Option UInt16 :=
  (inbound.tls.bind InboundTLSOptions.reality).map fun r => r.handshake.serverPort

/-- The default fallback of a trojan inbound. -/
def fallback (inbound : Inbound) : Option ServerOptions :=
  match inbound.options with
  | .trojan _ _ fallback _ => fallback
  | _ => none

/-- The fallbacks of a trojan inbound by application protocol. -/
def fallbackForALPN (inbound : Inbound) : GoMap String ServerOptions :=
  match inbound.options with
  | .trojan _ _ _ fallbackForALPN => fallbackForALPN
  | _ => ∅

end Inbound

/-- The ports of the inbound are those of the panel and of the options. A Reality handshake without
a port has 443; a default fallback without a port is not configured. -/
structure PortsSurvive (info : ProtocolInfo) (c : Options) (inbound : Inbound) : Prop where
  listen : (inbound.listen.listenPort.toNat : ℤ) = info.common.serverPort
  reality : ∀ v port, info.vAllss = some v → inbound.realityPort = some port →
    if v.tlsSettings.serverPort = "" then port = 443 else Denotes v.tlsSettings.serverPort port
  fallback : info.type = .trojan → ∀ sing configs, c.singOptions = some sing →
    sing.fallBackConfigs = some configs → configs.fallBack.serverPort ≠ "" →
    ∃ server, inbound.fallback = some server ∧
      Denotes configs.fallBack.serverPort server.serverPort
  fallbackForALPN : info.type = .trojan → ∀ sing configs, c.singOptions = some sing →
    sing.fallBackConfigs = some configs → ∀ k f, configs.fallBackForALPN.lookup k = some f →
    ∃ server, inbound.fallbackForALPN.lookup k = some server ∧
      Denotes f.serverPort server.serverPort

/-- The ports of the panel and of the options are ports. A shadowsocks inbound has no TLS options,
so that it has no handshake either. -/
structure PortsValid (info : ProtocolInfo) (c : Options) : Prop where
  listen : 0 ≤ info.common.serverPort ∧ info.common.serverPort ≤ 65535
  reality : info.security = Security.reality → info.type ≠ .shadowsocks →
    ∀ v, info.vAllss = some v → IsPort v.tlsSettings.serverPort
  fallback : info.type = .trojan → ∀ sing configs, c.singOptions = some sing →
    sing.fallBackConfigs = some configs → configs.fallBack.serverPort ≠ "" →
    IsPort configs.fallBack.serverPort
  fallbackForALPN : info.type = .trojan → ∀ sing configs, c.singOptions = some sing →
    sing.fallBackConfigs = some configs → ∀ k f, configs.fallBackForALPN.lookup k = some f →
    IsPort f.serverPort

section Built

open Outcome

variable {lib : SingLibrary} {range : RangeOrder String} {info : ProtocolInfo} {c : Options}
  {tag : String} {inbound : Inbound}

/-- The parts of an inbound that is built. -/
theorem exists_of_getInboundOptions (h : getInboundOptions lib range tag info c = .ok inbound) :
    ∃ addr tls, tlsOptions lib info c = .ok tls ∧
      protocolOptions lib range info c tls = .ok (inbound.tls, inbound.options) ∧
      inbound.listen = listenOptions addr info c := by
  obtain ⟨addr, -, h⟩ := bind_eq_ok_iff.mp h
  obtain ⟨tls, htls, h⟩ := bind_eq_ok_iff.mp h
  obtain ⟨⟨tls', options⟩, hoptions, h⟩ := bind_eq_ok_iff.mp h
  obtain rfl := pure_eq_ok_iff.mp h
  exact ⟨addr, tls, htls, hoptions, rfl⟩

theorem reality_v2rayAlpn (network : String) (tls : InboundTLSOptions) :
    (v2rayAlpn network tls).reality = tls.reality := by
  simp only [v2rayAlpn]
  split <;> rfl

/-- Only a shadowsocks inbound drops the Reality options. -/
theorem reality_protocolOptions {tls : InboundTLSOptions} {tls' : Option InboundTLSOptions}
    {options : ProtocolOptions} (h : protocolOptions lib range info c tls = .ok (tls', options)) :
    tls'.bind InboundTLSOptions.reality =
      if info.type = .shadowsocks then none else tls.reality := by
  rcases htype : info.type
  all_goals rw [protocolOptions, htype] at h
  case xhttp | mieru => cases h
  case vless | vmess =>
    obtain ⟨n, -, h⟩ := bind_eq_ok_iff.mp h
    obtain ⟨t, -, h⟩ := bind_eq_ok_iff.mp h
    obtain ⟨rfl, -⟩ := Prod.mk.inj (pure_eq_ok_iff.mp h)
    exact reality_v2rayAlpn _ _
  case trojan =>
    obtain ⟨n, -, h⟩ := bind_eq_ok_iff.mp h
    obtain ⟨t, -, h⟩ := bind_eq_ok_iff.mp h
    obtain ⟨fallback, -, h⟩ := bind_eq_ok_iff.mp h
    obtain ⟨rfl, -⟩ := Prod.mk.inj (pure_eq_ok_iff.mp h)
    change InboundTLSOptions.reality (if n.network = "grpc" then _ else _) = tls.reality
    split <;> rfl
  all_goals
    obtain ⟨n, -, h⟩ := bind_eq_ok_iff.mp h
    obtain ⟨rfl, -⟩ := Prod.mk.inj (pure_eq_ok_iff.mp h)
    rfl

theorem reality_tlsOptions {tls : InboundTLSOptions} (h : tlsOptions lib info c = .ok tls) :
    tls.reality =
      if info.security = Security.reality then info.vAllss.map (realityOptions lib) else none := by
  simp only [tlsOptions] at h
  by_cases htls : info.security = Security.tls
  · rw [if_pos htls] at h
    rw [htls, if_neg (by decide)]
    split at h
    · cases h
    · split at h <;> exact pure_eq_ok_iff.mp h ▸ rfl
  · rw [if_neg htls] at h
    split_ifs at h ⊢ with hreality
    · obtain ⟨v, hv, h⟩ := bind_eq_ok_iff.mp h
      rw [deref_eq_ok_iff.mp hv, ← pure_eq_ok_iff.mp h, Option.map_some]
    · exact pure_eq_ok_iff.mp h ▸ rfl

/-- The handshake of an inbound that is built. -/
theorem realityPort_of_getInboundOptions (h : getInboundOptions lib range tag info c = .ok inbound)
    {v : VAllssRecord} (hv : info.vAllss = some v) :
    inbound.realityPort =
      if info.security = Security.reality ∧ info.type ≠ .shadowsocks then
        some (toUint16 (atoi v.tlsSettings.serverPort))
      else none := by
  obtain ⟨addr, tls, htls, hoptions, -⟩ := exists_of_getInboundOptions h
  rw [Inbound.realityPort, reality_protocolOptions hoptions, reality_tlsOptions htls, hv,
    Option.map_some]
  by_cases htype : info.type = .shadowsocks
  · rw [if_pos htype, if_neg fun hboth => hboth.2 htype, Option.map_none]
  · by_cases hreality : info.security = Security.reality
    · rw [if_neg htype, if_pos hreality, if_pos ⟨hreality, htype⟩, Option.map_some,
        realityOptions]
    · rw [if_neg htype, if_neg hreality, if_neg fun hboth => hreality hboth.1, Option.map_none]

/-- The fallbacks of a trojan node that is built. -/
theorem fallback_of_getInboundOptions (htype : info.type = .trojan)
    (h : getInboundOptions lib range tag info c = .ok inbound) {sing : SingOptions}
    {configs : FallBackConfigForSing} (hsing : c.singOptions = some sing)
    (hconfigs : sing.fallBackConfigs = some configs) :
    inbound.fallback = fallbackServer configs.fallBack ∧
      inbound.fallbackForALPN = (processFallback range configs.fallBackForALPN).getD ∅ := by
  obtain ⟨addr, tls, -, hoptions, -⟩ := exists_of_getInboundOptions h
  have hfallback : trojanFallback range c = .ok (fallbackServer configs.fallBack,
      (processFallback range configs.fallBackForALPN).getD ∅) := by
    refine bind_eq_ok_iff.mpr ⟨sing, by rw [hsing]; rfl, ?_⟩
    rw [hconfigs]
    rfl
  rw [protocolOptions, htype] at hoptions
  obtain ⟨n, -, hoptions⟩ := bind_eq_ok_iff.mp hoptions
  obtain ⟨t, -, hoptions⟩ := bind_eq_ok_iff.mp hoptions
  rw [hfallback] at hoptions
  obtain ⟨-, hoptions⟩ := Prod.mk.inj (Except.ok.inj hoptions)
  rw [Inbound.fallback, Inbound.fallbackForALPN, ← hoptions]
  exact ⟨rfl, rfl⟩

end Built

/-- **Ports are not checked.** Let an inbound be built for a node. Its ports are the integers of the
panel and of the options if and only if all of these are ports: a number that is too large or
negative is wrapped, a text that is not a number becomes 0 or drops fallbacks, and a Reality
handshake without a port gets 0. -/
theorem portsSurvive_iff {lib : SingLibrary} {range : RangeOrder String} {tag : String}
    {info : ProtocolInfo} {c : Options} {inbound : Inbound}
    (h : getInboundOptions lib range tag info c = .ok inbound) :
    PortsSurvive info c inbound ↔ PortsValid info c := by
  obtain ⟨addr, -, -, -, hlisten⟩ := exists_of_getInboundOptions h
  have hlistenPort : (inbound.listen.listenPort.toNat : ℤ) = info.common.serverPort ↔
      0 ≤ info.common.serverPort ∧ info.common.serverPort ≤ 65535 := by
    rw [hlisten, listenOptions, toNat_toUint16_eq_iff]
  constructor
  · intro hs
    refine ⟨hlistenPort.mp hs.listen, fun hreality htype v hv => ?_,
      fun htype sing configs hsing hconfigs hne => ?_,
      fun htype sing configs hsing hconfigs k f hf => ?_⟩
    · have hport := realityPort_of_getInboundOptions h hv
      rw [if_pos ⟨hreality, htype⟩] at hport
      have hdenotes := hs.reality v _ hv hport
      split_ifs at hdenotes with hempty
      · rw [hempty] at hdenotes
        exact absurd hdenotes (by decide)
      · exact hdenotes.isPort
    · obtain ⟨server, -, hdenotes⟩ := hs.fallback htype sing configs hsing hconfigs hne
      exact hdenotes.isPort
    · obtain ⟨server, -, hdenotes⟩ := hs.fallbackForALPN htype sing configs hsing hconfigs k f hf
      exact hdenotes.isPort
  · intro hvalid
    refine ⟨hlistenPort.mpr hvalid.listen, fun v port hv hport => ?_,
      fun htype sing configs hsing hconfigs hne => ?_,
      fun htype sing configs hsing hconfigs k f hf => ?_⟩
    · rw [realityPort_of_getInboundOptions h hv] at hport
      split_ifs at hport with hboth
      have hisPort := hvalid.reality hboth.1 hboth.2 v hv
      rw [if_neg hisPort.ne_empty, ← Option.some.inj hport]
      exact denotes_toUint16_atoi_iff.mpr hisPort
    · rw [(fallback_of_getInboundOptions htype h hsing hconfigs).1]
      exact exists_fallbackServer_iff.mpr (hvalid.fallback htype sing configs hsing hconfigs hne)
    · have hports := hvalid.fallbackForALPN htype sing configs hsing hconfigs
      obtain ⟨m, hm, hlookup⟩ := exists_processFallback range hports
      rw [(fallback_of_getInboundOptions htype h hsing hconfigs).2, hm, Option.getD_some,
        hlookup k f hf]
      exact exists_fallbackServer_iff.mpr (hports k f hf)

/-- Options with the given fallbacks for sing. -/
def fallbackOptions (configs : FallBackConfigForSing) : Options :=
  { defaultOptions with
    singOptions := some { newSingOptions with fallBackConfigs := some configs } }

/-- A trojan node on port 443 with a fallback to port 80 keeps both. -/
theorem portsSurvive_iff_trojan :
    ∃ info inbound, trojanInfo 443 = .ok info ∧
      getInboundOptions plainLibrary RangeOrder.ascending "node" info
        (fallbackOptions { fallBack := { serverPort := "80" } }) = .ok inbound ∧
      PortsSurvive info (fallbackOptions { fallBack := { serverPort := "80" } }) inbound := by
  obtain ⟨info, hinfo⟩ : ∃ info, trojanInfo 443 = .ok info := ⟨_, trojanInfo_eq 443⟩
  obtain ⟨inbound, h⟩ : ∃ inbound, getInboundOptions plainLibrary RangeOrder.ascending "node" info
      (fallbackOptions { fallBack := { serverPort := "80" } }) = .ok inbound := by
    rw [trojanInfo_eq] at hinfo
    cases hinfo
    exact ⟨_, rfl⟩
  refine ⟨info, inbound, hinfo, h, (portsSurvive_iff h).mpr ?_⟩
  rw [trojanInfo_eq] at hinfo
  cases hinfo
  refine ⟨by decide, ?_, ?_, ?_⟩
  · rintro - - v ⟨⟩
  · rintro - sing configs ⟨⟩ ⟨⟩ -
    exact ⟨80, by decide, by decide, by decide⟩
  · rintro - sing configs ⟨⟩ ⟨⟩ k f hf
    cases hf

/-- **Ports that do not survive.** Port 65979 of a trojan node becomes 443. The handshake of a
Reality node without a port goes to port 0. A default fallback to the port `http` is not there, and
one such port among the fallbacks by application protocol drops the other one. -/
theorem not_portsSurvive :
    (∃ info inbound, trojanInfo 65979 = .ok info ∧
      getInboundOptions plainLibrary RangeOrder.ascending "node" info
        (fallbackOptions {}) = .ok inbound ∧
      inbound.listen.listenPort = 443 ∧ ¬ PortsSurvive info (fallbackOptions {}) inbound) ∧
    (∃ info inbound, vlessInfo "\"tls\":2,\"network\":\"tcp\"" { tcpNode [] with tls := 2 } =
        .ok info ∧
      getInboundOptions plainLibrary RangeOrder.ascending "node" info defaultOptions =
        .ok inbound ∧
      inbound.realityPort = some 0 ∧ ¬ PortsSurvive info defaultOptions inbound) ∧
    ∃ configs : FallBackConfigForSing, ∃ info inbound,
      configs.fallBack.serverPort = "http" ∧
      (configs.fallBackForALPN.lookup "h2").map FallBack.serverPort = some "8080" ∧
      (configs.fallBackForALPN.lookup "http/1.1").map FallBack.serverPort = some "http" ∧
      trojanInfo 443 = .ok info ∧
      getInboundOptions plainLibrary RangeOrder.ascending "node" info
        (fallbackOptions configs) = .ok inbound ∧
      inbound.fallback = none ∧ inbound.fallbackForALPN = ∅ ∧
      ¬ PortsSurvive info (fallbackOptions configs) inbound := by
  rw [trojanInfo_eq, vlessInfo_eq, trojanInfo_eq]
  refine ⟨⟨_, _, rfl, rfl, rfl, fun hs => ?_⟩, ⟨_, _, rfl, rfl, rfl, fun hs => ?_⟩,
    { fallBack := { serverPort := "http" }
      fallBackForALPN := ((∅ : GoMap String FallBack).insert "h2" { serverPort := "8080" }).insert
        "http/1.1" { serverPort := "http" } },
    _, _, rfl, rfl, rfl, rfl, rfl, rfl, ?_, fun hs => ?_⟩
  · exact absurd hs.listen (by decide)
  · have hport := hs.reality _ _ rfl rfl
    split_ifs at hport with hempty
    · exact absurd hport (by decide)
    · exact hempty rfl
  · decide +kernel
  · obtain ⟨server, hserver, -⟩ := hs.fallback rfl _ _ rfl rfl (by decide)
    cases hserver

end Tox.Core.SingInbound
