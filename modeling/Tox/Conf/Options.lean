import Mathlib.Data.Finmap
import Tox.Foundation.GoMap
import Tox.Panel.Client

/-!
# The options of a node

The options of a node hold a block of options for each kind of core, behind a pointer. The blocks
are filled in two ways. The document may have a member `XrayOptions` or `SingOptions`, which is
decoded into the block like any other member. Besides, `Options.UnmarshalJSON` looks at the member
`Core`: if it is `xray` or `sing`, the block of that core is replaced by the defaults, and the
*whole document* is decoded into it, so that the members of the block stand at the top level. For
any other value the document is kept for later in `RawOptions`, and an unknown core becomes the
empty text.

A document is modelled by what its members say (`OptionsDocument`). Decoding writes the members that
there are into a value and leaves the others as they were.
-/

namespace Tox.Conf

open Tox.Foundation Tox.Panel

/-! ### Values -/

/-- `conf.FallBackConfigForXray`. -/
structure FallBackConfigForXray where
  sni : String := ""
  alpn : String := ""
  path : String := ""
  dest : String := ""
  proxyProtocolVer : UInt64 := 0
deriving DecidableEq, Repr

/-- `conf.XrayOptions`. -/
structure XrayOptions where
  enableProxyProtocol : Bool := false
  enableDNS : Bool := false
  dnsType : String := ""
  enableUot : Bool := false
  enableTFO : Bool := false
  disableIVCheck : Bool := false
  disableSniffing : Bool := false
  enableFallback : Bool := false
  /-- The slice may be nil. -/
  fallBackConfigs : Option (List FallBackConfigForXray) := none
deriving DecidableEq, Repr

/-- `conf.NewXrayOptions`. -/
def newXrayOptions : XrayOptions := { dnsType := "AsIs" }

/-- `conf.FallBack`. -/
structure FallBack where
  server : String := ""
  serverPort : String := ""
deriving DecidableEq, Repr

/-- `conf.FallBackConfigForSing`. -/
structure FallBackConfigForSing where
  fallBack : FallBack := {}
  fallBackForALPN : GoMap String FallBack := ∅
deriving DecidableEq

/-- `conf.BrutalOptions`. -/
structure BrutalOptions where
  enabled : Bool := false
  upMbps : ℤ := 0
  downMbps : ℤ := 0
deriving DecidableEq, Repr

/-- `conf.MultiplexConfig`. -/
structure MultiplexConfig where
  enabled : Bool := false
  padding : Bool := false
  brutal : BrutalOptions := {}
deriving DecidableEq, Repr

/-- `conf.SingOptions`. -/
structure SingOptions where
  tcpFastOpen : Bool := false
  sniffEnabled : Bool := false
  sniffOverrideDestination : Bool := false
  enableDNS : Bool := false
  fallBackConfigs : Option FallBackConfigForSing := none
  multiplex : Option MultiplexConfig := none
deriving DecidableEq

/-- `conf.NewSingOptions`. -/
def newSingOptions : SingOptions where
  sniffEnabled := true
  sniffOverrideDestination := true
  fallBackConfigs := some {}
  multiplex := some {}

/-- The parts of `conf.CertConfig` that the cores read. -/
structure CertConfig where
  certMode : String := ""
  rejectUnknownSni : Bool := false
  certFile : String := ""
  keyFile : String := ""
deriving DecidableEq, Repr

/-- `conf.NewCertConfig`. -/
def newCertConfig : CertConfig := { certMode := "none" }

/-- The parts of `conf.Options` that the selector and the cores read. -/
structure Options where
  core : String := ""
  coreName : String := ""
  listenIP : String := ""
  sendIP : String := ""
  rawOptions : Body := []
  xrayOptions : Option XrayOptions := none
  singOptions : Option SingOptions := none
  certConfig : Option CertConfig := none

/-- The options into which `NodeConfig.UnmarshalJSON` decodes. -/
def defaultOptions : Options where
  listenIP := "0.0.0.0"
  sendIP := "0.0.0.0"
  certConfig := some newCertConfig

/-! ### Documents -/

/-- A member of a document that is decoded into a pointer, a slice or a map. A member of another
type that is null is like one that is missing. -/
inductive Member (δ : Type)
  | missing
  | null
  | value (d : δ)

/-- The member is decoded into a pointer. A nil pointer gets a new value. -/
def Member.into {α δ : Type} (m : Member δ) (zero : α) (write : δ → α → α) (p : Option α) :
    Option α :=
  match m with
  | .missing => p
  | .null => none
  | .value d => some (write d (p.getD zero))

/-- The members of `XrayOptions`. -/
structure XrayDocument where
  enableProxyProtocol : Option Bool := none
  enableDNS : Option Bool := none
  dnsType : Option String := none
  enableUot : Option Bool := none
  enableTFO : Option Bool := none
  disableIVCheck : Option Bool := none
  disableSniffing : Option Bool := none
  enableFallback : Option Bool := none
  fallBackConfigs : Member (List FallBackConfigForXray) := .missing

/-- `json.Unmarshal` into `XrayOptions`. -/
def XrayDocument.write (d : XrayDocument) (o : XrayOptions) : XrayOptions where
  enableProxyProtocol := d.enableProxyProtocol.getD o.enableProxyProtocol
  enableDNS := d.enableDNS.getD o.enableDNS
  dnsType := d.dnsType.getD o.dnsType
  enableUot := d.enableUot.getD o.enableUot
  enableTFO := d.enableTFO.getD o.enableTFO
  disableIVCheck := d.disableIVCheck.getD o.disableIVCheck
  disableSniffing := d.disableSniffing.getD o.disableSniffing
  enableFallback := d.enableFallback.getD o.enableFallback
  fallBackConfigs := d.fallBackConfigs.into [] (fun l _ => l) o.fallBackConfigs

/-- The members of `FallBackConfigForSing`. -/
structure FallBackDocument where
  server : Option String := none
  serverPort : Option String := none
  fallBackForALPN : Member (GoMap String FallBack) := .missing

/-- `json.Unmarshal` into `FallBackConfigForSing`. The entries of a map are added to those that
there are. -/
def FallBackDocument.write (d : FallBackDocument) (o : FallBackConfigForSing) :
    FallBackConfigForSing where
  fallBack := ⟨d.server.getD o.fallBack.server, d.serverPort.getD o.fallBack.serverPort⟩
  fallBackForALPN :=
    match d.fallBackForALPN with
    | .missing => o.fallBackForALPN
    | .null => ∅
    | .value entries => entries ∪ o.fallBackForALPN

/-- The members of `MultiplexConfig`, with those of `BrutalOptions`. -/
structure MultiplexDocument where
  enabled : Option Bool := none
  padding : Option Bool := none
  brutalEnabled : Option Bool := none
  upMbps : Option ℤ := none
  downMbps : Option ℤ := none

/-- `json.Unmarshal` into `MultiplexConfig`. -/
def MultiplexDocument.write (d : MultiplexDocument) (o : MultiplexConfig) : MultiplexConfig where
  enabled := d.enabled.getD o.enabled
  padding := d.padding.getD o.padding
  brutal := ⟨d.brutalEnabled.getD o.brutal.enabled, d.upMbps.getD o.brutal.upMbps,
    d.downMbps.getD o.brutal.downMbps⟩

/-- The members of `SingOptions`. -/
structure SingDocument where
  tcpFastOpen : Option Bool := none
  sniffEnabled : Option Bool := none
  sniffOverrideDestination : Option Bool := none
  enableDNS : Option Bool := none
  fallBackConfigs : Member FallBackDocument := .missing
  multiplex : Member MultiplexDocument := .missing

/-- `json.Unmarshal` into `SingOptions`. -/
def SingDocument.write (d : SingDocument) (o : SingOptions) : SingOptions where
  tcpFastOpen := d.tcpFastOpen.getD o.tcpFastOpen
  sniffEnabled := d.sniffEnabled.getD o.sniffEnabled
  sniffOverrideDestination := d.sniffOverrideDestination.getD o.sniffOverrideDestination
  enableDNS := d.enableDNS.getD o.enableDNS
  fallBackConfigs := d.fallBackConfigs.into {} FallBackDocument.write o.fallBackConfigs
  multiplex := d.multiplex.into {} MultiplexDocument.write o.multiplex

/-- The members of `CertConfig`. -/
structure CertDocument where
  certMode : Option String := none
  rejectUnknownSni : Option Bool := none
  certFile : Option String := none
  keyFile : Option String := none

/-- `json.Unmarshal` into `CertConfig`. -/
def CertDocument.write (d : CertDocument) (o : CertConfig) : CertConfig where
  certMode := d.certMode.getD o.certMode
  rejectUnknownSni := d.rejectUnknownSni.getD o.rejectUnknownSni
  certFile := d.certFile.getD o.certFile
  keyFile := d.keyFile.getD o.keyFile

/-- The members of `Options`. The members at the top level are also read as those of a block. A
member of the wrong type is left out and gives an error, which is returned at the end. -/
structure OptionsDocument where
  core : Option String := none
  coreName : Option String := none
  listenIP : Option String := none
  sendIP : Option String := none
  xrayOptions : Member XrayDocument := .missing
  singOptions : Member SingDocument := .missing
  certConfig : Member CertDocument := .missing
  topXray : XrayDocument × Option String := ({}, none)
  topSing : SingDocument × Option String := ({}, none)

namespace OptionsDocument

/-- The block of xray options under the member `XrayOptions`. -/
def xrayBlock (d : OptionsDocument) (p : Option XrayOptions) : Option XrayOptions :=
  d.xrayOptions.into {} XrayDocument.write p

/-- The block of sing options under the member `SingOptions`. -/
def singBlock (d : OptionsDocument) (p : Option SingOptions) : Option SingOptions :=
  d.singOptions.into {} SingDocument.write p

/-- The block of xray options with the members at the top level. -/
def xrayValues (d : OptionsDocument) : XrayOptions := d.topXray.1.write newXrayOptions

/-- The block of sing options with the members at the top level. -/
def singValues (d : OptionsDocument) : SingOptions := d.topSing.1.write newSingOptions

/-- `json.Unmarshal` into `Options`, without its method. -/
def write (d : OptionsDocument) (o : Options) : Options where
  core := d.core.getD o.core
  coreName := d.coreName.getD o.coreName
  listenIP := d.listenIP.getD o.listenIP
  sendIP := d.sendIP.getD o.sendIP
  rawOptions := o.rawOptions
  xrayOptions := d.xrayBlock o.xrayOptions
  singOptions := d.singBlock o.singOptions
  certConfig := d.certConfig.into {} CertDocument.write o.certConfig

end OptionsDocument

/-- The JSON decoder: the document in a text, and the error. The empty text is not a document, and
nothing is decoded then. -/
structure OptionsJson where
  read : Body → OptionsDocument × Option String
  read_nil : ∃ err, read [] = ({}, some err)

/-- `Options.UnmarshalJSON`: the options afterwards and the error. -/
def Options.unmarshalJSON (js : OptionsJson) (o : Options) (data : Body) :
    Options × Option String :=
  match js.read data with
  | (d, some err) => (d.write o, some err)
  | (d, none) =>
    let o := d.write o
    if o.core = "xray" then ({ o with xrayOptions := some d.xrayValues }, d.topXray.2)
    else if o.core = "sing" then ({ o with singOptions := some d.singValues }, d.topSing.2)
    else if o.core = "hysteria2" ∨ o.core = "mieru" then ({ o with rawOptions := data }, none)
    else ({ o with core := "", rawOptions := data }, none)

/-! ### Decoding twice -/

theorem getD_getD_self {α : Type} (x : Option α) (a : α) : x.getD (x.getD a) = x.getD a := by
  rcases x with _ | b <;> rfl

/-- A pointer into which a member is decoded twice, if decoding the value twice is like once. -/
theorem Member.into_into {α δ : Type} (m : Member δ) {zero : α} {write : δ → α → α}
    (h : ∀ d a, write d (write d a) = write d a) (p : Option α) :
    m.into zero write (m.into zero write p) = m.into zero write p := by
  rcases m with _ | _ | d
  · rfl
  · rfl
  · exact congrArg some (h d _)

theorem XrayDocument.write_write (d : XrayDocument) (o : XrayOptions) :
    d.write (d.write o) = d.write o := by
  have hslice : ∀ p, d.fallBackConfigs.into [] (fun l _ => l)
      (d.fallBackConfigs.into [] (fun l _ => l) p) = d.fallBackConfigs.into [] (fun l _ => l) p :=
    d.fallBackConfigs.into_into fun _ _ => rfl
  simp only [write, getD_getD_self, hslice]

theorem FallBackDocument.write_write (d : FallBackDocument) (o : FallBackConfigForSing) :
    d.write (d.write o) = d.write o := by
  simp only [write, getD_getD_self]
  rcases d.fallBackForALPN with _ | _ | entries
  · rfl
  · rfl
  · refine congrArg (FallBackConfigForSing.mk _) (Finmap.ext_lookup fun k => ?_)
    by_cases hk : k ∈ entries
    · rw [Finmap.lookup_union_left hk, Finmap.lookup_union_left hk]
    · rw [Finmap.lookup_union_right hk]

theorem MultiplexDocument.write_write (d : MultiplexDocument) (o : MultiplexConfig) :
    d.write (d.write o) = d.write o := by
  simp only [write, getD_getD_self]

theorem SingDocument.write_write (d : SingDocument) (o : SingOptions) :
    d.write (d.write o) = d.write o := by
  simp only [write, getD_getD_self, Member.into_into _ FallBackDocument.write_write,
    Member.into_into _ MultiplexDocument.write_write]

namespace OptionsDocument

theorem xrayBlock_xrayBlock (d : OptionsDocument) (p : Option XrayOptions) :
    d.xrayBlock (d.xrayBlock p) = d.xrayBlock p :=
  d.xrayOptions.into_into XrayDocument.write_write p

theorem singBlock_singBlock (d : OptionsDocument) (p : Option SingOptions) :
    d.singBlock (d.singBlock p) = d.singBlock p :=
  d.singOptions.into_into SingDocument.write_write p

end OptionsDocument

end Tox.Conf
