import Tox.Cmd.Server
import Tox.Conf.Options
import Tox.Core.SelectorOrder
import Tox.Core.SingInbound
import Tox.Core.XrayInbound

/-!
# The options that a core is called with

`NewCore` makes the server: the only core of the configuration, or a selector over several. The
options of a node are decoded when the configuration is read, and this fills the block of options of
the core that the member `Core` names. If it names none, the selector takes the type of the core
that it has selected and decodes the document again. A single core gets the options as they are.

The second decoding reads the member `Core` again. If the document has it with a text that is not
the name of a core, for example the empty text, the choice of the selector is undone, and the block
of the core is not filled. Nor is it if the options name a core of another type than their member
`Core`.
-/

namespace Tox.Core

open Tox.Foundation Tox.Panel Tox.Conf

/-! ### The kinds of cores -/

/-- The cores that the program registers. -/
inductive CoreKind
  | xray
  | sing
  | mieru
deriving DecidableEq, Repr

namespace CoreKind

/-- The result of `Type`, under which the core is also registered. -/
def name : CoreKind → String
  | .xray => "xray"
  | .sing => "sing"
  | .mieru => "mieru"

/-- What the core says of itself. -/
def description : CoreKind → CoreDescription
  | .xray => xrayDescription
  | .sing => singDescription
  | .mieru => mieruDescription

theorem type_description (kind : CoreKind) : kind.description.type = kind.name := by
  rcases kind <;> rfl

end CoreKind

/-- The block of options for one kind of core. The mieru core has none. -/
inductive Block
  | xray (options : Option XrayOptions)
  | sing (options : Option SingOptions)
  | absent

/-- The pointer of the block is nil. -/
def Block.IsNil : Block → Prop
  | .xray options => options = none
  | .sing options => options = none
  | .absent => False

end Tox.Core

namespace Tox.Conf

open Tox.Foundation Tox.Panel Tox.Core

/-! ### The blocks of a document -/

/-- The part of the options that the selector reads. -/
def Options.toCore (o : Options) : CoreOptions := ⟨o.coreName, o.core, o.rawOptions⟩

/-- The decoders of that part. -/
def OptionsJson.toLibrary (js : OptionsJson) : OptionsLibrary where
  unmarshal data o :=
    (⟨(js.read data).1.coreName.getD o.coreName, (js.read data).1.core.getD o.core, o.rawOptions⟩,
      (js.read data).2)
  unmarshalXray data := (js.read data).1.topXray.2
  unmarshalSing data := (js.read data).1.topSing.2

/-- The block for a kind of core. -/
def Options.block (o : Options) : CoreKind → Block
  | .xray => .xray o.xrayOptions
  | .sing => .sing o.singOptions
  | .mieru => .absent

theorem Options.block_core (o : Options) (core : String) (kind : CoreKind) :
    ({ o with core := core } : Options).block kind = o.block kind := by
  rcases kind <;> rfl

theorem Options.block_rawOptions (o : Options) (raw : Body) (kind : CoreKind) :
    ({ o with rawOptions := raw } : Options).block kind = o.block kind := by
  rcases kind <;> rfl

namespace OptionsDocument

/-- The block with the values of the document: the defaults and the members at the top level. -/
def values (d : OptionsDocument) : CoreKind → Block
  | .xray => .xray (some d.xrayValues)
  | .sing => .sing (some d.singValues)
  | .mieru => .absent

/-- The block after the member `XrayOptions` or `SingOptions` is decoded. -/
def nestedInto (d : OptionsDocument) (o : Options) : CoreKind → Block
  | .xray => .xray (d.xrayBlock o.xrayOptions)
  | .sing => .sing (d.singBlock o.singOptions)
  | .mieru => .absent

/-- The block under the member `XrayOptions` or `SingOptions`, which is nil without this member. -/
def nested (d : OptionsDocument) : CoreKind → Block := d.nestedInto {}

/-- The document is decoded into the block of this kind: its member `Core` names the kind, or there
is a selector and no such member. -/
def FromTop (d : OptionsDocument) (several : Prop) (kind : CoreKind) : Prop :=
  d.core = some kind.name ∨ several ∧ d.core = none

theorem not_isNil_values (d : OptionsDocument) (kind : CoreKind) : ¬ (d.values kind).IsNil := by
  rcases kind
  · exact nofun
  · exact nofun
  · exact id

/-- Decoding the member twice is like once. -/
theorem nestedInto_eq_nested {d : OptionsDocument} {o : Options} {kind : CoreKind}
    (h : o.block kind = d.nested kind) : d.nestedInto o kind = d.nested kind := by
  rcases kind
  · have hxray : o.xrayOptions = d.xrayBlock none := Block.xray.inj h
    exact congrArg Block.xray (by rw [hxray, xrayBlock_xrayBlock])
  · have hsing : o.singOptions = d.singBlock none := Block.sing.inj h
    exact congrArg Block.sing (by rw [hsing, singBlock_singBlock])
  · rfl

end OptionsDocument

/-! ### One decoding -/

/-- The names for which the document is not kept for later. -/
def IsCore (core : String) : Prop :=
  core = "xray" ∨ core = "sing" ∨ core = "hysteria2" ∨ core = "mieru"

instance : DecidablePred IsCore := fun core =>
  inferInstanceAs (Decidable (core = "xray" ∨ core = "sing" ∨ core = "hysteria2" ∨ core = "mieru"))

theorem isCore_name (kind : CoreKind) : IsCore kind.name := by
  rcases kind <;> decide

theorem not_isCore_empty : ¬ IsCore "" := by decide

/-- What `Options.UnmarshalJSON` makes of options when the document is read. -/
structure Decoded (d : OptionsDocument) (data : Body) (o o' : Options) : Prop where
  coreName : o'.coreName = d.coreName.getD o.coreName
  block : ∀ kind, o'.block kind =
    if d.core.getD o.core = kind.name then d.values kind else d.nestedInto o kind
  known : IsCore (d.core.getD o.core) → o'.core = d.core.getD o.core
  unknown : ¬ IsCore (d.core.getD o.core) → o'.core = "" ∧ o'.rawOptions = data

section Decoding

variable {js : OptionsJson} {data : Body} {d : OptionsDocument}

theorem decoded_unmarshalJSON (hread : js.read data = (d, none)) (o : Options) :
    Decoded d data o (o.unmarshalJSON js data).1 := by
  rw [Options.unmarshalJSON, hread]
  dsimp only
  by_cases hxray : d.core.getD o.core = "xray"
  · rw [if_pos (show (d.write o).core = "xray" from hxray)]
    refine ⟨rfl, fun kind => ?_, fun _ => rfl, fun h => absurd (Or.inl hxray) h⟩
    rw [hxray]
    rcases kind <;> rfl
  rw [if_neg (show ¬ (d.write o).core = "xray" from hxray)]
  by_cases hsing : d.core.getD o.core = "sing"
  · rw [if_pos (show (d.write o).core = "sing" from hsing)]
    refine ⟨rfl, fun kind => ?_, fun _ => rfl, fun h => absurd (Or.inr (Or.inl hsing)) h⟩
    rw [hsing]
    rcases kind <;> rfl
  rw [if_neg (show ¬ (d.write o).core = "sing" from hsing)]
  by_cases hraw : d.core.getD o.core = "hysteria2" ∨ d.core.getD o.core = "mieru"
  · rw [if_pos (show (d.write o).core = "hysteria2" ∨ (d.write o).core = "mieru" from hraw)]
    refine ⟨rfl, fun kind => ?_, fun _ => rfl, fun h => absurd (Or.inr (Or.inr hraw)) h⟩
    rcases hraw with hraw | hraw
    all_goals
      rw [hraw]
      rcases kind <;> rfl
  · have hcore : ¬ IsCore (d.core.getD o.core) := fun h =>
      h.elim hxray fun h => h.elim hsing hraw
    rw [if_neg (show ¬ ((d.write o).core = "hysteria2" ∨ (d.write o).core = "mieru") from hraw)]
    refine ⟨rfl, fun kind => ?_, fun h => absurd h hcore, fun _ => ⟨rfl, rfl⟩⟩
    rw [if_neg fun h : d.core.getD o.core = kind.name => hcore (h ▸ isCore_name kind)]
    rcases kind <;> rfl

/-- The blocks of the options that are decoded from the configuration. -/
theorem Decoded.block_eq {o : Options} (h : Decoded d data defaultOptions o) (kind : CoreKind) :
    (d.core = some kind.name → o.block kind = d.values kind) ∧
      (¬ d.core = some kind.name → o.block kind = d.nested kind) := by
  rw [h.block]
  constructor
  · intro hcore
    rw [hcore]
    exact if_pos rfl
  · intro hcore
    have hne : d.core.getD defaultOptions.core ≠ kind.name := by
      rcases hd : d.core with _ | c
      · exact fun hname : "" = kind.name => not_isCore_empty (hname ▸ isCore_name kind)
      · exact fun hname : c = kind.name => hcore (hname ▸ hd)
    rw [if_neg hne]
    rcases kind <;> rfl

/-- Nothing is decoded from the empty text. -/
theorem unmarshalJSON_nil (js : OptionsJson) (o : Options) :
    ∃ err, o.unmarshalJSON js [] = (o, some err) := by
  obtain ⟨err, hread⟩ := js.read_nil
  exact ⟨err, by rw [Options.unmarshalJSON, hread]; rfl⟩

/-- The decoding commutes with the projection to the part that the selector reads. -/
theorem toCore_unmarshalJSON (js : OptionsJson) (o : Options) (data : Body) :
    o.toCore.unmarshalJSON js.toLibrary data =
      ((o.unmarshalJSON js data).1.toCore, (o.unmarshalJSON js data).2) := by
  have hunmarshal : js.toLibrary.unmarshal data o.toCore =
      (((js.read data).1.write o).toCore, (js.read data).2) := rfl
  rw [CoreOptions.unmarshalJSON, Options.unmarshalJSON, hunmarshal]
  have hxray : js.toLibrary.unmarshalXray data = (js.read data).1.topXray.2 := rfl
  have hsing : js.toLibrary.unmarshalSing data = (js.read data).1.topSing.2 := rfl
  rw [hxray, hsing]
  rcases js.read data with ⟨d, _ | err⟩
  · have hcore : (d.write o).toCore.core = (d.write o).core := rfl
    dsimp only
    rw [hcore]
    split_ifs <;> rfl
  · rfl

end Decoding

end Tox.Conf

namespace Tox.Core

open Tox.Foundation Tox.Panel Tox.Conf
open Tox.Cmd (CoreConfig ServerLibrary)

/-! ### The server -/

/-- The map `cores`, which `RegisterCore` fills. -/
def cores (type : String) : Option CoreKind :=
  match type with
  | "xray" => some .xray
  | "sing" => some .sing
  | "mieru" => some .mieru
  | _ => none

/-- What `NewCore` returns. -/
inductive Server
  | single (c : CoreDescription)
  | selector (s : Selector)

section NewCore

-- `strings.ToLower`, and the error of the constructor of a core
variable (toLower : String → String) (new : CoreKind → CoreConfig → Option String)

/-- One pass of the loop of `NewSelector`. -/
def addCore (cs : GoMap String CoreDescription) (t : CoreConfig) :
    Except String (GoMap String CoreDescription) :=
  match cores (toLower t.type) with
  | none => .error ("unknown core type: " ++ t.type)
  | some kind =>
    match new kind t with
    | some err => .error err
    | none => .ok (cs.insert (if t.name = "" then t.type else t.name) kind.description)

/-- `NewSelector`. -/
def newSelector (c : List CoreConfig) : Except String Selector :=
  (c.foldlM (addCore toLower new) ∅).map fun cs => { cores := cs }

/-- `NewCore`. The type of a single core is looked up as it is. -/
def newCore (c : List CoreConfig) : Except String Server :=
  match c with
  | [] => .error "no have vail core"
  | [t] =>
    match cores t.type with
    | none => .error "unknown core type"
    | some kind =>
      match new kind t with
      | some err => .error err
      | none => .ok (.single kind.description)
  | c => (newSelector toLower new c).map .selector

end NewCore

/-- All cores are registered. -/
def Registered (cs : GoMap String CoreDescription) : Prop :=
  ∀ core c, cs.lookup core = some c → ∃ kind : CoreKind, c = kind.description

section NewCore

variable {toLower : String → String} {new : CoreKind → CoreConfig → Option String}

theorem Registered.addCore {cs cs' : GoMap String CoreDescription} (h : Registered cs)
    {t : CoreConfig} (hadd : Core.addCore toLower new cs t = .ok cs') : Registered cs' := by
  simp only [Core.addCore] at hadd
  split at hadd
  · cases hadd
  · rename_i kind _
    split at hadd
    · cases hadd
    · intro core c hc
      rw [← Except.ok.inj hadd, GoMap.lookup_insert] at hc
      by_cases hkey : core = if t.name = "" then t.type else t.name
      · rw [if_pos hkey] at hc
        exact ⟨kind, (Option.some.inj hc).symm⟩
      · rw [if_neg hkey] at hc
        exact h core c hc

theorem Registered.foldlM {cs cs' : GoMap String CoreDescription} (h : Registered cs)
    {c : List CoreConfig} (hfold : c.foldlM (Core.addCore toLower new) cs = .ok cs') :
    Registered cs' := by
  induction c generalizing cs with
  | nil => exact Except.ok.inj hfold ▸ h
  | cons t c ih =>
    rw [List.foldlM_cons] at hfold
    rcases hadd : Core.addCore toLower new cs t with err | cs₁
    · rw [hadd] at hfold
      cases hfold
    · rw [hadd] at hfold
      exact ih (h.addCore hadd) hfold

/-- A server is one registered core, or a selector over registered cores. -/
theorem of_newCore {c : List CoreConfig} {server : Server}
    (h : newCore toLower new c = .ok server) :
    (∃ kind : CoreKind, server = .single kind.description ∧ c.length = 1) ∨
      ∃ s, server = .selector s ∧ Registered s.cores ∧ 1 < c.length := by
  rcases c with _ | ⟨t, _ | ⟨t', c⟩⟩
  · cases h
  · simp only [newCore] at h
    split at h
    · cases h
    · rename_i kind _
      split at h
      · cases h
      · exact Or.inl ⟨kind, (Except.ok.inj h).symm, rfl⟩
  · simp only [newCore, newSelector] at h
    rcases hfold : (t :: t' :: c).foldlM (addCore toLower new) ∅ with err | cs
    · rw [hfold] at h
      cases h
    · rw [hfold] at h
      refine Or.inr ⟨{ cores := cs }, (Except.ok.inj h).symm, ?_, by simp⟩
      refine Registered.foldlM (fun core c hc => ?_) hfold
      rw [Finmap.lookup_empty] at hc
      cases hc

end NewCore

/-! ### Calls -/

/-- The options with which the selector calls a core, and the error of the decoding. -/
def Selector.resolveOptions (js : OptionsJson) (s : Selector) (option : Options) (core : String) :
    Options × Option String :=
  if option.core = "" then
    let type := ((s.cores.lookup core).map CoreDescription.type).getD ""
    match ({ option with core := type } : Options).unmarshalJSON js option.rawOptions with
    | (option, some err) => (option, some ("unmarshal option error: " ++ err))
    | (option, none) => ({ option with rawOptions := [] }, none)
  else (option, none)

namespace Server

/-- `AddNode` of the server: the options afterwards, and the call of a core with its options. -/
def addNode (js : OptionsJson) (range : RangeOrder String) (info : NodeInfo) (option : Options) :
    Server → Options × Option (CoreDescription × Options)
  | .single c => (option, some (c, option))
  | .selector s =>
    match s.selectCore range info option.toCore with
    | none => (option, none)
    | some core =>
      match s.resolveOptions js option core with
      | (option, some _) => (option, none)
      | (option, none) => (option, (s.cores.lookup core).map fun c => (c, option))

/-- The calls of cores during a run. The same options are used for each `AddNode`. -/
def deliveries (js : OptionsJson) (server : Server) :
    Options → List (RangeOrder String × NodeInfo) → List (CoreDescription × Options)
  | _, [] => []
  | option, (range, info) :: calls =>
    let (option', call) := server.addNode js range info option
    call.toList ++ server.deliveries js option' calls

end Server

namespace Selector

variable {js : OptionsJson} {s : Selector} {option : Options} {core : String}

/-- The part of the options that the selector reads is resolved as before. -/
theorem toCore_resolveOptions :
    s.resolve js.toLibrary option.toCore core =
      ((s.resolveOptions js option core).1.toCore, (s.resolveOptions js option core).2) := by
  rw [resolve, resolveOptions]
  by_cases hcore : option.core = ""
  · have hunmarshal (type : String) :
        ({ option.toCore with core := type } : CoreOptions).unmarshalJSON js.toLibrary
          option.toCore.rawOptions = _ :=
      toCore_unmarshalJSON js { option with core := type } option.rawOptions
    rw [if_pos hcore, if_pos (show option.toCore.core = "" from hcore)]
    dsimp only
    rw [hunmarshal]
    rcases Options.unmarshalJSON js _ _ with ⟨config, _ | err⟩ <;> rfl
  · rw [if_neg hcore, if_neg (show ¬ option.toCore.core = "" from hcore)]

/-- `Selector.AddNode` with the options of which it reads a part. -/
theorem addNode_toCore {range : RangeOrder String} {tag : String} {info : NodeInfo}
    {err : Option String} (h : s.selectCore range info option.toCore = some core) :
    s.addNode js.toLibrary range tag info option.toCore err =
      match s.resolveOptions js option core with
      | (option, some err) => (s, option.toCore, some err)
      | (option, none) => (s.install core tag info option.toCore err, option.toCore, err) := by
  rw [addNode_of_selectCore h, toCore_resolveOptions]
  rcases s.resolveOptions js option core with ⟨config, _ | err⟩ <;> rfl

/-- The options after a second decoding of the document, up to the raw ones. -/
theorem exists_resolveOptions {data : Body} {d : OptionsDocument} {c : CoreDescription}
    (hread : js.read data = (d, none)) (hempty : option.core = "")
    (hraw : option.rawOptions = data) (hc : s.cores.lookup core = some c) :
    ∃ o', Decoded d data { option with core := c.type } o' ∧
      ∃ raw, (s.resolveOptions js option core).1 = { o' with rawOptions := raw } ∧
        (raw = [] ∨ raw = o'.rawOptions) := by
  refine ⟨_, decoded_unmarshalJSON hread _, ?_⟩
  rw [resolveOptions, if_pos hempty, hc, hraw]
  dsimp only [Option.map_some, Option.getD_some]
  rcases Options.unmarshalJSON js _ _ with ⟨config, _ | err⟩
  · exact ⟨[], rfl, Or.inl rfl⟩
  · exact ⟨config.rawOptions, rfl, Or.inr rfl⟩

/-- If the document has been dropped, the decoding fails and leaves the type of the core behind. -/
theorem resolveOptions_of_rawOptions_nil {c : CoreDescription} (hempty : option.core = "")
    (hraw : option.rawOptions = []) (hc : s.cores.lookup core = some c) :
    (s.resolveOptions js option core).1 = { option with core := c.type } := by
  obtain ⟨err, herr⟩ := unmarshalJSON_nil js { option with core := c.type }
  rw [← hraw] at herr
  rw [resolveOptions, if_pos hempty, hc]
  dsimp only [Option.map_some, Option.getD_some]
  rw [herr]

end Selector

/-! ### The options during a run -/

/-- What the options of a node can be between two calls of the selector. -/
inductive Stage (s : Selector) (d : OptionsDocument) (data : Body) (o : Options) : Prop
  /-- The document has the member `Core`. The blocks do not change any more. -/
  | given {c : String} (hcore : d.core = some c)
    (hblock : ∀ kind : CoreKind,
      o.block kind = if c = kind.name then d.values kind else d.nested kind)
    (hempty : o.core = "" → ¬ IsCore c ∧ (o.rawOptions = data ∨ o.rawOptions = []))
  /-- The document does not have the member `Core`, and no core has been selected. -/
  | pending (hcore : d.core = none) (hempty : o.core = "") (hraw : o.rawOptions = data)
    (hname : d.coreName.getD o.coreName = o.coreName)
  /-- The document does not have the member `Core`, and a core has been selected. -/
  | chosen (hcore : d.core = none) (hempty : o.core ≠ "")
    (hblock : ∀ kind : CoreKind, o.core = kind.name → o.block kind = d.values kind)
    (hname : o.coreName ≠ "" → ∀ c, s.cores.lookup o.coreName = some c → c.type = o.core)

namespace Stage

variable {js : OptionsJson} {s : Selector} {d : OptionsDocument} {data : Body} {o : Options}

/-- The options of the configuration. -/
theorem of_decoded (h : Decoded d data defaultOptions o) : Stage s d data o := by
  rcases hcore : d.core with _ | c
  · have hgetD : d.core.getD defaultOptions.core = "" := by rw [hcore]; rfl
    have hunknown := h.unknown (hgetD ▸ not_isCore_empty)
    refine .pending hcore hunknown.1 hunknown.2 ?_
    rw [h.coreName, getD_getD_self]
  · have hgetD : d.core.getD defaultOptions.core = c := by rw [hcore]; rfl
    have hblock := h.block
    have hknown := h.known
    have hunknown := h.unknown
    rw [hgetD] at hblock hknown hunknown
    refine .given hcore hblock fun hempty => ?_
    have hc : ¬ IsCore c := fun hc => not_isCore_empty (hempty ▸ hknown hc ▸ hc)
    exact ⟨hc, Or.inl (hunknown hc).2⟩

/-- A core that is selected has the type in the options, if there is one and the options do not name
the core. -/
theorem type_eq_of_selectCore {range : RangeOrder String} {info : NodeInfo} {core : String}
    {c : CoreDescription} (h : Stage s d data o) (hcore : d.core = none) (hempty : o.core ≠ "")
    (hselect : s.selectCore range info o.toCore = some core) (hc : s.cores.lookup core = some c) :
    c.type = o.core := by
  obtain ⟨-, hcandidate⟩ := Selector.candidate_iff_exists_selectCore.mpr ⟨range, hselect⟩
  rcases h with ⟨hcore', -, -⟩ | ⟨-, hempty', -, -⟩ | ⟨-, -, -, hname⟩
  · rw [hcore] at hcore'
    cases hcore'
  · exact absurd hempty' hempty
  · by_cases hcoreName : o.coreName ≠ ""
    · rw [if_pos (show o.toCore.coreName ≠ "" from hcoreName)] at hcandidate
      exact hname hcoreName c (by rw [← hc, ← hcandidate]; rfl)
    · rw [if_neg (show ¬ o.toCore.coreName ≠ "" from hcoreName), hc] at hcandidate
      have hsuits : Selector.suits info o.toCore c = true := hcandidate
      rw [Selector.suits, if_neg (show ¬ o.toCore.core = "" from hempty), decide_eq_true_eq]
        at hsuits
      exact hsuits.symm

/-- The second decoding of a document with the member `Core` undoes the choice of the selector, and
a third one fails. -/
theorem given_resolveOptions (hread : js.read data = (d, none)) {c : String}
    (hcore : d.core = some c)
    (hblock : ∀ kind : CoreKind,
      o.block kind = if c = kind.name then d.values kind else d.nested kind)
    (hempty : o.core = "") (hc : ¬ IsCore c) (hraw : o.rawOptions = data ∨ o.rawOptions = [])
    {core : String} {kind : CoreKind} (hlookup : s.cores.lookup core = some kind.description) :
    Stage s d data (s.resolveOptions js o core).1 := by
  have hne : ∀ kind : CoreKind, c ≠ kind.name := fun kind h => hc (h ▸ isCore_name kind)
  rcases hraw with hraw | hraw
  · obtain ⟨o', hdecoded, raw, hresolve, hraw'⟩ :=
      Selector.exists_resolveOptions hread hempty hraw hlookup
    have hgetD : d.core.getD kind.description.type = c := by rw [hcore]; rfl
    have hunknown := hdecoded.unknown (hgetD ▸ hc)
    rw [hresolve]
    refine .given hcore (fun kind' => ?_) fun _ => ⟨hc, ?_⟩
    · have hblock' := hdecoded.block kind'
      rw [hgetD, if_neg (hne kind')] at hblock'
      rw [Options.block_rawOptions, hblock', if_neg (hne kind')]
      refine OptionsDocument.nestedInto_eq_nested ?_
      rw [Options.block_core, hblock, if_neg (hne kind')]
    · exact hraw'.symm.imp_left fun h => h.trans hunknown.2
  · rw [Selector.resolveOptions_of_rawOptions_nil hempty hraw hlookup]
    refine .given hcore (fun kind' => ?_) fun hempty' => ?_
    · rw [Options.block_core, hblock]
    · have htype : kind.description.type = "" := hempty'
      rw [CoreKind.type_description] at htype
      exact absurd (htype ▸ isCore_name kind) not_isCore_empty

/-- Without the member `Core` the document is decoded into the block of the core that the selector
has selected. -/
theorem chosen_resolveOptions (hread : js.read data = (d, none)) (hcore : d.core = none)
    (hempty : o.core = "") (hraw : o.rawOptions = data)
    (hname : d.coreName.getD o.coreName = o.coreName) {range : RangeOrder String} {info : NodeInfo}
    {core : String} {kind : CoreKind} (hselect : s.selectCore range info o.toCore = some core)
    (hlookup : s.cores.lookup core = some kind.description) :
    Stage s d data (s.resolveOptions js o core).1 ∧
      (s.resolveOptions js o core).1.core = kind.description.type := by
  obtain ⟨o', hdecoded, raw, hresolve, -⟩ :=
    Selector.exists_resolveOptions hread hempty hraw hlookup
  have hgetD : d.core.getD kind.description.type = kind.name := by
    rw [hcore, Option.getD_none, CoreKind.type_description]
  have hcore' : o'.core = kind.name := hgetD ▸ hdecoded.known (hgetD ▸ isCore_name kind)
  have hcoreName : o'.coreName = o.coreName := hdecoded.coreName.trans hname
  rw [hresolve, CoreKind.type_description]
  refine ⟨.chosen hcore ?_ (fun kind' hkind => ?_) fun hne c hc => ?_, hcore'⟩
  · exact fun h => not_isCore_empty (h ▸ hcore' ▸ isCore_name kind)
  · rw [Options.block_rawOptions, hdecoded.block, hgetD, if_pos (hcore'.symm.trans hkind)]
  · -- the options name the core that is selected
    obtain ⟨-, hcandidate⟩ := Selector.candidate_iff_exists_selectCore.mpr ⟨range, hselect⟩
    rw [if_pos (show o.toCore.coreName ≠ "" from fun h => hne (hcoreName.trans h))] at hcandidate
    have hlookup' : s.cores.lookup o'.coreName = some kind.description := by
      rw [← hlookup, ← hcandidate, hcoreName]
      rfl
    rw [Option.some.inj (hc.symm.trans hlookup'), CoreKind.type_description]
    exact hcore'.symm

/-- One call of the selector. -/
theorem resolveOptions (hread : js.read data = (d, none)) (hs : Registered s.cores)
    (h : Stage s d data o) {range : RangeOrder String} {info : NodeInfo} {core : String}
    {c : CoreDescription} (hselect : s.selectCore range info o.toCore = some core)
    (hlookup : s.cores.lookup core = some c) :
    Stage s d data (s.resolveOptions js o core).1 ∧
      (d.core = none → (s.resolveOptions js o core).1.core = c.type) := by
  by_cases hempty : o.core = ""
  · obtain ⟨kind, rfl⟩ := hs core c hlookup
    rcases h with ⟨hcore, hblock, hgiven⟩ | ⟨hcore, -, hraw, hname⟩ | ⟨-, hne, -, -⟩
    · obtain ⟨hc, hraw⟩ := hgiven hempty
      refine ⟨given_resolveOptions hread hcore hblock hempty hc hraw hlookup, fun hnone => ?_⟩
      rw [hnone] at hcore
      cases hcore
    · obtain ⟨hstage, htype⟩ :=
        chosen_resolveOptions hread hcore hempty hraw hname hselect hlookup
      exact ⟨hstage, fun _ => htype⟩
    · exact absurd hempty hne
  · rw [Selector.resolveOptions, if_neg hempty]
    exact ⟨h, fun hcore => (h.type_eq_of_selectCore hcore hempty hselect hlookup).symm⟩

/-- The block of the core that is called. -/
theorem block_eq {kind : CoreKind} (h : Stage s d data o)
    (hcore : d.core = none → o.core = kind.name) :
    (d.FromTop True kind → o.block kind = d.values kind) ∧
      (¬ d.FromTop True kind → o.block kind = d.nested kind) := by
  rcases h with ⟨hc, hblock, -⟩ | ⟨hnone, hempty, -, -⟩ | ⟨hnone, -, hblock, -⟩
  · rw [OptionsDocument.FromTop, hc, hblock]
    simp only [Option.some.injEq, reduceCtorEq, and_false, or_false]
    exact ⟨fun h => if_pos h, fun h => if_neg h⟩
  · have hname : kind.name = "" := (hcore hnone).symm.trans hempty
    exact absurd (hname ▸ isCore_name kind) not_isCore_empty
  · exact ⟨fun _ => hblock kind (hcore hnone), fun h => absurd (Or.inr ⟨trivial, hnone⟩) h⟩

end Stage

namespace Server

variable {js : OptionsJson} {s : Selector} {d : OptionsDocument} {data : Body}

/-- One call of the selector: the options afterwards, and the options of the core. -/
theorem stage_addNode (hread : js.read data = (d, none)) (hs : Registered s.cores) {o : Options}
    (h : Stage s d data o) (range : RangeOrder String) (info : NodeInfo) :
    Stage s d data ((Server.selector s).addNode js range info o).1 ∧
      ∀ c given, ((Server.selector s).addNode js range info o).2 = some (c, given) →
        Stage s d data given ∧ (d.core = none → given.core = c.type) ∧
          ∃ kind : CoreKind, c = kind.description := by
  simp only [addNode]
  rcases hselect : s.selectCore range info o.toCore with _ | core
  · exact ⟨h, fun c given hcall => by cases hcall⟩
  · obtain ⟨c, hlookup⟩ := Finmap.mem_iff.mp (Selector.mem_of_selectCore hselect)
    obtain ⟨hstage, htype⟩ := h.resolveOptions hread hs hselect hlookup
    dsimp only
    rcases hresolve : s.resolveOptions js o core with ⟨option, _ | err⟩
    · rw [hresolve] at hstage htype
      refine ⟨hstage, fun c' given hcall => ?_⟩
      rw [hlookup] at hcall
      obtain ⟨rfl, rfl⟩ := Prod.mk.inj (Option.some.inj hcall)
      exact ⟨hstage, htype, hs core c hlookup⟩
    · rw [hresolve] at hstage
      exact ⟨hstage, fun c given hcall => by cases hcall⟩

/-- The calls of cores during a run of the selector. -/
theorem of_mem_deliveries_selector (hread : js.read data = (d, none)) (hs : Registered s.cores)
    {o : Options} (h : Stage s d data o) {calls : List (RangeOrder String × NodeInfo)}
    {c : CoreDescription} {given : Options}
    (hcall : (c, given) ∈ (Server.selector s).deliveries js o calls) :
    Stage s d data given ∧ (d.core = none → given.core = c.type) ∧
      ∃ kind : CoreKind, c = kind.description := by
  induction calls generalizing o with
  | nil => cases hcall
  | cons call calls ih =>
    obtain ⟨hstage, hgiven⟩ := stage_addNode hread hs h call.1 call.2
    rcases List.mem_append.mp hcall with hcall | hcall
    · exact hgiven c given (Option.mem_toList.mp hcall)
    · exact ih hstage hcall

theorem of_mem_deliveries_single {k c : CoreDescription} {o given : Options}
    {calls : List (RangeOrder String × NodeInfo)}
    (hcall : (c, given) ∈ (Server.single k).deliveries js o calls) : c = k ∧ given = o := by
  induction calls with
  | nil => cases hcall
  | cons call calls ih =>
    rcases List.mem_append.mp hcall with hcall | hcall
    · exact Prod.mk.inj (List.mem_singleton.mp hcall)
    · exact ih hcall

/-- **The block that a core is called with.** It is made of the members at the top level or of those
under `XrayOptions` or `SingOptions`. -/
theorem block_of_mem_deliveries {toLower : String → String}
    {new : CoreKind → CoreConfig → Option String} {configs : List CoreConfig} {server : Server}
    (hserver : newCore toLower new configs = .ok server) {option : Options}
    (hoption : defaultOptions.unmarshalJSON js data = (option, none))
    {calls : List (RangeOrder String × NodeInfo)} {c : CoreDescription} {given : Options}
    (hcall : (c, given) ∈ server.deliveries js option calls) :
    ∃ kind : CoreKind, c = kind.description ∧
      ((js.read data).1.FromTop (1 < configs.length) kind →
        given.block kind = (js.read data).1.values kind) ∧
      (¬ (js.read data).1.FromTop (1 < configs.length) kind →
        given.block kind = (js.read data).1.nested kind) := by
  obtain ⟨d, hread⟩ : ∃ d, js.read data = (d, none) := by
    rw [Options.unmarshalJSON] at hoption
    rcases hread : js.read data with ⟨d, _ | err⟩
    · exact ⟨d, rfl⟩
    · rw [hread] at hoption
      cases (Prod.mk.inj hoption).2
  have hdecoded := decoded_unmarshalJSON hread defaultOptions
  rw [hoption] at hdecoded
  rw [hread]
  rcases of_newCore hserver with ⟨kind, rfl, hlength⟩ | ⟨s, rfl, hs, hlength⟩
  · obtain ⟨rfl, rfl⟩ := of_mem_deliveries_single hcall
    have hsingle : (d.FromTop (1 < configs.length) kind) ↔ d.core = some kind.name := by
      simp only [OptionsDocument.FromTop, hlength, lt_irrefl, false_and, or_false]
    refine ⟨kind, rfl, ?_⟩
    rw [hsingle]
    exact hdecoded.block_eq kind
  · obtain ⟨hstage, htype, kind, rfl⟩ :=
      of_mem_deliveries_selector hread hs (Stage.of_decoded hdecoded) hcall
    refine ⟨kind, rfl, ?_⟩
    rw [CoreKind.type_description] at htype
    simpa only [OptionsDocument.FromTop, hlength] using hstage.block_eq htype

/-- **Options that are not resolved.** Let a server be made and the options of a node be decoded.
When a core is called during any run, the block of its kind holds the values of the document if and
only if the member `Core` names the kind, or there are several cores and no member `Core`, or the
block under `XrayOptions` or `SingOptions` happens to hold them. Without this block the pointer is
nil in the other cases. Then the xray core does not build the inbound, and `buildOutbound`
panics. -/
theorem resolved_iff {toLower : String → String}
    {new : CoreKind → CoreConfig → Option String} {configs : List CoreConfig} {server : Server}
    (hserver : newCore toLower new configs = .ok server) {option : Options}
    (hoption : defaultOptions.unmarshalJSON js data = (option, none))
    {calls : List (RangeOrder String × NodeInfo)} {c : CoreDescription} {given : Options}
    (hcall : (c, given) ∈ server.deliveries js option calls) :
    ∃ kind : CoreKind, c = kind.description ∧
      (given.block kind = (js.read data).1.values kind ↔
        (js.read data).1.FromTop (1 < configs.length) kind ∨
          (js.read data).1.nested kind = (js.read data).1.values kind) ∧
      ((given.block kind).IsNil ↔
        ¬ (js.read data).1.FromTop (1 < configs.length) kind ∧
          ((js.read data).1.nested kind).IsNil) ∧
      (kind = .xray →
        (∀ lib tag,
          Outcome.Panics (XrayInbound.buildOutbound lib given tag) ↔ (given.block kind).IsNil) ∧
        ((given.block kind).IsNil → ∀ lib random info tag inbound,
          XrayInbound.buildInbound lib random given info tag ≠ .ok inbound)) := by
  obtain ⟨kind, rfl, htop, hnested⟩ := block_of_mem_deliveries hserver hoption hcall
  refine ⟨kind, rfl, ?_, ?_, ?_⟩
  · by_cases h : (js.read data).1.FromTop (1 < configs.length) kind
    · exact iff_of_true (htop h) (Or.inl h)
    · rw [hnested h, or_iff_right h]
  · by_cases h : (js.read data).1.FromTop (1 < configs.length) kind
    · rw [htop h]
      exact iff_of_false ((js.read data).1.not_isNil_values kind) fun hnil => hnil.1 h
    · rw [hnested h, and_iff_right h]
  · rintro rfl
    refine ⟨fun lib tag => XrayInbound.panics_buildOutbound_iff, fun hnil => ?_⟩
    exact fun lib random info tag inbound h =>
      XrayInbound.xrayOptions_ne_none_of_buildInbound h hnil

/-- A decoder that knows the texts of a few options and refuses all others. -/
def fewOptions : OptionsJson where
  read data :=
    match readText [("\x7b\x7d", {}),
        ("\x7b\"CoreName\":\"xray\"\x7d", { coreName := some "xray" }),
        ("\x7b\"Core\":\"\"\x7d", { core := some "" }),
        ("\x7b\"Core\":\"sing\",\"CoreName\":\"xray\"\x7d",
          { core := some "sing", coreName := some "xray" })] data with
    | .ok d => (d, none)
    | .error err => ({}, some err)
  read_nil := ⟨_, rfl⟩

/-- The core is called with the options when the node is added with the options of the text to a
server of cores with the given types. -/
def Delivers (types : List String) (text : String) (info : NodeInfo) (c : CoreDescription)
    (given : Options) : Prop :=
  ∃ server option,
    newCore id (fun _ _ => none) (types.map fun type => { type := type }) = .ok server ∧
    defaultOptions.unmarshalJSON fewOptions (bytesOf text) = (option, none) ∧
    server.deliveries fewOptions option [(RangeOrder.ascending, info)] = [(c, given)]

/-- With two cores and no member `Core` the block of the core that the options name holds the values
of the document. -/
theorem resolved_iff_named :
    ∃ given, Delivers ["xray", "sing"] "\x7b\"CoreName\":\"xray\"\x7d" { id := 1, type := .vless }
        xrayDescription given ∧
      given.block .xray = OptionsDocument.values { coreName := some "xray" } .xray := by
  obtain ⟨given, server, option, hserver, hoption, hcalls⟩ : ∃ given, Delivers ["xray", "sing"]
      "\x7b\"CoreName\":\"xray\"\x7d" { id := 1, type := .vless } xrayDescription given :=
    ⟨_, _, _, rfl, rfl, rfl⟩
  have hcall : (xrayDescription, given) ∈ server.deliveries _ option _ :=
    hcalls ▸ List.mem_singleton_self _
  obtain ⟨kind, hkind, hresolved, -⟩ := resolved_iff hserver hoption hcall
  obtain rfl : kind = .xray := by
    rcases kind
    · rfl
    · exact absurd hkind (by decide)
    · exact absurd hkind (by decide)
  exact ⟨given, ⟨server, option, hserver, hoption, hcalls⟩,
    hresolved.mpr (Or.inl (Or.inr ⟨by decide, rfl⟩))⟩

/-- A vless node over tcp. -/
def tcpInfo : Except Failure ProtocolInfo :=
  vlessInfo "\"network\":\"tcp\",\"networkSettings\":\x7b\x7d" (tcpNode (bytesOf "\x7b\x7d"))

/-- **Cores without their options.** A single core whose options have no member `Core`; two cores
and the member `Core` with the empty text, which the second decoding reads again; and options that
name a core of another type than their member `Core`. The xray core panics on a vless node, and a
single sing core on a trojan node. -/
theorem options_not_resolved :
    (∃ info : ProtocolInfo, ∃ given, tcpInfo = .ok info ∧
      Delivers ["xray"] "\x7b\x7d" info.toNodeInfo xrayDescription given ∧
      XrayInbound.buildInbound XrayInbound.plainLibrary (.ok []) given info "node" =
        .error (.panic .nilDereference)) ∧
    (∃ info : ProtocolInfo, ∃ given, tcpInfo = .ok info ∧
      Delivers ["xray", "mieru"] "\x7b\"Core\":\"\"\x7d" info.toNodeInfo xrayDescription given ∧
      XrayInbound.buildInbound XrayInbound.plainLibrary (.ok []) given info "node" =
        .error (.panic .nilDereference)) ∧
    (∃ info : ProtocolInfo, ∃ given, tcpInfo = .ok info ∧
      Delivers ["xray", "sing"] "\x7b\"Core\":\"sing\",\"CoreName\":\"xray\"\x7d" info.toNodeInfo
        xrayDescription given ∧
      XrayInbound.buildInbound XrayInbound.plainLibrary (.ok []) given info "node" =
        .error (.panic .nilDereference)) ∧
    ∃ info : ProtocolInfo, ∃ given, trojanInfo 443 = .ok info ∧
      Delivers ["sing"] "\x7b\x7d" info.toNodeInfo singDescription given ∧
      SingInbound.getInboundOptions SingInbound.plainLibrary RangeOrder.ascending "node" info
        given = .error (.panic .nilDereference) := by
  rw [tcpInfo, vlessInfo_eq, trojanInfo_eq]
  exact ⟨⟨_, _, rfl, ⟨_, _, rfl, rfl, rfl⟩, rfl⟩, ⟨_, _, rfl, ⟨_, _, rfl, rfl, rfl⟩, rfl⟩,
    ⟨_, _, rfl, ⟨_, _, rfl, rfl, rfl⟩, rfl⟩, ⟨_, _, rfl, ⟨_, _, rfl, rfl, rfl⟩, rfl⟩⟩

end Server

end Tox.Core
