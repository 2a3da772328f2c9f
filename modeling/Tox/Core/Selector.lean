import Mathlib
import Tox.Foundation.Run
import Tox.Panel.Node

/-!
# The selector

With several cores the program uses a `Selector`, which is a core itself and passes every call on to
one of the others. A node is given to the core that its options name, or to one of the right type,
or to one that supports its protocol. The selector remembers the core of a node under its tag, and
all later calls for the tag go there.

The calls that reach the cores are recorded in the order in which they are made. The table of the
selector is right when it can be read off this record: the tag is routed to a core exactly if the
last `AddNode` of the core for the tag was successful and no `DelNode` has been since.
-/

namespace Tox.Core

open Tox.Foundation Tox.Panel

/-! ### Options -/

/-- The parts of `conf.Options` that the selector uses. -/
structure CoreOptions where
  coreName : String := ""
  core : String := ""
  rawOptions : Body := []
deriving DecidableEq, Repr

/-- The decoders of the options. -/
structure OptionsLibrary where
  /-- `json.Unmarshal` into the options. It may fail after it has set some of the fields. -/
  unmarshal : Body → CoreOptions → CoreOptions × Option String
  unmarshalXray : Body → Option String
  unmarshalSing : Body → Option String

/-- `Options.UnmarshalJSON`. -/
def CoreOptions.unmarshalJSON (lib : OptionsLibrary) (o : CoreOptions) (data : Body) :
    CoreOptions × Option String :=
  match lib.unmarshal data o with
  | (o, some err) => (o, some err)
  | (o, none) =>
    if o.core = "xray" then (o, lib.unmarshalXray data)
    else if o.core = "sing" then (o, lib.unmarshalSing data)
    else if o.core = "hysteria2" ∨ o.core = "mieru" then ({ o with rawOptions := data }, none)
    else ({ o with core := "", rawOptions := data }, none)

/-! ### The selector -/

/-- What a core says of itself. -/
structure CoreDescription where
  type : String
  protocols : List String
deriving DecidableEq, Repr

/-- The calls of a core. -/
inductive CoreCall
  | addNode (tag : String) (info : NodeInfo) (config : CoreOptions)
  | delNode (tag : String)
  | addUsers (tag : String) (users : List UserInfo) (info : NodeInfo)
  | getUserTrafficSlice (tag : String) (reset : Bool)
  | delUsers (users : List UserInfo) (tag : String) (info : NodeInfo)

/-- A call that has reached a core, and the error that the core has returned. -/
structure Delivery where
  core : String
  call : CoreCall
  err : Option String

/-- `core.Selector`. A core is given by its name. -/
structure Selector where
  cores : GoMap String CoreDescription
  nodes : GoMap String String := ∅
  /-- The calls that have reached the cores, the last one at the end. -/
  log : List Delivery := []

/-- `isSupported`. -/
def isSupported (protocol : String) (protocols : List String) : Bool :=
  protocols.any fun p => protocol = p

namespace Selector

/-- A call reaches a core. -/
def deliver (s : Selector) (core : String) (call : CoreCall) (err : Option String) : Selector :=
  { s with log := s.log ++ [⟨core, call, err⟩] }

/-- Whether the loop of `AddNode` takes a core: it has the type in the options or, without one,
supports the protocol. -/
def suits (info : NodeInfo) (option : CoreOptions) (c : CoreDescription) : Bool :=
  if option.core = "" then isSupported info.type.name c.protocols else option.core = c.type

/-- The core for a node: the one with the name in the options, or else the last one of the range
that suits. -/
def selectCore (s : Selector) (range : RangeOrder String) (info : NodeInfo) (option : CoreOptions) :
    Option String :=
  if option.coreName ≠ "" then
    if option.coreName ∈ s.cores then some option.coreName else none
  else
    (range.keys s.cores).foldl (fun core name =>
      if (s.cores.lookup name).any (suits info option) then some name else core) none

/-- The end of `Selector.AddNode`: the call of the core, and the entry in the table. -/
def install (s : Selector) (core tag : String) (info : NodeInfo) (option : CoreOptions)
    (err : Option String) : Selector :=
  let s := s.deliver core (.addNode tag info option) err
  match err with
  | some _ => s
  | none => { s with nodes := s.nodes.insert tag core }

/-- `Selector.AddNode`: the selector, the options afterwards, and the error. `err` is what the core
returns if it is called. -/
def addNode (lib : OptionsLibrary) (s : Selector) (range : RangeOrder String) (tag : String)
    (info : NodeInfo) (option : CoreOptions) (err : Option String) :
    Selector × CoreOptions × Option String :=
  match s.selectCore range info option with
  | none => (s, option, some "the node type is not support")
  | some core =>
    if option.core = "" then
      let type := ((s.cores.lookup core).map CoreDescription.type).getD ""
      match ({ option with core := type } : CoreOptions).unmarshalJSON lib option.rawOptions with
      | (option, some err) => (s, option, some ("unmarshal option error: " ++ err))
      | (option, none) =>
        let option := { option with rawOptions := [] }
        (s.install core tag info option err, option, err)
    else (s.install core tag info option err, option, err)

/-- `Selector.DelNode`. -/
def delNode (s : Selector) (tag : String) (err : Option String) : Selector × Option String :=
  match s.nodes.lookup tag with
  | none => (s, some "the node is not have")
  | some core =>
    let s := s.deliver core (.delNode tag) err
    match err with
    | some err => (s, some err)
    | none => ({ s with nodes := s.nodes.erase tag }, none)

/-- `Selector.AddUsers`; `answer` is what the core returns if it is called. -/
def addUsers (s : Selector) (tag : String) (users : List UserInfo) (info : NodeInfo)
    (answer : ℤ × Option String) : Selector × ℤ × Option String :=
  match s.nodes.lookup tag with
  | none => (s, 0, some "the node is not have")
  | some core => (s.deliver core (.addUsers tag users info) answer.2, answer)

/-- `Selector.GetUserTrafficSlice`. -/
def getUserTrafficSlice (s : Selector) (tag : String) (reset : Bool)
    (answer : List UserTraffic × Option String) : Selector × List UserTraffic × Option String :=
  match s.nodes.lookup tag with
  | none => (s, [], some "the node is not have")
  | some core => (s.deliver core (.getUserTrafficSlice tag reset) answer.2, answer)

/-- `Selector.DelUsers`. -/
def delUsers (s : Selector) (users : List UserInfo) (tag : String) (info : NodeInfo)
    (err : Option String) : Selector × Option String :=
  match s.nodes.lookup tag with
  | none => (s, some "the node is not have")
  | some core => (s.deliver core (.delUsers users tag info) err, err)

end Selector

/-- The calls of the selector, with what the core answers if it is called. -/
inductive SelectorEvent
  | addNode (range : RangeOrder String) (tag : String) (info : NodeInfo) (option : CoreOptions)
    (err : Option String)
  | delNode (tag : String) (err : Option String)
  | addUsers (tag : String) (users : List UserInfo) (info : NodeInfo) (answer : ℤ × Option String)
  | getUserTrafficSlice (tag : String) (reset : Bool) (answer : List UserTraffic × Option String)
  | delUsers (users : List UserInfo) (tag : String) (info : NodeInfo) (err : Option String)

namespace Selector

/-- The selector after a call. -/
def step (lib : OptionsLibrary) (s : Selector) : SelectorEvent → Selector
  | .addNode range tag info option err => (s.addNode lib range tag info option err).1
  | .delNode tag err => (s.delNode tag err).1
  | .addUsers tag users info answer => (s.addUsers tag users info answer).1
  | .getUserTrafficSlice tag reset answer => (s.getUserTrafficSlice tag reset answer).1
  | .delUsers users tag info err => (s.delUsers users tag info err).1

/-- Nodes are added under new tags only. -/
def AddsNew (s : Selector) : SelectorEvent → Prop
  | .addNode _ tag _ _ _ => tag ∉ s.nodes
  | _ => True

instance (s : Selector) : (e : SelectorEvent) → Decidable (s.AddsNew e)
  | .addNode .. => inferInstanceAs (Decidable (_ ∉ _))
  | .delNode .. => inferInstanceAs (Decidable True)
  | .addUsers .. => inferInstanceAs (Decidable True)
  | .getUserTrafficSlice .. => inferInstanceAs (Decidable True)
  | .delUsers .. => inferInstanceAs (Decidable True)

end Selector

/-! ### What the record says -/

namespace Delivery

/-- The call is an `AddNode` of the core for the tag. -/
def Adds (d : Delivery) (tag core : String) : Prop :=
  d.core = core ∧ ∃ info config, d.call = .addNode tag info config

/-- The call is a `DelNode` of the core for the tag that has succeeded. -/
def Removes (d : Delivery) (tag core : String) : Prop :=
  d.core = core ∧ d.call = .delNode tag ∧ d.err = none

end Delivery

/-- The last `AddNode` of the core for the tag was successful, and no successful `DelNode` has
followed. -/
def Installed (tag core : String) (log : List Delivery) : Prop :=
  ∃ before d after, log = before ++ d :: after ∧ d.Adds tag core ∧ d.err = none ∧
    ∀ d' ∈ after, ¬ d'.Adds tag core ∧ ¬ d'.Removes tag core

/-- One more call decides by itself if it is about the tag and the core, and leaves the answer as it
was otherwise. -/
theorem installed_append_singleton (tag core : String) (log : List Delivery) (d : Delivery) :
    Installed tag core (log ++ [d]) ↔
      (d.Adds tag core ∧ d.err = none) ∨
        (¬ d.Adds tag core ∧ ¬ d.Removes tag core ∧ Installed tag core log) := by
  constructor
  · rintro ⟨before, a, after, hlog, hadds, herr, hafter⟩
    rcases List.eq_nil_or_concat after with rfl | ⟨after, last, rfl⟩
    · obtain ⟨-, hd⟩ := List.append_inj' hlog rfl
      rw [(List.cons.inj hd).1]
      exact Or.inl ⟨hadds, herr⟩
    · rw [List.concat_eq_append] at hlog hafter
      have hsplit : log ++ [d] = (before ++ a :: after) ++ [last] := by
        rw [hlog, List.append_assoc, List.cons_append]
      obtain ⟨hinit, hd⟩ := List.append_inj' hsplit rfl
      rw [(List.cons.inj hd).1]
      obtain ⟨hnotAdds, hnotRemoves⟩ := hafter last (by simp)
      exact Or.inr ⟨hnotAdds, hnotRemoves, before, a, after, hinit, hadds, herr,
        fun d' hd' => hafter d' (List.mem_append_left _ hd')⟩
  · rintro (⟨hadds, herr⟩ | ⟨hnotAdds, hnotRemoves, before, a, after, hlog, hadds, herr, hafter⟩)
    · exact ⟨log, d, [], rfl, hadds, herr, fun d' hd' => absurd hd' List.not_mem_nil⟩
    · refine ⟨before, a, after ++ [d], ?_, hadds, herr, fun d' hd' => ?_⟩
      · rw [hlog, List.append_assoc, List.cons_append]
      · rcases List.mem_append.mp hd' with hold | hnew
        · exact hafter d' hold
        · rw [List.mem_singleton.mp hnew]
          exact ⟨hnotAdds, hnotRemoves⟩

/-- An `AddNode` of a core decides for its tag and that core. -/
theorem installed_append_addNode (tag core : String) (log : List Delivery) {tag' core' : String}
    {info : NodeInfo} {option : CoreOptions} {err : Option String} :
    Installed tag core (log ++ [⟨core', .addNode tag' info option, err⟩]) ↔
      if core' = core ∧ tag' = tag then err = none else Installed tag core log := by
  have hadds : Delivery.Adds ⟨core', .addNode tag' info option, err⟩ tag core ↔
      core' = core ∧ tag' = tag := by
    simp [Delivery.Adds]
  have hremoves : ¬ Delivery.Removes ⟨core', .addNode tag' info option, err⟩ tag core := by
    rintro ⟨-, hcall, -⟩
    cases hcall
  rw [installed_append_singleton, hadds, and_iff_right hremoves]
  by_cases hsame : core' = core ∧ tag' = tag
  · rw [if_pos hsame, and_iff_right hsame, or_iff_left fun hc => hc.1 hsame]
  · rw [if_neg hsame, or_iff_right fun hc => hsame hc.1, and_iff_right hsame]

/-- A `DelNode` of a core that succeeds takes away its tag from that core. -/
theorem installed_append_delNode (tag core : String) (log : List Delivery) {tag' core' : String} :
    Installed tag core (log ++ [⟨core', .delNode tag', none⟩]) ↔
      ¬ (core' = core ∧ tag' = tag) ∧ Installed tag core log := by
  have hadds : ¬ Delivery.Adds ⟨core', .delNode tag', none⟩ tag core := by
    rintro ⟨-, info, config, hcall⟩
    cases hcall
  have hremoves : Delivery.Removes ⟨core', .delNode tag', none⟩ tag core ↔
      core' = core ∧ tag' = tag := by
    simp [Delivery.Removes]
  rw [installed_append_singleton, or_iff_right fun hc => hadds hc.1, and_iff_right hadds, hremoves]

/-! ### The table agrees with the record -/

namespace Selector

/-- The table routes the tags as the record says, to cores that there are. -/
structure Routes (s : Selector) : Prop where
  nodes : ∀ tag core, s.nodes.lookup tag = some core ↔ Installed tag core s.log
  mem : ∀ tag core, s.nodes.lookup tag = some core → core ∈ s.cores

variable {s : Selector}

/-- A core that is selected is one of the cores. -/
theorem mem_of_selectCore {range : RangeOrder String} {info : NodeInfo} {option : CoreOptions}
    {core : String} (h : s.selectCore range info option = some core) : core ∈ s.cores := by
  rw [selectCore] at h
  by_cases hname : option.coreName ≠ ""
  · rw [if_pos hname] at h
    split_ifs at h with hmem
    exact Option.some.inj h ▸ hmem
  · rw [if_neg hname] at h
    -- the core found so far is one of the cores, whichever the loop has seen
    refine List.foldlRecOn (motive := fun found => ∀ core, found = some core → core ∈ s.cores)
      (range.keys s.cores) _ (fun _ hnone => absurd hnone (by simp)) ?_ core h
    intro found hfound name hmem core hcore
    split_ifs at hcore
    · exact Option.some.inj hcore ▸ (range.mem_keys s.cores name).mp hmem
    · exact hfound core hcore

/-- A call that is neither an `AddNode` nor a successful `DelNode` changes no route. -/
theorem Routes.deliver (h : s.Routes) {core : String} {call : CoreCall} {err : Option String}
    (hcall : ∀ tag core', ¬ Delivery.Adds ⟨core, call, err⟩ tag core' ∧
      ¬ Delivery.Removes ⟨core, call, err⟩ tag core') : (s.deliver core call err).Routes where
  nodes := fun tag core' => by
    obtain ⟨hadds, hremoves⟩ := hcall tag core'
    rw [Selector.deliver, installed_append_singleton, or_iff_right fun hc => hadds hc.1,
      and_iff_right hadds, and_iff_right hremoves]
    exact h.nodes tag core'
  mem := h.mem

/-- An `AddNode` that reaches a core decides for that core, and the tag had no route before. -/
theorem Routes.install (h : s.Routes) {core tag : String} (hcore : core ∈ s.cores)
    (hnew : tag ∉ s.nodes) (info : NodeInfo) (option : CoreOptions) (err : Option String) :
    (s.install core tag info option err).Routes := by
  have hnone : s.nodes.lookup tag = none := Finmap.lookup_eq_none.mpr hnew
  cases err with
  | some e =>
    refine ⟨fun tag' core' => ?_, h.mem⟩
    rw [Selector.install, Selector.deliver, installed_append_addNode]
    split_ifs with hsame
    · rw [← hsame.2]
      simp [hnone]
    · exact h.nodes tag' core'
  | none =>
    refine ⟨fun tag' core' => ?_, fun tag' core' => ?_⟩
    · rw [Selector.install, Selector.deliver, installed_append_addNode, GoMap.lookup_insert]
      by_cases htag : tag' = tag
      · subst htag
        rw [if_pos rfl, Option.some_inj]
        by_cases hc : core = core'
        · simp [hc]
        · rw [if_neg fun hsame => hc hsame.1, ← h.nodes, hnone]
          exact iff_of_false hc nofun
      · rw [if_neg htag, if_neg fun hsame => htag hsame.2.symm]
        exact h.nodes tag' core'
    · rw [Selector.install, Selector.deliver, GoMap.lookup_insert]
      split_ifs
      · rintro ⟨⟩
        exact hcore
      · exact h.mem tag' core'

theorem Routes.addNode (h : s.Routes) (lib : OptionsLibrary) (range : RangeOrder String)
    {tag : String} (hnew : tag ∉ s.nodes) (info : NodeInfo) (option : CoreOptions)
    (err : Option String) : (s.addNode lib range tag info option err).1.Routes := by
  unfold Selector.addNode
  cases hselect : s.selectCore range info option with
  | none => exact h
  | some core =>
    have hcore := mem_of_selectCore hselect
    dsimp only
    split_ifs
    · split
      · exact h
      · exact h.install hcore hnew info _ err
    · exact h.install hcore hnew info option err

/-- A `DelNode` reaches the core of the tag, and takes the route away if it succeeds. -/
theorem Routes.delNode (h : s.Routes) (tag : String) (err : Option String) :
    (s.delNode tag err).1.Routes := by
  unfold Selector.delNode
  cases hnode : s.nodes.lookup tag with
  | none => exact h
  | some core =>
    cases err with
    | some e => exact h.deliver fun tag' core' => by simp [Delivery.Adds, Delivery.Removes]
    | none =>
      refine ⟨fun tag' core' => ?_, fun tag' core' => ?_⟩
      · dsimp only [Selector.deliver]
        rw [installed_append_delNode, GoMap.lookup_erase, ← h.nodes]
        by_cases htag : tag' = tag
        · subst htag
          rw [if_pos rfl, hnode, Option.some_inj]
          exact iff_of_false nofun fun hc => hc.1 ⟨hc.2, rfl⟩
        · rw [if_neg htag, and_iff_right fun hc => htag hc.2.symm]
      · dsimp only [Selector.deliver]
        rw [GoMap.lookup_erase]
        split_ifs
        · exact nofun
        · exact h.mem tag' core'

theorem Routes.addUsers (h : s.Routes) (tag : String) (users : List UserInfo) (info : NodeInfo)
    (answer : ℤ × Option String) : (s.addUsers tag users info answer).1.Routes := by
  unfold Selector.addUsers
  split
  · exact h
  · exact h.deliver fun tag' core' => by simp [Delivery.Adds, Delivery.Removes]

theorem Routes.getUserTrafficSlice (h : s.Routes) (tag : String) (reset : Bool)
    (answer : List UserTraffic × Option String) :
    (s.getUserTrafficSlice tag reset answer).1.Routes := by
  unfold Selector.getUserTrafficSlice
  split
  · exact h
  · exact h.deliver fun tag' core' => by simp [Delivery.Adds, Delivery.Removes]

theorem Routes.delUsers (h : s.Routes) (users : List UserInfo) (tag : String) (info : NodeInfo)
    (err : Option String) : (s.delUsers users tag info err).1.Routes := by
  unfold Selector.delUsers
  split
  · exact h
  · exact h.deliver fun tag' core' => by simp [Delivery.Adds, Delivery.Removes]

/-- **One call.** The table goes on to agree with the record. -/
theorem Routes.step (h : s.Routes) (lib : OptionsLibrary) {e : SelectorEvent} (he : s.AddsNew e) :
    (s.step lib e).Routes := by
  cases e with
  | addNode range tag info option err => exact h.addNode lib range he info option err
  | delNode tag err => exact h.delNode tag err
  | addUsers tag users info answer => exact h.addUsers tag users info answer
  | getUserTrafficSlice tag reset answer => exact h.getUserTrafficSlice tag reset answer
  | delUsers users tag info err => exact h.delUsers users tag info err

theorem routes_start (cores : GoMap String CoreDescription) : Routes { cores := cores } := by
  refine ⟨fun tag core => iff_of_false (by simp) ?_, fun tag core hnode => ?_⟩
  · rintro ⟨before, d, after, hlog, -⟩
    exact List.cons_ne_nil _ _ (List.append_eq_nil_iff.mp hlog.symm).2
  · simp at hnode

end Selector

/-- **Routing.** After any calls in which nodes are added under new tags only, and whatever the
cores have returned, the selector routes a tag to a core exactly if the last `AddNode` of the core
for the tag was successful and no successful `DelNode` has followed. A call for a tag with a route
reaches this core and no other, and returns what the core returns; a successful `DelNode` removes
the route. Without a route a call returns an error and reaches no core. -/
theorem selector_routing (lib : OptionsLibrary) (cores : GoMap String CoreDescription)
    (es : List SelectorEvent)
    (hes : Guarded (Selector.step lib) Selector.AddsNew { cores := cores } es) :
    let s := es.foldl (Selector.step lib) { cores := cores }
    (∀ tag core, s.nodes.lookup tag = some core ↔ Installed tag core s.log) ∧
    (∀ tag core, s.nodes.lookup tag = some core → core ∈ s.cores ∧
      (∀ err, s.delNode tag err =
        ({ s.deliver core (.delNode tag) err with
           nodes := if err = none then s.nodes.erase tag else s.nodes }, err)) ∧
      (∀ users info answer, s.addUsers tag users info answer =
        (s.deliver core (.addUsers tag users info) answer.2, answer)) ∧
      (∀ reset answer, s.getUserTrafficSlice tag reset answer =
        (s.deliver core (.getUserTrafficSlice tag reset) answer.2, answer)) ∧
      ∀ users info err, s.delUsers users tag info err =
        (s.deliver core (.delUsers users tag info) err, err)) ∧
    ∀ tag, tag ∉ s.nodes →
      (∀ err, s.delNode tag err = (s, some "the node is not have")) ∧
      (∀ users info answer, s.addUsers tag users info answer =
        (s, 0, some "the node is not have")) ∧
      (∀ reset answer, s.getUserTrafficSlice tag reset answer =
        (s, [], some "the node is not have")) ∧
      ∀ users info err, s.delUsers users tag info err = (s, some "the node is not have") := by
  intro s
  have hs : s.Routes :=
    hes.invariant (fun s e h he => h.step lib he) (Selector.routes_start cores)
  refine ⟨hs.nodes, fun tag core hnode => ⟨hs.mem tag core hnode, ?_, ?_, ?_, ?_⟩,
    fun tag htag => ?_⟩
  · rintro (_ | err)
    · simp only [Selector.delNode, hnode, if_true, Selector.deliver]
    · simp only [Selector.delNode, hnode, reduceCtorEq, if_false, Selector.deliver]
  · intro users info answer
    simp only [Selector.addUsers, hnode]
  · intro reset answer
    simp only [Selector.getUserTrafficSlice, hnode]
  · intro users info err
    simp only [Selector.delUsers, hnode]
  · have hnone : s.nodes.lookup tag = none := Finmap.lookup_eq_none.mpr htag
    simp only [Selector.delNode, Selector.addUsers, Selector.getUserTrafficSlice,
      Selector.delUsers, hnone, implies_true, and_self]

/-- A node that is added at the second attempt and cannot be deleted stays with its core until it is
deleted. -/
theorem selector_routing_failures :
    let lib : OptionsLibrary := ⟨fun _ o => (o, none), fun _ => none, fun _ => none⟩
    let cores : GoMap String CoreDescription :=
      (Finmap.singleton "sing" ⟨"sing", ["vless", "anytls"]⟩).insert "xray" ⟨"xray", ["vless"]⟩
    let info : NodeInfo := { id := 1, type := .vless }
    let es : List SelectorEvent :=
      [.addNode RangeOrder.ascending "node" info { core := "xray" } (some "port in use"),
        .addNode RangeOrder.ascending "node" info { core := "xray" } none,
        .delNode "node" (some "busy")]
    let run (es : List SelectorEvent) := es.foldl (Selector.step lib) { cores := cores }
    Installed "node" "xray" (run es).log ∧
      ¬ Installed "node" "xray" (run (es ++ [.delNode "node" none])).log :=
  ⟨((selector_routing _ _ _ (by decide)).1 "node" "xray").mp (by decide),
    mt ((selector_routing _ _ _ (by decide)).1 "node" "xray").mpr (by decide)⟩

end Tox.Core
