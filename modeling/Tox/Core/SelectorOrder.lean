import Tox.Foundation.LastMatch
import Tox.Core.Selector

/-!
# The order of the cores

The loop of `Selector.AddNode` visits the cores in the order of a map and keeps the last one that
suits. Two cores can suit the same node: xray and sing support four protocols both, and there can be
two cores of one type. The node then goes to one or the other with the order of the visit. `AddNode`
also rewrites the options, so that a node that is removed and added again may be selected for by the
type of the core that had it instead of by its protocol, and with two cores of this type it may
move.

The cores are deterministic: what a core answers is a function of the calls so far and of the call
(`CoreBehavior`). A *candidate* is a core that some order selects. The selection is free of the
order if and only if a candidate that takes the node is the only candidate (`Selector.OrderFree`).
-/

namespace Tox.Core

open Tox.Foundation Tox.Panel

/-- What a core answers to a call, after the calls so far. -/
abbrev CoreBehavior := List Delivery → String → CoreCall → Option String

/-- The cores that the program registers, as they describe themselves. -/
def xrayDescription : CoreDescription :=
  ⟨"xray", ["vmess", "vless", "shadowsocks", "trojan", "xhttp"]⟩

@[inherit_doc xrayDescription]
def singDescription : CoreDescription :=
  ⟨"sing", ["vmess", "vless", "shadowsocks", "trojan", "tuic", "anytls", "hysteria", "hysteria2"]⟩

@[inherit_doc xrayDescription]
def mieruDescription : CoreDescription := ⟨"mieru", ["mieru"]⟩

namespace Selector

section Call

variable (lib : OptionsLibrary) (behavior : CoreBehavior) (s : Selector)
  (range : RangeOrder String) (tag : String) (info : NodeInfo) (option : CoreOptions)
  (core : String)

/-- The options with which the core is called, and the error of the decoding. -/
def resolve : CoreOptions × Option String :=
  if option.core = "" then
    let type := ((s.cores.lookup core).map CoreDescription.type).getD ""
    match ({ option with core := type } : CoreOptions).unmarshalJSON lib option.rawOptions with
    | (option, some err) => (option, some ("unmarshal option error: " ++ err))
    | (option, none) => ({ option with rawOptions := [] }, none)
  else (option, none)

/-- The answer of the core to the call with the resolved options. -/
def answer : Option String :=
  behavior s.log core (.addNode tag info (s.resolve lib option core).1)

/-- `Selector.AddNode` with the answer of the core that is selected. -/
def addNodeBy : Selector × CoreOptions × Option String :=
  s.addNode lib range tag info option
    ((s.selectCore range info option).bind (s.answer lib behavior tag info option))

/-- The core has the options and takes the node. -/
def Accepts : Prop :=
  (s.resolve lib option core).2 = none ∧ s.answer lib behavior tag info option core = none

/-- The core is selected in some order. -/
def Candidate : Prop :=
  core ∈ s.cores ∧
    if option.coreName ≠ "" then option.coreName = core
    else (s.cores.lookup core).any (suits info option)

/-- A candidate that takes the node is the only candidate. -/
def OrderFree : Prop :=
  ∀ core core', s.Candidate info option core → s.Candidate info option core' →
    s.Accepts lib behavior tag info option core → core' = core

end Call

/-- The core to which the node has been given, if the call has not failed. -/
def taker (tag : String) : Selector × CoreOptions × Option String → Option String
  | (s, _, none) => s.nodes.lookup tag
  | (_, _, some _) => none

/-! ### The candidates -/

section Candidates

variable {s : Selector} {range : RangeOrder String} {info : NodeInfo} {option : CoreOptions}
  {core : String}

/-- The loop keeps the last core that suits. -/
theorem selectCore_of_coreName_eq (h : option.coreName = "") :
    s.selectCore range info option =
      ((range.keys s.cores).filter fun name =>
        (s.cores.lookup name).any (suits info option)).getLast? := by
  rw [selectCore, if_neg (not_not.mpr h), foldl_overwrite_eq, Option.or_none]

/-- The candidates are the cores that some order selects. -/
theorem candidate_iff_exists_selectCore :
    s.Candidate info option core ↔ ∃ range, s.selectCore range info option = some core := by
  rw [Candidate]
  by_cases hname : option.coreName ≠ ""
  · rw [if_pos hname]
    constructor
    · rintro ⟨hmem, rfl⟩
      exact ⟨RangeOrder.ascending, by rw [selectCore, if_pos hname, if_pos hmem]⟩
    · rintro ⟨range, h⟩
      refine ⟨mem_of_selectCore h, ?_⟩
      rw [selectCore, if_pos hname] at h
      split_ifs at h
      exact Option.some.inj h
  · rw [if_neg hname]
    have hselect : ∀ range, s.selectCore range info option = _ := fun range =>
      selectCore_of_coreName_eq (not_not.mp hname)
    constructor
    · rintro ⟨hmem, hsuits⟩
      exact ⟨RangeOrder.ascending.moveLast core, (hselect _).trans
        (RangeOrder.getLast?_filter_moveLast _ hmem hsuits)⟩
    · rintro ⟨range, h⟩
      exact RangeOrder.of_getLast?_filter_keys ((hselect range).symm.trans h)

/-- Without a selected core there is no candidate. -/
theorem not_candidate_of_selectCore_eq_none (h : s.selectCore range info option = none)
    (core : String) : ¬ s.Candidate info option core := by
  rw [Candidate]
  rintro ⟨hmem, hcore⟩
  by_cases hname : option.coreName ≠ ""
  · rw [if_pos hname] at hcore
    subst hcore
    rw [selectCore, if_pos hname, if_pos hmem] at h
    cases h
  · rw [if_neg hname] at hcore
    rw [selectCore_of_coreName_eq (not_not.mp hname), List.getLast?_eq_none_iff,
      List.filter_eq_nil_iff] at h
    exact h core ((range.mem_keys s.cores core).mpr hmem) hcore

end Candidates

/-! ### One call -/

section OneCall

variable {lib : OptionsLibrary} {behavior : CoreBehavior} {s : Selector}
  {range : RangeOrder String} {tag : String} {info : NodeInfo} {option : CoreOptions}
  {core : String}

/-- What the call does once a core is selected. -/
theorem addNode_of_selectCore (h : s.selectCore range info option = some core)
    (err : Option String) :
    s.addNode lib range tag info option err =
      match s.resolve lib option core with
      | (option, some err) => (s, option, some err)
      | (config, none) => (s.install core tag info config err, config, err) := by
  rw [addNode, h]
  dsimp only
  by_cases hcore : option.core = ""
  · have hresolve : s.resolve lib option core = _ := if_pos hcore
    rw [hresolve, if_pos hcore]
    dsimp only
    rcases CoreOptions.unmarshalJSON lib _ _ with ⟨config, _ | err⟩
    · rfl
    · rfl
  · have hresolve : s.resolve lib option core = _ := if_neg hcore
    rw [hresolve, if_neg hcore]

@[inherit_doc addNode_of_selectCore]
theorem addNodeBy_of_selectCore (h : s.selectCore range info option = some core) :
    s.addNodeBy lib behavior range tag info option =
      match s.resolve lib option core with
      | (option, some err) => (s, option, some err)
      | (config, none) =>
        (s.install core tag info config (s.answer lib behavior tag info option core), config,
          s.answer lib behavior tag info option core) := by
  rw [addNodeBy, h, Option.bind_some, addNode_of_selectCore h]

theorem taker_install (config : CoreOptions) (err : Option String) :
    taker tag (s.install core tag info config err, config, err) =
      if err = none then some core else none := by
  rcases err with _ | e
  · exact Finmap.lookup_insert _
  · rfl

/-- The selected core gets the node if it takes it, and no core gets it otherwise. -/
theorem taker_addNodeBy (h : s.selectCore range info option = some core) (core' : String) :
    taker tag (s.addNodeBy lib behavior range tag info option) = some core' ↔
      core' = core ∧ s.Accepts lib behavior tag info option core := by
  rw [addNodeBy_of_selectCore h, Accepts]
  rcases s.resolve lib option core with ⟨config, _ | err⟩
  · dsimp only
    rw [taker_install, and_iff_right rfl]
    split_ifs with hanswer
    · rw [and_iff_left hanswer, Option.some_inj, eq_comm]
    · exact iff_of_false nofun fun hc => hanswer hc.2
  · exact iff_of_false nofun fun hc => nomatch hc.2.1

/-- Without a selected core the call fails. -/
theorem taker_addNodeBy_of_none (h : s.selectCore range info option = none) :
    taker tag (s.addNodeBy lib behavior range tag info option) = none := by
  rw [addNodeBy, addNode, h]
  rfl

/-- The core that gets the node has been selected and takes it. -/
theorem selectCore_of_taker
    (h : taker tag (s.addNodeBy lib behavior range tag info option) = some core) :
    s.selectCore range info option = some core ∧ s.Accepts lib behavior tag info option core := by
  rcases hselect : s.selectCore range info option with _ | core'
  · rw [taker_addNodeBy_of_none hselect] at h
    cases h
  · obtain ⟨rfl, haccepts⟩ := (taker_addNodeBy hselect core).mp h
    exact ⟨rfl, haccepts⟩

/-- **One call.** All orders give the node to the same core, or to none, if and only if a candidate
that takes the node is the only candidate. -/
theorem taker_addNodeBy_order_iff :
    (∀ range range', taker tag (s.addNodeBy lib behavior range tag info option) =
      taker tag (s.addNodeBy lib behavior range' tag info option)) ↔
      s.OrderFree lib behavior tag info option := by
  constructor
  · intro h core core' hcore hcore' haccepts
    obtain ⟨range, hselect⟩ := candidate_iff_exists_selectCore.mp hcore
    obtain ⟨range', hselect'⟩ := candidate_iff_exists_selectCore.mp hcore'
    have htaker := (taker_addNodeBy hselect core).mpr ⟨rfl, haccepts⟩
    rw [h range range', taker_addNodeBy hselect'] at htaker
    exact htaker.1.symm
  · intro hfree range range'
    -- A taker of one order is the only candidate, hence selected in the other as well.
    have hsome : ∀ range range' core,
        taker tag (s.addNodeBy lib behavior range tag info option) = some core →
        taker tag (s.addNodeBy lib behavior range' tag info option) = some core := by
      intro range range' core htaker
      obtain ⟨hselect, haccepts⟩ := selectCore_of_taker htaker
      have hcore := candidate_iff_exists_selectCore.mpr ⟨range, hselect⟩
      rcases hselect' : s.selectCore range' info option with _ | core'
      · exact absurd hcore (not_candidate_of_selectCore_eq_none hselect' core)
      · have hcore' := candidate_iff_exists_selectCore.mpr ⟨range', hselect'⟩
        obtain rfl := hfree core core' hcore hcore' haccepts
        exact (taker_addNodeBy hselect' _).mpr ⟨rfl, haccepts⟩
    exact Option.ext fun core => ⟨hsome range range' core, hsome range' range core⟩

/-- A node whose options name its core is selected for without a loop. -/
theorem orderFree_of_coreName (h : option.coreName ≠ "") :
    s.OrderFree lib behavior tag info option := by
  rintro core core' ⟨-, hcore⟩ ⟨-, hcore'⟩ -
  rw [if_pos h] at hcore hcore'
  exact hcore'.symm.trans hcore

end OneCall

/-! ### Two calls -/

section TwoCalls

variable (lib : OptionsLibrary) (behavior : CoreBehavior) (s : Selector) (tag : String)
  (info info' : NodeInfo) (option : CoreOptions)

/-- The selector after the node has been given to the core with the options `config` and removed
again. -/
def removed (core : String) (config : CoreOptions) : Selector :=
  ((s.install core tag info config none).delNode tag none).1

/-- A node is added, removed, and added again with the options that the first call has left: the
core that has had it and the one that has it then. -/
def addTwice (range₁ range₂ : RangeOrder String) : Option String × Option String :=
  let first := s.addNodeBy lib behavior range₁ tag info option
  match taker tag first with
  | none => (none, none)
  | some core => (some core,
      taker tag ((first.1.delNode tag none).1.addNodeBy lib behavior range₂ tag info' first.2.1))

variable {lib behavior s tag info info' option}

theorem fst_addTwice (range₁ range₂ : RangeOrder String) :
    (s.addTwice lib behavior tag info info' option range₁ range₂).1 =
      taker tag (s.addNodeBy lib behavior range₁ tag info option) := by
  rw [addTwice]
  rcases taker tag (s.addNodeBy lib behavior range₁ tag info option) with _ | core
  · rfl
  · rfl

/-- The second call, after a first one in which a core has taken the node. -/
theorem addTwice_of_accepts {core : String} {range₁ : RangeOrder String}
    (hselect : s.selectCore range₁ info option = some core)
    (haccepts : s.Accepts lib behavior tag info option core) (range₂ : RangeOrder String) :
    s.addTwice lib behavior tag info info' option range₁ range₂ = (some core,
      taker tag ((s.removed tag info core (s.resolve lib option core).1).addNodeBy lib behavior
        range₂ tag info' (s.resolve lib option core).1)) := by
  have htaker := (taker_addNodeBy hselect core).mpr ⟨rfl, haccepts⟩
  rw [addTwice, htaker]
  dsimp only
  rw [addNodeBy_of_selectCore hselect]
  obtain ⟨hresolve, hanswer⟩ := haccepts
  rcases hconfig : s.resolve lib option core with ⟨config, _ | err⟩
  · dsimp only
    rw [hanswer, removed]
  · rw [hconfig] at hresolve
    cases hresolve

end TwoCalls

/-- **Selection depends on the order.** All orders of both calls give the node to the same core, or
to none, at first and again after it has been removed, if and only if both selections are free of
the order: a candidate that takes the node is the only one. -/
theorem addTwice_order_iff (lib : OptionsLibrary) (behavior : CoreBehavior) (s : Selector)
    (tag : String) (info info' : NodeInfo) (option : CoreOptions) :
    (∀ range₁ range₂ range₁' range₂',
      s.addTwice lib behavior tag info info' option range₁ range₂ =
        s.addTwice lib behavior tag info info' option range₁' range₂') ↔
      s.OrderFree lib behavior tag info option ∧
      ∀ core, s.Candidate info option core → s.Accepts lib behavior tag info option core →
        (s.removed tag info core (s.resolve lib option core).1).OrderFree lib behavior tag info'
          (s.resolve lib option core).1 := by
  constructor
  · intro h
    refine ⟨taker_addNodeBy_order_iff.mp fun range range' => ?_, fun core hcore haccepts => ?_⟩
    · rw [← fst_addTwice range range, ← fst_addTwice range' range, h range range range' range]
    · obtain ⟨range₁, hselect⟩ := candidate_iff_exists_selectCore.mp hcore
      refine taker_addNodeBy_order_iff.mp fun range range' => ?_
      have hsnd := congrArg Prod.snd (h range₁ range range₁ range')
      rwa [addTwice_of_accepts hselect haccepts, addTwice_of_accepts hselect haccepts] at hsnd
  · rintro ⟨hfirst, hsecond⟩ range₁ range₂ range₁' range₂'
    have htakers := taker_addNodeBy_order_iff.mpr hfirst range₁ range₁'
    rcases htaker : taker tag (s.addNodeBy lib behavior range₁ tag info option) with _ | core
    · rw [addTwice, addTwice, ← htakers, htaker]
    · obtain ⟨hselect, haccepts⟩ := selectCore_of_taker htaker
      obtain ⟨hselect', -⟩ := selectCore_of_taker (htakers.symm.trans htaker)
      rw [addTwice_of_accepts hselect haccepts, addTwice_of_accepts hselect' haccepts]
      have hcore := candidate_iff_exists_selectCore.mpr ⟨range₁, hselect⟩
      exact congrArg _ (taker_addNodeBy_order_iff.mpr (hsecond core hcore haccepts) range₂ range₂')

/-- A vless node without a core in its options, and xray and sing to choose from: the core that is
visited last gets it. A node for xray, and two cores of this type: it moves when it is added
again. -/
theorem addTwice_depends_on_order :
    let lib : OptionsLibrary := ⟨fun _ o => (o, none), fun _ => none, fun _ => none⟩
    let node : NodeInfo := { id := 1, type := .vless }
    let both : Selector :=
      { cores := (Finmap.singleton "sing" singDescription).insert "xray" xrayDescription }
    let two : Selector :=
      { cores := (Finmap.singleton "first" xrayDescription).insert "second" xrayDescription }
    let up : RangeOrder String := RangeOrder.ascending
    both.addTwice lib (fun _ _ _ => none) "node" node node {} up up = (some "xray", some "xray") ∧
    both.addTwice lib (fun _ _ _ => none) "node" node node {} (up.moveLast "sing") up =
      (some "sing", some "sing") ∧
    two.addTwice lib (fun _ _ _ => none) "node" node node { core := "xray" } up up =
      (some "second", some "second") ∧
    two.addTwice lib (fun _ _ _ => none) "node" node node { core := "xray" } up
      (up.moveLast "first") = (some "second", some "first") := by
  decide

end Selector

end Tox.Core
