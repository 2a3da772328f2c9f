import Mathlib
import Tox.Node.Controller

/-!
# All nodes of the program

`Node.Start` creates a client and a controller for every configured node and starts the controllers
one after the other; it stops at the first failure. `Node.Close` closes every controller of its
list: the limiter of the controller's tag is deleted and its node is removed from the core. An
error, and a controller that has never been created, end the program.

After a failed start the list of controllers has a controller that is half started and, for the
nodes that follow, nil pointers. `Node.Close` gets through exactly if the start has failed at the
last node, late enough for the node to be in the core (`close_clean_iff`).
-/

namespace Tox.Node

open Tox.Foundation Tox.Core Tox.Limit Tox.Panel

/-! ### What the start of a controller leaves behind -/

/-- `conf.NodeConfig`. -/
structure NodeConfig where
  apiConfig : ApiConfig
  options : Options := {}

/-- The library functions that the start of the nodes relies on. -/
structure ServiceLibrary extends Library where
  toLower : String → String

/-- What the start of a controller meets. -/
structure StartInput extends TickInput where
  /-- If `AddNode` fails, it fails after it has put the node into the core. -/
  addNodeLeaves : Bool := false

/-- What the start of a controller leaves behind: the core, the limiters, the tag of the controller,
and the failure if there is one. -/
structure StartOutcome where
  core : Installation
  limiters : LimiterStore
  tag : String := ""
  failure : Option StartFailure := none

namespace Controller

/-- `Controller.startNode`, with what it leaves behind when it fails. -/
def startNodeOutcome (lib : Library) (o : Options) (client : Client) (core : Installation)
    (limiters : LimiterStore) (node : NodeInfo) (userList : List UserInfo) (aliveMap : GoMap ℤ ℤ)
    (input : StartInput) : StartOutcome :=
  let tag := if o.name = "" then buildNodeTag client.apiHost node else o.name
  let (limiters, p) := limiters.addLimiter tag o.limitConfig userList aliveMap
  match limiters.updateRule lib.compiles p node.rules with
  | .error k => { core := core, limiters := limiters, tag := tag, failure := some (.panic k) }
  | .ok limiters =>
    match nodeCert o node input.cert with
    | some err =>
      { core := core, limiters := limiters, tag := tag, failure := some (.requestCert err) }
    | none =>
      match input.addNode with
      | some err =>
        { core := if input.addNodeLeaves then core.addNode tag node else core
          limiters := limiters
          tag := tag
          failure := some (.addNode err) }
      | none =>
        match (core.addNode tag node).addUsers tag userList input.addUsers with
        | (core, false) =>
          { core := core, limiters := limiters, tag := tag, failure := some .addUsers }
        | (core, true) => { core := core, limiters := limiters, tag := tag }

/-- `Controller.start`, with what it leaves behind when it fails. The tag is set after the
requests. -/
def startOutcome (lib : Library) (o : Options) (client : Client) (core : Installation)
    (limiters : LimiterStore) (input : StartInput) : StartOutcome :=
  match client.getNodeInfo lib.codec input.node with
  | (_, .error (.error e)) =>
    { core := core, limiters := limiters, failure := some (.getNodeInfo e) }
  | (_, .error (.panic k)) => { core := core, limiters := limiters, failure := some (.panic k) }
  | (client, .ok node) =>
    match client.getUserList lib.codec.toCodec input.users with
    | (_, .error e) => { core := core, limiters := limiters, failure := some (.getUserList e) }
    | (client, .ok users) =>
      match node with
      | none => { core := core, limiters := limiters, failure := some (.panic .nilDereference) }
      | some node => startNodeOutcome lib o client core limiters node (users.getD [])
          ((getUserAlive lib.codec.toCodec input.alive).getD ∅) input

end Controller

/-- The node is in the core when the start fails. -/
def LeavesNode (input : StartInput) : StartFailure → Prop
  | .addUsers => True
  | .addNode _ => input.addNodeLeaves = true
  | .getNodeInfo _ | .getUserList _ | .requestCert _ | .panic _ => False

/-! ### All nodes -/

/-- `node.Node`, with the core and the limiters that the nodes share. -/
structure Nodes where
  /-- The tags of the controllers; a controller that has not been created is a nil pointer. -/
  controllers : List (Option String) := []
  core : Installation := ∅
  limiters : LimiterStore := {}

/-- The ways in which `Node.Start` fails. -/
inductive NodeFailure
  | newClient (err : String)
  | controller (e : StartFailure)
deriving DecidableEq, Repr

namespace Nodes

/-- The loop of `Node.Start`, with the tags of the controllers created so far. A failure comes with
the position of the node. -/
def startLoop (lib : ServiceLibrary) (core : Installation) (limiters : LimiterStore)
    (created : List String) : List (NodeConfig × StartInput) → Nodes × Option (ℕ × NodeFailure)
  | [] => (⟨created.map some, core, limiters⟩, none)
  | (conf, input) :: rest =>
    match newClient lib.toLower conf.apiConfig with
    | .error err =>
      (⟨created.map some ++ List.replicate (rest.length + 1) none, core, limiters⟩,
        some (created.length, .newClient err))
    | .ok client =>
      let r := Controller.startOutcome lib.toLibrary conf.options client core limiters input
      match r.failure with
      | some e =>
        (⟨(created ++ [r.tag]).map some ++ List.replicate rest.length none, r.core, r.limiters⟩,
          some (created.length, .controller e))
      | none => startLoop lib r.core r.limiters (created ++ [r.tag]) rest

/-- `Node.Start`, with a core that has been created for it. -/
def start (lib : ServiceLibrary) (limiters : LimiterStore)
    (nodes : List (NodeConfig × StartInput)) : Nodes × Option (ℕ × NodeFailure) :=
  startLoop lib ∅ limiters [] nodes

/-- How the core answers `DelNode`. -/
structure Removal where
  /-- The error for a tag that the core does not know. The mieru core has none. -/
  unknown : Option String := some "the node is not have"
  /-- The error of closing a node. -/
  closing : String → Option String := fun _ => none

/-- The error of `DelNode`. -/
def Removal.err (rm : Removal) (core : Installation) (tag : String) : Option String :=
  if tag ∈ core then rm.closing tag else rm.unknown

/-- `Controller.Close`: the limiter is deleted, then the node. -/
def closeController (rm : Removal) (core : Installation) (limiters : LimiterStore) (tag : String) :
    Installation × LimiterStore × Option String :=
  (core.delNode tag, limiters.deleteLimiter tag, (rm.err core tag).map ("del node error: " ++ ·))

/-- The loop of `Node.Close`, with the panic that ends it. -/
def closeAll (rm : Removal) (core : Installation) (limiters : LimiterStore) :
    List (Option String) → Nodes × Option PanicKind
  | [] => (⟨[], core, limiters⟩, none)
  | none :: rest => (⟨none :: rest, core, limiters⟩, some .nilDereference)
  | some tag :: rest =>
    match closeController rm core limiters tag with
    | (core, limiters, some err) => (⟨some tag :: rest, core, limiters⟩, some (.logged err))
    | (core, limiters, none) => closeAll rm core limiters rest

/-- `Node.Close`. -/
def close (rm : Removal) (s : Nodes) : Nodes × Option PanicKind :=
  closeAll rm s.core s.limiters s.controllers

/-! ### Closing -/

theorem Removal.err_eq_none_iff {rm : Removal} {core : Installation} {tag : String} :
    rm.err core tag = none ↔
      (tag ∈ core → rm.closing tag = none) ∧ (tag ∉ core → rm.unknown = none) := by
  unfold Removal.err
  split_ifs with hmem <;> simp [hmem]

/-- The core deletes the nodes one after the other without an error: those that it has can be
closed, and, unless it accepts unknown tags, it has them all, and none is deleted twice. -/
def Removal.Accepts (rm : Removal) (core : Installation) (tags : List String) : Prop :=
  (∀ tag ∈ tags, tag ∈ core → rm.closing tag = none) ∧
    (rm.unknown ≠ none → tags.Nodup ∧ ∀ tag ∈ tags, tag ∈ core)

theorem Removal.accepts_cons_iff {rm : Removal} {core : Installation} {tag : String}
    {tags : List String} :
    rm.Accepts core (tag :: tags) ↔
      rm.err core tag = none ∧ rm.Accepts (core.delNode tag) tags := by
  have hmem (t : String) : t ∈ core.delNode tag ↔ t ≠ tag ∧ t ∈ core := by
    simp [Installation.delNode, Finmap.mem_erase]
  rw [Removal.err_eq_none_iff]
  constructor
  · rintro ⟨hclosing, hknown⟩
    refine ⟨⟨hclosing tag List.mem_cons_self, fun hnot => ?_⟩, fun t ht hcore => ?_,
      fun hunknown => ?_⟩
    · by_contra hunknown
      exact hnot ((hknown hunknown).2 tag List.mem_cons_self)
    · exact hclosing t (List.mem_cons_of_mem _ ht) ((hmem t).mp hcore).2
    · obtain ⟨hnodup, hin⟩ := hknown hunknown
      obtain ⟨hnotin, hnodup⟩ := List.nodup_cons.mp hnodup
      refine ⟨hnodup, fun t ht => (hmem t).mpr ⟨?_, hin t (List.mem_cons_of_mem _ ht)⟩⟩
      rintro rfl
      exact hnotin ht
  · rintro ⟨⟨hclose, haccept⟩, hclosing, hknown⟩
    refine ⟨fun t ht hcore => ?_, fun hunknown => ?_⟩
    · rcases eq_or_ne t tag with rfl | hne
      · exact hclose hcore
      · exact hclosing t (List.mem_of_ne_of_mem hne ht) ((hmem t).mpr ⟨hne, hcore⟩)
    · obtain ⟨hnodup, hin⟩ := hknown hunknown
      have htag : tag ∈ core := by
        by_contra hnot
        exact hunknown (haccept hnot)
      refine ⟨List.nodup_cons.mpr ⟨fun h => ((hmem tag).mp (hin tag h)).1 rfl, hnodup⟩, ?_⟩
      exact List.forall_mem_cons.mpr ⟨htag, fun t ht => ((hmem t).mp (hin t ht)).2⟩

/-- `Node.Close` does not panic exactly if there is no nil pointer and the core accepts that the
nodes of the controllers are deleted. -/
theorem closeAll_snd_eq_none_iff (rm : Removal) (controllers : List (Option String))
    (core : Installation) (limiters : LimiterStore) :
    (closeAll rm core limiters controllers).2 = none ↔
      ∃ tags : List String, controllers = tags.map some ∧ rm.Accepts core tags := by
  induction controllers generalizing core limiters with
  | nil => simp [closeAll, Removal.Accepts]
  | cons c controllers ih =>
    have hcons : (∃ tags : List String, c :: controllers = tags.map some ∧ rm.Accepts core tags) ↔
        ∃ tag tags, c = some tag ∧ controllers = tags.map some ∧ rm.Accepts core (tag :: tags) := by
      constructor
      · rintro ⟨_ | ⟨tag, tags⟩, htags, haccepts⟩
        · cases htags
        · obtain ⟨hc, hrest⟩ := List.cons.inj htags
          exact ⟨tag, tags, hc, hrest, haccepts⟩
      · rintro ⟨tag, tags, rfl, rfl, haccepts⟩
        exact ⟨tag :: tags, rfl, haccepts⟩
    rw [hcons]
    cases c with
    | none => simp [closeAll]
    | some tag =>
      simp only [Option.some.injEq, Removal.accepts_cons_iff]
      cases herr : rm.err core tag with
      | some err => simp [closeAll, closeController, herr]
      | none => simp [closeAll, closeController, herr, ih]

/-- What is in neither the core nor the registry of limiters stays out. -/
theorem notMem_closeAll_of_notMem (rm : Removal) {tag : String} (controllers : List (Option String))
    {core : Installation} {limiters : LimiterStore}
    (h : tag ∉ core ∧ tag ∉ limiters.registry) :
    tag ∉ (closeAll rm core limiters controllers).1.core ∧
      tag ∉ (closeAll rm core limiters controllers).1.limiters.registry := by
  induction controllers generalizing core limiters with
  | nil => exact h
  | cons c controllers ih =>
    cases c with
    | none => exact h
    | some t =>
      have hnext : tag ∉ core.delNode t ∧ tag ∉ (limiters.deleteLimiter t).registry :=
        ⟨fun hin => h.1 (Finmap.mem_erase.mp hin).2, fun hin => h.2 (Finmap.mem_erase.mp hin).2⟩
      cases herr : rm.err core t with
      | some err => simpa only [closeAll, closeController, herr, Option.map_some] using hnext
      | none => simpa only [closeAll, closeController, herr, Option.map_none] using ih hnext

/-- If `Node.Close` does not panic, no tag of a controller is left. -/
theorem notMem_closeAll (rm : Removal) (controllers : List (Option String)) {core : Installation}
    {limiters : LimiterStore} (h : (closeAll rm core limiters controllers).2 = none) {tag : String}
    (htag : some tag ∈ controllers) :
    tag ∉ (closeAll rm core limiters controllers).1.core ∧
      tag ∉ (closeAll rm core limiters controllers).1.limiters.registry := by
  induction controllers generalizing core limiters with
  | nil => cases htag
  | cons c controllers ih =>
    cases c with
    | none => simp [closeAll] at h
    | some t =>
      cases herr : rm.err core t with
      | some err => simp [closeAll, closeController, herr] at h
      | none =>
        simp only [closeAll, closeController, herr, Option.map_none] at h ⊢
        rcases List.mem_cons.mp htag with heq | hin
        · obtain rfl := Option.some.inj heq
          exact notMem_closeAll_of_notMem rm controllers
            ⟨Finmap.notMem_erase_self, Finmap.notMem_erase_self⟩
        · exact ih h hin

end Nodes

/-! ### A start that fails -/

/-- The start of a controller changes the core by adding its node or not at all. It adds the node if
it succeeds, and if it fails late enough. -/
def StartOutcome.Effect (r : StartOutcome) (core : Installation) (input : StartInput) : Prop :=
  ∀ t, t ∈ r.core ↔ t ∈ core ∨ t = r.tag ∧ ∀ e, r.failure = some e → LeavesNode input e

namespace Controller

theorem startNodeOutcome_effect (lib : Library) (o : Options) (client : Client)
    (core : Installation) (limiters : LimiterStore) (node : NodeInfo) (userList : List UserInfo)
    (aliveMap : GoMap ℤ ℤ) (input : StartInput) :
    (startNodeOutcome lib o client core limiters node userList aliveMap input).Effect core
      input := by
  unfold startNodeOutcome
  generalize (if o.name = "" then buildNodeTag client.apiHost node else o.name) = tag
  have hadd (t : String) : t ∈ core.addNode tag node ↔ t ∈ core ∨ t = tag := by
    simp [Installation.addNode, Finmap.mem_insert, or_comm]
  dsimp only
  split
  · exact fun t => by simp [LeavesNode]
  split
  · exact fun t => by simp [LeavesNode]
  split
  · intro t
    cases hleaves : input.addNodeLeaves <;> simp [hleaves, hadd, LeavesNode]
  have husers (t : String) :
      t ∈ ((core.addNode tag node).addUsers tag userList input.addUsers).1 ↔ t ∈ core ∨ t = tag :=
    (Installation.mem_updateUsers t).trans (hadd t)
  split
  · rename_i core' hcall
    rw [hcall] at husers
    exact fun t => by simp [husers, LeavesNode]
  · rename_i core' hcall
    rw [hcall] at husers
    exact fun t => by simp [husers]

theorem startOutcome_effect (lib : Library) (o : Options) (client : Client)
    (core : Installation) (limiters : LimiterStore) (input : StartInput) :
    (startOutcome lib o client core limiters input).Effect core input := by
  unfold startOutcome
  split
  · exact fun t => by simp [LeavesNode]
  · exact fun t => by simp [LeavesNode]
  split
  · exact fun t => by simp [LeavesNode]
  split
  · exact fun t => by simp [LeavesNode]
  · exact startNodeOutcome_effect _ _ _ _ _ _ _ _ _

end Controller

namespace Nodes

/-- What a failed `Node.Start` leaves behind: the controllers before the failure are started, with
exactly their nodes in the core, the one at the failure may be half started, and the others are
nil. -/
theorem startLoop_fails {lib : ServiceLibrary} {nodes : List (NodeConfig × StartInput)}
    {core : Installation} {limiters : LimiterStore} {created : List String}
    (hcore : ∀ t, t ∈ core ↔ t ∈ created) {s : Nodes} {k : ℕ} {f : NodeFailure}
    (h : startLoop lib core limiters created nodes = (s, some (k, f))) :
    ∃ before conf input rest tags, nodes = before ++ (conf, input) :: rest ∧
      k = created.length + before.length ∧
      match f with
      | .newClient _ =>
        s.controllers = tags.map some ++ List.replicate (rest.length + 1) (none : Option String)
      | .controller e => ∃ tag,
        s.controllers = (tags ++ [tag]).map some ++ List.replicate rest.length none ∧
          ∀ t, t ∈ s.core ↔ t ∈ tags ∨ t = tag ∧ LeavesNode input e := by
  induction nodes generalizing core limiters created with
  | nil => simp [startLoop] at h
  | cons node rest ih =>
    obtain ⟨conf, input⟩ := node
    simp only [startLoop] at h
    cases hclient : newClient lib.toLower conf.apiConfig with
    | error err =>
      simp only [hclient] at h
      cases h
      exact ⟨[], conf, input, rest, created, rfl, rfl, rfl⟩
    | ok client =>
      simp only [hclient] at h
      have heffect := Controller.startOutcome_effect lib.toLibrary conf.options client core limiters
        input
      cases hfailure : (Controller.startOutcome lib.toLibrary conf.options client core limiters
          input).failure with
      | some e =>
        simp only [hfailure] at h
        cases h
        refine ⟨[], conf, input, rest, created, rfl, rfl, _, rfl, fun t => ?_⟩
        rw [heffect t, hcore, hfailure]
        simp
      | none =>
        simp only [hfailure] at h
        obtain ⟨before, conf', input', rest', tags, hnodes, hk, hf⟩ := ih (fun t => by
          rw [heffect t, hcore, hfailure]
          simp) h
        refine ⟨(conf, input) :: before, conf', input', rest', tags, by rw [hnodes]; rfl, ?_, hf⟩
        rw [hk, List.length_append, List.length_singleton, List.length_cons]
        omega

end Nodes

/-- The start has failed at the last node, the nodes in the core can be closed, and, unless the core
accepts unknown tags, the tags are distinct and the last node is in the core. -/
structure Closable (rm : Nodes.Removal) (nodes : List (NodeConfig × StartInput)) (s : Nodes) (k : ℕ)
    (f : NodeFailure) : Prop where
  last : k + 1 = nodes.length
  closing : ∀ tag, some tag ∈ s.controllers → tag ∈ s.core → rm.closing tag = none
  installed : ∃ e, f = .controller e ∧ (rm.unknown ≠ none → s.controllers.Nodup ∧
    ∀ conf input, nodes.getLast? = some (conf, input) → LeavesNode input e)

/-- A nil controller cannot be closed. -/
theorem not_exists_accepts_of_none_mem {rm : Nodes.Removal} {controllers : List (Option String)}
    {core : Installation} (h : none ∈ controllers) :
    ¬ ∃ tags : List String, controllers = tags.map some ∧ rm.Accepts core tags := by
  rintro ⟨tags, rfl, -⟩
  obtain ⟨tag, -, htag⟩ := List.mem_map.mp h
  cases htag

/-- After a failure at the last node, a controller with a tag of its own has a node if and only if
the start has left one. -/
theorem forall_mem_core_iff {core : Installation} {tags : List String} {tag : String}
    {leaves : Prop} (hcore : ∀ t, t ∈ core ↔ t ∈ tags ∨ t = tag ∧ leaves)
    (hnodup : (tags ++ [tag]).Nodup) : (∀ t ∈ tags ++ [tag], t ∈ core) ↔ leaves := by
  have htag : tag ∉ tags := (List.nodup_cons.mp (List.nodup_append_comm.mp hnodup)).1
  constructor
  · intro hall
    exact (((hcore tag).mp (hall tag (by simp))).resolve_left htag).2
  · intro hleaves t ht
    rcases List.mem_append.mp ht with ht | ht
    · exact (hcore t).mpr (Or.inl ht)
    · exact (hcore t).mpr (Or.inr ⟨List.mem_singleton.mp ht, hleaves⟩)

/-- The case of a failure at the last node. -/
theorem accepts_iff_closable_of_last {rm : Nodes.Removal} {s : Nodes} {k : ℕ}
    {before : List (NodeConfig × StartInput)} {conf : NodeConfig} {input : StartInput}
    {tags : List String} {tag : String} {e : StartFailure} (hk : k = before.length)
    (hcontrollers : s.controllers = (tags ++ [tag]).map some)
    (hcore : ∀ t, t ∈ s.core ↔ t ∈ tags ∨ t = tag ∧ LeavesNode input e) :
    (∃ tags' : List String, s.controllers = tags'.map some ∧ rm.Accepts s.core tags') ↔
      Closable rm (before ++ [(conf, input)]) s k (.controller e) := by
  have hmem (t : String) : some t ∈ s.controllers ↔ t ∈ tags ++ [tag] := by
    rw [hcontrollers, List.mem_map_of_injective (Option.some_injective String)]
  have hnodup : s.controllers.Nodup ↔ (tags ++ [tag]).Nodup := by
    rw [hcontrollers, List.nodup_map_iff (Option.some_injective String)]
  constructor
  · rintro ⟨tags', htags', hclosing, hknown⟩
    obtain rfl : tags ++ [tag] = tags' :=
      List.map_injective_iff.mpr (Option.some_injective String) (hcontrollers.symm.trans htags')
    refine ⟨by simp [hk], fun t ht => hclosing t ((hmem t).mp ht), e, rfl, fun hunknown => ?_⟩
    obtain ⟨hn, hall⟩ := hknown hunknown
    refine ⟨hnodup.mpr hn, fun conf' input' hlast => ?_⟩
    obtain ⟨-, rfl⟩ : conf = conf' ∧ input = input' := by simpa using hlast
    exact (forall_mem_core_iff hcore hn).mp hall
  · rintro ⟨-, hclosing, e', he, hknown⟩
    cases he
    refine ⟨tags ++ [tag], hcontrollers, fun t ht => hclosing t ((hmem t).mpr ht),
      fun hunknown => ?_⟩
    obtain ⟨hn, hleaves⟩ := hknown hunknown
    have hn' := hnodup.mp hn
    exact ⟨hn', (forall_mem_core_iff hcore hn').mpr (hleaves conf input (by simp))⟩

/-- **Closing after a failed start.** After a start that has failed, `Node.Close` does not panic and
leaves no limiter and no node of the controllers behind if and only if the failure is `Closable`. -/
theorem close_clean_iff (lib : ServiceLibrary) (limiters : LimiterStore)
    (nodes : List (NodeConfig × StartInput)) (rm : Nodes.Removal) {s : Nodes} {k : ℕ}
    {f : NodeFailure} (h : Nodes.start lib limiters nodes = (s, some (k, f))) :
    ((s.close rm).2 = none ∧ ∀ tag, some tag ∈ s.controllers →
      tag ∉ (s.close rm).1.core ∧ tag ∉ (s.close rm).1.limiters.registry) ↔
    Closable rm nodes s k f := by
  have hclean : ((s.close rm).2 = none ∧ ∀ tag, some tag ∈ s.controllers →
      tag ∉ (s.close rm).1.core ∧ tag ∉ (s.close rm).1.limiters.registry) ↔
        (s.close rm).2 = none :=
    ⟨And.left, fun hclose => ⟨hclose, fun tag htag => Nodes.notMem_closeAll rm _ hclose htag⟩⟩
  rw [hclean, Nodes.close, Nodes.closeAll_snd_eq_none_iff]
  obtain ⟨before, conf, input, rest, tags, rfl, hk, hf⟩ :=
    Nodes.startLoop_fails (fun t => iff_of_false Finmap.notMem_empty List.not_mem_nil) h
  rw [List.length_nil, Nat.zero_add] at hk
  rcases f with err | e
  · -- the node without a client has no controller
    refine iff_of_false (not_exists_accepts_of_none_mem (by rw [hf]; simp)) fun hclosable => ?_
    obtain ⟨e, he, -⟩ := hclosable.installed
    cases he
  · obtain ⟨tag, hcontrollers, hcore⟩ := hf
    rcases rest with _ | ⟨node, rest⟩
    · exact accepts_iff_closable_of_last hk (by simpa using hcontrollers) hcore
    · -- the nodes after the failure have no controller
      refine iff_of_false (not_exists_accepts_of_none_mem (by rw [hcontrollers]; simp))
        fun hclosable => ?_
      have hlast := hclosable.last
      simp only [List.length_append, List.length_cons] at hlast
      omega

/-- The small panel for all nodes. -/
def sampleServiceLibrary : ServiceLibrary where
  toLibrary := sampleLibrary
  toLower := id

/-- A node of the given type at the small panel. -/
def sampleNode (nodeType : String) (node : Reply) (addUsers : CallResult) :
    NodeConfig × StartInput :=
  ({ apiConfig := { apiHost := "panel", nodeType := nodeType, nodeId := 1 } },
    { node := node, users := answer [] "u", alive := notModified, addUsers := addUsers })

/-- The only node fails when its users are added. -/
theorem sampleNode_clean :
    ∃ s f, Nodes.start sampleServiceLibrary {}
        [sampleNode "vless" (answer [0, 80] "a") (.failed ∅)] = (s, some (0, f)) ∧
      s.controllers ≠ [] ∧ (s.close {}).2 = none ∧ ∀ tag, some tag ∈ s.controllers →
        tag ∉ (s.close {}).1.core ∧ tag ∉ (s.close {}).1.limiters.registry := by
  obtain ⟨s, f, hstart⟩ : ∃ s f, Nodes.start sampleServiceLibrary {}
      [sampleNode "vless" (answer [0, 80] "a") (.failed ∅)] = (s, some (0, f)) := ⟨_, _, rfl⟩
  have hclosable : Closable {} [sampleNode "vless" (answer [0, 80] "a") (.failed ∅)] s 0 f := by
    cases hstart
    refine ⟨rfl, fun _ _ _ => rfl, .addUsers, rfl, fun _ => ⟨by decide, ?_⟩⟩
    exact fun _ _ _ => trivial
  have hclean := (close_clean_iff _ _ _ _ hstart).mpr hclosable
  refine ⟨s, f, hstart, ?_, hclean⟩
  cases hstart
  decide

/-- If the second node has no client, closing dereferences its nil pointer. If the only node gets no
settings, its controller has no tag and the core refuses to remove it. -/
theorem sampleNode_not_clean :
    (∃ s k f, Nodes.start sampleServiceLibrary {} [sampleNode "vless" (answer [0, 80] "a") .ok,
        sampleNode "socks" (answer [0, 80] "a") .ok] = (s, some (k, f)) ∧
      (s.close {}).2 = some .nilDereference) ∧
    ∃ s k f, Nodes.start sampleServiceLibrary {} [sampleNode "vless" (.failed "timeout") .ok] =
        (s, some (k, f)) ∧
      (s.close {}).2 = some (.logged "del node error: the node is not have") := by
  refine ⟨⟨_, _, _, rfl, ?_⟩, ⟨_, _, _, rfl, ?_⟩⟩ <;> decide

end Tox.Node
