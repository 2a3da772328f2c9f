import Tox.Core.Interface
import Tox.Limiter.Registry
import Tox.Node.UserDelta

/-!
# The controller of a node

A controller fetches the settings and the users of its node from the panel, installs them in the
core and registers a limiter for them. `Controller.start` does this once; afterwards the periodic
task `nodeInfoMonitor` follows the changes at the panel. A tick of the task fetches the node
settings, the user list and the alive list. If there are new settings it reloads the node
(`Controller.reload`): the old node is deleted, the limiter is renewed if the node has no
configured name, and the new node is installed with all users. Otherwise it passes the difference
of the user lists on (`Controller.syncUsers`).

The replies of the panel, the outcomes of the core calls and of the certificate request, and the
order of map iterations are inputs of a tick. A tick may end in three ways: it returns, the program
panics, or the tick blocks. It blocks when the settings change the interval of the task itself, for
the task is then closed while its own lock is held.
-/

namespace Tox.Node

open Tox.Foundation Tox.Core Tox.Format Tox.Limit Tox.Panel

/-! ### Certificates -/

/-- The values of `CertMode`. -/
inductive CertMode
  /-- `none` or empty. -/
  | none
  | file
  | dns
  | http
  | self
  | other (name : String)
deriving DecidableEq, Repr

/-- The parts of `conf.CertConfig` that decide how a certificate is obtained. -/
structure CertConfig where
  certMode : CertMode := .none
  certFile : String := ""
  keyFile : String := ""
deriving DecidableEq, Repr

/-- What a certificate request meets: whether both files exist, and the errors of the calls that
create a certificate. -/
structure CertInput where
  filesExist : Bool := true
  newLego : Option String := none
  createCert : Option String := none
  generateSelf : Option String := none

/-- The certificate is there, or is created by `create`. -/
def obtainCert (conf : CertConfig) (input : CertInput) (create : Option String) :
    Option String :=
  if conf.certFile = "" ∨ conf.keyFile = "" then
    some "cert file path or key file path not exist"
  else if input.filesExist then none
  else create

/-- `Controller.requestCert`: the error of the request. -/
def requestCert (conf : CertConfig) (input : CertInput) : Option String :=
  match conf.certMode with
  | .none => none
  | .file =>
    if conf.certFile = "" ∨ conf.keyFile = "" then
      some "cert file path or key file path not exist"
    else none
  | .dns | .http =>
    obtainCert conf input <|
      match input.newLego with
      | some err => some ("create lego object error: " ++ err)
      | none => input.createCert.map ("create lego cert error: " ++ ·)
  | .self => obtainCert conf input (input.generateSelf.map ("generate self cert error: " ++ ·))
  | .other name => some ("unsupported certmode: " ++ name)

/-! ### Controllers -/

/-- The parts of `conf.Options` that the controller reads. -/
structure Options where
  name : String := ""
  limitConfig : LimitConfig := {}
  certConfig : CertConfig := {}

/-- The library functions that the controller relies on: the decoders, and whether a pattern
compiles. -/
structure Library where
  codec : NodeCodec
  compiles : String → Bool

/-- `node.Controller`, with the parts of the program it shares with others: the nodes installed in
the core and the limiters. -/
structure Controller where
  apiClient : Client
  core : Installation
  limiters : LimiterStore
  tag : String
  limiter : ℕ
  traffic : GoMap String Int64 := ∅
  userList : List UserInfo
  info : NodeInfo
  /-- The interval of `nodeInfoMonitorPeriodic`. -/
  monitorInterval : Int64
  /-- The interval of `userReportPeriodic`. -/
  reportInterval : Int64

/-- What a tick or the start of a controller meets. -/
structure TickInput where
  node : Reply
  users : Reply
  alive : Reply
  /-- The error of `DelNode`. -/
  delNode : Option String := none
  /-- The error of `AddNode`. -/
  addNode : Option String := none
  delUsers : CallResult := .ok
  addUsers : CallResult := .ok
  cert : CertInput := {}
  range : RangeOrder String := .ascending

/-- `Controller.buildNodeTag`. -/
def buildNodeTag (apiHost : String) (node : NodeInfo) : String :=
  "[" ++ apiHost ++ "]-" ++ node.type.name ++ ":" ++ itoa node.id

/-- The certificate request of a node, made for nodes with TLS only. -/
def nodeCert (o : Options) (node : NodeInfo) (input : CertInput) : Option String :=
  if node.security = Security.tls then requestCert o.certConfig input else none

/-- The ways in which the start of a controller fails. -/
inductive StartFailure
  | getNodeInfo (e : PanelError)
  | getUserList (e : PanelError)
  | requestCert (err : String)
  | addNode (err : String)
  | addUsers
  | panic (k : PanicKind)
deriving DecidableEq, Repr

/-- The three requests of a tick, made one after the other until one fails. -/
def fetch (lib : Library) (client : Client) (input : TickInput) : Client ×
    Except Failure (Option NodeInfo × Option (List UserInfo) × Option (GoMap ℤ ℤ)) :=
  match client.getNodeInfo lib.codec input.node with
  | (client, .error e) => (client, .error e)
  | (client, .ok newN) =>
    match client.getUserList lib.codec.toCodec input.users with
    | (client, .error e) => (client, .error (.error e))
    | (client, .ok newU) => (client, .ok (newN, newU, getUserAlive lib.codec.toCodec input.alive))

namespace Controller

/-- The part of `Controller.Start` after the requests. -/
def startNode (lib : Library) (o : Options) (client : Client) (core : Installation)
    (limiters : LimiterStore) (node : NodeInfo) (userList : List UserInfo) (aliveMap : GoMap ℤ ℤ)
    (input : TickInput) : Except StartFailure Controller :=
  let tag := if o.name = "" then buildNodeTag client.apiHost node else o.name
  let (limiters, p) := limiters.addLimiter tag o.limitConfig userList aliveMap
  match limiters.updateRule lib.compiles p node.rules with
  | .error k => .error (.panic k)
  | .ok limiters =>
    match nodeCert o node input.cert with
    | some err => .error (.requestCert err)
    | none =>
      match input.addNode with
      | some err => .error (.addNode err)
      | none =>
        match (core.addNode tag node).addUsers tag userList input.addUsers with
        | (_, false) => .error .addUsers
        | (core, true) => .ok
          { apiClient := client
            core := core
            limiters := limiters
            tag := tag
            limiter := p
            userList := userList
            info := node
            monitorInterval := node.pullInterval
            reportInterval := node.pushInterval }

/-- `Controller.Start` for a controller that shares `core` and `limiters`. Without settings to
start from, the start dereferences a nil pointer. -/
def start (lib : Library) (o : Options) (client : Client) (core : Installation)
    (limiters : LimiterStore) (input : TickInput) : Except StartFailure Controller :=
  match client.getNodeInfo lib.codec input.node with
  | (_, .error (.error e)) => .error (.getNodeInfo e)
  | (_, .error (.panic k)) => .error (.panic k)
  | (client, .ok node) =>
    match client.getUserList lib.codec.toCodec input.users with
    | (_, .error e) => .error (.getUserList e)
    | (client, .ok users) =>
      match node with
      | none => .error (.panic .nilDereference)
      | some node => startNode lib o client core limiters node (users.getD [])
          ((getUserAlive lib.codec.toCodec input.alive).getD ∅) input

/-- A controller that has started holds the fetched settings and users, and so do the core and the
limiter. The tasks have the intervals of the settings, whatever these are. -/
theorem startNode_ok {lib : Library} {o : Options} {client : Client} {core : Installation}
    {limiters : LimiterStore} {node : NodeInfo} {userList : List UserInfo}
    {aliveMap : GoMap ℤ ℤ} {input : TickInput} {c : Controller}
    (h : startNode lib o client core limiters node userList aliveMap input = .ok c) :
    c.apiClient = client ∧ c.info = node ∧ c.userList = userList ∧
      c.core.lookup c.tag = some ⟨node, uuids userList⟩ ∧
      (c.monitorInterval = node.pullInterval ∧ c.reportInterval = node.pushInterval) ∧
      c.limiters.get c.limiter =
        some ((newLimiter c.tag o.limitConfig userList aliveMap).setRules node.rules) := by
  unfold startNode at h
  generalize (if o.name = "" then buildNodeTag client.apiHost node else o.name) = tag at h
  dsimp only at h
  split at h
  · cases h
  rename_i limiters' hrules
  obtain rfl := LimiterStore.updateRule_ok hrules
  split at h
  · cases h
  split at h
  · cases h
  split at h
  · cases h
  rename_i core' hcall
  cases h
  have hok : input.addUsers = .ok := Installation.eq_ok_of_updateUsers_snd (congrArg Prod.snd hcall)
  obtain rfl : _ = core' := congrArg Prod.fst hcall
  refine ⟨rfl, rfl, rfl, by rw [hok]; exact Installation.lookup_addNode_addUsers ..,
    ⟨rfl, rfl⟩, ?_⟩
  rw [LimiterStore.get_modify, if_pos rfl, LimiterStore.get_addLimiter, Option.map_some]

theorem start_ok {lib : Library} {o : Options} {client : Client} {core : Installation}
    {limiters : LimiterStore} {input : TickInput} {c : Controller}
    (h : start lib o client core limiters input = .ok c) :
    ∃ client₁ users, client.getNodeInfo lib.codec input.node = (client₁, .ok (some c.info)) ∧
      client₁.getUserList lib.codec.toCodec input.users = (c.apiClient, .ok users) ∧
      c.userList = users.getD [] ∧ c.core.lookup c.tag = some ⟨c.info, uuids c.userList⟩ ∧
      (c.monitorInterval = c.info.pullInterval ∧ c.reportInterval = c.info.pushInterval) ∧
      ∃ aliveMap, c.limiters.get c.limiter =
        some ((newLimiter c.tag o.limitConfig c.userList aliveMap).setRules c.info.rules) := by
  unfold start at h
  split at h
  · cases h
  · cases h
  rename_i client₁ node hnode
  split at h
  · cases h
  rename_i client₂ users husers
  split at h
  · cases h
  obtain ⟨rfl, rfl, hlist, hcore, hintervals, hlimiter⟩ := startNode_ok h
  exact ⟨client₁, users, hnode, husers, hlist, hlist ▸ hcore, hintervals, _, hlist ▸ hlimiter⟩

end Controller

/-! ### Ticks -/

/-- How a tick ends. -/
inductive Status
  /-- The tick returns. -/
  | running
  /-- The tick never returns. -/
  | blocked
  /-- The program panics. -/
  | crashed (k : PanicKind)
deriving DecidableEq, Repr

namespace Controller

/-- The limiter is registered anew if the node has no configured name. -/
def renewLimiter (o : Options) (c : Controller) (newN : NodeInfo) (newA : Option (GoMap ℤ ℤ)) :
    Controller :=
  if o.name = "" then
    let tag := buildNodeTag c.apiClient.apiHost newN
    let (limiters, p) :=
      (c.limiters.deleteLimiter tag).addLimiter tag o.limitConfig c.userList (newA.getD ∅)
    { c with tag := tag, limiters := limiters, limiter := p }
  else c

/-- The intervals of the two tasks are compared with the new settings. Restarting the monitor from
within the monitor blocks; the report task gets the pull interval. -/
def checkIntervals (c : Controller) (newN : NodeInfo) : Controller × Status :=
  if c.monitorInterval ≠ newN.pullInterval ∧ newN.pullInterval ≠ 0 then
    ({ c with monitorInterval := newN.pullInterval }, .blocked)
  else if c.reportInterval ≠ newN.pushInterval ∧ newN.pushInterval ≠ 0 then
    ({ c with reportInterval := newN.pullInterval }, .running)
  else (c, .running)

/-- The node is added with all users. -/
def installNode (c : Controller) (newN : NodeInfo) (input : TickInput) : Controller × Status :=
  match input.addNode with
  | some _ => (c, .crashed (.logged "Add node failed"))
  | none =>
    match (c.core.addNode c.tag newN).addUsers c.tag c.userList input.addUsers with
    | (core, false) => ({ c with core := core }, .running)
    | (core, true) => checkIntervals { c with core := core } newN

/-- The new settings are taken over. -/
def takeOver (c : Controller) (newN : NodeInfo) (newU : Option (List UserInfo)) : Controller :=
  { c with info := newN, userList := newU.getD c.userList, traffic := ∅ }

/-- The branch of `nodeInfoMonitor` for new settings. -/
def reload (lib : Library) (o : Options) (c : Controller) (newN : NodeInfo)
    (newU : Option (List UserInfo)) (newA : Option (GoMap ℤ ℤ)) (input : TickInput) :
    Controller × Status :=
  let c := takeOver c newN newU
  match input.delNode with
  | some _ => (c, .crashed (.logged "Delete node failed"))
  | none =>
    let c := renewLimiter o { c with core := c.core.delNode c.tag } newN newA
    let c := { c with limiters := c.limiters.setAliveList c.limiter newA }
    match c.limiters.updateRule lib.compiles c.limiter newN.rules with
    | .error k => (c, .crashed k)
    | .ok limiters =>
      let c := { c with limiters := limiters }
      match nodeCert o newN input.cert with
      | some _ => (c, .running)
      | none => installNode c newN input

/-- The limiter and the record of traffic follow the difference of the user lists, and the new list
is kept. -/
def finishSync (o : Options) (c : Controller) (newU added deleted : List UserInfo) : Controller :=
  { c with
    limiters :=
      if added = [] ∧ deleted = [] then c.limiters
      else c.limiters.modify c.limiter fun l => l.updateUser c.tag added deleted
    traffic :=
      if o.limitConfig.enableDynamicSpeedLimit then
        GoMap.deleteAll (deleted.map UserInfo.uuid) c.traffic
      else c.traffic
    userList := newU }

/-- The core is called only for a non-empty list of users. -/
def callUnlessNil (users : List UserInfo) (core : Installation)
    (call : Installation → Installation × Bool) : Installation × Bool :=
  if users = [] then (core, true) else call core

/-- The core follows the difference of the user lists, deletions first. -/
def applyDelta (c : Controller) (deleted added : List UserInfo) (input : TickInput) :
    Installation × Bool :=
  match callUnlessNil deleted c.core fun core => core.delUsers c.tag deleted input.delUsers with
  | (core, false) => (core, false)
  | (core, true) => callUnlessNil added core fun core => core.addUsers c.tag added input.addUsers

/-- The branch of `nodeInfoMonitor` for unchanged settings. An empty list counts as no list. -/
def syncUsers (o : Options) (c : Controller) (newU : Option (List UserInfo))
    (newA : Option (GoMap ℤ ℤ)) (input : TickInput) : Controller :=
  let c := { c with limiters := c.limiters.setAliveList c.limiter newA }
  let newU := newU.getD []
  if newU = [] then c
  else
    let (deleted, added) := compareUserList input.range c.userList newU
    let (core, success) := c.applyDelta deleted added input
    if success then finishSync o { c with core := core } newU added deleted
    else { c with core := core }

/-- `Controller.nodeInfoMonitor`. -/
def nodeInfoMonitor (lib : Library) (o : Options) (c : Controller) (input : TickInput) :
    Controller × Status :=
  match fetch lib c.apiClient input with
  | (client, .error (.panic k)) => ({ c with apiClient := client }, .crashed k)
  | (client, .error (.error _)) => ({ c with apiClient := client }, .running)
  | (client, .ok (some newN, newU, newA)) =>
    reload lib o { c with apiClient := client } newN newU newA input
  | (client, .ok (none, newU, newA)) =>
    (syncUsers o { c with apiClient := client } newU newA input, .running)

/-! ### What a tick does -/

/-- Comparing the intervals changes nothing but the intervals. -/
theorem checkIntervals_fst (c : Controller) (newN : NodeInfo) :
    ∃ m r, (checkIntervals c newN).1 = { c with monitorInterval := m, reportInterval := r } := by
  unfold checkIntervals
  split_ifs
  · exact ⟨newN.pullInterval, c.reportInterval, rfl⟩
  · exact ⟨c.monitorInterval, newN.pullInterval, rfl⟩
  · exact ⟨c.monitorInterval, c.reportInterval, rfl⟩

/-- Installing a node changes nothing but the core and the intervals. -/
theorem installNode_fst {input : TickInput} (hadd : input.addNode = none) (c : Controller)
    (newN : NodeInfo) :
    ∃ m r, (installNode c newN input).1 =
      { c with
        core := ((c.core.addNode c.tag newN).addUsers c.tag c.userList input.addUsers).1
        monitorInterval := m
        reportInterval := r } := by
  simp only [installNode, hadd]
  rcases (c.core.addNode c.tag newN).addUsers c.tag c.userList input.addUsers with ⟨core, _ | _⟩
  · exact ⟨c.monitorInterval, c.reportInterval, rfl⟩
  · exact checkIntervals_fst { c with core := core } newN

theorem callUnlessNil_info {users : List UserInfo} {core : Installation} {t : String}
    {call : Installation → Installation × Bool}
    (hcall : ((call core).1.lookup t).map InstalledNode.info =
      (core.lookup t).map InstalledNode.info) :
    ((callUnlessNil users core call).1.lookup t).map InstalledNode.info =
      (core.lookup t).map InstalledNode.info := by
  unfold callUnlessNil
  split_ifs
  · rfl
  · exact hcall

/-- The user calls of a tick keep the installed nodes. -/
theorem applyDelta_info (c : Controller) (deleted added : List UserInfo) (input : TickInput)
    (t : String) : ((c.applyDelta deleted added input).1.lookup t).map InstalledNode.info =
      (c.core.lookup t).map InstalledNode.info := by
  have hdel : ((callUnlessNil deleted c.core fun core =>
      core.delUsers c.tag deleted input.delUsers).1.lookup t).map InstalledNode.info =
        (c.core.lookup t).map InstalledNode.info :=
    callUnlessNil_info (Installation.lookup_updateUsers_info t)
  unfold applyDelta
  split
  · rename_i core hcall
    rwa [hcall] at hdel
  · rename_i core hcall
    rw [hcall] at hdel
    exact (callUnlessNil_info (Installation.lookup_updateUsers_info t)).trans hdel

theorem syncUsers_core_info (o : Options) (c : Controller) (newU : Option (List UserInfo))
    (newA : Option (GoMap ℤ ℤ)) (input : TickInput) (t : String) :
    ((syncUsers o c newU newA input).core.lookup t).map InstalledNode.info =
      (c.core.lookup t).map InstalledNode.info := by
  unfold syncUsers
  dsimp only
  split_ifs
  · rfl
  · exact applyDelta_info { c with limiters := c.limiters.setAliveList c.limiter newA } _ _ input t
  · exact applyDelta_info { c with limiters := c.limiters.setAliveList c.limiter newA } _ _ input t

/-- Following the user list keeps the identity of the node. -/
theorem syncUsers_same (o : Options) (c : Controller) (newU : Option (List UserInfo))
    (newA : Option (GoMap ℤ ℤ)) (input : TickInput) :
    (syncUsers o c newU newA input).tag = c.tag ∧ (syncUsers o c newU newA input).info = c.info ∧
      (syncUsers o c newU newA input).apiClient = c.apiClient ∧
      (syncUsers o c newU newA input).limiter = c.limiter := by
  unfold syncUsers
  dsimp only
  split_ifs <;> exact ⟨rfl, rfl, rfl, rfl⟩

/-- The state of a reload when the rules have been replaced. -/
def beforeInstall (o : Options) (c : Controller) (newN : NodeInfo) (newU : Option (List UserInfo))
    (newA : Option (GoMap ℤ ℤ)) : Controller :=
  let c := takeOver c newN newU
  let c := renewLimiter o { c with core := c.core.delNode c.tag } newN newA
  let limiters := c.limiters.setAliveList c.limiter newA
  { c with limiters := limiters.modify c.limiter fun l => l.setRules newN.rules }

/-- A reload in which the node can be deleted, the rules compile and the certificate is there ends
with the installation of the new node. -/
theorem reload_eq_installNode {lib : Library} {o : Options} {newN : NodeInfo} {input : TickInput}
    (hdel : input.delNode = none) (hrules : newN.rules.regexp.all lib.compiles = true)
    (hcert : nodeCert o newN input.cert = none) (c : Controller) (newU : Option (List UserInfo))
    (newA : Option (GoMap ℤ ℤ)) :
    reload lib o c newN newU newA input =
      installNode (beforeInstall o c newN newU newA) newN input := by
  simp only [reload, hdel, LimiterStore.updateRule, hrules, if_true, hcert]
  rfl

end Controller

/-- A controller together with the way its last tick ended. -/
structure System where
  controller : Controller
  status : Status := .running

/-- The periodic task: a tick happens only while the previous ones have returned. -/
def System.tick (lib : Library) (o : Options) (s : System) (input : TickInput) : System :=
  match s.status with
  | .running =>
    let (c, status) := s.controller.nodeInfoMonitor lib o input
    { controller := c, status := status }
  | _ => s

theorem System.tick_of_running {s : System} (h : s.status = .running) (lib : Library)
    (o : Options) (input : TickInput) :
    s.tick lib o input = ⟨(s.controller.nodeInfoMonitor lib o input).1,
      (s.controller.nodeInfoMonitor lib o input).2⟩ := by
  simp only [tick, h]

theorem System.tick_of_not_running {s : System} (h : s.status ≠ .running) (lib : Library)
    (o : Options) (input : TickInput) : s.tick lib o input = s := by
  simp only [tick]

/-! ### A small panel

Decoders for short bodies, to run a controller on given replies: a user is four bytes, for the
uuid, the id, the speed limit and the device limit, and the settings of a vless node are two bytes,
for the security and the port. -/

/-- The users in a body. -/
def sampleUsers : Body → List UserInfo
  | uuid :: id :: speed :: device :: rest =>
    { id := id.toNat
      uuid := String.ofList [Char.ofNat uuid.toNat]
      speedLimit := speed.toNat
      deviceLimit := device.toNat } :: sampleUsers rest
  | _ => []

/-- The settings in a body. -/
def sampleSettings (body : Body) : VAllssNode where
  tls := (body.getD 0 0).toNat
  serverPort := (body.getD 1 0).toNat
  baseConfig := some { pushInterval := .number 60, pullInterval := .number 60 }

/-- A library with these decoders. -/
def sampleLibrary : Library where
  codec :=
    { sha256 := fun body => String.ofList (body.map fun b => Char.ofNat b.toNat)
      decodeMsgpack := fun _ => .error "not supported"
      decodeJson := fun body => .ok (some (sampleUsers body))
      unmarshalAlive := fun _ => .ok none
      unmarshalVAllss := fun body => .ok (sampleSettings body)
      unmarshalMieru := fun _ => .error "not supported"
      unmarshalCommon := fun _ _ => .error "not supported" }
  compiles := fun _ => true

/-- A client for a vless node. -/
def sampleClient : Client where
  apiHost := "panel"
  nodeType := .vless
  nodeId := 1

/-- An answer with status 200, and one with status 304. -/
def answer (body : Body) (etag : String) : Reply := .received 200 body etag "" none

@[inherit_doc answer]
def notModified : Reply := .received 304 [] "" "" none

/-- The controller after a start with the given options and answers. -/
def sampleStart (o : Options) (node users : Reply) : Except StartFailure Controller :=
  Controller.start sampleLibrary o sampleClient ∅ {}
    { node := node, users := users, alive := notModified }

end Tox.Node
