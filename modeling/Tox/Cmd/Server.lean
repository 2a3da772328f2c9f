import Mathlib
import Tox.Node.Service
import Tox.Panel.Protocols

/-!
# The server and its configuration file

`serverHandle` loads the configuration, starts the core and the nodes, and then watches the
configuration file. On a change the watcher resets the configuration in place, loads the file into
it and calls back: the nodes and the core are closed, and a new core and new nodes are started with
the configuration. An error of loading the file is logged and otherwise ignored.

The running core and the running nodes are identified by the restart that created them. If the file
cannot be loaded, the server is the same after the event exactly if the event is ignored, or nothing
is running and the restart stops again before anything runs (`watch_unchanged_iff`).
-/

namespace Tox.Cmd

open Tox.Foundation Tox.Core Tox.Limit Tox.Node Tox.Panel

/-! ### The configuration -/

/-- The parts of `conf.CoreConfig` that select a core. -/
structure CoreConfig where
  type : String
  name : String := ""
deriving DecidableEq, Repr

/-- `conf.LogConfig`. -/
structure LogConfig where
  level : String := "info"
  output : String := ""
deriving DecidableEq, Repr

/-- `conf.Conf`; the defaults are those of `conf.New`. -/
structure Conf where
  logConfig : LogConfig := {}
  coresConfig : List CoreConfig := []
  nodeConfig : List NodeConfig := []

/-- What reading the configuration file gives. -/
inductive FileRead
  | openError (err : String)
  | readError (err : String)
  | content (data : Body)
deriving DecidableEq, Repr

/-- The library functions that the server relies on. -/
structure ServerLibrary extends ServiceLibrary where
  /-- `json5.TrimNodeReader`. -/
  trim : Body → Body
  /-- `json.Unmarshal` into a configuration. It may fail after it has set some of the fields. -/
  unmarshal : Body → Conf → Conf × Option String
  /-- The core types that have been registered. -/
  registered : List String

/-- `Conf.LoadFromPath`: the configuration afterwards, and the error. -/
def Conf.loadFromPath (lib : ServerLibrary) (p : Conf) : FileRead → Conf × Option String
  | .openError err => (p, some ("open config file error: " ++ err))
  | .readError err => (p, some ("read config file error: " ++ err))
  | .content data =>
    match lib.unmarshal (lib.trim data) p with
    | (p, some err) => (p, some ("unmarshal config error: " ++ err))
    | (p, none) => (p, none)

/-! ### Cores -/

/-- The loop of `core.NewSelector`: the cores by name. `create` is the error of creating a core. -/
def newSelector (lib : ServerLibrary) (create : CoreConfig → Option String)
    (cores : GoMap String CoreConfig) : List CoreConfig → Except String (GoMap String CoreConfig)
  | [] => .ok cores
  | c :: rest =>
    if lib.toLower c.type ∈ lib.registered then
      match create c with
      | some err => .error err
      | none =>
        newSelector lib create (cores.insert (if c.name = "" then c.type else c.name) c) rest
    else .error ("unknown core type: " ++ c.type)

/-- `core.NewCore`: the cores that have been created, by name. -/
def newCore (lib : ServerLibrary) (create : CoreConfig → Option String) :
    List CoreConfig → Except String (GoMap String CoreConfig)
  | [] => .error "no have vail core"
  | [c] =>
    if c.type ∈ lib.registered then
      match create c with
      | some err => .error err
      | none => .ok ((∅ : GoMap String CoreConfig).insert c.type c)
    else .error "unknown core type"
  | cores => newSelector lib create ∅ cores

/-! ### The server -/

/-- A core that has been created, and whether it runs. -/
structure ServerCore where
  /-- The restart that has created the core. -/
  generation : ℕ
  cores : GoMap String CoreConfig
  running : Bool

/-- The variables of `serverHandle`. -/
structure Server where
  conf : Conf
  /-- The core; a nil pointer after an attempt to create one has failed. -/
  vc : Option ServerCore
  nodes : Nodes := {}
  /-- The tags of the nodes that have been started, with the restart that has started them. -/
  running : List (ℕ × String) := []
  /-- The number of restarts so far. -/
  restarts : ℕ := 0
  /-- The time of the last change that was not ignored, in nanoseconds. -/
  pre : Option ℤ := none
  crashed : Option PanicKind := none

/-- What a restart meets. -/
structure RestartInput where
  removal : Nodes.Removal := {}
  closeCore : Option String := none
  create : CoreConfig → Option String := fun _ => none
  startCore : Option String := none
  /-- The start of the node at a position. -/
  node : ℕ → StartInput

/-- The tags of the controllers whose start has returned without an error. -/
def startedTags (nodes : Nodes) (failure : Option (ℕ × NodeFailure)) : List String :=
  match failure with
  | none => nodes.controllers.filterMap id
  | some (k, _) => (nodes.controllers.take k).filterMap id

namespace Server

/-- The nodes are started with a new core. -/
def startNodes (lib : ServerLibrary) (s : Server) (input : RestartInput) : Server :=
  let configs := s.conf.nodeConfig.mapIdx fun i c => (c, input.node i)
  let (nodes, failure) := Nodes.start lib.toServiceLibrary s.nodes.limiters configs
  { s with
    nodes := nodes
    running := (startedTags nodes failure).map fun tag => (s.restarts, tag)
    crashed :=
      match failure with
      | some (_, .controller (.panic k)) => some k
      | _ => s.crashed }

/-- A new core is created and started, and the nodes with it. -/
def startCore (lib : ServerLibrary) (s : Server) (input : RestartInput) : Server :=
  match newCore lib input.create s.conf.coresConfig with
  | .error _ => { s with vc := none }
  | .ok cores =>
    match input.startCore with
    | some _ => { s with vc := some ⟨s.restarts, cores, false⟩ }
    | none => startNodes lib { s with vc := some ⟨s.restarts, cores, true⟩ } input

/-- The callback of `serverHandle`: the nodes and the core are closed, then everything is started
anew. -/
def restart (lib : ServerLibrary) (s : Server) (input : RestartInput) : Server :=
  match s.nodes.close input.removal with
  | (nodes, some k) => { s with nodes := nodes, crashed := some k }
  | (nodes, none) =>
    let s := { s with nodes := nodes, running := [], restarts := s.restarts + 1 }
    match s.vc with
    | none => { s with crashed := some .nilDereference }
    | some core =>
      let s := { s with vc := some { core with running := false } }
      match input.closeCore with
      | some _ => s
      | none => startCore lib s input

end Server

/-- A change of the watched files: whether the mode has changed (`e.Has(fsnotify.Chmod)`, also if
something else has changed with it), the time, what the configuration file reads then, and what a
restart meets. -/
structure WatchEvent where
  chmod : Bool := false
  now : ℤ
  file : FileRead
  restart : RestartInput

namespace Server

/-- The last change that was not ignored is less than ten seconds ago. -/
def Recent (s : Server) (now : ℤ) : Prop := ∃ pre, s.pre = some pre ∧ now < pre + 10 * 1000000000

instance (s : Server) (now : ℤ) : Decidable (s.Recent now) :=
  decidable_of_iff (s.pre.any fun pre => now < pre + 10 * 1000000000) (by
    unfold Recent
    cases s.pre <;> simp)

/-- The handler of `Conf.Watch`. -/
def watch (lib : ServerLibrary) (s : Server) (e : WatchEvent) : Server :=
  if s.crashed.isSome then s
  else if e.chmod then s
  else if s.Recent e.now then s
  else
    -- the error of loading the file is logged, and the restart goes on
    let (conf, _) := Conf.loadFromPath lib {} e.file
    restart lib { s with pre := some e.now, conf := conf } e.restart

/-- The core that is running, with the restart that has created it. -/
def runningCore (s : Server) : Option (ℕ × GoMap String CoreConfig) :=
  s.vc.bind fun core => if core.running then some (core.generation, core.cores) else none

/-- The program goes on with the same configuration, core and nodes. -/
structure Unchanged (s s' : Server) : Prop where
  alive : s'.crashed = none
  conf : s'.conf = s.conf
  runningCore : s'.runningCore = s.runningCore
  running : s'.running = s.running

/-- The watcher ignores the event. -/
def Ignores (s : Server) (e : WatchEvent) : Prop := e.chmod = true ∨ s.Recent e.now

/-- A restart stops before a core runs. -/
def Stops (lib : ServerLibrary) (conf : Conf) (input : RestartInput) : Prop :=
  input.closeCore ≠ none ∨ (∃ err, newCore lib input.create conf.coresConfig = .error err) ∨
    input.startCore ≠ none

/-- No core is running, the file is decoded, up to the error, to the configuration that is held, and
the restart stops again. -/
structure StaysDown (lib : ServerLibrary) (s : Server) (e : WatchEvent) : Prop where
  down : s.runningCore = none
  conf : (Conf.loadFromPath lib {} e.file).1 = s.conf
  closes : (s.nodes.close e.restart.removal).2 = none
  core : s.vc ≠ none
  stops : Stops lib s.conf e.restart

end Server

/-- `serverHandle` up to the call of `Watch`, which it only reaches if everything has been started.
-/
def serverHandle (lib : ServerLibrary) (file : FileRead) (input : RestartInput) : Option Server :=
  match Conf.loadFromPath lib {} file with
  | (_, some _) => none
  | (conf, none) =>
    match newCore lib input.create conf.coresConfig, input.startCore with
    | .ok cores, none =>
      let configs := conf.nodeConfig.mapIdx fun i c => (c, input.node i)
      match Nodes.start lib.toServiceLibrary {} configs with
      | (nodes, none) => some
        { conf := conf
          vc := some ⟨0, cores, true⟩
          nodes := nodes
          running := (startedTags nodes none).map fun tag => (0, tag) }
      | (_, some _) => none
    | _, _ => none

/-! ### Restarts -/

namespace Server

/-- Nodes run on a running core, and what runs has been started by one of the restarts so far. -/
structure Coherent (s : Server) : Prop where
  generation_le : ∀ g cores, s.runningCore = some (g, cores) → g ≤ s.restarts
  running_nil : s.runningCore = none → s.running = []

variable {lib : ServerLibrary} {s : Server} {input : RestartInput}

/-- The server when a restart has closed everything. -/
def closed (s : Server) (nodes : Nodes) (core : ServerCore) : Server :=
  { s with
    nodes := nodes
    running := []
    restarts := s.restarts + 1
    vc := some { core with running := false } }

/-- A restart that can close the nodes goes on to the core. -/
theorem restart_eq (lib : ServerLibrary) (hclose : (s.nodes.close input.removal).2 = none)
    (hvc : s.vc ≠ none) :
    ∃ nodes core, s.restart lib input =
      if input.closeCore = none then startCore lib (s.closed nodes core) input
      else s.closed nodes core := by
  obtain ⟨core, hcore⟩ := Option.ne_none_iff_exists'.mp hvc
  rcases hresult : s.nodes.close input.removal with ⟨nodes, _ | k⟩
  · refine ⟨nodes, core, ?_⟩
    simp only [restart, hresult, hcore]
    cases input.closeCore <;> rfl
  · rw [hresult] at hclose
    cases hclose

theorem startCore_of_error {err : String}
    (h : newCore lib input.create s.conf.coresConfig = .error err) :
    startCore lib s input = { s with vc := none } := by
  simp only [startCore, h]

theorem startCore_of_ok {cores : GoMap String CoreConfig}
    (h : newCore lib input.create s.conf.coresConfig = .ok cores) :
    startCore lib s input =
      if input.startCore = none then
        startNodes lib { s with vc := some ⟨s.restarts, cores, true⟩ } input
      else { s with vc := some ⟨s.restarts, cores, false⟩ } := by
  simp only [startCore, h]
  cases input.startCore <;> rfl

/-- A restart that stops leaves nothing running. -/
theorem restart_of_stops (hclose : (s.nodes.close input.removal).2 = none) (hvc : s.vc ≠ none)
    (hstops : Stops lib s.conf input) :
    (s.restart lib input).conf = s.conf ∧ (s.restart lib input).runningCore = none ∧
      (s.restart lib input).running = [] ∧ (s.restart lib input).crashed = s.crashed := by
  obtain ⟨nodes, core, hrestart⟩ := restart_eq lib hclose hvc
  rw [hrestart]
  split_ifs with hcc
  · cases hcores : newCore lib input.create (s.closed nodes core).conf.coresConfig with
    | error err =>
      rw [startCore_of_error hcores]
      exact ⟨rfl, rfl, rfl, rfl⟩
    | ok cores =>
      have hstart : input.startCore ≠ none := by
        rcases hstops with h | ⟨err, h⟩ | h
        · exact absurd hcc h
        · cases hcores.symm.trans h
        · exact h
      rw [startCore_of_ok hcores, if_neg hstart]
      exact ⟨rfl, rfl, rfl, rfl⟩
  · exact ⟨rfl, rfl, rfl, rfl⟩

/-- A restart that does not stop leaves a core running that it has created. -/
theorem restart_of_not_stops (hclose : (s.nodes.close input.removal).2 = none) (hvc : s.vc ≠ none)
    (hstops : ¬ Stops lib s.conf input) :
    (s.restart lib input).conf = s.conf ∧ (s.restart lib input).restarts = s.restarts + 1 ∧
      ∃ cores, (s.restart lib input).runningCore = some (s.restarts + 1, cores) := by
  obtain ⟨hcc, hnew, hstart⟩ : input.closeCore = none ∧
      (∀ err, newCore lib input.create s.conf.coresConfig ≠ .error err) ∧
      input.startCore = none := by
    simpa [Stops] using hstops
  obtain ⟨nodes, core, hrestart⟩ := restart_eq lib hclose hvc
  rw [hrestart, if_pos hcc]
  cases hcores : newCore lib input.create (s.closed nodes core).conf.coresConfig with
  | error err => exact absurd hcores (hnew err)
  | ok cores =>
    rw [startCore_of_ok hcores, if_pos hstart]
    exact ⟨rfl, rfl, cores, rfl⟩

/-- A restart that cannot close the nodes, or finds no core, ends the program. -/
theorem restart_crashed (h : (s.nodes.close input.removal).2 ≠ none ∨ s.vc = none) :
    (s.restart lib input).crashed ≠ none := by
  rcases hresult : s.nodes.close input.removal with ⟨nodes, _ | k⟩
  · have hvc : s.vc = none := h.resolve_left (by simp [hresult])
    simp [restart, hresult, hvc]
  · simp [restart, hresult]

/-- A restart keeps the server coherent, unless it ends the program. -/
theorem Coherent.restart (halive : (s.restart lib input).crashed = none) :
    (s.restart lib input).Coherent := by
  have hclose : (s.nodes.close input.removal).2 = none := by
    by_contra h
    exact restart_crashed (Or.inl h) halive
  have hvc : s.vc ≠ none := fun h => restart_crashed (Or.inr h) halive
  by_cases hstops : Stops lib s.conf input
  · obtain ⟨-, hcore, hrunning, -⟩ := restart_of_stops hclose hvc hstops
    exact ⟨fun g cores h => (by rw [hcore] at h; cases h), fun _ => hrunning⟩
  · obtain ⟨-, hrestarts, cores, hcore⟩ := restart_of_not_stops hclose hvc hstops
    refine ⟨fun g cores' h => ?_, fun h => by rw [hcore] at h; cases h⟩
    rw [hcore] at h
    cases h
    exact hrestarts.ge

theorem Coherent.watch (h : s.Coherent) {e : WatchEvent} (halive : (s.watch lib e).crashed = none) :
    (s.watch lib e).Coherent := by
  unfold Server.watch at halive ⊢
  split_ifs at halive ⊢
  · exact h
  · exact h
  · exact h
  · exact Coherent.restart halive

/-- A program that has ended does not come back. -/
theorem crashed_foldl_watch (es : List WatchEvent) (h : s.crashed ≠ none) :
    (es.foldl (watch lib) s).crashed ≠ none := by
  induction es generalizing s with
  | nil => exact h
  | cons e es ih =>
    refine ih ?_
    rwa [watch, if_pos (Option.isSome_iff_ne_none.mpr h)]

/-- The server is coherent as long as the program runs. -/
theorem Coherent.foldl_watch (h : s.Coherent) (es : List WatchEvent)
    (halive : (es.foldl (Server.watch lib) s).crashed = none) :
    (es.foldl (Server.watch lib) s).Coherent := by
  induction es generalizing s with
  | nil => exact h
  | cons e es ih =>
    have hfirst : (s.watch lib e).crashed = none := by
      by_contra hcrashed
      exact crashed_foldl_watch es hcrashed halive
    exact ih (h.watch hfirst) halive

/-- A handled event that finds a broken file leaves the server as it is only if nothing was running
and nothing runs afterwards. -/
theorem unchanged_restart_iff (h : s.Coherent) (halive : s.crashed = none) (conf : Conf)
    (pre : Option ℤ) :
    s.Unchanged (restart lib { s with pre := pre, conf := conf } input) ↔
      s.runningCore = none ∧ conf = s.conf ∧ (s.nodes.close input.removal).2 = none ∧
        s.vc ≠ none ∧ Stops lib conf input := by
  constructor
  · intro hsame
    have hclose : (s.nodes.close input.removal).2 = none := by
      by_contra hnot
      exact restart_crashed (s := { s with pre := pre, conf := conf }) (Or.inl hnot) hsame.alive
    have hvc : s.vc ≠ none := fun hnot =>
      restart_crashed (s := { s with pre := pre, conf := conf }) (Or.inr hnot) hsame.alive
    by_cases hstops : Stops lib conf input
    · obtain ⟨hconf, hcore, -, -⟩ :=
        restart_of_stops (s := { s with pre := pre, conf := conf }) hclose hvc hstops
      exact ⟨hsame.runningCore.symm.trans hcore, hconf.symm.trans hsame.conf, hclose, hvc, hstops⟩
    · -- the new core has been created by a later restart than the running one
      obtain ⟨-, -, cores, hcore⟩ :=
        restart_of_not_stops (s := { s with pre := pre, conf := conf }) hclose hvc hstops
      have hle := h.generation_le _ _ (hsame.runningCore.symm.trans hcore)
      exact absurd hle (Nat.not_succ_le_self _)
  · rintro ⟨hdown, rfl, hclose, hvc, hstops⟩
    obtain ⟨hconf, hcore, hrunning, hcrashed⟩ :=
      restart_of_stops (s := { s with pre := pre, conf := s.conf }) hclose hvc hstops
    exact ⟨hcrashed.trans halive, hconf, hcore.trans hdown.symm,
      hrunning.trans (h.running_nil hdown).symm⟩

end Server

theorem serverHandle_coherent {lib : ServerLibrary} {file : FileRead} {input : RestartInput}
    {s : Server} (h : serverHandle lib file input = some s) : s.Coherent := by
  unfold serverHandle at h
  split at h
  · cases h
  split at h
  · dsimp only at h
    split at h
    · cases h
      exact ⟨fun g cores hcore => (by cases hcore; exact le_rfl), nofun⟩
    · cases h
  · cases h

/-- **A broken configuration file.** An event leaves the configuration, the core and the nodes as
they are if and only if the watcher ignores it, or nothing is running and the restart stops before
anything runs. Whether the file can be loaded makes no difference. -/
theorem watch_unchanged_iff (lib : ServerLibrary) {file : FileRead} {input : RestartInput}
    {s₀ : Server} (hstart : serverHandle lib file input = some s₀) (es : List WatchEvent)
    (e : WatchEvent) (halive : (es.foldl (Server.watch lib) s₀).crashed = none) :
    (es.foldl (Server.watch lib) s₀).Unchanged ((es ++ [e]).foldl (Server.watch lib) s₀) ↔
      (es.foldl (Server.watch lib) s₀).Ignores e ∨
        (es.foldl (Server.watch lib) s₀).StaysDown lib e := by
  have hcoherent := (serverHandle_coherent hstart).foldl_watch es halive
  rw [List.foldl_append, List.foldl_cons, List.foldl_nil]
  generalize es.foldl (Server.watch lib) s₀ = s at halive hcoherent ⊢
  have hsame : s.Unchanged s := ⟨halive, rfl, rfl, rfl⟩
  unfold Server.watch
  rw [if_neg (by simp [halive])]
  split_ifs with hchmod hrecent
  · exact iff_of_true hsame (Or.inl (Or.inl hchmod))
  · exact iff_of_true hsame (Or.inl (Or.inr hrecent))
  · have hnot : ¬ s.Ignores e := fun h => h.elim hchmod hrecent
    refine (Server.unchanged_restart_iff hcoherent halive _ _).trans ?_
    constructor
    · rintro ⟨hdown, hconf, hclose, hvc, hstops⟩
      exact Or.inr ⟨hdown, hconf, hclose, hvc, hconf ▸ hstops⟩
    · rintro (h | ⟨hdown, hconf, hclose, hvc, hstops⟩)
      · exact absurd h hnot
      · exact ⟨hdown, hconf, hclose, hvc, hconf ▸ hstops⟩

/-- The configuration file with the given log level, a sing core and one node. -/
def confFile (level : String) : Body :=
  bytesOf "\x7b\"Log\":\x7b\"Level\":\"" ++ bytesOf level ++
    bytesOf ("\"\x7d,\"Cores\":[\x7b\"Type\":\"sing\"\x7d]," ++
      "\"Nodes\":[\x7b\"ApiHost\":\"panel\",\"NodeType\":\"vless\",\"NodeID\":1\x7d]\x7d")

/-- The configuration with the given log level. -/
def sampleConf (level : String) : Conf where
  logConfig := { level := level }
  coresConfig := [{ type := "sing" }]
  nodeConfig := [(sampleNode "vless" (answer [0, 80] "a") .ok).1]

/-- The small panel for a server whose configuration has one of three log levels. -/
def sampleServerLibrary : ServerLibrary where
  toServiceLibrary := sampleServiceLibrary
  trim := id
  unmarshal := fun data conf =>
    match data with
    | [] => (conf, some "unexpected end of JSON input")
    | _ :: _ =>
      match ["info", "debug", "error"].find? fun level => confFile level = data with
      | some level => (sampleConf level, none)
      | none => (conf, some "invalid character")
  registered := ["sing"]

theorem loadFromPath_confFile {level : String} (h : level ∈ ["info", "debug", "error"]) :
    Conf.loadFromPath sampleServerLibrary {} (.content (confFile level)) =
      (sampleConf level, none) := by
  have hfind : (["info", "debug", "error"].find? fun l => confFile l = confFile level) =
      some level := by
    simp only [confFile, List.append_cancel_left_eq, List.append_cancel_right_eq]
    simp only [List.mem_cons, List.not_mem_nil, or_false] at h
    rcases h with rfl | rfl | rfl
    · decide
    · decide
    · decide
  rcases hfile : confFile level with _ | ⟨b, bs⟩
  · cases (List.append_eq_nil_iff.mp (List.append_eq_nil_iff.mp hfile).1).1
  · rw [hfile] at hfind
    simp only [Conf.loadFromPath, sampleServerLibrary, id_eq, hfind]

def sampleRestart : RestartInput where
  node := fun _ => (sampleNode "vless" (answer [0, 80] "a") .ok).2

/-- The configuration file has been emptied. -/
def emptiedFile (chmod : Bool) : WatchEvent where
  chmod := chmod
  now := 0
  file := .content []
  restart := sampleRestart

/-- The server goes on if the mode of the file has changed too. -/
theorem emptiedFile_ignored :
    (Conf.loadFromPath sampleServerLibrary {} (emptiedFile true).file).2 ≠ none ∧
      ∃ s, serverHandle sampleServerLibrary (.content (confFile "info")) sampleRestart = some s ∧
        s.runningCore ≠ none ∧ s.Unchanged (s.watch sampleServerLibrary (emptiedFile true)) := by
  refine ⟨by decide, ?_⟩
  obtain ⟨s, hstart, halive, hrunning⟩ :
      ∃ s, serverHandle sampleServerLibrary (.content (confFile "info")) sampleRestart = some s ∧
        s.crashed = none ∧ s.runningCore ≠ none := by
    rw [serverHandle, loadFromPath_confFile (by decide)]
    exact ⟨_, rfl, rfl, nofun⟩
  refine ⟨s, hstart, hrunning, ?_⟩
  exact (watch_unchanged_iff _ hstart [] (emptiedFile true) halive).mpr (Or.inl (Or.inl rfl))

/-- The server is left without configuration, core and nodes. -/
theorem emptiedFile_down :
    (Conf.loadFromPath sampleServerLibrary {} (emptiedFile false).file).2 ≠ none ∧
      ∃ s, serverHandle sampleServerLibrary (.content (confFile "info")) sampleRestart = some s ∧
        s.runningCore ≠ none ∧ s.running.length = 1 ∧
        let s' := s.watch sampleServerLibrary (emptiedFile false)
        s'.crashed = none ∧ s'.conf.coresConfig = [] ∧ s'.runningCore = none ∧ s'.running = [] ∧
          ¬ s.Unchanged s' := by
  rw [serverHandle, loadFromPath_confFile (by decide)]
  refine ⟨by decide, _, rfl, nofun, by decide, by decide, by decide, by decide, by decide, ?_⟩
  exact fun hsame => absurd hsame.runningCore nofun

end Tox.Cmd
