import Mathlib.Data.Set.Function
import Tox.Foundation.Run
import Tox.Node.Controller

/-!
# Node settings over many ticks

The client remembers the hash and the entity tag of the last settings it has read, and takes a
response with the same hash, or the status 304, to mean that nothing has changed. Both are taken
over as soon as a response arrives. A tick that fails later, because the settings do not decode,
the user list cannot be fetched or no certificate is obtained, leaves the controller with the old
settings and a client that will not report the new ones again.

A `Panel` serves settings, each with an entity tag of its own, and `Answers` says which replies it
may give. In every run in which new settings that arrive are also installed (`SettingsFollowed`),
the controller and the core have the settings that are served after every tick whose request is
answered (`applied_served_of_settingsFollowed`).
-/

namespace Tox.Node

open Tox.Foundation Tox.Core Tox.Limit Tox.Panel

/-! ### The panel -/

/-- A panel: the bodies of the settings it may serve and the entity tag of each. Different settings
have different hashes, and different entity tags unless they have none. -/
structure Panel (cd : NodeCodec) where
  settings : Set Body
  etagOf : Body → String
  hash_injOn : Set.InjOn cd.sha256 settings
  etag_injOn : ∀ b ∈ settings, ∀ b' ∈ settings, etagOf b ≠ "" → etagOf b = etagOf b' → b = b'

/-- The replies to a request for the settings while the panel serves the body `served`. -/
inductive Answers {cd : NodeCodec} (panel : Panel cd) (client : Client) (served : Body)
    (r : Reply) : Prop
  /-- The settings with their entity tag. -/
  | full (hstatus : r.status = 200) (herr : r.err = none) (hbody : r.body = served)
      (hetag : r.etag = panel.etagOf served)
  /-- The status 304, if the client has sent the entity tag of the settings. -/
  | notModified (hstatus : r.status = 304) (hetag : client.nodeEtag = panel.etagOf served)
      (hne : panel.etagOf served ≠ "")
  /-- A failure, with any contents. -/
  | failed (hstatus : r.status ≠ 304)
      (herr : checkResponse r "/api/v1/server/UniProxy/config" ≠ none)

/-! ### Ticks with and without new settings -/

namespace Controller

variable {lib : Library} {o : Options} {c : Controller} {input : TickInput} {client : Client}
  {newN : NodeInfo} {newU : Option (List UserInfo)} {newA : Option (GoMap ℤ ℤ)}

/-- A tick without new settings keeps the settings of the controller and of the core. -/
theorem nodeInfoMonitor_kept (lib : Library) (o : Options) (c : Controller) (input : TickInput)
    (h : ∀ newN newU newA, (fetch lib c.apiClient input).2 ≠ .ok (some newN, newU, newA)) :
    (c.nodeInfoMonitor lib o input).1.apiClient = (fetch lib c.apiClient input).1 ∧
      (c.nodeInfoMonitor lib o input).1.info = c.info ∧
      (c.nodeInfoMonitor lib o input).1.tag = c.tag ∧
      ∀ t, ((c.nodeInfoMonitor lib o input).1.core.lookup t).map InstalledNode.info =
        (c.core.lookup t).map InstalledNode.info := by
  unfold nodeInfoMonitor
  split <;> rename_i hfetch
  · rw [hfetch]
    exact ⟨rfl, rfl, rfl, fun _ => rfl⟩
  · rw [hfetch]
    exact ⟨rfl, rfl, rfl, fun _ => rfl⟩
  · rw [hfetch] at h
    exact absurd rfl (h _ _ _)
  · rename_i client newU newA
    obtain ⟨htag, hinfo, hclient, -⟩ :=
      syncUsers_same o { c with apiClient := client } newU newA input
    rw [hfetch]
    exact ⟨hclient, hinfo, htag,
      syncUsers_core_info o { c with apiClient := client } newU newA input⟩

/-- A pattern that does not compile ends the program in the middle of a reload. -/
theorem reload_crashed_of_not_compiles (hdel : input.delNode = none)
    (hrules : ¬ newN.rules.regexp.all lib.compiles = true) :
    (reload lib o c newN newU newA input).2 = .crashed .regexpCompile := by
  simp only [reload, hdel, LimiterStore.updateRule, hrules, if_false, Bool.false_eq_true]

/-- A reload that has the certificate and does not panic has made its calls with success. -/
theorem inputs_of_reload_not_crashed (hcert : nodeCert o newN input.cert = none)
    (hstatus : ∀ k, (reload lib o c newN newU newA input).2 ≠ .crashed k) :
    input.delNode = none ∧ newN.rules.regexp.all lib.compiles = true ∧ input.addNode = none := by
  cases hdel : input.delNode with
  | some err => exact absurd (by simp only [reload, hdel]) (hstatus (.logged "Delete node failed"))
  | none =>
    by_cases hrules : newN.rules.regexp.all lib.compiles = true
    · rw [reload_eq_installNode hdel hrules hcert] at hstatus
      cases hadd : input.addNode with
      | some err =>
        exact absurd (by simp only [installNode, hadd]) (hstatus (.logged "Add node failed"))
      | none => exact ⟨rfl, hrules, rfl⟩
    · exact absurd (reload_crashed_of_not_compiles hdel hrules) (hstatus .regexpCompile)

/-- A tick with new settings that has the certificate and does not panic installs them. -/
theorem nodeInfoMonitor_reloaded
    (hfetch : fetch lib c.apiClient input = (client, .ok (some newN, newU, newA)))
    (hcert : nodeCert o newN input.cert = none)
    (hstatus : ∀ k, (c.nodeInfoMonitor lib o input).2 ≠ .crashed k) :
    (c.nodeInfoMonitor lib o input).1.apiClient = client ∧
      (c.nodeInfoMonitor lib o input).1.info = newN ∧
      ((c.nodeInfoMonitor lib o input).1.core.lookup
        (c.nodeInfoMonitor lib o input).1.tag).map InstalledNode.info = some newN := by
  have htick : c.nodeInfoMonitor lib o input =
      reload lib o { c with apiClient := client } newN newU newA input := by
    simp only [nodeInfoMonitor, hfetch]
  rw [htick] at hstatus ⊢
  obtain ⟨hdel, hrules, hadd⟩ := inputs_of_reload_not_crashed hcert hstatus
  rw [reload_eq_installNode hdel hrules hcert]
  obtain ⟨m, r, hinstall⟩ :=
    installNode_fst hadd (beforeInstall o { c with apiClient := client } newN newU newA) newN
  obtain ⟨hclient, hinfo⟩ : (beforeInstall o { c with apiClient := client } newN newU
      newA).apiClient = client ∧
      (beforeInstall o { c with apiClient := client } newN newU newA).info = newN := by
    unfold beforeInstall renewLimiter
    dsimp only
    split_ifs <;> exact ⟨rfl, rfl⟩
  rw [hinstall]
  refine ⟨hclient, hinfo, (Installation.lookup_updateUsers_info _).trans ?_⟩
  rw [Installation.addNode, Finmap.lookup_insert, Option.map_some]

end Controller

/-! ### Settings and validators -/

/-- The controller and the core have the settings that the client decodes from a body. -/
def Applied (lib : Library) (c : Controller) (b : Body) : Prop :=
  c.apiClient.decodeNodeInfo lib.codec b = .ok c.info ∧
    (c.core.lookup c.tag).map InstalledNode.info = some c.info

/-- Settings whose hash or entity tag the client remembers are applied. -/
structure UpToDate (lib : Library) (panel : Panel lib.codec) (c : Controller) : Prop where
  of_hash : ∀ b ∈ panel.settings, c.apiClient.responseBodyHash = lib.codec.sha256 b →
    Applied lib c b
  of_etag : ∀ b ∈ panel.settings, panel.etagOf b ≠ "" → c.apiClient.nodeEtag = panel.etagOf b →
    Applied lib c b

/-- The client after the requests of a tick: the user list request keeps what the settings request
leaves behind. -/
theorem fetch_fst (lib : Library) (client : Client) (input : TickInput) :
    ∃ etag, (fetch lib client input).1 =
      { (client.getNodeInfo lib.codec input.node).1 with userEtag := etag } := by
  unfold fetch
  rcases client.getNodeInfo lib.codec input.node with ⟨client₁, e | newN⟩
  · exact ⟨client₁.userEtag, rfl⟩
  obtain ⟨etag, hetag⟩ := client₁.getUserList_fst lib.codec.toCodec input.users
  dsimp only
  generalize client₁.getUserList lib.codec.toCodec input.users = reply at hetag
  rcases reply with ⟨client₂, e | newU⟩
  · exact ⟨etag, hetag⟩
  · exact ⟨etag, hetag⟩

/-- New settings come out of the requests of a tick only if the settings request gives them. -/
theorem getNodeInfo_of_fetch {lib : Library} {client client' : Client} {input : TickInput}
    {newN : Option NodeInfo} {newU : Option (List UserInfo)} {newA : Option (GoMap ℤ ℤ)}
    (h : fetch lib client input = (client', .ok (newN, newU, newA))) :
    (client.getNodeInfo lib.codec input.node).2 = .ok newN := by
  unfold fetch at h
  split at h
  · cases h
  rename_i client₁ node hnode
  split at h
  · cases h
  cases h
  rw [hnode]

/-- If the client has seen exactly the settings of `b` last, and they are applied, then it is up to
date. -/
theorem UpToDate.of_applied {lib : Library} {panel : Panel lib.codec} {c : Controller} {b : Body}
    (hb : b ∈ panel.settings) (hhash : c.apiClient.responseBodyHash = lib.codec.sha256 b)
    (hetag : c.apiClient.nodeEtag = panel.etagOf b) (h : Applied lib c b) :
    UpToDate lib panel c where
  of_hash b' hb' hb'hash := by
    obtain rfl := panel.hash_injOn hb hb' (hhash.symm.trans hb'hash)
    exact h
  of_etag b' hb' hne hb'etag := by
    obtain rfl := panel.etag_injOn b' hb' b hb hne (hb'etag.symm.trans hetag)
    exact h

/-! ### Runs -/

/-- A tick together with the settings that the panel serves during it. -/
structure ServedTick where
  served : Body
  input : TickInput

/-- The settings request of the tick gets an answer of the panel. -/
def ServedTick.Served {cd : NodeCodec} (panel : Panel cd) (client : Client)
    (t : ServedTick) : Prop :=
  t.served ∈ panel.settings ∧ Answers panel client t.served t.input.node

/-- The settings request of the tick does not fail. -/
def ServedTick.Answered (t : ServedTick) : Prop :=
  t.input.node.status = 304 ∨
    checkResponse t.input.node "/api/v1/server/UniProxy/config" = none

/-- If the settings request of the tick gets settings that the client has not read yet, then they
decode, the user list can be fetched, and the certificate they need is obtained. If it fails, the
reply has neither the contents nor the entity tag of settings. -/
structure ServedTick.Followed (lib : Library) (o : Options) (panel : Panel lib.codec)
    (client : Client) (t : ServedTick) : Prop where
  of_new : t.input.node.status ≠ 304 →
    client.responseBodyHash ≠ lib.codec.sha256 t.input.node.body →
    checkResponse t.input.node "/api/v1/server/UniProxy/config" = none →
    ∃ client' newN newU newA, fetch lib client t.input = (client', .ok (some newN, newU, newA)) ∧
      nodeCert o newN t.input.cert = none
  of_failed : t.input.node.status ≠ 304 →
    checkResponse t.input.node "/api/v1/server/UniProxy/config" ≠ none →
    (∀ b ∈ panel.settings, lib.codec.sha256 t.input.node.body ≠ lib.codec.sha256 b) ∧
      ∀ b ∈ panel.settings, panel.etagOf b ≠ "" → t.input.node.etag ≠ panel.etagOf b

/-- Every tick of a running controller is answered by the panel, and the settings it gets are
followed. -/
def SettingsFollowed (lib : Library) (o : Options) (panel : Panel lib.codec) (s : System)
    (t : ServedTick) : Prop :=
  s.status = .running → t.Served panel s.controller.apiClient ∧
    t.Followed lib o panel s.controller.apiClient

section Tick

variable {lib : Library} {o : Options} {panel : Panel lib.codec} {c : Controller} {t : ServedTick}

/-- A tick whose settings request does not bring new settings keeps applied settings applied. -/
theorem Applied.kept {b : Body} (h : Applied lib c b)
    (hfetch : ∀ newN newU newA,
      (fetch lib c.apiClient t.input).2 ≠ .ok (some newN, newU, newA)) :
    Applied lib (c.nodeInfoMonitor lib o t.input).1 b := by
  obtain ⟨hclient, hinfo, htag, hcore⟩ := c.nodeInfoMonitor_kept lib o t.input hfetch
  obtain ⟨etag, hetag⟩ := fetch_fst lib c.apiClient t.input
  have hdecode : (fetch lib c.apiClient t.input).1.decodeNodeInfo lib.codec b =
      c.apiClient.decodeNodeInfo lib.codec b := by
    rw [hetag]
    rcases c.apiClient.getNodeInfo_eq lib.codec t.input.node with
      ⟨-, hget⟩ | ⟨-, ⟨e, -, hget⟩ | ⟨-, hget⟩⟩ <;> rw [hget] <;> rfl
  unfold Applied
  rw [hclient, hinfo, htag, hcore, hdecode]
  exact h

/-- Without new settings from the settings request there are none in the tick. -/
theorem fetch_ne_some (lib : Library) (client : Client) (input : TickInput)
    (h : ∀ newN, (client.getNodeInfo lib.codec input.node).2 ≠ .ok (some newN))
    (newN : NodeInfo) (newU : Option (List UserInfo)) (newA : Option (GoMap ℤ ℤ)) :
    (fetch lib client input).2 ≠ .ok (some newN, newU, newA) :=
  fun hok => h newN (getNodeInfo_of_fetch (Prod.ext rfl hok))

/-- The settings request finds nothing new: the validators stay, and so do the settings. -/
theorem UpToDate.unchanged (h : UpToDate lib panel c)
    (hget : c.apiClient.getNodeInfo lib.codec t.input.node = (c.apiClient, .ok none))
    (hserved : t.Served panel c.apiClient)
    (hsame : t.input.node.status = 304 ∨
      c.apiClient.responseBodyHash = lib.codec.sha256 t.input.node.body) :
    UpToDate lib panel (c.nodeInfoMonitor lib o t.input).1 ∧
      (t.Answered → Applied lib (c.nodeInfoMonitor lib o t.input).1 t.served) := by
  have hfetch := fetch_ne_some lib c.apiClient t.input
    (by rw [hget]; exact fun _ hn => by cases hn)
  obtain ⟨hclient, -⟩ := c.nodeInfoMonitor_kept lib o t.input hfetch
  obtain ⟨etag, hetag⟩ := fetch_fst lib c.apiClient t.input
  rw [hget] at hetag
  rw [hetag] at hclient
  refine ⟨⟨fun b hb hhash => ?_, fun b hb hne hb' => ?_⟩, fun hanswered => ?_⟩
  · rw [hclient] at hhash
    exact (h.of_hash b hb hhash).kept hfetch
  · rw [hclient] at hb'
    exact (h.of_etag b hb hne hb').kept hfetch
  · -- what the client has read last is what is served
    cases hserved.2 with
    | full hstatus herr hbody _ =>
      have hhash := hsame.resolve_left (by rw [hstatus]; decide)
      exact (h.of_hash _ hserved.1 (hbody ▸ hhash)).kept hfetch
    | notModified _ hetag' hne => exact (h.of_etag _ hserved.1 hne hetag').kept hfetch
    | failed hstatus herr => exact absurd hanswered (not_or.mpr ⟨hstatus, herr⟩)

/-- The settings request fails: the client has validators of no settings. -/
theorem UpToDate.of_failed {e : PanelError}
    (hget : c.apiClient.getNodeInfo lib.codec t.input.node =
      (c.apiClient.seen lib.codec t.input.node, .error (.error e)))
    (hbody : ∀ b ∈ panel.settings, lib.codec.sha256 t.input.node.body ≠ lib.codec.sha256 b)
    (hetag : ∀ b ∈ panel.settings, panel.etagOf b ≠ "" → t.input.node.etag ≠ panel.etagOf b) :
    UpToDate lib panel (c.nodeInfoMonitor lib o t.input).1 := by
  have hfetch := fetch_ne_some lib c.apiClient t.input
    (by rw [hget]; exact fun _ hn => by cases hn)
  obtain ⟨hclient, -⟩ := c.nodeInfoMonitor_kept lib o t.input hfetch
  obtain ⟨userEtag, hfst⟩ := fetch_fst lib c.apiClient t.input
  rw [hfst, hget] at hclient
  constructor
  · intro b hb hhash
    rw [hclient] at hhash
    exact absurd hhash (hbody b hb)
  · intro b hb hne hb'
    rw [hclient] at hb'
    exact absurd hb' (hetag b hb hne)

/-- The settings request brings new settings, which the tick installs. -/
theorem UpToDate.of_new (hserved : t.served ∈ panel.settings)
    (hbody : t.input.node.body = t.served) (hetag : t.input.node.etag = panel.etagOf t.served)
    (hget : c.apiClient.getNodeInfo lib.codec t.input.node =
      (c.apiClient.seen lib.codec t.input.node,
        (c.apiClient.decodeNodeInfo lib.codec t.input.node.body).map some))
    {client : Client} {newN : NodeInfo} {newU : Option (List UserInfo)}
    {newA : Option (GoMap ℤ ℤ)}
    (hfetch : fetch lib c.apiClient t.input = (client, .ok (some newN, newU, newA)))
    (hcert : nodeCert o newN t.input.cert = none)
    (hstatus : ∀ k, (c.nodeInfoMonitor lib o t.input).2 ≠ .crashed k) :
    UpToDate lib panel (c.nodeInfoMonitor lib o t.input).1 ∧
      Applied lib (c.nodeInfoMonitor lib o t.input).1 t.served := by
  obtain ⟨hclient, hinfo, hcore⟩ := Controller.nodeInfoMonitor_reloaded hfetch hcert hstatus
  obtain ⟨userEtag, hfst⟩ := fetch_fst lib c.apiClient t.input
  rw [hget, hfetch] at hfst
  change client = _ at hfst
  have hdecode : c.apiClient.decodeNodeInfo lib.codec t.served = .ok newN := by
    have hsnd := getNodeInfo_of_fetch hfetch
    rw [hget, hbody] at hsnd
    cases hd : c.apiClient.decodeNodeInfo lib.codec t.served with
    | error e => rw [hd] at hsnd; cases hsnd
    | ok n => rw [hd] at hsnd; cases hsnd; rfl
  have happlied : Applied lib (c.nodeInfoMonitor lib o t.input).1 t.served := by
    unfold Applied
    rw [hclient, hinfo]
    exact ⟨by rw [hfst]; exact hdecode, hcore⟩
  refine ⟨.of_applied hserved ?_ ?_ happlied, happlied⟩
  · rw [hclient, hfst, ← hbody]
    rfl
  · rw [hclient, hfst, ← hetag]
    rfl

/-- **One tick.** If the validators of the client stand for applied settings before a tick whose
settings are followed and which does not panic, they do so after it, and the settings that are
served are applied if the settings request is answered. -/
theorem UpToDate.nodeInfoMonitor (h : UpToDate lib panel c)
    (hserved : t.Served panel c.apiClient) (hfollowed : t.Followed lib o panel c.apiClient)
    (hstatus : ∀ k, (c.nodeInfoMonitor lib o t.input).2 ≠ .crashed k) :
    UpToDate lib panel (c.nodeInfoMonitor lib o t.input).1 ∧
      (t.Answered → Applied lib (c.nodeInfoMonitor lib o t.input).1 t.served) := by
  rcases c.apiClient.getNodeInfo_eq lib.codec t.input.node with
    ⟨hsame, hget⟩ | ⟨⟨h304, hhash⟩, ⟨e, hcheck, hget⟩ | ⟨hcheck, hget⟩⟩
  · exact h.unchanged hget hserved hsame
  · have hcheck' : checkResponse t.input.node "/api/v1/server/UniProxy/config" ≠ none := by
      rw [hcheck]
      exact Option.some_ne_none e
    obtain ⟨hbody, hetag⟩ := hfollowed.of_failed h304 hcheck'
    exact ⟨.of_failed hget hbody hetag, fun hanswered =>
      absurd hanswered (not_or.mpr ⟨h304, hcheck'⟩)⟩
  · obtain ⟨client, newN, newU, newA, hfetch, hcert⟩ := hfollowed.of_new h304 hhash hcheck
    cases hserved.2 with
    | full _ _ hbody hetag =>
      obtain ⟨huptodate, happlied⟩ :=
        UpToDate.of_new hserved.1 hbody hetag hget hfetch hcert hstatus
      exact ⟨huptodate, fun _ => happlied⟩
    | notModified hstatus' _ _ => exact absurd hstatus' h304
    | failed _ herr => exact absurd hcheck herr

end Tick

/-- A started controller is up to date if the panel has answered its request. -/
theorem UpToDate.start {lib : Library} {panel : Panel lib.codec} {o : Options} {client : Client}
    {core : Installation} {limiters : LimiterStore} {first : TickInput} {c : Controller}
    (hstart : Controller.start lib o client core limiters first = .ok c)
    (hbody : first.node.body ∈ panel.settings)
    (hetag : first.node.etag = panel.etagOf first.node.body) : UpToDate lib panel c := by
  obtain ⟨client₁, users, hnode, husers, -, hcore, -⟩ := Controller.start_ok hstart
  obtain ⟨userEtag, hfst⟩ := client₁.getUserList_fst lib.codec.toCodec first.users
  rw [husers] at hfst
  change c.apiClient = _ at hfst
  rcases client.getNodeInfo_eq lib.codec first.node with
    ⟨-, hget⟩ | ⟨-, ⟨e, -, hget⟩ | ⟨-, hget⟩⟩
  · rw [hget] at hnode
    cases hnode
  · rw [hget] at hnode
    cases hnode
  · rw [hget] at hnode
    obtain rfl : _ = client₁ := congrArg Prod.fst hnode
    refine .of_applied hbody (by rw [hfst]; rfl) (by rw [hfst]; exact hetag) ⟨?_, ?_⟩
    · have hsnd := congrArg Prod.snd hnode
      rw [hfst]
      change client.decodeNodeInfo lib.codec first.node.body = .ok c.info
      cases hd : client.decodeNodeInfo lib.codec first.node.body with
      | error e => rw [hd] at hsnd; cases hsnd
      | ok n => rw [hd] at hsnd; cases hsnd; rfl
    · rw [hcore, Option.map_some]

/-- A tick of the system. A controller that has panicked need not be up to date. -/
theorem UpToDate.tick {lib : Library} {panel : Panel lib.codec} {o : Options} {s : System}
    {t : ServedTick} (h : s.status = .running → UpToDate lib panel s.controller)
    (ht : SettingsFollowed lib o panel s t) (hrun : (s.tick lib o t.input).status = .running) :
    UpToDate lib panel (s.tick lib o t.input).controller := by
  by_cases hrunning : s.status = .running
  · obtain ⟨hserved, hfollowed⟩ := ht hrunning
    rw [System.tick_of_running hrunning] at hrun ⊢
    refine ((h hrunning).nodeInfoMonitor hserved hfollowed fun k => ?_).1
    rw [show (s.controller.nodeInfoMonitor lib o t.input).2 = .running from hrun]
    exact Status.noConfusion
  · rw [System.tick_of_not_running hrunning] at hrun
    exact absurd hrun hrunning

/-- **No settings are lost.** Let a controller start with settings of the panel, and let every tick
of the run follow the settings it gets. After every tick that is executed, whose settings request
does not fail and which does not panic, the controller and the core have the settings that the
panel serves at that tick. -/
theorem applied_served_of_settingsFollowed (lib : Library) (panel : Panel lib.codec) (o : Options)
    (client : Client) (core : Installation) (limiters : LimiterStore) (first : TickInput)
    (c : Controller) (hstart : Controller.start lib o client core limiters first = .ok c)
    (hbody : first.node.body ∈ panel.settings)
    (hetag : first.node.etag = panel.etagOf first.node.body) (ticks : List ServedTick)
    (hticks : Guarded (fun s t => s.tick lib o t.input) (SettingsFollowed lib o panel)
      { controller := c } ticks)
    (before : List ServedTick) (t : ServedTick) (hpart : before ++ [t] <+: ticks) :
    let s := before.foldl (fun s t => System.tick lib o s t.input) { controller := c }
    let s' := s.tick lib o t.input
    s.status = .running → t.Answered → (∀ k, s'.status ≠ .crashed k) →
      Applied lib s'.controller t.served := by
  intro s s' hrunning hanswered hstatus
  obtain ⟨rest, rfl⟩ := hpart
  rw [List.append_assoc, List.singleton_append] at hticks
  have hstep : ∀ (s : System) (t : ServedTick),
      (s.status = .running → UpToDate lib panel s.controller) → SettingsFollowed lib o panel s t →
        (s.tick lib o t.input).status = .running →
          UpToDate lib panel (s.tick lib o t.input).controller :=
    fun s t hs ht => UpToDate.tick hs ht
  have huptodate := hticks.of_append.invariant hstep (fun _ => .start hstart hbody hetag) hrunning
  obtain ⟨hserved, hfollowed⟩ := hticks.guard_at hrunning
  have hs' : s' = _ := System.tick_of_running hrunning lib o t.input
  rw [hs'] at hstatus ⊢
  exact (huptodate.nodeInfoMonitor hserved hfollowed hstatus).2 hanswered

/-- A panel that serves two settings, with different ports. -/
def twoPorts : Panel sampleLibrary.codec where
  settings := {[0, 80], [0, 81]}
  etagOf body := if body = [0, 80] then "a" else "b"
  hash_injOn := by
    rintro b (rfl | rfl) b' (rfl | rfl) h
    all_goals first | rfl | exact absurd h (by decide)
  etag_injOn := by
    rintro b (rfl | rfl) b' (rfl | rfl) - h
    all_goals first | rfl | exact absurd h (by decide)

/-- A tick in which the client gets the second settings. -/
def portTick (users : Reply) : ServedTick where
  served := [0, 81]
  input := { node := answer [0, 81] "b", users := users, alive := notModified }

/-- A tick in which the second settings are served still and nothing is new. -/
def quietTick : ServedTick where
  served := [0, 81]
  input := { node := notModified, users := notModified, alive := notModified }

/-- With the user list fetched in the first tick, the second settings are applied after both. -/
theorem portTick_applied :
    ∃ c, sampleStart {} (answer [0, 80] "a") (answer [] "u") = .ok c ∧
      let s := [portTick notModified, quietTick].foldl
        (fun s t => System.tick sampleLibrary {} s t.input) { controller := c }
      Applied sampleLibrary s.controller [0, 81] := by
  have hfollowed : ∀ c, sampleStart {} (answer [0, 80] "a") (answer [] "u") = .ok c →
      Guarded (fun s t => System.tick sampleLibrary {} s t.input)
        (SettingsFollowed sampleLibrary {} twoPorts) { controller := c }
          [portTick notModified, quietTick] := by
    intro c hstart
    cases hstart
    refine ⟨fun _ => ⟨⟨Or.inr rfl, .full rfl rfl rfl rfl⟩, fun _ _ _ => ⟨_, _, _, _, rfl, rfl⟩, ?_⟩,
      fun _ => ⟨⟨Or.inr rfl, .notModified rfl rfl (by decide)⟩, ?_, ?_⟩, trivial⟩
    · exact fun _ h => absurd rfl h
    · exact fun h => absurd rfl h
    · exact fun h => absurd rfl h
  obtain ⟨c, hstart, hrunning, hstatus⟩ :
      ∃ c, sampleStart {} (answer [0, 80] "a") (answer [] "u") = .ok c ∧
        ([portTick notModified].foldl (fun s t => System.tick sampleLibrary {} s t.input)
          { controller := c }).status = .running ∧
        ([portTick notModified, quietTick].foldl
          (fun s t => System.tick sampleLibrary {} s t.input)
          { controller := c }).status = .running := ⟨_, rfl, by decide, by decide⟩
  refine ⟨c, hstart, applied_served_of_settingsFollowed sampleLibrary twoPorts {} sampleClient ∅ {}
    _ c hstart (Or.inl rfl) rfl _ (hfollowed c hstart) [portTick notModified] quietTick
    (List.prefix_refl _) hrunning (Or.inl rfl) fun k hk => ?_⟩
  cases hstatus.symm.trans hk

/-- With the user list request failing in the first tick, the controller keeps the first settings
after the second tick, in which every request succeeds. -/
theorem portTick_lost :
    ∃ c, sampleStart {} (answer [0, 80] "a") (answer [] "u") = .ok c ∧
      let s := [portTick (.failed "timeout"), quietTick].foldl
        (fun s t => System.tick sampleLibrary {} s t.input) { controller := c }
      s.status = .running ∧ s.controller.info.common.serverPort = 80 ∧
        ¬ Applied sampleLibrary s.controller [0, 81] := by
  refine ⟨_, rfl, by decide, by decide, ?_⟩
  rintro ⟨hdecode, -⟩
  cases hdecode

end Tox.Node
