import Tox.Foundation.Run
import Tox.Node.Controller

/-!
# Reloading a node

A reload deletes the node before it knows that the new one can be installed. The certificate
request in between may fail, and then the tick returns without a node in the core; a rule that does
not compile ends the program at the same point. Since the client has already taken over the cache
validators of the new settings, the following ticks do not reload the node again. The core has the
node after every tick if this does not happen (`tag_mem_core_of_reloadSucceeds`).

A reload installs all users in the core, but renews the limiter only if the node has no configured
name. After a reload the registered limiter agrees with the user list exactly if it is renewed, or
agreed with the list before (`registered_agrees_reload_iff`).
-/

namespace Tox.Node

open Tox.Foundation Tox.Core Tox.Limit Tox.Panel

/-! ### The node stays installed -/

/-- The core deletes and adds nodes without failing, and if the tick fetches new settings, their
rules compile and the certificate they need is obtained. -/
def ReloadSucceeds (lib : Library) (o : Options) (s : System) (input : TickInput) : Prop :=
  s.status = .running → input.delNode = none ∧ input.addNode = none ∧
    ∀ client newN newU newA,
      fetch lib s.controller.apiClient input = (client, .ok (some newN, newU, newA)) →
        newN.rules.regexp.all lib.compiles = true ∧ nodeCert o newN input.cert = none

namespace Controller

theorem tag_mem_core_start {lib : Library} {o : Options} {client : Client} {core : Installation}
    {limiters : LimiterStore} {input : TickInput} {c : Controller}
    (h : start lib o client core limiters input = .ok c) : c.tag ∈ c.core := by
  obtain ⟨_, _, -, -, -, hcore, -⟩ := start_ok h
  exact Finmap.mem_of_lookup_eq_some hcore

theorem tag_mem_core_syncUsers {o : Options} {c : Controller} (h : c.tag ∈ c.core)
    (newU : Option (List UserInfo)) (newA : Option (GoMap ℤ ℤ)) (input : TickInput) :
    (syncUsers o c newU newA input).tag ∈ (syncUsers o c newU newA input).core := by
  rw [(syncUsers_same o c newU newA input).1, ← Finmap.lookup_isSome, ← Option.isSome_map,
    syncUsers_core_info, Option.isSome_map, Finmap.lookup_isSome]
  exact h

theorem tag_mem_core_installNode {input : TickInput} (hadd : input.addNode = none)
    (c : Controller) (newN : NodeInfo) :
    (installNode c newN input).1.tag ∈ (installNode c newN input).1.core := by
  obtain ⟨m, r, hinstall⟩ := installNode_fst hadd c newN
  rw [hinstall]
  refine (Installation.mem_updateUsers c.tag).mpr ?_
  exact Finmap.mem_insert.mpr (Or.inl rfl)

/-- One tick keeps the node installed if a reload does not stop in the middle. -/
theorem tag_mem_core_nodeInfoMonitor {lib : Library} {o : Options} {s : System}
    (h : s.controller.tag ∈ s.controller.core) {input : TickInput}
    (hrunning : s.status = .running) (hinput : ReloadSucceeds lib o s input) :
    (s.controller.nodeInfoMonitor lib o input).1.tag ∈
      (s.controller.nodeInfoMonitor lib o input).1.core := by
  obtain ⟨hdel, hadd, hreload⟩ := hinput hrunning
  unfold nodeInfoMonitor
  split
  · exact h
  · exact h
  · rename_i client newN newU newA hfetch
    obtain ⟨hrules, hcert⟩ := hreload client newN newU newA hfetch
    rw [reload_eq_installNode hdel hrules hcert]
    exact tag_mem_core_installNode hadd _ newN
  · rename_i client newU newA _
    exact tag_mem_core_syncUsers (c := { s.controller with apiClient := client }) h newU newA input

end Controller

/-- **The node stays installed.** After a successful start the core has a node under the tag of the
controller after every tick, as long as the core deletes and adds nodes without failing and every
tick that fetches new settings finds rules that compile and gets the certificate it needs. The
replies of the panel and the user calls may fail at any time. -/
theorem tag_mem_core_of_reloadSucceeds (lib : Library) (o : Options) (client : Client)
    (core : Installation) (limiters : LimiterStore) (first : TickInput) (c : Controller)
    (hstart : Controller.start lib o client core limiters first = .ok c)
    (inputs : List TickInput)
    (hinputs : Guarded (System.tick lib o) (ReloadSucceeds lib o) { controller := c } inputs)
    (part : List TickInput) (hpart : part <+: inputs) :
    let s := part.foldl (System.tick lib o) { controller := c }
    s.controller.tag ∈ s.controller.core := by
  obtain ⟨rest, rfl⟩ := hpart
  have hstep : ∀ s input, s.controller.tag ∈ s.controller.core → ReloadSucceeds lib o s input →
      (s.tick lib o input).controller.tag ∈ (s.tick lib o input).controller.core := by
    intro s input hs hinput
    by_cases hrunning : s.status = .running
    · rw [System.tick_of_running hrunning]
      exact Controller.tag_mem_core_nodeInfoMonitor hs hrunning hinput
    · rw [System.tick_of_not_running hrunning]
      exact hs
  exact hinputs.of_append.invariant hstep (Controller.tag_mem_core_start hstart)

/-- The options of a node that gets its certificate by a DNS challenge. -/
def dnsOptions : Options where
  certConfig := { certMode := .dns, certFile := "cert.pem", keyFile := "key.pem" }

/-- Ticks after a start without TLS: the panel turns TLS on, and then reports no change. -/
def tlsTicks (cert : CertInput) : List TickInput :=
  [{ node := answer [1, 80] "b", users := notModified, alive := notModified, cert := cert },
    { node := notModified, users := notModified, alive := notModified }]

/-- The node is installed after the ticks if the certificate is obtained. -/
theorem tlsTicks_installed :
    ∃ c, sampleStart dnsOptions (answer [0, 80] "a") (answer [] "u") = .ok c ∧
      let s := (tlsTicks { filesExist := false }).foldl (System.tick sampleLibrary dnsOptions)
        { controller := c }
      s.controller.tag ∈ s.controller.core := by
  have hcert : ∀ (newN : NodeInfo) (input : CertInput), input.newLego = none →
      input.createCert = none → nodeCert dnsOptions newN input = none := by
    intro newN input hlego hcreate
    unfold nodeCert
    split_ifs
    · simp [requestCert, dnsOptions, obtainCert, hlego, hcreate]
    · rfl
  have hrules : ∀ newN : NodeInfo, newN.rules.regexp.all sampleLibrary.compiles = true :=
    fun newN => List.all_eq_true.mpr fun _ _ => rfl
  obtain ⟨c, hstart⟩ : ∃ c, sampleStart dnsOptions (answer [0, 80] "a") (answer [] "u") = .ok c :=
    ⟨_, rfl⟩
  refine ⟨c, hstart, tag_mem_core_of_reloadSucceeds _ _ _ _ _ _ c hstart
    (tlsTicks { filesExist := false }) ⟨fun _ => ⟨rfl, rfl, ?_⟩, fun _ => ⟨rfl, rfl, ?_⟩, trivial⟩ _
    (List.prefix_refl _)⟩
  · exact fun _ newN _ _ _ => ⟨hrules newN, hcert newN _ rfl rfl⟩
  · exact fun _ newN _ _ _ => ⟨hrules newN, hcert newN _ rfl rfl⟩

/-- The node is gone after the ticks if the certificate request fails. -/
theorem tlsTicks_not_installed :
    ∃ c, sampleStart dnsOptions (answer [0, 80] "a") (answer [] "u") = .ok c ∧
      let s := (tlsTicks { filesExist := false, createCert := some "challenge failed" }).foldl
        (System.tick sampleLibrary dnsOptions) { controller := c }
      s.status = .running ∧ s.controller.tag ∉ s.controller.core := by
  refine ⟨_, rfl, ?_⟩
  decide

/-! ### The limiter after a reload -/

namespace Controller

variable (o : Options) (newN : NodeInfo) (newA : Option (GoMap ℤ ℤ))

theorem beforeInstall_tag_userList (c : Controller) (newU : Option (List UserInfo)) :
    (beforeInstall o c newN newU newA).tag =
        (if o.name = "" then buildNodeTag c.apiClient.apiHost newN else c.tag) ∧
      (beforeInstall o c newN newU newA).userList = newU.getD c.userList := by
  unfold beforeInstall renewLimiter
  dsimp only
  split_ifs <;> exact ⟨rfl, rfl⟩

/-- The entries of the limiters when the new node is about to be installed. -/
theorem userLimitInfo_beforeInstall (c : Controller) (newU : Option (List UserInfo)) :
    ((beforeInstall o c newN newU newA).limiters.getLimiter
        (beforeInstall o c newN newU newA).tag).map Limiter.userLimitInfo =
      if o.name = "" then
        some (newLimiter (beforeInstall o c newN newU newA).tag o.limitConfig
          (newU.getD c.userList) (newA.getD ∅)).userLimitInfo
      else (c.limiters.getLimiter c.tag).map Limiter.userLimitInfo := by
  unfold beforeInstall
  dsimp only
  rw [LimiterStore.userLimitInfo_getLimiter_setRules,
    LimiterStore.userLimitInfo_getLimiter_setAliveList]
  unfold renewLimiter
  split_ifs
  · simp only [LimiterStore.getLimiter_addLimiter, Option.map_some, takeOver]
  · rfl

end Controller

/-- **The limiter after a reload.** Let a tick fetch new settings and let its calls succeed. Then
the limiter registered under the tag of the controller agrees with the user list of the controller
exactly in two cases: the node has no configured name, and users of the new list with the same uuid
are the same; or it has one, and the limiter registered before the tick agrees with the new list
already. -/
theorem registered_agrees_reload_iff (lib : Library) (o : Options) (c : Controller)
    (input : TickInput) (client : Client) (newN : NodeInfo) (newU : Option (List UserInfo))
    (newA : Option (GoMap ℤ ℤ))
    (hfetch : fetch lib c.apiClient input = (client, .ok (some newN, newU, newA)))
    (hdel : input.delNode = none) (hrules : newN.rules.regexp.all lib.compiles = true)
    (hcert : nodeCert o newN input.cert = none) (hadd : input.addNode = none) :
    let c' := (c.nodeInfoMonitor lib o input).1
    c'.limiters.Agrees c'.tag c'.userList ↔
      (o.name = "" ∧ ConsistentUsers (newU.getD c.userList)) ∨
        (o.name ≠ "" ∧ c.limiters.Agrees c.tag (newU.getD c.userList)) := by
  intro c'
  set b := Controller.beforeInstall o { c with apiClient := client } newN newU newA with hb
  obtain ⟨m, r, hinstall⟩ := Controller.installNode_fst hadd b newN
  have hc' : c' = (Controller.installNode b newN input).1 := by
    simp only [c', Controller.nodeInfoMonitor, hfetch,
      Controller.reload_eq_installNode hdel hrules hcert, hb]
  obtain ⟨htag, hlist⟩ := Controller.beforeInstall_tag_userList o newN newA
    { c with apiClient := client } newU
  have hentries := Controller.userLimitInfo_beforeInstall o newN newA
    { c with apiClient := client } newU
  rw [← hb] at htag hlist hentries
  rw [hc', hinstall]
  change b.limiters.Agrees b.tag b.userList ↔ _
  rw [hlist]
  by_cases hname : o.name = ""
  · rw [if_pos hname] at hentries
    rw [LimiterStore.agrees_iff_of_userLimitInfo_eq hentries]
    have hnew := newLimiter_agrees_iff b.tag o.limitConfig (newU.getD c.userList) (newA.getD ∅)
    simp only [hname, ne_eq, not_true_eq_false, false_and, or_false, true_and, ← hnew]
    constructor
    · rintro ⟨_, hm, hagrees⟩
      cases hm
      exact hagrees
    · exact fun h => ⟨_, rfl, h⟩
  · rw [if_neg hname] at hentries htag
    rw [LimiterStore.agrees_iff_of_userLimitInfo_eq hentries, htag,
      ← LimiterStore.agrees_iff_of_userLimitInfo_eq rfl]
    simp only [hname, false_and, false_or, ne_eq, not_false_eq_true, true_and]

/-- A tick that brings new settings and a second user. -/
def secondUserTick : TickInput where
  node := answer [0, 81] "b"
  users := answer [97, 1, 0, 0, 98, 2, 0, 0] "v"
  alive := notModified

/-- Without a configured name the limiter knows both users after the tick. -/
theorem secondUserTick_agrees :
    ∃ c, sampleStart {} (answer [0, 80] "a") (answer [97, 1, 0, 0] "u") = .ok c ∧
      let c' := (c.nodeInfoMonitor sampleLibrary {} secondUserTick).1
      c'.limiters.Agrees c'.tag c'.userList := by
  refine ⟨_, rfl, (registered_agrees_reload_iff sampleLibrary {} _ secondUserTick _ _ _ _ rfl rfl
    rfl rfl rfl).mpr (Or.inl ⟨rfl, ?_⟩)⟩
  unfold ConsistentUsers
  decide

/-- With a configured name the second user is in the list of the controller, but not in the
limiter. -/
theorem secondUserTick_not_agrees :
    ∃ c, sampleStart { name := "edge" } (answer [0, 80] "a") (answer [97, 1, 0, 0] "u") = .ok c ∧
      let (c', status) := c.nodeInfoMonitor sampleLibrary { name := "edge" } secondUserTick
      status = .running ∧ c'.userList.map UserInfo.uuid = ["a", "b"] ∧
        ¬ c'.limiters.Agrees c'.tag c'.userList := by
  refine ⟨_, rfl, by decide, by decide, ?_⟩
  exact LimiterStore.not_agrees_of_lookup_eq_none
    (u := { id := 2, uuid := "b", speedLimit := 0, deviceLimit := 0 }) (by decide) (by decide)

end Tox.Node
