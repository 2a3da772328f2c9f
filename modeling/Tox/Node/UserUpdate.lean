import Tox.Foundation.Run
import Tox.Node.UserSync

/-!
# User lists over many ticks

The client takes over the entity tag of a user list when it reads the list, before the list is
passed on. If a call of the core fails afterwards, the tick returns with the old list in the
controller, and later ticks are answered that nothing changed. A list without users is dropped in
the same way, because it looks like an unchanged list.

`Watched` is a controller together with the last list that the panel has sent. In every run of
ticks without new settings in which each list can be followed (`ListFollowed`), the controller and
the core have the users of the last list (`users_eq_last_of_listFollowed`).
-/

namespace Tox.Node

open Tox.Foundation Tox.Core Tox.Limit Tox.Panel

/-- The user list that the panel sends in a tick: none if the list is not requested because the
request before it fails, and none if the request fails or finds the list unchanged. -/
def answeredList (lib : Library) (client : Client) (input : TickInput) :
    Option (List UserInfo) :=
  match client.getNodeInfo lib.codec input.node with
  | (_, .error _) => none
  | (client, .ok _) =>
    match client.getUserList lib.codec.toCodec input.users with
    | (_, .error _) => none
    | (_, .ok users) => if input.users.status = 304 then none else some (users.getD [])

/-- A controller and the last user list that the panel has sent. -/
structure Watched where
  system : System
  last : List UserInfo

/-- One tick. -/
def Watched.tick (lib : Library) (o : Options) (w : Watched) (input : TickInput) : Watched where
  system := w.system.tick lib o input
  last :=
    if w.system.status = .running then
      (answeredList lib w.system.controller.apiClient input).getD w.last
    else w.last

/-- The tick brings no new settings, and if it gets a user list, the list can be followed: it is
empty only if the users before are none; otherwise the calls of the core succeed, no uuid occurs
twice in it, and the keys tell the uuids of the two lists apart. -/
def ListFollowed (lib : Library) (w : Watched) (input : TickInput) : Prop :=
  w.system.status = .running →
    (∀ client newN newU newA,
      fetch lib w.system.controller.apiClient input ≠ (client, .ok (some newN, newU, newA))) ∧
    ∀ new, answeredList lib w.system.controller.apiClient input = some new →
      (new = [] ∧ w.system.controller.userList = []) ∨
      (new ≠ [] ∧ input.delUsers = .ok ∧ input.addUsers = .ok ∧ DistinctUuids new ∧
        Distinguishable w.system.controller.userList new)

/-- The controller and the core have the users of the last list. -/
structure InStep (c : Controller) (last : List UserInfo) : Prop where
  userList_eq : c.userList = last
  distinct : DistinctUuids c.userList
  core_eq : (c.core.lookup c.tag).map InstalledNode.users = some (uuids last)

theorem fetch_error {lib : Library} {client client' : Client} {input : TickInput} {e : Failure}
    (h : fetch lib client input = (client', .error e)) : answeredList lib client input = none := by
  unfold answeredList
  rcases hnode : client.getNodeInfo lib.codec input.node with ⟨client₁, e₁ | newN⟩
  · rfl
  rcases husers : client₁.getUserList lib.codec.toCodec input.users with ⟨client₂, e₂ | users⟩
  · simp only [husers]
  · simp only [fetch, hnode, husers] at h
    cases h

theorem fetch_ok {lib : Library} {client client' : Client} {input : TickInput}
    {newN : Option NodeInfo} {newU : Option (List UserInfo)} {newA : Option (GoMap ℤ ℤ)}
    (h : fetch lib client input = (client', .ok (newN, newU, newA))) :
    (answeredList lib client input = none ∧ newU = none) ∨
      answeredList lib client input = some (newU.getD []) := by
  unfold answeredList
  rcases hnode : client.getNodeInfo lib.codec input.node with ⟨client₁, e₁ | node⟩
  · simp only [fetch, hnode] at h
    cases h
  rcases husers : client₁.getUserList lib.codec.toCodec input.users with ⟨client₂, e₂ | users⟩
  · simp only [fetch, hnode, husers] at h
    cases h
  · simp only [fetch, hnode, husers] at h
    cases h
    simp only [husers]
    split_ifs with hstatus
    · rw [Client.getUserList_of_status_eq hstatus] at husers
      cases husers
      exact Or.inl ⟨rfl, rfl⟩
    · exact Or.inr rfl

namespace InStep

variable {c : Controller} {last : List UserInfo}

/-- The invariant holds after a successful start. -/
theorem start {lib : Library} {o : Options} {client : Client} {core : Installation}
    {limiters : LimiterStore} {input : TickInput}
    (h : Controller.start lib o client core limiters input = .ok c)
    (hdistinct : DistinctUuids c.userList) : InStep c c.userList := by
  obtain ⟨_, _, -, -, -, hcore, -⟩ := Controller.start_ok h
  exact ⟨rfl, hdistinct, by rw [hcore, Option.map_some]⟩

/-- A tick that gets no list, or an empty one, keeps the users. -/
theorem syncUsers_nil (h : InStep c last) (o : Options) (client : Client)
    (newA : Option (GoMap ℤ ℤ)) (input : TickInput) {newU : Option (List UserInfo)}
    (hnew : newU.getD [] = []) :
    InStep (Controller.syncUsers o { c with apiClient := client } newU newA input) last := by
  simp only [Controller.syncUsers, hnew, if_true]
  exact ⟨h.userList_eq, h.distinct, h.core_eq⟩

/-- A tick that gets a list which can be followed. -/
theorem sync {lib : Library} {o : Options} {input : TickInput} {client : Client}
    {newU : Option (List UserInfo)} {newA : Option (GoMap ℤ ℤ)} (h : InStep c last)
    (hfetch : fetch lib c.apiClient input = (client, .ok (none, newU, newA)))
    (hne : newU.getD [] ≠ []) (hdel : input.delUsers = .ok) (hadd : input.addUsers = .ok)
    (hnew : DistinctUuids (newU.getD [])) (hkey : Distinguishable c.userList (newU.getD [])) :
    InStep (c.nodeInfoMonitor lib o input).1 (newU.getD []) := by
  obtain ⟨node, hnode, husers⟩ := Option.map_eq_some_iff.mp h.core_eq
  obtain ⟨hcalls, hcore⟩ := Controller.applyDelta_of_ok hnode hdel hadd
    (compareUserList input.range c.userList (newU.getD [])).1
    (compareUserList input.range c.userList (newU.getD [])).2
  rw [Controller.nodeInfoMonitor_sync hfetch rfl hne (Prod.mk.eta).symm hcalls o]
  refine ⟨rfl, hnew, (congrArg (Option.map InstalledNode.users) hcore).trans ?_⟩
  rw [Option.map_some, Controller.follow, husers, ← h.userList_eq,
    uuids_compareUserList input.range h.distinct hnew hkey]

end InStep

/-- One tick of a running controller. -/
theorem InStep.tick {lib : Library} {o : Options} {w : Watched}
    (h : InStep w.system.controller w.last) {input : TickInput}
    (hinput : ListFollowed lib w input) :
    InStep (w.tick lib o input).system.controller (w.tick lib o input).last := by
  by_cases hrunning : w.system.status = .running
  swap
  · have htick : w.tick lib o input = w := by
      simp only [Watched.tick, System.tick_of_not_running hrunning, if_neg hrunning]
    rwa [htick]
  obtain ⟨hsettings, hlist⟩ := hinput hrunning
  set c := w.system.controller with hc
  have hcontroller : (w.tick lib o input).system.controller =
      (c.nodeInfoMonitor lib o input).1 := by
    simp only [Watched.tick, System.tick_of_running hrunning, hc]
  have hlast : (w.tick lib o input).last = (answeredList lib c.apiClient input).getD w.last := by
    simp only [Watched.tick, hrunning, if_true, hc]
  rw [hcontroller, hlast]
  rcases hfetch : fetch lib c.apiClient input with ⟨client, e | ⟨newN, newU, newA⟩⟩
  · rw [fetch_error hfetch, Option.getD_none]
    cases e <;> simp only [Controller.nodeInfoMonitor, hfetch] <;>
      exact ⟨h.userList_eq, h.distinct, h.core_eq⟩
  · cases newN with
    | some newN => exact absurd hfetch (hsettings client newN newU newA)
    | none =>
      have hsync : (c.nodeInfoMonitor lib o input).1 =
          Controller.syncUsers o { c with apiClient := client } newU newA input := by
        simp only [Controller.nodeInfoMonitor, hfetch]
      rcases fetch_ok hfetch with ⟨hnone, rfl⟩ | hsome
      · rw [hsync, hnone, Option.getD_none]
        exact h.syncUsers_nil o client newA input rfl
      · rw [hsome, Option.getD_some]
        rcases hlist _ hsome with ⟨hnil, hempty⟩ | ⟨hne, hdel, hadd, hnew, hkey⟩
        · have hlast_nil : w.last = [] := h.userList_eq.symm.trans hempty
          rw [hsync, hnil, ← hlast_nil]
          exact h.syncUsers_nil o client newA input hnil
        · exact h.sync hfetch hne hdel hadd hnew hkey

/-- **No lost user list.** Let a controller start with a list in which no uuid occurs twice, and let
it run through ticks without new settings, such that every list the panel sends can be followed.
Then after every tick the controller has the last list the panel has sent, and the users of the
node in the core are those of this list. Requests that fail and answers that the list is unchanged
may occur at any time. -/
theorem users_eq_last_of_listFollowed (lib : Library) (o : Options) (client : Client)
    (core : Installation) (limiters : LimiterStore) (first : TickInput) (c : Controller)
    (hstart : Controller.start lib o client core limiters first = .ok c)
    (hdistinct : DistinctUuids c.userList) (inputs : List TickInput)
    (hinputs : Guarded (Watched.tick lib o) (ListFollowed lib)
      { system := { controller := c }, last := c.userList } inputs)
    (part : List TickInput) (hpart : part <+: inputs) :
    let w := part.foldl (Watched.tick lib o)
      { system := { controller := c }, last := c.userList }
    w.system.controller.userList = w.last ∧
      (w.system.controller.core.lookup w.system.controller.tag).map InstalledNode.users =
        some (uuids w.last) := by
  obtain ⟨rest, rfl⟩ := hpart
  have hstep : ∀ w input, InStep w.system.controller w.last → ListFollowed lib w input →
      InStep (w.tick lib o input).system.controller (w.tick lib o input).last :=
    fun w input hw hinput => hw.tick hinput
  have hinv := hinputs.of_append.invariant hstep (.start hstart hdistinct)
  exact ⟨hinv.userList_eq, hinv.core_eq⟩

/-- A tick with the given answer to the user list request, and the given outcome of adding
users. -/
def listTick (users : Reply) (addUsers : CallResult) : TickInput where
  node := notModified
  users := users
  alive := notModified
  addUsers := addUsers

/-- The run after a start with one user, for ticks of which the first sends a second user and the
second finds nothing changed. -/
def secondUserRun (addUsers : CallResult) : List TickInput :=
  [listTick (answer [97, 1, 0, 0, 98, 2, 0, 0] "v") addUsers, listTick notModified .ok]

/-- The second user arrives if the core accepts it. -/
theorem secondUserRun_followed :
    ∃ c, sampleStart {} (answer [0, 80] "a") (answer [97, 1, 0, 0] "u") = .ok c ∧
      let w := (secondUserRun .ok).foldl (Watched.tick sampleLibrary {})
        { system := { controller := c }, last := c.userList }
      w.system.controller.userList = w.last ∧
        (w.system.controller.core.lookup w.system.controller.tag).map InstalledNode.users =
          some (uuids w.last) := by
  obtain ⟨c, hstart, hdistinct, hfirst, hsecond⟩ :
      ∃ c, sampleStart {} (answer [0, 80] "a") (answer [97, 1, 0, 0] "u") = .ok c ∧
        DistinctUuids c.userList ∧
        ListFollowed sampleLibrary { system := { controller := c }, last := c.userList }
          (listTick (answer [97, 1, 0, 0, 98, 2, 0, 0] "v") .ok) ∧
        ListFollowed sampleLibrary
          (Watched.tick sampleLibrary {} { system := { controller := c }, last := c.userList }
            (listTick (answer [97, 1, 0, 0, 98, 2, 0, 0] "v") .ok)) (listTick notModified .ok) := by
    refine ⟨_, rfl, by unfold DistinctUuids; decide, fun _ => ⟨?_, ?_⟩, fun _ => ⟨?_, ?_⟩⟩
    · rintro _ _ _ _ ⟨⟩
    · rintro _ ⟨⟩
      refine Or.inr ⟨by decide, rfl, rfl, ?_, ?_⟩
      · unfold DistinctUuids
        decide
      · unfold Distinguishable
        decide
    · rintro _ _ _ _ ⟨⟩
    · rintro _ ⟨⟩
  exact ⟨c, hstart, users_eq_last_of_listFollowed sampleLibrary {} _ _ _ _ c hstart hdistinct
    (secondUserRun .ok) ⟨hfirst, hsecond, trivial⟩ _ (List.prefix_refl _)⟩

/-- If the core refuses the second user once, the user is lost: the last tick succeeds in every
respect, but neither the controller nor the core has the second user of the last list. -/
theorem secondUserRun_lost :
    ∃ c, sampleStart {} (answer [0, 80] "a") (answer [97, 1, 0, 0] "u") = .ok c ∧
      let w := (secondUserRun (.failed {"a"})).foldl (Watched.tick sampleLibrary {})
        { system := { controller := c }, last := c.userList }
      w.system.status = .running ∧ w.last.map UserInfo.uuid = ["a", "b"] ∧
        w.system.controller.userList.map UserInfo.uuid = ["a"] ∧
        (w.system.controller.core.lookup w.system.controller.tag).map InstalledNode.users =
          some {"a"} := by
  refine ⟨_, rfl, ?_⟩
  decide

end Tox.Node
