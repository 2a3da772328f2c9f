import Tox.Common.Counter
import Tox.Panel.Node

/-!
# The mieru core

The mieru core has the interface of the other cores, but serves a single node: it has one listener
(the mux), one node information and one map of users, and the tag that a call names is only
remembered. The functions below read the tag nowhere.

The users and the endpoints of the mux are set from the maps of the core by
`Mieru.applyConfig`, which every call ends with. What the mieru library answers is an argument
(`MuxResults`).

Deleting a user closes the connections of the user, so that a storage is written only while the map
refers to it; the storages are therefore kept in the map itself. A connection is named by the node
it was made to and its number there.
-/

namespace Tox.Core

open Tox.Foundation Tox.Counter Tox.Panel

/-! ### The mux -/

/-- `mierupb.TransportProtocol`. -/
inductive TransportProtocol
  | tcp
  | udp
deriving DecidableEq, Repr

/-- `mierupb.PortBinding`. -/
inductive PortBinding
  | portRange (range : String) (protocol : TransportProtocol)
  | port (port : Int32) (protocol : TransportProtocol)
deriving DecidableEq, Repr

/-- The port binding of a node. An unknown transport is TCP, and a port that is not positive is
443. -/
def portBinding (node : MieruNode) : PortBinding :=
  let protocol : TransportProtocol :=
    if node.transport = "UDP" ∨ node.transport = "udp" then .udp else .tcp
  if node.portRange ≠ "" then .portRange node.portRange protocol
  else .port (Int32.ofInt (if node.serverPort ≤ 0 then 443 else node.serverPort)) protocol

/-- `mieruprotocol.Mux`: the users and the endpoints that it has been given. -/
structure Mux where
  users : Finset String := ∅
  endpoints : Option PortBinding := none
deriving DecidableEq

/-- The errors of the library calls of `Mieru.applyConfig`: `PortBindingsToUnderlayProperties`,
`NewConfig` and `Mux.Start`. -/
structure MuxResults where
  endpoints : Option String := none
  trafficPattern : Option String := none
  start : Option String := none

/-- The errors of the calls of the mieru core. -/
inductive MieruError
  /-- `failed to get underlay properties: ` and the reason. -/
  | underlayProperties (err : String)
  /-- `failed to new traffic pattern config: ` and the reason. -/
  | trafficPattern (err : String)
  /-- `failed to start mux: ` and the reason. -/
  | start (err : String)
  /-- The error of closing the mux. -/
  | close (err : String)
deriving DecidableEq, Repr

/-! ### The core -/

/-- `mieru.Mieru`. -/
structure Mieru where
  mux : Mux := {}
  running : Bool := false
  started : Bool := false
  nodeInfo : Option NodeInfo := none
  trafficMap : GoMap String TrafficStorage := ∅
  uidMap : GoMap String ℤ := ∅
  /-- The open connections of every user. -/
  userConns : GoMap String (List (String × ℕ)) := ∅
  tag : String := ""

namespace Mieru

/-- The port binding of the node, if the core has a mieru node. -/
def binding (m : Mieru) : Option PortBinding := (m.nodeInfo.bind NodeInfo.mieru).map portBinding

/-- What `Mieru.applyConfig` makes of the mux and of `started`, and its error. Without users the
mux is closed and replaced. -/
def configure (binding : PortBinding) (users : Finset String) (running started : Bool) (mux : Mux)
    (results : MuxResults) : Mux × Bool × Option MieruError :=
  if users = ∅ then
    if started then ({}, false, none) else (mux, started, none)
  else
    let mux := { mux with users := users }
    match results.endpoints with
    | some err => (mux, started, some (.underlayProperties err))
    | none =>
      let mux := { mux with endpoints := some binding }
      match results.trafficPattern with
      | some err => (mux, started, some (.trafficPattern err))
      | none =>
        if running ∧ ¬ started then
          match results.start with
          | some err => (mux, started, some (.start err))
          | none => (mux, true, none)
        else (mux, started, none)

/-- `Mieru.applyConfig`. -/
def applyConfig (m : Mieru) (results : MuxResults) : Mieru × Option MieruError :=
  match m.binding with
  | none => (m, none)
  | some binding =>
    let (mux, started, err) :=
      configure binding m.uidMap.keys m.running m.started m.mux results
    ({ m with mux := mux, started := started }, err)

/-- `Mieru.Close`; `err` is the error of closing the mux. -/
def close (m : Mieru) (err : Option String) : Mieru × Option MieruError :=
  if m.started then ({ m with running := false, started := false, mux := {} }, err.map .close)
  else ({ m with running := false }, none)

/-- `Mieru.AddNode`. -/
def addNode (m : Mieru) (tag : String) (info : NodeInfo) (results : MuxResults) :
    Mieru × Option MieruError :=
  { m with nodeInfo := some info, tag := tag, running := true }.applyConfig results

/-- `Mieru.DelNode`. -/
def delNode (m : Mieru) (_tag : String) (err : Option String) : Mieru × Option MieruError :=
  m.close err

/-- `Mieru.AddUsers`. -/
def addUsers (m : Mieru) (_tag : String) (users : List UserInfo) (results : MuxResults) :
    Mieru × Except MieruError ℕ :=
  let m := { m with uidMap := GoMap.storeAll UserInfo.uuid UserInfo.id users m.uidMap }
  match m.applyConfig results with
  | (m, some err) => (m, .error err)
  | (m, none) => (m, .ok users.length)

/-- `Mieru.DelUsers`. The connections of the users are closed. -/
def delUsers (m : Mieru) (users : List UserInfo) (_tag : String) (results : MuxResults) :
    Mieru × Option MieruError :=
  let uuids := users.map UserInfo.uuid
  { m with
    uidMap := GoMap.deleteAll uuids m.uidMap
    trafficMap := GoMap.deleteAll uuids m.trafficMap
    userConns := GoMap.deleteAll uuids m.userConns }.applyConfig results

/-- One round of the loop of `Mieru.GetUserTrafficSlice`, at the user `uuid`. A counter without a
user id is cleared too, but not reported. -/
def visitUser (uidMap : GoMap String ℤ) (reset : Bool)
    (state : GoMap String TrafficStorage × List UserTraffic) (uuid : String) :
    GoMap String TrafficStorage × List UserTraffic :=
  match state.1.lookup uuid with
  | none => state
  | some counter =>
    let up := counter.upCounter
    let down := counter.downCounter
    if up + down > 0 then
      let trafficMap := if reset then state.1.insert uuid {} else state.1
      match uidMap.lookup uuid with
      | none => (trafficMap, state.2)
      | some uid => (trafficMap, state.2 ++ [⟨uid, up, down⟩])
    else state

/-- `Mieru.GetUserTrafficSlice`. -/
def getUserTrafficSlice (m : Mieru) (_tag : String) (reset : Bool) (range : RangeOrder String) :
    Mieru × List UserTraffic :=
  let (trafficMap, slice) :=
    (range.keys m.trafficMap).foldl (visitUser m.uidMap reset) (m.trafficMap, [])
  ({ m with trafficMap := trafficMap }, slice)

/-- `Mieru.bridgeTCP` and `Mieru.bridgeUDP` for a connection of the user: it gets a storage and is
entered among the connections of the user. -/
def bridge (m : Mieru) (user : String) (conn : String × ℕ) : Mieru :=
  { m with
    trafficMap :=
      if user ∈ m.trafficMap then m.trafficMap else m.trafficMap.insert user {}
    userConns := m.userConns.insert user (conn :: GoMap.getD m.userConns user []) }

/-- A connection counts `n` bytes into the storage of its user, if it is still open. -/
def transfer (m : Mieru) (user : String) (conn : String × ℕ) (d : Direction) (n : Int64) : Mieru :=
  if conn ∈ GoMap.getD m.userConns user [] then
    { m with
      trafficMap := m.trafficMap.insert user ((GoMap.getD m.trafficMap user {}).add d n) }
  else m

/-! ### Applying a configuration -/

/-- The mux has the users and the endpoints that the core has, and is started if it should be. -/
def Settled (m : Mieru) : Prop :=
  match m.binding with
  | none => True
  | some binding =>
    if m.uidMap.keys = ∅ then m.started = false
    else m.mux = ⟨m.uidMap.keys, some binding⟩ ∧ (m.running = true → m.started = true)

instance (m : Mieru) : Decidable m.Settled := by
  unfold Settled
  split <;> infer_instance

/-- Applying a configuration that is in force changes nothing, whatever the library answers. -/
theorem applyConfig_of_settled {m : Mieru} (h : m.Settled) (results : MuxResults) :
    (m.applyConfig results).1 = m := by
  unfold Settled at h
  unfold applyConfig
  cases hbinding : m.binding with
  | none => rfl
  | some binding =>
    rw [hbinding] at h
    by_cases hkeys : m.uidMap.keys = ∅
    · simp only [if_pos hkeys] at h
      have hstarted : ¬ m.started = true := by rw [h]; decide
      simp only [configure, if_pos hkeys, if_neg hstarted]
    · simp only [if_neg hkeys] at h
      obtain ⟨hmux, hstarted⟩ := h
      have husers : { m.mux with users := m.uidMap.keys } = m.mux := by rw [hmux]
      have hstart : ¬ (m.running = true ∧ ¬ m.started = true) := fun hs => hs.2 (hstarted hs.1)
      simp only [configure, if_neg hkeys, husers, ← hmux, if_neg hstart]
      cases results.endpoints with
      | some err => rfl
      | none => cases results.trafficPattern <;> rfl

/-- Applying a configuration changes nothing but the mux and whether it is started. -/
theorem applyConfig_fst (m : Mieru) (results : MuxResults) :
    ∃ mux started, (m.applyConfig results).1 = { m with mux := mux, started := started } := by
  unfold applyConfig
  cases m.binding with
  | none => exact ⟨m.mux, m.started, rfl⟩
  | some binding => exact ⟨_, _, rfl⟩

theorem userConns_applyConfig (m : Mieru) (results : MuxResults) :
    (m.applyConfig results).1.userConns = m.userConns := by
  obtain ⟨mux, started, h⟩ := m.applyConfig_fst results
  rw [h]

theorem addUsers_fst (m : Mieru) (tag : String) (users : List UserInfo) (results : MuxResults) :
    (m.addUsers tag users results).1 =
      ({ m with uidMap := GoMap.storeAll UserInfo.uuid UserInfo.id users m.uidMap }.applyConfig
        results).1 := by
  unfold addUsers
  dsimp only
  split <;> rename_i h <;> rw [h]

/-! ### The report loop -/

/-- The traffic of a user. -/
def traffic (m : Mieru) (user : String) : TrafficStorage := GoMap.getD m.trafficMap user {}

/-- Whether a report takes a storage. -/
def Positive (counter : TrafficStorage) : Prop := counter.upCounter + counter.downCounter > 0

instance (counter : TrafficStorage) : Decidable (Positive counter) :=
  inferInstanceAs (Decidable (_ > _))

theorem not_positive_default : ¬ Positive {} := by decide

/-- The entry that a storage gives in a report. -/
def userEntry (uidMap : GoMap String ℤ) (counter : TrafficStorage) (uuid : String) :
    Option UserTraffic :=
  if Positive counter then
    (uidMap.lookup uuid).map fun uid => ⟨uid, counter.upCounter, counter.downCounter⟩
  else none

section Loop

variable {uidMap : GoMap String ℤ} {reset : Bool}
  {state : GoMap String TrafficStorage × List UserTraffic} {uuid : String}

theorem visitUser_of_not_positive (h : ¬ Positive (GoMap.getD state.1 uuid {})) :
    visitUser uidMap reset state uuid = state := by
  unfold visitUser
  cases hlook : state.1.lookup uuid with
  | none => rfl
  | some counter =>
    rw [GoMap.getD, hlook, Option.getD_some] at h
    exact if_neg h

theorem visitUser_of_positive (h : Positive (GoMap.getD state.1 uuid {})) :
    visitUser uidMap reset state uuid =
      (if reset then state.1.insert uuid {} else state.1,
        state.2 ++ (userEntry uidMap (GoMap.getD state.1 uuid {}) uuid).toList) := by
  unfold visitUser
  cases hlook : state.1.lookup uuid with
  | none =>
    rw [GoMap.getD, hlook, Option.getD_none] at h
    exact absurd h not_positive_default
  | some counter =>
    have hcounter : GoMap.getD state.1 uuid {} = counter := by
      rw [GoMap.getD, hlook, Option.getD_some]
    rw [hcounter] at h ⊢
    rw [userEntry, if_pos h]
    refine (if_pos h).trans ?_
    cases uidMap.lookup uuid with
    | none => simp
    | some uid => rfl

theorem slice_visitUser : (visitUser uidMap reset state uuid).2 =
    state.2 ++ (userEntry uidMap (GoMap.getD state.1 uuid {}) uuid).toList := by
  by_cases h : Positive (GoMap.getD state.1 uuid {})
  · rw [visitUser_of_positive h]
  · rw [visitUser_of_not_positive h, userEntry, if_neg h, Option.toList_none, List.append_nil]

theorem getD_visitUser (u : String) : GoMap.getD (visitUser uidMap reset state uuid).1 u {} =
    if u = uuid ∧ reset = true ∧ Positive (GoMap.getD state.1 u {}) then {}
    else GoMap.getD state.1 u {} := by
  by_cases h : Positive (GoMap.getD state.1 uuid {})
  · rw [visitUser_of_positive h]
    by_cases hu : u = uuid
    · subst hu
      cases reset with
      | false => simp
      | true => simp [h, GoMap.getD_insert]
    · cases reset with
      | false => simp
      | true => simp [hu, GoMap.getD_insert]
  · rw [visitUser_of_not_positive h, if_neg]
    rintro ⟨rfl, -, hpos⟩
    exact h hpos

variable (uidMap)

/-- The entries of a report: each storage is met once, as it was before the loop. -/
theorem slice_foldl_visitUser {order : List String} (hnodup : order.Nodup)
    (state : GoMap String TrafficStorage × List UserTraffic) :
    (order.foldl (visitUser uidMap reset) state).2 =
      state.2 ++ order.filterMap fun u => userEntry uidMap (GoMap.getD state.1 u {}) u := by
  induction order generalizing state with
  | nil => simp
  | cons uuid order ih =>
    obtain ⟨huuid, hrest⟩ := List.nodup_cons.mp hnodup
    have hcongr : (order.filterMap fun u =>
        userEntry uidMap (GoMap.getD (visitUser uidMap reset state uuid).1 u {}) u) =
          order.filterMap fun u => userEntry uidMap (GoMap.getD state.1 u {}) u :=
      List.filterMap_congr fun u hu => by
        have hne : u ≠ uuid := fun h => huuid (h ▸ hu)
        rw [getD_visitUser, if_neg fun h => hne h.1]
    rw [List.foldl_cons, ih hrest, hcongr, slice_visitUser, List.append_assoc,
      List.filterMap_cons]
    cases userEntry uidMap (GoMap.getD state.1 uuid {}) uuid <;> rfl

theorem getD_foldl_visitUser {order : List String} (u : String)
    (state : GoMap String TrafficStorage × List UserTraffic) :
    GoMap.getD (order.foldl (visitUser uidMap reset) state).1 u {} =
      if u ∈ order ∧ reset = true ∧ Positive (GoMap.getD state.1 u {}) then {}
      else GoMap.getD state.1 u {} := by
  induction order generalizing state with
  | nil => simp
  | cons uuid order ih =>
    rw [List.foldl_cons, ih, getD_visitUser]
    by_cases hu : u = uuid
    · subst hu
      by_cases hpos : reset = true ∧ Positive (GoMap.getD state.1 u {})
      · simp [hpos, not_positive_default]
      · simp [hpos]
    · simp [hu]

end Loop

theorem positive_of_isSome_userEntry {uidMap : GoMap String ℤ} {counter : TrafficStorage}
    {uuid : String} (h : (userEntry uidMap counter uuid).isSome) : Positive counter := by
  by_contra hpos
  rw [userEntry, if_neg hpos] at h
  exact absurd h (by decide)

theorem mem_trafficMap_of_positive {m : Mieru} {u : String} (h : Positive (m.traffic u)) :
    u ∈ m.trafficMap := by
  by_contra hu
  rw [traffic, GoMap.getD_of_notMem hu] at h
  exact not_positive_default h

/-- The slice of a report. -/
theorem getUserTrafficSlice_snd (m : Mieru) (tag : String) (reset : Bool)
    (range : RangeOrder String) :
    (m.getUserTrafficSlice tag reset range).2 =
      (range.keys m.trafficMap).filterMap fun u => userEntry m.uidMap (m.traffic u) u :=
  (slice_foldl_visitUser m.uidMap (range.nodup_keys m.trafficMap) (m.trafficMap, [])).trans
    (List.nil_append _)

/-- The traffic of a user after a report. -/
theorem traffic_getUserTrafficSlice (m : Mieru) (tag : String) (reset : Bool)
    (range : RangeOrder String) (u : String) :
    (m.getUserTrafficSlice tag reset range).1.traffic u =
      if reset = true ∧ Positive (m.traffic u) then {} else m.traffic u := by
  refine (getD_foldl_visitUser m.uidMap u (m.trafficMap, [])).trans ?_
  have hiff : (u ∈ range.keys m.trafficMap ∧ reset = true ∧ Positive (m.traffic u)) ↔
      reset = true ∧ Positive (m.traffic u) :=
    and_iff_right_of_imp fun h => (range.mem_keys _ _).mpr (mem_trafficMap_of_positive h.2)
  exact if_congr hiff rfl rfl

end Mieru

/-- The settings of a mieru node on a port. -/
def mieruInfo (port : ℤ) : NodeInfo where
  id := 1
  type := .mieru
  mieru := some { serverPort := port }

end Tox.Core
