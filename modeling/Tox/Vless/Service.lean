import Tox.Foundation.GoMap
import Tox.Vless.Protocol

/-!
# The VLESS service and the flows of its users

`Service.NewConnection` reads the request of a connection, looks up the user with the UUID of the
request and compares the flow of the request with that of the user. Two flows are private,
`mom-private` and `mom-vision`: a request in the private dialect announces them under the names of
the public flows, as no flow and as `xtls-rprx-vision`.

The comparison accepts a request whose flow is literally that of the user before it looks at the
dialect. The flow of a request is whatever bytes the client has sent, so that a request in the
public dialect that spells out the name of the private flow is accepted as well, and every user with
a private flow can be reached in this way (`newConnection_dialect_iff`).
-/

namespace Tox.Vless

open Tox.Foundation

abbrev Flow : Type := List UInt8

def commandTCP : UInt8 := 1

def networkUDP : UInt8 := 2

def flowVision : Flow := "xtls-rprx-vision".toList.map fun c => UInt8.ofNat c.toNat

def flowMomVision : Flow := "mom-vision".toList.map fun c => UInt8.ofNat c.toNat

def flowMomPrivate : Flow := "mom-private".toList.map fun c => UInt8.ofNat c.toNat

/-- The tables of users by UUID and of flows by user. -/
structure Service (T : Type) where
  userMap : GoMap UUID T
  userFlow : GoMap T Flow

/-- A connection: what the client sends, and the error with which the vision wrapper refuses the
connection, if it does. -/
structure Conn where
  bytes : List UInt8
  visionError : Option String

/-- What the handler is given: a packet connection or a connection with its destination, or a
connection that carries several others. The latter two may be wrapped for vision. -/
inductive Handed (T Addr : Type)
  | packetConnection (user : T) (destination : Addr)
  | connection (user : T) (vision : Bool) (destination : Addr)
  | mux (user : T) (vision : Bool)
deriving DecidableEq

inductive ServiceError
  | read (err : ReadError)
  | unknownUUID (uuid : UUID)
  /-- `xtls-rprx-vision flow does not support UDP` -/
  | visionUDP
  /-- `flow mismatch: expected …, but got …` -/
  | flowMismatch (expected got : Flow)
  /-- `initialize vision: …` -/
  | initializeVision (message : String)
  | unknownFlow (flow : Flow)
  | unknownCommand (command : UInt8)
deriving DecidableEq

/-- The user to whom the connection belongs. -/
def Handed.user {T Addr : Type} : Handed T Addr → T
  | .packetConnection user _ => user
  | .connection user _ _ => user
  | .mux user _ => user

def flowName (value : Flow) : Flow :=
  if value = [] then "none".toList.map fun c => UInt8.ofNat c.toNat else value

/-- The variable `flowMatched`. -/
def flowMatched {Addr : Type} (request : Request Addr) (userFlow : Flow) : Bool :=
  if request.flow = userFlow then true
  else if request.isPrivate then
    if request.flow = flowVision ∧ userFlow = flowMomVision then true
    else if request.flow = [] ∧ userFlow = flowMomPrivate then true
    else false
  else false

/-- The switch over the flow of the user: whether the connection is wrapped for vision. -/
def wrapVision (visionError : Option String) (userFlow : Flow) : Except ServiceError Bool :=
  if userFlow = flowVision ∨ userFlow = flowMomVision then
    match visionError with
    | some err => .error (.initializeVision err)
    | none => .ok true
  else if userFlow = [] ∨ userFlow = flowMomPrivate then .ok false
  else .error (.unknownFlow userFlow)

namespace Service

variable {T Addr : Type} [DecidableEq T] (s : Service T)

/-- The flow of a user. A user without one has the empty flow. -/
def flowOf (user : T) : Flow := s.userFlow.getD user []

/-- `NewConnection` from the flow of the user on. -/
def handOn (visionError : Option String) (request : Request Addr) (user : T) :
    Except ServiceError (Handed T Addr) :=
  if request.flow = flowVision ∧ request.command = networkUDP then .error .visionUDP
  else if ¬ flowMatched request (s.flowOf user) then
    .error (.flowMismatch (flowName (s.flowOf user)) (flowName request.flow))
  else if request.command = commandUDP then .ok (.packetConnection user request.destination)
  else
    match wrapVision visionError (s.flowOf user) with
    | .error err => .error err
    | .ok vision =>
      if request.command = commandTCP then .ok (.connection user vision request.destination)
      else if request.command = commandMux then .ok (.mux user vision)
      else .error (.unknownCommand request.command)

def newConnection [Inhabited Addr] (serializer : AddressSerializer Addr) (conn : Conn) :
    Except ServiceError (Handed T Addr) :=
  match (readRequest serializer).run conn.bytes with
  | .error err => .error (.read err)
  | .ok (request, _) =>
    match s.userMap.lookup request.uuid with
    | none => .error (.unknownUUID request.uuid)
    | some user => s.handOn conn.visionError request user

end Service

/-! ### What is accepted -/

/-- The flows that belong to the private dialect. -/
def IsPrivateFlow (flow : Flow) : Prop := flow = flowMomPrivate ∨ flow = flowMomVision

instance : DecidablePred IsPrivateFlow := fun _ => inferInstanceAs (Decidable (_ ∨ _))

/-- The flows that are announced under their own name. -/
def IsPublicFlow (flow : Flow) : Prop := flow = [] ∨ flow = flowVision

instance : DecidablePred IsPublicFlow := fun _ => inferInstanceAs (Decidable (_ ∨ _))

/-- The command can be served on a connection with the given flow: a packet connection always, the
others if the connection can be wrapped as the flow asks. -/
def Serves (visionError : Option String) (command : UInt8) (userFlow : Flow) : Prop :=
  command = commandUDP ∨
    (command = commandTCP ∨ command = commandMux) ∧
      ∃ vision, wrapVision visionError userFlow = .ok vision

section Accepted

variable {T Addr : Type} {request : Request Addr} {userFlow : Flow}

theorem flowMatched_iff :
    flowMatched request userFlow = true ↔
      request.flow = userFlow ∨
        request.isPrivate = true ∧ (request.flow = flowVision ∧ userFlow = flowMomVision ∨
          request.flow = [] ∧ userFlow = flowMomPrivate) := by
  rw [flowMatched]
  split_ifs with hflow hprivate hvision hnone
  · exact iff_of_true rfl (.inl hflow)
  · exact iff_of_true rfl (.inr ⟨hprivate, .inl hvision⟩)
  · exact iff_of_true rfl (.inr ⟨hprivate, .inr hnone⟩)
  · refine iff_of_false not_false ?_
    rintro (h | ⟨-, h | h⟩)
    · exact hflow h
    · exact hvision h
    · exact hnone h
  · refine iff_of_false not_false ?_
    rintro (h | ⟨h, -⟩)
    · exact hflow h
    · exact hprivate h

variable [DecidableEq T] {s : Service T} {visionError : Option String} {user : T}

theorem user_of_handOn {handed : Handed T Addr}
    (h : s.handOn visionError request user = .ok handed) : handed.user = user := by
  rw [Service.handOn] at h
  rcases hwrap : wrapVision visionError (s.flowOf user) with err | vision
  · simp only [hwrap] at h
    split_ifs at h with hvision hmatched hudp
    cases h
    rfl
  · simp only [hwrap] at h
    split_ifs at h with hvision hmatched hudp htcp hmux
    all_goals
      cases h
      rfl

/-- When a request is handed on. -/
theorem exists_handOn_iff :
    (∃ handed, s.handOn visionError request user = .ok handed) ↔
      ¬ (request.flow = flowVision ∧ request.command = networkUDP) ∧
        flowMatched request (s.flowOf user) = true ∧
        Serves visionError request.command (s.flowOf user) := by
  by_cases hvision : request.flow = flowVision ∧ request.command = networkUDP
  · rw [Service.handOn, if_pos hvision]
    exact iff_of_false (by simp) fun h => h.1 hvision
  by_cases hmatched : flowMatched request (s.flowOf user) = true
  · rw [and_iff_right hvision, and_iff_right hmatched, Service.handOn, if_neg hvision,
      if_neg (not_not.mpr hmatched), Serves]
    by_cases hudp : request.command = commandUDP
    · rw [if_pos hudp]
      exact iff_of_true ⟨_, rfl⟩ (.inl hudp)
    rw [if_neg hudp, or_iff_right hudp]
    rcases wrapVision visionError (s.flowOf user) with err | vision
    · exact iff_of_false (by simp) (by simp)
    · dsimp only
      split_ifs with htcp hmux
      · exact iff_of_true ⟨_, rfl⟩ ⟨.inl htcp, _, rfl⟩
      · exact iff_of_true ⟨_, rfl⟩ ⟨.inr hmux, _, rfl⟩
      · exact iff_of_false (by simp) fun h => h.1.elim htcp hmux
  · rw [Service.handOn, if_neg hvision, if_pos hmatched]
    exact iff_of_false (by simp) fun h => hmatched h.2.1

end Accepted

/-! ### The private dialect -/

section Dialect

variable {T Addr : Type} [DecidableEq T] [Inhabited Addr] (serializer : AddressSerializer Addr)
  (s : Service T) (conn : Conn)

/-- The connection is handed on only if the dialect and the flow of its request are those that the
flow of its user asks for. -/
def Dialect : Prop :=
  ∀ request rest handed, (readRequest serializer).run conn.bytes = .ok (request, rest) →
    s.newConnection serializer conn = .ok handed →
    (IsPrivateFlow (s.flowOf handed.user) → request.isPrivate = true) ∧
      (IsPublicFlow (s.flowOf handed.user) → request.flow = s.flowOf handed.user)

/-- A request in the public dialect that spells out the private flow of its user, for a command that
can be served. -/
def SpellsOut : Prop :=
  ∃ request rest user, (readRequest serializer).run conn.bytes = .ok (request, rest) ∧
    s.userMap.lookup request.uuid = some user ∧ IsPrivateFlow (s.flowOf user) ∧
    request.isPrivate = false ∧ request.flow = s.flowOf user ∧
    Serves conn.visionError request.command (s.flowOf user)

variable {serializer s conn}

theorem newConnection_of_read {request : Request Addr} {rest : List UInt8} {user : T}
    (hread : (readRequest serializer).run conn.bytes = .ok (request, rest))
    (huser : s.userMap.lookup request.uuid = some user) :
    s.newConnection serializer conn = s.handOn conn.visionError request user := by
  rw [Service.newConnection, hread]
  simp only [huser]

/-- Only the connection of a user is handed on. -/
theorem exists_user_of_newConnection {request : Request Addr} {rest : List UInt8}
    {handed : Handed T Addr} (hread : (readRequest serializer).run conn.bytes = .ok (request, rest))
    (h : s.newConnection serializer conn = .ok handed) :
    s.userMap.lookup request.uuid = some handed.user ∧
      s.handOn conn.visionError request handed.user = .ok handed := by
  rcases huser : s.userMap.lookup request.uuid with _ | user
  · rw [Service.newConnection, hread] at h
    simp only [huser] at h
    cases h
  · rw [newConnection_of_read hread huser] at h
    rw [user_of_handOn h]
    exact ⟨rfl, h⟩

theorem not_isPublicFlow_of_isPrivateFlow {flow : Flow} (h : IsPrivateFlow flow) :
    ¬ IsPublicFlow flow := by
  rcases h with rfl | rfl
  · decide
  · decide

theorem dialect_iff_not_spellsOut :
    Dialect serializer s conn ↔ ¬ SpellsOut serializer s conn := by
  constructor
  · rintro hdialect ⟨request, rest, user, hread, huser, hflow, hpublic, hspelled, hserves⟩
    have hmatched : flowMatched request (s.flowOf user) = true :=
      flowMatched_iff.mpr (.inl hspelled)
    have hvision : ¬ (request.flow = flowVision ∧ request.command = networkUDP) := by
      rintro ⟨hvision, -⟩
      rw [hspelled] at hvision
      exact not_isPublicFlow_of_isPrivateFlow hflow (.inr hvision)
    obtain ⟨handed, hhanded⟩ := exists_handOn_iff.mpr ⟨hvision, hmatched, hserves⟩
    have hconn := (newConnection_of_read hread huser).trans hhanded
    rw [← user_of_handOn hhanded] at hflow
    have hprivate := (hdialect request rest handed hread hconn).1 hflow
    rw [hpublic] at hprivate
    cases hprivate
  · intro hnot request rest handed hread h
    obtain ⟨huser, hhanded⟩ := exists_user_of_newConnection hread h
    obtain ⟨-, hmatched, hserves⟩ := exists_handOn_iff.mp ⟨handed, hhanded⟩
    rcases flowMatched_iff.mp hmatched with hspelled | ⟨hprivate, hannounced⟩
    · refine ⟨fun hflow => ?_, fun _ => hspelled⟩
      by_contra hpublic
      exact hnot ⟨request, rest, handed.user, hread, huser, hflow,
        Bool.eq_false_iff.mpr hpublic, hspelled, hserves⟩
    · refine ⟨fun _ => hprivate, fun hflow => ?_⟩
      have hflow' : IsPrivateFlow (s.flowOf handed.user) := by
        rcases hannounced with ⟨-, h⟩ | ⟨-, h⟩
        · exact .inr h
        · exact .inl h
      exact absurd hflow (not_isPublicFlow_of_isPrivateFlow hflow')

/-- A request in the public dialect for a connection that carries others, with the given flow. -/
def spelledRequest (uuid : UUID) (flow : Flow) : Request Addr where
  uuid := uuid
  command := commandMux
  destination := default
  flow := flow
  isPrivate := false

theorem run_spelledRequest (serializer : AddressSerializer Addr) (uuid : UUID) {flow : Flow}
    (h : flow.length ≤ 252) :
    (readRequest serializer).run ((spelledRequest uuid flow : Request Addr).header []) =
      .ok (spelledRequest uuid flow, []) := by
  have hreads : Reads (readRequest serializer)
      ((spelledRequest uuid flow : Request Addr).header []) (spelledRequest uuid flow) :=
    reads_header h rfl
  have hrun := hreads []
  rwa [List.append_nil] at hrun

/-- Every user with a private flow can be reached in the public dialect. -/
theorem exists_spellsOut (serializer : AddressSerializer Addr) {uuid : UUID} {user : T}
    (huser : s.userMap.lookup uuid = some user) (hflow : IsPrivateFlow (s.flowOf user)) :
    ∃ conn, SpellsOut serializer s conn := by
  have hlength : (s.flowOf user).length ≤ 252 := by
    rcases hflow with h | h <;> rw [h] <;> decide
  have hserves : Serves none commandMux (s.flowOf user) := by
    rcases hflow with h | h
    · rw [h]
      exact .inr ⟨.inr rfl, false, by decide⟩
    · rw [h]
      exact .inr ⟨.inr rfl, true, by decide⟩
  exact ⟨⟨(spelledRequest uuid (s.flowOf user) : Request Addr).header [], none⟩, _, _, user,
    run_spelledRequest serializer uuid hlength, huser, hflow, rfl, rfl, hserves⟩

/-- **The private flows and the private dialect.** A connection is handed on in the dialect of its
user's flow, unless its request is in the public dialect and spells out a private flow. The dialect
is kept on all connections only if no user has a private flow. -/
theorem newConnection_dialect_iff (serializer : AddressSerializer Addr) (s : Service T) :
    (∀ conn, Dialect serializer s conn ↔ ¬ SpellsOut serializer s conn) ∧
      ((∀ conn, Dialect serializer s conn) ↔
        ∀ uuid user, s.userMap.lookup uuid = some user → ¬ IsPrivateFlow (s.flowOf user)) := by
  refine ⟨fun conn => dialect_iff_not_spellsOut, ?_⟩
  constructor
  · intro hdialect uuid user huser hflow
    obtain ⟨conn, hspells⟩ := exists_spellsOut serializer huser hflow
    exact dialect_iff_not_spellsOut.mp (hdialect conn) hspells
  · intro hnone conn
    rw [dialect_iff_not_spellsOut]
    rintro ⟨request, rest, user, -, huser, hflow, -⟩
    exact hnone request.uuid user huser hflow

end Dialect

/-- A service with one user, who has the private flow. -/
def momService : Service Unit where
  userMap := Finmap.singleton (fun _ => 0) ()
  userFlow := Finmap.singleton () flowMomPrivate

/-- A connection in the public dialect that spells out the flow of this user. -/
def spelledConn : Conn where
  bytes := (spelledRequest (fun _ => 0) flowMomPrivate : Request Socksaddr).header []
  visionError := none

/-- The user with the private flow is handed on although the request is in the public dialect. -/
theorem momService_spelledConn :
    (readRequest addressSerializer).run spelledConn.bytes =
        .ok (spelledRequest (fun _ => 0) flowMomPrivate, []) ∧
      (spelledRequest (fun _ => 0) flowMomPrivate : Request Socksaddr).isPrivate = false ∧
      momService.newConnection addressSerializer spelledConn = .ok (.mux () false) ∧
      momService.flowOf () = flowMomPrivate := by
  have hread : (readRequest addressSerializer).run spelledConn.bytes =
      .ok (spelledRequest (fun _ => 0) flowMomPrivate, []) :=
    run_spelledRequest addressSerializer (fun _ => 0) (by decide)
  refine ⟨hread, rfl, ?_, rfl⟩
  rw [newConnection_of_read hread Finmap.lookup_singleton_eq]
  decide

end Tox.Vless
