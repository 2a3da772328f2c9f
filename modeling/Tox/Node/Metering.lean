import Mathlib
import Tox.Foundation.Run
import Tox.Node.Lifecycle

/-!
# Connections during the life of a node

Connections reach the hook of the sing core while nodes are started, reloaded and closed. A
connection of a user should be metered: it is closed, or the limiter of its tag has checked it and
it counts into the counter of its tag. The hook hands a connection on as it came when it finds no
limiter for the tag.

A node registers its limiter before its first inbound, so a connection finds one unless it has been
deleted. This happens in two places. A close deletes the limiter before the inbound, so connections
that reach the hook in between are not metered. A reload of a node without a configured name deletes
the inbound first, so only those connections are affected that had reached the hook by then and have
not yet looked the limiter up. `failsClosed_iff_inPlace` says that there is no other case, whatever
the order of the calls.
-/

namespace Tox.Node

open Tox.Foundation Tox.Core Tox.Format Tox.Limit Tox.Panel

/-! ### The machine -/

/-- Where a connection is in the hook. -/
inductive HookPhase
  | reached
  /-- The limiter has been looked up. -/
  | limited (p : ℕ)
  | returned (result : HookResult)
deriving DecidableEq, Repr

/-- A connection that has reached the hook. -/
structure RoutedConn where
  packet : Bool
  m : InboundContext
  phase : HookPhase := .reached

/-- The result of the hook, if it has returned. -/
def RoutedConn.result (x : RoutedConn) : Option HookResult :=
  match x.phase with
  | .returned result => some result
  | _ => none

/-- The program with its nodes and connections. -/
structure MeteringMachine where
  shared : Shared := {}
  nodes : List NodeLife := []
  conns : List RoutedConn := []

/-- The calls of the nodes and of the connections. -/
inductive MeteringEvent
  /-- A controller is created. -/
  | newController (options : Options) (reportMinTraffic : Int64) (apiHost : String)
  /-- A controller is started. -/
  | start (i : ℕ) (fetched : Option (NodeInfo × List UserInfo × GoMap ℤ ℤ))
  /-- A tick of a controller finds new settings. -/
  | reload (i : ℕ) (newN : NodeInfo) (newU : Option (List UserInfo)) (newA : Option (GoMap ℤ ℤ))
  /-- A controller is closed. -/
  | close (i : ℕ)
  /-- The start or the close of a controller does its next call. -/
  | step (i : ℕ) (o : Outcome)
  /-- The tick of a controller does its next call. -/
  | tickStep (i : ℕ) (o : Outcome)
  /-- A connection arrives at an inbound and is handed to the hook. -/
  | connection (packet : Bool) (m : InboundContext)
  /-- A connection looks its limiter up. -/
  | getLimiter (j : ℕ)
  /-- A connection that has its limiter goes through the rest of the hook. -/
  | routed (j : ℕ) (now : ℤ)

namespace MeteringMachine

/-- A call of the node `i`. -/
def callNode (s : MeteringMachine) (i : ℕ) (f : Shared → NodeLife → Shared × NodeLife) :
    MeteringMachine :=
  match s.nodes[i]? with
  | none => s
  | some c =>
    { s with shared := (f s.shared c).1, nodes := s.nodes.set i (f s.shared c).2 }

/-- A call of the connection `j`. -/
def callConn (s : MeteringMachine) (j : ℕ) (f : Shared → RoutedConn → Shared × RoutedConn) :
    MeteringMachine :=
  match s.conns[j]? with
  | none => s
  | some x =>
    { s with shared := (f s.shared x).1, conns := s.conns.set j (f s.shared x).2 }

end MeteringMachine

/-- `GetLimiter` in the hook. -/
def RoutedConn.getLimiter (s : Shared) (x : RoutedConn) : Shared × RoutedConn :=
  match x.phase with
  | .reached =>
    match s.limiters.registry.lookup x.m.inbound with
    | none => (s, { x with phase := .returned .untouched })
    | some p => (s, { x with phase := .limited p })
  | _ => (s, x)

/-- The rest of the hook. -/
def RoutedConn.routed (matchString : String → String → Bool) (now : ℤ) (s : Shared)
    (x : RoutedConn) : Shared × RoutedConn :=
  match x.phase with
  | .limited p =>
    let (sing, limiters, result) :=
      HookServer.routed matchString s.sing s.limiters p x.packet x.m now
    ({ s with sing := sing, limiters := limiters }, { x with phase := .returned result })
  | _ => (s, x)

/-- One event. Nothing happens after a panic. -/
def MeteringMachine.step (compiles : String → Bool) (matchString : String → String → Bool)
    (s : MeteringMachine) (e : MeteringEvent) : MeteringMachine :=
  if s.shared.crashed then s
  else
    match e with
    | .newController options reportMinTraffic apiHost =>
      { s with nodes := s.nodes ++ [{ options, reportMinTraffic, apiHost }] }
    | .start i fetched => s.callNode i fun p c => (p, c.start fetched)
    | .reload i newN newU newA => s.callNode i fun p c => (p, c.reload newN newU newA)
    | .close i => s.callNode i fun p c => (p, c.close)
    | .step i o => s.callNode i fun p c => c.step compiles p o
    | .tickStep i o => s.callNode i fun p c => c.tickStep compiles p o
    | .connection packet m =>
      if m.inbound ∈ s.shared.sing.inbounds then { s with conns := s.conns ++ [{ packet, m }] }
      else s
    | .getLimiter j => s.callConn j RoutedConn.getLimiter
    | .routed j now => s.callConn j (RoutedConn.routed matchString now)

/-! ### Metered connections -/

namespace MeteringMachine

/-- Every connection of a user that the hook has let go is closed, or it is checked and counts into
the storage of its user in the counter of its tag. -/
def FailsClosed (s : MeteringMachine) : Prop :=
  ∀ x ∈ s.conns, x.m.user ≠ "" → ∀ r ∈ x.result, r.Metered s.shared.sing x.m

instance (s : MeteringMachine) : Decidable s.FailsClosed :=
  inferInstanceAs (Decidable (∀ x ∈ s.conns, _))

/-- A connection of a user does not look its limiter up after a close or a reload has deleted it and
before a limiter is added for the tag again. -/
def InPlace (s : MeteringMachine) : MeteringEvent → Prop
  | .getLimiter j => s.shared.crashed = false → ∀ x ∈ s.conns[j]?, x.phase = .reached →
      x.m.user ≠ "" → ∀ r ∈ s.shared.history.lookup x.m.inbound, r = .added
  | _ => True

instance (s : MeteringMachine) : (e : MeteringEvent) → Decidable (s.InPlace e)
  | .getLimiter _ => inferInstanceAs (Decidable (_ → _))
  | .newController .. | .start .. | .reload .. | .close _ | .step .. | .tickStep ..
  | .connection .. | .routed .. => inferInstanceAs (Decidable True)

end MeteringMachine

/-- A connection that has reached the hook had an inbound, so a limiter was registered for its tag;
the limiter it has found exists; and it is metered. -/
def RoutedConn.Sound (s : Shared) (x : RoutedConn) : Prop :=
  match x.phase with
  | .reached => x.m.inbound ∈ s.history
  | .limited p => p < s.limiters.limiters.length
  | .returned r => x.m.user ≠ "" → r.Metered s.sing x.m

theorem RoutedConn.Sound.evolves {s s' : Shared} {x : RoutedConn} (h : x.Sound s)
    (hs : s.Evolves s') : x.Sound s' := by
  obtain ⟨packet, m, phase⟩ := x
  cases phase with
  | reached => exact hs.mem_history h
  | limited p => exact lt_of_lt_of_le h hs.length_le
  | returned r =>
    intro huser
    cases r with
    | untouched => exact h huser
    | closed => trivial
    | counted checked bucket p =>
      obtain ⟨hchecked, hlook⟩ := h huser
      exact ⟨hchecked, hs.lookup_eq hlook⟩

/-- What holds at every time. -/
structure MeteringMachine.Sound (s : MeteringMachine) : Prop where
  consistent : s.shared.Consistent
  enrolled : ∀ c ∈ s.nodes, c.Enrolled s.shared.history
  conns : ∀ x ∈ s.conns, x.Sound s.shared

namespace MeteringMachine

variable {s : MeteringMachine}

theorem Sound.failsClosed (h : s.Sound) : s.FailsClosed := by
  intro x hx huser r hr
  have hsound := h.conns x hx
  obtain ⟨packet, m, phase⟩ := x
  cases phase with
  | reached => cases hr
  | limited p => cases hr
  | returned r' =>
    cases hr
    exact hsound huser

theorem sound_empty : Sound {} where
  consistent := ⟨fun tag => by simp [Finmap.notMem_empty],
    fun tag htag => absurd htag Finmap.notMem_empty⟩
  enrolled _ hc := absurd hc List.not_mem_nil
  conns _ hx := absurd hx List.not_mem_nil

/-- A call of a node that evolves the program and keeps the node enrolled. -/
theorem Sound.callNode (h : s.Sound) (i : ℕ) {f : Shared → NodeLife → Shared × NodeLife}
    (hf : ∀ c : NodeLife, c.Enrolled s.shared.history → s.shared.Evolves (f s.shared c).1 ∧
      (f s.shared c).2.Enrolled (f s.shared c).1.history) : (s.callNode i f).Sound := by
  unfold MeteringMachine.callNode
  split
  · exact h
  · rename_i c hc
    obtain ⟨hevolves, henrolled⟩ := hf c (h.enrolled c (List.mem_of_getElem? hc))
    refine ⟨hevolves.consistent h.consistent, fun d hd => ?_,
      fun x hx => (h.conns x hx).evolves hevolves⟩
    rcases List.mem_or_eq_of_mem_set hd with hd | rfl
    · exact (h.enrolled d hd).mono hevolves.mem_history
    · exact henrolled

/-- A call of a connection that evolves the program and keeps the connection sound. -/
theorem Sound.callConn (h : s.Sound) {j : ℕ} {f : Shared → RoutedConn → Shared × RoutedConn}
    (hf : ∀ x ∈ s.conns[j]?, x.Sound s.shared → s.shared.Evolves (f s.shared x).1 ∧
      (f s.shared x).2.Sound (f s.shared x).1) : (s.callConn j f).Sound := by
  unfold MeteringMachine.callConn
  split
  · exact h
  · rename_i x hx
    obtain ⟨hevolves, hsound⟩ := hf x hx (h.conns x (List.mem_of_getElem? hx))
    refine ⟨hevolves.consistent h.consistent,
      fun c hc => (h.enrolled c hc).mono hevolves.mem_history, fun y hy => ?_⟩
    rcases List.mem_or_eq_of_mem_set hy with hy | rfl
    · exact (h.conns y hy).evolves hevolves
    · exact hsound

end MeteringMachine

/-! ### The calls of a connection -/

namespace RoutedConn

variable {s : Shared} {x : RoutedConn}

/-- A connection that reaches the hook and looks up a limiter that is in place is fine. -/
theorem Sound.getLimiter (hs : s.Consistent) (h : x.Sound s)
    (hplace : x.phase = .reached → x.m.user ≠ "" →
      ∀ r ∈ s.history.lookup x.m.inbound, r = .added) :
    s.Evolves (x.getLimiter s).1 ∧ (x.getLimiter s).2.Sound (x.getLimiter s).1 := by
  obtain ⟨packet, m, phase⟩ := x
  cases phase with
  | reached =>
    cases hp : s.limiters.registry.lookup m.inbound with
    | some p =>
      simp only [RoutedConn.getLimiter, hp]
      exact ⟨Shared.Evolves.refl s, s.limiters.lt_length _ _ hp⟩
    | none =>
      simp only [RoutedConn.getLimiter, hp]
      refine ⟨Shared.Evolves.refl s, fun huser => ?_⟩
      -- the tag has a history, whose last entry is that the limiter was added
      obtain ⟨r, hr⟩ := Option.isSome_iff_exists.mp (Finmap.lookup_isSome.mpr h)
      have hadded := hplace rfl huser r hr
      subst hadded
      have hmem := (hs.mem_registry_iff m.inbound).mpr hr
      rw [← Finmap.lookup_isSome, hp] at hmem
      cases hmem
  | limited p => exact ⟨Shared.Evolves.refl s, h⟩
  | returned r => exact ⟨Shared.Evolves.refl s, h⟩

/-- A connection that looks up a limiter that has been deleted is let go as it came. -/
theorem result_getLimiter (hs : s.Consistent) (hphase : x.phase = .reached) {r : Registration}
    (hr : s.history.lookup x.m.inbound = some r) (hne : r ≠ .added) :
    (x.getLimiter s).2 = { x with phase := .returned .untouched } := by
  have hnone : s.limiters.registry.lookup x.m.inbound = none := by
    rw [Finmap.lookup_eq_none, hs.mem_registry_iff, hr, Option.some_inj]
    exact hne
  simp only [RoutedConn.getLimiter, hphase, hnone]

theorem Sound.routed (h : x.Sound s) (matchString : String → String → Bool) (now : ℤ) :
    s.Evolves (x.routed matchString now s).1 ∧
      (x.routed matchString now s).2.Sound (x.routed matchString now s).1 := by
  obtain ⟨packet, m, phase⟩ := x
  cases phase with
  | reached => exact ⟨Shared.Evolves.refl s, h⟩
  | returned r => exact ⟨Shared.Evolves.refl s, h⟩
  | limited p =>
    obtain ⟨f, hst, hgrows, hmetered⟩ :=
      HookServer.routed_spec matchString s.sing h packet m now
    have hevolves := Shared.evolves_routed hgrows p f
    rw [← hst] at hevolves
    exact ⟨hevolves, hmetered⟩

end RoutedConn

/-! ### Whole runs -/

namespace MeteringMachine

variable {s : MeteringMachine} (compiles : String → Bool) (matchString : String → String → Bool)

/-- **One event.** -/
theorem Sound.step (h : s.Sound) {e : MeteringEvent} (hplace : s.InPlace e) :
    (s.step compiles matchString e).Sound := by
  unfold MeteringMachine.step
  split_ifs with hcrashed
  · exact h
  cases e with
  | newController options reportMinTraffic apiHost =>
    refine ⟨h.consistent, fun c hc => ?_, h.conns⟩
    rcases List.mem_append.mp hc with hc | hc
    · exact h.enrolled c hc
    · rw [List.mem_singleton.mp hc]
      exact ⟨nofun, nofun, nofun, nofun⟩
  | start i fetched =>
    exact h.callNode i fun c hc => ⟨.refl _, NodeLife.enrolled_start hc fetched⟩
  | reload i newN newU newA =>
    exact h.callNode i fun c hc => ⟨.refl _, NodeLife.enrolled_reload hc newN newU newA⟩
  | close i => exact h.callNode i fun c hc => ⟨.refl _, NodeLife.enrolled_close hc⟩
  | step i o => exact h.callNode i fun c hc => NodeLife.enrolled_step hc o
  | tickStep i o => exact h.callNode i fun c hc => NodeLife.enrolled_tickStep hc o
  | connection packet m =>
    dsimp only
    split_ifs with hup
    · refine ⟨h.consistent, h.enrolled, fun x hx => ?_⟩
      rcases List.mem_append.mp hx with hx | hx
      · exact h.conns x hx
      · rw [List.mem_singleton.mp hx]
        exact h.consistent.mem_history_of_inbound m.inbound hup
    · exact h
  | getLimiter j =>
    refine h.callConn fun x hx hsound => hsound.getLimiter h.consistent fun hphase huser => ?_
    exact hplace (Bool.eq_false_iff.mpr hcrashed) x hx hphase huser
  | routed j now => exact h.callConn fun x _ hsound => hsound.routed matchString now

/-- A connection that looks up a deleted limiter is not metered. -/
theorem not_failsClosed_step (h : s.Sound) {e : MeteringEvent} (hplace : ¬ s.InPlace e) :
    ¬ (s.step compiles matchString e).FailsClosed := by
  cases e with
  | getLimiter j =>
    simp only [InPlace, not_forall] at hplace
    obtain ⟨hcrashed, x, hx, hphase, huser, r, hr, hne⟩ := hplace
    have hlast := RoutedConn.result_getLimiter h.consistent hphase hr hne
    intro hclosed
    have hlt : j < s.conns.length := (List.getElem?_eq_some_iff.mp hx).1
    simp only [MeteringMachine.step, hcrashed, Bool.false_eq_true, if_false, callConn,
      Option.mem_def.mp hx] at hclosed
    refine hclosed _ (List.mem_set hlt _) ?_ .untouched ?_
    · rw [hlast]
      exact huser
    · rw [hlast]
      rfl
  | newController _ _ _ | start _ _ | reload _ _ _ _ | close _ | step _ _ | tickStep _ _
  | connection _ _ | routed _ _ => exact absurd trivial hplace

end MeteringMachine

/-- **Metering fails closed unless a limiter is missed.** In every state that a run of the program
passes through, every connection of a user that the hook has let go is closed, or checked and
counted, if and only if no connection of a user looks its limiter up after a close or a reload has
deleted it and before another one is added. -/
theorem failsClosed_iff_inPlace (compiles : String → Bool) (matchString : String → String → Bool)
    (es : List MeteringEvent) :
    (∀ p q, es = p ++ q →
      (p.foldl (MeteringMachine.step compiles matchString) {}).FailsClosed) ↔
      Guarded (MeteringMachine.step compiles matchString) MeteringMachine.InPlace {} es := by
  have hsafe (s : MeteringMachine) (h : s.Sound) : s.FailsClosed := h.failsClosed
  have hstep (s : MeteringMachine) (e : MeteringEvent) (_ : e ∈ es) (h : s.Sound)
      (hplace : s.InPlace e) : (s.step compiles matchString e).Sound :=
    h.step compiles matchString hplace
  have hbad (s : MeteringMachine) (e : MeteringEvent) (_ : e ∈ es) (h : s.Sound)
      (hplace : ¬ s.InPlace e) : ¬ (s.step compiles matchString e).FailsClosed :=
    MeteringMachine.not_failsClosed_step compiles matchString h hplace
  exact (Guarded.iff_forall_safe hsafe hstep hbad MeteringMachine.sound_empty).symm

/-- A node without a configured name, with one user, whose start goes through. -/
def startedNode (rest : List MeteringEvent) : List MeteringEvent :=
  .newController {} 0 "panel" ::
    .start 0 (some ({ id := 1, type := .vless }, [⟨1, "a", 0, 0⟩], ∅)) ::
    .step 0 {} :: .step 0 {} :: .step 0 {} :: .step 0 {} :: .step 0 {} :: rest

/-- A connection of the user. -/
def userConnection : MeteringEvent :=
  .connection false { inbound := "[panel]-vless:1", user := "a", source := "1.2.3.4" }

/-- The node is reloaded while one connection is in the hook, and another one comes after it. -/
def reloadedNode : List MeteringEvent :=
  startedNode [userConnection, .getLimiter 0, .reload 0 { id := 1, type := .vless } none none,
    .tickStep 0 {}, .tickStep 0 {}, .routed 0 0, .tickStep 0 {}, .tickStep 0 {}, .tickStep 0 {},
    .tickStep 0 {}, .tickStep 0 {}, .tickStep 0 {}, userConnection, .getLimiter 1, .routed 1 0]

/-- The node is closed; a connection comes after the limiter has been deleted and before the inbound
is. -/
def closedNode : List MeteringEvent :=
  startedNode [.close 0, .step 0 {}, userConnection, .getLimiter 0]

/-- The node is reloaded; a connection has reached the hook before and looks the limiter up after it
has been deleted. -/
def lateLookup : List MeteringEvent :=
  startedNode [userConnection, .reload 0 { id := 1, type := .vless } none none, .tickStep 0 {},
    .tickStep 0 {}, .getLimiter 0]

/-- The machine of a run in which every pattern compiles and none matches. -/
def meteringRun (es : List MeteringEvent) : MeteringMachine :=
  es.foldl (MeteringMachine.step (fun _ => true) fun _ _ => false) {}

theorem reloadedNode_failsClosed :
    (meteringRun reloadedNode).conns.map RoutedConn.result =
      [some (.counted true none 0), some (.counted true none 0)] ∧
    ∀ p q, reloadedNode = p ++ q → (meteringRun p).FailsClosed :=
  ⟨by decide +kernel, (failsClosed_iff_inPlace (fun _ => true) (fun _ _ => false) reloadedNode).mpr
    (by decide +kernel)⟩

theorem closedNode_not_failsClosed :
    ("[panel]-vless:1" ∈ (meteringRun closedNode).shared.sing.inbounds ∧
      (meteringRun closedNode).conns.map RoutedConn.result = [some .untouched] ∧
      ¬ (meteringRun closedNode).FailsClosed) ∧
    ¬ (meteringRun lateLookup).FailsClosed := by
  decide +kernel

end Tox.Node
