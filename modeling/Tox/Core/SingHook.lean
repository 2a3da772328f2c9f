import Tox.Core.Sing
import Tox.Limiter.Registry

/-!
# The connection hook of the sing core

The sing-box router hands every connection to `HookServer`, which asks the limiter of the inbound,
checks the rules of the node and wraps the connection into the counter of its user. A connection
whose tag has no limiter is handed on as it came: it is neither limited nor counted.

The look-up of the limiter is kept apart from the rest of the two functions, because the limiter may
be replaced in between: the rest goes on with the pointer that the look-up has returned. The
counters of a tag are created with its first connection in one step with the rest.
-/

namespace Tox.Core

open Tox.Foundation Tox.Counter Tox.Format Tox.Limit

/-- The parts of `adapter.InboundContext` that the hook reads. -/
structure InboundContext where
  inbound : String
  /-- The user that the inbound has authenticated, empty for fallback traffic. -/
  user : String
  /-- `Source.Addr`. -/
  source : String
  /-- `Destination.AddrString()`. -/
  destination : String := ""
  /-- `Destination.Network()`. -/
  network : String := "socks"
  protocol : String := ""
deriving DecidableEq, Repr

/-- What becomes of a connection. -/
inductive HookResult
  /-- It is handed on as it came. -/
  | untouched
  | closed
  /-- It is handed on with the rate limit `bucket`, counting into the storage `p` of its tag;
  `checked` says whether the limiter has been asked. -/
  | counted (checked : Bool) (bucket : Option Bucket) (p : ℕ)
deriving DecidableEq, Repr

namespace HookServer

variable (matchString : String → String → Bool)

/-- The rules of the limiter, and the counter of a connection that passes them. -/
def applyRules (b : Sing) (l : Limiter) (m : InboundContext) (protocol : String) (checked : Bool)
    (bucket : Option Bucket) : Sing × HookResult :=
  if l.checkDomainRule matchString m.destination then (b, .closed)
  else if protocol ≠ "" ∧ l.checkProtocolRule protocol = true then (b, .closed)
  else
    let (b, p) := b.routedConnection m.inbound m.user
    (b, .counted checked bucket p)

/-- `HookServer.RoutedConnection` with the limiter `l`, which is changed by the check. Fallback
traffic, which has no user, is not checked. -/
def routedConnection (b : Sing) (l : Limiter) (m : InboundContext) (now : ℤ) :
    Sing × Limiter × HookResult :=
  if m.user ≠ "" then
    match l.checkLimit now (userTag m.inbound m.user) m.source true true with
    | (l, _, true) => (b, l, .closed)
    | (l, bucket, false) =>
      let (b, result) := applyRules matchString b l m m.protocol true bucket
      (b, l, result)
  else
    let (b, result) := applyRules matchString b l m m.protocol false none
    (b, l, result)

/-- `HookServer.RoutedPacketConnection` with the limiter `l`. The bucket is not used. -/
def routedPacketConnection (b : Sing) (l : Limiter) (m : InboundContext) (now : ℤ) :
    Sing × Limiter × HookResult :=
  match l.checkLimit now (userTag m.inbound m.user) m.source false false with
  | (l, _, true) => (b, l, .closed)
  | (l, _, false) =>
    let (b, result) := applyRules matchString b l m m.network true none
    (b, l, result)

/-- Either function with the limiter at the pointer `p`. -/
def routed (b : Sing) (st : LimiterStore) (p : ℕ) (packet : Bool) (m : InboundContext) (now : ℤ) :
    Sing × LimiterStore × HookResult :=
  match st.get p with
  | none => (b, st, .untouched)
  | some l =>
    let (b, l, result) := if packet then routedPacketConnection matchString b l m now
      else routedConnection matchString b l m now
    (b, st.modify p fun _ => l, result)

/-- Either function as a whole. -/
def hook (b : Sing) (st : LimiterStore) (packet : Bool) (m : InboundContext) (now : ℤ) :
    Sing × LimiterStore × HookResult :=
  match st.registry.lookup m.inbound with
  | none => (b, st, .untouched)
  | some p => routed matchString b st p packet m now

end HookServer

/-- The connection is closed, or it is checked and counts into the storage of its user in the
counter of its tag. -/
def HookResult.Metered (b : Sing) (m : InboundContext) : HookResult → Prop
  | .untouched => False
  | .closed => True
  | .counted checked _ p =>
    checked = true ∧ (b.registry.trafficCounter m.inbound).counters.lookup m.user = some p

instance (b : Sing) (m : InboundContext) : (r : HookResult) → Decidable (r.Metered b m)
  | .untouched => inferInstanceAs (Decidable False)
  | .closed => inferInstanceAs (Decidable True)
  | .counted _ _ _ => inferInstanceAs (Decidable (_ ∧ _))

/-- The inbounds are those of `b`, and so are the storages that `b` has for its users. -/
structure Sing.Grows (b b' : Sing) : Prop where
  inbounds_eq : b'.inbounds = b.inbounds
  lookup_eq : ∀ {tag user : String} {p : ℕ},
    (b.registry.trafficCounter tag).counters.lookup user = some p →
      (b'.registry.trafficCounter tag).counters.lookup user = some p

namespace HookServer

variable {matchString : String → String → Bool} {b : Sing} {m : InboundContext}

theorem grows_routedConnection (b : Sing) (tag user : String) :
    b.Grows (b.routedConnection tag user).1 where
  inbounds_eq := rfl
  lookup_eq := by
    intro tag' user' p h
    show ((b.registry.attach tag user).1.trafficCounter tag').counters.lookup user' = some p
    rw [TrafficRegistry.trafficCounter_attach]
    split_ifs with htag
    · subst htag
      exact TrafficCounter.lookup_getCounter_of_some _ h user
    · exact h

theorem lookup_routedConnection (b : Sing) (tag user : String) :
    ((b.routedConnection tag user).1.registry.trafficCounter tag).counters.lookup user =
      some (b.routedConnection tag user).2 := by
  show ((b.registry.attach tag user).1.trafficCounter tag).counters.lookup user = _
  rw [TrafficRegistry.trafficCounter_attach, if_pos rfl]
  exact TrafficCounter.lookup_getCounter _ user

/-- What the rules make of a connection: it is metered if it has been checked. -/
theorem applyRules_spec (b : Sing) (l : Limiter) (m : InboundContext) (protocol : String)
    (checked : Bool) (bucket : Option Bucket) :
    b.Grows (applyRules matchString b l m protocol checked bucket).1 ∧
      (checked = true → (applyRules matchString b l m protocol checked bucket).2.Metered
        (applyRules matchString b l m protocol checked bucket).1 m) := by
  unfold applyRules
  split_ifs
  · exact ⟨⟨rfl, id⟩, fun _ => trivial⟩
  · exact ⟨⟨rfl, id⟩, fun _ => trivial⟩
  · exact ⟨grows_routedConnection b m.inbound m.user,
      fun hchecked => ⟨hchecked, lookup_routedConnection b m.inbound m.user⟩⟩

/-- `RoutedConnection` meters the connections of users. -/
theorem routedConnection_spec (b : Sing) (l : Limiter) (m : InboundContext) (now : ℤ) :
    b.Grows (routedConnection matchString b l m now).1 ∧
      (m.user ≠ "" → (routedConnection matchString b l m now).2.2.Metered
        (routedConnection matchString b l m now).1 m) := by
  unfold routedConnection
  split_ifs with huser
  · rcases l.checkLimit now (userTag m.inbound m.user) m.source true true with
      ⟨l', bucket, _ | _⟩
    · obtain ⟨hgrows, hmetered⟩ := applyRules_spec b l' m m.protocol
        true bucket
      exact ⟨hgrows, fun _ => hmetered rfl⟩
    · exact ⟨⟨rfl, id⟩, fun _ => trivial⟩
  · exact ⟨(applyRules_spec b l m m.protocol false none).1, fun h => absurd h huser⟩

/-- `RoutedPacketConnection` meters every connection. -/
theorem routedPacketConnection_spec (b : Sing) (l : Limiter) (m : InboundContext) (now : ℤ) :
    b.Grows (routedPacketConnection matchString b l m now).1 ∧
      (routedPacketConnection matchString b l m now).2.2.Metered
        (routedPacketConnection matchString b l m now).1 m := by
  unfold routedPacketConnection
  rcases l.checkLimit now (userTag m.inbound m.user) m.source false false with ⟨l', bucket, _ | _⟩
  · obtain ⟨hgrows, hmetered⟩ := applyRules_spec b l' m m.network
      true none
    exact ⟨hgrows, hmetered rfl⟩
  · exact ⟨⟨rfl, id⟩, trivial⟩

variable (matchString) in
/-- With a limiter, a connection of a user is metered. -/
theorem routed_spec (b : Sing) {st : LimiterStore} {p : ℕ} (hp : p < st.limiters.length)
    (packet : Bool) (m : InboundContext) (now : ℤ) :
    ∃ f, (routed matchString b st p packet m now).2.1 = st.modify p f ∧
      b.Grows (routed matchString b st p packet m now).1 ∧
      (m.user ≠ "" → (routed matchString b st p packet m now).2.2.Metered
        (routed matchString b st p packet m now).1 m) := by
  have hget : st.get p = some st.limiters[p] := List.getElem?_eq_getElem hp
  simp only [routed, hget]
  cases packet with
  | true =>
    obtain ⟨hgrows, hmetered⟩ := routedPacketConnection_spec b
      st.limiters[p] m now
    exact ⟨_, rfl, hgrows, fun _ => hmetered⟩
  | false =>
    obtain ⟨hgrows, hmetered⟩ := routedConnection_spec b
      st.limiters[p] m now
    exact ⟨_, rfl, hgrows, hmetered⟩

variable (matchString) in
/-- The connection of a user is not metered exactly when its tag has no limiter; it is then handed
on as it came. -/
theorem hook_metered_iff (b : Sing) (st : LimiterStore) (packet : Bool) {m : InboundContext}
    (huser : m.user ≠ "") (now : ℤ) :
    (hook matchString b st packet m now).2.2.Metered (hook matchString b st packet m now).1 m ↔
      m.inbound ∈ st.registry := by
  rw [← Finmap.lookup_isSome]
  cases hp : st.registry.lookup m.inbound with
  | none => simp [hook, hp, HookResult.Metered]
  | some p =>
    obtain ⟨_, -, -, hmetered⟩ := routed_spec matchString b (st.lt_length _ _ hp) packet m now
    simp only [hook, hp, Option.isSome_some, iff_true]
    exact hmetered huser

end HookServer

end Tox.Core
