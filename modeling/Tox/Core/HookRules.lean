import Tox.Core.SingHook
import Tox.Limiter.Calls
import Tox.Limiter.Rules

/-!
# The rules of a node on connections and on packet connections

Both functions of the hook end in the same two checks: the destination against the domain rules of
the limiter, and the protocol against its protocol rules. But they take the protocol from different
fields of the context. `RoutedConnection` takes the protocol that the router has sniffed,
`RoutedPacketConnection` takes `Destination.Network()`, which is a constant of the address type. A
protocol rule therefore has no effect on packet connections, unless it happens to be that constant,
and then it closes all of them.
-/

namespace Tox.Limit.Limiter

/-! ### The limiter keeps its rules -/

/-- The rules of a limiter. -/
def rules (l : Limiter) : List String × List String := (l.domainRules, l.protocolRules)

variable (l : Limiter)

theorem rules_userSpeedLimit (now : ℤ) (taguuid : String) (u : UserLimitInfo) :
    (l.userSpeedLimit now taguuid u).1.rules = l.rules := by
  rw [userSpeedLimit]
  split_ifs
  · rfl
  · rfl
  · rfl

theorem rules_admitNewIP {l undo : Limiter} {r : List String × List String} (hl : l.rules = r)
    (hundo : undo.rules = r) (ip : String) (uid deviceLimit aliveIp : ℤ) :
    (l.admitNewIP ip uid deviceLimit aliveIp undo).1.rules = r := by
  rw [admitNewIP]
  rcases l.oldUserOnline.lookup ip with _ | v
  · dsimp only
    split_ifs
    · exact hundo
    · exact hl
  · dsimp only
    split_ifs
    · exact hl
    · exact hl

theorem rules_admitIP (taguuid ip : String) (uid deviceLimit : ℤ) :
    (l.admitIP taguuid ip uid deviceLimit).1.rules = l.rules := by
  rw [admitIP]
  rcases l.userOnlineIP.lookup taguuid with _ | oldipMap
  · apply rules_admitNewIP
    · rfl
    · rfl
  · dsimp only
    rcases oldipMap.lookup ip with _ | uid'
    · apply rules_admitNewIP
      · rfl
      · rfl
    · rfl

/-- A connection changes no rule. -/
theorem rules_checkLimit (now : ℤ) (taguuid ip : String) (isTcp noSSUDP : Bool) :
    (l.checkLimit now taguuid ip isTcp noSSUDP).1.rules = l.rules := by
  rcases hu : l.userLimitInfo.lookup taguuid with _ | u
  · rw [checkLimit, hu]
  · have hlimit := l.rules_userSpeedLimit now taguuid u
    rcases noSSUDP with _ | _
    · obtain ⟨⟨m, hm⟩, -⟩ := checkLimit_eq hu rfl ip isTcp false (if_neg Bool.false_ne_true)
      rw [hm]
      exact hlimit
    · obtain ⟨⟨m, hm⟩, -⟩ := checkLimit_eq hu rfl ip isTcp true (if_pos rfl)
      rw [hm]
      exact (rules_admitIP _ taguuid _ u.uid u.deviceLimit).trans hlimit

end Tox.Limit.Limiter

namespace Tox.Core.HookServer

open Tox.Format Tox.Limit

variable (matchString : String → String → Bool)

/-- A protocol rule refuses the protocol. -/
def Refuses (l : Limiter) (protocol : String) : Prop :=
  protocol ≠ "" ∧ l.checkProtocolRule protocol = true

instance (l : Limiter) (protocol : String) : Decidable (Refuses l protocol) :=
  inferInstanceAs (Decidable (_ ∧ _))

/-- A rule closes the connections to the destination that have the protocol. -/
def RuleCloses (l : Limiter) (destination protocol : String) : Prop :=
  l.checkDomainRule matchString destination = true ∨ Refuses l protocol

/-- `RoutedConnection` comes to the rules: the limiter accepts the user, or there is none. -/
def Accepts (l : Limiter) (m : InboundContext) (now : ℤ) : Prop :=
  m.user = "" ∨ (l.checkLimit now (userTag m.inbound m.user) m.source true true).2.2 = false

/-- `RoutedPacketConnection` comes to the rules. -/
def AcceptsPacket (l : Limiter) (m : InboundContext) (now : ℤ) : Prop :=
  (l.checkLimit now (userTag m.inbound m.user) m.source false false).2.2 = false

instance (l : Limiter) (m : InboundContext) (now : ℤ) : Decidable (AcceptsPacket l m now) :=
  inferInstanceAs (Decidable (_ = false))

section Closed

variable {matchString} {l l' : Limiter} {m : InboundContext} {now : ℤ}

theorem ruleCloses_congr (h : l'.rules = l.rules) (destination protocol : String) :
    RuleCloses matchString l' destination protocol ↔
      RuleCloses matchString l destination protocol := by
  obtain ⟨hdomain, hprotocol⟩ := Prod.mk.inj h
  rw [RuleCloses, RuleCloses, Refuses, Refuses, Limiter.checkDomainRule, Limiter.checkDomainRule,
    Limiter.checkProtocolRule, Limiter.checkProtocolRule, hdomain, hprotocol]

theorem applyRules_closed_iff (b : Sing) (l : Limiter) (m : InboundContext) (protocol : String)
    (checked : Bool) (bucket : Option Bucket) :
    (applyRules matchString b l m protocol checked bucket).2 = .closed ↔
      RuleCloses matchString l m.destination protocol := by
  rw [applyRules, RuleCloses, Refuses]
  split_ifs with hdomain hprotocol
  · exact iff_of_true rfl (Or.inl hdomain)
  · exact iff_of_true rfl (Or.inr hprotocol)
  · exact iff_of_false (fun h => by cases h) (not_or.mpr ⟨hdomain, hprotocol⟩)

variable (matchString) in
/-- A connection that the limiter accepts is closed if and only if a rule closes it. -/
theorem routedConnection_closed_iff (b : Sing) (h : Accepts l m now) :
    (routedConnection matchString b l m now).2.2 = .closed ↔
      RuleCloses matchString l m.destination m.protocol := by
  rw [routedConnection]
  split_ifs with huser
  · have hrules := l.rules_checkLimit now (userTag m.inbound m.user) m.source true true
    have haccepted := h.resolve_left huser
    rcases hcheck : l.checkLimit now (userTag m.inbound m.user) m.source true true with
      ⟨l', bucket, _ | _⟩
    · rw [hcheck] at hrules
      exact (applyRules_closed_iff ..).trans (ruleCloses_congr hrules _ _)
    · rw [hcheck] at haccepted
      cases haccepted
  · exact applyRules_closed_iff ..

variable (matchString) in
/-- A packet connection that the limiter accepts is closed if and only if a rule closes it. -/
theorem routedPacketConnection_closed_iff (b : Sing) (h : AcceptsPacket l m now) :
    (routedPacketConnection matchString b l m now).2.2 = .closed ↔
      RuleCloses matchString l m.destination m.network := by
  rw [AcceptsPacket] at h
  rw [routedPacketConnection]
  have hrules := l.rules_checkLimit now (userTag m.inbound m.user) m.source false false
  rcases hcheck : l.checkLimit now (userTag m.inbound m.user) m.source false false with
    ⟨l', bucket, _ | _⟩
  · rw [hcheck] at hrules
    exact (applyRules_closed_iff ..).trans (ruleCloses_congr hrules _ _)
  · rw [hcheck] at h
    cases h

end Closed

/-- **When the two hooks apply the same rules.** For a user that the limiter accepts, one of them
closes a connection because of a rule exactly if the other one would close a packet connection with
the same context, if and only if a domain rule matches, or the protocol rules treat the sniffed
protocol and the network of the destination alike. -/
theorem hooks_agree_iff (b : Sing) {l : Limiter} {m : InboundContext} {now : ℤ}
    (haccepts : Accepts l m now) (hpacket : AcceptsPacket l m now) :
    ((routedConnection matchString b l m now).2.2 = .closed ↔
        (routedPacketConnection matchString b l m now).2.2 = .closed) ↔
      l.checkDomainRule matchString m.destination = true ∨
        (Refuses l m.protocol ↔ Refuses l m.network) := by
  rw [routedConnection_closed_iff matchString b haccepts,
    routedPacketConnection_closed_iff matchString b hpacket, RuleCloses, RuleCloses]
  tauto

/-- A limiter that blocks a protocol, and has one user. -/
def noBittorrent : Limiter where
  protocolRules := ["bittorrent"]
  userLimitInfo := (∅ : Foundation.GoMap String UserLimitInfo).insert "tag|a" { uid := 1 }

/-- The connection of the user, which the router has recognised. -/
def bittorrentContext : InboundContext where
  inbound := "tag"
  user := "a"
  source := "10.0.0.1"
  destination := "example.com"
  protocol := "bittorrent"

theorem hooks_agree_iff_noBittorrent :
    ¬ ((routedConnection (· == ·) {} noBittorrent bittorrentContext 0).2.2 = .closed ↔
      (routedPacketConnection (· == ·) {} noBittorrent bittorrentContext 0).2.2 = .closed) := by
  rw [hooks_agree_iff (· == ·) {} (Or.inr (by decide)) (by decide)]
  exact by decide

/-- **A protocol rule that packet connections pass.** The limiter accepts both connections. -/
theorem packet_passes_protocol_rule :
    (routedConnection (· == ·) {} noBittorrent bittorrentContext 0).2.2 = .closed ∧
    (routedPacketConnection (· == ·) {} noBittorrent bittorrentContext 0).2.2 =
      .counted true none 0 := by
  decide

theorem refuses_iff (l : Limiter) (protocol : String) :
    Refuses l protocol ↔ protocol ≠ "" ∧ protocol ∈ l.protocolRules := by
  rw [Refuses, Limiter.checkProtocolRule, List.any_eq_true]
  refine and_congr_right fun _ => ⟨?_, fun hmem => ⟨protocol, hmem, decide_eq_true rfl⟩⟩
  rintro ⟨rule, hmem, hrule⟩
  rwa [← of_decide_eq_true hrule]

/-- **The rules that are applied alike.** With the network of `Socksaddr`, both hooks come to the
same decision for all destinations and protocols if and only if there is no protocol rule other than
the empty one, or the domain rules match every destination. -/
theorem rules_alike_iff (l : Limiter) :
    (∀ destination protocol, RuleCloses matchString l destination protocol ↔
        RuleCloses matchString l destination "socks") ↔
      (∀ rule ∈ l.protocolRules, rule = "") ∨
        ∀ destination, l.checkDomainRule matchString destination = true := by
  constructor
  · intro halike
    by_contra hnot
    obtain ⟨hrules, hdomains⟩ := not_or.mp hnot
    simp only [not_forall, exists_prop] at hrules hdomains
    obtain ⟨rule, hmem, hne⟩ := hrules
    obtain ⟨destination, hmatch⟩ := hdomains
    -- A rule would have to refuse the constant, and then the empty protocol as well.
    have hconstant : Refuses l "socks" := by
      have hcloses := (halike destination rule).mp (Or.inr ((refuses_iff l rule).mpr ⟨hne, hmem⟩))
      exact hcloses.resolve_left hmatch
    have hempty := ((halike destination "").mpr (Or.inr hconstant)).resolve_left hmatch
    exact hempty.1 rfl
  · rintro (hrules | hdomains) destination protocol
    · have hnone (p : String) : ¬ Refuses l p := fun hp =>
        hp.1 (hrules p ((refuses_iff l p).mp hp).2)
      rw [RuleCloses, RuleCloses, or_iff_left (hnone protocol), or_iff_left (hnone "socks")]
    · exact iff_of_true (Or.inl (hdomains destination)) (Or.inl (hdomains destination))

end Tox.Core.HookServer
