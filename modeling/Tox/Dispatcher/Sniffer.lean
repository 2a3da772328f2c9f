import Mathlib.Algebra.Ring.Int.Defs
import Tox.Dispatcher.CachedReader

/-!
# Sniffing the protocol of a connection

The dispatcher asks a list of sniffers which protocol the first bytes of a connection belong to. A
sniffer recognises a payload, or has no clue (`ErrNoClue`), or needs more data
(`ErrProtoNeedMoreData`), or refuses it with any other error. `Sniffer.Sniff` goes through the
sniffers of the network and keeps for the next call those that have no clue. There is no case for
those that need more data: they are dropped like those that refuse. `sniffer` calls it in a loop
with a payload that grows, and its own case for `ErrProtoNeedMoreData` is never reached, since
`Sniff` does not return this error.

So a sniffer that needs more data is not asked again. The loop returns what it would recognise only
if that is the first payload that is not empty, or if a sniffer that had no clue before happens to
give the same answer (`contentLoop_recognises_iff`).
-/

namespace Tox.Dispatcher

/-- `net.Network`. -/
inductive Network
  | unknown
  | tcp
  | udp
  | unix
deriving DecidableEq, Repr

/-- The errors of the sniffers and of the loop, with the errors `ε` of other kinds. -/
inductive SniffError (ε : Type*)
  /-- `common.ErrNoClue`. -/
  | noClue
  /-- `protocol.ErrProtoNeedMoreData`. -/
  | needMoreData
  /-- `errUnknownContent`. -/
  | unknownContent
  /-- `errSniffingTimeout`. -/
  | timeout
  | other (err : ε)
deriving DecidableEq, Repr

/-- `protocolSnifferWithMetadata` for the results `ρ`. A sniffer may return neither a result nor an
error. -/
structure ProtocolSniffer (ρ ε : Type*) where
  protocolSniffer : List UInt8 → Except (SniffError ε) (Option ρ)
  metadataSniffer : Bool := false
  network : Network := .unknown

variable {ρ ε : Type*}

/-! ### One call -/

/-- The loop of `Sniff` and of `SniffMetadata`: the sniffers that `asks` picks are asked; the others
are kept for the next call if `keepsOthers` says so. -/
def askSniffers (asks : ProtocolSniffer ρ ε → Bool) (keepsOthers : Bool) (payload : List UInt8)
    (pending : List (ProtocolSniffer ρ ε)) :
    List (ProtocolSniffer ρ ε) → ρ ⊕ List (ProtocolSniffer ρ ε)
  | [] => .inr pending
  | si :: rest =>
    if asks si then
      match si.protocolSniffer payload with
      | .error .noClue => askSniffers asks keepsOthers payload (pending ++ [si]) rest
      | .ok (some result) => .inl result
      -- any other error, `ErrProtoNeedMoreData` among them
      | _ => askSniffers asks keepsOthers payload pending rest
    else
      askSniffers asks keepsOthers payload (if keepsOthers then pending ++ [si] else pending) rest

/-- The end of both functions: the sniffers of the next call, and the result. -/
def concludeSniff (s : List (ProtocolSniffer ρ ε)) :
    ρ ⊕ List (ProtocolSniffer ρ ε) → List (ProtocolSniffer ρ ε) × Except (SniffError ε) ρ
  | .inl result => (s, .ok result)
  | .inr [] => (s, .error .unknownContent)
  | .inr pending => (pending, .error .noClue)

/-- The sniffers for the content of connections of a network. -/
def ProtocolSniffer.asked (network : Network) (si : ProtocolSniffer ρ ε) : Bool :=
  !si.metadataSniffer && si.network == network

/-- `Sniffer.Sniff`. -/
def sniff (s : List (ProtocolSniffer ρ ε)) (payload : List UInt8) (network : Network) :
    List (ProtocolSniffer ρ ε) × Except (SniffError ε) ρ :=
  concludeSniff s (askSniffers (ProtocolSniffer.asked network) false payload [] s)

/-- `Sniffer.SniffMetadata`. -/
def sniffMetadata (s : List (ProtocolSniffer ρ ε)) :
    List (ProtocolSniffer ρ ε) × Except (SniffError ε) ρ :=
  concludeSniff s (askSniffers ProtocolSniffer.metadataSniffer true [] [] s)

/-! ### The loop -/

/-- What a round of the loop meets: the error of the context if it is done, otherwise the payload
after `Cache`, and the time that this has taken, in nanoseconds. -/
structure Round (ε : Type*) where
  done : Option ε := none
  cached : Except ε (List UInt8)
  elapsed : ℤ

/-- What a round makes of its payload: the sniffers and the number of attempts afterwards, and the
result if the loop returns one. -/
def judge (network : Network) (s : List (ProtocolSniffer ρ ε)) (totalAttempt : ℕ)
    (payload : List UInt8) :
    List (ProtocolSniffer ρ ε) × ℕ × Option (Except (SniffError ε) ρ) :=
  if payload = [] then (s, totalAttempt + 1, none)
  else
    match sniff s payload network with
    | (s, .error .noClue) => (s, totalAttempt + 1, none)
    | (s, .error .needMoreData) => (s, totalAttempt, none)
    | (s, result) => (s, totalAttempt, some result)

/-- The loop of `sniffer` in the given rounds; `none` if it has not returned by then. -/
def contentLoop (network : Network) (s : List (ProtocolSniffer ρ ε)) (cacheDeadline : ℤ)
    (totalAttempt : ℕ) : List (Round ε) → Option (Except (SniffError ε) ρ)
  | [] => none
  | round :: rounds =>
    match round.done, round.cached with
    | some err, _ => some (.error (.other err))
    | none, .error err => some (.error (.other err))
    | none, .ok payload =>
      match judge network s totalAttempt payload with
      | (_, _, some result) => some result
      | (s, totalAttempt, none) =>
        if 2 ≤ totalAttempt ∨ cacheDeadline - round.elapsed ≤ 0 then some (.error .timeout)
        else contentLoop network s (cacheDeadline - round.elapsed) totalAttempt rounds

/-- The first deadline of the loop, 200 milliseconds. -/
def cacheDeadline : ℤ := 200 * 1000000

/-- `sniffer`, with `CompositeResult`. -/
def sniffer (compositeResult : ρ → ρ → ρ) (s : List (ProtocolSniffer ρ ε)) (metadataOnly : Bool)
    (network : Network) (rounds : List (Round ε)) : Option (Except (SniffError ε) ρ) :=
  let (s, metaresult) := sniffMetadata s
  if metadataOnly then some metaresult
  else (contentLoop network s cacheDeadline 0 rounds).map fun contentResult =>
    match metaresult, contentResult with
    | .ok metaresult, .error _ => .ok metaresult
    | .ok metaresult, .ok contentResult => .ok (compositeResult metaresult contentResult)
    | .error _, contentResult => contentResult

/-! ### What one call finds -/

/-- What a sniffer recognises, if it is asked. -/
def ProtocolSniffer.recognition (network : Network) (payload : List UInt8)
    (si : ProtocolSniffer ρ ε) : Option ρ :=
  if si.asked network then
    match si.protocolSniffer payload with
    | .ok result => result
    | .error _ => none
  else none

/-- A sniffer that is asked has no clue. -/
def ProtocolSniffer.lacksClue (network : Network) (payload : List UInt8)
    (si : ProtocolSniffer ρ ε) : Bool :=
  si.asked network &&
    match si.protocolSniffer payload with
    | .error .noClue => true
    | _ => false

/-- The recognition of the first sniffer that has one. -/
def firstRecognition (network : Network) (s : List (ProtocolSniffer ρ ε)) (payload : List UInt8) :
    Option ρ :=
  s.findSome? (ProtocolSniffer.recognition network payload)

/-- The sniffers that have no clue. -/
def withoutClue (network : Network) (s : List (ProtocolSniffer ρ ε)) (payload : List UInt8) :
    List (ProtocolSniffer ρ ε) :=
  s.filter (ProtocolSniffer.lacksClue network payload)

/-- The sniffers that are left after a payload that none has recognised. -/
def leftAfter (network : Network) (s : List (ProtocolSniffer ρ ε)) (payload : List UInt8) :
    List (ProtocolSniffer ρ ε) :=
  if payload = [] then s else withoutClue network s payload

section Sniff

variable {network : Network} {s : List (ProtocolSniffer ρ ε)} {payload : List UInt8}

theorem askSniffers_eq (pending : List (ProtocolSniffer ρ ε)) :
    askSniffers (ProtocolSniffer.asked network) false payload pending s =
      match firstRecognition network s payload with
      | some result => .inl result
      | none => .inr (pending ++ withoutClue network s payload) := by
  induction s generalizing pending with
  | nil => exact congrArg Sum.inr (List.append_nil pending).symm
  | cons si s ih =>
    rw [askSniffers, firstRecognition, List.findSome?_cons, withoutClue, List.filter_cons,
      ProtocolSniffer.recognition, ProtocolSniffer.lacksClue]
    by_cases hasked : si.asked network = true
    · simp only [hasked, if_true, Bool.true_and]
      rcases si.protocolSniffer payload with (_ | _ | _ | _ | err) | (_ | result)
      · rw [ih, List.append_assoc]
        rfl
      all_goals first | exact ih pending | rfl
    · simp only [hasked, Bool.false_eq_true, if_false, Bool.false_and]
      exact ih pending

/-- Every outcome of `Sniff`. -/
theorem sniff_eq : sniff s payload network =
    match firstRecognition network s payload with
    | some result => (s, .ok result)
    | none =>
      if withoutClue network s payload = [] then (s, .error .unknownContent)
      else (withoutClue network s payload, .error .noClue) := by
  rw [sniff, askSniffers_eq, List.nil_append]
  rcases firstRecognition network s payload with _ | result
  · rcases withoutClue network s payload with _ | ⟨si, pending⟩
    · rfl
    · rfl
  · rfl

/-- A payload that is not recognised adds an attempt, or the loop ends with an error. -/
theorem judge_of_none (h : firstRecognition network s payload = none) (totalAttempt : ℕ) :
    judge network s totalAttempt payload =
      if payload = [] ∨ withoutClue network s payload ≠ [] then
        (leftAfter network s payload, totalAttempt + 1, none)
      else (s, totalAttempt, some (.error .unknownContent)) := by
  rw [judge, sniff_eq, h, leftAfter]
  by_cases hnil : payload = []
  · rw [if_pos hnil, if_pos (Or.inl hnil), if_pos hnil]
  · rw [if_neg hnil, if_neg hnil]
    by_cases hleft : withoutClue network s payload = []
    · rw [if_pos hleft, if_neg (not_or.mpr ⟨hnil, not_not.mpr hleft⟩)]
    · rw [if_neg hleft, if_pos (Or.inr hleft)]

theorem judge_of_some {result : ρ} (hne : payload ≠ [])
    (h : firstRecognition network s payload = some result) (totalAttempt : ℕ) :
    judge network s totalAttempt payload = (s, totalAttempt, some (.ok result)) := by
  rw [judge, if_neg hne, sniff_eq, h]

end Sniff

/-! ### What the loop returns -/

/-- A round in which the payload is cached in time. -/
def Round.of (payload : List UInt8 × ℤ) : Round ε where
  cached := .ok payload.1
  elapsed := payload.2

section Loop

variable {network : Network} {s : List (ProtocolSniffer ρ ε)} {deadline : ℤ} {totalAttempt : ℕ}
  {result : ρ}

theorem contentLoop_cons (payload : List UInt8 × ℤ) (rounds : List (Round ε)) :
    contentLoop network s deadline totalAttempt (.of payload :: rounds) =
      match judge network s totalAttempt payload.1 with
      | (_, _, some result) => some result
      | (s, totalAttempt, none) =>
        if 2 ≤ totalAttempt ∨ deadline - payload.2 ≤ 0 then some (.error .timeout)
        else contentLoop network s (deadline - payload.2) totalAttempt rounds := rfl

/-- In its last round the loop returns a result if and only if a sniffer has one. -/
theorem contentLoop_singleton_iff (payload : List UInt8 × ℤ) :
    contentLoop network s deadline totalAttempt [.of payload] = some (.ok result) ↔
      payload.1 ≠ [] ∧ firstRecognition network s payload.1 = some result := by
  rw [contentLoop_cons]
  by_cases hnil : payload.1 = []
  · simp [judge, hnil, contentLoop]
  · rw [and_iff_right hnil]
    rcases hfirst : firstRecognition network s payload.1 with _ | other
    · rw [judge_of_none hfirst]
      split_ifs with hleft
      · simp [contentLoop]
      · simp
    · rw [judge_of_some hnil hfirst]
      simp

/-- A round whose payload is not recognised: the loop goes on only if it is the first such round.
-/
theorem contentLoop_cons_iff {payload : List UInt8 × ℤ}
    (hnone : firstRecognition network s payload.1 = none) (rounds : List (Round ε)) :
    contentLoop network s deadline totalAttempt (.of payload :: rounds) = some (.ok result) ↔
      (payload.1 = [] ∨ withoutClue network s payload.1 ≠ []) ∧ totalAttempt = 0 ∧
        payload.2 < deadline ∧
        contentLoop network (leftAfter network s payload.1) (deadline - payload.2) 1 rounds =
          some (.ok result) := by
  rw [contentLoop_cons, judge_of_none hnone]
  by_cases hleft : payload.1 = [] ∨ withoutClue network s payload.1 ≠ []
  · rw [if_pos hleft, and_iff_right hleft]
    dsimp only
    by_cases hend : 2 ≤ totalAttempt + 1 ∨ deadline - payload.2 ≤ 0
    · rw [if_pos hend]
      refine iff_of_false (fun h => by cases h) ?_
      rintro ⟨hzero, htime, -⟩
      omega
    · have hzero : totalAttempt = 0 := by omega
      have htime : payload.2 < deadline := by omega
      rw [if_neg hend, hzero, and_iff_right rfl, and_iff_right htime]
  · rw [if_neg hleft]
    exact iff_of_false (fun h => by cases h) fun h => hleft h.1

theorem mem_of_mem_leftAfter {payload : List UInt8} {x : ProtocolSniffer ρ ε}
    (h : x ∈ leftAfter network s payload) : x ∈ s := by
  rw [leftAfter] at h
  split_ifs at h
  · exact h
  · exact List.mem_of_mem_filter h

/-- The sniffers that are left recognise a payload only if one of all sniffers does. -/
theorem firstRecognition_leftAfter_of_none {payload : List UInt8}
    (hnone : firstRecognition network s payload = none) (earlier : List UInt8) :
    firstRecognition network (leftAfter network s earlier) payload = none := by
  rw [firstRecognition, List.findSome?_eq_none_iff] at hnone ⊢
  intro x hx
  exact hnone x (mem_of_mem_leftAfter hx)

/-- After a first payload that is not recognised, the sniffers that are left decide. -/
theorem contentLoop_pair_iff {payload last : List UInt8 × ℤ}
    (hnone : firstRecognition network s payload.1 = none) (htime : payload.2 < deadline) :
    contentLoop network s deadline 0 [.of payload, .of last] = some (.ok result) ↔
      last.1 ≠ [] ∧
        firstRecognition network (leftAfter network s payload.1) last.1 = some result := by
  rw [contentLoop_cons_iff hnone, contentLoop_singleton_iff, and_iff_right rfl,
    and_iff_right htime]
  refine and_iff_right_of_imp ?_
  rintro ⟨-, hfirst⟩
  by_contra hleft
  obtain ⟨hnil, hleft⟩ := not_or.mp hleft
  rw [leftAfter, if_neg hnil, not_not.mp hleft] at hfirst
  cases hfirst

/-- Two payloads that are not recognised are two attempts, and end the loop. -/
theorem contentLoop_ne_of_two {payload next : List UInt8 × ℤ}
    (hnone : firstRecognition network s payload.1 = none)
    (hnext : firstRecognition network s next.1 = none) (rounds : List (Round ε)) :
    contentLoop network s deadline totalAttempt (.of payload :: .of next :: rounds) ≠
      some (.ok result) := by
  intro h
  rw [contentLoop_cons_iff hnone,
    contentLoop_cons_iff (firstRecognition_leftAfter_of_none hnext payload.1)] at h
  exact absurd h.2.2.2.2.1 Nat.one_ne_zero

end Loop

section NeedMoreData

variable {network : Network} {before after : List (ProtocolSniffer ρ ε)} {si : ProtocolSniffer ρ ε}
  {payload : List UInt8}

/-- A sniffer that needs more data does not count among those that have no clue. -/
theorem withoutClue_of_needMoreData (h : si.protocolSniffer payload = .error .needMoreData) :
    withoutClue network (before ++ si :: after) payload =
      withoutClue network (before ++ after) payload := by
  have hlacks : si.lacksClue network payload = false := by
    rw [ProtocolSniffer.lacksClue, h, Bool.and_false]
  rw [withoutClue, withoutClue, List.filter_append,
    List.filter_cons_of_neg (by rw [hlacks]; decide), List.filter_append]

/-- Nothing is recognised if one sniffer needs more data and the others recognise nothing. -/
theorem firstRecognition_of_needMoreData
    (h : si.protocolSniffer payload = .error .needMoreData)
    (hothers : ∀ x ∈ before ++ after, x.recognition network payload = none) :
    firstRecognition network (before ++ si :: after) payload = none := by
  rw [firstRecognition, List.findSome?_eq_none_iff]
  intro x hx
  rcases List.mem_append.mp hx with hbefore | hafter
  · exact hothers x (List.mem_append_left _ hbefore)
  · rcases List.mem_cons.mp hafter with rfl | hafter
    · rw [ProtocolSniffer.recognition, h]
      exact ite_self none
    · exact hothers x (List.mem_append_right _ hafter)

/-- A sniffer that recognises the payload decides, unless an earlier one recognises it as something
else. -/
theorem firstRecognition_append_cons_iff {result : ρ} (hasked : si.asked network = true)
    (h : si.protocolSniffer payload = .ok (some result)) :
    firstRecognition network (before ++ si :: after) payload = some result ↔
      ∀ other, firstRecognition network before payload = some other → other = result := by
  have hsi : si.recognition network payload = some result := by
    rw [ProtocolSniffer.recognition, if_pos hasked, h]
  rw [firstRecognition, List.findSome?_append, List.findSome?_cons, hsi, firstRecognition]
  rcases before.findSome? (ProtocolSniffer.recognition network payload) with _ | other
  · exact iff_of_true rfl nofun
  · simp

end NeedMoreData

/-- **A sniffer that needs more data is not asked again.** Let a sniffer for the network need more
data on the payloads before the last one, and recognise the last; let no other sniffer recognise one
of the payloads before; and let the time not run out. Then the loop returns the recognition if and
only if the last payload is not empty, there is at most one payload before it, and

* that one is empty, or there is none, and no sniffer earlier in the list recognises the last
  payload as something else, or
* that one is not empty, and the first recognition of the last payload by the *other* sniffers that
  had no clue happens to be the same. -/
theorem contentLoop_recognises_iff {network : Network} {before after : List (ProtocolSniffer ρ ε)}
    {si : ProtocolSniffer ρ ε} {front : List (List UInt8 × ℤ)} {last : List UInt8 × ℤ} {result : ρ}
    (hasked : si.asked network = true)
    (hmore : ∀ p ∈ front, si.protocolSniffer p.1 = .error .needMoreData)
    (hlast : si.protocolSniffer last.1 = .ok (some result))
    (hothers : ∀ p ∈ front, ∀ x ∈ before ++ after, x.recognition network p.1 = none)
    (htime : (front.map Prod.snd).sum < cacheDeadline) :
    contentLoop network (before ++ si :: after) cacheDeadline 0
        ((front ++ [last]).map Round.of) = some (.ok result) ↔
      last.1 ≠ [] ∧
        (((front = [] ∨ ∃ t, front = [([], t)]) ∧
            ∀ other, firstRecognition network before last.1 = some other → other = result) ∨
          ∃ p, front = [p] ∧ p.1 ≠ [] ∧
            firstRecognition network (withoutClue network (before ++ after) p.1) last.1 =
              some result) := by
  have hnone (p) (hp : p ∈ front) :
      firstRecognition network (before ++ si :: after) p.1 = none :=
    firstRecognition_of_needMoreData (hmore p hp) (hothers p hp)
  rcases front with _ | ⟨p, _ | ⟨q, front⟩⟩
  · -- The payload is the first one.
    rw [List.nil_append, List.map_singleton, contentLoop_singleton_iff,
      firstRecognition_append_cons_iff hasked hlast]
    simp
  · -- The payload before it leaves the sniffers that had no clue, if it is not empty.
    have hp : p ∈ [p] := List.mem_singleton_self p
    rw [List.map_singleton, List.sum_singleton] at htime
    rw [List.singleton_append, List.map_cons, List.map_singleton,
      contentLoop_pair_iff (hnone p hp) htime, leftAfter]
    refine and_congr_right fun _ => ?_
    by_cases hnil : p.1 = []
    · rw [if_pos hnil, firstRecognition_append_cons_iff hasked hlast]
      constructor
      · intro hfirst
        have hpair : p = ([], p.2) := Prod.ext hnil rfl
        exact Or.inl ⟨Or.inr ⟨p.2, congrArg ([·]) hpair⟩, hfirst⟩
      · rintro (⟨-, hfirst⟩ | ⟨p', hp', hne', -⟩)
        · exact hfirst
        · obtain ⟨rfl, -⟩ := List.cons_eq_cons.mp hp'
          exact absurd hnil hne'
    · rw [if_neg hnil, withoutClue_of_needMoreData (hmore p hp)]
      constructor
      · intro hfirst
        exact Or.inr ⟨p, rfl, hnil, hfirst⟩
      · rintro (⟨hempty, -⟩ | ⟨p', hp', -, hfirst⟩)
        · obtain ⟨t, ht⟩ := hempty.resolve_left (List.cons_ne_nil p [])
          obtain ⟨rfl, -⟩ := List.cons_eq_cons.mp ht
          exact absurd rfl hnil
        · obtain ⟨rfl, -⟩ := List.cons_eq_cons.mp hp'
          exact hfirst
  · -- The payload comes after two attempts.
    have hp : p ∈ p :: q :: front := List.mem_cons_self
    have hq : q ∈ p :: q :: front := List.mem_cons_of_mem p List.mem_cons_self
    refine iff_of_false (contentLoop_ne_of_two (hnone p hp) (hnone q hq) _) fun h => ?_
    simp at h

/-- A sniffer that needs two bytes. -/
def twoBytes : ProtocolSniffer String String where
  protocolSniffer payload :=
    if payload.length < 2 then .error .needMoreData else .ok (some "tls")
  network := .tcp

/-- A sniffer that never has a clue. -/
def clueless : ProtocolSniffer String String where
  protocolSniffer _ := .error .noClue
  network := .tcp

theorem contentLoop_recognises_iff_twoBytes :
    contentLoop .tcp [clueless, twoBytes] cacheDeadline 0
        ([([], 1000000), ([0x16, 0x03], 1000000)].map Round.of) = some (.ok "tls") := by
  refine (@contentLoop_recognises_iff String String .tcp [clueless] [] twoBytes [([], 1000000)]
    ([0x16, 0x03], 1000000) "tls" rfl ?_ rfl ?_ (by decide)).mpr
    ⟨by decide, Or.inl ⟨Or.inr ⟨_, rfl⟩, nofun⟩⟩
  · rintro p hp
    obtain rfl := List.mem_singleton.mp hp
    rfl
  · rintro p hp x hx
    obtain rfl := List.mem_singleton.mp hp
    obtain rfl := List.mem_singleton.mp hx
    rfl

/-- **The second byte comes too late.** The sniffer needs a second byte and gets it two milliseconds
after the first. The content is unknown by then; with a second sniffer in the list, which has no
clue, the loop goes on without the first one and times out. -/
theorem contentLoop_forgets :
    let rounds : List (Round String) :=
      [([0x16], 1000000), ([0x16, 0x03], 1000000)].map Round.of
    twoBytes.protocolSniffer [0x16] = .error .needMoreData ∧
    twoBytes.protocolSniffer [0x16, 0x03] = .ok (some "tls") ∧
    contentLoop .tcp [twoBytes] cacheDeadline 0 rounds = some (.error .unknownContent) ∧
    contentLoop .tcp [clueless, twoBytes] cacheDeadline 0 rounds = some (.error .timeout) :=
  ⟨rfl, rfl, rfl, rfl⟩

/-! ### The rounds on a cached reader -/

/-- Sniffers for the content only: the metadata has no part in the result. -/
theorem sniffer_eq_contentLoop (compositeResult : ρ → ρ → ρ) {s : List (ProtocolSniffer ρ ε)}
    (h : ∀ si ∈ s, si.metadataSniffer = false) (network : Network) (rounds : List (Round ε)) :
    sniffer compositeResult s false network rounds =
      contentLoop network s cacheDeadline 0 rounds := by
  have hask (pending : List (ProtocolSniffer ρ ε)) :
      askSniffers ProtocolSniffer.metadataSniffer true [] pending s = .inr (pending ++ s) := by
    induction s generalizing pending with
    | nil => exact congrArg Sum.inr (List.append_nil pending).symm
    | cons si s ih =>
      obtain ⟨hsi, hs⟩ := List.forall_mem_cons.mp h
      rw [askSniffers, if_neg (by rw [hsi]; decide), if_pos rfl, ih hs, List.append_assoc]
      rfl
  have hmeta : ∃ err, sniffMetadata s = (s, .error err) := by
    rw [sniffMetadata, hask, List.nil_append]
    rcases s with _ | ⟨si, s⟩
    · exact ⟨_, rfl⟩
    · exact ⟨_, rfl⟩
  obtain ⟨err, hmeta⟩ := hmeta
  rw [sniffer, hmeta]
  exact Option.map_id' ..

namespace CachedReader

variable {σ : Type*}

/-- The rounds of the loop on a reader, given for each round the error of the context, if it is
done, and the time. The last round is the first one that ends the loop. -/
def rounds (R : TimeoutReader σ ε) (r : CachedReader σ) (payload : Buffer) (deadline : ℤ) :
    List (Option ε × ℤ) → List (Round ε)
  | [] => []
  | (some err, elapsed) :: _ =>
    [{ done := some err, cached := .ok payload.bytes, elapsed := elapsed }]
  | (none, elapsed) :: rest =>
    let after := r.cacheInto R payload deadline
    match after.2.2 with
    | some err => [{ cached := .error err, elapsed := elapsed }]
    | none =>
      { cached := .ok after.2.1.bytes, elapsed := elapsed } ::
        rounds R after.1 after.2.1 (deadline - elapsed) rest

/-- The payload is the beginning of what is kept. -/
def Shows (r : CachedReader σ) (payload : Buffer) : Prop :=
  payload.bytes = (MultiBuffer.bytes r.cache).take payload.cap

theorem cap_keep (r : CachedReader σ) (payload : Buffer) (result : σ × Except ε MultiBuffer) :
    (r.keep payload result).2.1.cap = payload.cap := by
  rcases result with ⟨reader, err | mb⟩
  · rfl
  · rfl

/-- What is kept grows. -/
theorem isPrefix_keep (r : CachedReader σ) (payload : Buffer)
    (result : σ × Except ε MultiBuffer) :
    MultiBuffer.bytes r.cache <+: MultiBuffer.bytes (r.keep payload result).1.cache := by
  rcases result with ⟨reader, err | mb⟩
  · exact List.prefix_refl _
  · dsimp only [keep]
    split_ifs with hempty
    · exact List.prefix_refl _
    · rw [MultiBuffer.bytes_mergeMulti]
      exact List.prefix_append _ _

theorem shows_keep {r : CachedReader σ} {payload : Buffer} {result : σ × Except ε MultiBuffer}
    (hok : (r.keep payload result).2.2 = none) :
    (r.keep payload result).1.Shows (r.keep payload result).2.1 := by
  rw [Shows, bytes_keep hok, cap_keep, Nat.min_comm, ← List.take_eq_take_min]

/-- The rest of the rounds after a round that is not the last. -/
theorem rounds_cons_of_none {R : TimeoutReader σ ε} {r : CachedReader σ} {payload : Buffer}
    {deadline : ℤ} (hok : (r.cacheInto R payload deadline).2.2 = none) (elapsed : ℤ)
    (clock : List (Option ε × ℤ)) :
    r.rounds R payload deadline ((none, elapsed) :: clock) =
      { cached := .ok (r.cacheInto R payload deadline).2.1.bytes, elapsed := elapsed } ::
        (r.cacheInto R payload deadline).1.rounds R (r.cacheInto R payload deadline).2.1
          (deadline - elapsed) clock := by
  rw [rounds, hok]

theorem rounds_cons_of_some {R : TimeoutReader σ ε} {r : CachedReader σ} {payload : Buffer}
    {deadline : ℤ} {err : ε} (herr : (r.cacheInto R payload deadline).2.2 = some err) (elapsed : ℤ)
    (clock : List (Option ε × ℤ)) :
    r.rounds R payload deadline ((none, elapsed) :: clock) =
      [{ cached := .error err, elapsed := elapsed }] := by
  rw [rounds, herr]

/-- All later payloads extend the one that is shown. -/
theorem Shows.isPrefix_cached {R : TimeoutReader σ ε} {r : CachedReader σ} {payload : Buffer}
    (h : r.Shows payload) {deadline : ℤ} {clock : List (Option ε × ℤ)} :
    ∀ x ∈ r.rounds R payload deadline clock, ∀ p, x.cached = .ok p → payload.bytes <+: p := by
  induction clock generalizing r payload deadline with
  | nil => exact nofun
  | cons tick clock ih =>
    intro x hx p hp
    obtain ⟨_ | err, elapsed⟩ := tick
    · rcases hok : (r.cacheInto R payload deadline).2.2 with _ | err
      · have hshows : (r.cacheInto R payload deadline).1.Shows
          (r.cacheInto R payload deadline).2.1 := shows_keep hok
        have hgrows : payload.bytes <+: (r.cacheInto R payload deadline).2.1.bytes := by
          rw [h, hshows, cacheInto, cap_keep]
          exact (isPrefix_keep r payload _).take payload.cap
        rw [rounds_cons_of_none hok] at hx
        rcases List.mem_cons.mp hx with rfl | hx
        · obtain rfl := Except.ok.inj hp
          exact hgrows
        · exact hgrows.trans (ih hshows x hx p hp)
      · rw [rounds_cons_of_some hok] at hx
        obtain rfl := List.mem_singleton.mp hx
        cases hp
    · obtain rfl := List.mem_singleton.mp hx
      obtain rfl := Except.ok.inj hp
      exact List.prefix_refl _

/-- **The payloads of the loop grow.** Each one is a first part of the later ones. -/
theorem isPrefix_rounds (R : TimeoutReader σ ε) {r : CachedReader σ} {payload : Buffer}
    (deadline : ℤ) (clock : List (Option ε × ℤ)) :
    (r.rounds R payload deadline clock).Pairwise fun x y =>
      ∀ p q, x.cached = .ok p → y.cached = .ok q → p <+: q := by
  induction clock generalizing r payload deadline with
  | nil => exact .nil
  | cons tick clock ih =>
    obtain ⟨_ | err, elapsed⟩ := tick
    · rcases hok : (r.cacheInto R payload deadline).2.2 with _ | err
      · rw [rounds_cons_of_none hok]
        refine List.pairwise_cons.mpr ⟨fun y hy p q hp hq => ?_, ih _⟩
        obtain rfl := Except.ok.inj hp
        exact (shows_keep hok).isPrefix_cached y hy q hq
      · rw [rounds_cons_of_some hok]
        exact List.pairwise_singleton _ _
    · exact List.pairwise_singleton _ _

end CachedReader

end Tox.Dispatcher
