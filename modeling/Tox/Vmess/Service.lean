import Tox.Foundation.BigEndian
import Tox.Foundation.Cipher
import Tox.Foundation.GoMap
import Tox.Foundation.ReplayFilter
import Mathlib.Data.Finset.Order

/-!
# The users of a VMess server

A client names its user in the first sixteen bytes of a connection. There are two ways.

* An authentication id is a timestamp with a checksum, encrypted under the key of the user. The
  server tries the keys of all users, in the order of a map, and takes the first one that gives a
  valid checksum. The timestamp must be within two minutes of the clock, and a replay filter that
  remembers values for two minutes must accept the decrypted id.
* The legacy protocol sends a hash of a timestamp under an alternative id of the user. The server
  keeps a table of all hashes that it accepts, which it makes again every ten seconds
  (`generateLegacyKeys`).
-/

namespace Tox.Vmess

open Tox.Foundation

/-! ### Primitives -/

/-- The functions of the libraries that are used for users. -/
structure Primitives where
  /-- The UUID that a text denotes, or that is made from a text that denotes none. -/
  userUUID : String → List UInt8
  key : List UInt8 → List UInt8
  alterId : List UInt8 → List UInt8
  kdf : (key : List UInt8) → (salt : String) → (path : List (List UInt8)) → List UInt8
  aes : (key : List UInt8) → BlockCipher
  crc32 : List UInt8 → List UInt8
  hmacMd5 : (key message : List UInt8) → List UInt8
  length_crc32 : ∀ bytes, (crc32 bytes).length = 4

def cacheDurationSeconds : ℤ := 120

/-- The time in nanoseconds that the replay filter remembers a value. -/
def replayTimeout : ℤ := 120 * 10 ^ 9

def kdfSaltConstAuthIDEncryptionKey : String := "AES Auth ID Encryption"

/-- The lower 64 bits of a number. -/
def uint64 (n : ℤ) : ℕ := (n % 2 ^ 64).toNat

def int64 (n : ℕ) : ℤ := (BitVec.ofNat 64 n).toInt

/-- The seconds of a time in nanoseconds. -/
def unix (now : ℤ) : ℤ := now / 10 ^ 9

section

variable (prims : Primitives)

/-- The cipher for the authentication ids of a user. -/
def authCipher (key : List UInt8) : BlockCipher :=
  prims.aes ((prims.kdf key kdfSaltConstAuthIDEncryptionKey []).take 16)

/-- `AuthID`, with four random bytes. -/
def authID (key : List UInt8) (time : ℤ) (random : List UInt8) : List UInt8 :=
  let stamp := putUint 8 (uint64 time) ++ random
  (authCipher prims key).encrypt (stamp ++ prims.crc32 stamp)

/-- The hash of a timestamp under an alternative id. -/
def idHash (alterId : List UInt8) (ts : ℤ) : List UInt8 :=
  prims.hmacMd5 alterId (putUint 8 (uint64 ts))

/-- The alternative ids of a user, each of which is made from the one before. -/
def alterIdsFrom : ℕ → List UInt8 → List (List UInt8)
  | 0, _ => []
  | n + 1, currentId => prims.alterId currentId :: alterIdsFrom n (prims.alterId currentId)

end

/-! ### The service -/

/-- A user as the service is told of it. -/
structure Account (U : Type) where
  user : U
  userId : String
  alterId : ℤ

structure LegacyUserEntry (U : Type) where
  user : U
  time : ℤ
  index : ℕ
  deriving DecidableEq

/-- The state of a service, with the state `F` of its replay filter. -/
structure Service (U F : Type) where
  userKey : GoMap U (List UInt8)
  userIdCipher : GoMap U BlockCipher
  replayFilter : F
  alterIds : GoMap U (List (List UInt8))
  alterIdUpdateTime : GoMap U ℤ
  alterIdMap : GoMap (List UInt8) (LegacyUserEntry U)

inductive ServiceError where
  | badTimestamp
  | replay
  | badRequest
  deriving DecidableEq, Repr

/-- How a client has named its user. -/
inductive Authenticated (U : Type) where
  | authId (user : U) (decodedId : List UInt8)
  | legacy (user : U) (time : ℤ)
  deriving DecidableEq

variable {U F : Type} [DecidableEq U] (prims : Primitives)

def Account.key (account : Account U) : List UInt8 :=
  prims.key (prims.userUUID account.userId)

/-- The alternative ids of an account. -/
def Account.alterIds (account : Account U) : List (List UInt8) :=
  alterIdsFrom prims account.alterId.toNat (prims.userUUID account.userId)

/-- The timestamps of the loop from `beginSec` to `endSec`. -/
def timestamps (beginSec endSec : ℤ) : List ℤ :=
  (List.range (endSec + 1 - beginSec).toNat).map fun (i : ℕ) => beginSec + i

/-- The entries of a user in the table of hashes, in the order in which they are stored. -/
def legacyEntries (beginSec endSec : ℤ) (user : U) (alterIds : List (List UInt8)) :
    List (List UInt8 × LegacyUserEntry U) :=
  alterIds.zipIdx.flatMap fun alterId =>
    (timestamps beginSec endSec).map fun ts => (idHash prims alterId.1 ts, ⟨user, ts, alterId.2⟩)

/-- The timestamp at which the table begins for a user who was updated at the given time. -/
def beginSec (updateTime nowSec : ℤ) : ℤ :=
  if updateTime < nowSec - cacheDurationSeconds then nowSec - cacheDurationSeconds else updateTime

def timestamp (decodedId : List UInt8) : ℤ := int64 (beUint (decodedId.take 8))

def ChecksumValid (decodedId : List UInt8) : Prop :=
  prims.crc32 (decodedId.take 12) = decodedId.drop 12

instance (decodedId : List UInt8) : Decidable (ChecksumValid prims decodedId) :=
  inferInstanceAs (Decidable (_ = _))

/-- The timestamp, whatever its sign, is within two minutes of the clock. -/
def InTime (nowSec : ℤ) (decodedId : List UInt8) : Prop :=
  ((timestamp decodedId).natAbs - nowSec).natAbs ≤ 120

instance (nowSec : ℤ) (decodedId : List UInt8) : Decidable (InTime nowSec decodedId) :=
  inferInstanceAs (Decidable (_ ≤ _))

namespace Service

def generateLegacyKeys (range : RangeOrder U) (nowSec : ℤ) (s : Service U F) : Service U F :=
  let users := range.keys s.alterIds
  { s with
    alterIdUpdateTime := GoMap.storeAll id (fun _ => nowSec) users ∅
    alterIdMap := GoMap.storeAll Prod.fst Prod.snd
      (users.flatMap fun user =>
        legacyEntries prims (beginSec (s.alterIdUpdateTime.getD user 0) nowSec)
          (nowSec + cacheDurationSeconds) user (s.alterIds.getD user [])) ∅ }

def updateUsers (range : RangeOrder U) (nowSec : ℤ) (accounts : List (Account U))
    (s : Service U F) : Service U F :=
  generateLegacyKeys prims range nowSec
    { s with
      userKey := GoMap.storeAll Account.user (Account.key prims) accounts ∅
      userIdCipher := GoMap.storeAll Account.user (fun a => authCipher prims (a.key prims))
        accounts ∅
      alterIds := GoMap.storeAll Account.user (Account.alterIds prims)
        (accounts.filter fun a => 0 < a.alterId) ∅
      alterIdUpdateTime := ∅ }

variable (filter : ReplayFilter F (List UInt8) replayTimeout)

/-- The loop over the users. The first user whose key gives a valid checksum decides. -/
def findUser (now : ℤ) (authId : List UInt8) (f : F) :
    List (U × BlockCipher) → Except ServiceError (Option (U × List UInt8)) × F
  | [] => (.ok none, f)
  | (user, userIdBlock) :: users =>
    let decodedId := userIdBlock.decrypt authId
    if ¬ ChecksumValid prims decodedId then findUser now authId f users
    else if ¬ InTime (unix now) decodedId then (.error .badTimestamp, f)
    else
      let (fresh, f) := filter.check f now decodedId
      if fresh then (.ok (some (user, decodedId)), f) else (.error .replay, f)

/-- The users with their ciphers, in the order of a visit. -/
def usersInOrder (range : RangeOrder U) (s : Service U F) : List (U × BlockCipher) :=
  (range.keys s.userIdCipher).filterMap fun user =>
    (s.userIdCipher.lookup user).map fun userIdBlock => (user, userIdBlock)

/-- The user of a connection. The table of hashes is used if the loop has found none. -/
def resolveUser (authId : List UInt8) (s : Service U F) :
    Except ServiceError (Option (U × List UInt8)) → Except ServiceError (Authenticated U)
  | .error e => .error e
  | .ok (some (user, decodedId)) => .ok (.authId user decodedId)
  | .ok none =>
    match s.alterIdMap.lookup authId with
    | some entry => .ok (.legacy entry.user entry.time)
    | none => .error .badRequest

/-- The part of `NewConnection` that finds the user of a connection by its first sixteen bytes. -/
def authenticate (range : RangeOrder U) (now : ℤ) (authId : List UInt8) (s : Service U F) :
    Except ServiceError (Authenticated U) × Service U F :=
  let (found, f) := findUser prims filter now authId s.replayFilter (s.usersInOrder range)
  (s.resolveUser authId found, { s with replayFilter := f })

end Service

/-! ### Runs -/

/-- What happens to a service. A connection is given by the time and by its first sixteen bytes. The
orders are those in which the loops visit the users. -/
inductive ServiceEvent (U : Type) where
  | updateUsers (range : RangeOrder U) (nowSec : ℤ) (accounts : List (Account U))
  | generateLegacyKeys (range : RangeOrder U) (nowSec : ℤ)
  | connection (range : RangeOrder U) (now : ℤ) (authId : List UInt8)

namespace ServiceEvent

/-- The time of a connection. -/
def connectionTime : ServiceEvent U → Option ℤ
  | connection _ now _ => some now
  | _ => none

/-- The time of a call that makes the table of hashes again for the same users. -/
def refreshTime : ServiceEvent U → Option ℤ
  | generateLegacyKeys _ nowSec => some nowSec
  | _ => none

def isUpdate : ServiceEvent U → Bool
  | updateUsers .. => true
  | _ => false

end ServiceEvent

/-- A service with the authentication ids that it has accepted, and when. -/
structure ServiceRun (U F : Type) where
  service : Service U F
  accepted : List (ℤ × List UInt8)

namespace ServiceRun

variable (filter : ReplayFilter F (List UInt8) replayTimeout)

def acceptedId (now : ℤ) : Except ServiceError (Authenticated U) → List (ℤ × List UInt8)
  | .ok (.authId _ decodedId) => [(now, decodedId)]
  | _ => []

def step (r : ServiceRun U F) : ServiceEvent U → ServiceRun U F
  | .updateUsers range nowSec accounts =>
    { r with service := r.service.updateUsers prims range nowSec accounts }
  | .generateLegacyKeys range nowSec =>
    { r with service := r.service.generateLegacyKeys prims range nowSec }
  | .connection range now authId =>
    let (outcome, service) := r.service.authenticate prims filter range now authId
    ⟨service, r.accepted ++ acceptedId now outcome⟩

def run (r : ServiceRun U F) (events : List (ServiceEvent U)) : ServiceRun U F :=
  events.foldl (step prims filter) r

end ServiceRun

/-! ### Authentication ids -/

namespace Service

variable (filter : ReplayFilter F (List UInt8) replayTimeout)

omit [DecidableEq U] in
/-- The loop asks the filter at most once, for an id in time, and does what the filter says. -/
theorem findUser_spec (now : ℤ) (authId : List UInt8) (f : F) (users : List (U × BlockCipher)) :
    ((findUser prims filter now authId f users).2 = f ∧
      ∀ x, (findUser prims filter now authId f users).1 ≠ .ok (some x)) ∨
    ∃ decodedId, InTime (unix now) decodedId ∧
      (findUser prims filter now authId f users).2 = (filter.check f now decodedId).2 ∧
      ∀ x, (findUser prims filter now authId f users).1 = .ok (some x) →
        x.2 = decodedId ∧ (filter.check f now decodedId).1 = true := by
  induction users with
  | nil => exact .inl ⟨rfl, fun x h => by cases h⟩
  | cons user users ih =>
    rw [findUser]
    by_cases hvalid : ChecksumValid prims (user.2.decrypt authId)
    · rw [if_neg (not_not_intro hvalid)]
      by_cases htime : InTime (unix now) (user.2.decrypt authId)
      · rw [if_neg (not_not_intro htime)]
        refine .inr ⟨_, htime, ?_⟩
        dsimp only
        by_cases hfresh : (filter.check f now (user.2.decrypt authId)).1 = true
        · rw [if_pos hfresh]
          refine ⟨rfl, ?_⟩
          rintro x ⟨⟩
          exact ⟨rfl, hfresh⟩
        · rw [if_neg hfresh]
          exact ⟨rfl, fun x h => by cases h⟩
      · rw [if_pos htime]
        exact .inl ⟨rfl, fun x h => by cases h⟩
    · rw [if_pos hvalid]
      exact ih

omit [DecidableEq U] in
/-- The id that a connection is accepted with is the one that the loop has found. -/
theorem acceptedId_resolveUser (now : ℤ) (authId : List UInt8) (s : Service U F)
    (found : Except ServiceError (Option (U × List UInt8))) :
    ServiceRun.acceptedId now (s.resolveUser authId found) = [] ∨
      ∃ x, found = .ok (some x) ∧
        ServiceRun.acceptedId now (s.resolveUser authId found) = [(now, x.2)] := by
  rcases found with _ | _ | x
  · exact .inl rfl
  · rw [resolveUser]
    cases s.alterIdMap.lookup authId <;> exact .inl rfl
  · exact .inr ⟨x, rfl, rfl⟩

end Service

namespace ServiceRun

variable {prims} {filter : ReplayFilter F (List UInt8) replayTimeout}

/-- What holds of the accepted ids at the time `now`. -/
structure Sound (filter : ReplayFilter F (List UInt8) replayTimeout) (r : ServiceRun U F)
    (now : ℤ) : Prop where
  recent : filter.Recent r.service.replayFilter now r.accepted
  inTime : ∀ call ∈ r.accepted, InTime (unix call.1) call.2

namespace Sound

variable {r : ServiceRun U F} {now : ℤ}

omit [DecidableEq U] in
theorem later (h : Sound filter r now) {now' : ℤ} (hnow : now ≤ now') : Sound filter r now' :=
  ⟨h.recent.later hnow, h.inTime⟩

theorem connection (h : Sound filter r now) (range : RangeOrder U) (authId : List UInt8) :
    Sound filter (r.step prims filter (.connection range now authId)) now := by
  have hspec := Service.findUser_spec prims filter now authId r.service.replayFilter
    (r.service.usersInOrder range)
  have hfilter : (r.step prims filter (.connection range now authId)).service.replayFilter =
    (Service.findUser prims filter now authId r.service.replayFilter
      (r.service.usersInOrder range)).2 := rfl
  obtain hnone | ⟨x, hfound, hone⟩ := r.service.acceptedId_resolveUser now authId
    (Service.findUser prims filter now authId r.service.replayFilter
      (r.service.usersInOrder range)).1
  · -- Nothing is accepted, and the filter has been asked at most once.
    have haccepted : (r.step prims filter (.connection range now authId)).accepted =
        r.accepted := by
      change r.accepted ++ acceptedId now _ = _
      rw [hnone, List.append_nil]
    refine ⟨?_, haccepted.symm ▸ h.inTime⟩
    rw [haccepted, hfilter]
    rcases hspec with ⟨hsame, -⟩ | ⟨decodedId, -, hcheck, -⟩
    · rw [hsame]
      exact h.recent
    · rw [hcheck]
      exact h.recent.check decodedId
  · rcases hspec with ⟨-, hno⟩ | ⟨decodedId, htime, hcheck, hyes⟩
    · exact absurd hfound (hno x)
    · obtain ⟨hid, hfresh⟩ := hyes x hfound
      have haccepted : (r.step prims filter (.connection range now authId)).accepted =
          r.accepted ++ [(now, decodedId)] := by
        change r.accepted ++ acceptedId now _ = _
        rw [hone, hid]
      refine ⟨?_, ?_⟩
      · rw [haccepted, hfilter, hcheck]
        exact h.recent.accept hfresh
      · rw [haccepted]
        exact List.forall_mem_append.mpr ⟨h.inTime, List.forall_mem_singleton.mpr htime⟩

end Sound

/-- The invariant along a run in which the clock does not go back. -/
theorem sound_run (s : Service U F) {events : List (ServiceEvent U)}
    (hclock : (events.filterMap ServiceEvent.connectionTime).Pairwise (· ≤ ·)) {now : ℤ}
    (hnow : ∀ t ∈ events.filterMap ServiceEvent.connectionTime, t ≤ now) :
    Sound filter (run prims filter ⟨s, []⟩ events) now := by
  induction events using List.reverseRecOn generalizing now with
  | nil => exact ⟨ReplayFilter.Recent.nil _ _, List.forall_mem_nil _⟩
  | append_singleton events e ih =>
    rw [run, List.foldl_append]
    rw [List.filterMap_append] at hclock hnow
    obtain ⟨hclock', -, hbefore⟩ := List.pairwise_append.mp hclock
    obtain ⟨hnow', hlast⟩ := List.forall_mem_append.mp hnow
    cases e with
    | updateUsers range nowSec accounts =>
      exact ⟨(ih hclock' hnow').recent, (ih hclock' hnow').inTime⟩
    | generateLegacyKeys range nowSec =>
      exact ⟨(ih hclock' hnow').recent, (ih hclock' hnow').inTime⟩
    | connection range t authId =>
      have hsound : Sound filter (run prims filter ⟨s, []⟩ events) t :=
        ih hclock' fun t' ht' => hbefore t' ht' t (List.mem_singleton.mpr rfl)
      exact (hsound.connection range authId).later (hlast t (List.mem_singleton.mpr rfl))

/-- **Replayed ids.** In every run in which the clock does not go back, an id that has been accepted
is accepted again only after more than two minutes, and only if its timestamp was not behind the
clock the first time. -/
theorem pairwise_accepted (s : Service U F) {events : List (ServiceEvent U)}
    (hclock : (events.filterMap ServiceEvent.connectionTime).Pairwise (· ≤ ·)) :
    (run prims filter ⟨s, []⟩ events).accepted.Pairwise fun x y => x.2 = y.2 →
      x.1 + replayTimeout < y.1 ∧ unix x.1 ≤ (timestamp x.2).natAbs := by
  obtain ⟨now, hnow⟩ := (events.filterMap ServiceEvent.connectionTime).toFinset.exists_le
  have hsound : Sound filter (run prims filter ⟨s, []⟩ events) now :=
    sound_run s hclock fun t ht => hnow t (List.mem_toFinset.mpr ht)
  refine hsound.recent.apart.imp_of_mem fun {x y} _ hy hapart heq => ?_
  have hlate := hapart heq
  refine ⟨hlate, ?_⟩
  have htime := hsound.inTime y hy
  rw [InTime, ← heq] at htime
  rw [replayTimeout] at hlate
  rw [unix] at htime ⊢
  omega

end ServiceRun

/-! ### Finding a user -/

/-- The id that a client encrypts. -/
def decodedID (time : ℤ) (random : List UInt8) : List UInt8 :=
  putUint 8 (uint64 time) ++ random ++ prims.crc32 (putUint 8 (uint64 time) ++ random)

section DecodedID

variable {prims} {time : ℤ} {random : List UInt8} (hrandom : random.length = 4)

include hrandom

theorem decrypt_authID (key : List UInt8) :
    (authCipher prims key).decrypt (authID prims key time random) = decodedID prims time random :=
  BlockCipher.decrypt_encrypt _ _ (by simp [hrandom, prims.length_crc32])

theorem checksumValid_decodedID : ChecksumValid prims (decodedID prims time random) := by
  have hlength : (putUint 8 (uint64 time) ++ random).length = 12 := by simp [hrandom]
  rw [ChecksumValid, decodedID, List.take_left' hlength, List.drop_left' hlength]

omit hrandom in
theorem timestamp_decodedID (hfirst : -2 ^ 63 ≤ time) (hlast : time < 2 ^ 63) :
    timestamp (decodedID prims time random) = time := by
  have htake : (decodedID prims time random).take 8 = putUint 8 (uint64 time) := by
    rw [decodedID, List.append_assoc, List.take_left' (length_putUint 8 _)]
  have hnumber : beUint (putUint 8 (uint64 time)) = uint64 time := by
    rw [beUint_putUint]
    refine Nat.mod_eq_of_lt ?_
    rw [uint64]
    omega
  rw [timestamp, htake, hnumber, int64, BitVec.toInt_ofNat', uint64, Int.bmod]
  omega

end DecodedID

namespace Service

variable {prims} {filter : ReplayFilter F (List UInt8) replayTimeout}

omit [DecidableEq U] in
/-- The user is found in every order if no other key gives a valid checksum. -/
theorem findUser_of_unique {now : ℤ} {authId : List UInt8} {f : F} {user : U}
    {userIdBlock : BlockCipher} {users : List (U × BlockCipher)}
    (hmem : (user, userIdBlock) ∈ users)
    (hunique : ∀ x ∈ users, ChecksumValid prims (x.2.decrypt authId) → x = (user, userIdBlock))
    (hvalid : ChecksumValid prims (userIdBlock.decrypt authId))
    (htime : InTime (unix now) (userIdBlock.decrypt authId)) :
    findUser prims filter now authId f users =
      (if (filter.check f now (userIdBlock.decrypt authId)).1 then
        .ok (some (user, userIdBlock.decrypt authId)) else .error .replay,
        (filter.check f now (userIdBlock.decrypt authId)).2) := by
  induction users with
  | nil => cases hmem
  | cons first users ih =>
    obtain ⟨hfirst, hrest⟩ := List.forall_mem_cons.mp hunique
    rw [findUser]
    by_cases hvalid' : ChecksumValid prims (first.2.decrypt authId)
    · rw [hfirst hvalid', if_neg (not_not_intro hvalid), if_neg (not_not_intro htime)]
      dsimp only
      split_ifs <;> rfl
    · rw [if_pos hvalid']
      refine ih ((List.mem_cons.mp hmem).resolve_left ?_) hrest
      rintro rfl
      exact hvalid' hvalid

theorem mem_usersInOrder {range : RangeOrder U} {s : Service U F} {x : U × BlockCipher} :
    x ∈ s.usersInOrder range ↔ s.userIdCipher.lookup x.1 = some x.2 := by
  rw [usersInOrder, List.mem_filterMap]
  constructor
  · rintro ⟨user, -, hmap⟩
    obtain ⟨userIdBlock, hlookup, rfl⟩ := Option.map_eq_some_iff.mp hmap
    exact hlookup
  · intro hlookup
    refine ⟨x.1, (range.mem_keys _ _).mpr ?_, by rw [hlookup]; rfl⟩
    exact Finmap.lookup_isSome.mp (Option.isSome_of_eq_some hlookup)

theorem authenticate_authID {s : Service U F} {user : U} {key : List UInt8}
    (hcipher : s.userIdCipher.lookup user = some (authCipher prims key)) {time : ℤ}
    {random : List UInt8} (hrandom : random.length = 4) (hfirst : -2 ^ 63 ≤ time)
    (hlast : time < 2 ^ 63)
    (hunique : ∀ user' userIdBlock, s.userIdCipher.lookup user' = some userIdBlock →
      ChecksumValid prims (userIdBlock.decrypt (authID prims key time random)) → user' = user)
    (range : RangeOrder U) {now : ℤ} (hnow : ((time.natAbs : ℤ) - unix now).natAbs ≤ 120) :
    s.authenticate prims filter range now (authID prims key time random) =
      (if (filter.check s.replayFilter now (decodedID prims time random)).1 then
          .ok (.authId user (decodedID prims time random)) else .error .replay,
        { s with replayFilter :=
          (filter.check s.replayFilter now (decodedID prims time random)).2 }) := by
  have hdecrypt : (authCipher prims key).decrypt (authID prims key time random) =
    decodedID prims time random := decrypt_authID hrandom key
  have hvalid : ChecksumValid prims (decodedID prims time random) := checksumValid_decodedID hrandom
  have htime : InTime (unix now) (decodedID prims time random) := by
    rw [InTime, timestamp_decodedID hfirst hlast]
    exact hnow
  have hmem : (user, authCipher prims key) ∈ s.usersInOrder range := mem_usersInOrder.mpr hcipher
  have hunique' : ∀ x ∈ s.usersInOrder range,
      ChecksumValid prims (x.2.decrypt (authID prims key time random)) →
        x = (user, authCipher prims key) := by
    intro x hx hvalid'
    have hlookup := mem_usersInOrder.mp hx
    have huser := hunique x.1 x.2 hlookup hvalid'
    rw [huser, hcipher] at hlookup
    exact Prod.ext huser (Option.some.inj hlookup).symm
  rw [← hdecrypt] at hvalid htime
  rw [authenticate, findUser_of_unique hmem hunique' hvalid htime, hdecrypt]
  dsimp only
  split_ifs <;> rfl

end Service

namespace ServiceRun

variable {prims} {filter : ReplayFilter F (List UInt8) replayTimeout}

/-- The users stay the same until they are set again. -/
theorem users_run (r : ServiceRun U F) {events : List (ServiceEvent U)}
    (hevents : ∀ e ∈ events, e.isUpdate = false) :
    (run prims filter r events).service.userIdCipher = r.service.userIdCipher := by
  induction events generalizing r with
  | nil => rfl
  | cons e events ih =>
    obtain ⟨he, hrest⟩ := List.forall_mem_cons.mp hevents
    refine (ih (r.step prims filter e) hrest).trans ?_
    cases e with
    | updateUsers range nowSec accounts => cases he
    | generateLegacyKeys range nowSec => rfl
    | connection range now authId => rfl

/-- **Finding a user.** After users have been set, whatever happens but another such call, a client
with the key of an account is found in every order of the users, if its timestamp is within two
minutes of the clock and the key of no other account gives a valid checksum; only the replay filter
can refuse it. -/
theorem authenticate_run (r : ServiceRun U F) (before : List (ServiceEvent U))
    (range : RangeOrder U) (start : ℤ) {accounts : List (Account U)}
    (haccounts : (accounts.map Account.user).Nodup) {after : List (ServiceEvent U)}
    (hafter : ∀ e ∈ after, e.isUpdate = false) {account : Account U} (haccount : account ∈ accounts)
    {time : ℤ} (hfirst : -2 ^ 63 ≤ time) (hlast : time < 2 ^ 63) {random : List UInt8}
    (hrandom : random.length = 4)
    (hunique : ∀ other ∈ accounts, ChecksumValid prims ((authCipher prims (other.key prims)).decrypt
      (authID prims (account.key prims) time random)) → other = account)
    (range' : RangeOrder U) {now : ℤ} (hnow : ((time.natAbs : ℤ) - unix now).natAbs ≤ 120) :
    ((run prims filter r (before ++ .updateUsers range start accounts :: after)
        ).service.authenticate prims filter range' now
          (authID prims (account.key prims) time random)).1 =
      if (filter.check (run prims filter r (before ++ .updateUsers range start accounts :: after)
          ).service.replayFilter now (decodedID prims time random)).1 then
        .ok (.authId account.user (decodedID prims time random))
      else .error .replay := by
  have husers : (run prims filter r
      (before ++ .updateUsers range start accounts :: after)).service.userIdCipher =
        GoMap.storeAll Account.user (fun a => authCipher prims (a.key prims)) accounts ∅ := by
    rw [run, List.foldl_append, List.foldl_cons]
    exact users_run _ hafter
  have hlookup : (run prims filter r (before ++ .updateUsers range start accounts :: after)
      ).service.userIdCipher.lookup account.user = some (authCipher prims (account.key prims)) := by
    rw [husers]
    exact GoMap.lookup_storeAll_of_nodup Account.user _ haccounts haccount ∅
  refine congrArg Prod.fst (Service.authenticate_authID hlookup hrandom hfirst hlast ?_ range' hnow)
  intro user userIdBlock hother hvalid
  rw [husers] at hother
  obtain ⟨other, hmem, rfl, rfl⟩ := GoMap.exists_mem_of_lookup_storeAll _ _ hother
  rw [hunique other hmem hvalid]

end ServiceRun

/-- Every byte is shifted by the sum of the key. The checksum is made of the sum, the parities and
the number of the bytes and of the first one. -/
def shiftPrimitives : Primitives where
  userUUID text := text.toList.map fun c => UInt8.ofNat c.toNat
  key uuid := uuid
  alterId id := 0 :: id
  kdf key _ _ := key
  aes key :=
    { encrypt := List.map (· + key.foldl (· + ·) 0)
      decrypt := List.map (· - key.foldl (· + ·) 0)
      decrypt_encrypt := fun block _ => by simp [Function.comp_def] }
  crc32 bytes :=
    [bytes.foldl (· + ·) 0, bytes.foldl (· ^^^ ·) 0, UInt8.ofNat bytes.length, bytes.headD 0]
  hmacMd5 key message := key ++ message
  length_crc32 _ := rfl

/-- Two users without alternative ids. -/
def twoAccounts : List (Account ℕ) := [⟨0, "a", 0⟩, ⟨1, "b", 0⟩]

/-- The authentication id of the first one 100 seconds after the epoch. -/
def firstID : List UInt8 := authID shiftPrimitives [0x61] 100 [7, 7, 7, 7]

theorem twoAccounts_authenticate :
    ((ServiceRun.run shiftPrimitives .timed ⟨⟨∅, ∅, [], ∅, ∅, ∅⟩, []⟩
      ([] ++ .updateUsers .ascending 0 twoAccounts :: [])).service.authenticate shiftPrimitives
        .timed .ascending 0 firstID).1 =
      .ok (.authId 0 (decodedID shiftPrimitives 100 [7, 7, 7, 7])) := by
  have haccounts : (twoAccounts.map Account.user).Nodup := by decide
  have hunique : ∀ other ∈ twoAccounts, ChecksumValid shiftPrimitives
      ((authCipher shiftPrimitives (other.key shiftPrimitives)).decrypt firstID) →
        other = ⟨0, "a", 0⟩ := by
    refine List.forall_mem_cons.mpr ⟨fun _ => rfl, List.forall_mem_singleton.mpr fun hvalid => ?_⟩
    exact absurd hvalid (by decide +kernel)
  exact ServiceRun.authenticate_run _ [] .ascending 0 haccounts (List.forall_mem_nil _)
    List.mem_cons_self (by decide) (by decide) rfl hunique .ascending (by decide)

/-- A client whose clock is 100 seconds ahead, and the same bytes once more after 121 seconds. -/
def replayed : List (ServiceEvent ℕ) :=
  [.updateUsers .ascending 0 twoAccounts, .connection .ascending 0 firstID,
    .connection .ascending (121 * 10 ^ 9) firstID]

theorem replayed_accepted :
    (ServiceRun.run shiftPrimitives .timed ⟨⟨∅, ∅, [], ∅, ∅, ∅⟩, []⟩ replayed).accepted.length = 2 ∧
      (ServiceRun.run shiftPrimitives .timed ⟨⟨∅, ∅, [], ∅, ∅, ∅⟩, []⟩ replayed).accepted.Pairwise
        fun x y => x.2 = y.2 →
          x.1 + replayTimeout < y.1 ∧ unix x.1 ≤ (timestamp x.2).natAbs :=
  ⟨by decide +kernel, ServiceRun.pairwise_accepted _ (by decide)⟩

/-! ### The table of hashes -/

theorem mem_timestamps {first last t : ℤ} : t ∈ timestamps first last ↔ first ≤ t ∧ t ≤ last := by
  rw [timestamps, List.mem_map]
  constructor
  · rintro ⟨i, hi, rfl⟩
    have := List.mem_range.mp hi
    omega
  · rintro ⟨hfirst, hlast⟩
    exact ⟨(t - first).toNat, List.mem_range.mpr (by omega), by omega⟩

theorem beginSec_eq_max (updateTime nowSec : ℤ) :
    beginSec updateTime nowSec = max updateTime (nowSec - 120) := by
  rw [beginSec, cacheDurationSeconds]
  split_ifs with h
  · exact (max_eq_right h.le).symm
  · exact (max_eq_left (Int.not_lt.mp h)).symm

/-- The timestamps that are in a table made at `nowSec` if the one before was made at `previous`. -/
def InTable (previous nowSec t : ℤ) : Prop :=
  max previous (nowSec - 120) ≤ t ∧ t ≤ nowSec + 120

instance (previous nowSec t : ℤ) : Decidable (InTable previous nowSec t) :=
  inferInstanceAs (Decidable (_ ∧ _))

omit [DecidableEq U] in
theorem mem_legacyEntries {previous nowSec : ℤ} {user : U} {alterIds : List (List UInt8)}
    {x : List UInt8 × LegacyUserEntry U} :
    x ∈ legacyEntries prims (beginSec previous nowSec) (nowSec + cacheDurationSeconds) user
        alterIds ↔
      x.2.user = user ∧ InTable previous nowSec x.2.time ∧
        ∃ id, alterIds[x.2.index]? = some id ∧ x.1 = idHash prims id x.2.time := by
  rw [legacyEntries, List.mem_flatMap]
  simp only [List.mem_map, mem_timestamps, beginSec_eq_max]
  constructor
  · rintro ⟨alterId, halter, t, ht, rfl⟩
    exact ⟨rfl, ht, alterId.1, List.mem_zipIdx_iff_getElem?.mp halter, rfl⟩
  · rintro ⟨rfl, ht, id, hid, hhash⟩
    exact ⟨(id, x.2.index), List.mem_zipIdx_iff_getElem?.mpr hid, x.2.time, ht,
      Prod.ext hhash.symm rfl⟩

namespace Service

/-- The table has been made at `nowSec`, and before at `previous`. -/
structure TableMade (prims : Primitives) (s : Service U F) (previous nowSec : ℤ) : Prop where
  updated : ∀ user ∈ s.alterIds, s.alterIdUpdateTime.getD user 0 = nowSec
  sound : ∀ hash entry, s.alterIdMap.lookup hash = some entry →
    ∃ alterIds, s.alterIds.lookup entry.user = some alterIds ∧
      ∃ id, alterIds[entry.index]? = some id ∧ hash = idHash prims id entry.time ∧
        InTable previous nowSec entry.time
  complete : ∀ user alterIds, s.alterIds.lookup user = some alterIds → ∀ id ∈ alterIds,
    ∀ t, InTable previous nowSec t → (s.alterIdMap.lookup (idHash prims id t)).isSome

theorem tableMade_generateLegacyKeys (range : RangeOrder U) {previous : ℤ} (nowSec : ℤ)
    {s : Service U F} (h : ∀ user ∈ s.alterIds, s.alterIdUpdateTime.getD user 0 = previous) :
    TableMade prims (s.generateLegacyKeys prims range nowSec) previous nowSec where
  updated := by
    intro user huser
    obtain ⟨user', -, hsame, hlookup⟩ := GoMap.exists_lookup_storeAll id (fun _ => nowSec)
      ((range.mem_keys s.alterIds user).mpr huser) ∅
    exact congrArg (Option.getD · 0) hlookup
  sound := by
    intro hash entry hlookup
    obtain ⟨x, hx, rfl, rfl⟩ := GoMap.exists_mem_of_lookup_storeAll _ _ hlookup
    obtain ⟨user, huser, hx⟩ := List.mem_flatMap.mp hx
    have hmem := (range.mem_keys s.alterIds user).mp huser
    rw [h user hmem, mem_legacyEntries] at hx
    obtain ⟨hsame, htable, id, hid, hhash⟩ := hx
    obtain ⟨alterIds, hids⟩ := Option.isSome_iff_exists.mp (Finmap.lookup_isSome.mpr hmem)
    rw [GoMap.getD, hids] at hid
    exact ⟨alterIds, hsame ▸ hids, id, hid, hhash, htable⟩
  complete := by
    intro user alterIds hids id hid t ht
    have hids' : s.alterIds.lookup user = some alterIds := hids
    have hmem : user ∈ s.alterIds := Finmap.lookup_isSome.mp (Option.isSome_of_eq_some hids')
    obtain ⟨i, hi⟩ := List.getElem?_of_mem hid
    have hentry : (idHash prims id t, (⟨user, t, i⟩ : LegacyUserEntry U)) ∈
        (range.keys s.alterIds).flatMap fun user =>
          legacyEntries prims (beginSec (s.alterIdUpdateTime.getD user 0) nowSec)
            (nowSec + cacheDurationSeconds) user (s.alterIds.getD user []) := by
      refine List.mem_flatMap.mpr ⟨user, (range.mem_keys s.alterIds user).mpr hmem, ?_⟩
      rw [h user hmem, mem_legacyEntries, GoMap.getD, hids']
      exact ⟨rfl, ht, id, hi, rfl⟩
    obtain ⟨y, -, -, hlookup⟩ := GoMap.exists_lookup_storeAll Prod.fst Prod.snd hentry ∅
    exact Option.isSome_of_eq_some hlookup

/-- The table when the users have just been set. -/
theorem tableMade_updateUsers (range : RangeOrder U) (start : ℤ) (accounts : List (Account U))
    (s : Service U F) : (s.updateUsers prims range start accounts).TableMade prims 0 start :=
  tableMade_generateLegacyKeys prims range start fun _ _ =>
    GoMap.getD_of_notMem Finmap.notMem_empty 0

theorem lookup_alterIds_updateUsers (range : RangeOrder U) (start : ℤ) {accounts : List (Account U)}
    (haccounts : (accounts.map Account.user).Nodup) (s : Service U F) {account : Account U}
    (haccount : account ∈ accounts) (hpos : 0 < account.alterId) :
    (s.updateUsers prims range start accounts).alterIds.lookup account.user =
      some (account.alterIds prims) := by
  have hmem : account ∈ accounts.filter fun a => 0 < a.alterId :=
    List.mem_filter.mpr ⟨haccount, decide_eq_true hpos⟩
  exact GoMap.lookup_storeAll_of_nodup Account.user _
    ((List.filter_sublist.map Account.user).nodup haccounts) hmem ∅

end Service

namespace ServiceRun

variable {prims} {filter : ReplayFilter F (List UInt8) replayTimeout}

/-- The table along a run in which the users stay the same. -/
theorem tableMade_run {r : ServiceRun U F} {events : List (ServiceEvent U)}
    (hevents : ∀ e ∈ events, e.isUpdate = false) {previous nowSec : ℤ}
    (h : r.service.TableMade prims previous nowSec) {times : List ℤ} {previous' nowSec' : ℤ}
    (htimes : previous :: nowSec :: events.filterMap ServiceEvent.refreshTime =
      times ++ [previous', nowSec']) :
    (run prims filter r events).service.TableMade prims previous' nowSec' ∧
      (run prims filter r events).service.alterIds = r.service.alterIds := by
  induction events generalizing r previous nowSec times with
  | nil =>
    cases times with
    | nil =>
      cases htimes
      exact ⟨h, rfl⟩
    | cons first times =>
      have hlength := congrArg List.length htimes
      simp at hlength
  | cons e events ih =>
    obtain ⟨he, hrest⟩ := List.forall_mem_cons.mp hevents
    cases e with
    | updateUsers range nowSec accounts => cases he
    | generateLegacyKeys range t =>
      have hmade := Service.tableMade_generateLegacyKeys prims range t h.updated
      cases times with
      | nil => cases htimes
      | cons first times => exact ih hrest hmade (List.cons.inj htimes).2
    | connection range now authId => exact ih hrest ⟨h.updated, h.sound, h.complete⟩ htimes

/-- **The table of hashes.** After users have been set at the time `start`, whatever happens but
another such call, the table of hashes holds the hashes of the alternative ids of the users for the
timestamps up to two minutes after the last time that it was made, `nowSec`, and back to the time
that it was made before that, `previous`, or to two minutes before `nowSec` if that is later. When
it has been made only once, it was made before at the time 0. -/
theorem lookup_alterIdMap_run (r : ServiceRun U F) (before : List (ServiceEvent U))
    (range : RangeOrder U) (start : ℤ) {accounts : List (Account U)}
    (haccounts : (accounts.map Account.user).Nodup) {after : List (ServiceEvent U)}
    (hafter : ∀ e ∈ after, e.isUpdate = false) {times : List ℤ} {previous nowSec : ℤ}
    (htimes : 0 :: start :: after.filterMap ServiceEvent.refreshTime =
      times ++ [previous, nowSec]) :
    (∀ hash entry, (run prims filter r (before ++ .updateUsers range start accounts :: after)
          ).service.alterIdMap.lookup hash = some entry →
        ∃ account ∈ accounts, account.user = entry.user ∧
          ∃ id, (account.alterIds prims)[entry.index]? = some id ∧
            hash = idHash prims id entry.time ∧ InTable previous nowSec entry.time) ∧
      ∀ account ∈ accounts, ∀ id ∈ account.alterIds prims, ∀ t, InTable previous nowSec t →
        ((run prims filter r (before ++ .updateUsers range start accounts :: after)
          ).service.alterIdMap.lookup (idHash prims id t)).isSome := by
  have hmade := (run prims filter r before).service.tableMade_updateUsers prims range start accounts
  rw [run, List.foldl_append, List.foldl_cons]
  obtain ⟨hend, halterIds⟩ : (run prims filter ((run prims filter r before).step prims filter
      (.updateUsers range start accounts)) after).service.TableMade prims previous nowSec ∧ _ :=
    tableMade_run hafter hmade htimes
  constructor
  · intro hash entry hlookup
    obtain ⟨alterIds, hids, id, hid, hhash, htable⟩ := hend.sound hash entry hlookup
    rw [halterIds] at hids
    obtain ⟨account, haccount, hsame, rfl⟩ := GoMap.exists_mem_of_lookup_storeAll _ _ hids
    exact ⟨account, List.mem_of_mem_filter haccount, hsame, id, hid, hhash, htable⟩
  · intro account haccount id hid t ht
    refine hend.complete account.user (account.alterIds prims) ?_ id hid t ht
    have hpos : 0 < account.alterId := by
      by_contra hneg
      rw [Account.alterIds, Int.toNat_of_nonpos (Int.not_lt.mp hneg)] at hid
      cases hid
    rw [halterIds]
    exact Service.lookup_alterIds_updateUsers prims range start haccounts _ haccount hpos

end ServiceRun

/-- A user with one alternative id and one without. -/
def legacyAccounts : List (Account ℕ) := [⟨0, "a", 1⟩, ⟨1, "b", 0⟩]

/-- The table is made again twice, after ten seconds each. -/
def refreshed : List (ServiceEvent ℕ) :=
  [.generateLegacyKeys .ascending 1010, .generateLegacyKeys .ascending 1020]

theorem refreshed_lookup_alterIdMap :
    ((ServiceRun.run shiftPrimitives .timed ⟨⟨∅, ∅, [], ∅, ∅, ∅⟩, []⟩
      ([] ++ .updateUsers .ascending 1000 legacyAccounts :: refreshed)).service.alterIdMap.lookup
        (idHash shiftPrimitives [0, 0x61] 1010)).isSome := by
  have haccounts : (legacyAccounts.map Account.user).Nodup := by decide
  have hrefreshed : ∀ e ∈ refreshed, e.isUpdate = false :=
    List.forall_mem_cons.mpr ⟨rfl, List.forall_mem_singleton.mpr rfl⟩
  have htimes : 0 :: 1000 :: refreshed.filterMap ServiceEvent.refreshTime =
    [0, 1000] ++ [1010, 1020] := rfl
  exact (ServiceRun.lookup_alterIdMap_run _ [] .ascending 1000 haccounts hrefreshed htimes).2
    ⟨0, "a", 1⟩ List.mem_cons_self [0, 0x61] (List.mem_singleton.mpr rfl) 1010 (by decide)

end Tox.Vmess
