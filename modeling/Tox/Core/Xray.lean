import Tox.Common.Format
import Tox.Core.Sing

/-!
# The xray core

The xray core finds a node by its inbound handler and a user by its email, which is the tag of the
node and the uuid of the user joined by a bar (`userTag`). One map of user ids and one map of link
managers serve all tags, both under the email; the counters are kept for each tag, again under the
email. A link manager holds the open links of a user, so that they can be closed when the user is
removed.

The user manager of a handler takes and drops users one at a time and may refuse one of them; the
loop stops there. The arguments `fail` of `Xray.addUsers` and `Xray.delUsers` say at which user this
happens and with which error.
-/

namespace Tox.Core

open Tox.Foundation Tox.Counter Tox.Format Tox.Panel

/-- The errors of the user calls of the xray core. -/
inductive XrayError
  /-- `unsupported node type: ` and the type. -/
  | unsupportedNodeType (type : NodeType)
  /-- `get user manager error: ` and the reason, here that there is no handler for the tag. -/
  | getUserManager (tag : String)
  /-- The error of building, adding or removing one user. -/
  | user (err : String)
deriving DecidableEq, Repr

/-- `xray.Xray`: `dispatcher.Counter`, `users.uidMap` and `nodeReportMinTrafficBytes` are the
registry, `ihm` is the map of handlers, whose users are emails, and `dispatcher.LinkManagers` is
the map of open links by email. -/
structure Xray where
  registry : TrafficRegistry := {}
  handlers : GoMap String Inbound := ∅
  linkManagers : GoMap String (List ℕ) := ∅

/-- A loop over users that stops at the user `fail` points to: the users before it, and its
error. -/
def upTo (users : List UserInfo) (fail : Option (ℕ × String)) : List UserInfo × Option String :=
  match fail with
  | none => (users, none)
  | some (n, err) => if n < users.length then (users.take n, some err) else (users, none)

namespace Xray

/-- `Xray.AddNode`. The handler is in place once `addInbound` has succeeded: an error `inErr` comes
from building or adding it, and an error `outErr` from the outbound handler that follows. -/
def addNode (x : Xray) (tag : String) (info : NodeInfo) (reportMinTraffic : Int64)
    (inErr outErr : Option String) : Xray × Option String :=
  let registry := { x.registry with nodeReportMinTrafficBytes :=
    x.registry.nodeReportMinTrafficBytes.insert tag (reportMinTraffic * 1024) }
  match inErr with
  | some err => ({ x with registry := registry }, some err)
  | none =>
    ({ x with registry := registry, handlers := x.handlers.insert tag { info := info } }, outErr)

/-- `Xray.DelNode`. The inbound handler goes first; `outErr` is the error of removing the outbound
handler. -/
def delNode (x : Xray) (tag : String) (outErr : Option String) : Xray × Option String :=
  if tag ∈ x.handlers then ({ x with handlers := x.handlers.erase tag }, outErr)
  else (x, some "remove in error")

/-- The node types for which `Xray.AddUsers` can build users. -/
def supports : NodeType → Bool
  | .vmess | .vless | .xhttp | .trojan | .shadowsocks => true
  | _ => false

/-- `Xray.AddUsers`. The user ids are written before anything is checked. -/
def addUsers (x : Xray) (tag : String) (type : NodeType) (users : List UserInfo)
    (fail : Option (ℕ × String)) : Xray × Except XrayError ℕ :=
  let x := { x with registry := x.registry.register (fun u => userTag tag u.uuid) users }
  if supports type then
    match x.handlers.lookup tag with
    | none => (x, .error (.getUserManager tag))
    | some i =>
      let (added, err) := upTo users fail
      let i' := { i with users := i.users ++ added.map fun u => userTag tag u.uuid }
      ({ x with handlers := x.handlers.insert tag i' },
        match err with
        | some err => .error (.user err)
        | none => .ok users.length)
  else (x, .error (.unsupportedNodeType type))

/-- One user of the loop of `Xray.DelUsers`, after the user manager has removed it: the links of
the user are closed, and with them the manager goes. -/
def delUser (tag : String) (x : Xray) (u : UserInfo) : Xray :=
  { x with
    registry := x.registry.forget tag (userTag tag u.uuid)
    linkManagers := x.linkManagers.erase (userTag tag u.uuid) }

/-- `Xray.DelUsers`. -/
def delUsers (x : Xray) (tag : String) (users : List UserInfo) (fail : Option (ℕ × String)) :
    Xray × Option XrayError :=
  match x.handlers.lookup tag with
  | none => (x, some (.getUserManager tag))
  | some i =>
    let (removed, err) := upTo users fail
    let i' := { i with users := i.users.filter (· ∉ removed.map fun u => userTag tag u.uuid) }
    (removed.foldl (delUser tag) { x with handlers := x.handlers.insert tag i' }, err.map .user)

/-- `Xray.GetUserTrafficSlice`. -/
def getUserTrafficSlice (x : Xray) (tag : String) (reset : Bool) (range : RangeOrder String) :
    Xray × List UserTraffic :=
  let (registry, slice) := x.registry.getUserTrafficSlice tag reset range
  ({ x with registry := registry }, slice)

/-- `DefaultDispatcher.getLink` for a link of the user `email` that passes the limiter: the link
enters the manager of the user, and the storage it counts into is returned. -/
def getLink (x : Xray) (tag email : String) (link : ℕ) : Xray × ℕ :=
  let (registry, p) := x.registry.attach tag email
  ({ x with
      registry := registry
      linkManagers := x.linkManagers.insert email (GoMap.getD x.linkManagers email [] ++ [link]) },
    p)

/-- `ManagedWriter.Close`: the link leaves the manager it is in. -/
def closeLink (x : Xray) (email : String) (link : ℕ) : Xray :=
  match x.linkManagers.lookup email with
  | none => x
  | some links =>
    { x with linkManagers := x.linkManagers.insert email (links.filter (· ≠ link)) }

/-- A link of the inbound `tag` counts `n` bytes into its storage. -/
def transfer (x : Xray) (tag : String) (p : ℕ) (d : Direction) (n : Int64) : Xray :=
  { x with registry := x.registry.addTo tag p d n }

/-! ### What a loop over users does -/

theorem foldl_delUser (tag : String) (users : List UserInfo) (x : Xray) :
    users.foldl (delUser tag) x =
      { x with
        registry := users.foldl (fun r u => r.forget tag (userTag tag u.uuid)) x.registry
        linkManagers := GoMap.deleteAll (users.map fun u => userTag tag u.uuid)
          x.linkManagers } := by
  induction users generalizing x with
  | nil => rfl
  | cons u users ih => exact ih (delUser tag x u)

end Xray

theorem mem_of_mem_upTo {users : List UserInfo} {fail : Option (ℕ × String)} {u : UserInfo}
    (h : u ∈ (upTo users fail).1) : u ∈ users := by
  unfold upTo at h
  split at h
  · exact h
  · split_ifs at h
    · exact List.mem_of_mem_take h
    · exact h

/-- A loop over users that is not stopped covers all of them. -/
theorem upTo_fst_of_snd_eq_none {users : List UserInfo} {fail : Option (ℕ × String)}
    (h : (upTo users fail).2 = none) : (upTo users fail).1 = users := by
  unfold upTo at h ⊢
  split at h
  · rfl
  · split_ifs at h with hlt
    simp only [if_neg hlt]

end Tox.Core
