import Tox.Core.Traffic
import Tox.Panel.Node

/-!
# The sing core

The sing core serves every node through an inbound of its own, found by the tag of the node. The
inbound holds the names of its users, which are their uuids. The accounting maps are those of
`TrafficRegistry`: the counters are kept for each tag, but the user ids are kept in one map for all
tags under the bare uuid.

The protocol service behind an inbound may refuse a changed user list; this happens after the maps
and the inbound have been written, so the error is an argument of `Sing.addUsers` and
`Sing.delUsers`. A call made with the information of another node than the one the inbound was
created for is not modelled.
-/

namespace Tox.Core

open Tox.Foundation Tox.Counter Tox.Panel

/-- An inbound of the sing-box instance with the names of its users. -/
structure Inbound where
  info : NodeInfo
  users : List String := []

/-- `sing.Sing`: `hookServer.counter`, `users.uidMap` and `nodeReportMinTrafficBytes` are the
registry, `box.Inbound()` is the map of inbounds. -/
structure Sing where
  registry : TrafficRegistry := {}
  inbounds : GoMap String Inbound := ∅

namespace Sing

/-- `Sing.AddNode`; `err` is the error of building the options or of creating the inbound. -/
def addNode (b : Sing) (tag : String) (info : NodeInfo) (reportMinTraffic : Int64)
    (err : Option String) : Sing × Option String :=
  let registry := { b.registry with nodeReportMinTrafficBytes :=
    b.registry.nodeReportMinTrafficBytes.insert tag (reportMinTraffic * 1024) }
  match err with
  | some err => ({ b with registry := registry }, some err)
  | none => ({ registry := registry, inbounds := b.inbounds.insert tag { info := info } }, none)

/-- `Sing.DelNode`. The inbound manager refuses a tag that it does not know; `err` is the error of
closing the inbound, which has been removed by then. -/
def delNode (b : Sing) (tag : String) (err : Option String) : Sing × Option String :=
  if tag ∈ b.inbounds then
    ({ b with inbounds := b.inbounds.erase tag }, err.map ("delete inbound error: " ++ ·))
  else (b, some "delete inbound error: invalid argument")

/-- The names of the users of the inbound `tag`. -/
def users (b : Sing) (tag : String) : List String :=
  ((b.inbounds.lookup tag).map Inbound.users).getD []

/-- `Sing.AddUsers`; `update` is the error of the protocol service. -/
def addUsers (b : Sing) (tag : String) (users : List UserInfo) (update : Option String) :
    Sing × Except String ℕ :=
  match b.inbounds.lookup tag with
  | none => (b, .error "the inbound not found")
  | some i =>
    ({ registry := b.registry.register UserInfo.uuid users
       inbounds := b.inbounds.insert tag { i with users := i.users ++ users.map UserInfo.uuid } },
      match update with
      | some err => .error err
      | none => .ok users.length)

/-- `Sing.DelUsers`; `update` is the error of the protocol service. -/
def delUsers (b : Sing) (tag : String) (users : List UserInfo) (update : Option String) :
    Sing × Option String :=
  match b.inbounds.lookup tag with
  | none => (b, some "the inbound not found")
  | some i =>
    ({ registry := users.foldl (fun r u => r.forget tag u.uuid) b.registry
       inbounds := b.inbounds.insert tag
         { i with users := i.users.filter (· ∉ users.map UserInfo.uuid) } },
      update)

/-- `Sing.GetUserTrafficSlice`. -/
def getUserTrafficSlice (b : Sing) (tag : String) (reset : Bool) (range : RangeOrder String) :
    Sing × List UserTraffic :=
  let (registry, slice) := b.registry.getUserTrafficSlice tag reset range
  ({ b with registry := registry }, slice)

/-- Whether the inbound `tag` lets a connection of the user in: its own users, and fallback
traffic, which has no user. -/
def Admits (b : Sing) (tag user : String) : Prop := user = "" ∨ user ∈ b.users tag

instance (b : Sing) (tag user : String) : Decidable (b.Admits tag user) :=
  inferInstanceAs (Decidable (_ ∨ _))

/-- `HookServer.RoutedConnection` for a connection that passes the limiter: the storage that the
connection counts into. -/
def routedConnection (b : Sing) (tag user : String) : Sing × ℕ :=
  let (registry, p) := b.registry.attach tag user
  ({ b with registry := registry }, p)

/-- A connection of the inbound `tag` counts `n` bytes into its storage. -/
def transfer (b : Sing) (tag : String) (p : ℕ) (d : Direction) (n : Int64) : Sing :=
  { b with registry := b.registry.addTo tag p d n }

end Sing

end Tox.Core
