import Mathlib
import Tox.Foundation.GoMap
import Tox.Common.Counter

/-!
# The panel client

The panel is the service from which a node learns its configuration and users and to which it
reports traffic. `api/panel` talks to it over HTTP. A request ends in a `Reply`: no response at
all, or a response with a status, a body and headers, possibly cut off by an error while the body
was read. The client keeps three cache validators between requests: the entity tag and the body
digest of the last node configuration, and the entity tag of the last user list.

The node configuration is fetched in `Tox.Panel.Node`; this file has the other requests. Decoders
and the body digest are library functions, collected in `Codec`.
-/

namespace Tox.Panel

open Tox.Foundation Tox.Counter

/-! ### Data exchanged with the panel -/

/-- `panel.UserInfo`. -/
structure UserInfo where
  id : ℤ
  uuid : String
  speedLimit : ℤ := 0
  deviceLimit : ℤ := 0
deriving DecidableEq, Repr

/-- `panel.OnlineUser`. -/
structure OnlineUser where
  uid : ℤ
  ip : String
deriving DecidableEq, Repr

/-- `panel.UserTraffic`: an entry of a traffic report. -/
@[ext] structure UserTraffic where
  uid : ℤ
  upload : Int64
  download : Int64
deriving DecidableEq, Repr

/-- The amount of one direction in an entry of a traffic report. -/
def UserTraffic.get (t : UserTraffic) : Direction → Int64
  | .up => t.upload
  | .down => t.download

/-! ### Requests and their outcomes -/

/-- The body of a response. -/
abbrev Body := List UInt8

/-- The outcome of a request as the HTTP library hands it over. -/
inductive Reply
  /-- No response: the library reports status `0`, an empty body and no headers. -/
  | failed (err : String)
  /-- A response, with the error if reading it was cut off. -/
  | received (status : ℕ) (body : Body) (etag contentType : String) (err : Option String)
deriving DecidableEq, Repr

namespace Reply

/-- `StatusCode()`. -/
def status : Reply → ℕ
  | failed _ => 0
  | received status .. => status

/-- `Body()`. -/
def body : Reply → Body
  | failed _ => []
  | received _ body .. => body

/-- `Header().Get("ETag")`. -/
def etag : Reply → String
  | failed _ => ""
  | received _ _ etag .. => etag

/-- `Header().Get("Content-Type")`. -/
def contentType : Reply → String
  | failed _ => ""
  | received _ _ _ contentType _ => contentType

/-- The error returned along with the response. -/
def err : Reply → Option String
  | failed err => some err
  | received _ _ _ _ err => err

/-- With `SetDoNotParseResponse` the body stays in the raw response, and `Body` is empty. -/
def unparsed : Reply → Reply
  | received status _ etag contentType err => received status [] etag contentType err
  | r => r

end Reply

/-- The errors of the client. -/
inductive PanelError
  /-- The request to `path` could not be completed. -/
  | request (path err : String)
  /-- The request to `path` was answered with an error status. -/
  | status (path : String) (body : Body)
  /-- There is no response to read. -/
  | noResponse
  /-- The response does not decode as `what`. -/
  | decode (what err : String)
deriving DecidableEq, Repr

/-- `Client.checkResponse`. -/
def checkResponse (r : Reply) (path : String) : Option PanelError :=
  match r.err with
  | some err => some (.request path err)
  | none => if r.status ≥ 400 then some (.status path r.body) else none

/-- The library functions used on response bodies. A slice or map of the program that may be nil is
an `Option`. -/
structure Codec where
  /-- The hexadecimal SHA-256 digest of a body. -/
  sha256 : Body → String
  /-- The MessagePack decoder at `UserListBody`. -/
  decodeMsgpack : Body → Except String (Option (List UserInfo))
  /-- The JSON decoder at `UserListBody`. -/
  decodeJson : Body → Except String (Option (List UserInfo))
  /-- The JSON decoder at `AliveMap`. -/
  unmarshalAlive : Body → Except String (Option (GoMap ℤ ℤ))

/-- The node types accepted by `panel.New`. -/
inductive NodeType
  | vmess | vless | trojan | shadowsocks | hysteria | hysteria2 | tuic | anytls | xhttp | mieru
deriving DecidableEq, Repr

/-- The node type as the configuration spells it. -/
def NodeType.name : NodeType → String
  | vmess => "vmess"
  | vless => "vless"
  | trojan => "trojan"
  | shadowsocks => "shadowsocks"
  | hysteria => "hysteria"
  | hysteria2 => "hysteria2"
  | tuic => "tuic"
  | anytls => "anytls"
  | xhttp => "xhttp"
  | mieru => "mieru"

/-- `panel.Client`: the identity of the node at the panel and the cache validators. -/
structure Client where
  apiHost : String
  nodeType : NodeType
  nodeId : ℤ
  nodeEtag : String := ""
  userEtag : String := ""
  responseBodyHash : String := ""
deriving DecidableEq, Repr

/-- The parts of `conf.ApiConfig` that name the node at the panel. -/
structure ApiConfig where
  apiHost : String := "http://127.0.0.1"
  nodeType : String := ""
  nodeId : ℤ := 0
deriving DecidableEq, Repr

/-- The node type of a name in lower case. -/
def NodeType.ofName? : String → Option NodeType
  | "v2ray" | "vmess" => some vmess
  | "vless" => some vless
  | "trojan" => some trojan
  | "shadowsocks" => some shadowsocks
  | "hysteria" => some hysteria
  | "hysteria2" => some hysteria2
  | "tuic" => some tuic
  | "anytls" => some anytls
  | "xhttp" => some xhttp
  | "mieru" => some mieru
  | _ => none

/-- `panel.New`, with `strings.ToLower` as a parameter. -/
def newClient (toLower : String → String) (c : ApiConfig) : Except String Client :=
  match NodeType.ofName? (toLower c.nodeType) with
  | none => .error ("unsupported Node type: " ++ toLower c.nodeType)
  | some nodeType => .ok { apiHost := c.apiHost, nodeType := nodeType, nodeId := c.nodeId }

/-! ### The user list -/

/-- `strings.Contains`. -/
def contains (s sub : String) : Bool := decide (sub.toList <:+: s.toList)

/-- The user list decoded according to the content type of the response. -/
def decodeUserList (cd : Codec) (r : Reply) : Except String (Option (List UserInfo)) :=
  if contains r.contentType "application/x-msgpack" then cd.decodeMsgpack r.body
  else cd.decodeJson r.body

/-- `Client.GetUserList`: the list is `none` when the panel answers that it did not change, and
when the body has no list. -/
def Client.getUserList (cd : Codec) (c : Client) (r : Reply) :
    Client × Except PanelError (Option (List UserInfo)) :=
  match r with
  | .failed _ => (c, .error .noResponse)
  | .received .. =>
    if r.status = 304 then (c, .ok none)
    else
      match checkResponse r.unparsed "/api/v1/server/UniProxy/user" with
      | some e => (c, .error e)
      | none =>
        match decodeUserList cd r with
        | .error e => (c, .error (.decode "user list" e))
        | .ok users => ({ c with userEtag := r.etag }, .ok users)

/-- The user list request fails, or finds the list unchanged, or takes over the list and the entity
tag of the response. Only the entity tag of the user list ever changes. -/
theorem Client.getUserList_eq (cd : Codec) (c : Client) (r : Reply) :
    (∃ e, c.getUserList cd r = (c, .error e)) ∨ c.getUserList cd r = (c, .ok none) ∨
      ∃ users, decodeUserList cd r = .ok users ∧
        c.getUserList cd r = ({ c with userEtag := r.etag }, .ok users) := by
  cases r with
  | failed err => exact Or.inl ⟨_, rfl⟩
  | received status body etag contentType err =>
    simp only [getUserList]
    split_ifs
    · exact Or.inr (Or.inl rfl)
    · cases checkResponse (Reply.received status body etag contentType err).unparsed
          "/api/v1/server/UniProxy/user" with
      | some e => exact Or.inl ⟨e, rfl⟩
      | none =>
        cases h : decodeUserList cd (.received status body etag contentType err) with
        | error e => exact Or.inl ⟨_, rfl⟩
        | ok users => exact Or.inr (Or.inr ⟨users, rfl, rfl⟩)

/-- The user list request changes at most the entity tag of the user list. -/
theorem Client.getUserList_fst (cd : Codec) (c : Client) (r : Reply) :
    ∃ etag, (c.getUserList cd r).1 = { c with userEtag := etag } := by
  rcases c.getUserList_eq cd r with ⟨e, h⟩ | h | ⟨users, -, h⟩
  · exact ⟨c.userEtag, by rw [h]⟩
  · exact ⟨c.userEtag, by rw [h]⟩
  · exact ⟨r.etag, by rw [h]⟩

theorem Client.getUserList_of_status_eq {cd : Codec} {r : Reply} (h : r.status = 304)
    (c : Client) : c.getUserList cd r = (c, .ok none) := by
  cases r with
  | failed err => cases h
  | received status body etag contentType err => exact if_pos h

/-! ### The alive list -/

/-- `Client.GetUserAlive`: the numbers of online devices per user id, empty when the request or
the decoding fails. -/
def getUserAlive (cd : Codec) (r : Reply) : Option (GoMap ℤ ℤ) :=
  if r.err.isSome ∨ r.status ≥ 399 then some ∅
  else
    match r with
    | .failed _ => some ∅
    | .received .. =>
      match cd.unmarshalAlive r.body with
      | .error _ => some ∅
      | .ok alive => alive

/-! ### Reports -/

/-- The body of a traffic report: upload and download by user id. Of two entries with one user id
the later one stays. -/
def trafficData (userTraffic : List UserTraffic) : GoMap ℤ (Int64 × Int64) :=
  GoMap.storeAll UserTraffic.uid (fun t => (t.upload, t.download)) userTraffic ∅

/-- `Client.ReportUserTraffic`: the report that is posted, and the error for the panel's reply. -/
def reportUserTraffic (userTraffic : List UserTraffic) (r : Reply) :
    GoMap ℤ (Int64 × Int64) × Option PanelError :=
  (trafficData userTraffic, checkResponse r "/api/v1/server/UniProxy/push")

/-- `Client.ReportNodeOnlineUsers`: the error of the request is dropped. -/
def reportNodeOnlineUsers (data : GoMap ℤ (List String)) (_r : Reply) :
    GoMap ℤ (List String) × Option PanelError :=
  (data, none)

/-- The amount of one direction that a traffic report holds for a user id. -/
def reportedFor (data : GoMap ℤ (Int64 × Int64)) (uid : ℤ) (d : Direction) : Int64 :=
  match data.lookup uid with
  | none => 0
  | some (upload, download) =>
    match d with
    | .up => upload
    | .down => download

/-- A report in which the entries of a user id are all the same holds that entry. -/
theorem reportedFor_trafficData_of_unique {userTraffic : List UserTraffic} {t : UserTraffic}
    (ht : t ∈ userTraffic) (huniq : ∀ t' ∈ userTraffic, t'.uid = t.uid → t' = t)
    (d : Direction) : reportedFor (trafficData userTraffic) t.uid d = t.get d := by
  obtain ⟨t', ht', hid, hlook⟩ := GoMap.exists_lookup_storeAll UserTraffic.uid
    (fun t => (t.upload, t.download)) ht (∅ : GoMap ℤ (Int64 × Int64))
  rw [huniq t' ht' hid] at hlook
  simp only [reportedFor, trafficData, hlook]
  cases d <;> rfl

/-- A report has nothing for a user id that is not in the slice. -/
theorem reportedFor_trafficData_of_forall_ne {userTraffic : List UserTraffic} {uid : ℤ}
    (h : ∀ t ∈ userTraffic, t.uid ≠ uid) (d : Direction) :
    reportedFor (trafficData userTraffic) uid d = 0 := by
  have hnone : (trafficData userTraffic).lookup uid = none := by
    rw [trafficData, GoMap.lookup_storeAll_of_forall_ne UserTraffic.uid _ h, Finmap.lookup_empty]
  simp only [reportedFor, hnone]

end Tox.Panel
