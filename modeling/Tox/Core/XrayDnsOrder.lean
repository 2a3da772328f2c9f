import Tox.Core.XrayDns
import Tox.Foundation.AddressText
import Tox.Foundation.JsonText
import Tox.Foundation.LastMatch
import Tox.Foundation.Outcome
import Tox.Panel.Node

/-!
# The DNS file and the order of a map

A node brings its DNS configuration as a text, or as a map with one server for each of its DNS
routes. In the second case `updateDNSConfig` goes over the map, in the order in which Go happens to
visit it, and writes the servers in this order into the file. An address with a port is split
first, in the map itself; an address that cannot be split ends the call.

So the file depends on the order of the visit. It does not if the node has a text, or all servers of
the map are the same, or none of the texts is written; and if some addresses cannot be split, all of
these give the same error (`updateDNSConfig_order_free_iff`). Under the same condition a node that
is added again, unchanged, leaves the file as it is. That the map is changed in place makes no
difference, unless a host has a colon itself and is split again (`servers_after`).

The texts are those of `json.MarshalIndent`, which are different for different configurations
(`marshalIndent_injective`).
-/

namespace Tox.Core.XrayDns

open Tox.Foundation Tox.Panel

/-! ### The text of a configuration -/

/-- A server of the configuration: an entry of `DNSMap`, with the port that `updateDNSConfig` adds
to it. -/
structure DnsServer where
  address : String
  domains : List String
  port : Option UInt16 := none
deriving DecidableEq, Repr

/-- `DNSConfig`. A server is a plain address or an object. -/
structure DNSConfig where
  servers : List (String ⊕ DnsServer)
  tag : String
deriving DecidableEq, Repr

/-- The beginning of a member of an object. -/
def member (opening : Char) (depth : ℕ) (key : String) : List Char :=
  opening :: (newline depth ++ (quote key ++ [':', ' ']))

/-- The end of an object. -/
def closing (depth : ℕ) : List Char := newline depth ++ ['\x7d']

/-- An object of the list of servers. -/
def serverText (v : DnsServer) : List Char :=
  (member '\x7b' 3 "address" ++ (quote v.address ++ member ',' 3 "domains")) ++
    (array quote 3 v.domains ++
      optional (fun port : UInt16 => Nat.toDigits 10 port.toNat) (member ',' 3 "port")
        (closing 2) v.port)

/-- An element of the list of servers. -/
def itemText : String ⊕ DnsServer → List Char := Sum.elim quote serverText

/-- The text of a configuration. -/
def configText (c : DNSConfig) : List Char :=
  (member '\x7b' 1 "servers" ++ (array itemText 1 c.servers ++ member ',' 1 "tag")) ++
    (quote c.tag ++ closing 0)

/-- The bytes of a text. -/
def utf8 (text : List Char) : Body := (String.ofList text).toUTF8.data.toList

/-- `json.MarshalIndent` for a configuration, without a prefix and with two blanks a level. -/
def marshalIndent (c : DNSConfig) : Body := utf8 (configText c)

theorem utf8_injective : Function.Injective utf8 := by
  intro s t h
  have hbytes : (String.ofList s).toUTF8 = (String.ofList t).toUTF8 :=
    ByteArray.ext (Array.toList_inj.mp h)
  exact String.ofList_injective (String.toByteArray_inj.mp hbytes)

theorem delimited_serverText : Delimited serverText := by
  have hport : Delimited (optional (fun port : UInt16 => Nat.toDigits 10 port.toNat)
      (member ',' 3 "port") (closing 2)) := by
    refine .optional ?_ fun x y h => absurd (List.cons.inj h).1 (by decide)
    exact (delimited_toDigits rfl _).comp fun p q h => UInt16.toNat_inj.mp h
  have hfields := (delimited_quote.wrap (member '\x7b' 3 "address") (member ',' 3 "domains")).append
    ((delimited_quote.array 3).append hport)
  exact hfields.comp (f := fun v : DnsServer => (v.address, v.domains, v.port))
    fun v v' h => by cases v; cases v'; cases h; rfl

theorem delimited_itemText : Delimited itemText := by
  refine delimited_quote.sum delimited_serverText fun s v x y h => ?_
  exact absurd (List.cons.inj h).1 (by decide)

/-- Different configurations have different texts. -/
theorem marshalIndent_injective : Function.Injective marshalIndent := by
  have hfields := ((delimited_itemText.array 1).wrap (member '\x7b' 1 "servers")
    (member ',' 1 "tag")).append (delimited_quote.wrap [] (closing 0))
  have hconfig : Delimited configText :=
    hfields.comp (f := fun c : DNSConfig => (c.servers, c.tag))
      fun c c' h => by cases c; cases c'; cases h; rfl
  exact utf8_injective.comp hconfig.injective

example : String.ofList (configText ⟨[.inl "localhost", .inr ⟨"8.8.8.8", ["a"], some 53⟩], "t"⟩) =
    "\x7b\n  \"servers\": [\n    \"localhost\",\n    \x7b\n      \"address\": \"8.8.8.8\",\n" ++
    "      \"domains\": [\n        \"a\"\n      ],\n      \"port\": 53\n    \x7d\n  ],\n" ++
    "  \"tag\": \"t\"\n\x7d" := by
  decide +kernel

/-! ### The loop over the map -/

/-- The library functions that `updateDNSConfig` uses. -/
structure DnsTextLibrary (γ : Type) extends DnsLibrary γ where
  /-- `json.Indent` of the text of a node. -/
  indent : String → Except String Body
  /-- `net.SplitHostPort`. -/
  splitHostPort : String → Except String (String × String)

/-- `strconv.ParseUint(port, 10, 16)`, or zero if it returns an error. -/
def parsePort (port : String) : UInt16 :=
  let n := Nat.ofDigitChars 10 port.toList 0
  if port ≠ "" ∧ port.toList.all Char.isDigit ∧ n < 65536 then UInt16.ofNat n else 0

/-- The DNS configuration of a node. The entries of the map that `updateDNSConfig` has changed are
kept apart. -/
structure DnsState where
  raw : RawDNS
  rewritten : GoMap String DnsServer := ∅

namespace DnsState

/-- The entry of a key. -/
def value (d : DnsState) (key : String) : Option DnsServer :=
  match d.rewritten.lookup key with
  | some v => some v
  | none => (d.raw.dnsMap.lookup key).map fun e => { address := e.address, domains := e.domains }

/-- The entry of a key is changed. -/
def rewrite (d : DnsState) (key : String) (v : DnsServer) : DnsState :=
  { d with rewritten := d.rewritten.insert key v }

end DnsState

section Update

variable {γ : Type} (lib : DnsTextLibrary γ)

/-- The address of an entry is split into host and port if it has a colon and no slash. -/
def splitServer (v : DnsServer) : Except String DnsServer :=
  if ':' ∈ v.address.toList ∧ '/' ∉ v.address.toList then
    match lib.splitHostPort v.address with
    | .error err => .error err
    | .ok (host, port) => .ok { v with address := host, port := some (parsePort port) }
  else .ok v

/-- The loop of `updateDNSConfig` over the map: the map afterwards, and the servers or the error
that ends it. -/
def serverLoop (d : DnsState) : List String → DnsState × Except String (List DnsServer)
  | [] => (d, .ok [])
  | key :: keys =>
    match d.value key with
    | none => serverLoop d keys
    | some v =>
      match splitServer lib v with
      | .error err => (d, .error err)
      | .ok v' =>
        let r := serverLoop (d.rewrite key v') keys
        (r.1, r.2.map (v' :: ·))

/-- The configuration with the servers of a node. -/
def dnsConfig (servers : List DnsServer) : DNSConfig where
  servers := .inl "1.1.1.1" :: .inl "localhost" :: servers.map .inr
  tag := "dns_inbound"

/-- What `updateDNSConfig` leaves behind. -/
structure DnsUpdate where
  state : DnsState
  file : Body
  err : Option String

/-- `updateDNSConfig`. In the second case the error of `saveDnsConfig` is assigned to a variable of
the block, and nil is returned. -/
def updateDNSConfig (steps : DnsSteps) (range : RangeOrder String) (d : DnsState) (file : Body) :
    DnsUpdate :=
  if d.raw.dnsJson ≠ "" then
    match lib.indent d.raw.dnsJson with
    | .error err => ⟨d, file, some err⟩
    | .ok prettyJSON =>
      let r := saveDnsConfig lib.toDnsLibrary steps prettyJSON file
      ⟨d, r.1, r.2⟩
  else if d.raw.dnsMap ≠ ∅ then
    match serverLoop lib d (range.keys d.raw.dnsMap) with
    | (d', .error err) => ⟨d', file, some err⟩
    | (d', .ok servers) =>
      ⟨d', (saveDnsConfig lib.toDnsLibrary steps (marshalIndent (dnsConfig servers)) file).1, none⟩
  else ⟨d, file, none⟩

/-- The file and the error of a call. -/
def DnsUpdate.result (u : DnsUpdate) : Body × Option String := (u.file, u.err)

/-- The servers that the loop collects, or the error that ends it. -/
def servers (d : DnsState) (range : RangeOrder String) : Except String (List DnsServer) :=
  ((range.keys d.raw.dnsMap).filterMap d.value).mapM (splitServer lib)

/-- The text that is written for servers. -/
def serversText (l : List DnsServer) : Body := marshalIndent (dnsConfig l)

end Update

/-! ### What the loop collects -/

section Loop

variable {γ : Type} {lib : DnsTextLibrary γ} {d : DnsState}

theorem DnsState.value_rewrite_of_ne {key key' : String} (h : key' ≠ key) (v : DnsServer) :
    (d.rewrite key v).value key' = d.value key' := by
  rw [value, value, rewrite]
  dsimp only
  rw [GoMap.lookup_insert, if_neg h]

/-- An entry is changed only after it has been visited. -/
theorem serverLoop_snd {keys : List String} (hkeys : keys.Nodup) :
    (serverLoop lib d keys).2 = (keys.filterMap d.value).mapM (splitServer lib) := by
  induction keys generalizing d with
  | nil => rfl
  | cons key keys ih =>
    obtain ⟨hkey, hkeys⟩ := List.nodup_cons.mp hkeys
    rw [serverLoop]
    rcases hv : d.value key with _ | v
    · rw [List.filterMap_cons_none hv]
      exact ih hkeys
    · rw [List.filterMap_cons_some hv, List.mapM_cons]
      dsimp only
      rcases splitServer lib v with err | v'
      · rfl
      · have hrest : keys.filterMap (d.rewrite key v').value = keys.filterMap d.value := by
          refine List.filterMap_congr fun key' hmem => ?_
          refine DnsState.value_rewrite_of_ne ?_ v'
          rintro rfl
          exact hkey hmem
        dsimp only
        rw [ih hkeys, hrest]
        rcases (keys.filterMap d.value).mapM (splitServer lib) with err | l
        · rfl
        · rfl

/-- The entry of a key of the map. -/
structure DnsState.Entry (d : DnsState) (key : String) (v : DnsServer) : Prop where
  mem : key ∈ d.raw.dnsMap
  value : d.value key = some v

/-- Every entry that the loop visits is one of the map, and every entry is visited. -/
theorem mem_visited_iff {range : RangeOrder String} {v : DnsServer} :
    v ∈ (range.keys d.raw.dnsMap).filterMap d.value ↔ ∃ key, d.Entry key v := by
  rw [List.mem_filterMap]
  refine exists_congr fun key => ?_
  rw [range.mem_keys]
  exact ⟨fun ⟨hmem, hvalue⟩ => ⟨hmem, hvalue⟩, fun h => ⟨h.mem, h.value⟩⟩

/-- The loop begins with the key that comes first. -/
theorem servers_moveFirst (lib : DnsTextLibrary γ) (range : RangeOrder String) {key : String}
    {v : DnsServer} (h : d.Entry key v) : ∃ rest, servers lib d (range.moveFirst key) =
      (v :: rest).mapM (splitServer lib) := by
  rw [servers, range.keys_moveFirst h.mem, List.filterMap_cons_some h.value]
  exact ⟨_, rfl⟩

/-- Any entry that cannot be split may end the loop. -/
theorem servers_of_error (range : RangeOrder String) {key : String} {v : DnsServer} {err : String}
    (h : d.Entry key v) (herr : splitServer lib v = .error err) :
    servers lib d (range.moveFirst key) = .error err := by
  obtain ⟨rest, hrest⟩ := servers_moveFirst lib range h
  rw [hrest, mapM_cons_of_error herr]

/-- Any server may be the first. -/
theorem exists_servers_cons (range : RangeOrder String) {key : String} {v : DnsServer}
    {l : List DnsServer} (h : d.Entry key v)
    (hl : servers lib d (range.moveFirst key) = .ok l) :
    ∃ v' rest, splitServer lib v = .ok v' ∧ l = v' :: rest := by
  obtain ⟨rest, hrest⟩ := servers_moveFirst lib range h
  rw [hrest, mapM_eq_ok_iff, List.forall₂_cons_left_iff] at hl
  obtain ⟨v', l', hv', -, hl⟩ := hl
  exact ⟨v', l', hv', hl⟩

/-- The loop ends with an error of an entry. -/
theorem exists_entry_of_error {range : RangeOrder String} {err : String}
    (h : servers lib d range = .error err) :
    ∃ key v, d.Entry key v ∧ splitServer lib v = .error err := by
  obtain ⟨v, hv, herr⟩ := exists_of_mapM_eq_error h
  obtain ⟨key, hentry⟩ := mem_visited_iff.mp hv
  exact ⟨key, v, hentry, herr⟩

/-- If the loop comes to its end, all entries can be split. -/
theorem splitServer_of_servers {range : RangeOrder String} {l : List DnsServer}
    (h : servers lib d range = .ok l) {key : String} {v : DnsServer} (hv : d.Entry key v) :
    ∃ v', splitServer lib v = .ok v' :=
  exists_ok_of_mapM_eq_ok h (mem_visited_iff.mpr ⟨key, hv⟩)

/-- Whether the loop comes to its end does not depend on the order. -/
theorem exists_servers_of_ok {range : RangeOrder String} {l : List DnsServer}
    (h : servers lib d range = .ok l) (range' : RangeOrder String) :
    ∃ l', servers lib d range' = .ok l' := by
  rcases h' : servers lib d range' with err | l'
  · obtain ⟨key, v, hentry, herr⟩ := exists_entry_of_error h'
    obtain ⟨v', hv'⟩ := splitServer_of_servers h hentry
    rw [herr] at hv'
    cases hv'
  · exact ⟨l', rfl⟩

end Loop

/-! ### The map afterwards -/

section After

variable {γ : Type} {lib : DnsTextLibrary γ} {d : DnsState}

theorem DnsState.value_rewrite_self (key : String) (v : DnsServer) :
    (d.rewrite key v).value key = some v := by
  rw [value, rewrite]
  dsimp only
  rw [GoMap.lookup_insert, if_pos rfl]

theorem raw_serverLoop (keys : List String) : (serverLoop lib d keys).1.raw = d.raw := by
  induction keys generalizing d with
  | nil => rfl
  | cons key keys ih =>
    rw [serverLoop]
    rcases d.value key with _ | v
    · exact ih
    · dsimp only
      rcases splitServer lib v with err | v'
      · rfl
      · exact ih

/-- The loop leaves the entries that it does not visit. -/
theorem value_serverLoop_of_notMem {keys : List String} {key : String} (h : key ∉ keys) :
    (serverLoop lib d keys).1.value key = d.value key := by
  induction keys generalizing d with
  | nil => rfl
  | cons key' keys ih =>
    obtain ⟨hne, hkey⟩ := not_or.mp (List.mem_cons.not.mp h)
    rw [serverLoop]
    rcases d.value key' with _ | v
    · exact ih hkey
    · dsimp only
      rcases splitServer lib v with err | v'
      · rfl
      · exact (ih hkey).trans (DnsState.value_rewrite_of_ne hne v')

/-- A loop that comes to its end leaves every entry split. -/
theorem value_serverLoop {keys : List String} (hkeys : keys.Nodup) {l : List DnsServer}
    (hl : (serverLoop lib d keys).2 = .ok l) {key : String} (hkey : key ∈ keys) {v : DnsServer}
    (hv : d.value key = some v) :
    ∃ v', splitServer lib v = .ok v' ∧ (serverLoop lib d keys).1.value key = some v' := by
  induction keys generalizing d l with
  | nil => cases hkey
  | cons key' keys ih =>
    obtain ⟨hkey', hkeys⟩ := List.nodup_cons.mp hkeys
    rw [serverLoop] at hl ⊢
    rcases hv' : d.value key' with _ | w
    · rw [hv'] at hl
      rcases List.mem_cons.mp hkey with rfl | hkey
      · rw [hv] at hv'
        cases hv'
      · exact ih hkeys hl hkey hv
    · rw [hv'] at hl
      dsimp only at hl ⊢
      rcases hw : splitServer lib w with err | w'
      · rw [hw] at hl
        cases hl
      · rw [hw] at hl
        dsimp only at hl ⊢
        rcases hrest : (serverLoop lib (d.rewrite key' w') keys).2 with err | rest
        · rw [hrest] at hl
          cases hl
        · rcases List.mem_cons.mp hkey with rfl | hkey
          · obtain rfl := Option.some.inj (hv.symm.trans hv')
            refine ⟨w', hw, ?_⟩
            rw [value_serverLoop_of_notMem hkey', DnsState.value_rewrite_self]
          · refine ih hkeys hrest hkey ?_
            rw [DnsState.value_rewrite_of_ne (ne_of_mem_of_not_mem hkey hkey'), hv]

theorem DnsState.exists_value {key : String} (h : key ∈ d.raw.dnsMap) :
    ∃ v, d.value key = some v := by
  rw [value]
  rcases d.rewritten.lookup key with _ | v
  · obtain ⟨e, he⟩ := Finmap.mem_iff.mp h
    rw [he]
    exact ⟨_, rfl⟩
  · exact ⟨v, rfl⟩

/-- **The map is split in place.** If the loop comes to its end and no host is split again, the map
that it leaves behind gives the same servers in every order. -/
theorem servers_after {range : RangeOrder String} {l : List DnsServer}
    (hl : (serverLoop lib d (range.keys d.raw.dnsMap)).2 = .ok l)
    (hsplit : ∀ key v v', d.Entry key v → splitServer lib v = .ok v' → splitServer lib v' = .ok v')
    (range' : RangeOrder String) :
    servers lib (serverLoop lib d (range.keys d.raw.dnsMap)).1 range' =
      servers lib d range' := by
  have hloop (keys : List String) (hkeys : ∀ key ∈ keys, key ∈ d.raw.dnsMap) :
      (keys.filterMap (serverLoop lib d (range.keys d.raw.dnsMap)).1.value).mapM
          (splitServer lib) =
        (keys.filterMap d.value).mapM (splitServer lib) := by
    induction keys with
    | nil => rfl
    | cons key keys ih =>
      obtain ⟨hkey, hkeys⟩ := List.forall_mem_cons.mp hkeys
      obtain ⟨v, hv⟩ := DnsState.exists_value hkey
      obtain ⟨v', hv', hafter⟩ :=
        value_serverLoop (range.nodup_keys _) hl ((range.mem_keys _ _).mpr hkey) hv
      rw [List.filterMap_cons_some hv, List.filterMap_cons_some hafter, List.mapM_cons,
        List.mapM_cons, hv', hsplit key v v' ⟨hkey, hv⟩ hv', ih hkeys]
  rw [servers, servers, raw_serverLoop]
  exact hloop _ fun key hkey => (range'.mem_keys _ _).mp hkey

end After

/-! ### When the order makes no difference -/

section Order

variable {γ : Type} (lib : DnsTextLibrary γ) (d : DnsState)

/-- The addresses that cannot be split give the same error. -/
def SameErrors : Prop :=
  ∀ key key' v v' err err', d.Entry key v → d.Entry key' v' →
    splitServer lib v = .error err → splitServer lib v' = .error err' → err = err'

/-- All servers are the same, or give the same error. -/
def SameServers : Prop :=
  ∀ key key' v v', d.Entry key v → d.Entry key' v' → splitServer lib v = splitServer lib v'

/-- No order gives a text that is written. -/
def NoneWritten (file : Body) : Prop :=
  ∀ range l, servers lib d range = .ok l →
    ¬ Rewrites lib.toDnsLibrary {} (serversText l) file

/-- The file and the error do not depend on the order, however the calls of the operating system
end. -/
def OrderFree (file : Body) : Prop :=
  ∀ steps range range', (updateDNSConfig lib steps range d file).result =
    (updateDNSConfig lib steps range' d file).result

/-- A node that is added again leaves the file. -/
def Stays (file : Body) : Prop :=
  ∀ range range',
    (updateDNSConfig lib {} range' d (updateDNSConfig lib {} range d file).file).file =
      (updateDNSConfig lib {} range d file).file

end Order

section Order

variable {γ : Type} {lib : DnsTextLibrary γ} {d : DnsState} {file : Body}

/-- The loop ends alike for all orders if all servers are the same. -/
theorem servers_eq_of_same (h : SameServers lib d) (range range' : RangeOrder String) :
    servers lib d range = servers lib d range' := by
  have hkeys : (range.keys d.raw.dnsMap).Perm (range'.keys d.raw.dnsMap) :=
    (List.perm_ext_iff_of_nodup (range.nodup_keys _) (range'.nodup_keys _)).mpr fun key => by
      rw [range.mem_keys, range'.mem_keys]
  have hlength := (hkeys.filterMap d.value).length_eq
  rcases hvisited : (range.keys d.raw.dnsMap).filterMap d.value with _ | ⟨v, rest⟩
  · rw [hvisited] at hlength
    rw [servers, servers, hvisited, List.eq_nil_of_length_eq_zero hlength.symm]
  · have hmem : v ∈ (range.keys d.raw.dnsMap).filterMap d.value := by
      rw [hvisited]
      exact List.mem_cons_self
    obtain ⟨key, hkey⟩ := mem_visited_iff.mp hmem
    refine mapM_eq_of_length_eq hlength (c := splitServer lib v) (fun v' hv' => ?_) fun v' hv' => ?_
    · obtain ⟨key', hkey'⟩ := mem_visited_iff.mp hv'
      exact h key' key v' v hkey' hkey
    · obtain ⟨key', hkey'⟩ := mem_visited_iff.mp hv'
      exact h key' key v' v hkey' hkey

/-- A call for the map of a node. -/
theorem result_of_map (hjson : d.raw.dnsJson = "") (hmap : d.raw.dnsMap ≠ ∅) (steps : DnsSteps)
    (range : RangeOrder String) :
    (updateDNSConfig lib steps range d file).result =
      match servers lib d range with
      | .error err => (file, some err)
      | .ok l => ((saveDnsConfig lib.toDnsLibrary steps (serversText l) file).1, none) := by
  rw [updateDNSConfig, if_neg (not_not.mpr hjson), if_pos hmap, servers,
    ← serverLoop_snd (range.nodup_keys _)]
  rcases serverLoop lib d (range.keys d.raw.dnsMap) with ⟨d', err | l⟩
  · rfl
  · rfl

theorem file_of_map (hjson : d.raw.dnsJson = "") (hmap : d.raw.dnsMap ≠ ∅)
    (range : RangeOrder String) :
    (updateDNSConfig lib {} range d file).file =
      match servers lib d range with
      | .error _ => file
      | .ok l => (saveDnsConfig lib.toDnsLibrary {} (serversText l) file).1 := by
  have hresult : (updateDNSConfig lib {} range d file).file = _ :=
    congrArg Prod.fst (result_of_map hjson hmap {} range)
  rw [hresult]
  rcases servers lib d range with err | l
  · rfl
  · rfl

/-- A text is in the file afterwards if it builds. -/
theorem saveDnsConfig_fst (lib : DnsLibrary γ) (dns file : Body) :
    (saveDnsConfig lib {} dns file).1 =
      if lib.build (lib.unmarshal dns).1 = none then dns else file := by
  by_cases h : Rewrites lib {} dns file
  · rw [saveDnsConfig_of_rewrites h, if_pos h.2.2]
    rfl
  · rw [(saveDnsConfig_of_not_rewrites h).1]
    split_ifs with hbuild
    · by_contra hne
      exact h ⟨rfl, hne, hbuild⟩
    · rfl

/-- Saving a text again leaves the file. -/
theorem saveDnsConfig_again (lib : DnsLibrary γ) (dns file : Body) :
    (saveDnsConfig lib {} dns (saveDnsConfig lib {} dns file).1).1 =
      (saveDnsConfig lib {} dns file).1 := by
  rw [saveDnsConfig_fst, saveDnsConfig_fst]
  split_ifs
  · rfl
  · rfl

theorem serversText_injective : Function.Injective serversText := by
  intro l l' h
  have hservers := congrArg DNSConfig.servers (marshalIndent_injective h)
  have hmap : l.map Sum.inr = l'.map (Sum.inr : DnsServer → String ⊕ DnsServer) :=
    (List.cons.inj (List.cons.inj hservers).2).2
  exact (List.map_injective_iff.mpr Sum.inr_injective) hmap

/-- If the file does not depend on the order, a text that is written is the text of every order. -/
theorem OrderFree.servers_eq (h : OrderFree lib d file) (hjson : d.raw.dnsJson = "")
    (hmap : d.raw.dnsMap ≠ ∅) {range : RangeOrder String} {l : List DnsServer}
    (hl : servers lib d range = .ok l)
    (hwritten : Rewrites lib.toDnsLibrary {} (serversText l) file) {range' : RangeOrder String}
    {l' : List DnsServer} (hl' : servers lib d range' = .ok l') : l' = l := by
  have hsame := h {} range range'
  rw [result_of_map hjson hmap, result_of_map hjson hmap, hl, hl'] at hsame
  have hfile := congrArg Prod.fst hsame
  dsimp only at hfile
  rw [saveDnsConfig_fst, saveDnsConfig_fst, if_pos hwritten.2.2] at hfile
  split_ifs at hfile
  · exact (serversText_injective hfile).symm
  · exact absurd hfile.symm hwritten.2.1

theorem OrderFree.sameErrors (h : OrderFree lib d file) (hjson : d.raw.dnsJson = "")
    (hmap : d.raw.dnsMap ≠ ∅) : SameErrors lib d := by
  intro key key' v v' err err' hkey hkey' herr herr'
  have hsame := h {} (RangeOrder.ascending.moveFirst key) (RangeOrder.ascending.moveFirst key')
  rw [result_of_map hjson hmap, result_of_map hjson hmap, servers_of_error _ hkey herr,
    servers_of_error _ hkey' herr'] at hsame
  exact Option.some.inj (congrArg Prod.snd hsame)

theorem OrderFree.sameServers_or (h : OrderFree lib d file) (hjson : d.raw.dnsJson = "")
    (hmap : d.raw.dnsMap ≠ ∅) : SameServers lib d ∨ NoneWritten lib d file := by
  by_contra hnot
  obtain ⟨hservers, hnone⟩ := not_or.mp hnot
  refine hservers fun key key' v v' hkey hkey' => ?_
  simp only [NoneWritten, not_forall, not_not] at hnone
  obtain ⟨range, l, hl, hwritten⟩ := hnone
  -- both entries come first in some order, and all orders give the text that is written
  obtain ⟨l₁, hl₁⟩ := exists_servers_of_ok hl (range.moveFirst key)
  obtain ⟨l₂, hl₂⟩ := exists_servers_of_ok hl (range.moveFirst key')
  obtain ⟨w, rest, hw, rfl⟩ := exists_servers_cons range hkey hl₁
  obtain ⟨w', rest', hw', rfl⟩ := exists_servers_cons range hkey' hl₂
  have heq := (h.servers_eq hjson hmap hl hwritten hl₁).trans
    (h.servers_eq hjson hmap hl hwritten hl₂).symm
  rw [hw, hw', (List.cons.inj heq).1]

/-- A text that is not written leaves the file, however the calls of the operating system end. -/
theorem saveDnsConfig_of_noneWritten (h : NoneWritten lib d file) {range : RangeOrder String}
    {l : List DnsServer} (hl : servers lib d range = .ok l) (steps : DnsSteps) :
    (saveDnsConfig lib.toDnsLibrary steps (serversText l) file).1 = file :=
  (saveDnsConfig_of_not_rewrites fun hrewrites =>
    h range l hl ⟨rfl, hrewrites.2.1, hrewrites.2.2⟩).1

theorem OrderFree.of_noneWritten (hjson : d.raw.dnsJson = "") (hmap : d.raw.dnsMap ≠ ∅)
    (herrors : SameErrors lib d) (h : NoneWritten lib d file) : OrderFree lib d file := by
  intro steps range range'
  rw [result_of_map hjson hmap, result_of_map hjson hmap]
  rcases hl : servers lib d range with err | l
  · rcases hl' : servers lib d range' with err' | l'
    · obtain ⟨key, v, hkey, hv⟩ := exists_entry_of_error hl
      obtain ⟨key', v', hkey', hv'⟩ := exists_entry_of_error hl'
      rw [herrors key key' v v' err err' hkey hkey' hv hv']
    · obtain ⟨l, hok⟩ := exists_servers_of_ok hl' range
      rw [hl] at hok
      cases hok
  · obtain ⟨l', hl'⟩ := exists_servers_of_ok hl range'
    rw [hl']
    dsimp only
    rw [saveDnsConfig_of_noneWritten h hl, saveDnsConfig_of_noneWritten h hl']

theorem Stays.of_noneWritten (hjson : d.raw.dnsJson = "") (hmap : d.raw.dnsMap ≠ ∅)
    (h : NoneWritten lib d file) : Stays lib d file := by
  have hfile (range : RangeOrder String) : (updateDNSConfig lib {} range d file).file = file := by
    rw [file_of_map hjson hmap]
    rcases hl : servers lib d range with err | l
    · rfl
    · exact saveDnsConfig_of_noneWritten h hl {}
  intro range range'
  rw [hfile, hfile]

/-- A call that gives the same text for all orders. -/
theorem Stays.of_servers_eq (hjson : d.raw.dnsJson = "") (hmap : d.raw.dnsMap ≠ ∅)
    (h : ∀ range range', servers lib d range = servers lib d range') : Stays lib d file := by
  intro range range'
  rw [file_of_map hjson hmap, file_of_map hjson hmap, h range' range]
  rcases servers lib d range with err | l
  · rfl
  · exact saveDnsConfig_again ..

/-- The text of a node does not depend on the map. -/
theorem orderFree_of_json (hjson : d.raw.dnsJson ≠ "") :
    OrderFree lib d file ∧ Stays lib d file := by
  constructor
  · intro steps range range'
    rw [updateDNSConfig, updateDNSConfig, if_pos hjson, if_pos hjson]
  · intro range range'
    rw [updateDNSConfig, updateDNSConfig, if_pos hjson, if_pos hjson]
    rcases lib.indent d.raw.dnsJson with err | prettyJSON
    · rfl
    · exact saveDnsConfig_again ..

/-- A node without DNS routes leaves the file. -/
theorem updateDNSConfig_of_empty (hjson : d.raw.dnsJson = "") (hmap : d.raw.dnsMap = ∅)
    (steps : DnsSteps) (range : RangeOrder String) :
    updateDNSConfig lib steps range d file = ⟨d, file, none⟩ := by
  rw [updateDNSConfig, if_neg (not_not.mpr hjson), if_neg (not_not.mpr hmap)]

end Order

/-- **The DNS file and the order of the map.** The file and the error do not depend on the order in
which the map is visited, and a node that is added again leaves the file, if and only if the node
has a text, or the addresses that cannot be split give the same error and the servers are all the
same or no text of them is written. -/
theorem updateDNSConfig_order_free_iff {γ : Type} (lib : DnsTextLibrary γ) (d : DnsState)
    (file : Body) : OrderFree lib d file ∧ Stays lib d file ↔
      d.raw.dnsJson ≠ "" ∨
        SameErrors lib d ∧ (SameServers lib d ∨ NoneWritten lib d file) := by
  by_cases hjson : d.raw.dnsJson = ""
  · rw [or_iff_right (not_not.mpr hjson)]
    by_cases hmap : d.raw.dnsMap = ∅
    · have hentry (key : String) (v : DnsServer) : ¬ d.Entry key v := by
        intro h
        have hmem := h.mem
        rw [hmap] at hmem
        exact Finmap.notMem_empty hmem
      refine iff_of_true ⟨fun steps range range' => ?_, fun range range' => ?_⟩ ⟨?_, .inl ?_⟩
      · rw [updateDNSConfig_of_empty hjson hmap, updateDNSConfig_of_empty hjson hmap]
      · rw [updateDNSConfig_of_empty hjson hmap, updateDNSConfig_of_empty hjson hmap]
      · exact fun key _ v _ _ _ h => absurd h (hentry key v)
      · exact fun key _ v _ h => absurd h (hentry key v)
    · constructor
      · rintro ⟨hfree, -⟩
        exact ⟨hfree.sameErrors hjson hmap, hfree.sameServers_or hjson hmap⟩
      · rintro ⟨herrors, hservers | hnone⟩
        · have heq := servers_eq_of_same hservers
          refine ⟨fun steps range range' => ?_, .of_servers_eq hjson hmap heq⟩
          rw [result_of_map hjson hmap, result_of_map hjson hmap, heq range range']
        · exact ⟨.of_noneWritten hjson hmap herrors hnone, .of_noneWritten hjson hmap hnone⟩
  · exact iff_of_true (orderFree_of_json hjson) (.inl hjson)

/-- A library that decodes every text but the empty one and builds every configuration, with the
`SplitHostPort` of Go. -/
def acceptingLibrary : DnsTextLibrary Unit where
  unmarshal data := ((), if data = [] then some "unexpected end of JSON input" else none)
  unmarshal_nil := by decide
  build _ := none
  empty := ()
  indent _ := .error "unexpected end of JSON input"
  splitHostPort address :=
    match (⟨':', '[', ']', by decide, by decide, by decide⟩ : Delimiters Char).splitHostPort
      address.toList with
    | .error err => .error ("address " ++ address ++ ": " ++ err.text)
    | .ok (host, port) => .ok (String.ofList host, String.ofList port)

/-- A node with two DNS routes. -/
def twoRoutes : DnsState where
  raw.dnsMap := ((∅ : GoMap String DnsEntry).insert "0" ⟨"8.8.8.8:53", ["a"]⟩).insert "1"
    ⟨"9.9.9.9", ["b"]⟩

theorem servers_after_twoRoutes :
    servers acceptingLibrary
        (serverLoop acceptingLibrary twoRoutes
          (RangeOrder.ascending.keys twoRoutes.raw.dnsMap)).1 (RangeOrder.ascending.moveFirst "1") =
      servers acceptingLibrary twoRoutes (RangeOrder.ascending.moveFirst "1") := by
  have hloop : (serverLoop acceptingLibrary twoRoutes
      (RangeOrder.ascending.keys twoRoutes.raw.dnsMap)).2 =
        .ok [⟨"8.8.8.8", ["a"], some 53⟩, ⟨"9.9.9.9", ["b"], none⟩] := by decide +kernel
  refine servers_after hloop ?_ _
  rintro key v v' ⟨hkey, hv⟩ hsplit
  obtain rfl | rfl : key = "1" ∨ key = "0" := by
    rw [twoRoutes, Finmap.mem_insert, Finmap.mem_insert] at hkey
    exact hkey.imp_right fun h => h.resolve_right Finmap.notMem_empty
  · have hvalue : twoRoutes.value "1" = some ⟨"9.9.9.9", ["b"], none⟩ := by decide +kernel
    have hserver : splitServer acceptingLibrary ⟨"9.9.9.9", ["b"], none⟩ =
        .ok ⟨"9.9.9.9", ["b"], none⟩ := by decide +kernel
    obtain rfl := Option.some.inj (hvalue.symm.trans hv)
    obtain rfl := Except.ok.inj (hserver.symm.trans hsplit)
    exact hserver
  · have hvalue : twoRoutes.value "0" = some ⟨"8.8.8.8:53", ["a"], none⟩ := by decide +kernel
    have hserver : splitServer acceptingLibrary ⟨"8.8.8.8:53", ["a"], none⟩ =
        .ok ⟨"8.8.8.8", ["a"], some 53⟩ := by decide +kernel
    obtain rfl := Option.some.inj (hvalue.symm.trans hv)
    obtain rfl := Except.ok.inj (hserver.symm.trans hsplit)
    decide +kernel

/-- **Two orders.** For a node with two DNS routes the two orders give two texts. The node is added
again in the other order, and the file is rewritten. -/
theorem updateDNSConfig_depends_on_order :
    let range := RangeOrder.ascending
    let range' := range.moveFirst "1"
    let update := fun range file => updateDNSConfig acceptingLibrary {} range twoRoutes file
    servers acceptingLibrary twoRoutes range =
        .ok [⟨"8.8.8.8", ["a"], some 53⟩, ⟨"9.9.9.9", ["b"], none⟩] ∧
      servers acceptingLibrary twoRoutes range' =
        .ok [⟨"9.9.9.9", ["b"], none⟩, ⟨"8.8.8.8", ["a"], some 53⟩] ∧
      (update range []).err = none ∧ (update range' []).err = none ∧
      (update range []).file ≠ (update range' []).file ∧
      (update range' (update range []).file).file ≠ (update range []).file := by
  decide +kernel

end Tox.Core.XrayDns
