import Tox.Foundation.AddressText
import Tox.Panel.Atoi

/-!
# SOCKS5 UDP encapsulation

The mieru core tunnels UDP in SOCKS5 datagrams: `buildSocks5UDP` wraps what a remote address has
sent, and `parseSocks5UDP` unwraps what a client sends. The address is written in one of three
forms of different lengths that are chosen from its text: four bytes for an IPv4 address, sixteen
for an IPv6 address, and a length with the text itself for everything else, such as an address
with a zone.

The textual forms of addresses are those of Go's `net` package. `SplitHostPort` inverts
`JoinHostPort` on every host without brackets, so that only a zone can keep an address from being
split.
-/

namespace Tox.Core.Socks5

open Tox.Foundation

abbrev Bytes : Type := List UInt8

/-! ### Addresses and their texts -/

def v4InV6Prefix : Bytes := [0, 0, 0, 0, 0, 0, 0, 0, 0, 0, 0xff, 0xff]

/-- The four bytes of an IPv4 address, also of one in its sixteen-byte form. -/
def to4 (ip : Bytes) : Option Bytes :=
  if ip.length = 4 then some ip
  else if ip.length = 16 ∧ ip.take 12 = v4InV6Prefix then some (ip.drop 12)
  else none

def to16 (ip : Bytes) : Option Bytes :=
  if ip.length = 4 then some (v4InV6Prefix ++ ip)
  else if ip.length = 16 then some ip
  else none

/-- The text of an address of four or sixteen bytes. -/
def ipString (ip : Bytes) : Bytes :=
  match to4 ip with
  | some ip4 => v4Text ip4
  | none => v6Text ip

def parseIP (text : Bytes) : Option Bytes := Foundation.parseIP v4InV6Prefix text

/-- The colon and the brackets. -/
def ascii : Delimiters UInt8 := ⟨0x3a, 0x5b, 0x5d, by decide, by decide, by decide⟩

/-- The bytes as a text. -/
def text (bs : Bytes) : String := String.ofList (bs.map fun b => Char.ofNat b.toNat)

def joinHostPort (host port : Bytes) : Bytes := ascii.joinHostPort host port

def splitHostPort (addr : Bytes) : Except String (Bytes × Bytes) :=
  (ascii.splitHostPort addr).mapError fun err => "address " ++ text addr ++ ": " ++ err.text

/-- A UDP source address: an IP address or none, a port and a zone. -/
structure UDPAddr where
  ip : Bytes
  port : ℕ
  zone : Bytes
  length_ip : ip.length = 0 ∨ ip.length = 4 ∨ ip.length = 16
  port_le : port ≤ 65535

namespace UDPAddr

def host (addr : UDPAddr) : Bytes :=
  (if addr.ip = [] then [] else ipString addr.ip) ++
    if addr.zone ≠ [] then 0x25 :: addr.zone else []

def string (addr : UDPAddr) : Bytes :=
  joinHostPort addr.host (decimal addr.port)

end UDPAddr

/-! ### The two functions -/

/-- `strconv.Atoi` with the reason of its error. -/
def atoi (s : Bytes) : Except String ℤ :=
  match Panel.integerOf (text s) with
  | none => .error "invalid syntax"
  | some n => if -2 ^ 63 ≤ n ∧ n < 2 ^ 63 then .ok n else .error "value out of range"

/-- The conversion of an `int` to a byte. -/
def byte (n : ℤ) : UInt8 :=
  UInt8.ofNat (n % 2 ^ 8).toNat

/-- `copy(buf[i:], src)`. -/
def copyAt (buf : Bytes) (i : ℕ) (src : Bytes) : Bytes :=
  buf.take i ++ src.take (buf.length - i) ++ buf.drop (i + src.length)

/-- The switch of `parseSocks5UDP`: the host and the offset behind it. -/
def parseHost (b : Bytes) : Except String (Bytes × ℕ) :=
  let atyp := b.getD 3 0
  if atyp = 1 then
    if b.length < 10 then .error "IPv4 packet too short"
    else .ok (ipString ((b.drop 4).take 4), 8)
  else if atyp = 3 then
    let domainLen := (b.getD 4 0).toNat
    if b.length < 5 + domainLen + 2 then .error "Domain packet too short"
    else .ok ((b.drop 5).take domainLen, 5 + domainLen)
  else if atyp = 4 then
    if b.length < 22 then .error "IPv6 packet too short"
    else .ok (ipString ((b.drop 4).take 16), 20)
  else .error ("unsupported ATYP: " ++ toString atyp.toNat)

/-- The address and the payload of a packet. The checks of the length keep every index in range. -/
def parseSocks5UDP (b : Bytes) : Except String (Bytes × Bytes) :=
  if b.length < 6 then .error "packet too short"
  else
    match parseHost b with
    | .error err => .error err
    | .ok (host, offset) =>
      let port := (b.getD offset 0).toNat <<< 8 ||| (b.getD (offset + 1) 0).toNat
      .ok (joinHostPort host (decimal port), b.drop (offset + 2))

/-- The kind of the address and its bytes. -/
def addrBytes (hostStr : Bytes) : UInt8 × Bytes :=
  match parseIP hostStr with
  | some ip =>
    match to4 ip with
    | some ip4 => (1, ip4)
    | none => (4, (to16 ip).getD [])
  | none => (3, UInt8.ofNat hostStr.length :: hostStr)

/-- The writes of `buildSocks5UDP` into its buffer. -/
def encapsulate (atyp : UInt8) (addrBytes : Bytes) (port : ℤ) (payload : Bytes) : Bytes :=
  let buf := List.replicate (3 + 1 + addrBytes.length + 2 + payload.length) 0
  let buf := buf.set 3 atyp
  let buf := copyAt buf 4 addrBytes
  let offset := 4 + addrBytes.length
  let buf := buf.set offset (byte (port / 2 ^ 8))
  let buf := buf.set (offset + 1) (byte port)
  copyAt buf (offset + 2) payload

def buildSocks5UDP (addr payload : Bytes) : Except String Bytes := do
  let (hostStr, portStr) ← splitHostPort addr
  let port ← atoi portStr
  let (atyp, bytes) := addrBytes hostStr
  pure (encapsulate atyp bytes port payload)

/-! ### The packet -/

/-- The layout of a packet: three zero bytes, the kind of the address, the address, the port in
network order and the payload. -/
def packet (atyp : UInt8) (addrBytes : Bytes) (port : ℤ) (payload : Bytes) : Bytes :=
  [0, 0, 0, atyp] ++ addrBytes ++ [byte (port / 2 ^ 8), byte port] ++ payload

/-- The part of the buffer that has not been written yet. -/
def zeros (n : ℕ) : Bytes :=
  List.replicate n 0

/-- A byte behind the part that has been written. -/
theorem set_zeros (pre : Bytes) (x : UInt8) {i n k : ℕ} (hi : i = pre.length) (hn : n = k + 1) :
    (pre ++ zeros n).set i x = pre ++ [x] ++ zeros k := by
  subst hi hn
  rw [List.set_append_right _ _ le_rfl, Nat.sub_self, List.append_assoc]
  rfl

/-- Several bytes behind the part that has been written. -/
theorem copyAt_zeros (pre src : Bytes) {i n k : ℕ} (hi : i = pre.length)
    (hn : n = src.length + k) : copyAt (pre ++ zeros n) i src = pre ++ src ++ zeros k := by
  subst hi hn
  have hroom : src.length ≤ (pre ++ zeros (src.length + k)).length - pre.length := by
    rw [List.length_append, zeros, List.length_replicate]
    omega
  have hrest : (pre ++ zeros (src.length + k)).drop (pre.length + src.length) = zeros k := by
    rw [← List.drop_drop, List.drop_left, zeros, List.drop_replicate, Nat.add_sub_cancel_left,
      zeros]
  rw [copyAt, List.take_left, List.take_of_length_le hroom, hrest]

/-- The writes fill the zeroed buffer from the front. -/
theorem encapsulate_eq (atyp : UInt8) (addrBytes : Bytes) (port : ℤ) (payload : Bytes) :
    encapsulate atyp addrBytes port payload = packet atyp addrBytes port payload := by
  have hmake : List.replicate (3 + 1 + addrBytes.length + 2 + payload.length) (0 : UInt8) =
      [0, 0, 0] ++ zeros (1 + addrBytes.length + 2 + payload.length) := by
    simp only [zeros, List.replicate_add, List.append_assoc]
    rfl
  have hatyp : 3 = ([0, 0, 0] : Bytes).length := rfl
  have haddr : 4 = ([0, 0, 0] ++ [atyp]).length := rfl
  have hoffset : 4 + addrBytes.length = ([0, 0, 0] ++ [atyp] ++ addrBytes).length := by
    rw [List.length_append, ← haddr]
  have hlow : 4 + addrBytes.length + 1 =
      ([0, 0, 0] ++ [atyp] ++ addrBytes ++ [byte (port / 2 ^ 8)]).length := by
    rw [List.length_append, ← hoffset, List.length_singleton]
  have hpayload : 4 + addrBytes.length + 2 =
      ([0, 0, 0] ++ [atyp] ++ addrBytes ++ [byte (port / 2 ^ 8)] ++ [byte port]).length := by
    rw [List.length_append, ← hlow, List.length_singleton]
  simp only [encapsulate]
  rw [hmake, set_zeros _ _ hatyp (by omega : _ = addrBytes.length + 2 + payload.length + 1),
    copyAt_zeros _ _ haddr (by omega : _ = addrBytes.length + (2 + payload.length)),
    set_zeros _ _ hoffset (by omega : _ = 1 + payload.length + 1),
    set_zeros _ _ hlow (by omega : _ = payload.length + 1),
    copyAt_zeros _ _ hpayload (by omega : _ = payload.length + 0)]
  simp [packet, zeros]

/-! ### Reading a packet -/

theorem getD_drop (b : Bytes) (i k : ℕ) : (b.drop i).getD k 0 = b.getD (i + k) 0 := by
  rw [List.getD_eq_getElem?_getD, List.getElem?_drop, List.getD_eq_getElem?_getD]

/-- What is left of a packet behind the address. -/
theorem drop_packet (atyp : UInt8) (addrBytes : Bytes) (port : ℤ) (payload : Bytes) :
    (packet atyp addrBytes port payload).drop (4 + addrBytes.length) =
      byte (port / 2 ^ 8) :: byte port :: payload := by
  have hlen : 4 + addrBytes.length = ([0, 0, 0, atyp] ++ addrBytes).length := by
    rw [List.length_append]
    rfl
  rw [packet, List.append_assoc, hlen, List.drop_left]
  rfl

/-- The two bytes of a port in network order. -/
theorem port_bytes {port : ℕ} (h : port ≤ 65535) :
    (byte ((port : ℤ) / 2 ^ 8)).toNat <<< 8 ||| (byte port).toNat = port := by
  have hhigh : (byte ((port : ℤ) / 2 ^ 8)).toNat = port / 2 ^ 8 := by
    rw [byte, UInt8.toNat_ofNat']
    omega
  have hlow : (byte port).toNat = port % 2 ^ 8 := by
    rw [byte, UInt8.toNat_ofNat']
    omega
  rw [hhigh, hlow, Nat.or_comm, or_shiftLeft_eq (Nat.mod_lt _ (by decide))]
  omega

/-- The port and the payload are found behind an address that is read as `host`. -/
theorem parseSocks5UDP_packet {atyp : UInt8} {addrBytes host payload : Bytes}
    {port : ℕ} (hport : port ≤ 65535)
    (hhost : parseHost (packet atyp addrBytes port payload) =
      .ok (host, 4 + addrBytes.length)) :
    parseSocks5UDP (packet atyp addrBytes port payload) =
      .ok (joinHostPort host (decimal port), payload) := by
  have hlen : ¬ (packet atyp addrBytes port payload).length < 6 := by
    simp only [packet, List.length_append, List.length_cons, List.length_nil]
    omega
  have hrest := drop_packet atyp addrBytes port payload
  have hhigh := getD_drop (packet atyp addrBytes port payload) (4 + addrBytes.length) 0
  have hlow := getD_drop (packet atyp addrBytes port payload) (4 + addrBytes.length) 1
  have hdrop : (packet atyp addrBytes port payload).drop (4 + addrBytes.length + 2) =
      payload := by
    rw [← List.drop_drop, hrest]
    rfl
  rw [hrest, Nat.add_zero] at hhigh
  rw [hrest] at hlow
  change byte ((port : ℤ) / 2 ^ 8) = _ at hhigh
  change byte port = _ at hlow
  rw [parseSocks5UDP, if_neg hlen, hhost]
  simp only [← hhigh, ← hlow, hdrop, port_bytes hport]

theorem length_packet (atyp : UInt8) (addrBytes : Bytes) (port : ℤ) (payload : Bytes) :
    (packet atyp addrBytes port payload).length = 4 + addrBytes.length + 2 + payload.length := by
  simp only [packet, List.length_append, List.length_cons, List.length_nil]

/-- The bytes of the address, cut out of a packet at their offset. -/
theorem take_drop_packet (atyp : UInt8) (addrBytes : Bytes) (port : ℤ) (payload : Bytes) :
    ((packet atyp addrBytes port payload).drop 4).take addrBytes.length = addrBytes := by
  have hdrop : (packet atyp addrBytes port payload).drop 4 =
      addrBytes ++ ([byte (port / 2 ^ 8), byte port] ++ payload) := by
    rw [packet, List.append_assoc, List.append_assoc]
    rfl
  rw [hdrop, List.take_left]

section ParseHost

variable (port : ℤ) (payload : Bytes)

theorem parseHost_v4 {ip4 : Bytes} (h : ip4.length = 4) :
    parseHost (packet 1 ip4 port payload) = .ok (ipString ip4, 4 + ip4.length) := by
  have hlen : ¬ (packet 1 ip4 port payload).length < 10 := by
    rw [length_packet]
    omega
  have hip := take_drop_packet 1 ip4 port payload
  rw [h] at hip
  change (if _ then _ else Except.ok (ipString _, 8)) = _
  rw [if_neg hlen, hip, h]

theorem parseHost_v6 {ip : Bytes} (h : ip.length = 16) :
    parseHost (packet 4 ip port payload) = .ok (ipString ip, 4 + ip.length) := by
  have hlen : ¬ (packet 4 ip port payload).length < 22 := by
    rw [length_packet]
    omega
  have hip := take_drop_packet 4 ip port payload
  rw [h] at hip
  change (if _ then _ else Except.ok (ipString _, 20)) = _
  rw [if_neg hlen, hip, h]

theorem parseHost_domain {host : Bytes} (h : host.length ≤ 255) :
    parseHost (packet 3 (UInt8.ofNat host.length :: host) port payload) =
      .ok (host, 4 + (host.length + 1)) := by
  have hbyte : (UInt8.ofNat host.length).toNat = host.length :=
    UInt8.toNat_ofNat_of_lt' (Nat.lt_succ_of_le h)
  have hlen : ¬ (packet 3 (UInt8.ofNat host.length :: host) port payload).length <
      5 + host.length + 2 := by
    rw [length_packet, List.length_cons]
    omega
  have hhost : ((packet 3 (UInt8.ofNat host.length :: host) port payload).drop 5).take
      host.length = host := by
    have hdrop : (packet 3 (UInt8.ofNat host.length :: host) port payload).drop 5 =
        host ++ ([byte (port / 2 ^ 8), byte port] ++ payload) := by
      rw [packet, List.append_assoc, List.append_assoc]
      rfl
    rw [hdrop, List.take_left]
  have hget : (packet 3 (UInt8.ofNat host.length :: host) port payload).getD 4 0 =
      UInt8.ofNat host.length := rfl
  change (if _ then _ else Except.ok (_, 5 + (List.getD _ 4 (0 : UInt8)).toNat)) = _
  rw [hget, hbyte, if_neg hlen, hhost]
  congr 2
  omega

end ParseHost

/-! ### The round trip -/

theorem char_ofNat_byte (b : UInt8) :
    ((Char.ofNat b.toNat).isDigit = true ↔ 48 ≤ b ∧ b ≤ 57) ∧
      (Char.ofNat b.toNat).toNat = b.toNat := by
  have hchar : ∀ k < 256, ((Char.ofNat k).isDigit = true ↔ 48 ≤ k ∧ k ≤ 57) ∧
      (Char.ofNat k).toNat = k := by decide +kernel
  rw [UInt8.le_iff_toNat_le, UInt8.le_iff_toNat_le]
  exact hchar b.toNat b.toNat_lt

/-- Digits in bytes are read like the characters of their text. -/
theorem digitsValue_map (bs : Bytes) (n : ℕ) :
    Panel.digitsValue (bs.map fun b => Char.ofNat b.toNat) n = bs.foldlM decimalStep n := by
  induction bs generalizing n with
  | nil => rfl
  | cons b bs ih =>
    obtain ⟨hdigit, hnat⟩ := char_ofNat_byte b
    rw [List.map_cons, Panel.digitsValue, List.foldlM_cons, decimalStep, hnat]
    by_cases hb : 48 ≤ b ∧ b ≤ 57
    · rw [if_pos hb, if_pos (hdigit.mpr hb), ih, Nat.mul_comm]
      rfl
    · rw [if_neg hb, if_neg (mt hdigit.mp hb)]
      rfl

@[simp]
theorem atoi_decimal {n : ℕ} (h : n < 2 ^ 63) : atoi (decimal n) = .ok (n : ℤ) := by
  obtain ⟨b, bs, hdecimal, hb⟩ := exists_decimal_eq_cons n
  have hsign : ∀ c : Char, c.toNat < 48 → Char.ofNat b.toNat ≠ c := by
    rintro _ hc rfl
    rw [(char_ofNat_byte b).2] at hc
    exact absurd hc (Nat.not_lt.mpr (UInt8.le_iff_toNat_le.mp hb))
  have hinteger : Panel.integerOf (text (decimal n)) = some (n : ℤ) := by
    have hvalue : Panel.digitsValue ((decimal n).map fun b => Char.ofNat b.toNat) 0 = some n :=
      (digitsValue_map _ 0).trans (parseDecimal_decimal n)
    rw [Panel.integerOf, text, String.toList_ofList]
    rw [hdecimal, List.map_cons] at hvalue ⊢
    split
    case h_1 heq => exact absurd (List.cons.inj heq).1 (hsign '-' (by decide))
    case h_2 heq => exact absurd (List.cons.inj heq).1 (hsign '+' (by decide))
    case h_3 heq => rw [← heq, hvalue, Option.map_some]
    case h_4 heq => cases heq
  have hrange : -2 ^ 63 ≤ (n : ℤ) ∧ (n : ℤ) < 2 ^ 63 := by omega
  rw [atoi, hinteger]
  exact if_pos hrange

theorem length_of_to4 {ip ip4 : Bytes} (h : to4 ip = some ip4) : ip4.length = 4 := by
  rw [to4] at h
  split at h
  case isTrue hlen =>
    cases h
    exact hlen
  case isFalse =>
    split at h
    case isTrue hmapped =>
      cases h
      rw [List.length_drop, hmapped.1]
    case isFalse => cases h

theorem to4_mapped {ip4 : Bytes} (h : ip4.length = 4) : to4 (v4InV6Prefix ++ ip4) = some ip4 := by
  have hlen : (v4InV6Prefix ++ ip4).length = 16 := by
    rw [List.length_append, h]
    rfl
  rw [to4, if_neg (by omega), if_pos ⟨hlen, List.take_left' rfl⟩]
  rfl

/-- A host that is parsed back as itself: the text of an address, or a text of at most 255 bytes
that is not one. -/
theorem parseHost_addrBytes (port : ℤ) (payload : Bytes) {host : Bytes}
    (h : (∃ ip, (ip.length = 4 ∨ ip.length = 16) ∧ host = ipString ip) ∨
      (parseIP host = none ∧ host.length ≤ 255)) :
    parseHost (packet (addrBytes host).1 (addrBytes host).2 port payload) =
      .ok (host, 4 + (addrBytes host).2.length) := by
  rcases h with ⟨ip, hlen, rfl⟩ | ⟨hnone, hlen⟩
  · rcases hip : to4 ip with _ | ip4
    · have hlen : ip.length = 16 := hlen.resolve_left fun h4 => by
        rw [to4, if_pos h4] at hip
        cases hip
      have hstring : ipString ip = v6Text ip := by
        rw [ipString, hip]
      have hbytes : addrBytes (ipString ip) = (4, ip) := by
        rw [addrBytes, hstring, parseIP, parseIP_v6Text _ hlen]
        simp only [hip, to16, hlen]
        rfl
      rw [hbytes]
      exact parseHost_v6 port payload hlen
    · have hlen := length_of_to4 hip
      have hstring : ipString ip = v4Text ip4 := by
        rw [ipString, hip]
      have hstring4 : ipString ip4 = v4Text ip4 := by
        rw [ipString, to4, if_pos hlen]
      have hbytes : addrBytes (ipString ip) = (1, ip4) := by
        rw [addrBytes, hstring, parseIP, parseIP_v4Text _ hlen]
        simp only [to4_mapped hlen]
      rw [hbytes, hstring, ← hstring4]
      exact parseHost_v4 port payload hlen
  · have hbytes : addrBytes host = (3, UInt8.ofNat host.length :: host) := by
      rw [addrBytes, hnone]
    rw [hbytes]
    exact parseHost_domain port payload hlen

/-- The text of a source address is an address's own text, unless it has a zone or no address. -/
theorem host_cases (addr : UDPAddr) (h : addr.zone ≠ [] → addr.host.length ≤ 255) :
    (∃ ip, (ip.length = 4 ∨ ip.length = 16) ∧ addr.host = ipString ip) ∨
      (parseIP addr.host = none ∧ addr.host.length ≤ 255) := by
  by_cases hzone : addr.zone = []
  · by_cases hip : addr.ip = []
    · have hhost : addr.host = [] := by
        rw [UDPAddr.host, if_pos hip, if_neg (not_not_intro hzone), List.append_nil]
      rw [hhost]
      exact .inr ⟨rfl, Nat.zero_le _⟩
    · have hhost : addr.host = ipString addr.ip := by
        rw [UDPAddr.host, if_neg hip, if_neg (not_not_intro hzone), List.append_nil]
      have hpos := List.length_pos_of_ne_nil hip
      exact .inl ⟨addr.ip, addr.length_ip.resolve_left (by omega), hhost⟩
  · have hmem : 0x25 ∈ addr.host := by
      rw [UDPAddr.host, if_pos hzone]
      exact List.mem_append_right _ List.mem_cons_self
    have hnone : parseIP addr.host = none :=
      Option.eq_none_iff_forall_ne_some.mpr fun ip hparse =>
        absurd (isAddressByte_of_parseIP hparse _ hmem) (by decide)
    exact .inr ⟨hnone, h hzone⟩

/-- The text of an address has no other bytes than digits, points and colons. -/
theorem isAddressByte_of_mem_ipString {ip : Bytes} (h : ip.length = 4 ∨ ip.length = 16) :
    ∀ c ∈ ipString ip, isAddressByte c = true := by
  rcases hip : to4 ip with _ | ip4
  · have hlen : ip.length = 16 := h.resolve_left fun h4 => by
      rw [to4, if_pos h4] at hip
      cases hip
    rw [ipString, hip]
    exact isAddressByte_of_parseIP (parseIP_v6Text v4InV6Prefix hlen)
  · rw [ipString, hip]
    exact isAddressByte_of_parseIP (parseIP_v4Text v4InV6Prefix (length_of_to4 hip))

/-- A bracket in the host of a source address is one of its zone. -/
theorem mem_zone_of_mem_host {addr : UDPAddr} {c : UInt8} (hc : c = 0x5b ∨ c = 0x5d)
    (h : c ∈ addr.host) : c ∈ addr.zone := by
  have hbyte : isAddressByte c ≠ true ∧ c ≠ 0x25 := by
    rcases hc with rfl | rfl <;> decide
  rw [UDPAddr.host] at h
  rcases List.mem_append.mp h with h | h
  · split_ifs at h with hip
    · exact absurd h List.not_mem_nil
    · have hpos := List.length_pos_of_ne_nil hip
      have hlen := addr.length_ip.resolve_left (by omega)
      exact absurd (isAddressByte_of_mem_ipString hlen c h) hbyte.1
  · split_ifs at h
    · exact (List.mem_cons.mp h).resolve_left hbyte.2
    · exact absurd h List.not_mem_nil

/-- What is built for a source address is parsed back as its text and the payload. -/
theorem parseSocks5UDP_buildSocks5UDP (addr : UDPAddr) (payload : Bytes)
    (h : addr.zone ≠ [] → addr.host.length ≤ 255)
    (hzone : 0x5b ∉ addr.zone ∧ 0x5d ∉ addr.zone) :
    buildSocks5UDP addr.string payload >>= parseSocks5UDP = .ok (addr.string, payload) := by
  have hport : addr.port < 2 ^ 63 := lt_of_le_of_lt addr.port_le (by decide)
  have hsplit : splitHostPort addr.string = .ok (addr.host, decimal addr.port) := by
    rw [splitHostPort, UDPAddr.string, joinHostPort, ascii.splitHostPort_joinHostPort
      (fun hleft => hzone.1 (mem_zone_of_mem_host (.inl rfl) hleft))
      (fun hright => hzone.2 (mem_zone_of_mem_host (.inr rfl) hright))
      (ne_of_mem_decimal (.inr (by decide))) (ne_of_mem_decimal (.inr (by decide)))
      (ne_of_mem_decimal (.inr (by decide)))]
    rfl
  have hbuild : buildSocks5UDP addr.string payload =
      .ok (packet (addrBytes addr.host).1 (addrBytes addr.host).2 addr.port payload) := by
    rw [buildSocks5UDP, hsplit]
    change (atoi (decimal addr.port) >>= _) = _
    rw [atoi_decimal hport, ← encapsulate_eq]
    rfl
  rw [hbuild]
  exact parseSocks5UDP_packet addr.port_le
    (parseHost_addrBytes addr.port payload (host_cases addr h))

/-- The address `fe80::1` on the interface `eth0`. -/
def linkLocal : UDPAddr where
  ip := [0xfe, 0x80, 0, 0, 0, 0, 0, 0, 0, 0, 0, 0, 0, 0, 0, 1]
  port := 53
  zone := [0x65, 0x74, 0x68, 0x30]
  length_ip := by decide
  port_le := by decide

theorem linkLocal_roundTrip : text linkLocal.host = "fe80::1%eth0" ∧
    buildSocks5UDP linkLocal.string [1, 2, 3] >>= parseSocks5UDP =
      .ok (linkLocal.string, [1, 2, 3]) :=
  ⟨by decide +kernel, parseSocks5UDP_buildSocks5UDP linkLocal [1, 2, 3]
    (fun _ => by decide +kernel) (by decide)⟩

end Tox.Core.Socks5
