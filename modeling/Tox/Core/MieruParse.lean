import Tox.Core.MieruPacket
import Tox.Foundation.Outcome
import Tox.Foundation.Slice

/-!
# The bounds of `parseSocks5UDP`

`parseSocks5UDP` once more, with every index and every cut of the packet checked, so that one that
lies outside is a panic. The texts of addresses and of pairs of a host and a port are arbitrary
functions here.

A packet that can be read is put together from three bytes that nobody looks at, the kind of the
address, the address, the two bytes of the port and the payload (`IsPacket`). The parser never
panics, reads exactly these packets, and finds exactly these parts (`parseSocks5UDP_exact`).
-/

namespace Tox.Core.Socks5.Checked

open Tox.Foundation

/-- The panic of an index or a bound outside the slice. -/
inductive Panic
  | outOfRange
deriving DecidableEq, Repr

/-- An element of the packet. -/
def byteAt (b : Bytes) (i : ℤ) : Outcome String Panic UInt8 := Slice.get .outOfRange b i

/-- A part of the packet. -/
def part (b : Bytes) (lo hi : ℤ) : Outcome String Panic Bytes := Slice.cut .outOfRange b lo hi

section

variable (ipString : Bytes → Bytes) (joinHostPort : Bytes → Bytes → Bytes)

/-- The branch for an address of fixed length that ends at `offset`. -/
def parseIP (limit offset : ℕ) (message : String) (b : Bytes) :
    Outcome String Panic (Bytes × ℕ) :=
  if b.length < limit then .fail message
  else do
    let ip ← part b 4 offset
    pure (ipString ip, offset)

def parseIPv4 (b : Bytes) : Outcome String Panic (Bytes × ℕ) :=
  parseIP ipString 10 8 "IPv4 packet too short" b

def parseIPv6 (b : Bytes) : Outcome String Panic (Bytes × ℕ) :=
  parseIP ipString 22 20 "IPv6 packet too short" b

def parseDomain (b : Bytes) : Outcome String Panic (Bytes × ℕ) := do
  let c ← byteAt b 4
  let domainLen := c.toNat
  if b.length < 5 + domainLen + 2 then .fail "Domain packet too short"
  else
    let host ← part b 5 (5 + domainLen : ℕ)
    pure (host, 5 + domainLen)

/-- The switch of `parseSocks5UDP`: the host and the offset behind it. -/
def parseHost (atyp : UInt8) (b : Bytes) : Outcome String Panic (Bytes × ℕ) :=
  if atyp = 1 then parseIPv4 ipString b
  else if atyp = 3 then parseDomain b
  else if atyp = 4 then parseIPv6 ipString b
  else .fail ("unsupported ATYP: " ++ toString atyp.toNat)

def parseSocks5UDP (b : Bytes) : Outcome String Panic (Bytes × Bytes) :=
  if b.length < 6 then .fail "packet too short"
  else do
    let atyp ← byteAt b 3
    let (host, offset) ← parseHost ipString atyp b
    let high ← byteAt b offset
    let low ← byteAt b (offset + 1)
    let port := high.toNat <<< 8 ||| low.toNat
    let payload ← part b (offset + 2) b.length
    pure (joinHostPort host (decimal port), payload)

/-! ### Packets -/

/-- The bytes of an address of the given kind, and the host for which they stand. -/
inductive Address : UInt8 → Bytes → Bytes → Prop
  | v4 {ip : Bytes} (h : ip.length = 4) : Address 1 ip (ipString ip)
  | domain {c : UInt8} {host : Bytes} (h : c.toNat = host.length) : Address 3 (c :: host) host
  | v6 {ip : Bytes} (h : ip.length = 16) : Address 4 ip (ipString ip)

/-- The packet with the given host, port and payload. -/
def IsPacket (b host : Bytes) (port : ℕ) (payload : Bytes) : Prop :=
  ∃ (pre : Bytes) (atyp : UInt8) (address : Bytes) (high low : UInt8),
    pre.length = 3 ∧ Address ipString atyp address host ∧ port = high.toNat * 256 + low.toNat ∧
      b = pre ++ [atyp] ++ address ++ [high, low] ++ payload

/-- The kind of the address is known, and the packet is long enough for it and for the port. -/
def LongEnough (b : Bytes) : Prop :=
  (b[3]? = some 1 ∧ 10 ≤ b.length) ∨
    (b[3]? = some 3 ∧ ∃ c, b[4]? = some c ∧ 5 + c.toNat + 2 ≤ b.length) ∨
    (b[3]? = some 4 ∧ 22 ≤ b.length)

variable {ipString}

/-! ### Packets are read -/

theorem parseIP_append {x ip rest : Bytes} {n : ℕ} (hx : x.length = 4) (hip : ip.length = n)
    (hrest : 2 ≤ rest.length) (message : String) :
    parseIP ipString (4 + n + 2) (4 + n) message (x ++ ip ++ rest) =
      .ok (ipString ip, 4 + n) := by
  have hlength : ¬ (x ++ ip ++ rest).length < 4 + n + 2 := by
    simp only [List.length_append]
    omega
  have hpart : part (x ++ ip ++ rest) 4 (4 + n : ℕ) = .ok ip :=
    Slice.cut_append x ip rest (by omega) (by omega)
  rw [parseIP, if_neg hlength, hpart]
  rfl

theorem parseDomain_append {x host rest : Bytes} {c : UInt8} (hx : x.length = 4)
    (hc : c.toNat = host.length) (hrest : 2 ≤ rest.length) :
    parseDomain (x ++ c :: host ++ rest) = .ok (host, 5 + host.length) := by
  have hbyte : byteAt (x ++ c :: host ++ rest) 4 = .ok c := by
    rw [List.append_assoc]
    exact Slice.get_append x c (host ++ rest) (by omega)
  have hlength : ¬ (x ++ c :: host ++ rest).length < 5 + host.length + 2 := by
    simp only [List.length_append, List.length_cons]
    omega
  have hpart : part (x ++ c :: host ++ rest) 5 (5 + host.length : ℕ) = .ok host := by
    rw [List.append_cons x]
    exact Slice.cut_append (x ++ [c]) host rest (by simp; omega) (by simp; omega)
  rw [parseDomain, hbyte, Outcome.ok_bind, hc, if_neg hlength, hpart]
  rfl

/-- The host of an address behind four bytes, and the offset behind it. -/
theorem parseHost_append {x address host rest : Bytes} {atyp : UInt8} (hx : x.length = 4)
    (h : Address ipString atyp address host) (hrest : 2 ≤ rest.length) :
    parseHost ipString atyp (x ++ address ++ rest) = .ok (host, 4 + address.length) := by
  cases h with
  | v4 hip =>
    rw [hip]
    exact parseIP_append hx hip hrest _
  | domain hc =>
    refine (parseDomain_append hx hc hrest).trans ?_
    rw [List.length_cons]
    congr 2
    omega
  | v6 hip =>
    rw [hip]
    exact parseIP_append hx hip hrest _

theorem IsPacket.parse {b host payload : Bytes} {port : ℕ}
    (h : IsPacket ipString b host port payload) :
    parseSocks5UDP ipString joinHostPort b = .ok (joinHostPort host (decimal port), payload) := by
  obtain ⟨pre, atyp, address, high, low, hpre, haddress, hport, hb⟩ := h
  have hx : (pre ++ [atyp]).length = 4 := by rw [List.length_append, hpre]; rfl
  have hbyte : byteAt b 3 = .ok atyp := by
    have hsplit : b = pre ++ atyp :: (address ++ [high, low] ++ payload) := by simp [hb]
    rw [hsplit]
    exact Slice.get_append _ _ _ (by omega)
  have hhost : parseHost ipString atyp b = .ok (host, 4 + address.length) := by
    have hsplit : b = pre ++ [atyp] ++ address ++ ([high, low] ++ payload) := by simp [hb]
    rw [hsplit]
    exact parseHost_append hx haddress (by simp)
  have hhigh : byteAt b (4 + address.length : ℕ) = .ok high := by
    have hsplit : b = (pre ++ [atyp] ++ address) ++ high :: (low :: payload) := by simp [hb]
    rw [hsplit]
    exact Slice.get_append _ _ _ (by rw [List.length_append, hx])
  have hlow : byteAt b ((4 + address.length : ℕ) + 1) = .ok low := by
    have hsplit : b = (pre ++ [atyp] ++ address ++ [high]) ++ low :: payload := by simp [hb]
    rw [hsplit]
    exact Slice.get_append _ _ _ (by rw [List.length_append, List.length_append, hx]; rfl)
  have hpayload : part b ((4 + address.length : ℕ) + 2) b.length = .ok payload := by
    have hsplit : b = (pre ++ [atyp] ++ address ++ [high, low]) ++ payload ++ [] := by simp [hb]
    rw [hsplit]
    refine Slice.cut_append _ _ _ ?_ ?_
    · rw [List.length_append, List.length_append, hx]
      rfl
    · rw [List.append_nil, List.length_append, Int.natCast_add]
  have hlength : ¬ b.length < 6 := by
    simp only [hb, List.length_append, List.length_cons, List.length_nil, hpre]
    omega
  have hvalue : high.toNat <<< 8 ||| low.toNat = port := by
    rw [hport, Nat.or_comm, or_shiftLeft_eq low.toNat_lt]
    omega
  rw [parseSocks5UDP, if_neg hlength, hbyte, Outcome.ok_bind, hhost, Outcome.ok_bind]
  simp only [hhigh, hlow, hpayload, Outcome.ok_bind, hvalue]
  rfl

/-! ### Other packets are refused -/

/-- The parts of a packet with an address of `n` bytes. -/
theorem exists_split {b : Bytes} {atyp : UInt8} {n : ℕ} (hatyp : b[3]? = some atyp)
    (hlength : 4 + n + 2 ≤ b.length) :
    ∃ (pre address : Bytes) (high low : UInt8) (payload : Bytes), pre.length = 3 ∧
      address.length = n ∧ b = pre ++ [atyp] ++ address ++ [high, low] ++ payload := by
  have hfour : b = b.take 3 ++ [atyp] ++ b.drop 4 := by
    obtain ⟨hlt, hget⟩ := List.getElem?_eq_some_iff.mp hatyp
    have hdrop := List.drop_eq_getElem_cons hlt
    rw [hget] at hdrop
    rw [List.append_assoc, List.singleton_append, ← hdrop, List.take_append_drop]
  obtain ⟨high, low, payload, hrest⟩ :
      ∃ high low payload, (b.drop 4).drop n = high :: low :: payload := by
    have hlong : 2 ≤ ((b.drop 4).drop n).length := by
      rw [List.length_drop, List.length_drop]
      omega
    obtain ⟨high, tail, htail⟩ := List.exists_cons_of_length_pos (Nat.lt_of_succ_lt hlong)
    rw [htail] at hlong ⊢
    obtain ⟨low, payload, rfl⟩ := List.exists_cons_of_length_pos (Nat.lt_of_succ_lt_succ hlong)
    exact ⟨high, low, payload, rfl⟩
  refine ⟨b.take 3, (b.drop 4).take n, high, low, payload, ?_, ?_, ?_⟩
  · rw [List.length_take]
    omega
  · rw [List.length_take, List.length_drop]
    omega
  · have hsplit := (List.take_append_drop n (b.drop 4)).symm
    rw [hrest] at hsplit
    rw [List.append_assoc, List.append_assoc]
    exact hfour.trans (congrArg (b.take 3 ++ [atyp] ++ ·) hsplit)

variable (ipString)

theorem LongEnough.exists_isPacket {b : Bytes} (h : LongEnough b) :
    ∃ host port payload, IsPacket ipString b host port payload := by
  rcases h with ⟨hatyp, hlength⟩ | ⟨hatyp, c, hc, hlength⟩ | ⟨hatyp, hlength⟩
  · obtain ⟨pre, ip, high, low, payload, hpre, hip, hb⟩ := exists_split (n := 4) hatyp hlength
    exact ⟨_, _, payload, pre, 1, ip, high, low, hpre, .v4 hip, rfl, hb⟩
  · obtain ⟨pre, address, high, low, payload, hpre, haddress, hb⟩ :=
      exists_split (n := c.toNat + 1) hatyp (by omega)
    obtain ⟨c', host, rfl⟩ := List.exists_cons_of_length_eq_add_one haddress
    have hc' : b[4]? = some c' := by
      have hx : (pre ++ [3]).length = 4 := by rw [List.length_append, hpre]; rfl
      rw [hb, ← hx]
      simp
    obtain rfl := Option.some.inj (hc'.symm.trans hc)
    exact ⟨_, _, payload, pre, 3, _, high, low, hpre, .domain (Nat.succ.inj haddress).symm, rfl, hb⟩
  · obtain ⟨pre, ip, high, low, payload, hpre, hip, hb⟩ := exists_split (n := 16) hatyp hlength
    exact ⟨_, _, payload, pre, 4, ip, high, low, hpre, .v6 hip, rfl, hb⟩

theorem parseHost_of_not_longEnough {b : Bytes} {atyp : UInt8} (hatyp : b[3]? = some atyp)
    (hlength : 6 ≤ b.length) (h : ¬ LongEnough b) :
    ∃ err, parseHost ipString atyp b = .fail err := by
  rw [parseHost]
  split
  case isTrue hv4 =>
    have hshort : b.length < 10 := by
      by_contra hlong
      exact h (.inl ⟨hv4 ▸ hatyp, by omega⟩)
    exact ⟨_, if_pos hshort⟩
  split
  case isTrue hdomain =>
    have hc : b[4]? = some b[4] := List.getElem?_eq_getElem (by omega)
    have hshort : b.length < 5 + b[4].toNat + 2 := by
      by_contra hlong
      exact h (.inr (.inl ⟨hdomain ▸ hatyp, b[4], hc, by omega⟩))
    have hbyte : byteAt b 4 = .ok b[4] := Slice.get_of_getElem? hc
    rw [parseDomain, hbyte, Outcome.ok_bind, if_pos hshort]
    exact ⟨_, rfl⟩
  split
  case isTrue hv6 =>
    have hshort : b.length < 22 := by
      by_contra hlong
      exact h (.inr (.inr ⟨hv6 ▸ hatyp, by omega⟩))
    exact ⟨_, if_pos hshort⟩
  · exact ⟨_, rfl⟩

theorem parse_of_not_longEnough {b : Bytes} (h : ¬ LongEnough b) :
    ∃ err, parseSocks5UDP ipString joinHostPort b = .fail err := by
  rw [parseSocks5UDP]
  split
  case isTrue => exact ⟨_, rfl⟩
  case isFalse hlength =>
    have hatyp : b[3]? = some b[3] := List.getElem?_eq_getElem (by omega)
    have hbyte : byteAt b 3 = .ok b[3] := Slice.get_of_getElem? hatyp
    obtain ⟨err, herr⟩ := parseHost_of_not_longEnough ipString hatyp (by omega) h
    rw [hbyte, Outcome.ok_bind, herr]
    exact ⟨err, rfl⟩

/-- **The parser is total and exact.** No access lies outside the packet. The packet is read if and
only if the kind of its address is known and it is long enough for the address and the port, and
what is read is the payload behind the port, and the host of the address joined with the port. -/
theorem parseSocks5UDP_exact (b : Bytes) :
    ¬ Outcome.Panics (parseSocks5UDP ipString joinHostPort b) ∧
      ((∃ r, parseSocks5UDP ipString joinHostPort b = .ok r) ↔ LongEnough b) ∧
      ∀ addr payload, parseSocks5UDP ipString joinHostPort b = .ok (addr, payload) ↔
        ∃ host port, IsPacket ipString b host port payload ∧
          addr = joinHostPort host (decimal port) := by
  by_cases h : LongEnough b
  · obtain ⟨host, port, payload, hpacket⟩ := h.exists_isPacket ipString
    have hparse := hpacket.parse joinHostPort
    refine ⟨by rw [hparse]; exact Outcome.not_panics_ok, iff_of_true ⟨_, hparse⟩ h, ?_⟩
    intro addr payload'
    constructor
    · intro hok
      obtain ⟨rfl, rfl⟩ := Prod.mk.inj (Except.ok.inj (hparse.symm.trans hok))
      exact ⟨host, port, hpacket, rfl⟩
    · rintro ⟨host', port', hpacket', rfl⟩
      exact hpacket'.parse joinHostPort
  · obtain ⟨err, hfail⟩ := parse_of_not_longEnough ipString joinHostPort h
    have hnot : ∀ r, parseSocks5UDP ipString joinHostPort b ≠ .ok r := by
      intro r hok
      rw [hfail] at hok
      cases hok
    refine ⟨by rw [hfail]; exact Outcome.not_panics_fail, ?_, fun addr payload => ?_⟩
    · refine iff_of_false ?_ h
      rintro ⟨r, hok⟩
      exact hnot r hok
    · refine iff_of_false (hnot _) ?_
      rintro ⟨host, port, hpacket, -⟩
      exact hnot _ (hpacket.parse joinHostPort)

end

/-! ### The unchecked parser -/

section Unchecked

variable {b : Bytes}

theorem byteAt_eq_getD {i : ℕ} (h : i < b.length) : byteAt b i = .ok (b.getD i 0) := by
  rw [List.getD_eq_getElem b 0 h]
  exact Slice.get_of_getElem? (List.getElem?_eq_getElem h)

theorem part_eq_take {i n : ℕ} (h : i + n ≤ b.length) :
    part b i (i + n : ℕ) = .ok ((b.drop i).take n) := by
  rw [part, Slice.cut_of_le (Nat.le_add_right i n) h, List.drop_take, Nat.add_sub_cancel_left]

theorem parseIP_eq_orFail (ipString : Bytes → Bytes) (n : ℕ) (message : String) (b : Bytes) :
    parseIP ipString (4 + n + 2) (4 + n) message b =
      Outcome.orFail id (if b.length < 4 + n + 2 then .error message
        else .ok (ipString ((b.drop 4).take n), 4 + n)) := by
  rw [parseIP]
  split
  case isTrue => rfl
  case isFalse hlong =>
    have hpart : part b 4 (4 + n : ℕ) = .ok ((b.drop 4).take n) :=
      part_eq_take (i := 4) (by omega)
    rw [hpart]
    rfl

theorem parseDomain_eq_orFail (h : 6 ≤ b.length) :
    parseDomain b =
      Outcome.orFail id (if b.length < 5 + (b.getD 4 0).toNat + 2 then
          .error "Domain packet too short"
        else .ok ((b.drop 5).take (b.getD 4 0).toNat, 5 + (b.getD 4 0).toNat)) := by
  have hbyte : byteAt b 4 = .ok (b.getD 4 0) := byteAt_eq_getD (i := 4) (by omega)
  rw [parseDomain, hbyte, Outcome.ok_bind]
  change (if _ then _ else part b 5 (5 + _ : ℕ) >>= _) = _
  split
  case isTrue => rfl
  case isFalse hlong =>
    have hpart : part b 5 (5 + (b.getD 4 0).toNat : ℕ) = .ok ((b.drop 5).take (b.getD 4 0).toNat) :=
      part_eq_take (i := 5) (by omega)
    rw [hpart]
    rfl

theorem parseHost_eq_orFail (h : 6 ≤ b.length) :
    parseHost ipString (b.getD 3 0) b = Outcome.orFail id (Socks5.parseHost b) := by
  rw [parseHost, Socks5.parseHost]
  simp only []
  split
  case isTrue => exact parseIP_eq_orFail _ 4 _ b
  split
  case isTrue => exact parseDomain_eq_orFail h
  split
  case isTrue => exact parseIP_eq_orFail _ 16 _ b
  case isFalse => rfl

/-- The two bytes of the port lie within the packet. -/
theorem offset_add_two_le {host : Bytes} {offset : ℕ}
    (h : Socks5.parseHost b = .ok (host, offset)) : offset + 2 ≤ b.length := by
  rw [Socks5.parseHost] at h
  simp only [] at h
  split_ifs at h with hv4 hshort hdomain hshort hv6 hshort
  all_goals
    obtain ⟨-, rfl⟩ := Prod.mk.inj (Except.ok.inj h)
    omega

/-- The checks change nothing: `parseSocks5UDP` of `Tox.Core.MieruPacket`, where a byte outside the
packet would be read as zero, reads no such byte. -/
theorem parseSocks5UDP_eq_orFail (b : Bytes) :
    parseSocks5UDP ipString joinHostPort b = Outcome.orFail id (Socks5.parseSocks5UDP b) := by
  rw [parseSocks5UDP, Socks5.parseSocks5UDP]
  split
  case isTrue => rfl
  case isFalse hlength =>
    have hbyte : byteAt b 3 = .ok (b.getD 3 0) := byteAt_eq_getD (i := 3) (by omega)
    rw [hbyte, Outcome.ok_bind, parseHost_eq_orFail (by omega)]
    rcases hhost : Socks5.parseHost b with err | ⟨host, offset⟩
    · rfl
    · have hle := offset_add_two_le hhost
      have hhigh : byteAt b offset = .ok (b.getD offset 0) := byteAt_eq_getD (by omega)
      have hlow : byteAt b (offset + 1) = .ok (b.getD (offset + 1) 0) := byteAt_eq_getD hle
      have hpayload : part b (offset + 2) b.length = .ok (b.drop (offset + 2)) :=
        (Slice.cut_of_le hle (Nat.le_refl _)).trans (by rw [List.take_length])
      change (byteAt b offset >>= _) = _
      rw [hhigh, Outcome.ok_bind, hlow, Outcome.ok_bind, hpayload]
      rfl

end Unchecked

end Tox.Core.Socks5.Checked
