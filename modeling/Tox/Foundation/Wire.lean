import Mathlib.Data.List.Basic
import Mathlib.Data.Nat.Bitwise
import Mathlib.Tactic.Common

/-!
# Readers, bounded buffers and unsigned varints

* `Reader`: a parser of byte strings that hands on the bytes it has not read. `Reads p bs a` says
  that `p` reads exactly the bytes `bs`, whatever follows them, and returns `a`. It composes along
  `bind` (`Reads.bind`), so that a message is read field by field.
* `Buffer`: a byte buffer of fixed capacity whose contents never exceed it. A byte that does not
  fit is refused, and a longer write is cut at the capacity. `Writes f bs` says that `f` succeeds
  exactly when its result is the buffer with `bs` appended. The capacity bound is part of the
  buffer, so that this includes that `f` fails when `bs` does not fit. It composes along `bind`
  (`Writes.bind`).
* `putUvarint`, `readUvarint`: unsigned numbers in groups of seven bits, the lowest first, with the
  decoder's limit of ten bytes. The decoder inverts the encoder below `2 ^ 64`
  (`reads_putUvarint`).
* `decimal`, `parseDecimal`: natural numbers in decimal digits (`parseDecimal_decimal`).
-/

namespace Tox.Foundation

/-! ### Readers -/

/-- A reader of byte strings with errors in `ε`. -/
abbrev Reader (ε α : Type) : Type := StateT (List UInt8) (Except ε) α

section Reader

variable {ε α β : Type}

/-- The reader `p` reads exactly the bytes `bs`, whatever follows them, and returns `a`. -/
def Reads (p : Reader ε α) (bs : List UInt8) (a : α) : Prop :=
  ∀ rest, p.run (bs ++ rest) = .ok (a, rest)

theorem Reads.pure (a : α) : Reads (Pure.pure a : Reader ε α) [] a :=
  fun _ => rfl

theorem Reads.bind {p : Reader ε α} {f : α → Reader ε β} {xs ys : List UInt8} {a : α} {b : β}
    (hp : Reads p xs a) (hf : Reads (f a) ys b) : Reads (p >>= f) (xs ++ ys) b := by
  intro rest
  rw [StateT.run_bind, List.append_assoc, hp]
  exact hf rest

/-- A reader whose result is processed further. -/
theorem Reads.bind_pure {p : Reader ε α} {xs : List UInt8} {a : α} (hp : Reads p xs a)
    (f : α → β) : Reads (p >>= fun a => Pure.pure (f a)) xs (f a) := by
  intro rest
  rw [StateT.run_bind, hp]
  rfl

theorem Reads.lift {r : Except ε α} {a : α} (h : r = .ok a) :
    Reads (StateT.lift r : Reader ε α) [] a := by
  subst h
  exact fun _ => rfl

/-- The reader with its errors renamed. -/
def Reader.mapError {δ : Type} (φ : ε → δ) (p : Reader ε α) : Reader δ α := fun input =>
  (p.run input).mapError φ

theorem Reads.mapError {δ : Type} {p : Reader ε α} {bs : List UInt8} {a : α} (h : Reads p bs a)
    (φ : ε → δ) : Reads (p.mapError φ) bs a := by
  intro rest
  change (p.run (bs ++ rest)).mapError φ = _
  rw [h rest]
  rfl

/-- One byte, or `eof` at the end of the input. -/
def readByte (eof : ε) : Reader ε UInt8
  | [] => .error eof
  | b :: rest => .ok (b, rest)

/-- The next `n` bytes; when fewer are left, `short` makes the error of them. -/
def readFull (short : List UInt8 → ε) (n : ℕ) : Reader ε (List UInt8) := fun input =>
  if n ≤ input.length then .ok (input.take n, input.drop n) else .error (short input)

theorem reads_readByte (eof : ε) (b : UInt8) : Reads (readByte eof) [b] b :=
  fun _ => rfl

theorem reads_readFull (short : List UInt8 → ε) (bs : List UInt8) :
    Reads (readFull short bs.length) bs bs := by
  intro rest
  have hlen : bs.length ≤ (bs ++ rest).length := by simp
  change (if bs.length ≤ (bs ++ rest).length then _ else _) = _
  rw [if_pos hlen, List.take_left, List.drop_left]

/-- A reader that never hands on more than it was given. -/
def Shrinks (p : Reader ε α) : Prop :=
  ∀ input a rest, p.run input = .ok (a, rest) → rest.length ≤ input.length

theorem Shrinks.pure (a : α) : Shrinks (Pure.pure a : Reader ε α) := by
  rintro input _ rest ⟨⟩
  exact le_rfl

theorem Shrinks.throw (e : ε) : Shrinks (throw e : Reader ε α) :=
  nofun

theorem Shrinks.bind {p : Reader ε α} {f : α → Reader ε β} (hp : Shrinks p)
    (hf : ∀ a, Shrinks (f a)) : Shrinks (p >>= f) := by
  intro input b rest h
  rw [StateT.run_bind] at h
  rcases hmid : p.run input with e | ⟨a, mid⟩
  · rw [hmid] at h
    cases h
  · rw [hmid] at h
    exact (hf a mid b rest h).trans (hp input a mid hmid)

theorem Shrinks.mapError {δ : Type} {p : Reader ε α} (h : Shrinks p) (φ : ε → δ) :
    Shrinks (p.mapError φ) := by
  intro input a rest hrun
  change (p.run input).mapError φ = _ at hrun
  rcases hmid : p.run input with e | ⟨a', rest'⟩
  · rw [hmid] at hrun
    cases hrun
  · rw [hmid] at hrun
    cases hrun
    exact h input a rest hmid

theorem shrinks_readFull (short : List UInt8 → ε) (n : ℕ) : Shrinks (readFull short n) := by
  intro input a rest h
  change (if n ≤ input.length then _ else _) = _ at h
  split at h
  · cases h
    rw [List.length_drop]
    omega
  · cases h

end Reader

/-! ### Bounded buffers -/

/-- A byte buffer of fixed capacity. -/
@[ext]
structure Buffer where
  bytes : List UInt8
  capacity : ℕ
  fits : bytes.length ≤ capacity

namespace Buffer

variable {ε : Type}

/-- An empty buffer of the given capacity. -/
def newSize (capacity : ℕ) : Buffer where
  bytes := []
  capacity := capacity
  fits := Nat.zero_le _

/-- The room left in the buffer. -/
def free (buffer : Buffer) : ℕ :=
  buffer.capacity - buffer.bytes.length

/-- The buffer with as much of `bs` appended as there is room for. -/
def fill (buffer : Buffer) (bs : List UInt8) : Buffer where
  bytes := buffer.bytes ++ bs.take buffer.free
  capacity := buffer.capacity
  fits := by
    have hfits := buffer.fits
    rw [List.length_append, List.length_take, free]
    omega

/-- A write is refused with `short` by a full buffer and otherwise cut at the capacity. -/
def write (buffer : Buffer) (short : ε) (bs : List UInt8) : Except ε Buffer :=
  if bs = [] then .ok buffer
  else if buffer.free = 0 then .error short
  else .ok (buffer.fill bs)

def writeByte (buffer : Buffer) (short : ε) (b : UInt8) : Except ε Buffer :=
  if buffer.free = 0 then .error short else .ok (buffer.fill [b])

/-- A write of all the bytes or of none. -/
def writeAll (buffer : Buffer) (short : ε) (bs : List UInt8) : Except ε Buffer :=
  if bs.length ≤ buffer.free then .ok (buffer.fill bs) else .error short

theorem fill_bytes {buffer : Buffer} {bs : List UInt8} (h : bs.length ≤ buffer.free) :
    (buffer.fill bs).bytes = buffer.bytes ++ bs := by
  change buffer.bytes ++ bs.take buffer.free = buffer.bytes ++ bs
  rw [List.take_of_length_le h]

/-- A write that is cut fills the buffer. -/
theorem free_fill {buffer : Buffer} {bs : List UInt8} (h : buffer.free ≤ bs.length) :
    (buffer.fill bs).free = 0 := by
  change buffer.capacity - (buffer.bytes ++ bs.take buffer.free).length = 0
  rw [List.length_append, List.length_take, Nat.min_eq_left h, free]
  omega

/-- What a buffer that extends another by `bs` says about the room there was. -/
theorem length_le_free {buffer out : Buffer} {bs : List UInt8}
    (hbytes : out.bytes = buffer.bytes ++ bs) (hcap : out.capacity = buffer.capacity) :
    bs.length ≤ buffer.free := by
  have hfits := out.fits
  rw [hbytes, hcap, List.length_append] at hfits
  rw [free]
  omega

theorem eq_fill_iff {buffer out : Buffer} {bs : List UInt8} (h : bs.length ≤ buffer.free) :
    buffer.fill bs = out ↔ out.bytes = buffer.bytes ++ bs ∧ out.capacity = buffer.capacity := by
  rw [Buffer.ext_iff, fill_bytes h, eq_comm]
  exact and_congr_right fun _ => eq_comm

end Buffer

/-- The writer `f` succeeds exactly when its result is the buffer with `bs` appended. -/
def Writes {ε : Type} (f : Buffer → Except ε Buffer) (bs : List UInt8) : Prop :=
  ∀ buffer out, f buffer = .ok out ↔
    out.bytes = buffer.bytes ++ bs ∧ out.capacity = buffer.capacity

section Writes

variable {ε : Type} {f g : Buffer → Except ε Buffer} {xs ys : List UInt8}

theorem Writes.pure : Writes (fun buffer => (Pure.pure buffer : Except ε Buffer)) [] := by
  intro buffer out
  change Except.ok buffer = Except.ok out ↔ _
  rw [Except.ok.injEq, Buffer.ext_iff, List.append_nil, eq_comm, @eq_comm _ buffer.capacity]

theorem Writes.bind (hf : Writes f xs) (hg : Writes g ys) :
    Writes (fun buffer => f buffer >>= g) (xs ++ ys) := by
  intro buffer out
  change f buffer >>= g = .ok out ↔ _
  constructor
  · intro h
    rcases hmid : f buffer with e | mid
    · rw [hmid] at h
      cases h
    · rw [hmid] at h
      obtain ⟨hbytes, hcap⟩ := (hf buffer mid).mp hmid
      obtain ⟨hbytes', hcap'⟩ := (hg mid out).mp h
      exact ⟨by rw [hbytes', hbytes, List.append_assoc], hcap'.trans hcap⟩
  · rintro ⟨hbytes, hcap⟩
    -- the state after `f` fits into the buffer because the longer result does
    have hfits : (buffer.bytes ++ xs).length ≤ buffer.capacity := by
      have hroom := Buffer.length_le_free hbytes hcap
      have hfits := buffer.fits
      rw [List.length_append, Buffer.free] at hroom
      rw [List.length_append]
      omega
    have hmid := (hf buffer ⟨buffer.bytes ++ xs, buffer.capacity, hfits⟩).mpr ⟨rfl, rfl⟩
    rw [hmid]
    exact (hg _ out).mpr ⟨by rw [hbytes, List.append_assoc], hcap⟩

/-- A writer into a fresh buffer with room for its bytes. -/
theorem Writes.run_newSize (h : Writes f xs) {n : ℕ} (hn : xs.length ≤ n) :
    ∃ out, f (Buffer.newSize n) = .ok out ∧ out.bytes = xs ∧ out.capacity = n :=
  ⟨⟨xs, n, hn⟩, (h _ _).mpr ⟨rfl, rfl⟩, rfl, rfl⟩

theorem writes_writeByte (short : ε) (b : UInt8) :
    Writes (fun buffer => buffer.writeByte short b) [b] := by
  intro buffer out
  change (if buffer.free = 0 then _ else _) = _ ↔ _
  split
  case isTrue hfull =>
    refine ⟨nofun, fun h => ?_⟩
    have hroom := Buffer.length_le_free h.1 h.2
    rw [List.length_singleton] at hroom
    omega
  case isFalse hfree =>
    have hroom : [b].length ≤ buffer.free := by
      rw [List.length_singleton]
      omega
    rw [Except.ok.injEq, Buffer.eq_fill_iff hroom]

theorem writes_writeAll (short : ε) (bs : List UInt8) :
    Writes (fun buffer => buffer.writeAll short bs) bs := by
  intro buffer out
  change (if bs.length ≤ buffer.free then _ else _) = _ ↔ _
  split
  case isTrue hroom => rw [Except.ok.injEq, Buffer.eq_fill_iff hroom]
  case isFalse hshort => exact ⟨nofun, fun h => absurd (Buffer.length_le_free h.1 h.2) hshort⟩

/-- A write that fits. -/
theorem Buffer.write_eq_fill {buffer : Buffer} {bs : List UInt8} (h : bs.length ≤ buffer.free)
    (short : ε) : buffer.write short bs = .ok (buffer.fill bs) := by
  rw [Buffer.write]
  split
  case isTrue hnil =>
    subst hnil
    rw [(Buffer.eq_fill_iff h).mpr ⟨(List.append_nil _).symm, rfl⟩]
  case isFalse hne =>
    have hpos := List.length_pos_of_ne_nil hne
    rw [if_neg (by omega)]

/-- A write that is followed by a byte is not cut: a cut write leaves no room for the byte. -/
theorem writes_write_writeByte (short : ε) (bs : List UInt8) (b : UInt8) :
    Writes (fun buffer => buffer.write short bs >>= fun buffer => buffer.writeByte short b)
      (bs ++ [b]) := by
  intro buffer out
  change (buffer.write short bs >>= fun buffer => buffer.writeByte short b) = .ok out ↔ _
  by_cases hroom : bs.length ≤ buffer.free
  · rw [Buffer.write_eq_fill hroom, ← List.append_assoc, ← Buffer.fill_bytes hroom]
    exact writes_writeByte short b (buffer.fill bs) out
  · have hcut : (buffer.fill bs).free = 0 := Buffer.free_fill (by omega)
    constructor
    · intro h
      rw [Buffer.write] at h
      split at h
      case isTrue hnil => simp [hnil] at hroom
      case isFalse =>
        split at h
        case isTrue => cases h
        case isFalse =>
          change (buffer.fill bs).writeByte short b = .ok out at h
          rw [Buffer.writeByte, if_pos hcut] at h
          cases h
    · rintro ⟨hbytes, hcap⟩
      have hlen := Buffer.length_le_free hbytes hcap
      rw [List.length_append] at hlen
      omega

end Writes

/-! ### Unsigned varints -/

/-- The groups of seven bits of `x`, the lowest first, all but the last with the high bit set. -/
def putUvarint (x : ℕ) : List UInt8 :=
  if x < 0x80 then [UInt8.ofNat x]
  else (UInt8.ofNat x ||| 0x80) :: putUvarint (x >>> 7)
termination_by x
decreasing_by
  rw [Nat.shiftRight_eq_div_pow]
  omega

/-- The number of bytes of `putUvarint x`. -/
def uvarintLen (x : ℕ) : ℕ :=
  if x < 0x80 then 1 else uvarintLen (x >>> 7) + 1
termination_by x
decreasing_by
  rw [Nat.shiftRight_eq_div_pow]
  omega

inductive UvarintError where
  | eof
  | unexpectedEOF
  | overflow
  deriving DecidableEq, Repr

/-- The decoder's loop with `k` iterations left, `x` read so far and the next group at bit `s`. -/
def readUvarintLoop : ℕ → ℕ → ℕ → Reader UvarintError ℕ
  | 0, _, _, _ => .error .overflow
  | k + 1, _, _, [] => .error (if k = 9 then .eof else .unexpectedEOF)
  | k + 1, x, s, b :: rest =>
    if b < 0x80 then
      -- the tenth byte holds the last bit of a 64-bit number
      if k = 0 ∧ 1 < b then .error .overflow else .ok (x ||| b.toNat <<< s, rest)
    else readUvarintLoop k (x ||| (b &&& 0x7f).toNat <<< s) (s + 7) rest

/-- A number of at most ten bytes. -/
def readUvarint : Reader UvarintError ℕ :=
  readUvarintLoop 10 0 0

theorem length_putUvarint (x : ℕ) : (putUvarint x).length = uvarintLen x := by
  induction x using putUvarint.induct with
  | case1 x hx => rw [putUvarint, uvarintLen, if_pos hx, if_pos hx, List.length_singleton]
  | case2 x hx ih => rw [putUvarint, uvarintLen, if_neg hx, if_neg hx, List.length_cons, ih]

/-- A number of `7 * k` bits takes at most `k` bytes. -/
theorem uvarintLen_le {x k : ℕ} (hk : 0 < k) (h : x < 2 ^ (7 * k)) : uvarintLen x ≤ k := by
  induction k generalizing x with
  | zero => exact absurd hk (Nat.lt_irrefl 0)
  | succ k ih =>
    rw [uvarintLen]
    split
    · omega
    case isFalse hbig =>
      have hpow : 2 ^ (7 * (k + 1)) = 2 ^ (7 * k) * 2 ^ 7 := Nat.pow_add 2 (7 * k) 7
      have hk' : 0 < k := by
        rcases Nat.eq_zero_or_pos k with rfl | hpos
        · exact absurd h hbig
        · exact hpos
      have hshift : x >>> 7 < 2 ^ (7 * k) := by
        rw [Nat.shiftRight_eq_div_pow]
        omega
      exact Nat.succ_le_succ (ih hk' hshift)

theorem uvarintLen_le_two {x : ℕ} (h : x < 2 ^ 14) : uvarintLen x ≤ 2 :=
  uvarintLen_le (Nat.succ_pos 1) h

theorem shrinks_readUvarintLoop (k x s : ℕ) : Shrinks (readUvarintLoop k x s) := by
  induction k generalizing x s with
  | zero => exact nofun
  | succ k ih =>
    rintro (_ | ⟨b, input⟩) a rest h
    · cases h
    · change (if b < 0x80 then if _ then _ else Except.ok (_, _) else _) = _ at h
      split at h
      · split at h
        · cases h
        · cases h
          exact Nat.le_succ _
      · exact (ih _ _ input a rest h).trans (Nat.le_succ _)

/-- A group is added above the bits that are already there. -/
theorem or_shiftLeft_eq {x s : ℕ} (h : x < 2 ^ s) (g : ℕ) : x ||| g <<< s = x + g * 2 ^ s := by
  rw [Nat.shiftLeft_eq, Nat.or_comm, Nat.mul_comm, ← Nat.two_pow_add_eq_or_of_lt h, Nat.add_comm]

/-- The bits of a group that is not the last. -/
theorem toNat_group (x : ℕ) : ((UInt8.ofNat x ||| 0x80) &&& 0x7f).toNat = x % 2 ^ 7 := by
  have hlow : ((UInt8.ofNat x ||| 0x80) &&& 0x7f).toNat =
      (x % 2 ^ 8 ||| 2 ^ 7) &&& (2 ^ 7 - 1) := rfl
  rw [hlow, Nat.and_two_pow_sub_one_eq_mod, Nat.or_mod_two_pow, Nat.mod_self, Nat.or_zero]
  omega

theorem not_group_lt (x : ℕ) : ¬ (UInt8.ofNat x ||| 0x80) < 0x80 := by
  rw [UInt8.lt_iff_toNat_lt, UInt8.toNat_or]
  exact Nat.not_lt.mpr Nat.right_le_or

/-- The loop ends at a byte without the high bit, which for the tenth byte has to be 0 or 1. -/
theorem reads_readUvarintLoop_last {k x s n : ℕ} (hn : n < 2 ^ 7) (hlast : k = 0 → n ≤ 1)
    (hx : x < 2 ^ s) :
    Reads (readUvarintLoop (k + 1) x s) [UInt8.ofNat n] (x + n * 2 ^ s) := by
  intro rest
  have hsize : n < UInt8.size := lt_trans hn (by decide)
  have hbyte : (UInt8.ofNat n).toNat = n := UInt8.toNat_ofNat_of_lt' hsize
  have hlow : UInt8.ofNat n < 0x80 := UInt8.lt_iff_toNat_lt.mpr (hbyte.symm ▸ hn)
  have hbit : ¬ (k = 0 ∧ 1 < UInt8.ofNat n) := by
    rintro ⟨hk, h1⟩
    have h1' : 1 < (UInt8.ofNat n).toNat := UInt8.lt_iff_toNat_lt.mp h1
    have := hlast hk
    omega
  change (if UInt8.ofNat n < 0x80 then if _ then _ else Except.ok (_, _) else _) = _
  rw [if_pos hlow, if_neg hbit, hbyte, or_shiftLeft_eq hx]
  rfl

/-- The loop takes the seven bits of a byte with the high bit and goes on. -/
theorem run_readUvarintLoop_group {k x s : ℕ} (n : ℕ) (hx : x < 2 ^ s) (rest : List UInt8) :
    (readUvarintLoop (k + 1) x s).run ((UInt8.ofNat n ||| 0x80) :: rest) =
      (readUvarintLoop k (x + n % 2 ^ 7 * 2 ^ s) (s + 7)).run rest := by
  change (if (UInt8.ofNat n ||| 0x80) < 0x80 then _ else readUvarintLoop k _ (s + 7) rest) = _
  rw [if_neg (not_group_lt n), toNat_group, or_shiftLeft_eq hx]
  rfl

/-- The loop reads an encoding that fits into the bits that are left. -/
theorem reads_readUvarintLoop {k x s n : ℕ} (hs : s + 7 * k = 63) (hx : x < 2 ^ s)
    (hn : n * 2 ^ s < 2 ^ 64) :
    Reads (readUvarintLoop (k + 1) x s) (putUvarint n) (x + n * 2 ^ s) := by
  induction k generalizing x s n with
  | zero =>
    obtain rfl : s = 63 := by omega
    rw [putUvarint, if_pos (by omega)]
    exact reads_readUvarintLoop_last (by omega) (by omega) hx
  | succ k ih =>
    rw [putUvarint]
    split
    case isTrue hlast => exact reads_readUvarintLoop_last hlast (by omega) hx
    case isFalse hmore =>
      intro rest
      -- the groups that follow hold `n / 128`, from seven bits further up
      have hpow : 2 ^ (s + 7) = 2 ^ s * 2 ^ 7 := Nat.pow_add 2 s 7
      have hsplit : n = n % 2 ^ 7 + n / 2 ^ 7 * 2 ^ 7 := by omega
      have hx' : x + n % 2 ^ 7 * 2 ^ s < 2 ^ (s + 7) := by
        have hgroup : n % 2 ^ 7 + 1 ≤ 2 ^ 7 := by omega
        have := Nat.mul_le_mul_right (2 ^ s) hgroup
        rw [Nat.add_mul] at this
        omega
      have hsum : n / 2 ^ 7 * 2 ^ (s + 7) = n / 2 ^ 7 * 2 ^ 7 * 2 ^ s := by
        rw [hpow, Nat.mul_comm (2 ^ s), Nat.mul_assoc]
      have hn' : n / 2 ^ 7 * 2 ^ (s + 7) < 2 ^ 64 := by
        rw [hsum]
        exact lt_of_le_of_lt (Nat.mul_le_mul_right _ (Nat.div_mul_le_self n _)) hn
      rw [List.cons_append, run_readUvarintLoop_group n hx, Nat.shiftRight_eq_div_pow,
        ih (by omega) hx' hn', hsum, Nat.add_assoc, ← Nat.add_mul, ← hsplit]

theorem reads_putUvarint {n : ℕ} (hn : n < 2 ^ 64) : Reads readUvarint (putUvarint n) n := by
  have h : Reads (readUvarintLoop (9 + 1) 0 0) (putUvarint n) (0 + n * 2 ^ 0) :=
    reads_readUvarintLoop rfl Nat.one_pos (by omega)
  rwa [Nat.zero_add, Nat.pow_zero, Nat.mul_one] at h

/-! ### Decimal numbers -/

/-- The decimal digits of `n`, the highest first. -/
def decimal (n : ℕ) : List UInt8 :=
  if n < 10 then [UInt8.ofNat (48 + n)]
  else decimal (n / 10) ++ [UInt8.ofNat (48 + n % 10)]
termination_by n
decreasing_by omega

/-- One more digit at the end. -/
def decimalStep (n : ℕ) (b : UInt8) : Option ℕ :=
  if 48 ≤ b ∧ b ≤ 57 then some (n * 10 + (b.toNat - 48)) else none

/-- The number with the given digits, if they are digits. -/
def parseDecimal (bs : List UInt8) : Option ℕ :=
  bs.foldlM decimalStep 0

theorem digit_toNat {d : ℕ} (h : d < 10) : (UInt8.ofNat (48 + d)).toNat = 48 + d :=
  UInt8.toNat_ofNat_of_lt' (lt_trans (by omega : 48 + d < 58) (by decide))

theorem digit_bounds {d : ℕ} (h : d < 10) :
    48 ≤ UInt8.ofNat (48 + d) ∧ UInt8.ofNat (48 + d) ≤ 57 := by
  have hdigit := digit_toNat h
  rw [UInt8.le_iff_toNat_le, UInt8.le_iff_toNat_le, hdigit]
  change 48 ≤ 48 + d ∧ 48 + d ≤ 57
  omega

theorem decimalStep_digit (n : ℕ) {d : ℕ} (h : d < 10) :
    decimalStep n (UInt8.ofNat (48 + d)) = some (n * 10 + d) := by
  rw [decimalStep, if_pos (digit_bounds h), digit_toNat h, Nat.add_sub_cancel_left]

@[simp]
theorem parseDecimal_decimal (n : ℕ) : parseDecimal (decimal n) = some n := by
  rw [parseDecimal]
  induction n using decimal.induct with
  | case1 n hn =>
    rw [decimal, if_pos hn, List.foldlM_cons, decimalStep_digit 0 hn]
    simp
  | case2 n hn ih =>
    rw [decimal, if_neg hn, List.foldlM_append, ih]
    change List.foldlM decimalStep (n / 10) [_] = _
    rw [List.foldlM_cons, decimalStep_digit _ (Nat.mod_lt n (by omega))]
    change some (n / 10 * 10 + n % 10) = some n
    congr 1
    omega

/-- A number starts with a digit. -/
theorem exists_decimal_eq_cons (n : ℕ) : ∃ b bs, decimal n = b :: bs ∧ 48 ≤ b := by
  induction n using decimal.induct with
  | case1 n hn =>
    rw [decimal, if_pos hn]
    exact ⟨_, _, rfl, (digit_bounds hn).1⟩
  | case2 n hn ih =>
    obtain ⟨b, bs, hdecimal, hb⟩ := ih
    rw [decimal, if_neg hn, hdecimal]
    exact ⟨b, _, rfl, hb⟩

end Tox.Foundation
