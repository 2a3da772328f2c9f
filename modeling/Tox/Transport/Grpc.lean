import Tox.Foundation.Stream

/-!
# Obfuscated gRPC transports

Both gRPC transports carry a byte stream as a sequence of hunks, and both can obfuscate a hunk by
combining its bytes with a fixed key that starts anew with every hunk. `GunConn` writes and reads
the frames itself. It hands out the data of a hunk in pieces, as its buffered reader delivers them,
so the position in the key has to be carried from one piece to the next. `GRPCConn` leaves the
framing to the library, receives a hunk as a whole and keeps what does not fit into the caller's
buffer.

What a peer reads is what has been written: at every moment a first part of it, and all of it once
all of the stream has been read. For `GunConn` this holds for every way in which the reader splits
the stream, and for a stream that is cut anywhere.
-/

namespace Tox.Transport

open Tox.Foundation

/-- `grpcObfsKey`, the same in both packages. -/
def grpcObfsKey : List UInt8 :=
  "MOMclashGRPCObfuscationKey".toList.map fun c => UInt8.ofNat c.toNat

/-- The byte of a repeated key at a position. -/
def keyAt (key : List UInt8) (i : ℕ) : UInt8 := key.getD (i % key.length) 0

/-! ### GunConn -/

/-- `xorInPlace` of the package `v2raygrpclite`. -/
def xorInPlace (data key : List UInt8) (offset : ℕ) : List UInt8 :=
  xorAt (keyAt key) offset data

/-- What stands before the data of a hunk: the gRPC message header with the length of what follows
it, and the field number and the length of the data. -/
def hunkHeader (dataLen : ℕ) : List UInt8 :=
  let size := UInt32.ofNat (1 + uvarintLen dataLen + dataLen)
  let fixed : List UInt8 :=
    [0x00, (size >>> 24).toUInt8, (size >>> 16).toUInt8, (size >>> 8).toUInt8, size.toUInt8, 0x0A]
  fixed ++ putUvarint dataLen

/-- A panic of the buffer package. -/
inductive BufferPanic where
  | overflow
  | shortBuffer
  deriving DecidableEq, Repr

/-- What one `Read` of the buffered reader returns: at most `size` bytes, and an error. -/
structure Chunk where
  size : ℕ
  err : Option String := none

inductive ReadError where
  /-- The error of the buffered reader that came with the data. -/
  | reader (err : String)
  /-- The stream has ended before the header of a hunk. -/
  | header
  | uvarint (err : UvarintError)
  /-- The length of the data is negative as an `int`, and the slice expression panics. -/
  | sliceBounds
  deriving DecidableEq, Repr

/-- The reading side of a `GunConn`. -/
structure GunConn where
  /-- The bytes of the stream that `reader` has not handed out, whether they have arrived or not. -/
  reader : List UInt8
  readRemaining : ℤ := 0
  readOffset : ℕ := 0
  obfuscated : Bool

namespace GunConn

/-- `GunConn.Write`: the bytes that are written to the stream. -/
def write (obfuscated : Bool) (b : List UInt8) : Except BufferPanic (List UInt8) := do
  let varLen := uvarintLen b.length
  let buffer := Buffer.newSize (6 + varLen + b.length)
  let buffer ← buffer.writeAll .overflow (hunkHeader b.length)
  let payload := if obfuscated then xorInPlace b grpcObfsKey 0 else b
  let buffer ← buffer.write .shortBuffer payload
  pure buffer.bytes

/-- `GunConn.WriteBuffer` for a buffer with the given contents and the given room before them. -/
def writeBuffer (obfuscated : Bool) (headroom : ℕ) (bytes : List UInt8) :
    Except BufferPanic (List UInt8) :=
  let dataLen := bytes.length
  let varLen := uvarintLen dataLen
  let bytes := if obfuscated ∧ 0 < dataLen then xorInPlace bytes grpcObfsKey 0 else bytes
  if headroom < 6 + varLen then .error .overflow else .ok (hunkHeader dataLen ++ bytes)

/-- `GunConn.FrontHeadroom`. -/
def frontHeadroom : ℕ := 6 + 10

/-- The end of both branches of `GunConn.read`: data of the current hunk into a buffer of length
`len`. -/
def readData (c : GunConn) (len : ℕ) (chunk : Chunk) : GunConn × List UInt8 × Option ReadError :=
  let n := min chunk.size (min (min len c.readRemaining.toNat) c.reader.length)
  let data := c.reader.take n
  ({ c with
      reader := c.reader.drop n
      readOffset := if c.obfuscated ∧ 0 < n then c.readOffset + n else c.readOffset
      readRemaining := c.readRemaining - n },
    if c.obfuscated ∧ 0 < n then xorInPlace data grpcObfsKey c.readOffset else data,
    chunk.err.map .reader)

/-- `GunConn.read` into a buffer of length `len`: the connection, the data and the error. -/
def read (c : GunConn) (len : ℕ) (chunk : Chunk) : GunConn × List UInt8 × Option ReadError :=
  if 0 < c.readRemaining then c.readData len chunk
  -- `Discard` drops what there is when it fails
  else if c.reader.length < 6 then ({ c with reader := [] }, [], some .header)
  else
    match readUvarint.run (c.reader.drop 6) with
    -- the decoder has read up to the end of the stream or its limit of ten bytes
    | .error e => ({ c with reader := (c.reader.drop 6).drop 10 }, [], some (.uvarint e))
    | .ok (dataLen, rest) =>
      let c := { c with
        reader := rest
        readRemaining := (Int64.ofNat dataLen).toInt
        readOffset := 0 }
      if c.readRemaining < 0 then (c, [], some .sliceBounds) else c.readData len chunk

/-- The data that a read returns. -/
def step (c : GunConn) (call : ℕ × Chunk) : GunConn × List UInt8 :=
  let (c, data, _) := c.read call.1 call.2
  (c, data)

end GunConn

/-- A call that writes a message. -/
inductive GunWrite where
  | write (b : List UInt8)
  | writeBuffer (headroom : ℕ) (bytes : List UInt8)

namespace GunWrite

def message : GunWrite → List UInt8
  | write b => b
  | writeBuffer _ bytes => bytes

def perform (obfuscated : Bool) : GunWrite → Except BufferPanic (List UInt8)
  | write b => GunConn.write obfuscated b
  | writeBuffer headroom bytes => GunConn.writeBuffer obfuscated headroom bytes

/-- The stream that is written by the calls that return. -/
def stream (obfuscated : Bool) (ws : List GunWrite) : List UInt8 :=
  (ws.filterMap fun w => (w.perform obfuscated).toOption).flatten

/-- The messages of the calls that return. -/
def written (obfuscated : Bool) (ws : List GunWrite) : List (List UInt8) :=
  (ws.filter fun w => (w.perform obfuscated).isOk).map message

end GunWrite

/-! ### GRPCConn -/

/-- A `GRPCConn` with the hunks that `Recv` returns one after the other. -/
structure GRPCConn where
  hunks : List (List UInt8)
  cache : List UInt8 := []
  obfuscated : Bool

namespace GRPCConn

/-- `xorInPlace` of the package `v2raygrpc`. -/
def xorInPlace (data key : List UInt8) : List UInt8 :=
  data.mapIdx fun i b => b ^^^ key.getD (i % key.length) 0

/-- `GRPCConn.Write`: the data of the hunk that is sent. -/
def write (obfuscated : Bool) (b : List UInt8) : List UInt8 :=
  if obfuscated then xorInPlace b grpcObfsKey else b

/-- `GRPCConn.Read` into a buffer of length `len`: the connection and the data. At the end of the
hunks `Recv` fails, and nothing is read. -/
def read (c : GRPCConn) (len : ℕ) : GRPCConn × List UInt8 :=
  if 0 < c.cache.length then ({ c with cache := c.cache.drop len }, c.cache.take len)
  else
    match c.hunks with
    | [] => (c, [])
    | hunk :: hunks =>
      let data := if c.obfuscated ∧ 0 < hunk.length then xorInPlace hunk grpcObfsKey else hunk
      let n := min len data.length
      ({ c with
          hunks := hunks
          cache := if n < data.length then data.drop n else c.cache },
        data.take n)

end GRPCConn

/-! ### The frame of a message -/

/-- A part of a message as it stands in the stream, from the given position on. -/
def cipher (obfuscated : Bool) (offset : ℕ) (bs : List UInt8) : List UInt8 :=
  if obfuscated then xorInPlace bs grpcObfsKey offset else bs

section Cipher

variable (obfuscated : Bool) (offset : ℕ)

@[simp]
theorem cipher_nil : cipher obfuscated offset [] = [] := by
  cases obfuscated <;> rfl

@[simp]
theorem length_cipher (bs : List UInt8) : (cipher obfuscated offset bs).length = bs.length := by
  cases obfuscated with
  | false => rfl
  | true => exact length_xorAt _ _ _

theorem take_cipher (bs : List UInt8) (n : ℕ) :
    (cipher obfuscated offset bs).take n = cipher obfuscated offset (bs.take n) := by
  cases obfuscated with
  | false => rfl
  | true => exact take_xorAt _ _ _ _

theorem drop_cipher (bs : List UInt8) {n : ℕ} (hn : n ≤ bs.length) :
    (cipher obfuscated offset bs).drop n =
      cipher obfuscated (if obfuscated then offset + n else offset) (bs.drop n) := by
  cases obfuscated with
  | false => rfl
  | true => exact drop_xorAt _ _ _ hn

/-- The obfuscation is undone by applying it again. -/
theorem cipher_cipher (bs : List UInt8) :
    cipher obfuscated offset (cipher obfuscated offset bs) = bs := by
  cases obfuscated with
  | false => rfl
  | true => exact xorAt_xorAt _ _ _

/-- The guards against empty data change nothing. -/
theorem ite_pos_cipher (bs : List UInt8) {n : ℕ} (hn : n = bs.length) :
    (if obfuscated ∧ 0 < n then xorInPlace bs grpcObfsKey offset else bs) =
      cipher obfuscated offset bs := by
  rcases Nat.eq_zero_or_pos n with h0 | hpos
  · obtain rfl := List.eq_nil_of_length_eq_zero (hn.symm.trans h0)
    rw [cipher_nil]
    split_ifs <;> rfl
  · simp only [hpos, and_true, cipher]

end Cipher

/-- The cipher of `v2raygrpc` is the one of `v2raygrpclite` from the start of the key. -/
theorem GRPCConn.xorInPlace_eq (data key : List UInt8) :
    GRPCConn.xorInPlace data key = Transport.xorInPlace data key 0 := by
  rw [GRPCConn.xorInPlace, Transport.xorInPlace, xorAt]
  simp only [Nat.zero_add, keyAt]

theorem GRPCConn.write_eq (obfuscated : Bool) (b : List UInt8) :
    GRPCConn.write obfuscated b = cipher obfuscated 0 b := by
  rw [GRPCConn.write, cipher, GRPCConn.xorInPlace_eq]

theorem length_hunkHeader (n : ℕ) : (hunkHeader n).length = 6 + uvarintLen n := by
  rw [← length_putUvarint]
  exact List.length_append

theorem drop_hunkHeader (n : ℕ) (rest : List UInt8) :
    (hunkHeader n ++ rest).drop 6 = putUvarint n ++ rest := rfl

/-- A message as a frame of the stream. -/
def frame (obfuscated : Bool) (m : List UInt8) : List UInt8 :=
  hunkHeader m.length ++ cipher obfuscated 0 m

theorem length_frame (obfuscated : Bool) (m : List UInt8) :
    (frame obfuscated m).length = 6 + uvarintLen m.length + m.length := by
  rw [frame, List.length_append, length_hunkHeader, length_cipher]

/-- `Write` allocates what it writes, so that neither step of it panics. -/
theorem GunConn.write_eq (obfuscated : Bool) (b : List UInt8) :
    GunConn.write obfuscated b = .ok (frame obfuscated b) := by
  have hheader := length_hunkHeader b.length
  have hroom : (hunkHeader b.length).length ≤
      (Buffer.newSize (6 + uvarintLen b.length + b.length)).free := by
    change _ ≤ 6 + uvarintLen b.length + b.length - 0
    omega
  have hbytes := Buffer.fill_bytes hroom
  have hfree : (cipher obfuscated 0 b).length ≤
      ((Buffer.newSize (6 + uvarintLen b.length + b.length)).fill (hunkHeader b.length)).free := by
    rw [Buffer.free, hbytes, length_cipher]
    change _ ≤ 6 + uvarintLen b.length + b.length - (hunkHeader b.length).length
    omega
  rw [GunConn.write, Buffer.writeAll, if_pos hroom]
  change (Buffer.write _ _ (cipher obfuscated 0 b) >>= fun buffer => pure buffer.bytes) = _
  rw [Buffer.write_eq_fill hfree]
  exact congrArg Except.ok ((Buffer.fill_bytes hfree).trans (congrArg (· ++ _) hbytes))

/-- `WriteBuffer` writes the same frame, if there is room for the header. -/
theorem GunConn.writeBuffer_eq (obfuscated : Bool) (headroom : ℕ) (bytes : List UInt8) :
    GunConn.writeBuffer obfuscated headroom bytes =
      if headroom < 6 + uvarintLen bytes.length then .error .overflow
      else .ok (frame obfuscated bytes) := by
  simp only [GunConn.writeBuffer, frame, ite_pos_cipher obfuscated 0 bytes rfl]

namespace GunWrite

variable (obfuscated : Bool)

/-- A call that returns has written the frame of its message. -/
theorem perform_eq_ok {w : GunWrite} {bs : List UInt8} (h : w.perform obfuscated = .ok bs) :
    bs = frame obfuscated w.message := by
  cases w with
  | write b => exact (Except.ok.inj ((GunConn.write_eq obfuscated b).symm.trans h)).symm
  | writeBuffer headroom bytes =>
    rw [perform, GunConn.writeBuffer_eq] at h
    split_ifs at h
    exact (Except.ok.inj h).symm

/-- The stream consists of the frames of the messages. -/
theorem stream_eq (ws : List GunWrite) :
    stream obfuscated ws = (written obfuscated ws).flatMap (frame obfuscated) := by
  induction ws with
  | nil => rfl
  | cons w ws ih =>
    rw [stream, written, List.filterMap_cons, List.filter_cons]
    cases hw : w.perform obfuscated with
    | error e => exact ih
    | ok bs =>
      rw [perform_eq_ok obfuscated hw]
      exact congrArg (frame obfuscated w.message ++ ·) ih

end GunWrite

/-! ### Reading a `GunConn` -/

/-- The stream that carries the rest of a hunk, from the given position of the key on, and whole
messages after it. -/
def encoding (obfuscated : Bool) (offset : ℕ) (rest : List UInt8) (ms : List (List UInt8)) :
    List UInt8 :=
  cipher obfuscated offset rest ++ ms.flatMap (frame obfuscated)

theorem encoding_nil (obfuscated : Bool) (offset : ℕ) : encoding obfuscated offset [] [] = [] := by
  rw [encoding, cipher_nil]
  rfl

theorem encoding_cons (obfuscated : Bool) (offset : ℕ) (m : List UInt8) (ms : List (List UInt8)) :
    encoding obfuscated offset [] (m :: ms) =
      hunkHeader m.length ++ encoding obfuscated 0 m ms := by
  rw [encoding, encoding, cipher_nil, List.nil_append, List.flatMap_cons, frame, List.append_assoc]

theorem eq_nil_of_encoding_eq_nil {obfuscated : Bool} {offset : ℕ} {rest : List UInt8}
    {ms : List (List UInt8)} (h : encoding obfuscated offset rest ms = []) :
    rest = [] ∧ ms = [] := by
  obtain ⟨hrest, hms⟩ := List.append_eq_nil_iff.mp h
  constructor
  · rw [← List.length_eq_zero_iff, ← length_cipher obfuscated offset, hrest, List.length_nil]
  · cases ms with
    | nil => rfl
    | cons m ms =>
      have hlen := congrArg List.length hms
      rw [List.flatMap_cons, List.length_append, length_frame, List.length_nil] at hlen
      omega

namespace GunConn

/-- The connection has still to deliver `p`: the rest of the current hunk, whose obfuscation goes
on at `readOffset`, and whole messages. The stream may have been cut, unless `whole` holds. -/
def Pending (whole : Prop) (c : GunConn) (p : List UInt8) : Prop :=
  ∃ rest ms, p = rest ++ ms.flatten ∧ (∀ m ∈ ms, m.length < 2 ^ 63) ∧
    c.readRemaining = rest.length ∧
    c.reader <+: encoding c.obfuscated c.readOffset rest ms ∧
    (whole → c.reader = encoding c.obfuscated c.readOffset rest ms)

variable {whole : Prop} {c : GunConn} {p : List UInt8}

/-- A piece of the current hunk is delivered, and the position in the key moves with it. -/
theorem pending_readData (h : Pending whole c p) (len : ℕ) (chunk : Chunk) :
    ∃ q, p = (c.readData len chunk).2.1 ++ q ∧ Pending whole (c.readData len chunk).1 q := by
  obtain ⟨rest, ms, rfl, hms, hremaining, hreader, hwhole⟩ := h
  obtain ⟨n, hn⟩ : ∃ n, n = min chunk.size (min (min len c.readRemaining.toNat) c.reader.length) :=
    ⟨_, rfl⟩
  have hrest : n ≤ rest.length := by omega
  have hlen : n ≤ c.reader.length := by omega
  have hcipher : n ≤ (cipher c.obfuscated c.readOffset rest).length := by rwa [length_cipher]
  have hdata : c.reader.take n = cipher c.obfuscated c.readOffset (rest.take n) := by
    obtain ⟨tail, htail⟩ := hreader
    rw [← take_cipher, ← List.take_append_of_le_length hlen, htail, encoding,
      List.take_append_of_le_length hcipher]
  have hplain : (if c.obfuscated ∧ 0 < n then
      xorInPlace (c.reader.take n) grpcObfsKey c.readOffset else c.reader.take n) =
        rest.take n := by
    rw [ite_pos_cipher _ _ _ (by rw [List.length_take, Nat.min_eq_left hlen]), hdata, cipher_cipher]
  have hoffset : (if c.obfuscated ∧ 0 < n then c.readOffset + n else c.readOffset) =
      if c.obfuscated then c.readOffset + n else c.readOffset := by
    rcases Nat.eq_zero_or_pos n with h0 | hpos
    · simp only [h0, Nat.add_zero, ite_self]
    · simp only [hpos, and_true]
  have hdrop : (encoding c.obfuscated c.readOffset rest ms).drop n =
      encoding c.obfuscated (if c.obfuscated then c.readOffset + n else c.readOffset)
        (rest.drop n) ms := by
    rw [encoding, List.drop_append_of_le_length hcipher, drop_cipher _ _ _ hrest, encoding]
  simp only [readData, ← hn, hplain, hoffset]
  refine ⟨rest.drop n ++ ms.flatten, ?_, rest.drop n, ms, rfl, hms, ?_, ?_, ?_⟩
  · rw [← List.append_assoc, List.take_append_drop]
  · change c.readRemaining - n = _
    rw [List.length_drop]
    omega
  · rw [← hdrop]
    exact hreader.drop n
  · intro hw
    rw [← hdrop, ← hwhole hw]

/-- Between two hunks, a stream that is long enough for the fixed part of a header goes on with the
length of a message and its data. -/
theorem Pending.header (h : Pending whole c p) (hdone : ¬ 0 < c.readRemaining)
    (hlen : ¬ c.reader.length < 6) :
    ∃ m ms, p = m ++ ms.flatten ∧ (∀ m' ∈ m :: ms, m'.length < 2 ^ 63) ∧ c.readRemaining = 0 ∧
      c.reader.drop 6 <+: putUvarint m.length ++ encoding c.obfuscated 0 m ms ∧
      (whole → c.reader.drop 6 = putUvarint m.length ++ encoding c.obfuscated 0 m ms) := by
  obtain ⟨rest, ms, rfl, hms, hremaining, hreader, hwhole⟩ := h
  obtain rfl : rest = [] := List.eq_nil_of_length_eq_zero (by omega)
  cases ms with
  | nil =>
    have hle := hreader.length_le
    rw [encoding_nil, List.length_nil] at hle
    omega
  | cons m ms =>
    rw [encoding_cons] at hreader hwhole
    refine ⟨m, ms, rfl, hms, hremaining, ?_, fun hw => ?_⟩
    · rw [← drop_hunkHeader]
      exact hreader.drop 6
    · rw [hwhole hw, drop_hunkHeader]

/-- **A read delivers the next part** of what is pending, whatever its buffer and the reader. -/
theorem pending_read (h : Pending whole c p) (len : ℕ) (chunk : Chunk) :
    ∃ q, p = (c.read len chunk).2.1 ++ q ∧ Pending whole (c.read len chunk).1 q := by
  rw [read]
  split_ifs with hdata hshort
  case pos => exact pending_readData h len chunk
  case pos =>
    -- the stream ends before the next header
    obtain ⟨rest, ms, rfl, hms, hremaining, hreader, hwhole⟩ := h
    refine ⟨_, rfl, rest, ms, rfl, hms, hremaining, List.nil_prefix, fun hw => ?_⟩
    obtain rfl : rest = [] := List.eq_nil_of_length_eq_zero (by omega)
    cases ms with
    | nil => exact (encoding_nil _ _).symm
    | cons m ms =>
      rw [hwhole hw, encoding_cons, List.length_append, length_hunkHeader] at hshort
      omega
  case neg =>
    obtain ⟨m, ms, rfl, hms, hzero, hinput, hwhole⟩ := h.header hdata hshort
    have hm : m.length < 2 ^ 63 := hms m List.mem_cons_self
    have hreads : Reads readUvarint (putUvarint m.length) m.length := reads_putUvarint (by omega)
    cases hrun : readUvarint.run (c.reader.drop 6) with
    | error e =>
      -- the stream has been cut inside the length
      have hcut := hreads.length_lt_of_error hinput hrun
      have hten : uvarintLen m.length ≤ 10 := uvarintLen_le (by omega) (by omega)
      rw [length_putUvarint] at hcut
      refine ⟨m ++ ms.flatten, rfl, [], m :: ms, rfl, hms, hzero, ?_, fun hw => ?_⟩
      · dsimp only
        rw [List.drop_of_length_le (by omega)]
        exact List.nil_prefix
      · rw [hwhole hw, List.length_append, length_putUvarint] at hcut
        omega
    | ok r =>
      obtain ⟨dataLen, rest⟩ := r
      obtain ⟨rfl, hrest⟩ := extends_readUvarint.run_cut hreads hinput hrun
      have hint : (Int64.ofNat m.length).toInt = m.length := Int64.toInt_ofNat_of_lt hm
      dsimp only
      rw [if_neg (by omega)]
      refine pending_readData ⟨m, ms, rfl, fun m' hm' => hms m' (List.mem_cons_of_mem m hm'), hint,
        hrest, fun hw => ?_⟩ len chunk
      rw [hwhole hw, hreads] at hrun
      exact (Prod.mk.inj (Except.ok.inj hrun)).2.symm

/-- The connection at the start of a stream. -/
theorem pending_start {obfuscated : Bool} {ms : List (List UInt8)} {arrived : List UInt8}
    (hms : ∀ m ∈ ms, m.length < 2 ^ 63) (harrived : arrived <+: ms.flatMap (frame obfuscated)) :
    Pending (arrived = ms.flatMap (frame obfuscated))
      { reader := arrived, obfuscated := obfuscated } ms.flatten := by
  have hencoding : encoding obfuscated 0 [] ms = ms.flatMap (frame obfuscated) := by
    rw [encoding, cipher_nil, List.nil_append]
  exact ⟨[], ms, rfl, hms, rfl, hencoding ▸ harrived, fun hw => hw.trans hencoding.symm⟩

/-- Nothing is pending at the end of a stream that has not been cut. -/
theorem Pending.eq_nil (h : Pending whole c p) (hw : whole) (hend : c.reader = []) : p = [] := by
  obtain ⟨rest, ms, rfl, -, -, -, hwhole⟩ := h
  obtain ⟨rfl, rfl⟩ := eq_nil_of_encoding_eq_nil ((hwhole hw).symm.trans hend)
  rfl

theorem length_reader_readData_le (c : GunConn) (len : ℕ) (chunk : Chunk) :
    (c.readData len chunk).1.reader.length ≤ c.reader.length := by
  rw [readData, List.length_drop]
  exact Nat.sub_le _ _

/-- A read with room in its buffer consumes some of the stream. -/
theorem length_reader_read_le (c : GunConn) {len : ℕ} {chunk : Chunk} (hlen : 0 < len)
    (hsize : 0 < chunk.size) : (c.read len chunk).1.reader.length ≤ c.reader.length - 1 := by
  rw [read]
  split_ifs with hdata hshort
  case pos =>
    rw [readData, List.length_drop]
    omega
  case pos => exact Nat.zero_le _
  case neg =>
    have hdrop : (c.reader.drop 6).length ≤ c.reader.length - 1 := by
      rw [List.length_drop]
      omega
    cases hrun : readUvarint.run (c.reader.drop 6) with
    | error e =>
      refine Nat.le_trans ?_ hdrop
      dsimp only
      rw [List.length_drop]
      exact Nat.sub_le _ _
    | ok r =>
      obtain ⟨dataLen, rest⟩ := r
      have hrest := (shrinks_readUvarintLoop 10 0 0 _ _ _ hrun).trans hdrop
      dsimp only
      split_ifs
      · exact hrest
      · exact (length_reader_readData_le _ len chunk).trans hrest

end GunConn

/-! ### Reading a `GRPCConn` -/

namespace GRPCConn

/-- What the connection has still to deliver. -/
def Pending (c : GRPCConn) (p : List UInt8) : Prop :=
  p = c.cache ++ c.hunks.flatMap (cipher c.obfuscated 0)

/-- **A read delivers the next part** of what is pending. -/
theorem pending_read {c : GRPCConn} {p : List UInt8} (h : Pending c p) (len : ℕ) :
    ∃ q, p = (c.read len).2 ++ q ∧ Pending (c.read len).1 q := by
  obtain rfl : p = _ := h
  rw [read]
  split_ifs with hcache
  · exact ⟨_, by rw [← List.append_assoc, List.take_append_drop], rfl⟩
  · have hnil : c.cache = [] := List.eq_nil_of_length_eq_zero (by omega)
    cases hhunks : c.hunks with
    | nil =>
      rw [hnil]
      exact ⟨[], rfl, by rw [Pending, hnil, hhunks]; rfl⟩
    | cons hunk hunks =>
      have hplain : (if c.obfuscated ∧ 0 < hunk.length then xorInPlace hunk grpcObfsKey else hunk) =
          cipher c.obfuscated 0 hunk := by
        rw [xorInPlace_eq, ite_pos_cipher _ _ _ rfl]
      -- the cache holds exactly what did not fit, which may be nothing
      have hrest : (if min len hunk.length < hunk.length then
          (cipher c.obfuscated 0 hunk).drop (min len hunk.length) else c.cache) =
          (cipher c.obfuscated 0 hunk).drop (min len hunk.length) := by
        split_ifs with hlt
        · rfl
        · rw [hnil, List.drop_of_length_le (by rw [length_cipher]; omega)]
      simp only [hplain, length_cipher, hrest]
      refine ⟨_, ?_, rfl⟩
      rw [hnil, List.nil_append, List.flatMap_cons, ← List.append_assoc, List.take_append_drop]

/-- The connection when the messages have been sent. -/
theorem pending_start (obfuscated : Bool) (ms : List (List UInt8)) :
    Pending { hunks := ms.map (write obfuscated), obfuscated := obfuscated } ms.flatten := by
  rw [Pending, List.nil_append, List.flatMap_map, List.flatten_eq_flatMap]
  refine List.flatMap_congr fun m _ => ?_
  rw [write_eq, cipher_cipher]
  rfl

/-- What is left to do for a connection: the bytes of the cache and of the hunks, and the hunks. -/
def left (c : GRPCConn) : ℕ :=
  c.cache.length + (c.hunks.map fun hunk => hunk.length + 1).sum

theorem left_read_le (c : GRPCConn) {len : ℕ} (hlen : 0 < len) :
    (c.read len).1.left ≤ c.left - 1 := by
  rw [read]
  split_ifs with hcache
  · simp only [left, List.length_drop]
    omega
  · cases hhunks : c.hunks with
    | nil =>
      simp only [left, hhunks, List.map_nil, List.sum_nil]
      omega
    | cons hunk hunks =>
      have hlength : (if c.obfuscated ∧ 0 < hunk.length then xorInPlace hunk grpcObfsKey
          else hunk).length = hunk.length := by
        rw [xorInPlace_eq, ite_pos_cipher _ _ _ rfl, length_cipher]
      simp only [left, hhunks, List.map_cons, List.sum_cons, apply_ite List.length,
        List.length_drop]
      rw [← apply_ite List.length, hlength]
      split_ifs <;> omega

theorem left_eq_zero {c : GRPCConn} (h : c.left = 0) : c.cache = [] ∧ c.hunks = [] := by
  rw [left, Nat.add_eq_zero_iff] at h
  refine ⟨List.eq_nil_of_length_eq_zero h.1, ?_⟩
  cases hhunks : c.hunks with
  | nil => rfl
  | cons hunk hunks =>
    rw [hhunks, List.map_cons, List.sum_cons] at h
    omega

end GRPCConn

/-! ### What a peer reads -/

/-- What is read from a `GunConn` is a first part of what has been written, all of it at the end of
the whole stream, and enough reads reach the end. -/
theorem GunConn.received_step {obfuscated : Bool} {ms : List (List UInt8)} {arrived : List UInt8}
    (hms : ∀ m ∈ ms, m.length < 2 ^ 63) (harrived : arrived <+: ms.flatMap (frame obfuscated))
    (calls : List (ℕ × Chunk)) :
    let c : GunConn := { reader := arrived, obfuscated := obfuscated }
    let final := calls.foldl (fun c call => (c.step call).1) c
    received GunConn.step c calls <+: ms.flatten ∧
      (arrived = ms.flatMap (frame obfuscated) → final.reader = [] →
        received GunConn.step c calls = ms.flatten) ∧
      ((∀ call ∈ calls, 0 < call.1 ∧ 0 < call.2.size) → arrived.length ≤ calls.length →
        final.reader = []) := by
  intro c final
  obtain ⟨q, hq, hpending⟩ := exists_pending_received GunConn.step
    (fun s call p h => GunConn.pending_read h call.1 call.2) calls
    (GunConn.pending_start hms harrived)
  refine ⟨⟨q, hq.symm⟩, fun hw hend => ?_, fun hcalls hlen => ?_⟩
  · rw [hq, hpending.eq_nil hw hend, List.append_nil]
  · refine List.eq_nil_of_length_eq_zero ?_
    refine measure_foldl_eq_zero GunConn.step (fun c => c.reader.length)
      (fun s call hcall => ?_) hlen
    exact GunConn.length_reader_read_le s (hcalls call hcall).1 (hcalls call hcall).2

theorem GRPCConn.received_read (obfuscated : Bool) (ms : List (List UInt8)) (lens : List ℕ) :
    let c : GRPCConn := { hunks := ms.map (GRPCConn.write obfuscated), obfuscated := obfuscated }
    let final := lens.foldl (fun c len => (c.read len).1) c
    received GRPCConn.read c lens <+: ms.flatten ∧
      (final.cache = [] → final.hunks = [] → received GRPCConn.read c lens = ms.flatten) ∧
      ((∀ len ∈ lens, 0 < len) → (ms.map fun m => m.length + 1).sum ≤ lens.length →
        final.cache = [] ∧ final.hunks = []) := by
  intro c final
  obtain ⟨q, hq, hpending⟩ := exists_pending_received GRPCConn.read
    (fun s len p h => GRPCConn.pending_read h len) lens (GRPCConn.pending_start obfuscated ms)
  refine ⟨⟨q, hq.symm⟩, fun hcache hhunks => ?_, fun hlens hlen => ?_⟩
  · have hnil : q = [] := by
      rw [show q = _ from hpending, hcache, hhunks]
      rfl
    rw [hq, hnil, List.append_nil]
  · have hleft : c.left = (ms.map fun m => m.length + 1).sum := by
      rw [GRPCConn.left, List.map_map]
      change 0 + _ = _
      rw [Nat.zero_add]
      congr 1
      refine List.map_congr_left fun m _ => ?_
      rw [Function.comp_apply, GRPCConn.write_eq, length_cipher]
    exact GRPCConn.left_eq_zero (measure_foldl_eq_zero GRPCConn.read _
      (fun s len hmem => GRPCConn.left_read_le s (hlens len hmem)) (hleft.trans_le hlen))

/-- **The obfuscation is transparent.** Let messages be written through `Write` and `WriteBuffer`
in any mix, and let any first part of the stream arrive at the peer. Then the data that the reads
of the peer return, for all sizes of their buffers and for every way in which the reader splits
the stream, is a first part of the messages. It is all of them once the whole stream has been
read, and reads with non-empty buffers get there. The same holds of the other transport, and both
transports make the same hunk of a message. -/
theorem obfuscation_transparent (obfuscated : Bool) :
    (∀ ws : List GunWrite, (∀ w ∈ ws, w.message.length < 2 ^ 63) →
      ∀ arrived, arrived <+: GunWrite.stream obfuscated ws → ∀ calls : List (ℕ × Chunk),
        let c : GunConn := { reader := arrived, obfuscated := obfuscated }
        let final := calls.foldl (fun c call => (c.step call).1) c
        let sent := (GunWrite.written obfuscated ws).flatten
        received GunConn.step c calls <+: sent ∧
          (arrived = GunWrite.stream obfuscated ws → final.reader = [] →
            received GunConn.step c calls = sent) ∧
          ((∀ call ∈ calls, 0 < call.1 ∧ 0 < call.2.size) → arrived.length ≤ calls.length →
            final.reader = [])) ∧
    (∀ (ms : List (List UInt8)) (lens : List ℕ),
      let c : GRPCConn := { hunks := ms.map (GRPCConn.write obfuscated), obfuscated := obfuscated }
      let final := lens.foldl (fun c len => (c.read len).1) c
      received GRPCConn.read c lens <+: ms.flatten ∧
        (final.cache = [] → final.hunks = [] → received GRPCConn.read c lens = ms.flatten) ∧
        ((∀ len ∈ lens, 0 < len) → (ms.map fun m => m.length + 1).sum ≤ lens.length →
          final.cache = [] ∧ final.hunks = [])) ∧
    ∀ (m : List UInt8) (headroom : ℕ), m.length < 2 ^ 63 → GunConn.frontHeadroom ≤ headroom →
      GunConn.write obfuscated m = .ok (hunkHeader m.length ++ GRPCConn.write obfuscated m) ∧
        GunConn.writeBuffer obfuscated headroom m =
          .ok (hunkHeader m.length ++ GRPCConn.write obfuscated m) := by
  refine ⟨fun ws hws arrived harrived calls => ?_, GRPCConn.received_read obfuscated,
    fun m headroom hm hroom => ?_⟩
  · rw [GunWrite.stream_eq] at harrived ⊢
    refine GunConn.received_step (fun m hm => ?_) harrived calls
    obtain ⟨w, hw, rfl⟩ := List.mem_map.mp hm
    exact hws w (List.mem_of_mem_filter hw)
  · have hten : uvarintLen m.length ≤ 10 := uvarintLen_le (by omega) (by omega)
    rw [GunConn.frontHeadroom] at hroom
    rw [GRPCConn.write_eq, GunConn.write_eq, GunConn.writeBuffer_eq, if_neg (by omega)]
    exact ⟨rfl, rfl⟩

/-- Two messages, one through each of the write calls, are read byte by byte. -/
theorem obfuscation_transparent_two_messages :
    received GunConn.step
      { reader := GunWrite.stream true [.write [1, 2, 3], .writeBuffer 16 [4, 5]],
        obfuscated := true } (List.replicate 19 (1, ⟨1, none⟩)) = [1, 2, 3, 4, 5] := by
  have htwo : uvarintLen 2 = 1 := by rw [uvarintLen, if_pos (by decide)]
  have hthree : uvarintLen 3 = 1 := by rw [uvarintLen, if_pos (by decide)]
  have hwritten : GunWrite.written true [.write [1, 2, 3], .writeBuffer 16 [4, 5]] =
      [[1, 2, 3], [4, 5]] := by
    simp [GunWrite.written, GunWrite.perform, GunWrite.message, GunConn.write_eq,
      GunConn.writeBuffer_eq, htwo, Except.isOk, Except.toBool]
  have hlen : (GunWrite.stream true [.write [1, 2, 3], .writeBuffer 16 [4, 5]]).length = 19 := by
    rw [GunWrite.stream_eq, hwritten]
    simp [length_frame, htwo, hthree]
  obtain ⟨-, hall, hend⟩ := (obfuscation_transparent true).1
    [.write [1, 2, 3], .writeBuffer 16 [4, 5]] (by simp [GunWrite.message]) _
    (List.prefix_refl _) (List.replicate 19 (1, ⟨1, none⟩))
  refine (hall rfl (hend (fun call hcall => ?_) ?_)).trans (by rw [hwritten]; rfl)
  · rw [List.eq_of_mem_replicate hcall]
    exact ⟨Nat.one_pos, Nat.one_pos⟩
  · rw [hlen, List.length_replicate]

end Tox.Transport
