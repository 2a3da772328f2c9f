import Mathlib.Algebra.BigOperators.Group.Finset.Basic
import Tox.Common.Counter
import Tox.Foundation.Run

/-!
# Metered connections

The sing core wraps the connection of a user twice. `rate.Conn` takes tokens from the bucket of the
user before each call, and `counter.ConnCounter` adds the bytes of each call to the storage of the
user; packet connections get a `counter.PacketConnCounter` only.

A connection is given by its state and by what its calls do to it. The amounts that it has really
moved, in each direction, are part of the description (`NetConn.moved`), and the calls are related
to them by the laws of the structure: a plain call moves as many bytes as it says, and a call with a
buffer moves the whole buffer, or nothing if it returns an error. `Read` is the upward direction of
a user, `Write` the downward one.

The counters count what is moved, on all paths and for all connections that share a storage
(`Connections.counters_exact`). The bucket is charged for the size of the buffer, whatever is moved,
so the two agree exactly if every call fills its buffer (`NetConn.charge_eq_moved_iff`).
-/

namespace Tox.Conn

open Tox.Foundation Tox.Counter

/-! ### Connections -/

/-- A `net.Conn` with the state `σ` and the errors `ε`. -/
structure NetConn (σ ε : Type*) where
  /-- The bytes that have been read (`.up`) and written (`.down`). -/
  moved : σ → Direction → ℕ
  /-- `Read` (`.up`) and `Write` (`.down`) with a buffer of a given size: the number of bytes, which
  may be smaller, and the error. -/
  transfer : Direction → σ → ℕ → σ × ℕ × Option ε
  transfer_le : ∀ d s size, (transfer d s size).2.1 ≤ size
  moved_transfer : ∀ d s size d', moved (transfer d s size).1 d' =
    moved s d' + if d' = d then (transfer d s size).2.1 else 0

/-- The length of the buffer after a successful call. -/
def filled {ε : Type*} : Except ε ℕ → ℕ
  | .ok len => len
  | .error _ => 0

/-- A connection whose calls take buffers: a `network.PacketConn`. The address of a packet plays no
part. -/
structure BufferConn (σ ε : Type*) where
  moved : σ → Direction → ℕ
  /-- `ReadPacket` or `ReadBuffer` into an empty buffer: the length of the buffer afterwards. -/
  readBuffer : σ → σ × Except ε ℕ
  /-- `WritePacket` or `WriteBuffer` of a buffer of a given length. -/
  writeBuffer : σ → ℕ → σ × Option ε
  moved_readBuffer : ∀ s d, moved (readBuffer s).1 d =
    moved s d + if d = .up then filled (readBuffer s).2 else 0
  moved_writeBuffer : ∀ s len d, moved (writeBuffer s len).1 d =
    moved s d + if d = .down then (if (writeBuffer s len).2.isNone then len else 0) else 0

/-- A `network.ExtendedConn`. -/
structure ExtendedConn (σ ε : Type*) extends NetConn σ ε, BufferConn σ ε

variable {σ τ ε : Type*}

/-! ### The rate limit -/

/-- The tokens that have been taken from a bucket after `Bucket.Wait(count)`, which takes nothing
for a count that is not positive. -/
def wait (taken : ℕ) (count : ℤ) : ℕ := taken + count.toNat

/-- `rate.Conn`: the connection with the tokens that have been taken from the bucket. Its `Read` and
its `Write` both wait for as many tokens as the buffer is long. -/
def NetConn.rateLimited (C : NetConn σ ε) : NetConn (σ × ℕ) ε where
  moved s := C.moved s.1
  transfer d s size :=
    let taken := wait s.2 size
    let (conn, result) := C.transfer d s.1 size
    ((conn, taken), result)
  transfer_le d s size := C.transfer_le d s.1 size
  moved_transfer d s size d' := C.moved_transfer d s.1 size d'

namespace NetConn

variable (C : NetConn σ ε)

/-- The bytes that have been moved in either direction. -/
def movedBoth (s : σ) : ℕ := C.moved s .up + C.moved s .down

theorem movedBoth_transfer (d : Direction) (s : σ) (size : ℕ) :
    C.movedBoth (C.transfer d s size).1 = C.movedBoth s + (C.transfer d s size).2.1 := by
  rw [movedBoth, movedBoth, C.moved_transfer, C.moved_transfer]
  rcases d with _ | _
  · rw [if_pos rfl, if_neg (by decide), Nat.add_zero, Nat.add_right_comm]
  · rw [if_pos rfl, if_neg (by decide), Nat.add_zero, Nat.add_assoc]

/-- A call of `Read` or `Write`, with the size of its buffer. -/
abbrev Call := Direction × ℕ

/-- The connection after a call. -/
def step (s : σ) (c : Call) : σ := (C.transfer c.1 s c.2).1

/-- The call moves as many bytes as its buffer is long. -/
def Fills (s : σ) (c : Call) : Prop := (C.transfer c.1 s c.2).2.1 = c.2

instance (s : σ) (c : Call) : Decidable (C.Fills s c) := inferInstanceAs (Decidable (_ = _))

/-- A call with the rate limit takes a token for each byte that it moves, and some that no byte has
used unless it fills its buffer. -/
theorem step_rateLimited (s : σ × ℕ) (c : Call) :
    ∃ bytes unused, C.movedBoth (C.rateLimited.step s c).1 = C.movedBoth s.1 + bytes ∧
      (C.rateLimited.step s c).2 = s.2 + bytes + unused ∧
      (unused = 0 ↔ C.rateLimited.Fills s c) := by
  have htaken : (C.rateLimited.step s c).2 = s.2 + c.2 := rfl
  have hfills : C.rateLimited.Fills s c ↔ (C.transfer c.1 s.1 c.2).2.1 = c.2 := Iff.rfl
  have hle := C.transfer_le c.1 s.1 c.2
  refine ⟨(C.transfer c.1 s.1 c.2).2.1, c.2 - (C.transfer c.1 s.1 c.2).2.1,
    C.movedBoth_transfer c.1 s.1 c.2, ?_, ?_⟩
  · omega
  · rw [hfills]
    omega

/-- **The charge of a rate-limited connection.** In a sequence of calls on a connection, the tokens
that are taken are never fewer than the bytes that are moved. They are as many if and only if every
call moves as many bytes as its buffer is long. -/
theorem charge_eq_moved_iff (s : σ) (taken : ℕ) (calls : List Call) :
    ∃ bytes tokens,
      C.movedBoth (calls.foldl C.rateLimited.step (s, taken)).1 = C.movedBoth s + bytes ∧
      (calls.foldl C.rateLimited.step (s, taken)).2 = taken + tokens ∧ bytes ≤ tokens ∧
      (tokens = bytes ↔ Guarded C.rateLimited.step C.rateLimited.Fills (s, taken) calls) := by
  induction calls generalizing s taken with
  | nil => exact ⟨0, 0, rfl, rfl, le_rfl, iff_of_true rfl trivial⟩
  | cons c calls ih =>
    obtain ⟨first, unused, hmoved, htaken, hfills⟩ := C.step_rateLimited (s, taken) c
    obtain ⟨rest, tokens, hmoved', htaken', hle, hguarded⟩ :=
      ih (C.rateLimited.step (s, taken) c).1 (C.rateLimited.step (s, taken) c).2
    refine ⟨first + rest, first + unused + tokens, ?_, ?_, ?_, ?_⟩
    · rw [List.foldl_cons, hmoved', hmoved, Nat.add_assoc]
    · rw [List.foldl_cons, htaken', htaken, Nat.add_assoc, Nat.add_assoc, Nat.add_assoc]
    · omega
    · rw [Guarded, ← hfills, ← hguarded]
      omega

end NetConn

/-- A connection of which every call moves one byte, if its buffer has room for it: the state is the
number of bytes that have been read and written. -/
def oneByte : NetConn (Direction → ℕ) String where
  moved s := s
  transfer d s size := (Function.update s d (s d + min size 1), min size 1, none)
  transfer_le _ _ size := Nat.min_le_left size 1
  moved_transfer d s size d' := by
    dsimp only
    split_ifs with h
    · subst h
      exact Function.update_self ..
    · exact Function.update_of_ne h ..

/-- **A short read is charged in full.** One byte is read into a buffer of 4096 bytes, and one byte
is written. -/
theorem oneByte_overcharged :
    let after := [(.up, 4096), (.down, 1)].foldl oneByte.rateLimited.step (fun _ => 0, 0)
    oneByte.movedBoth after.1 = 2 ∧ after.2 = 4097 := by
  decide

/-! ### The counters -/

/-- A call on a connection that belongs to a storage. -/
abbrev Counted (σ : Type*) := σ × TrafficStorage

namespace ConnCounter

variable (C : ExtendedConn σ ε)

/-- `ConnCounter.Read`. -/
def read (s : Counted σ) (size : ℕ) : Counted σ × ℕ × Option ε :=
  let (conn, n, err) := C.transfer .up s.1 size
  ((conn, s.2.add .up (Int64.ofNat n)), n, err)

/-- `ConnCounter.Write`. -/
def write (s : Counted σ) (size : ℕ) : Counted σ × ℕ × Option ε :=
  let (conn, n, err) := C.transfer .down s.1 size
  ((conn, s.2.add .down (Int64.ofNat n)), n, err)

/-- `ConnCounter.ReadBuffer` into an empty buffer. -/
def readBuffer (s : Counted σ) : Counted σ × Except ε ℕ :=
  match C.readBuffer s.1 with
  | (conn, .error err) => ((conn, s.2), .error err)
  | (conn, .ok len) =>
    ((conn, if 0 < len then s.2.add .up (Int64.ofNat len) else s.2), .ok len)

/-- `ConnCounter.WriteBuffer`. The length is taken before the call, which consumes the buffer. -/
def writeBuffer (s : Counted σ) (len : ℕ) : Counted σ × Option ε :=
  let dataLen := Int64.ofNat len
  match C.writeBuffer s.1 len with
  | (conn, some err) => ((conn, s.2), some err)
  | (conn, none) => ((conn, if 0 < len then s.2.add .down dataLen else s.2), none)

/-- The count functions of `ConnCounter.UnwrapReader`. -/
def unwrapReader : List (Int64 → TrafficStorage → TrafficStorage) := [fun n s => s.add .up n]

/-- The count functions of `ConnCounter.UnwrapWriter`. -/
def unwrapWriter : List (Int64 → TrafficStorage → TrafficStorage) := [fun n s => s.add .down n]

end ConnCounter

/-- The count functions are called with a number of bytes. -/
def countAll (counts : List (Int64 → TrafficStorage → TrafficStorage)) (n : ℕ)
    (s : TrafficStorage) : TrafficStorage :=
  counts.foldl (fun s count => count (Int64.ofNat n) s) s

namespace PacketConnCounter

variable (P : BufferConn τ ε)

/-- `PacketConnCounter.ReadPacket` into an empty buffer. -/
def readPacket (s : Counted τ) : Counted τ × Except ε ℕ :=
  match P.readBuffer s.1 with
  | (conn, .error err) => ((conn, s.2), .error err)
  | (conn, .ok len) => ((conn, s.2.add .up (Int64.ofNat len)), .ok len)

/-- `PacketConnCounter.WritePacket`. -/
def writePacket (s : Counted τ) (len : ℕ) : Counted τ × Option ε :=
  match P.writeBuffer s.1 len with
  | (conn, some err) => ((conn, s.2), some err)
  | (conn, none) => ((conn, if 0 < len then s.2.add .down (Int64.ofNat len) else s.2), none)

/-- The count functions of `PacketConnCounter.UnwrapPacketReader`. -/
def unwrapPacketReader : List (Int64 → TrafficStorage → TrafficStorage) := [fun n s => s.add .up n]

/-- The count functions of `PacketConnCounter.UnwrapPacketWriter`. -/
def unwrapPacketWriter : List (Int64 → TrafficStorage → TrafficStorage) :=
  [fun n s => s.add .down n]

end PacketConnCounter

/-- A call on a stream connection. The unwrapped calls are made on the connection underneath, and
the count functions are called afterwards. -/
inductive StreamCall
  | read (size : ℕ)
  | write (size : ℕ)
  | readBuffer
  | writeBuffer (len : ℕ)
  | readUnwrapped (size : ℕ)
  | writeUnwrapped (size : ℕ)

/-- A call on a packet connection. -/
inductive PacketCall
  | readPacket
  | writePacket (len : ℕ)
  | readUnwrapped
  | writeUnwrapped (len : ℕ)

/-- The stream connection and the storage after a call. -/
def ConnCounter.call (C : ExtendedConn σ ε) (s : Counted σ) : StreamCall → Counted σ
  | .read size => (read C s size).1
  | .write size => (write C s size).1
  | .readBuffer => (readBuffer C s).1
  | .writeBuffer len => (writeBuffer C s len).1
  | .readUnwrapped size =>
    let (conn, n, _) := C.transfer .up s.1 size
    (conn, countAll unwrapReader n s.2)
  | .writeUnwrapped size =>
    let (conn, n, _) := C.transfer .down s.1 size
    (conn, countAll unwrapWriter n s.2)

/-- The packet connection and the storage after a call. -/
def PacketConnCounter.call (P : BufferConn τ ε) (s : Counted τ) : PacketCall → Counted τ
  | .readPacket => (readPacket P s).1
  | .writePacket len => (writePacket P s len).1
  | .readUnwrapped =>
    let (conn, result) := P.readBuffer s.1
    (conn, countAll unwrapPacketReader (filled result) s.2)
  | .writeUnwrapped len =>
    let (conn, err) := P.writeBuffer s.1 len
    (conn, countAll unwrapPacketWriter (if err.isNone then len else 0) s.2)

/-! ### One call -/

/-- The storage has grown by what has been moved, in both directions. -/
def Accounts (moved : σ → Direction → ℕ) (s s' : Counted σ) : Prop :=
  ∃ bytes : Direction → ℕ, ∀ d, moved s'.1 d = moved s.1 d + bytes d ∧
    s'.2.get d = s.2.get d + Int64.ofNat (bytes d)

section Accounts

variable {moved : σ → Direction → ℕ} {conn conn' : σ} {s : TrafficStorage} {d : Direction} {n : ℕ}

/-- The bytes of one direction are added to the counter of the direction. -/
theorem accounts_add
    (h : ∀ d', moved conn' d' = moved conn d' + if d' = d then n else 0) :
    Accounts moved (conn, s) (conn', s.add d (Int64.ofNat n)) := by
  refine ⟨fun d' => if d' = d then n else 0, fun d' => ⟨h d', ?_⟩⟩
  dsimp only
  rw [TrafficStorage.get_add]
  split_ifs
  · rfl
  · exact (Int64.add_zero _).symm

/-- An amount of zero need not be added. -/
theorem accounts_add_of_pos
    (h : ∀ d', moved conn' d' = moved conn d' + if d' = d then n else 0) :
    Accounts moved (conn, s)
      (conn', if 0 < n then s.add d (Int64.ofNat n) else s) := by
  split_ifs with hpos
  · exact accounts_add h
  · have hzero : n = 0 := Nat.eq_zero_of_not_pos hpos
    refine ⟨fun _ => 0, fun d' => ⟨?_, (Int64.add_zero _).symm⟩⟩
    rw [h d', hzero, ite_self]

theorem accounts_of_eq (h : ∀ d', moved conn' d' = moved conn d') :
    Accounts moved (conn, s) (conn', s) :=
  ⟨fun _ => 0, fun d' => ⟨h d', (Int64.add_zero _).symm⟩⟩

end Accounts

/-- Every call on a stream connection is counted once, with the bytes that it moves. -/
theorem ConnCounter.accounts_call (C : ExtendedConn σ ε) (s : Counted σ) (c : StreamCall) :
    Accounts C.moved s (call C s c) := by
  rcases c with size | size | _ | len | size | size
  · exact accounts_add (C.moved_transfer .up s.1 size)
  · exact accounts_add (C.moved_transfer .down s.1 size)
  · have hmoved := C.moved_readBuffer s.1
    simp only [call, readBuffer]
    rcases hread : C.readBuffer s.1 with ⟨conn, err | len⟩
    · rw [hread] at hmoved
      exact accounts_of_eq fun d => (hmoved d).trans (by rw [filled, ite_self, Nat.add_zero])
    · rw [hread] at hmoved
      exact accounts_add_of_pos hmoved
  · have hmoved := C.moved_writeBuffer s.1 len
    simp only [call, writeBuffer]
    rcases hwrite : C.writeBuffer s.1 len with ⟨conn, _ | err⟩
    · rw [hwrite] at hmoved
      exact accounts_add_of_pos hmoved
    · rw [hwrite] at hmoved
      exact accounts_of_eq fun d => (hmoved d).trans (by simp)
  · exact accounts_add (C.moved_transfer .up s.1 size)
  · exact accounts_add (C.moved_transfer .down s.1 size)

/-- Every call on a packet connection is counted once, with the bytes that it moves. -/
theorem PacketConnCounter.accounts_call (P : BufferConn τ ε) (s : Counted τ) (c : PacketCall) :
    Accounts P.moved s (call P s c) := by
  rcases c with _ | len | _ | len
  · have hmoved := P.moved_readBuffer s.1
    simp only [call, readPacket]
    rcases hread : P.readBuffer s.1 with ⟨conn, err | len⟩
    · rw [hread] at hmoved
      exact accounts_of_eq fun d => (hmoved d).trans (by rw [filled, ite_self, Nat.add_zero])
    · rw [hread] at hmoved
      exact accounts_add hmoved
  · have hmoved := P.moved_writeBuffer s.1 len
    simp only [call, writePacket]
    rcases hwrite : P.writeBuffer s.1 len with ⟨conn, _ | err⟩
    · rw [hwrite] at hmoved
      exact accounts_add_of_pos hmoved
    · rw [hwrite] at hmoved
      exact accounts_of_eq fun d => (hmoved d).trans (by simp)
  · exact accounts_add (P.moved_readBuffer s.1)
  · exact accounts_add (P.moved_writeBuffer s.1 len)

/-! ### The connections of a user -/

/-- The connections of a user, which share its storage. -/
structure Connections (ι κ σ τ : Type*) where
  streams : ι → σ
  packets : κ → τ
  storage : TrafficStorage

/-- A call on one of the connections. -/
inductive UserCall (ι κ : Type*)
  | stream (i : ι) (c : StreamCall)
  | packet (k : κ) (c : PacketCall)

namespace Connections

variable {ι κ : Type*} [DecidableEq ι] [DecidableEq κ] (C : ExtendedConn σ ε) (P : BufferConn τ ε)

/-- The connections and the storage after a call. -/
def step (m : Connections ι κ σ τ) : UserCall ι κ → Connections ι κ σ τ
  | .stream i c =>
    let (conn, storage) := ConnCounter.call C (m.streams i, m.storage) c
    { m with streams := Function.update m.streams i conn, storage := storage }
  | .packet k c =>
    let (conn, storage) := PacketConnCounter.call P (m.packets k, m.storage) c
    { m with packets := Function.update m.packets k conn, storage := storage }

variable [Fintype ι] [Fintype κ]

/-- The bytes that all connections together have moved. -/
def moved (m : Connections ι κ σ τ) (d : Direction) : ℕ :=
  ∑ i, C.moved (m.streams i) d + ∑ k, P.moved (m.packets k) d

end Connections

/-- A sum in which one term grows. -/
theorem sum_update_of_eq_add {ι : Type*} [Fintype ι] [DecidableEq ι] (f : σ → ℕ) (g : ι → σ) (i : ι)
    {s : σ} {n : ℕ} (h : f s = f (g i) + n) :
    ∑ j, f (Function.update g i s j) = ∑ j, f (g j) + n := by
  rw [← Finset.add_sum_erase _ _ (Finset.mem_univ i),
    ← Finset.add_sum_erase _ _ (Finset.mem_univ i), Function.update_self, h, Nat.add_right_comm]
  congr 2
  refine Finset.sum_congr rfl fun j hj => ?_
  rw [Function.update_of_ne (Finset.ne_of_mem_erase hj)]

namespace Connections

variable {ι κ : Type*} [DecidableEq ι] [DecidableEq κ] [Fintype ι] [Fintype κ]
  (C : ExtendedConn σ ε) (P : BufferConn τ ε)

/-- A call on one of the connections is counted once. -/
theorem accounts_step (m : Connections ι κ σ τ) (c : UserCall ι κ) :
    Accounts (moved C P) (m, m.storage) (m.step C P c, (m.step C P c).storage) := by
  rcases c with ⟨i, c⟩ | ⟨k, c⟩
  · obtain ⟨bytes, hbytes⟩ := ConnCounter.accounts_call C (m.streams i, m.storage) c
    refine ⟨bytes, fun d => ⟨?_, (hbytes d).2⟩⟩
    have hsum := sum_update_of_eq_add (C.moved · d) m.streams i (hbytes d).1
    simp only [moved, step]
    rw [hsum, Nat.add_right_comm]
  · obtain ⟨bytes, hbytes⟩ := PacketConnCounter.accounts_call P (m.packets k, m.storage) c
    refine ⟨bytes, fun d => ⟨?_, (hbytes d).2⟩⟩
    have hsum := sum_update_of_eq_add (P.moved · d) m.packets k (hbytes d).1
    simp only [moved, step]
    rw [hsum, Nat.add_assoc]

/-- **The counters are exact.** In every sequence of calls on the connections of a user, plain and
with buffers, on streams and on packets, wrapped and unwrapped, the counter of a direction grows by
the bytes that the connections have moved in that direction. -/
theorem counters_exact (m : Connections ι κ σ τ) (calls : List (UserCall ι κ)) (d : Direction) :
    moved C P m d ≤ moved C P (calls.foldl (step C P) m) d ∧
    (calls.foldl (step C P) m).storage.get d =
      m.storage.get d +
        Int64.ofNat (moved C P (calls.foldl (step C P) m) d - moved C P m d) := by
  induction calls generalizing m with
  | nil =>
    refine ⟨le_rfl, ?_⟩
    rw [List.foldl_nil, Nat.sub_self]
    exact (Int64.add_zero _).symm
  | cons c calls ih =>
    obtain ⟨bytes, hbytes⟩ := accounts_step C P m c
    obtain ⟨hmoved, hcounted⟩ := hbytes d
    obtain ⟨hle, hrest⟩ := ih (m.step C P c)
    dsimp only at hmoved hcounted
    rw [List.foldl_cons]
    refine ⟨by omega, ?_⟩
    rw [hrest, hcounted, Int64.add_assoc, ← Int64.ofNat_add]
    congr 2
    omega

end Connections

/-! ### Sockets -/

/-- A socket: the lengths of the pieces or packets that the peer has sent, whether it has been
closed, and the bytes that have been read and written. -/
structure Socket where
  incoming : List ℕ
  closed : Bool := false
  total : Direction → ℕ := fun _ => 0

namespace Socket

def count (s : Socket) (d : Direction) (n : ℕ) : Socket :=
  { s with total := Function.update s.total d (s.total d + n) }

theorem total_count (s : Socket) (d : Direction) (n : ℕ) (d' : Direction) :
    (s.count d n).total d' = s.total d' + if d' = d then n else 0 := by
  rw [count]
  split_ifs with h
  · subst h
    exact Function.update_self ..
  · exact Function.update_of_ne h ..

/-- A read takes bytes of the first piece, as many as the buffer holds. -/
def receive (s : Socket) (size : ℕ) : Socket × ℕ × Option String :=
  match s.incoming with
  | [] => (s, 0, some "EOF")
  | n :: rest =>
    let left := if n ≤ size then rest else (n - size) :: rest
    ({ s with incoming := left }.count .up (min n size), min n size, none)

def send (s : Socket) (size : ℕ) : Socket × ℕ × Option String :=
  if s.closed then (s, 0, some "use of closed network connection")
  else (s.count .down size, size, none)

/-- The connection of a socket; a buffer has room for a whole piece. -/
def conn : ExtendedConn Socket String where
  moved := total
  transfer
    | .up => receive
    | .down => send
  readBuffer s :=
    match s.incoming with
    | [] => (s, .error "EOF")
    | n :: rest => ({ s with incoming := rest }.count .up n, .ok n)
  writeBuffer s len := ((s.send len).1, (s.send len).2.2)
  transfer_le d s size := by
    rcases d with _ | _
    · dsimp only
      rw [receive]
      split
      · exact Nat.zero_le _
      · exact Nat.min_le_right ..
    · dsimp only
      rw [send]
      split_ifs
      · exact Nat.zero_le _
      · exact Nat.le_refl _
  moved_transfer d s size d' := by
    rcases d with _ | _
    · dsimp only
      rw [receive]
      split
      · rw [ite_self, Nat.add_zero]
      · exact total_count ..
    · dsimp only
      by_cases hclosed : s.closed = true
      · rw [send, if_pos hclosed, ite_self, Nat.add_zero]
      · rw [send, if_neg hclosed]
        exact total_count ..
  moved_readBuffer s d := by
    split
    · rw [filled, ite_self, Nat.add_zero]
    · exact total_count ..
  moved_writeBuffer s len d := by
    by_cases hclosed : s.closed = true
    · rw [send, if_pos hclosed]
      exact (ite_self _).symm ▸ rfl
    · rw [send, if_neg hclosed]
      exact total_count ..

end Socket

/-- Two streams, one of which refuses to write, and packets, on counters that have counted before:
a short read, calls with buffers, calls on the connection underneath, and an end of the packets. -/
theorem counters_exact_sockets :
    let m : Connections (Fin 2) Unit Socket Socket :=
      { streams := fun i => if i = 0 then ⟨[10, 20], false, fun _ => 0⟩ else ⟨[], true, fun _ => 0⟩
        packets := fun _ => ⟨[100, 50], false, fun _ => 0⟩
        storage := ⟨1000, 2000⟩ }
    let calls : List (UserCall (Fin 2) Unit) :=
      [.stream 0 (.read 4), .stream 0 .readBuffer, .stream 0 (.write 3), .stream 1 (.writeBuffer 9),
        .stream 0 (.readUnwrapped 64), .stream 0 (.writeBuffer 5), .packet () .readPacket,
        .packet () .readUnwrapped, .packet () (.writePacket 30), .packet () .readPacket]
    let after := calls.foldl (Connections.step Socket.conn Socket.conn.toBufferConn) m
    let moved := Connections.moved Socket.conn Socket.conn.toBufferConn
    (moved m .up = 0 ∧ moved after .up = 180 ∧ moved m .down = 0 ∧ moved after .down = 38) ∧
      ∀ d, after.storage.get d = m.storage.get d + Int64.ofNat (moved after d - moved m d) := by
  intro m calls after moved
  exact ⟨by decide, fun d =>
    (Connections.counters_exact Socket.conn Socket.conn.toBufferConn m calls d).2⟩

end Tox.Conn
