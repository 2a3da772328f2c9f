import Tox.Foundation.Stream

/-!
# The reader behind the sniffers

Before a connection is dispatched, its first bytes are shown to the protocol sniffers.
`cachedReader` stands between the connection and the dispatcher for this: `Cache` reads ahead, keeps
what it has read and copies the beginning of it into the sniffing buffer, and the two read methods
hand over what has been kept before they read on.

The reader underneath is any `TimeoutReader`: a state with two functions that return data or an
error. `TimeoutReader.logged` is the same reader with a record of the data that has been taken from
it. On every sequence of calls, what the read methods have delivered, followed by what is kept, is
that record (`received_append_cache`); so no data is lost, repeated or reordered. The lengths of
multi-buffers are natural numbers here, in the library they are 32-bit integers.
-/

namespace Tox.Dispatcher

open Tox.Foundation

/-! ### Buffers -/

/-- `buf.MultiBuffer`: the contents of its buffers. The nil value has none. -/
abbrev MultiBuffer := List (List UInt8)

namespace MultiBuffer

/-- The contents of all buffers. -/
def bytes (mb : MultiBuffer) : List UInt8 := mb.flatten

/-- `MultiBuffer.Len`. -/
def len (mb : MultiBuffer) : ℕ := (mb.map List.length).sum

/-- `MultiBuffer.IsEmpty`. -/
def isEmpty (mb : MultiBuffer) : Bool := mb.all List.isEmpty

/-- `MultiBuffer.Copy` into a slice of the given size: it stops at the first buffer that does not
fit. -/
def copy : MultiBuffer → ℕ → List UInt8
  | [], _ => []
  | b :: mb, room => if b.length ≤ room then b ++ copy mb (room - b.length) else b.take room

/-- The first result of `buf.MergeMulti`. -/
def mergeMulti (dest src : MultiBuffer) : MultiBuffer := dest ++ src

theorem bytes_mergeMulti (dest src : MultiBuffer) :
    bytes (mergeMulti dest src) = bytes dest ++ bytes src := List.flatten_append

theorem len_eq (mb : MultiBuffer) : len mb = (bytes mb).length := List.length_flatten.symm

theorem bytes_of_isEmpty {mb : MultiBuffer} (h : isEmpty mb = true) : bytes mb = [] := by
  rw [bytes, List.flatten_eq_nil_iff]
  intro b hb
  exact List.isEmpty_iff.mp (List.all_eq_true.mp h b hb)

theorem copy_eq (mb : MultiBuffer) (room : ℕ) : copy mb room = (bytes mb).take room := by
  induction mb generalizing room with
  | nil => exact List.take_nil.symm
  | cons b mb ih =>
    rw [copy, bytes, List.flatten_cons, List.take_append]
    split_ifs with hfits
    · rw [ih, List.take_of_length_le hfits]
      rfl
    · have hnone : room - b.length = 0 := by omega
      rw [hnone, List.take_zero, List.append_nil]

end MultiBuffer

/-- `buf.Buffer` with its capacity. -/
structure Buffer where
  cap : ℕ
  bytes : List UInt8 := []
  length_le : bytes.length ≤ cap

/-- The calls of `Clear`, `Extend`, `Copy` and `Resize` in `cachedReader.Cache`: the buffer then
holds what has been copied. -/
def Buffer.refill (b : Buffer) (mb : MultiBuffer) : Buffer where
  cap := b.cap
  bytes := mb.copy (min mb.len b.cap)
  length_le := by
    rw [MultiBuffer.copy_eq]
    exact (List.length_take_le _ _).trans (Nat.min_le_right _ _)

theorem Buffer.bytes_refill (b : Buffer) (mb : MultiBuffer) :
    (b.refill mb).bytes = mb.bytes.take (min mb.bytes.length b.cap) := by
  rw [← MultiBuffer.len_eq, ← MultiBuffer.copy_eq]
  rfl

/-! ### Readers -/

/-- `buf.TimeoutReader` with the state `σ` and the errors `ε`. A call returns data or an error. -/
structure TimeoutReader (σ ε : Type*) where
  readMultiBuffer : σ → σ × Except ε MultiBuffer
  readMultiBufferTimeout : σ → ℤ → σ × Except ε MultiBuffer

variable {σ ε : Type*}

/-- The data that a call has taken from the reader. -/
def takenBytes : Except ε MultiBuffer → List UInt8
  | .ok mb => mb.bytes
  | .error _ => []

/-- The reader, with a record of the data that has been taken from it. -/
def TimeoutReader.logged (R : TimeoutReader σ ε) : TimeoutReader (σ × List UInt8) ε where
  readMultiBuffer s :=
    let (reader, result) := R.readMultiBuffer s.1
    ((reader, s.2 ++ takenBytes result), result)
  readMultiBufferTimeout s timeout :=
    let (reader, result) := R.readMultiBufferTimeout s.1 timeout
    ((reader, s.2 ++ takenBytes result), result)

/-- `cachedReader`. -/
structure CachedReader (σ : Type*) where
  reader : σ
  cache : MultiBuffer := []

namespace CachedReader

/-- The rest of `cachedReader.Cache`, for what the call of the reader underneath has returned. -/
def keep (r : CachedReader σ) (b : Buffer) :
    σ × Except ε MultiBuffer → CachedReader σ × Buffer × Option ε
  | (reader, .error err) => ({ r with reader := reader }, b, some err)
  | (reader, .ok mb) =>
    let cache := if mb.isEmpty then r.cache else MultiBuffer.mergeMulti r.cache mb
    (⟨reader, cache⟩, b.refill cache, none)

/-- `cachedReader.Cache`: the sniffing buffer afterwards, and the error. -/
def cacheInto (R : TimeoutReader σ ε) (r : CachedReader σ) (b : Buffer) (deadline : ℤ) :
    CachedReader σ × Buffer × Option ε :=
  r.keep b (R.readMultiBufferTimeout r.reader deadline)

/-- `cachedReader.readInternal`. -/
def readInternal (r : CachedReader σ) : CachedReader σ × Option MultiBuffer :=
  if MultiBuffer.isEmpty r.cache then (r, none) else ({ r with cache := [] }, some r.cache)

/-- The rest of both read methods, for the call of the reader underneath that they make. -/
def readThrough (read : σ → σ × Except ε MultiBuffer) (r : CachedReader σ) :
    CachedReader σ × Except ε MultiBuffer :=
  match r.readInternal with
  | (r, some mb) => (r, .ok mb)
  | (r, none) =>
    let (reader, result) := read r.reader
    ({ r with reader := reader }, result)

/-- `cachedReader.ReadMultiBuffer`. -/
def readMultiBuffer (R : TimeoutReader σ ε) (r : CachedReader σ) :
    CachedReader σ × Except ε MultiBuffer :=
  r.readThrough R.readMultiBuffer

/-- `cachedReader.ReadMultiBufferTimeout`. -/
def readMultiBufferTimeout (R : TimeoutReader σ ε) (r : CachedReader σ) (timeout : ℤ) :
    CachedReader σ × Except ε MultiBuffer :=
  r.readThrough (R.readMultiBufferTimeout · timeout)

end CachedReader

/-- A call of a cached reader. -/
inductive ReaderCall
  | cacheInto (b : Buffer) (deadline : ℤ)
  | readMultiBuffer
  | readMultiBufferTimeout (timeout : ℤ)

namespace CachedReader

/-- One call, with the data that it delivers. -/
def call (R : TimeoutReader σ ε) (r : CachedReader σ) : ReaderCall → CachedReader σ × List UInt8
  | .cacheInto b deadline => ((r.cacheInto R b deadline).1, [])
  | .readMultiBuffer =>
    let (r, result) := r.readMultiBuffer R
    (r, takenBytes result)
  | .readMultiBufferTimeout timeout =>
    let (r, result) := r.readMultiBufferTimeout R timeout
    (r, takenBytes result)

theorem readThrough_eq (r : CachedReader σ) (read : σ → σ × Except ε MultiBuffer) :
    r.readThrough read = if MultiBuffer.isEmpty r.cache then
      (⟨(read r.reader).1, r.cache⟩, (read r.reader).2)
    else (⟨r.reader, []⟩, .ok r.cache) := by
  rw [readThrough, readInternal]
  split_ifs with hempty
  · rfl
  · rfl

/-! ### What is taken is kept or delivered -/

/-- The reader without the record. -/
def forget (r : CachedReader (σ × List UInt8)) : CachedReader σ := ⟨r.reader.1, r.cache⟩

/-- What has been taken, after `delivered` has been delivered: that, and what is kept. -/
def Conserves (delivered : List UInt8) (r : CachedReader (σ × List UInt8)) : Prop :=
  r.reader.2 = delivered ++ MultiBuffer.bytes r.cache

section Calls

variable {R : TimeoutReader σ ε} {r : CachedReader (σ × List UInt8)} {delivered : List UInt8}

/-- A read that extends the record by what it returns delivers what was kept or what it has
taken. -/
theorem Conserves.readThrough (h : Conserves delivered r)
    (read : σ × List UInt8 → (σ × List UInt8) × Except ε MultiBuffer)
    (hread : ∀ s, (read s).1.2 = s.2 ++ takenBytes (read s).2) :
    Conserves (delivered ++ takenBytes (r.readThrough read).2) (r.readThrough read).1 := by
  rw [Conserves] at h ⊢
  rw [readThrough_eq]
  split_ifs with hempty
  · have hnil := MultiBuffer.bytes_of_isEmpty hempty
    dsimp only
    rw [hread, h, hnil, List.append_nil, List.append_nil]
  · exact h.trans (List.append_nil _).symm

/-- What has been taken for `Cache` is kept. -/
theorem Conserves.keep (h : Conserves delivered r) (b : Buffer) (reader : σ)
    (result : Except ε MultiBuffer) :
    Conserves delivered (r.keep b ((reader, r.reader.2 ++ takenBytes result), result)).1 := by
  rw [Conserves] at h ⊢
  rw [h, List.append_assoc]
  rcases result with err | mb
  · exact congrArg (delivered ++ ·) (List.append_nil _)
  · dsimp only [takenBytes, CachedReader.keep]
    split_ifs with hempty
    · rw [MultiBuffer.bytes_of_isEmpty hempty, List.append_nil]
    · rw [MultiBuffer.bytes_mergeMulti]

theorem Conserves.call (h : Conserves delivered r) (c : ReaderCall) :
    Conserves (delivered ++ (r.call R.logged c).2) (r.call R.logged c).1 := by
  rcases c with ⟨b, deadline⟩ | _ | timeout
  · rw [CachedReader.call, List.append_nil]
    exact h.keep b _ _
  · exact h.readThrough R.logged.readMultiBuffer fun _ => rfl
  · exact h.readThrough (R.logged.readMultiBufferTimeout · timeout) fun _ => rfl

/-- If `Cache` returns no error, the buffer has the beginning of what is kept. -/
theorem bytes_keep {r : CachedReader σ} {b : Buffer} {result : σ × Except ε MultiBuffer}
    (h : (r.keep b result).2.2 = none) :
    (r.keep b result).2.1.bytes = (MultiBuffer.bytes (r.keep b result).1.cache).take
      (min (MultiBuffer.bytes (r.keep b result).1.cache).length b.cap) := by
  rcases result with ⟨reader, err | mb⟩
  · cases h
  · exact b.bytes_refill _

theorem forget_keep (r : CachedReader (σ × List UInt8)) (b : Buffer) (reader : σ)
    (log : List UInt8) (result : Except ε MultiBuffer) :
    (r.keep b ((reader, log), result)).1.forget = (r.forget.keep b (reader, result)).1 := by
  rcases result with err | mb
  · rfl
  · rfl

/-- The record does not change what a read does. -/
theorem forget_readThrough (r : CachedReader (σ × List UInt8))
    (read : σ → σ × Except ε MultiBuffer) :
    let logged := r.readThrough fun s =>
      (((read s.1).1, s.2 ++ takenBytes (read s.1).2), (read s.1).2)
    (logged.1.forget, logged.2) = r.forget.readThrough read := by
  rw [readThrough_eq, readThrough_eq, forget]
  by_cases hempty : MultiBuffer.isEmpty r.cache = true
  · rw [if_pos hempty, if_pos hempty]
    rfl
  · rw [if_neg hempty, if_neg hempty]
    rfl

/-- The record does not change what a call does. -/
theorem forget_call (R : TimeoutReader σ ε) (r : CachedReader (σ × List UInt8)) (c : ReaderCall) :
    ((r.call R.logged c).1.forget, (r.call R.logged c).2) = r.forget.call R c := by
  rcases c with ⟨b, deadline⟩ | _ | timeout
  · exact congrArg (·, []) (forget_keep r b _ _ _)
  · exact congrArg (Prod.map id takenBytes) (forget_readThrough r R.readMultiBuffer)
  · exact congrArg (Prod.map id takenBytes)
      (forget_readThrough r (R.readMultiBufferTimeout · timeout))

end Calls

theorem conserves_foldl {R : TimeoutReader σ ε} (calls : List ReaderCall)
    {r : CachedReader (σ × List UInt8)} {delivered : List UInt8} (h : Conserves delivered r) :
    Conserves (delivered ++ received (call R.logged) r calls)
      (calls.foldl (fun r c => (r.call R.logged c).1) r) := by
  induction calls generalizing r delivered with
  | nil =>
    rw [received, List.append_nil]
    exact h
  | cons c calls ih =>
    rw [received, ← List.append_assoc]
    exact ih (h.call c)

/-- The calls deliver the same with and without the record. -/
theorem received_logged (R : TimeoutReader σ ε) (calls : List ReaderCall)
    (r : CachedReader (σ × List UInt8)) :
    received (call R.logged) r calls = received (call R) r.forget calls := by
  induction calls generalizing r with
  | nil => rfl
  | cons c calls ih =>
    rw [received, received, ih, ← forget_call]

/-- **Sniffing does not disturb the stream.** For every reader and every sequence of calls, what has
been delivered and what is kept make up, in this order, what has been taken from the reader. If a
further call of `Cache` succeeds, the sniffing buffer holds as much of the beginning of what has
been taken and not been delivered as fits into it. -/
theorem received_append_cache (R : TimeoutReader σ ε) (s : σ) (calls : List ReaderCall) :
    let start : CachedReader (σ × List UInt8) := ⟨(s, []), []⟩
    let r := calls.foldl (fun r c => (r.call R.logged c).1) start
    let delivered := received (call R) ⟨s, []⟩ calls
    delivered ++ MultiBuffer.bytes r.cache = r.reader.2 ∧
    ∀ b deadline, (r.cacheInto R.logged b deadline).2.2 = none →
      ∃ undelivered,
        delivered ++ undelivered = (r.cacheInto R.logged b deadline).1.reader.2 ∧
        (r.cacheInto R.logged b deadline).2.1.bytes =
          undelivered.take (min undelivered.length b.cap) := by
  intro start r delivered
  have hstart : Conserves [] start := rfl
  have hrun : Conserves delivered r := by
    have hdelivered : received (call R.logged) start calls = delivered :=
      received_logged R calls start
    rw [← hdelivered]
    exact conserves_foldl calls hstart
  refine ⟨hrun.symm, fun b deadline hok => ⟨_, ?_, bytes_keep hok⟩⟩
  exact (hrun.keep b _ _).symm

end CachedReader

end Tox.Dispatcher
