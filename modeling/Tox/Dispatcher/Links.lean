import Tox.Common.Conn
import Tox.Dispatcher.CachedReader

/-!
# The two ways of setting up a link

`Dispatch` makes a pair of pipes and hands one end to the inbound and the other to the outbound;
`getLink` wraps the two *writers*. `DispatchLink` is given a link by the inbound and wraps its
*reader* and its writer. Both put the traffic counters of the user around the link, and both put the
rate limit of the user around the writers that they have. For the uplink, `DispatchLink` has a
reader only, and a reader is not limited.

So both ways count alike, but `DispatchLink` takes no tokens for the uplink: the two agree exactly
if the uplink carries nothing (`meters_alike_iff`).
-/

namespace Tox.Dispatcher

open Tox.Counter Tox.Conn

/-- The bucket of a user, with the tokens that have been taken from it, and the storage. -/
@[ext] structure Meter where
  taken : ℕ := 0
  storage : TrafficStorage := {}
deriving DecidableEq, Repr

/-- A writer of a link: the end of a pipe or the writer that the inbound has given, in layers. -/
inductive LinkWriter
  | pipe
  /-- `ManagedWriter`. -/
  | managed (w : LinkWriter)
  /-- `rate.Writer`. -/
  | rateLimit (w : LinkWriter)
  /-- `dispatcher.SizeStatWriter` with the counter of a direction. -/
  | sizeStat (d : Direction) (w : LinkWriter)
deriving DecidableEq, Repr

/-- A reader of a link, in layers. -/
inductive LinkReader
  | pipe
  /-- `buf.TimeoutWrapperReader`. -/
  | timeoutWrapper (r : LinkReader)
  /-- `CounterReader`, with the counter of the uplink. -/
  | counter (r : LinkReader)
deriving DecidableEq, Repr

/-- `WriteMultiBuffer`: what arrives at the end, and the meter afterwards. -/
def LinkWriter.writeMultiBuffer : LinkWriter → MultiBuffer → Meter → MultiBuffer × Meter
  | .pipe, mb, m => (mb, m)
  | .managed w, mb, m => w.writeMultiBuffer mb m
  | .rateLimit w, mb, m => w.writeMultiBuffer mb { m with taken := wait m.taken mb.len }
  | .sizeStat d w, mb, m =>
    w.writeMultiBuffer mb { m with storage := m.storage.add d (Int64.ofNat mb.len) }

/-- `ReadMultiBuffer` and `ReadMultiBufferTimeout`, when the end returns the given data. -/
def LinkReader.readMultiBuffer : LinkReader → MultiBuffer → Meter → MultiBuffer × Meter
  | .pipe, mb, m => (mb, m)
  | .timeoutWrapper r, mb, m => r.readMultiBuffer mb m
  | .counter r, mb, m =>
    let (mb, m) := r.readMultiBuffer mb m
    (mb, if 0 < mb.len then { m with storage := m.storage.add .up (Int64.ofNat mb.len) } else m)

/-- The four ends that the uplink and the downlink of a connection pass through. An end that the
dispatcher does not have in its hands is the bare `pipe`. -/
structure Link where
  uplinkWriter : LinkWriter
  uplinkReader : LinkReader
  downlinkWriter : LinkWriter
  downlinkReader : LinkReader

/-- The rate limit, if the user has a bucket. -/
def limited (bucket : Bool) (w : LinkWriter) : LinkWriter :=
  if bucket then .rateLimit w else w

/-- `DefaultDispatcher.getLink` for a user that passes the limiter. -/
def getLink (bucket : Bool) : Link where
  uplinkWriter := .sizeStat .up (limited bucket (.managed .pipe))
  uplinkReader := .pipe
  downlinkWriter := .sizeStat .down (limited bucket .pipe)
  downlinkReader := .pipe

/-- `DefaultDispatcher.DispatchLink` for a user that passes the limiter. -/
def dispatchLink (bucket : Bool) : Link where
  uplinkWriter := .pipe
  uplinkReader := .counter (.timeoutWrapper .pipe)
  downlinkWriter := .sizeStat .down (limited bucket (.managed .pipe))
  downlinkReader := .pipe

namespace Link

/-- A multi-buffer is carried in one direction: it is written to one end and read from the other. -/
def carry (l : Link) (m : Meter) : Direction × MultiBuffer → MultiBuffer × Meter
  | (.up, mb) =>
    let (mb, m) := l.uplinkWriter.writeMultiBuffer mb m
    l.uplinkReader.readMultiBuffer mb m
  | (.down, mb) =>
    let (mb, m) := l.downlinkWriter.writeMultiBuffer mb m
    l.downlinkReader.readMultiBuffer mb m

/-- The meter after a sequence of transfers. -/
def run (l : Link) (m : Meter) (transfers : List (Direction × MultiBuffer)) : Meter :=
  transfers.foldl (fun m t => (l.carry m t).2) m

end Link

/-! ### What is taken and counted -/

/-- The bytes of the transfers in one direction. -/
def carried (d : Direction) (transfers : List (Direction × MultiBuffer)) : ℕ :=
  ((transfers.filter (·.1 = d)).map (MultiBuffer.len ·.2)).sum

/-- The storage after a sequence of transfers. -/
def countTransfers (s : TrafficStorage) (transfers : List (Direction × MultiBuffer)) :
    TrafficStorage :=
  transfers.foldl (fun s t => s.add t.1 (Int64.ofNat t.2.len)) s

theorem add_zero_storage (s : TrafficStorage) (d : Direction) : s.add d (Int64.ofNat 0) = s := by
  rcases d with _ | _
  · exact TrafficStorage.ext (Int64.add_zero _) rfl
  · exact TrafficStorage.ext rfl (Int64.add_zero _)

theorem carried_cons (d : Direction) (t : Direction × MultiBuffer)
    (transfers : List (Direction × MultiBuffer)) :
    carried d (t :: transfers) = (if t.1 = d then t.2.len else 0) + carried d transfers := by
  rw [carried, List.filter_cons]
  by_cases h : t.1 = d
  · rw [if_pos (decide_eq_true h), if_pos h]
    rfl
  · rw [if_neg (by simpa using h), if_neg h, Nat.zero_add]
    rfl

theorem carried_eq_zero_iff {d : Direction} {transfers : List (Direction × MultiBuffer)} :
    carried d transfers = 0 ↔ ∀ t ∈ transfers, t.1 = d → t.2.bytes = [] := by
  induction transfers with
  | nil => exact iff_of_true rfl nofun
  | cons t transfers ih =>
    rw [carried_cons, Nat.add_eq_zero_iff, ih, List.forall_mem_cons]
    refine and_congr_left fun _ => ?_
    rw [ite_eq_right_iff, MultiBuffer.len_eq, List.length_eq_zero_iff]

/-- A transfer over a link that `getLink` has set up. -/
theorem carry_getLink (m : Meter) (t : Direction × MultiBuffer) :
    (getLink true).carry m t =
      (t.2, ⟨m.taken + t.2.len, m.storage.add t.1 (Int64.ofNat t.2.len)⟩) := by
  rcases t with ⟨_ | _, mb⟩
  · rfl
  · rfl

/-- A transfer over a link that `DispatchLink` has set up. -/
theorem carry_dispatchLink (m : Meter) (t : Direction × MultiBuffer) :
    (dispatchLink true).carry m t =
      (t.2, ⟨m.taken + (if t.1 = .down then t.2.len else 0),
        m.storage.add t.1 (Int64.ofNat t.2.len)⟩) := by
  rcases t with ⟨_ | _, mb⟩
  · -- The reader does not count empty data.
    have hcarry : (dispatchLink true).carry m (.up, mb) = (mb,
      if 0 < mb.len then { m with storage := m.storage.add .up (Int64.ofNat mb.len) } else m) := rfl
    rw [hcarry]
    by_cases hpos : 0 < mb.len
    · rw [if_pos hpos]
      rfl
    · rw [if_neg hpos]
      dsimp only
      rw [Nat.eq_zero_of_not_pos hpos, add_zero_storage]
      rfl
  · rfl

theorem run_getLink (m : Meter) (transfers : List (Direction × MultiBuffer)) :
    (getLink true).run m transfers =
      ⟨m.taken + carried .up transfers + carried .down transfers,
        countTransfers m.storage transfers⟩ := by
  induction transfers generalizing m with
  | nil => rfl
  | cons t transfers ih =>
    rw [Link.run, List.foldl_cons, carry_getLink]
    refine (ih _).trans (Meter.ext ?_ rfl)
    dsimp only
    rw [carried_cons, carried_cons]
    rcases t with ⟨_ | _, mb⟩
    · simp only [reduceCtorEq, if_true, if_false]
      omega
    · simp only [reduceCtorEq, if_true, if_false]
      omega

theorem run_dispatchLink (m : Meter) (transfers : List (Direction × MultiBuffer)) :
    (dispatchLink true).run m transfers =
      ⟨m.taken + carried .down transfers, countTransfers m.storage transfers⟩ := by
  induction transfers generalizing m with
  | nil => rfl
  | cons t transfers ih =>
    rw [Link.run, List.foldl_cons, carry_dispatchLink]
    refine (ih _).trans (Meter.ext ?_ rfl)
    dsimp only
    rw [carried_cons, Nat.add_assoc]

/-- **The two ways count alike and charge differently.** For a user with a bucket and every sequence
of transfers, both ways add the same amounts to the counters. They take the same number of tokens if
and only if no transfer of the uplink carries data. -/
theorem meters_alike_iff (m : Meter) (transfers : List (Direction × MultiBuffer)) :
    ((getLink true).run m transfers).storage = ((dispatchLink true).run m transfers).storage ∧
    (((getLink true).run m transfers).taken = ((dispatchLink true).run m transfers).taken ↔
      ∀ t ∈ transfers, t.1 = .up → t.2.bytes = []) := by
  rw [run_getLink, run_dispatchLink]
  refine ⟨rfl, ?_⟩
  rw [← carried_eq_zero_iff]
  dsimp only
  omega

/-- **The uplink is free.** The user sends three bytes and receives two. -/
theorem dispatchLink_uplink_free :
    let transfers : List (Direction × MultiBuffer) := [(.up, [[1, 2], [3]]), (.down, [[4, 5]])]
    (getLink true).run {} transfers = ⟨5, ⟨3, 2⟩⟩ ∧
      (dispatchLink true).run {} transfers = ⟨2, ⟨3, 2⟩⟩ := by
  decide

end Tox.Dispatcher
