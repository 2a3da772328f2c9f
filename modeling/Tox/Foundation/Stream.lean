import Tox.Foundation.Wire
import Mathlib.Data.List.Infix

/-!
# Keystreams and readers of a stream

* `xorAt key pos bs`: the bytes `bs` combined with a keystream from the position `pos` on. Applying
  it twice gives the bytes back (`xorAt_xorAt`), and a text may be combined piece by piece when the
  position is carried along (`xorAt_append`).
* `Extends p`: a reader that has returned would have returned the same had more bytes followed. It
  says what such a reader does on a stream that has been cut (`Extends.run_cut`,
  `Reads.length_lt_of_error`).
* `received read s is`: what a reader with state returns in a sequence of calls. If every call
  moves a part of what is still to be delivered from the state to its result, then so does the
  whole sequence (`exists_pending_received`). If every call has some of the input to consume, then
  enough calls consume all of it (`measure_foldl_eq_zero`).
-/

namespace Tox.Foundation

/-! ### Keystreams -/

/-- The bytes combined with the keystream from the position `pos` on. -/
def xorAt (key : ℕ → UInt8) (pos : ℕ) (bs : List UInt8) : List UInt8 :=
  bs.mapIdx fun i b => b ^^^ key (pos + i)

section Keystream

variable (key : ℕ → UInt8) (pos : ℕ)

@[simp]
theorem length_xorAt (bs : List UInt8) : (xorAt key pos bs).length = bs.length :=
  List.length_mapIdx

theorem xorAt_append (xs ys : List UInt8) :
    xorAt key pos (xs ++ ys) = xorAt key pos xs ++ xorAt key (pos + xs.length) ys := by
  rw [xorAt, List.mapIdx_append]
  congr 1
  refine List.mapIdx_eq_mapIdx_iff.mpr fun i hi => ?_
  rw [Nat.add_comm i, Nat.add_assoc]

theorem xorAt_xorAt (bs : List UInt8) : xorAt key pos (xorAt key pos bs) = bs := by
  rw [xorAt, xorAt, List.mapIdx_mapIdx]
  refine (List.mapIdx_eq_iff).mpr fun i => ?_
  cases bs[i]? with
  | none => rfl
  | some b =>
    refine congrArg some ?_
    change b = b ^^^ key (pos + i) ^^^ key (pos + i)
    rw [UInt8.xor_assoc, UInt8.xor_self, UInt8.xor_zero]

/-- The first bytes of a combined text are the combined first bytes. -/
theorem take_xorAt (bs : List UInt8) (n : ℕ) :
    (xorAt key pos bs).take n = xorAt key pos (bs.take n) := by
  rcases Nat.le_total n bs.length with hn | hn
  · conv_lhs => rw [← List.take_append_drop n bs, xorAt_append]
    refine List.take_left' ?_
    rw [length_xorAt, List.length_take, Nat.min_eq_left hn]
  · rw [List.take_of_length_le hn, List.take_of_length_le (by rwa [length_xorAt])]

theorem drop_xorAt (bs : List UInt8) {n : ℕ} (hn : n ≤ bs.length) :
    (xorAt key pos bs).drop n = xorAt key (pos + n) (bs.drop n) := by
  have hlen : (bs.take n).length = n := by rw [List.length_take, Nat.min_eq_left hn]
  conv_lhs => rw [← List.take_append_drop n bs, xorAt_append, hlen]
  exact List.drop_left' (by rw [length_xorAt, hlen])

end Keystream

/-! ### Readers on a stream that has been cut -/

section Cut

variable {ε α : Type}

/-- What the reader returns does not depend on the bytes it has not read. -/
def Extends (p : Reader ε α) : Prop :=
  ∀ input a rest more, p.run input = .ok (a, rest) → p.run (input ++ more) = .ok (a, rest ++ more)

theorem extends_readUvarintLoop (k x s : ℕ) : Extends (readUvarintLoop k x s) := by
  induction k generalizing x s with
  | zero => exact nofun
  | succ k ih =>
    rintro (_ | ⟨b, input⟩) a rest more h
    · cases h
    · change (if b < 0x80 then if _ then _ else Except.ok (_, _) else _) = _ at h
      change (if b < 0x80 then if _ then _ else Except.ok (_, _) else _) = _
      split_ifs at h ⊢ with hlast hover
      · cases h
        rfl
      · exact ih _ _ input a rest more h

theorem extends_readUvarint : Extends readUvarint :=
  extends_readUvarintLoop 10 0 0

/-- A reader that returns on a cut stream has read what it reads on the whole stream. -/
theorem Extends.run_cut {p : Reader ε α} (hp : Extends p) {bs input tail rest : List UInt8}
    {a a' : α} (hreads : Reads p bs a) (hinput : input <+: bs ++ tail)
    (hrun : p.run input = .ok (a', rest)) : a' = a ∧ rest <+: tail := by
  obtain ⟨more, hmore⟩ := hinput
  have hwhole := hp input a' rest more hrun
  rw [hmore, hreads tail] at hwhole
  obtain ⟨ha, htail⟩ := Prod.mk.inj (Except.ok.inj hwhole)
  exact ⟨ha.symm, more, htail.symm⟩

/-- A reader fails on a cut stream only if it was cut before the end of what it reads. -/
theorem Reads.length_lt_of_error {p : Reader ε α} {bs input tail : List UInt8} {a : α} {e : ε}
    (hreads : Reads p bs a) (hinput : input <+: bs ++ tail) (hrun : p.run input = .error e) :
    input.length < bs.length := by
  by_contra hle
  obtain ⟨rest, rfl⟩ := List.prefix_of_prefix_length_le (List.prefix_append bs tail) hinput
    (Nat.not_lt.mp hle)
  rw [hreads rest] at hrun
  cases hrun

end Cut

/-! ### What a reader delivers -/

section Delivery

variable {σ ι α : Type*} (read : σ → ι → σ × List α)

/-- What the calls return, one after the other. -/
def received : σ → List ι → List α
  | _, [] => []
  | s, i :: is => (read s i).2 ++ received (read s i).1 is

/-- **Delivery.** Let `Pending s p` say that `p` is still to be delivered in the state `s`, and let
every call return a first part of it and leave the rest pending. Then what a sequence of calls
returns is a first part of what was pending, and the rest is pending at the end. -/
theorem exists_pending_received {Pending : σ → List α → Prop}
    (hread : ∀ s i p, Pending s p → ∃ q, p = (read s i).2 ++ q ∧ Pending (read s i).1 q)
    (is : List ι) {s : σ} {p : List α} (h : Pending s p) :
    ∃ q, p = received read s is ++ q ∧ Pending (is.foldl (fun s i => (read s i).1) s) q := by
  induction is generalizing s p with
  | nil => exact ⟨p, rfl, h⟩
  | cons i is ih =>
    obtain ⟨q, rfl, hq⟩ := hread s i p h
    obtain ⟨r, rfl, hr⟩ := ih hq
    exact ⟨r, (List.append_assoc _ _ _).symm, hr⟩

/-- **Progress.** If every call lowers a measure that is not zero, then it is zero after enough
calls. -/
theorem measure_foldl_eq_zero (μ : σ → ℕ) {is : List ι}
    (hread : ∀ s, ∀ i ∈ is, μ (read s i).1 ≤ μ s - 1) {s : σ} (hs : μ s ≤ is.length) :
    μ (is.foldl (fun s i => (read s i).1) s) = 0 := by
  induction is generalizing s with
  | nil => exact Nat.le_zero.mp hs
  | cons i is ih =>
    have hfirst := hread s i List.mem_cons_self
    rw [List.length_cons] at hs
    have hrest : μ (read s i).1 ≤ is.length := by omega
    exact ih (fun t j hj => hread t j (List.mem_cons_of_mem i hj)) hrest

end Delivery

end Tox.Foundation
