import Mathlib.Data.List.Infix
import Tox.Foundation.Wire

/-!
# Decoders of a stream

A decoder takes bytes from a stream and ends with a value or an error. Unlike a `Reader`, it says
what is left of the stream also when it fails, and it keeps a log.

* `Decoder.Advances`: what is left is the end of what was there.
* `Decoder.Refines d p`: up to the log, and up to what is left after an error, the decoder `d` does
  what the reader `p` does.

Both compose along `bind`, so that they are read off a decoder part by part.
-/

namespace Tox.Foundation

/-- A stream that is being decoded: the bytes that have not been read, and the log. -/
structure Cursor (ω : Type) where
  unread : List UInt8
  log : List ω

def Decoder (ω ε α : Type) : Type := Cursor ω → Except ε α × Cursor ω

namespace Decoder

variable {ω ε δ α β : Type}

/-- The next decoder goes on where a value has been found. -/
def andThen (f : α → Decoder ω ε β) : Except ε α × Cursor ω → Except ε β × Cursor ω
  | (.ok a, cur) => f a cur
  | (.error e, cur) => (.error e, cur)

instance : Monad (Decoder ω ε) where
  pure a := fun cur => (.ok a, cur)
  bind d f := fun cur => andThen f (d cur)

def fail (e : ε) : Decoder ω ε α := fun cur => (.error e, cur)

/-- The decoder with its errors renamed. -/
def mapError (φ : ε → δ) (d : Decoder ω ε α) : Decoder ω δ α := fun cur =>
  ((d cur).1.mapError φ, (d cur).2)

/-- One byte, or `eof` at the end of the stream. -/
def readByte (eof : ε) : Decoder ω ε UInt8 := fun cur =>
  match cur.unread with
  | [] => (.error eof, cur)
  | b :: rest => (.ok b, { cur with unread := rest })

/-- The next `n` bytes. When fewer are left, they are read and `short` makes the error of them. -/
def readFull (short : List UInt8 → ε) (n : ℕ) : Decoder ω ε (List UInt8) := fun cur =>
  if n ≤ cur.unread.length then
    (.ok (cur.unread.take n), { cur with unread := cur.unread.drop n })
  else (.error (short cur.unread), { cur with unread := [] })

/-- An entry of the log, made from the number of bytes that have not been read. -/
def record (entry : ℕ → ω) : Decoder ω ε Unit := fun cur =>
  (.ok (), { cur with log := cur.log ++ [entry cur.unread.length] })

/-- A decoder of other bytes, of which only the log is kept. -/
def onBytes (bytes : List UInt8) (d : Decoder ω ε α) : Decoder ω ε α := fun cur =>
  ((d ⟨bytes, cur.log⟩).1, { cur with log := (d ⟨bytes, cur.log⟩).2.log })

/-- The loop of `readUvarintLoop`, byte by byte. -/
def readUvarintLoop : ℕ → ℕ → ℕ → Decoder ω UvarintError ℕ
  | 0, _, _ => fail .overflow
  | k + 1, x, s => do
    let b ← readByte (if k = 9 then .eof else .unexpectedEOF)
    if b < 0x80 then
      if k = 0 ∧ 1 < b then fail .overflow else pure (x ||| b.toNat <<< s)
    else readUvarintLoop k (x ||| (b &&& 0x7f).toNat <<< s) (s + 7)

def readUvarint : Decoder ω UvarintError ℕ := readUvarintLoop 10 0 0

section Bind

variable {d : Decoder ω ε α} {cur cur' : Cursor ω}

theorem bind_of_ok {a : α} (h : d cur = (.ok a, cur')) (f : α → Decoder ω ε β) :
    (d >>= f) cur = f a cur' :=
  congrArg (andThen f) h

theorem bind_of_error {e : ε} (h : d cur = (.error e, cur')) (f : α → Decoder ω ε β) :
    (d >>= f) cur = (.error e, cur') :=
  congrArg (andThen f) h

end Bind

/-! ### What is left -/

section Advances

/-- What is left of the stream is the end of what was there. -/
def Advances (d : Decoder ω ε α) : Prop := ∀ cur, (d cur).2.unread <:+ cur.unread

variable {d : Decoder ω ε α}

theorem Advances.pure (a : α) : Advances (Pure.pure a : Decoder ω ε α) :=
  fun cur => List.suffix_refl cur.unread

theorem Advances.fail (e : ε) : Advances (fail e : Decoder ω ε α) :=
  fun cur => List.suffix_refl cur.unread

theorem Advances.bind {f : α → Decoder ω ε β} (hd : Advances d) (hf : ∀ a, Advances (f a)) :
    Advances (d >>= f) := by
  intro cur
  have hsuffix := hd cur
  rcases h : d cur with ⟨e | a, cur'⟩
  · rw [bind_of_error h]
    rwa [h] at hsuffix
  · rw [bind_of_ok h]
    rw [h] at hsuffix
    exact (hf a cur').trans hsuffix

theorem Advances.mapError (hd : Advances d) (φ : ε → δ) : Advances (d.mapError φ) := hd

theorem advances_readByte (eof : ε) : Advances (readByte eof : Decoder ω ε UInt8) := by
  rintro ⟨_ | ⟨b, rest⟩, log⟩
  · exact List.suffix_refl _
  · exact List.suffix_cons b rest

theorem advances_readFull (short : List UInt8 → ε) (n : ℕ) :
    Advances (readFull short n : Decoder ω ε (List UInt8)) := by
  intro cur
  rw [readFull]
  split
  · exact List.drop_suffix n cur.unread
  · exact List.nil_suffix

theorem advances_record (entry : ℕ → ω) : Advances (record entry : Decoder ω ε Unit) :=
  fun cur => List.suffix_refl cur.unread

theorem advances_readUvarintLoop (k x s : ℕ) :
    Advances (readUvarintLoop k x s : Decoder ω UvarintError ℕ) := by
  induction k generalizing x s with
  | zero => exact Advances.fail _
  | succ k ih =>
    refine (advances_readByte _).bind fun b => ?_
    split
    · split
      · exact Advances.fail _
      · exact Advances.pure _
    · exact ih _ _

end Advances

/-! ### What is recorded -/

section KeepsLog

/-- The decoder records nothing. -/
def KeepsLog (d : Decoder ω ε α) : Prop := ∀ cur, (d cur).2.log = cur.log

variable {d : Decoder ω ε α}

theorem KeepsLog.bind {f : α → Decoder ω ε β} (hd : KeepsLog d) (hf : ∀ a, KeepsLog (f a)) :
    KeepsLog (d >>= f) := by
  intro cur
  have hlog := hd cur
  rcases h : d cur with ⟨e | a, cur'⟩
  · rw [bind_of_error h]
    rwa [h] at hlog
  · rw [bind_of_ok h]
    rw [h] at hlog
    exact (hf a cur').trans hlog

theorem keepsLog_readByte (eof : ε) : KeepsLog (readByte eof : Decoder ω ε UInt8) := by
  rintro ⟨_ | ⟨b, rest⟩, log⟩
  · rfl
  · rfl

theorem keepsLog_readUvarintLoop (k x s : ℕ) :
    KeepsLog (readUvarintLoop k x s : Decoder ω UvarintError ℕ) := by
  induction k generalizing x s with
  | zero => exact fun _ => rfl
  | succ k ih =>
    refine (keepsLog_readByte _).bind fun b => ?_
    split
    · split
      · exact fun _ => rfl
      · exact fun _ => rfl
    · exact ih _ _

end KeepsLog

/-! ### Readers -/

section Refines

/-- The decoder does what the reader does, up to the log and to what is left after an error. -/
def Refines (d : Decoder ω ε α) (p : Reader ε α) : Prop :=
  ∀ cur, p.run cur.unread = (d cur).1.map fun a => (a, (d cur).2.unread)

variable {d : Decoder ω ε α} {p : Reader ε α}

theorem Refines.run_of_ok (h : Refines d p) {cur cur' : Cursor ω} {a : α}
    (hd : d cur = (.ok a, cur')) : p.run cur.unread = .ok (a, cur'.unread) := by
  rw [h cur, hd]
  rfl

theorem Refines.run_of_error (h : Refines d p) {cur cur' : Cursor ω} {e : ε}
    (hd : d cur = (.error e, cur')) : p.run cur.unread = .error e := by
  rw [h cur, hd]
  rfl

/-- What the decoder does where the reader succeeds. -/
theorem Refines.eq_of_run_ok (h : Refines d p) (hlog : KeepsLog d) {cur : Cursor ω} {a : α}
    {rest : List UInt8} (hp : p.run cur.unread = .ok (a, rest)) :
    d cur = (.ok a, ⟨rest, cur.log⟩) := by
  have hkept := hlog cur
  rcases hd : d cur with ⟨e | a', unread, log⟩
  · cases hp.symm.trans (h.run_of_error hd)
  · rw [hd] at hkept
    cases hp.symm.trans (h.run_of_ok hd)
    rw [← hkept]

/-- What the decoder does where the reader fails. -/
theorem Refines.exists_of_run_error (h : Refines d p) (hlog : KeepsLog d) {cur : Cursor ω} {e : ε}
    (hp : p.run cur.unread = .error e) : ∃ rest, d cur = (.error e, ⟨rest, cur.log⟩) := by
  have hkept := hlog cur
  rcases hd : d cur with ⟨e' | a, unread, log⟩
  · rw [hd] at hkept
    cases hp.symm.trans (h.run_of_error hd)
    exact ⟨unread, by rw [← hkept]⟩
  · cases hp.symm.trans (h.run_of_ok hd)

theorem Refines.pure (a : α) : Refines (Pure.pure a : Decoder ω ε α) (Pure.pure a) :=
  fun _ => rfl

theorem Refines.fail (e : ε) : Refines (fail e : Decoder ω ε α) (throw e) :=
  fun _ => rfl

theorem Refines.bind {f : α → Decoder ω ε β} {q : α → Reader ε β} (hd : Refines d p)
    (hf : ∀ a, Refines (f a) (q a)) : Refines (d >>= f) (p >>= q) := by
  intro cur
  rw [StateT.run_bind]
  rcases h : d cur with ⟨e | a, cur'⟩
  · rw [bind_of_error h, hd.run_of_error h]
    rfl
  · rw [bind_of_ok h, hd.run_of_ok h]
    exact hf a cur'

theorem Refines.mapError (hd : Refines d p) (φ : ε → δ) :
    Refines (d.mapError φ) (p.mapError φ) := by
  intro cur
  change (p.run cur.unread).mapError φ = ((d cur).1.mapError φ).map _
  rw [hd cur]
  rcases (d cur).1 with e | a
  · rfl
  · rfl

theorem refines_readByte (eof : ε) :
    Refines (readByte eof : Decoder ω ε UInt8) (Foundation.readByte eof) := by
  rintro ⟨_ | ⟨b, rest⟩, log⟩
  · rfl
  · rfl

theorem refines_readFull (short : List UInt8 → ε) (n : ℕ) :
    Refines (readFull short n : Decoder ω ε (List UInt8)) (Foundation.readFull short n) := by
  intro cur
  change (if n ≤ cur.unread.length then _ else _) = _
  rw [readFull]
  split
  · rfl
  · rfl

theorem refines_readUvarintLoop (k x s : ℕ) :
    Refines (readUvarintLoop k x s : Decoder ω UvarintError ℕ)
      (Foundation.readUvarintLoop k x s) := by
  induction k generalizing x s with
  | zero => exact fun _ => rfl
  | succ k ih =>
    rintro ⟨_ | ⟨b, rest⟩, log⟩
    · rfl
    · change (if b < 0x80 then if _ then _ else _ else _) = _
      have hbyte : (readByte (if k = 9 then .eof else .unexpectedEOF) :
          Decoder ω UvarintError UInt8) ⟨b :: rest, log⟩ = (.ok b, ⟨rest, log⟩) := rfl
      rw [readUvarintLoop, bind_of_ok hbyte]
      split
      · split
        · rfl
        · rfl
      · exact ih _ _ ⟨rest, log⟩

end Refines

end Decoder

end Tox.Foundation
