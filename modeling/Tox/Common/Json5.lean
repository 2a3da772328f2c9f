import Mathlib.Data.List.Basic
import Mathlib.Tactic.Common

/-!
# Cleaning of configuration files

`json5.TrimNodeReader` reads a configuration file, replaces its comments and trailing commas by
spaces and hands the result on. `prep` does this in place, with one index that its loops move
forward over the bytes; `consumeComment` is called for a slash in the text and for a slash behind a
comma, and returns the index at which the caller goes on.

The index may come to lie beyond the end, after a backslash or an asterisk at the very end. Every
loop stops there, and reading a byte there is `none`.
-/

namespace Tox.Json5

def quote : UInt8 := 0x22
def backslash : UInt8 := 0x5c
def slash : UInt8 := 0x2f
def star : UInt8 := 0x2a
def comma : UInt8 := 0x2c
def closingBrace : UInt8 := 0x7d
def closingBracket : UInt8 := 0x5d
def space : UInt8 := 0x20

/-- `isNL`: a line feed or a carriage return. -/
def isNL (c : UInt8) : Bool := c == 0x0a || c == 0x0d

/-- `isWS`: a space, a tabulator or a line end. -/
def isWS (c : UInt8) : Bool := c == space || c == 0x09 || isNL c

/-! ### Comments -/

/-- The loop over a line comment. -/
def lineLoop (s : List UInt8) (i : ℕ) : List UInt8 × ℕ :=
  match _h : s[i]? with
  | none => (s, i)
  | some c => if isNL c then (s, i) else lineLoop (s.set i space) (i + 1)
termination_by s.length - i
decreasing_by
  have := (List.getElem?_eq_some_iff.mp _h).1
  rw [List.length_set]
  omega

/-- The loop over a block comment. A byte behind an asterisk that is no slash is skipped. -/
def blockLoop (s : List UInt8) (i : ℕ) : List UInt8 × ℕ :=
  match _h : s[i]? with
  | none => (s, i)
  | some c =>
    if c = star then
      if s[i + 1]? = some slash then ((s.set i space).set (i + 1) space, i + 1)
      else blockLoop (s.set i space) (i + 2)
    else blockLoop (s.set i space) (i + 1)
termination_by s.length - i
decreasing_by
  all_goals
    have := (List.getElem?_eq_some_iff.mp _h).1
    rw [List.length_set]
    omega

theorem lineLoop_eq (s : List UInt8) (i : ℕ) :
    lineLoop s i = match s[i]? with
      | none => (s, i)
      | some c => if isNL c then (s, i) else lineLoop (s.set i space) (i + 1) := by
  rw [lineLoop]
  split <;> rename_i h <;> rw [h]

theorem blockLoop_eq (s : List UInt8) (i : ℕ) :
    blockLoop s i = match s[i]? with
      | none => (s, i)
      | some c =>
        if c = star then
          if s[i + 1]? = some slash then ((s.set i space).set (i + 1) space, i + 1)
          else blockLoop (s.set i space) (i + 2)
        else blockLoop (s.set i space) (i + 1) := by
  rw [blockLoop]
  split <;> rename_i h <;> rw [h]

/-- The first half of `consumeComment`: a line comment. -/
def consumeLine (s : List UInt8) (i : ℕ) : List UInt8 × ℕ :=
  if s[i]? = some slash then lineLoop (s.set (i - 1) space) i else (s, i)

/-- The second half of `consumeComment`: a block comment. -/
def consumeBlock (s : List UInt8) (i : ℕ) : List UInt8 × ℕ :=
  if s[i]? = some star then blockLoop ((s.set (i - 1) space).set i space) i else (s, i)

/-- `consumeComment`, with the index behind a slash. -/
def consumeComment (s : List UInt8) (i : ℕ) : List UInt8 × ℕ :=
  consumeBlock (consumeLine s i).1 (consumeLine s i).2

theorem lineLoop_bounds (s : List UInt8) (i : ℕ) :
    (lineLoop s i).1.length = s.length ∧ i ≤ (lineLoop s i).2 := by
  fun_induction lineLoop s i with
  | case1 => exact ⟨rfl, Nat.le_refl _⟩
  | case2 => exact ⟨rfl, Nat.le_refl _⟩
  | case3 s i c _ _ ih =>
    rw [List.length_set] at ih
    exact ⟨ih.1, by omega⟩

theorem blockLoop_bounds (s : List UInt8) (i : ℕ) :
    (blockLoop s i).1.length = s.length ∧ i ≤ (blockLoop s i).2 := by
  fun_induction blockLoop s i with
  | case1 => exact ⟨rfl, Nat.le_refl _⟩
  | case2 => exact ⟨by rw [List.length_set, List.length_set], by omega⟩
  | case3 s i _ _ ih =>
    rw [List.length_set] at ih
    exact ⟨ih.1, by omega⟩
  | case4 s i c _ _ ih =>
    rw [List.length_set] at ih
    exact ⟨ih.1, by omega⟩

theorem consumeLine_bounds (s : List UInt8) (i : ℕ) :
    (consumeLine s i).1.length = s.length ∧ i ≤ (consumeLine s i).2 := by
  rw [consumeLine]
  split
  · have := lineLoop_bounds (s.set (i - 1) space) i
    rwa [List.length_set] at this
  · exact ⟨rfl, Nat.le_refl _⟩

theorem consumeComment_bounds (s : List UInt8) (i : ℕ) :
    (consumeComment s i).1.length = s.length ∧ i ≤ (consumeComment s i).2 := by
  have hline := consumeLine_bounds s i
  rw [consumeComment, consumeBlock]
  split
  · have := blockLoop_bounds
      (((consumeLine s i).1.set ((consumeLine s i).2 - 1) space).set (consumeLine s i).2 space)
      (consumeLine s i).2
    rw [List.length_set, List.length_set] at this
    exact ⟨this.1.trans hline.1, Nat.le_trans hline.2 this.2⟩
  · exact hline

/-! ### The text -/

/-- The loop over a string, from the index behind the quote. -/
def stringLoop (s : List UInt8) (i : ℕ) : ℕ :=
  match _h : s[i]? with
  | none => i
  | some c =>
    if c = quote then i + 1
    else if c = backslash then stringLoop s (i + 2)
    else stringLoop s (i + 1)
termination_by s.length - i
decreasing_by
  all_goals
    have := (List.getElem?_eq_some_iff.mp _h).1
    omega

theorem stringLoop_eq (s : List UInt8) (i : ℕ) :
    stringLoop s i = match s[i]? with
      | none => i
      | some c =>
        if c = quote then i + 1
        else if c = backslash then stringLoop s (i + 2)
        else stringLoop s (i + 1) := by
  rw [stringLoop]
  split <;> rename_i h <;> rw [h]

theorem le_stringLoop (s : List UInt8) (i : ℕ) : i ≤ stringLoop s i := by
  fun_induction stringLoop s i with
  | case1 => exact Nat.le_refl _
  | case2 => omega
  | case3 => omega
  | case4 => omega

/-- The loop behind the comma at `j`, when it has come to the index `i`. -/
def commaLoop (s : List UInt8) (j i : ℕ) : List UInt8 × ℕ :=
  match _h : s[i + 1]? with
  | none => (s, i + 1)
  | some c =>
    if c = closingBrace ∨ c = closingBracket then (s.set j space, i + 1)
    else if c = slash then
      commaLoop (consumeComment s (i + 2)).1 j (consumeComment s (i + 2)).2
    else if isWS c then commaLoop s j (i + 1)
    else (s, i + 1)
termination_by s.length - i
decreasing_by
  all_goals
    have := (List.getElem?_eq_some_iff.mp _h).1
  · have := consumeComment_bounds s (i + 2)
    omega
  · omega

theorem commaLoop_eq (s : List UInt8) (j i : ℕ) :
    commaLoop s j i = match s[i + 1]? with
      | none => (s, i + 1)
      | some c =>
        if c = closingBrace ∨ c = closingBracket then (s.set j space, i + 1)
        else if c = slash then
          commaLoop (consumeComment s (i + 2)).1 j (consumeComment s (i + 2)).2
        else if isWS c then commaLoop s j (i + 1)
        else (s, i + 1) := by
  rw [commaLoop]
  split <;> rename_i h <;> rw [h]

theorem commaLoop_bounds (s : List UInt8) (j i : ℕ) :
    (commaLoop s j i).1.length = s.length ∧ i < (commaLoop s j i).2 := by
  fun_induction commaLoop s j i with
  | case1 => exact ⟨rfl, Nat.lt_succ_self _⟩
  | case2 => exact ⟨List.length_set, Nat.lt_succ_self _⟩
  | case3 s i _ _ ih =>
    have := consumeComment_bounds s (i + 2)
    exact ⟨ih.1.trans this.1, by omega⟩
  | case4 s i _ _ _ _ _ ih => exact ⟨ih.1, by omega⟩
  | case5 => exact ⟨rfl, Nat.lt_succ_self _⟩

/-- The loop of `prep`. -/
def prepLoop (s : List UInt8) (i : ℕ) : List UInt8 :=
  match _h : s[i]? with
  | none => s
  | some c =>
    if c = quote then prepLoop s (stringLoop s (i + 1))
    else if c = slash then
      prepLoop (consumeComment s (i + 1)).1 (consumeComment s (i + 1)).2
    else if c = comma then prepLoop (commaLoop s i i).1 (commaLoop s i i).2
    else prepLoop s (i + 1)
termination_by s.length - i
decreasing_by
  all_goals
    have := (List.getElem?_eq_some_iff.mp _h).1
  · have := le_stringLoop s (i + 1)
    omega
  · have := consumeComment_bounds s (i + 1)
    omega
  · have := commaLoop_bounds s i i
    omega
  · omega

theorem prepLoop_eq (s : List UInt8) (i : ℕ) :
    prepLoop s i = match s[i]? with
      | none => s
      | some c =>
        if c = quote then prepLoop s (stringLoop s (i + 1))
        else if c = slash then
          prepLoop (consumeComment s (i + 1)).1 (consumeComment s (i + 1)).2
        else if c = comma then prepLoop (commaLoop s i i).1 (commaLoop s i i).2
        else prepLoop s (i + 1) := by
  rw [prepLoop]
  split <;> rename_i h <;> rw [h]

/-- `prep`; `err` is the error with which the reader ends after the data, which is then returned as
it is. -/
def prep (data : List UInt8) (err : Option String) : List UInt8 × Option String :=
  match err with
  | some err => (data, some err)
  | none => (prepLoop data 0, none)

/-! ### The reader -/

/-- `TrimNodeReader`: the data of the underlying reader with the error in which it ends, and the
part of the cleaned text that has not been read, once there is one. -/
structure TrimNodeReader where
  data : List UInt8
  err : Option String := none
  br : Option (List UInt8) := none

namespace TrimNodeReader

/-- `bytes.Reader.Read` into a buffer of `n` bytes: what is left, what is read, and the error. -/
def readBytes (rest : List UInt8) (n : ℕ) : List UInt8 × List UInt8 × Option String :=
  if rest = [] then ([], [], some "EOF") else (rest.drop n, rest.take n, none)

/-- `TrimNodeReader.Read` into a buffer of `n` bytes. -/
def read (st : TrimNodeReader) (n : ℕ) : TrimNodeReader × List UInt8 × Option String :=
  match st.br with
  | some rest => ({ st with br := some (readBytes rest n).1 }, (readBytes rest n).2)
  | none =>
    match prep st.data st.err with
    | (_, some err) => (st, [], some err)
    | (s, none) => ({ st with br := some (readBytes s n).1 }, (readBytes s n).2)

/-- What is still to be read. -/
def pending (st : TrimNodeReader) : List UInt8 := st.br.getD (prepLoop st.data 0)

/-- Reads into buffers of the given lengths: the reader behind them and all that they have read. -/
def reads (st : TrimNodeReader) : List ℕ → TrimNodeReader × List UInt8
  | [] => (st, [])
  | n :: ns =>
    let (st', text) := reads (st.read n).1 ns
    (st', (st.read n).2.1 ++ text)

theorem readBytes_append (rest : List UInt8) (n : ℕ) :
    (readBytes rest n).2.1 ++ (readBytes rest n).1 = rest := by
  rw [readBytes]
  split
  case isTrue h => exact h.symm
  case isFalse => exact List.take_append_drop n rest

theorem read_spec {st : TrimNodeReader} (h : st.err = none) (n : ℕ) :
    (st.read n).1.err = none ∧ (st.read n).2.1 ++ (st.read n).1.pending = st.pending := by
  rw [read]
  split
  case h_1 rest hbr =>
    have hpending : st.pending = rest := by rw [pending, hbr, Option.getD_some]
    exact ⟨h, (readBytes_append rest n).trans hpending.symm⟩
  case h_2 hbr =>
    have hpending : st.pending = prepLoop st.data 0 := by rw [pending, hbr, Option.getD_none]
    rw [h, prep]
    exact ⟨rfl, (readBytes_append _ n).trans hpending.symm⟩

/-- Whatever the lengths of the buffers, the reads give the cleaned text from its start on. -/
theorem reads_append_pending {st : TrimNodeReader} (h : st.err = none) (ns : List ℕ) :
    (st.reads ns).2 ++ (st.reads ns).1.pending = st.pending := by
  induction ns generalizing st with
  | nil => rfl
  | cons n ns ih =>
    obtain ⟨herr, hread⟩ := read_spec h n
    change ((st.read n).2.1 ++ ((st.read n).1.reads ns).2) ++ _ = _
    rw [List.append_assoc, ← hread]
    exact congrArg _ (ih herr)

end TrimNodeReader

end Tox.Json5
