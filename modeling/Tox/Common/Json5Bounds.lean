import Tox.Common.Json5Scan
import Tox.Foundation.Loop
import Tox.Foundation.Slice

/-!
# The bounds of `prep`

The loops of `prep` and `consumeComment` once more, with every access to the bytes checked and every
loop run for a bounded number of passes. An index outside the bytes is a failure here, as is a loop
that is not left in time.

No access fails and every loop is left within as many passes as there are bytes, and one
(`Checked.prep_eq_ok`): the checked loops compute what the loops of `Tox.Common.Json5` do. With the
scanner of `Tox.Common.Json5Scan` it follows that bytes are only ever replaced by spaces.
-/

namespace Tox.Json5

open Tox.Foundation

namespace Checked

/-- How a checked loop can fail. -/
inductive Failure
  | outOfRange
  | unfinished
deriving DecidableEq, Repr

/-- The outcome of code that returns no error. -/
abbrev Attempt (α : Type) := Outcome Empty Failure α

/-- The bytes and the index, which the loops change. -/
abbrev Cursor := List UInt8 × ℕ

def byteAt (s : List UInt8) (i : ℤ) : Attempt UInt8 := Slice.get .outOfRange s i

def blank (s : List UInt8) (i : ℤ) : Attempt (List UInt8) := Slice.put .outOfRange s i space

section Access

variable {s : List UInt8} {i : ℕ} {α : Type}

theorem ite_byteAt_of_some {c : UInt8} (h : s[i]? = some c) (f : UInt8 → Attempt α)
    (x : Attempt α) : (if i < s.length then byteAt s i >>= f else x) = f c :=
  Slice.ite_get_of_some h f x

theorem ite_byteAt_of_none (h : s[i]? = none) (f : UInt8 → Attempt α) (x : Attempt α) :
    (if i < s.length then byteAt s i >>= f else x) = x :=
  Slice.ite_get_of_none h f x

theorem ite_byteAt_eq (s : List UInt8) (c : UInt8) (x y : Attempt α) :
    (if i < s.length then byteAt s i >>= fun b => if b = c then x else y else y) =
      if s[i]? = some c then x else y :=
  Slice.ite_get_eq s c x y

theorem blank_of_lt (h : i < s.length) : blank s i = .ok (s.set i space) :=
  Slice.put_of_lt h space

/-- The byte in front of the index. -/
theorem blank_pred (hi : 0 < i) (h : i < s.length) :
    blank s (i - 1) = .ok (s.set (i - 1) space) := by
  have hcast : (i : ℤ) - 1 = (i - 1 : ℕ) := by omega
  rw [hcast]
  exact blank_of_lt (by omega)

end Access

/-! ### Comments -/

def lineBody : Cursor → Attempt (Cursor ⊕ Cursor)
  | (s, i) =>
    if i < s.length then do
      let c ← byteAt s i
      if isNL c then return .inr (s, i)
      else
        let s ← blank s i
        return .inl (s, i + 1)
    else return .inr (s, i)

def blockBody : Cursor → Attempt (Cursor ⊕ Cursor)
  | (s, i) =>
    if i < s.length then do
      let c ← byteAt s i
      if c ≠ star then
        let s ← blank s i
        return .inl (s, i + 1)
      else
        let s ← blank s i
        if i + 1 < s.length then
          let c ← byteAt s (i + 1 : ℕ)
          if c = slash then
            let s ← blank s (i + 1 : ℕ)
            return .inr (s, i + 1)
          else return .inl (s, i + 2)
        else return .inl (s, i + 2)
    else return .inr (s, i)

def consumeLine (n : ℕ) (s : List UInt8) (i : ℕ) : Attempt Cursor :=
  if i < s.length then do
    let c ← byteAt s i
    if c = slash then
      let s ← blank s (i - 1)
      Loop.run .unfinished lineBody n (s, i)
    else return (s, i)
  else return (s, i)

def consumeBlock (n : ℕ) (s : List UInt8) (i : ℕ) : Attempt Cursor :=
  if i < s.length then do
    let c ← byteAt s i
    if c = star then
      let s ← blank s (i - 1)
      let s ← blank s i
      Loop.run .unfinished blockBody n (s, i)
    else return (s, i)
  else return (s, i)

/-- `consumeComment`, with at most `n` passes of every loop. -/
def consumeComment (n : ℕ) (s : List UInt8) (i : ℕ) : Attempt Cursor := do
  let (s, i) ← consumeLine n s i
  consumeBlock n s i

/-! ### The text -/

def stringBody (s : List UInt8) (i : ℕ) : Attempt (ℕ ⊕ ℕ) :=
  if i < s.length then do
    let c ← byteAt s i
    if c = quote then return .inr (i + 1)
    else if c = backslash then return .inl (i + 2)
    else return .inl (i + 1)
  else return .inr i

/-- The loop behind the comma at `j`. -/
def commaBody (n j : ℕ) : Cursor → Attempt (Cursor ⊕ Cursor)
  | (s, i) =>
    if i + 1 < s.length then do
      let c ← byteAt s (i + 1 : ℕ)
      if c = closingBrace ∨ c = closingBracket then
        let s ← blank s j
        return .inr (s, i + 1)
      else if c = slash then
        let p ← consumeComment n s (i + 2)
        return .inl p
      else if isWS c then return .inl (s, i + 1)
      else return .inr (s, i + 1)
    else return .inr (s, i + 1)

def prepBody (n : ℕ) : Cursor → Attempt (Cursor ⊕ List UInt8)
  | (s, i) =>
    if i < s.length then do
      let c ← byteAt s i
      if c = quote then
        let i ← Loop.run .unfinished (stringBody s) n (i + 1)
        return .inl (s, i)
      else if c = slash then
        let p ← consumeComment n s (i + 1)
        return .inl p
      else if c = comma then
        let p ← Loop.run .unfinished (commaBody n i) n (s, i)
        return .inl p
      else return .inl (s, i + 1)
    else return .inr s

/-- `prep`, with at most `n` passes of every loop. -/
def prep (n : ℕ) (data : List UInt8) (err : Option String) :
    Attempt (List UInt8 × Option String) :=
  match err with
  | some err => return (data, some err)
  | none => do
    let s ← Loop.run .unfinished (prepBody n) n (data, 0)
    return (s, none)

/-! ### What the loops compute -/

/-- The bytes that lie ahead of the index. -/
def ahead (p : Cursor) : ℕ := p.1.length - p.2

theorem ahead_lt {p q : Cursor} (hlength : q.1.length = p.1.length) (hp : p.2 < p.1.length)
    (h : p.2 < q.2) : ahead q < ahead p := by
  rw [ahead, ahead, hlength]
  omega

theorem lineBody_pass (p : Cursor) :
    Loop.Pass lineBody (fun _ => True) (fun p => lineLoop p.1 p.2) ahead p := by
  obtain ⟨s, i⟩ := p
  have hloop := lineLoop_eq s i
  rcases hc : s[i]? with _ | c
  · rw [hc] at hloop
    refine .leave ?_
    rw [hloop, lineBody, ite_byteAt_of_none hc]
    rfl
  rw [hc] at hloop
  change lineLoop s i = if isNL c = true then _ else _ at hloop
  have hi : i < s.length := (List.getElem?_eq_some_iff.mp hc).1
  by_cases hnl : isNL c = true
  · rw [if_pos hnl] at hloop
    refine .leave ?_
    rw [hloop, lineBody, ite_byteAt_of_some hc, if_pos hnl]
    rfl
  · rw [if_neg hnl] at hloop
    refine .goOn (s.set i space, i + 1) ?_ trivial hloop.symm ?_
    · rw [lineBody, ite_byteAt_of_some hc, if_neg hnl, blank_of_lt hi]
      rfl
    · exact ahead_lt List.length_set hi (Nat.lt_succ_self i)

theorem blockBody_pass (p : Cursor) :
    Loop.Pass blockBody (fun _ => True) (fun p => blockLoop p.1 p.2) ahead p := by
  obtain ⟨s, i⟩ := p
  have hloop := blockLoop_eq s i
  rcases hc : s[i]? with _ | c
  · rw [hc] at hloop
    refine .leave ?_
    rw [hloop, blockBody, ite_byteAt_of_none hc]
    rfl
  rw [hc] at hloop
  change blockLoop s i = if c = star then _ else _ at hloop
  have hi : i < s.length := (List.getElem?_eq_some_iff.mp hc).1
  by_cases hstar : c = star
  · rw [if_pos hstar] at hloop
    have hnext : (s.set i space)[i + 1]? = s[i + 1]? :=
      List.getElem?_set_ne (Nat.ne_of_lt (Nat.lt_succ_self i))
    by_cases hslash : s[i + 1]? = some slash
    · rw [if_pos hslash] at hloop
      have hi' : i + 1 < (s.set i space).length :=
        (List.getElem?_eq_some_iff.mp (hnext.trans hslash)).1
      refine .leave ?_
      rw [hloop, blockBody, ite_byteAt_of_some hc, if_neg (not_not.mpr hstar), blank_of_lt hi,
        Outcome.ok_bind, ite_byteAt_eq, if_pos (hnext.trans hslash), blank_of_lt hi']
      rfl
    · rw [if_neg hslash] at hloop
      refine .goOn (s.set i space, i + 2) ?_ trivial hloop.symm ?_
      · rw [blockBody, ite_byteAt_of_some hc, if_neg (not_not.mpr hstar), blank_of_lt hi,
          Outcome.ok_bind, ite_byteAt_eq, hnext, if_neg hslash]
        rfl
      · exact ahead_lt List.length_set hi (Nat.lt_add_of_pos_right Nat.two_pos)
  · rw [if_neg hstar] at hloop
    refine .goOn (s.set i space, i + 1) ?_ trivial hloop.symm ?_
    · rw [blockBody, ite_byteAt_of_some hc, if_pos hstar, blank_of_lt hi]
      rfl
    · exact ahead_lt List.length_set hi (Nat.lt_succ_self i)

theorem consumeLine_eq_ok {n i : ℕ} {s : List UInt8} (hi : 0 < i) (hn : s.length < n) :
    consumeLine n s i = .ok (Json5.consumeLine s i) := by
  rw [consumeLine, ite_byteAt_eq, Json5.consumeLine]
  by_cases hslash : s[i]? = some slash
  · have hlt : i < s.length := (List.getElem?_eq_some_iff.mp hslash).1
    rw [if_pos hslash, if_pos hslash, blank_pred hi hlt, Outcome.ok_bind]
    refine Loop.run_eq_ok (fun p _ => lineBody_pass p) trivial ?_
    rw [ahead, List.length_set]
    exact Nat.lt_of_le_of_lt (Nat.sub_le _ _) hn
  · rw [if_neg hslash, if_neg hslash]
    rfl

theorem consumeBlock_eq_ok {n i : ℕ} {s : List UInt8} (hi : 0 < i) (hn : s.length < n) :
    consumeBlock n s i = .ok (Json5.consumeBlock s i) := by
  rw [consumeBlock, ite_byteAt_eq, Json5.consumeBlock]
  by_cases hstar : s[i]? = some star
  · have hlt : i < s.length := (List.getElem?_eq_some_iff.mp hstar).1
    have hlt' : i < (s.set (i - 1) space).length := by rwa [List.length_set]
    rw [if_pos hstar, if_pos hstar, blank_pred hi hlt, Outcome.ok_bind, blank_of_lt hlt',
      Outcome.ok_bind]
    refine Loop.run_eq_ok (fun p _ => blockBody_pass p) trivial ?_
    rw [ahead, List.length_set, List.length_set]
    exact Nat.lt_of_le_of_lt (Nat.sub_le _ _) hn
  · rw [if_neg hstar, if_neg hstar]
    rfl

theorem consumeComment_eq_ok {n i : ℕ} {s : List UInt8} (hi : 0 < i) (hn : s.length < n) :
    consumeComment n s i = .ok (Json5.consumeComment s i) := by
  obtain ⟨hlength, hle⟩ := consumeLine_bounds s i
  rw [consumeComment, consumeLine_eq_ok hi hn, Outcome.ok_bind]
  exact consumeBlock_eq_ok (Nat.lt_of_lt_of_le hi hle) (hlength.symm ▸ hn)

theorem stringBody_pass (s : List UInt8) (i : ℕ) :
    Loop.Pass (stringBody s) (fun _ => True) (stringLoop s) (fun i => s.length - i) i := by
  have hloop := stringLoop_eq s i
  rcases hc : s[i]? with _ | c
  · rw [hc] at hloop
    refine .leave ?_
    rw [hloop, stringBody, ite_byteAt_of_none hc]
    rfl
  rw [hc] at hloop
  change stringLoop s i = if c = quote then _ else _ at hloop
  have hi : i < s.length := (List.getElem?_eq_some_iff.mp hc).1
  by_cases hquote : c = quote
  · rw [if_pos hquote] at hloop
    refine .leave ?_
    rw [hloop, stringBody, ite_byteAt_of_some hc, if_pos hquote]
    rfl
  rw [if_neg hquote] at hloop
  by_cases hback : c = backslash
  · rw [if_pos hback] at hloop
    refine .goOn (i + 2) ?_ trivial hloop.symm (by omega)
    rw [stringBody, ite_byteAt_of_some hc, if_neg hquote, if_pos hback]
    rfl
  · rw [if_neg hback] at hloop
    refine .goOn (i + 1) ?_ trivial hloop.symm (by omega)
    rw [stringBody, ite_byteAt_of_some hc, if_neg hquote, if_neg hback]
    rfl

/-- The index of the comma stays within the bytes. -/
theorem commaBody_pass {n j : ℕ} (p : Cursor) (hinv : j < p.1.length ∧ p.1.length < n) :
    Loop.Pass (commaBody n j) (fun p => j < p.1.length ∧ p.1.length < n)
      (fun p => commaLoop p.1 j p.2) ahead p := by
  obtain ⟨s, i⟩ := p
  obtain ⟨hj, hn⟩ := hinv
  have hloop := commaLoop_eq s j i
  rcases hc : s[i + 1]? with _ | c
  · rw [hc] at hloop
    refine .leave ?_
    rw [hloop, commaBody, ite_byteAt_of_none hc]
    rfl
  rw [hc] at hloop
  change commaLoop s j i = if c = closingBrace ∨ c = closingBracket then _ else _ at hloop
  have hi : i < s.length := Nat.lt_of_succ_lt (List.getElem?_eq_some_iff.mp hc).1
  by_cases hclosing : c = closingBrace ∨ c = closingBracket
  · rw [if_pos hclosing] at hloop
    refine .leave ?_
    rw [hloop, commaBody, ite_byteAt_of_some hc, if_pos hclosing, blank_of_lt hj]
    rfl
  rw [if_neg hclosing] at hloop
  by_cases hslash : c = slash
  · rw [if_pos hslash] at hloop
    obtain ⟨hlength, hle⟩ := consumeComment_bounds s (i + 2)
    refine .goOn (Json5.consumeComment s (i + 2)) ?_ ?_ hloop.symm (ahead_lt hlength hi (by omega))
    · rw [commaBody, ite_byteAt_of_some hc, if_neg hclosing, if_pos hslash,
        consumeComment_eq_ok (Nat.succ_pos _) hn]
      rfl
    · rw [hlength]
      exact ⟨hj, hn⟩
  rw [if_neg hslash] at hloop
  by_cases hws : isWS c = true
  · rw [if_pos hws] at hloop
    refine .goOn (s, i + 1) ?_ ⟨hj, hn⟩ hloop.symm (ahead_lt rfl hi (Nat.lt_succ_self i))
    rw [commaBody, ite_byteAt_of_some hc, if_neg hclosing, if_neg hslash, if_pos hws]
    rfl
  · rw [if_neg hws] at hloop
    refine .leave ?_
    rw [hloop, commaBody, ite_byteAt_of_some hc, if_neg hclosing, if_neg hslash, if_neg hws]
    rfl

theorem prepBody_pass {n : ℕ} (p : Cursor) (hn : p.1.length < n) :
    Loop.Pass (prepBody n) (fun p => p.1.length < n) (fun p => prepLoop p.1 p.2) ahead p := by
  obtain ⟨s, i⟩ := p
  have hloop := prepLoop_eq s i
  rcases hc : s[i]? with _ | c
  · rw [hc] at hloop
    refine .leave ?_
    rw [hloop, prepBody, ite_byteAt_of_none hc]
    rfl
  rw [hc] at hloop
  change prepLoop s i = if c = quote then _ else _ at hloop
  have hi : i < s.length := (List.getElem?_eq_some_iff.mp hc).1
  by_cases hquote : c = quote
  · rw [if_pos hquote] at hloop
    have hstring : Loop.run .unfinished (stringBody s) n (i + 1) = .ok (stringLoop s (i + 1)) :=
      Loop.run_eq_ok (fun i _ => stringBody_pass s i) trivial
        (Nat.lt_of_le_of_lt (Nat.sub_le _ _) hn)
    refine .goOn (s, stringLoop s (i + 1)) ?_ hn hloop.symm
      (ahead_lt rfl hi (le_stringLoop s (i + 1)))
    rw [prepBody, ite_byteAt_of_some hc, if_pos hquote, hstring]
    rfl
  rw [if_neg hquote] at hloop
  by_cases hslash : c = slash
  · rw [if_pos hslash] at hloop
    obtain ⟨hlength, hle⟩ := consumeComment_bounds s (i + 1)
    refine .goOn (Json5.consumeComment s (i + 1)) ?_ (hlength.symm ▸ hn) hloop.symm
      (ahead_lt hlength hi hle)
    rw [prepBody, ite_byteAt_of_some hc, if_neg hquote, if_pos hslash,
      consumeComment_eq_ok (Nat.succ_pos _) hn]
    rfl
  rw [if_neg hslash] at hloop
  by_cases hcomma : c = comma
  · rw [if_pos hcomma] at hloop
    obtain ⟨hlength, hlt⟩ := commaLoop_bounds s i i
    have hrun : Loop.run .unfinished (commaBody n i) n (s, i) = .ok (commaLoop s i i) :=
      Loop.run_eq_ok commaBody_pass ⟨hi, hn⟩ (Nat.lt_of_le_of_lt (Nat.sub_le _ _) hn)
    refine .goOn (commaLoop s i i) ?_ (hlength.symm ▸ hn) hloop.symm (ahead_lt hlength hi hlt)
    rw [prepBody, ite_byteAt_of_some hc, if_neg hquote, if_neg hslash, if_pos hcomma, hrun]
    rfl
  · rw [if_neg hcomma] at hloop
    refine .goOn (s, i + 1) ?_ hn hloop.symm (ahead_lt rfl hi (Nat.lt_succ_self i))
    rw [prepBody, ite_byteAt_of_some hc, if_neg hquote, if_neg hslash, if_neg hcomma]
    rfl

/-- With one pass more than there are bytes, every loop is left, and no access fails. -/
theorem prep_eq_ok {n : ℕ} {data : List UInt8} (hn : data.length < n) (err : Option String) :
    prep n data err = .ok (Json5.prep data err) := by
  rcases err with _ | err
  · have hrun : Loop.run .unfinished (prepBody n) n (data, 0) = .ok (prepLoop data 0) :=
      Loop.run_eq_ok prepBody_pass hn hn
    rw [prep, hrun]
    rfl
  · rfl

end Checked

/-! ### Blanking -/

theorem emit_eq_or_eq_space (q : ScanState) (c : UInt8) (s : List UInt8) :
    q.emit c s = c ∨ q.emit c s = space := by
  cases q <;> grind [ScanState.emit]

theorem forall₂_prep (data : List UInt8) (err : Option String) :
    List.Forall₂ (fun b c => c = b ∨ c = space) data (prep data err).1 := by
  rcases err with _ | err
  · rw [prep_eq_run]
    exact Scanner.forall₂_run emit_eq_or_eq_space _ data
  · exact List.forall₂_same.mpr fun b _ => .inl rfl

/-- **The stripper only blanks.** On all bytes, and whatever the error of the reader, every loop is
left, no access lies outside the bytes, and each byte of the result is the byte at the same place or
a space. -/
theorem prep_blanks (data : List UInt8) (err : Option String) :
    ∃ r, (∀ n, data.length < n → Checked.prep n data err = .ok (r, err)) ∧
      r.length = data.length ∧
      ∀ i < data.length, r[i]? = data[i]? ∨ r[i]? = some space := by
  have hforall := forall₂_prep data err
  have hlength := hforall.length_eq
  refine ⟨(prep data err).1, fun n hn => ?_, hlength.symm, fun i hi => ?_⟩
  · rw [Checked.prep_eq_ok hn]
    rcases err with _ | err
    · rfl
    · rfl
  · have hi' : i < (prep data err).1.length := hlength ▸ hi
    rw [List.getElem?_eq_getElem hi, List.getElem?_eq_getElem hi']
    exact (hforall.get hi hi').imp (congrArg some) (congrArg some)

-- An asterisk at the end of a comment that is not closed, where the index goes beyond the bytes.
example : Checked.prep 5 [comma, slash, star, star] none =
    .ok ([comma, space, space, space], none) := rfl

end Tox.Json5
