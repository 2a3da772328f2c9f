import Tox.Common.Json5
import Tox.Foundation.Scanner

/-!
# The scanner behind `prep`

What `prep` does to a byte depends on where its loops have come to and on the bytes that follow.
This file gives it as a scanner that reads the bytes once (`scanner`), and shows that the loops of
the source, which move an index over the bytes and write to them in place, compute the same
(`prepLoop_eq_run`).

Every loop is described by what lies behind the index and what lies ahead of it: `Reached` says
where a loop ends, and `Passes` that the scanner has made of the bytes in between what the loop has
put in their place.
-/

namespace Tox.Json5

open Tox.Foundation

/-- Where the loops of `prep` have come to. The flag says that only whitespace and comments have
been found since the last comma. -/
inductive ScanState
  | code (look : Bool)
  /-- Behind a slash that starts no comment, in the loop behind a comma: the byte is not looked
  at. -/
  | skip
  | quoted
  /-- Behind a backslash in a string. -/
  | escaped
  /-- At the second byte of a comment. -/
  | openLine (look : Bool)
  | line (look : Bool)
  | openBlock (look : Bool)
  | block (look : Bool)
  /-- Behind an asterisk in a block comment. -/
  | star (look : Bool)
deriving DecidableEq, Repr

def ScanState.next : ScanState → UInt8 → List UInt8 → ScanState
  | .code look, c, s =>
    if c = quote then .quoted
    else if c = slash then
      if s.head? = some slash then .openLine look
      else if s.head? = some Json5.star then .openBlock look
      else if look then .skip
      else .code false
    else if c = comma then .code true
    else .code (look && isWS c)
  | .skip, _, _ => .code true
  | .quoted, c, _ => if c = quote then .code false else if c = backslash then .escaped else .quoted
  | .escaped, _, _ => .quoted
  | .openLine look, _, _ => .line look
  | .line look, c, _ => if isNL c then .code look else .line look
  | .openBlock look, _, _ => .block look
  | .block look, c, _ => if c = Json5.star then .star look else .block look
  | .star look, c, _ => if c = slash then .code look else .block look

/-- Whether the loop behind a comma comes to a closing brace or bracket. -/
def trailing : ScanState → List UInt8 → Bool
  | _, [] => false
  | .code look, c :: s =>
    if c = closingBrace ∨ c = closingBracket then true
    else if c = slash ∨ isWS c then trailing ((ScanState.code look).next c s) s
    else false
  | q, c :: s => trailing (q.next c s) s

def ScanState.emit : ScanState → UInt8 → List UInt8 → UInt8
  | .code _, c, s =>
    if c = slash ∧ (s.head? = some slash ∨ s.head? = some Json5.star) then space
    else if c = comma ∧ trailing (.code true) s then space
    else c
  | .skip, c, _ => c
  | .quoted, c, _ => c
  | .escaped, c, _ => c
  | .openLine _, _, _ => space
  | .line _, c, _ => if isNL c then c else space
  | .openBlock _, _, _ => space
  | .block _, _, _ => space
  | .star _, c, _ => if c = slash then space else c

def scanner : Scanner ScanState UInt8 := ⟨ScanState.next, ScanState.emit⟩

/-! ### Passing over bytes -/

/-- From the state `q` the scanner passes over `r` up to `r'`, where it is in the state `q'`, and
has put `x` in the place of the bytes before. -/
structure Passes (q : ScanState) (r x : List UInt8) (q' : ScanState) (r' : List UInt8) : Prop where
  run : scanner.run q r = x ++ scanner.run q' r'
  trailing : trailing q r = trailing q' r'
  length_le : r'.length ≤ r.length

section Passes

variable {q q' q'' : ScanState} {b c : UInt8} {r r' r'' s x y : List UInt8}

theorem Passes.trans (h : Passes q r x q' r') (h' : Passes q' r' y q'' r'') :
    Passes q r (x ++ y) q'' r'' where
  run := by rw [h.run, h'.run, List.append_assoc]
  trailing := h.trailing.trans h'.trailing
  length_le := Nat.le_trans h'.length_le h.length_le

theorem run_cons (q : ScanState) (c : UInt8) (s : List UInt8) :
    scanner.run q (c :: s) = q.emit c s :: scanner.run (q.next c s) s := rfl

/-- One byte outside the text. -/
theorem passes_cons (h : ∀ look, q ≠ .code look) (hemit : q.emit c s = b)
    (hnext : q.next c s = q') : Passes q (c :: s) [b] q' s where
  run := by rw [run_cons, hemit, hnext, List.singleton_append]
  trailing := by
    rw [← hnext]
    cases q with
    | code look => exact absurd rfl (h look)
    | _ => rfl
  length_le := Nat.le_succ _

/-- A slash or a whitespace byte in the text. -/
theorem passes_code {look : Bool} (h : c = slash ∨ isWS c = true)
    (hemit : (ScanState.code look).emit c s = b) (hnext : (ScanState.code look).next c s = q') :
    Passes (.code look) (c :: s) [b] q' s where
  run := by rw [run_cons, hemit, hnext, List.singleton_append]
  trailing := by
    have hclosing : ¬ (c = closingBrace ∨ c = closingBracket) := by
      rintro (rfl | rfl) <;> revert h <;> decide
    rw [Json5.trailing, if_neg hclosing, if_pos h, hnext]
  length_le := Nat.le_succ _

theorem isWS_of_isNL (h : isNL c = true) : isWS c = true := by
  rw [isWS, h, Bool.or_true]

/-- A whitespace byte in the text is left as it is and changes nothing. -/
theorem next_code_ws {look : Bool} (h : isWS c = true) :
    (ScanState.code look).next c s = .code look ∧ (ScanState.code look).emit c s = c := by
  have hquote : c ≠ quote := by rintro rfl; revert h; decide
  have hslash : c ≠ slash := by rintro rfl; revert h; decide
  have hcomma : c ≠ comma := by rintro rfl; revert h; decide
  simp [ScanState.next, ScanState.emit, hquote, hslash, hcomma, h]

theorem passes_ws {look : Bool} (h : isWS c = true) :
    Passes (.code look) (c :: s) [c] (.code look) s :=
  passes_code (.inr h) (next_code_ws h).2 (next_code_ws h).1

/-- The last byte of a comment, when it is whitespace, may as well be left to the text. -/
theorem Passes.leave {look : Bool} (h : Passes q (c :: s) [b] (.code look) s)
    (hb : isWS b = true) : Passes q (c :: s) [] (.code look) (b :: s) where
  run := by rw [h.run, (passes_ws hb).run, List.nil_append]
  trailing := h.trailing.trans (passes_ws hb).trailing.symm
  length_le := Nat.le_refl _

end Passes

/-! ### The loops over comments -/

/-- A loop has ended with `behind` behind its index and `ahead` ahead of it. The index may lie
beyond the end. -/
def Reached (p : List UInt8 × ℕ) (behind ahead : List UInt8) : Prop :=
  p.1 = behind ++ ahead ∧ (p.2 = behind.length ∨ ahead = [] ∧ behind.length ≤ p.2)

theorem length_snoc (d : List UInt8) (c : UInt8) : (d ++ [c]).length = d.length + 1 :=
  List.length_append

theorem getElem?_length (d : List UInt8) (r : List UInt8) : (d ++ r)[d.length]? = r.head? := by
  rw [List.getElem?_append_right (Nat.le_refl _), Nat.sub_self, List.head?_eq_getElem?]

theorem set_length (d : List UInt8) (c b : UInt8) (r : List UInt8) :
    (d ++ c :: r).set d.length b = (d ++ [b]) ++ r := by
  rw [List.set_append_right _ _ (Nat.le_refl _), Nat.sub_self, List.set_cons_zero,
    List.append_assoc, List.singleton_append]

theorem getElem?_length_succ (d : List UInt8) (c : UInt8) (r : List UInt8) :
    (d ++ c :: r)[d.length + 1]? = r.head? := by
  rw [List.append_cons, ← length_snoc d c, getElem?_length]

/-- The byte at the index of a loop that has ended. -/
theorem Reached.getElem? {p : List UInt8 × ℕ} {behind ahead : List UInt8}
    (h : Reached p behind ahead) : p.1[p.2]? = ahead.head? := by
  obtain ⟨hs, hi | ⟨rfl, hi⟩⟩ := h
  · rw [hs, hi, getElem?_length]
  · rw [hs, List.append_nil, List.getElem?_eq_none hi]
    rfl

/-- A loop over a comment ends at a whitespace byte or at the end. -/
structure EndsComment (p : List UInt8 × ℕ) (d : List UInt8) (q : ScanState) (r : List UInt8)
    (look : Bool) (x r' : List UInt8) : Prop where
  reached : Reached p (d ++ x) r'
  passes : Passes q r x (.code look) r'
  ws : ∀ c ∈ r'.head?, isWS c = true

section Comments

variable {p : List UInt8 × ℕ} {d r r' x y : List UInt8} {q q' : ScanState} {look : Bool}

/-- The bytes that were passed before the loop. -/
theorem EndsComment.of_passes (h : EndsComment p (d ++ y) q' r look x r')
    (hpass : Passes q s y q' r) : EndsComment p d q s look (y ++ x) r' where
  reached := List.append_assoc d y x ▸ h.reached
  passes := hpass.trans h.passes
  ws := h.ws

theorem lineLoop_cons {c : UInt8} (hc : isNL c = false) (d r : List UInt8) :
    lineLoop (d ++ c :: r) d.length = lineLoop (d ++ [space] ++ r) (d ++ [space]).length := by
  rw [lineLoop_eq, getElem?_length, set_length, length_snoc]
  change (if isNL c = true then _ else _) = _
  rw [if_neg (by rw [hc]; exact nofun)]

theorem blockLoop_cons {c : UInt8} (hc : c ≠ star) (d r : List UInt8) :
    blockLoop (d ++ c :: r) d.length = blockLoop (d ++ [space] ++ r) (d ++ [space]).length := by
  rw [blockLoop_eq, getElem?_length, set_length, length_snoc]
  change (if c = star then _ else _) = _
  rw [if_neg hc]

theorem lineLoop_ends (look : Bool) (d r : List UInt8) :
    ∃ x r', EndsComment (lineLoop (d ++ r) d.length) d (.line look) r look x r' := by
  induction r generalizing d with
  | nil =>
    refine ⟨[], [], ?_, ⟨rfl, rfl, Nat.le_refl _⟩, nofun⟩
    rw [lineLoop_eq, getElem?_length, List.append_nil]
    exact ⟨(List.append_nil d).symm, .inl rfl⟩
  | cons c r ih =>
    by_cases hc : isNL c = true
    · -- the line end is left to the text
      have hstop : lineLoop (d ++ c :: r) d.length = (d ++ c :: r, d.length) := by
        rw [lineLoop_eq, getElem?_length]
        exact if_pos hc
      rw [hstop]
      have hws := isWS_of_isNL hc
      have hlast : Passes (.line look) (c :: r) [c] (.code look) r :=
        passes_cons nofun (if_pos hc) (if_pos hc)
      refine ⟨[], c :: r, ⟨by rw [List.append_nil], .inl (by rw [List.append_nil])⟩,
        hlast.leave hws, fun b hb => ?_⟩
      cases hb
      exact hws
    · rw [lineLoop_cons (Bool.eq_false_iff.mpr hc)]
      obtain ⟨x, r', hends⟩ := ih (d ++ [space])
      have hpass : Passes (.line look) (c :: r) [space] (.line look) r :=
        passes_cons nofun (if_neg hc) (if_neg hc)
      exact ⟨_, r', hends.of_passes hpass⟩

/-- The loop over a block comment at an asterisk, when it is known for the bytes behind. -/
theorem blockLoop_ends_star (look : Bool) (d r : List UInt8)
    (ih : ∀ d' t : List UInt8, t.length ≤ r.length →
      ∃ x r', EndsComment (blockLoop (d' ++ t) d'.length) d' (.block look) t look x r') :
    ∃ x r', EndsComment (blockLoop (d ++ star :: r) d.length) d (.block look) (star :: r) look
      x r' := by
  have hone : Passes (.block look) (star :: r) [space] (.star look) r := passes_cons nofun rfl rfl
  rw [blockLoop_eq, getElem?_length, getElem?_length_succ, set_length]
  change ∃ x r', EndsComment (if r.head? = some slash then _ else _) d _ _ look x r'
  cases r with
  | nil =>
    -- the index goes beyond the end
    refine ⟨[space], [], ?_, hone.trans ⟨rfl, rfl, Nat.le_refl _⟩, nofun⟩
    have hnone : (d ++ [space] ++ [])[d.length + 2]? = none := by
      rw [List.append_nil, List.getElem?_eq_none]
      rw [length_snoc]
      omega
    rw [if_neg nofun, blockLoop_eq, hnone]
    exact ⟨rfl, .inr ⟨rfl, by rw [length_snoc]; exact Nat.le_succ _⟩⟩
  | cons e t =>
    rw [List.head?_cons]
    by_cases he : e = slash
    · -- the blanked slash is left to the text
      subst he
      rw [if_pos rfl, ← length_snoc d space, set_length, List.append_assoc]
      have hlast : Passes (.star look) (slash :: t) [space] (.code look) t :=
        passes_cons nofun rfl rfl
      refine ⟨[space], space :: t, ⟨rfl, .inl rfl⟩, hone.trans (hlast.leave rfl), fun b hb => ?_⟩
      cases hb
      rfl
    · have hlen : d.length + 2 = (d ++ [space] ++ [e]).length := by rw [length_snoc, length_snoc]
      rw [if_neg fun h => he (Option.some.inj h), List.append_cons, hlen]
      have hskip : Passes (.star look) (e :: t) [e] (.block look) t :=
        passes_cons nofun (if_neg he) (if_neg he)
      obtain ⟨x, r', hends⟩ := ih (d ++ [space] ++ [e]) t (Nat.le_succ _)
      exact ⟨_, r', (hends.of_passes hskip).of_passes hone⟩

theorem blockLoop_ends (look : Bool) (d r : List UInt8) :
    ∃ x r', EndsComment (blockLoop (d ++ r) d.length) d (.block look) r look x r' := by
  induction hn : r.length using Nat.strongRecOn generalizing d r with
  | ind n ih =>
    cases r with
    | nil =>
      refine ⟨[], [], ?_, ⟨rfl, rfl, Nat.le_refl _⟩, nofun⟩
      rw [blockLoop_eq, getElem?_length, List.append_nil]
      exact ⟨(List.append_nil d).symm, .inl rfl⟩
    | cons c r =>
      have hrest (d' t : List UInt8) (ht : t.length ≤ r.length) :=
        ih t.length (by rw [← hn]; exact Nat.lt_succ_of_le ht) d' t rfl
      by_cases hc : c = star
      · rw [hc]
        exact blockLoop_ends_star look d r hrest
      · have hone : Passes (.block look) (c :: r) [space] (.block look) r :=
          passes_cons nofun rfl (if_neg hc)
        rw [blockLoop_cons hc]
        obtain ⟨x, r', hends⟩ := hrest (d ++ [space]) r (Nat.le_refl _)
        exact ⟨_, r', hends.of_passes hone⟩

theorem consumeComment_line (look : Bool) (d t : List UInt8) :
    ∃ x r', EndsComment (consumeComment (d ++ slash :: slash :: t) (d.length + 1)) d (.code look)
      (slash :: slash :: t) look x r' ∧ r'.length ≤ t.length := by
  have hline : consumeLine (d ++ slash :: slash :: t) (d.length + 1) =
      lineLoop (d ++ [space] ++ [space] ++ t) (d ++ [space] ++ [space]).length := by
    rw [consumeLine, getElem?_length_succ, List.head?_cons, if_pos rfl, Nat.add_sub_cancel,
      set_length, ← length_snoc d space, lineLoop_cons rfl]
  have hcode : Passes (.code look) (slash :: slash :: t) [space] (.openLine look) (slash :: t) :=
    passes_code (.inl rfl) rfl rfl
  have hopen : Passes (.openLine look) (slash :: t) [space] (.line look) t :=
    passes_cons (fun _ h => by cases h) rfl rfl
  obtain ⟨x, r', hends⟩ := lineLoop_ends look (d ++ [space] ++ [space]) t
  rw [consumeComment, hline, consumeBlock, hends.reached.getElem?, if_neg]
  · exact ⟨_, r', (hends.of_passes hopen).of_passes hcode, hends.passes.length_le⟩
  · intro hstar
    have := hends.ws star hstar
    revert this
    decide

theorem consumeComment_block (look : Bool) (d t : List UInt8) :
    ∃ x r', EndsComment (consumeComment (d ++ slash :: star :: t) (d.length + 1)) d (.code look)
      (slash :: star :: t) look x r' ∧ r'.length ≤ t.length := by
  have hline : consumeLine (d ++ slash :: star :: t) (d.length + 1) =
      (d ++ slash :: star :: t, d.length + 1) := by
    have hstar : some star ≠ some slash := by decide
    rw [consumeLine, getElem?_length_succ, List.head?_cons, if_neg hstar]
  have hblock : consumeBlock (d ++ slash :: star :: t) (d.length + 1) =
      blockLoop (d ++ [space] ++ [space] ++ t) (d ++ [space] ++ [space]).length := by
    have hspace : space ≠ star := by decide
    have hset : ((d ++ slash :: star :: t).set d.length space).set (d.length + 1) space =
        d ++ [space] ++ space :: t := by
      rw [set_length, ← length_snoc d space, set_length, List.append_assoc _ [space],
        List.singleton_append]
    rw [consumeBlock, getElem?_length_succ, List.head?_cons, if_pos rfl, Nat.add_sub_cancel, hset,
      ← length_snoc d space, blockLoop_cons hspace]
  have hcode : Passes (.code look) (slash :: star :: t) [space] (.openBlock look) (star :: t) :=
    passes_code (.inl rfl) rfl rfl
  have hopen : Passes (.openBlock look) (star :: t) [space] (.block look) t :=
    passes_cons (fun _ h => by cases h) rfl rfl
  obtain ⟨x, r', hends⟩ := blockLoop_ends look (d ++ [space] ++ [space]) t
  rw [consumeComment, hline, hblock]
  exact ⟨_, r', (hends.of_passes hopen).of_passes hcode, hends.passes.length_le⟩

/-- A slash that starts no comment is left as it is. -/
theorem consumeComment_stray {d r : List UInt8} (hslash : r.head? ≠ some slash)
    (hstar : r.head? ≠ some star) :
    consumeComment (d ++ slash :: r) (d.length + 1) = (d ++ slash :: r, d.length + 1) := by
  rw [consumeComment, consumeLine, getElem?_length_succ, if_neg hslash, consumeBlock,
    getElem?_length_succ, if_neg hstar]

end Comments

/-! ### The text -/

/-- Outside the whitespace and the comments behind a comma, the text is read as anywhere else. -/
theorem run_code_of_not_ws {c : UInt8} (hws : isWS c = false) (hslash : c ≠ slash)
    (s : List UInt8) :
    scanner.run (.code true) (c :: s) = scanner.run (.code false) (c :: s) := by
  have hnext : (ScanState.code true).next c s = (ScanState.code false).next c s := by
    simp only [ScanState.next, if_neg hslash, hws, Bool.and_false]
  rw [run_cons, run_cons, hnext]
  rfl

/-- The byte that is put in the place of a comma. -/
def commaMark (r : List UInt8) : UInt8 := if trailing (.code true) r then space else comma

theorem run_code_comma (r : List UInt8) :
    scanner.run (.code false) (comma :: r) = commaMark r :: scanner.run (.code true) r := by
  have hemit : (ScanState.code false).emit comma r = commaMark r := by
    simp [ScanState.emit, commaMark, show comma ≠ slash by decide]
  rw [run_cons, hemit]
  rfl

/-- A byte of the text that starts nothing is kept. -/
theorem run_code_of_ne {c : UInt8} (hquote : c ≠ quote) (hslash : c ≠ slash) (hcomma : c ≠ comma)
    (r : List UInt8) : scanner.run (.code false) (c :: r) = c :: scanner.run (.code false) r := by
  simp [run_cons, ScanState.emit, ScanState.next, hquote, hslash, hcomma]

/-- A byte of a string that ends nothing is kept. -/
theorem run_quoted_of_ne {c : UInt8} (hquote : c ≠ quote) (hback : c ≠ backslash)
    (r : List UInt8) : scanner.run .quoted (c :: r) = c :: scanner.run .quoted r := by
  have hnext : ScanState.quoted.next c r = .quoted := by
    rw [ScanState.next, if_neg hquote, if_neg hback]
  rw [run_cons, hnext]
  rfl

/-- The loop behind the comma at `d.length`, which has come past `e` with `r` ahead, ends past `e'`
with `r'` ahead. -/
structure EndsComma (p : List UInt8 × ℕ) (d e r e' r' : List UInt8) : Prop where
  reached : Reached p (d ++ commaMark r :: e') r'
  run : e ++ scanner.run (.code true) r = e' ++ scanner.run (.code false) r'
  length_le : r'.length ≤ r.length

section Comma

variable {p : List UInt8 × ℕ} {c : UInt8} {d e e' r r₁ r' x y : List UInt8}

theorem EndsComma.of_passes (h : EndsComma p d (e ++ y) r₁ e' r')
    (hpass : Passes (.code true) r y (.code true) r₁) : EndsComma p d e r e' r' where
  reached := by
    have hmark : commaMark r = commaMark r₁ := by rw [commaMark, hpass.trailing, commaMark]
    rw [hmark]
    exact h.reached
  run := by rw [hpass.run, ← List.append_assoc, h.run]
  length_le := Nat.le_trans h.length_le hpass.length_le

/-- The byte that the loop looks at next. -/
theorem getElem?_comma (d e r : List UInt8) :
    (d ++ comma :: (e ++ r))[d.length + e.length + 1]? = r.head? := by
  have hsplit : d ++ comma :: (e ++ r) = (d ++ comma :: e) ++ r := by simp
  have hlen : d.length + e.length + 1 = (d ++ comma :: e).length := by simp [Nat.add_assoc]
  rw [hsplit, hlen, getElem?_length]

/-- The loop stops in front of `r`, and the comma stays. -/
theorem endsComma_stop (htrailing : trailing (.code true) r = false)
    (hrun : scanner.run (.code true) r = scanner.run (.code false) r) :
    EndsComma (d ++ comma :: (e ++ r), d.length + e.length + 1) d e r e r where
  reached := by
    have hmark : commaMark r = comma := by rw [commaMark, htrailing]; rfl
    rw [hmark]
    exact ⟨by simp, .inl (by simp [Nat.add_assoc])⟩
  run := by rw [hrun]
  length_le := Nat.le_refl _

/-- The loop stops at a closing brace or bracket, and the comma is replaced. -/
theorem endsComma_closing (hc : c = closingBrace ∨ c = closingBracket) :
    EndsComma ((d ++ comma :: (e ++ c :: r)).set d.length space, d.length + e.length + 1) d e
      (c :: r) e (c :: r) where
  reached := by
    have hmark : commaMark (c :: r) = space := by
      rw [commaMark, trailing, if_pos hc]
      rfl
    rw [hmark, set_length]
    exact ⟨by simp, .inl (by simp [Nat.add_assoc])⟩
  run := by
    have hws : isWS c = false := by rcases hc with rfl | rfl <;> decide
    have hslash : c ≠ slash := by rcases hc with rfl | rfl <;> decide
    rw [run_code_of_not_ws hws hslash]
  length_le := Nat.le_refl _

/-- The loop ends when there is nothing ahead. -/
theorem endsComma_end {i : ℕ} (hpass : Passes (.code true) r y (.code true) [])
    (hi : d.length + (e ++ y).length ≤ i) :
    EndsComma (commaLoop (d ++ comma :: (e ++ y)) d.length i) d e r (e ++ y) [] := by
  have hnone : (d ++ comma :: (e ++ y))[i + 1]? = none := by
    rw [List.getElem?_eq_none]
    simp only [List.length_append, List.length_cons] at hi ⊢
    omega
  have hmark : commaMark r = comma := by
    rw [commaMark, hpass.trailing]
    rfl
  rw [commaLoop_eq, hnone]
  refine ⟨⟨by rw [hmark, List.append_nil], .inr ⟨rfl, ?_⟩⟩, ?_, Nat.zero_le _⟩
  · simp only [List.length_append, List.length_cons] at hi ⊢
    omega
  · rw [hpass.run, List.append_assoc]
    rfl

/-- The loop goes on where a comment ends. -/
theorem endsComma_comment (h : EndsComment p (d ++ comma :: e) (.code true) r true x r₁)
    (ih : ∀ e r₂, r₂.length < r.length → ∃ e' r',
      EndsComma (commaLoop (d ++ comma :: (e ++ r₂)) d.length (d.length + e.length)) d e r₂ e' r') :
    ∃ e' r', EndsComma (commaLoop p.1 d.length p.2) d e r e' r' := by
  obtain ⟨hs, hi⟩ := h.reached
  have hlen : (d ++ comma :: e ++ x).length = d.length + (e ++ x).length + 1 := by
    simp [Nat.add_assoc]
  cases r₁ with
  | nil =>
    have hs' : p.1 = d ++ comma :: (e ++ x) := by simpa using hs
    rw [hs']
    refine ⟨_, _, endsComma_end h.passes ?_⟩
    rcases hi with hi | ⟨-, hi⟩ <;> omega
  | cons w r₂ =>
    have hws : Passes (.code true) (w :: r₂) [w] (.code true) r₂ := passes_ws (h.ws w rfl)
    have hs' : p.1 = d ++ comma :: (e ++ (x ++ [w]) ++ r₂) := by simpa using hs
    have hi' : p.2 = d.length + (e ++ (x ++ [w])).length := by
      rcases hi with hi | ⟨hnil, -⟩
      · rw [hi, hlen]
        simp [Nat.add_assoc]
      · cases hnil
    have hlt : r₂.length < r.length := h.passes.length_le
    obtain ⟨e', r', hends⟩ := ih (e ++ (x ++ [w])) r₂ hlt
    rw [hs', hi']
    exact ⟨e', r', hends.of_passes (h.passes.trans hws)⟩

/-- The loop goes on behind a byte that follows a slash. -/
theorem endsComma_stray (hslash : r.head? ≠ some slash) (hstar : r.head? ≠ some star)
    (ih : ∀ e r₂, r₂.length < (slash :: r).length → ∃ e' r',
      EndsComma (commaLoop (d ++ comma :: (e ++ r₂)) d.length (d.length + e.length)) d e r₂ e' r') :
    ∃ e' r', EndsComma (commaLoop (d ++ comma :: (e ++ slash :: r)) d.length
      (d.length + e.length + 2)) d e (slash :: r) e' r' := by
  have hcode : Passes (.code true) (slash :: r) [slash] .skip r := by
    have hemit : (ScanState.code true).emit slash r = slash := by
      simp [ScanState.emit, hslash, hstar, show slash ≠ comma by decide]
    have hnext : (ScanState.code true).next slash r = .skip := by
      simp [ScanState.next, hslash, hstar, show slash ≠ quote by decide]
    exact passes_code (.inl rfl) hemit hnext
  cases r with
  | nil =>
    have hend : Passes .skip [] [] (.code true) [] := ⟨rfl, rfl, Nat.le_refl _⟩
    refine ⟨_, _, endsComma_end (hcode.trans hend) ?_⟩
    rw [List.length_append]
    exact Nat.le_succ _
  | cons b t =>
    have hskip : Passes .skip (b :: t) [b] (.code true) t := passes_cons nofun rfl rfl
    have hsplit : e ++ slash :: b :: t = e ++ ([slash] ++ [b]) ++ t := by simp
    have hlen : d.length + e.length + 2 = d.length + (e ++ ([slash] ++ [b])).length := by
      simp [Nat.add_assoc]
    have hlt : t.length < (slash :: b :: t).length := by
      simp only [List.length_cons]
      omega
    obtain ⟨e', r', hends⟩ := ih (e ++ ([slash] ++ [b])) t hlt
    rw [hsplit, hlen]
    exact ⟨e', r', hends.of_passes (hcode.trans hskip)⟩

/-- The loop at a slash. -/
theorem endsComma_slash (d e r : List UInt8)
    (ih : ∀ e r₂, r₂.length < (slash :: r).length → ∃ e' r',
      EndsComma (commaLoop (d ++ comma :: (e ++ r₂)) d.length (d.length + e.length)) d e r₂ e' r') :
    ∃ e' r', EndsComma
      (commaLoop (consumeComment (d ++ comma :: (e ++ slash :: r)) (d.length + e.length + 2)).1
        d.length (consumeComment (d ++ comma :: (e ++ slash :: r)) (d.length + e.length + 2)).2)
      d e (slash :: r) e' r' := by
  have hsplit (r : List UInt8) :
      d ++ comma :: (e ++ slash :: r) = d ++ comma :: e ++ slash :: r := by
    simp
  have hidx : d.length + e.length + 2 = (d ++ comma :: e).length + 1 := by simp [Nat.add_assoc]
  by_cases hslash : r.head? = some slash
  · obtain ⟨t, rfl⟩ := List.head?_eq_some_iff.mp hslash
    rw [hsplit, hidx]
    obtain ⟨x, r₁, hends, -⟩ := consumeComment_line true (d ++ comma :: e) t
    exact endsComma_comment hends ih
  by_cases hstar : r.head? = some star
  · obtain ⟨t, rfl⟩ := List.head?_eq_some_iff.mp hstar
    rw [hsplit, hidx]
    obtain ⟨x, r₁, hends, -⟩ := consumeComment_block true (d ++ comma :: e) t
    exact endsComma_comment hends ih
  · rw [hsplit, hidx, consumeComment_stray hslash hstar, ← hidx, ← hsplit]
    exact endsComma_stray hslash hstar ih

end Comma

theorem commaLoop_ends (d e r : List UInt8) :
    ∃ e' r', EndsComma (commaLoop (d ++ comma :: (e ++ r)) d.length (d.length + e.length))
      d e r e' r' := by
  induction hn : r.length using Nat.strongRecOn generalizing e r with
  | ind n ih =>
    have hrest (e r₂ : List UInt8) (hlt : r₂.length < r.length) :=
      ih r₂.length (hn ▸ hlt) e r₂ rfl
    rw [commaLoop_eq, getElem?_comma]
    cases r with
    | nil => exact ⟨_, _, endsComma_stop rfl rfl⟩
    | cons c r =>
      change ∃ e' r', EndsComma (if c = closingBrace ∨ c = closingBracket then _ else _) _ _ _ e' r'
      by_cases hclosing : c = closingBrace ∨ c = closingBracket
      · rw [if_pos hclosing]
        exact ⟨_, _, endsComma_closing hclosing⟩
      rw [if_neg hclosing]
      by_cases hslash : c = slash
      · subst hslash
        rw [if_pos rfl]
        exact endsComma_slash d e r hrest
      rw [if_neg hslash]
      by_cases hws : isWS c = true
      · rw [if_pos hws]
        obtain ⟨e', r', hends⟩ := hrest (e ++ [c]) r (Nat.lt_succ_self _)
        rw [List.append_assoc, length_snoc] at hends
        exact ⟨e', r', hends.of_passes (passes_ws hws)⟩
      · rw [if_neg hws]
        refine ⟨_, _, endsComma_stop ?_ (run_code_of_not_ws (Bool.eq_false_iff.mpr hws) hslash r)⟩
        rw [trailing, if_neg hclosing, if_neg (not_or.mpr ⟨hslash, hws⟩)]

/-- The loop over a string ends behind it. -/
structure EndsString (i : ℕ) (d r x r' : List UInt8) : Prop where
  reached : Reached (d ++ r, i) (d ++ x) r'
  run : scanner.run .quoted r = x ++ scanner.run (.code false) r'
  length_le : r'.length ≤ r.length

/-- The bytes of the string that were passed before. -/
theorem EndsString.of_append {i : ℕ} {d r x y r' : List UInt8}
    (h : EndsString i (d ++ y) r x r')
    (hrun : scanner.run .quoted (y ++ r) = y ++ scanner.run .quoted r) :
    EndsString i d (y ++ r) (y ++ x) r' where
  reached := by
    have hreached := h.reached
    rwa [List.append_assoc, List.append_assoc] at hreached
  run := by rw [hrun, h.run, List.append_assoc]
  length_le := by
    rw [List.length_append]
    exact Nat.le_add_left_of_le h.length_le

theorem stringLoop_ends (d r : List UInt8) :
    ∃ x r', EndsString (stringLoop (d ++ r) d.length) d r x r' := by
  induction hn : r.length using Nat.strongRecOn generalizing d r with
  | ind n ih =>
    rw [stringLoop_eq, getElem?_length]
    cases r with
    | nil => exact ⟨[], [], ⟨by simp, .inl (by simp)⟩, rfl, Nat.le_refl _⟩
    | cons c r =>
      have hrest (d t : List UInt8) (ht : t.length ≤ r.length) :=
        ih t.length (by rw [← hn]; exact Nat.lt_succ_of_le ht) d t rfl
      change ∃ x r', EndsString (if c = quote then _ else _) d (c :: r) x r'
      by_cases hquote : c = quote
      · subst hquote
        rw [if_pos rfl, ← length_snoc d quote]
        exact ⟨[quote], r, ⟨by simp, .inl rfl⟩, rfl, Nat.le_succ _⟩
      rw [if_neg hquote]
      by_cases hback : c = backslash
      · subst hback
        rw [if_pos rfl]
        cases r with
        | nil =>
          -- the index goes beyond the end
          have hnone : (d ++ [backslash])[d.length + 2]? = none := by
            rw [List.getElem?_eq_none]
            rw [length_snoc]
            omega
          rw [stringLoop_eq, hnone]
          refine ⟨[backslash], [], ⟨by simp, .inr ⟨rfl, ?_⟩⟩, rfl, Nat.zero_le _⟩
          rw [length_snoc]
          exact Nat.le_succ _
        | cons b t =>
          have hsplit : d ++ backslash :: b :: t = d ++ [backslash, b] ++ t := by simp
          have hlen : d.length + 2 = (d ++ [backslash, b]).length := by simp
          rw [hsplit, hlen]
          obtain ⟨x, r', hends⟩ := hrest (d ++ [backslash, b]) t (Nat.le_succ _)
          exact ⟨_, r', hends.of_append rfl⟩
      · rw [if_neg hback, List.append_cons, ← length_snoc d c]
        obtain ⟨x, r', hends⟩ := hrest (d ++ [c]) r (Nat.le_refl _)
        exact ⟨_, r', hends.of_append (run_quoted_of_ne hquote hback r)⟩

theorem prepLoop_of_reached {p : List UInt8 × ℕ} {behind ahead : List UInt8}
    (h : Reached p behind ahead)
    (hrun : prepLoop (behind ++ ahead) behind.length = behind ++ scanner.run (.code false) ahead) :
    prepLoop p.1 p.2 = behind ++ scanner.run (.code false) ahead := by
  obtain ⟨hs, hi | ⟨rfl, hi⟩⟩ := h
  · rw [hs, hi, hrun]
  · rw [prepLoop_eq, hs, List.append_nil, List.getElem?_eq_none hi]
    exact (List.append_nil behind).symm

/-- The loop of `prep` at a slash, when it is known for the bytes behind. -/
theorem prepLoop_slash (d r : List UInt8)
    (ih : ∀ d t : List UInt8, t.length ≤ r.length →
      prepLoop (d ++ t) d.length = d ++ scanner.run (.code false) t) :
    prepLoop (consumeComment (d ++ slash :: r) (d.length + 1)).1
        (consumeComment (d ++ slash :: r) (d.length + 1)).2 =
      d ++ scanner.run (.code false) (slash :: r) := by
  by_cases hslash : r.head? = some slash
  · obtain ⟨t, rfl⟩ := List.head?_eq_some_iff.mp hslash
    obtain ⟨x, r', hends, hle⟩ := consumeComment_line false d t
    rw [prepLoop_of_reached hends.reached (ih _ r' (Nat.le_succ_of_le hle)), hends.passes.run,
      List.append_assoc]
  by_cases hstar : r.head? = some star
  · obtain ⟨t, rfl⟩ := List.head?_eq_some_iff.mp hstar
    obtain ⟨x, r', hends, hle⟩ := consumeComment_block false d t
    rw [prepLoop_of_reached hends.reached (ih _ r' (Nat.le_succ_of_le hle)), hends.passes.run,
      List.append_assoc]
  · have hnext : scanner.run (.code false) (slash :: r) = slash :: scanner.run (.code false) r := by
      simp [run_cons, ScanState.emit, ScanState.next, hslash, hstar, show slash ≠ comma by decide,
        show slash ≠ quote by decide]
    rw [consumeComment_stray hslash hstar, List.append_cons, ← length_snoc d slash,
      ih _ r (Nat.le_refl _), hnext, List.append_assoc, List.singleton_append]

/-- **The loops compute the scanner.** -/
theorem prepLoop_eq_run (d r : List UInt8) :
    prepLoop (d ++ r) d.length = d ++ scanner.run (.code false) r := by
  induction hn : r.length using Nat.strongRecOn generalizing d r with
  | ind n ih =>
    rw [prepLoop_eq, getElem?_length]
    cases r with
    | nil => rfl
    | cons c r =>
      have hrest (d t : List UInt8) (ht : t.length ≤ r.length) :=
        ih t.length (by rw [← hn]; exact Nat.lt_succ_of_le ht) d t rfl
      change (if c = quote then _ else _) = _
      by_cases hquote : c = quote
      · subst hquote
        rw [if_pos rfl, List.append_cons, ← length_snoc d quote]
        obtain ⟨x, r', hends⟩ := stringLoop_ends (d ++ [quote]) r
        have hnext : scanner.run (.code false) (quote :: r) = quote :: scanner.run .quoted r := rfl
        rw [prepLoop_of_reached hends.reached (hrest _ r' hends.length_le), hnext, hends.run]
        simp
      rw [if_neg hquote]
      by_cases hslash : c = slash
      · subst hslash
        rw [if_pos rfl]
        exact prepLoop_slash d r hrest
      rw [if_neg hslash]
      by_cases hcomma : c = comma
      · subst hcomma
        rw [if_pos rfl]
        obtain ⟨e', r', hends⟩ := commaLoop_ends d [] r
        have hloop := prepLoop_of_reached hends.reached (hrest _ r' hends.length_le)
        have hrun := hends.run
        rw [List.nil_append] at hrun
        rw [run_code_comma, hrun]
        simpa using hloop
      · rw [if_neg hcomma, List.append_cons, ← length_snoc d c, hrest _ r (Nat.le_refl _)]
        rw [run_code_of_ne hquote hslash hcomma, List.append_assoc, List.singleton_append]

theorem prep_eq_run (s : List UInt8) : prep s none = (scanner.run (.code false) s, none) := by
  have hloop := prepLoop_eq_run [] s
  rw [List.nil_append, List.nil_append] at hloop
  rw [prep, ← hloop]
  rfl

end Tox.Json5
