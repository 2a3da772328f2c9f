import Tox.Common.Json5Scan

/-!
# What cleaning a configuration file should do

Outside strings, every byte of a comment and every trailing comma is to be replaced by a space, and
every other byte is to be left as it is. `regions` assigns to every byte of a text the region in
which it lies, `significant` is the first byte behind a comma that is neither whitespace nor part of
a comment, and `reference` is the cleaned text.

The loops of `prep` depart from it in two places. A byte that follows an asterisk inside a block
comment is neither replaced nor looked at, unless it is the closing slash; and behind a comma, a
byte that follows a slash which starts no comment is not looked at. If this byte is a quote, the two
readings differ about what is a string from there on, until they meet again at an escaped quote or
at another byte that is not looked at. So the readings are followed together (`readings`), and
`prep` computes the reference exactly if at every byte they come to the same (`Alike`,
`prep_eq_reference_iff`).
-/

namespace Tox.Json5

open Tox.Foundation

/-- The region of a byte: the text, a string, behind a backslash in a string, the second byte of a
comment, or the inside of a comment, for a block comment with whether the byte before is an
asterisk. -/
inductive Region
  | plain
  | quoted
  | escaped
  | openLine
  | line
  | openBlock
  | block (afterStar : Bool)
deriving DecidableEq, Repr

/-- The region of the next byte. -/
def Region.next : Region → UInt8 → List UInt8 → Region
  | .plain, c, s =>
    if c = quote then .quoted
    else if c = slash ∧ s.head? = some slash then .openLine
    else if c = slash ∧ s.head? = some star then .openBlock
    else .plain
  | .quoted, c, _ => if c = quote then .plain else if c = backslash then .escaped else .quoted
  | .escaped, _, _ => .quoted
  | .openLine, _, _ => .line
  | .line, c, _ => if isNL c then .plain else .line
  | .openBlock, _, _ => .block false
  | .block afterStar, c, _ =>
    if afterStar = true ∧ c = slash then .plain else .block (decide (c = star))

/-- The slash in front of the list is the first byte of a comment. -/
def StartsComment (c : UInt8) (s : List UInt8) : Prop :=
  c = slash ∧ (s.head? = some slash ∨ s.head? = some star)

instance (c : UInt8) (s : List UInt8) : Decidable (StartsComment c s) :=
  inferInstanceAs (Decidable (_ ∧ (_ ∨ _)))

/-- The first byte that is neither whitespace nor part of a comment. -/
def significant : Region → List UInt8 → Option UInt8
  | _, [] => none
  | .plain, c :: s =>
    if isWS c = true ∨ StartsComment c s then significant (Region.plain.next c s) s else some c
  | r, c :: s => significant (r.next c s) s

/-- A comma in front of the list is a trailing one. -/
def Closes (r : Region) (s : List UInt8) : Prop :=
  significant r s = some closingBrace ∨ significant r s = some closingBracket

instance (r : Region) (s : List UInt8) : Decidable (Closes r s) :=
  inferInstanceAs (Decidable (_ ∨ _))

def Region.emit : Region → UInt8 → List UInt8 → UInt8
  | .plain, c, s =>
    if StartsComment c s then space else if c = comma ∧ Closes .plain s then space else c
  | .quoted, c, _ => c
  | .escaped, c, _ => c
  | .openLine, _, _ => space
  | .line, c, _ => if isNL c then c else space
  | .openBlock, _, _ => space
  | .block _, _, _ => space

def regions : Scanner Region UInt8 := ⟨Region.next, Region.emit⟩

/-- The text with its comments and trailing commas replaced by spaces. -/
def reference (s : List UInt8) : List UInt8 := regions.run .plain s

/-- A byte that follows an asterisk inside a block comment is the closing slash or a space. -/
def StarEnds : Region → UInt8 → List UInt8 → Prop
  | .block true, c, _ => c = slash ∨ c = space
  | _, _, _ => True

/-! ### The states of the loops and the regions -/

/-- The region in which the loops believe the byte to be. -/
def ScanState.region : ScanState → Option Region
  | .code _ => some .plain
  | .skip => none
  | .quoted => some .quoted
  | .escaped => some .escaped
  | .openLine _ => some .openLine
  | .line _ => some .line
  | .openBlock _ => some .openBlock
  | .block _ => some (.block false)
  | .star _ => some (.block true)

/-- Only whitespace and comments have been found since the last comma. -/
def ScanState.look : ScanState → Bool
  | .code look | .openLine look | .line look | .openBlock look | .block look | .star look => look
  | .skip | .quoted | .escaped => false

section Next

variable {q : ScanState} {r : Region} {c : UInt8} {s : List UInt8}

theorem significant_plain_of_not (hws : isWS c = false) (hstart : ¬ StartsComment c s) :
    significant .plain (c :: s) = some c := by
  rw [significant, if_neg]
  rw [hws]
  exact not_or.mpr ⟨nofun, hstart⟩

/-- A slash behind a comma that starts no comment. -/
def Stray (q : ScanState) (c : UInt8) (s : List UInt8) : Prop :=
  q = .code true ∧ c = slash ∧ ¬ StartsComment c s

theorem not_stray (hq : q.region = some r) (h : significant r (c :: s) ≠ some slash) :
    ¬ Stray q c s := by
  rintro ⟨rfl, rfl, hstart⟩
  cases hq
  exact h (significant_plain_of_not (by decide) hstart)

/-- The loops stay in the region of the byte, if no byte is left out. -/
theorem region_next (hq : q.region = some r) (hgood : StarEnds r c s) (hstray : ¬ Stray q c s) :
    (q.next c s).region = some (r.next c s) := by
  cases q with
  | skip => cases hq
  | code look =>
    cases hq
    by_cases hc : c = slash
    · subst hc
      by_cases hstart : StartsComment slash s
      · rcases hstart.2 with hhead | hhead <;>
          simp [ScanState.next, Region.next, ScanState.region, hhead, show slash ≠ quote by decide,
            show star ≠ slash by decide]
      · cases look with
        | true => exact absurd ⟨rfl, rfl, hstart⟩ hstray
        | false =>
          have hhead : s.head? ≠ some slash ∧ s.head? ≠ some star :=
            not_or.mp fun hhead => hstart ⟨rfl, hhead⟩
          simp [ScanState.next, Region.next, ScanState.region, hhead, show slash ≠ quote by decide]
    · by_cases hquote : c = quote
      · simp [ScanState.next, Region.next, ScanState.region, hquote]
      · by_cases hcomma : c = comma
        · subst hcomma
          rfl
        · simp [ScanState.next, Region.next, ScanState.region, hquote, hc, hcomma]
  | quoted =>
    cases hq
    by_cases hquote : c = quote
    · simp [ScanState.next, Region.next, ScanState.region, hquote]
    · by_cases hback : c = backslash
      · subst hback
        rfl
      · simp [ScanState.next, Region.next, ScanState.region, hquote, hback]
  | line look =>
    cases hq
    by_cases hnl : isNL c = true <;> simp [ScanState.next, Region.next, ScanState.region, hnl]
  | block look =>
    cases hq
    by_cases hstar : c = star <;> simp [ScanState.next, Region.next, ScanState.region, hstar]
  | star look =>
    cases hq
    rcases hgood with rfl | rfl
    · simp [ScanState.next, Region.next, ScanState.region]
    · rfl
  | escaped | openLine | openBlock =>
    cases hq
    rfl

/-- In a comment, they have been looking before, and the byte is the same. -/
theorem look_next_comment (hq : q.region = some r) (hcode : ∀ look, q ≠ .code look)
    (h : (q.next c s).look = true) :
    q.look = true ∧ significant r (c :: s) = significant (r.next c s) s := by
  cases q with
  | code look => exact absurd rfl (hcode look)
  | skip => cases hq
  | quoted =>
    rw [ScanState.next] at h
    split_ifs at h <;> cases h
  | escaped => cases h
  | openLine look =>
    cases hq
    exact ⟨h, rfl⟩
  | openBlock look =>
    cases hq
    exact ⟨h, rfl⟩
  | line look =>
    cases hq
    rw [ScanState.next] at h
    split_ifs at h <;> exact ⟨h, rfl⟩
  | block look =>
    cases hq
    rw [ScanState.next] at h
    split_ifs at h <;> exact ⟨h, rfl⟩
  | star look =>
    cases hq
    rw [ScanState.next] at h
    split_ifs at h <;> exact ⟨h, rfl⟩

/-- The loops go on to look over whitespace and the start of a comment. -/
theorem look_next_of_passed (h : isWS c = true ∨ StartsComment c s) :
    ((ScanState.code true).next c s).look = true := by
  rcases h with hws | ⟨rfl, hhead | hhead⟩
  · rw [(next_code_ws hws).1]
    rfl
  · rw [ScanState.next, if_neg (by decide), if_pos rfl, if_pos hhead]
    rfl
  · have hslash : s.head? ≠ some slash := by
      rw [hhead]
      decide
    rw [ScanState.next, if_neg (by decide), if_pos rfl, if_neg hslash, if_pos hhead]
    rfl

/-- They go on to look through a comment. -/
theorem look_next_of_look (hcode : ∀ look, q ≠ .code look) (h : q.look = true) :
    (q.next c s).look = true := by
  cases q with
  | code look => exact absurd rfl (hcode look)
  | skip | quoted | escaped => cases h
  | openLine look | openBlock look => exact h
  | line look | block look | star look =>
    rw [ScanState.next]
    split_ifs <;> exact h

end Next

theorem closes_cons {c : UInt8} {s : List UInt8} {r r' : Region}
    (h : significant r (c :: s) = significant r' s) : Closes r (c :: s) ↔ Closes r' s := by
  rw [Closes, h, Closes]

theorem not_closing {c : UInt8} {s : List UInt8} (h : isWS c = true ∨ StartsComment c s) :
    ¬ (c = closingBrace ∨ c = closingBracket) := by
  rintro hc
  rcases h with hws | ⟨rfl, -⟩
  · rcases hc with rfl | rfl <;> revert hws <;> decide
  · revert hc
    decide

/-- The loop behind a comma finds what the comma is followed by, if no byte is left out. -/
theorem trailing_iff {q : ScanState} {r : Region} {s : List UInt8} (hq : q.region = some r)
    (hlook : q.look = true) (hslash : significant r s ≠ some slash)
    (hstars : regions.All StarEnds r s) : trailing q s = true ↔ Closes r s := by
  induction s generalizing q r with
  | nil =>
    have hnone : significant r [] = none := by cases r <;> rfl
    have htrailing : trailing q [] = false := by cases q <;> rfl
    rw [Closes, hnone, htrailing]
    exact ⟨nofun, by rintro (h | h) <;> cases h⟩
  | cons c s ih =>
    have hregion := region_next hq hstars.1 (not_stray hq hslash)
    by_cases hcode : ∃ look, q = .code look
    · obtain ⟨look, rfl⟩ := hcode
      cases hq
      cases hlook
      by_cases hpass : isWS c = true ∨ StartsComment c s
      · have hsame : significant .plain (c :: s) = significant (Region.plain.next c s) s := by
          rw [significant, if_pos hpass]
        have hgo : c = slash ∨ isWS c = true := hpass.symm.imp_left And.left
        rw [closes_cons hsame, trailing, if_neg (not_closing hpass), if_pos hgo]
        exact ih hregion (look_next_of_passed hpass) (hsame ▸ hslash) hstars.2
      · -- the byte behind the comma
        obtain ⟨hws, hstart⟩ := not_or.mp hpass
        have hsig := significant_plain_of_not (Bool.eq_false_iff.mpr hws) hstart
        have hc : ¬ (c = slash ∨ isWS c = true) := by
          rintro (rfl | h)
          · exact hslash hsig
          · exact hws h
        rw [Closes, hsig, trailing, if_neg hc]
        simp [Option.some.injEq]
    · have hcode' (look : Bool) : q ≠ .code look := fun h => hcode ⟨look, h⟩
      have hnext := look_next_of_look (c := c) (s := s) hcode' hlook
      have hsame := (look_next_comment hq hcode' hnext).2
      have htrailing : trailing q (c :: s) = trailing (q.next c s) s := by
        cases q with
        | code look => exact absurd rfl (hcode' look)
        | _ => rfl
      rw [closes_cons hsame, htrailing]
      exact ih hregion hnext (hsame ▸ hslash) hstars.2

/-! ### Both readings -/

/-- The state of the loops together with the region of the byte. -/
def readings : Scanner (ScanState × Region) UInt8 where
  next p c s := (p.1.next c s, p.2.next c s)
  emit p c s := p.2.emit c s

theorem run_readings (p : ScanState × Region) (s : List UInt8) :
    readings.run p s = regions.run p.2 s := by
  induction s generalizing p with
  | nil => rfl
  | cons c s ih => exact congrArg (Region.emit p.2 c s :: ·) (ih (readings.next p c s))

/-- The two readings come to the same at a byte.

* Behind an asterisk in a block comment, the byte is the closing slash or a space.
* In the text, a comma which is followed by a slash that starts no comment is not replaced by the
  loops. If the loops do not look at the byte, it is no trailing comma.
* In what is a string to one reading only, the other one finds no comment and no trailing comma. -/
def Alike : ScanState × Region → UInt8 → List UInt8 → Prop
  | (q, .plain), c, s =>
    match q with
    | .code _ => c = comma → significant .plain s = some slash → trailing (.code true) s = false
    | .skip => c = comma → ¬ Closes .plain s
    | .quoted | .escaped => ¬ StartsComment c s ∧ (c = comma → ¬ Closes .plain s)
    | _ => True
  | (q, .quoted), c, s | (q, .escaped), c, s =>
    match q with
    | .code _ => ¬ StartsComment c s ∧ (c = comma → trailing (.code true) s = false)
    | _ => True
  | (_, r), c, s => StarEnds r c s

/-- The pairs of a state of the loops and a region that can come up. -/
inductive Joint : ScanState → Region → List UInt8 → Prop
  | same {q : ScanState} {r : Region} {s : List UInt8} (h : q.region = some r) : Joint q r s
  | skipped {s : List UInt8} (h : s.head? ≠ some slash) : Joint .skip .plain s
  | code {r : Region} {s : List UInt8} (look : Bool) (h : r = .quoted ∨ r = .escaped) :
    Joint (.code look) r s
  | skip {r : Region} {s : List UInt8} (h : r = .quoted ∨ r = .escaped) : Joint .skip r s
  | string {q : ScanState} {s : List UInt8} (h : q = .quoted ∨ q = .escaped) : Joint q .plain s

section Joint

variable {q : ScanState} {r : Region} {c : UInt8} {s : List UInt8}

theorem Alike.starEnds {p : ScanState × Region} (h : Alike p c s) : StarEnds p.2 c s := by
  obtain ⟨q, r⟩ := p
  cases r with
  | plain | quoted | escaped => trivial
  | _ => exact h

theorem all_starEnds {p : ScanState × Region} (h : readings.All Alike p s) :
    regions.All StarEnds p.2 s := by
  induction s generalizing p with
  | nil => trivial
  | cons c s ih => exact ⟨h.1.starEnds, ih h.2⟩

/-- The loops leave a byte of the text as it is. -/
theorem emit_code_eq_iff {look : Bool} : (ScanState.code look).emit c s = c ↔
    ¬ StartsComment c s ∧ (c = comma → trailing (.code true) s = false) := by
  change (if StartsComment c s then space
    else if c = comma ∧ trailing (.code true) s then space else c) = c ↔ _
  split_ifs with hstart hcomma
  · refine iff_of_false ?_ fun h => h.1 hstart
    rw [hstart.1]
    decide
  · refine iff_of_false ?_ fun h => Bool.false_ne_true ((h.2 hcomma.1).symm.trans hcomma.2)
    rw [hcomma.1]
    decide
  · exact iff_of_true rfl ⟨hstart, fun hc => Bool.eq_false_iff.mpr fun h => hcomma ⟨hc, h⟩⟩

/-- The reference leaves a byte of the text as it is. -/
theorem emit_plain_eq_iff : Region.plain.emit c s = c ↔
    ¬ StartsComment c s ∧ (c = comma → ¬ Closes .plain s) := by
  rw [Region.emit]
  split_ifs with hstart hcomma
  · refine iff_of_false ?_ fun h => h.1 hstart
    rw [hstart.1]
    decide
  · refine iff_of_false ?_ fun h => h.2 hcomma.1 hcomma.2
    rw [hcomma.1]
    decide
  · exact iff_of_true rfl ⟨hstart, fun hc h => hcomma ⟨hc, h⟩⟩

/-- A byte of the text that starts neither a comment nor a string. -/
theorem next_plain_of_not (hquote : c ≠ quote) (hstart : ¬ StartsComment c s) :
    Region.plain.next c s = .plain := by
  have hslash : ¬ (c = slash ∧ s.head? = some slash) := fun h => hstart ⟨h.1, .inl h.2⟩
  have hstar : ¬ (c = slash ∧ s.head? = some star) := fun h => hstart ⟨h.1, .inr h.2⟩
  rw [Region.next, if_neg hquote, if_neg hslash, if_neg hstar]

theorem next_code_of_not (look : Bool) (hquote : c ≠ quote) (hstart : ¬ StartsComment c s) :
    (∃ look', (ScanState.code look).next c s = .code look') ∨
      (ScanState.code look).next c s = .skip := by
  rw [ScanState.next, if_neg hquote]
  split_ifs with hslash hhead hhead
  · exact absurd ⟨hslash, .inl hhead⟩ hstart
  · exact absurd ⟨hslash, .inr hhead⟩ hstart
  · exact .inr rfl
  · exact .inl ⟨_, rfl⟩
  · exact .inl ⟨_, rfl⟩
  · exact .inl ⟨_, rfl⟩

theorem next_string (hr : r = .quoted ∨ r = .escaped) (hquote : c ≠ quote) :
    r.next c s = .quoted ∨ r.next c s = .escaped := by
  rcases hr with rfl | rfl
  · rw [Region.next, if_neg hquote]
    split_ifs
    · exact .inr rfl
    · exact .inl rfl
  · exact .inl rfl

theorem Joint.next (h : Joint q r (c :: s)) (hgood : Alike (q, r) c s) :
    Joint (q.next c s) (r.next c s) s := by
  cases h with
  | same hq =>
    by_cases hstray : Stray q c s
    · obtain ⟨rfl, rfl, hstart⟩ := hstray
      cases hq
      have hhead : s.head? ≠ some slash ∧ s.head? ≠ some star :=
        not_or.mp fun hhead => hstart ⟨rfl, hhead⟩
      have hnext : (ScanState.code true).next slash s = .skip := by
        rw [ScanState.next, if_neg (by decide), if_pos rfl, if_neg hhead.1, if_neg hhead.2,
          if_pos rfl]
      rw [hnext, next_plain_of_not (by decide) hstart]
      exact .skipped hhead.1
    · exact .same (region_next hq hgood.starEnds hstray)
  | skipped hhead =>
    have hslash : c ≠ slash := fun hc => hhead (congrArg some hc)
    by_cases hquote : c = quote
    · rw [hquote]
      exact .code true (.inl rfl)
    · rw [next_plain_of_not hquote fun h => hslash h.1]
      exact .same rfl
  | code look hr =>
    have hstart : ¬ StartsComment c s := by
      rcases hr with rfl | rfl
      · exact hgood.1
      · exact hgood.1
    by_cases hquote : c = quote
    · rw [hquote]
      rcases hr with rfl | rfl
      · exact .string (.inl rfl)
      · exact .same rfl
    · rcases next_code_of_not look hquote hstart with ⟨look', hnext⟩ | hnext
      · rw [hnext]
        exact .code look' (next_string hr hquote)
      · rw [hnext]
        exact .skip (next_string hr hquote)
  | skip hr =>
    by_cases hquote : c = quote
    · rw [hquote]
      rcases hr with rfl | rfl
      · exact .same rfl
      · exact .code true (.inl rfl)
    · exact .code true (next_string hr hquote)
  | string hq =>
    have hstart : ¬ StartsComment c s := by
      rcases hq with rfl | rfl
      · exact hgood.1
      · exact hgood.1
    by_cases hquote : c = quote
    · rw [hquote]
      rcases hq with rfl | rfl
      · exact .code false (.inl rfl)
      · exact .same rfl
    · rw [next_plain_of_not hquote hstart]
      rcases hq with rfl | rfl
      · refine .string ?_
        rw [ScanState.next, if_neg hquote]
        split_ifs
        · exact .inr rfl
        · exact .inl rfl
      · exact .string (.inl rfl)

theorem Joint.emit_ne (h : Joint q r (c :: s)) (hbad : ¬ Alike (q, r) c s) :
    q.emit c s ≠ r.emit c s := by
  cases h with
  | same hq =>
    cases q with
    | code look =>
      cases hq
      obtain ⟨rfl, hsig, htrailing⟩ : c = comma ∧ significant .plain s = some slash ∧
          trailing (.code true) s = true := by
        simpa [Alike] using hbad
      have hleft : Region.plain.emit comma s = comma :=
        emit_plain_eq_iff.mpr ⟨fun hc => absurd hc.1 (by decide), fun _ hc => by
          rw [Closes, hsig] at hc
          revert hc
          decide⟩
      rw [hleft]
      intro heq
      exact Bool.false_ne_true (((emit_code_eq_iff.mp heq).2 rfl).symm.trans htrailing)
    | star look =>
      cases hq
      obtain ⟨hslash, hspace⟩ : c ≠ Json5.slash ∧ c ≠ space := not_or.mp hbad
      change (if c = Json5.slash then space else c) ≠ space
      rw [if_neg hslash]
      exact hspace
    | skip => cases hq
    | _ =>
      cases hq
      exact absurd trivial hbad
  | skipped hhead =>
    obtain ⟨rfl, hcloses⟩ : c = comma ∧ Closes .plain s := by simpa [Alike] using hbad
    exact fun heq => (emit_plain_eq_iff.mp heq.symm).2 rfl hcloses
  | code look hr =>
    rcases hr with rfl | rfl
    · exact mt emit_code_eq_iff.mp hbad
    · exact mt emit_code_eq_iff.mp hbad
  | skip hr =>
    rcases hr with rfl | rfl
    · exact absurd trivial hbad
    · exact absurd trivial hbad
  | string hq =>
    rcases hq with rfl | rfl
    · exact fun heq => hbad (emit_plain_eq_iff.mp heq.symm)
    · exact fun heq => hbad (emit_plain_eq_iff.mp heq.symm)

/-- In the text, a comma is replaced by both or by neither. -/
theorem emit_code_eq {look : Bool} (h : readings.All Alike (.code look, .plain) (c :: s)) :
    (ScanState.code look).emit c s = Region.plain.emit c s := by
  rw [ScanState.emit, Region.emit]
  by_cases hc : c = comma
  · subst hc
    have hclose : trailing (.code true) s = true ↔ Closes .plain s := by
      by_cases hsig : significant .plain s = some slash
      · rw [h.1 rfl hsig, Closes, hsig]
        decide
      · exact trailing_iff rfl rfl hsig (all_starEnds h.2)
    simp only [hclose, StartsComment]
  · simp only [hc, false_and, StartsComment]

theorem Joint.emit_eq (h : Joint q r (c :: s)) (hall : readings.All Alike (q, r) (c :: s)) :
    q.emit c s = r.emit c s := by
  cases h with
  | same hq =>
    cases q with
    | code look =>
      cases hq
      exact emit_code_eq hall
    | skip => cases hq
    | star look =>
      cases hq
      rcases hall.1 with rfl | rfl <;> rfl
    | _ =>
      cases hq
      rfl
  | skipped hhead =>
    have hstart : ¬ StartsComment c s := fun hc => hhead (congrArg some hc.1)
    exact (emit_plain_eq_iff.mpr ⟨hstart, hall.1⟩).symm
  | code look hr =>
    rcases hr with rfl | rfl
    · exact emit_code_eq_iff.mpr hall.1
    · exact emit_code_eq_iff.mpr hall.1
  | skip hr => rcases hr with rfl | rfl <;> rfl
  | string hq =>
    rcases hq with rfl | rfl
    · exact (emit_plain_eq_iff.mpr hall.1).symm
    · exact (emit_plain_eq_iff.mpr hall.1).symm

end Joint

/-- **`prep` and the reference.** `prep` computes the reference if and only if at every byte of the
text the reading of its loops and that of the reference come to the same. -/
theorem prep_eq_reference_iff (s : List UInt8) :
    prep s none = (reference s, none) ↔ readings.All Alike (.code false, .plain) s := by
  rw [prep_eq_run, reference, Prod.mk.injEq, and_iff_left rfl,
    ← run_readings (.code false, .plain)]
  have hnext : ∀ q p c s, q = p.1 ∧ Joint q p.2 (c :: s) → Alike p c s →
      scanner.next q c s = (readings.next p c s).1 ∧
        Joint (scanner.next q c s) (readings.next p c s).2 s := by
    rintro _ p c s ⟨rfl, hjoint⟩ hgood
    exact ⟨rfl, hjoint.next hgood⟩
  have hne : ∀ q p c s, q = p.1 ∧ Joint q p.2 (c :: s) → ¬ Alike p c s →
      scanner.emit q c s ≠ readings.emit p c s := by
    rintro _ p c s ⟨rfl, hjoint⟩ hbad
    exact hjoint.emit_ne hbad
  have heq : ∀ q p c s, q = p.1 ∧ Joint q p.2 (c :: s) → readings.All Alike p (c :: s) →
      scanner.emit q c s = readings.emit p c s := by
    rintro _ p c s ⟨rfl, hjoint⟩ hall
    exact hjoint.emit_eq hall
  exact Scanner.run_eq_iff (R := fun q p s => q = p.1 ∧ Joint q p.2 s) hnext hne heq
    ⟨rfl, .same rfl⟩

-- a trailing comma in front of a comment and a brace: `,/**/}`
example : prep [comma, slash, star, star, slash, closingBrace] none =
    ([space, space, space, space, space, closingBrace], none) := by
  rw [prep_eq_run]
  decide

/-- The comment of `/***/]` is not closed, and the comma of `,/1}` is replaced. -/
theorem prep_departs :
    (prep [slash, star, star, star, slash, closingBracket] none =
        ([space, space, space, star, space, space], none) ∧
      reference [slash, star, star, star, slash, closingBracket] =
        [space, space, space, space, space, closingBracket]) ∧
    (prep [comma, slash, 0x31, closingBrace] none = ([space, slash, 0x31, closingBrace], none) ∧
      reference [comma, slash, 0x31, closingBrace] = [comma, slash, 0x31, closingBrace]) := by
  rw [prep_eq_run, prep_eq_run]
  decide

end Tox.Json5
