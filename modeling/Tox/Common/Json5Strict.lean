import Tox.Common.Json5Scan
import Tox.Foundation.JsonGrammar

/-!
# Strict JSON

A JSON text without comments and trailing commas is left as it is. This is shown along the
derivation of the text: the scanner of `Tox.Common.Json5Scan` passes over the bytes of every symbol
and is back in the text behind them (`Runs`), and from behind a comma it comes to something that is
no closing brace or bracket (`Opens`).
-/

namespace Tox.Json5

open Tox.Foundation

/-- The scanner leaves the bytes as they are and goes on behind them as before. -/
def Runs (w : List UInt8) : Prop :=
  ∀ r, scanner.run (.code false) (w ++ r) = w ++ scanner.run (.code false) r

/-- Bytes behind a comma that show that it is not a trailing one, and with which the text goes on
as anywhere else. -/
def Opens (w : List UInt8) : Prop :=
  ∀ r, trailing (.code true) (w ++ r) = false ∧
    scanner.run (.code true) (w ++ r) = scanner.run (.code false) (w ++ r)

/-- The byte starts no string, no comment and no look for a closing brace or bracket. -/
def IsPlain (c : UInt8) : Prop := c ≠ quote ∧ c ≠ slash ∧ c ≠ comma

instance : DecidablePred IsPlain := fun _ => inferInstanceAs (Decidable (_ ∧ _))

/-- The byte ends the look for a closing brace or bracket behind a comma. -/
def EndsLook (c : UInt8) : Prop :=
  isWS c = false ∧ c ≠ slash ∧ c ≠ closingBrace ∧ c ≠ closingBracket

instance : DecidablePred EndsLook := fun _ => inferInstanceAs (Decidable (_ ∧ _))

section Closure

variable {c : UInt8} {u v w : List UInt8}

/-! ### Bytes of the text -/

theorem runs_nil : Runs [] := fun _ => rfl

theorem Runs.append (hw : Runs w) (hv : Runs v) : Runs (w ++ v) := by
  intro r
  rw [List.append_assoc, hw, hv, List.append_assoc]

theorem runs_of_isPlain (h : ∀ c ∈ w, IsPlain c) : Runs w := by
  induction w with
  | nil => exact runs_nil
  | cons c w ih =>
    obtain ⟨⟨hquote, hslash, hcomma⟩, hw⟩ := List.forall_mem_cons.mp h
    intro r
    rw [List.cons_append, run_code_of_ne hquote hslash hcomma, ih hw, List.cons_append]

theorem runs_of_all (h : w.all (fun c => decide (IsPlain c)) = true) : Runs w :=
  runs_of_isPlain fun c hc => of_decide_eq_true (List.all_eq_true.mp h c hc)

theorem isWS_of_isSpace (h : Json.IsSpace c) : isWS c = true := by
  rcases h with rfl | rfl | rfl | rfl <;> decide

theorem runs_ws (h : Json.Ws w) : Runs w := by
  refine runs_of_isPlain fun c hc => ?_
  rcases h c hc with rfl | rfl | rfl | rfl <;> decide

theorem runs_number (h : Json.Number w) : Runs w := by
  refine runs_of_isPlain fun c hc => ⟨?_, ?_, ?_⟩
  all_goals
    rintro rfl
    exact absurd (h.isNumeric _ hc) (by decide)

/-! ### Strings -/

theorem run_escaped (c : UInt8) (r : List UInt8) :
    scanner.run .quoted (backslash :: c :: r) = backslash :: c :: scanner.run .quoted r := rfl

theorem run_quoted_append (h : ∀ c ∈ w, c ≠ quote ∧ c ≠ backslash) (r : List UInt8) :
    scanner.run .quoted (w ++ r) = w ++ scanner.run .quoted r := by
  induction w with
  | nil => rfl
  | cons c w ih =>
    obtain ⟨⟨hquote, hback⟩, hw⟩ := List.forall_mem_cons.mp h
    rw [List.cons_append, run_quoted_of_ne hquote hback, ih hw, List.cons_append]

theorem run_character (h : Json.Character w) (r : List UInt8) :
    scanner.run .quoted (w ++ r) = w ++ scanner.run .quoted r := by
  cases h with
  | unescaped hc hquote hback => exact run_quoted_of_ne hquote hback r
  | escaped hc => exact run_escaped _ r
  | unicode hlength hw =>
    -- the backslash skips the letter, and the four digits are bytes like others
    refine (run_escaped _ _).trans (congrArg (backslash :: _ :: ·) ?_)
    refine run_quoted_append (fun c hc => ⟨?_, ?_⟩) r
    all_goals
      rintro rfl
      exact absurd (hw _ hc) (by decide)

theorem run_characters (h : Json.Characters w) (r : List UInt8) :
    scanner.run .quoted (w ++ r) = w ++ scanner.run .quoted r := by
  induction h with
  | nil => rfl
  | cons hw _ ih => rw [List.append_assoc, run_character hw, ih, List.append_assoc]

theorem runs_str (h : Json.Str w) : Runs w := by
  obtain ⟨hw⟩ := h
  intro r
  have hopen (t : List UInt8) :
      scanner.run (.code false) (quote :: t) = quote :: scanner.run .quoted t := rfl
  have hclose (t : List UInt8) :
      scanner.run .quoted (quote :: t) = quote :: scanner.run (.code false) t := rfl
  change scanner.run (.code false) (quote :: (_ ++ [quote]) ++ r) = _
  rw [List.cons_append, hopen, List.append_assoc, run_characters hw, List.singleton_append, hclose]
  simp [quote]

/-! ### Commas -/

theorem Opens.append (h : Opens w) (v : List UInt8) : Opens (w ++ v) := by
  intro r
  rw [List.append_assoc]
  exact h (v ++ r)

theorem opens_cons (hc : EndsLook c) (w : List UInt8) : Opens (c :: w) := by
  obtain ⟨hws, hslash, hbrace, hbracket⟩ := hc
  intro r
  rw [List.cons_append]
  refine ⟨?_, run_code_of_not_ws hws hslash (w ++ r)⟩
  rw [trailing, if_neg (not_or.mpr ⟨hbrace, hbracket⟩), if_neg (by simp [hslash, hws])]

/-- Whitespace behind the comma. -/
theorem Opens.ws_append (hw : Json.Ws w) (h : Opens v) : Opens (w ++ v) := by
  induction w with
  | nil => exact h
  | cons c w ih =>
    obtain ⟨hc, hw⟩ := List.forall_mem_cons.mp hw
    have hws := isWS_of_isSpace hc
    intro r
    obtain ⟨htrailing, hrun⟩ := ih hw r
    rw [List.cons_append, List.cons_append, (passes_ws hws).trailing, (passes_ws hws).run, hrun,
      (passes_ws hws).run]
    exact ⟨htrailing, rfl⟩

theorem Runs.separated (hw : Runs w) (hv : Runs v) (hopens : Opens v) :
    Runs (w ++ comma :: v) := by
  intro r
  obtain ⟨htrailing, hrun⟩ := hopens r
  have hmark : commaMark (v ++ r) = comma := by
    rw [commaMark, htrailing]
    rfl
  rw [List.append_assoc, hw, List.cons_append, run_code_comma, hmark, hrun, hv, List.append_assoc,
    List.cons_append]

end Closure

/-! ### The grammar -/

/-- A bracket before and after. -/
theorem Runs.wrap {a b : UInt8} {w : List UInt8} (hw : Runs w)
    (ha : IsPlain a) (hb : IsPlain b) : Runs (a :: w ++ [b]) := by
  have hfirst : Runs [a] := runs_of_isPlain (List.forall_mem_singleton.mpr ha)
  have hlast : Runs [b] := runs_of_isPlain (List.forall_mem_singleton.mpr hb)
  exact (hfirst.append hw).append hlast

theorem opens_number {w : List UInt8} (h : Json.Number w) : Opens w := by
  obtain ⟨c, v, rfl⟩ := List.exists_cons_of_ne_nil h.ne_nil
  have hc := h.isNumeric c List.mem_cons_self
  have hws : isWS c ≠ true := by
    intro hws
    obtain ((rfl | rfl) | rfl | rfl) : (c = space ∨ c = 0x09) ∨ c = 0x0a ∨ c = 0x0d := by
      simpa [isWS, isNL] using hws
    all_goals exact absurd hc (by decide)
  refine opens_cons ⟨Bool.eq_false_iff.mpr hws, ?_, ?_, ?_⟩ v
  all_goals
    rintro rfl
    exact absurd hc (by decide)

theorem opens_str {w : List UInt8} (h : Json.Str w) : Opens w := by
  obtain ⟨_⟩ := h
  exact opens_cons (by decide) _

theorem runs_opens_of_derives {sym : Json.Symbol} {w : List UInt8} (h : Json.Derives sym w) :
    Runs w ∧ Opens w := by
  induction h with
  | null => exact ⟨runs_of_all (by decide), opens_cons (by decide) _⟩
  | true => exact ⟨runs_of_all (by decide), opens_cons (by decide) _⟩
  | false => exact ⟨runs_of_all (by decide), opens_cons (by decide) _⟩
  | number hw => exact ⟨runs_number hw, opens_number hw⟩
  | string hw => exact ⟨runs_str hw, opens_str hw⟩
  | emptyArray hw =>
    exact ⟨(runs_ws hw).wrap (by decide) (by decide), opens_cons (by decide) _⟩
  | array _ ih => exact ⟨ih.1.wrap (by decide) (by decide), opens_cons (by decide) _⟩
  | emptyObject hw =>
    exact ⟨(runs_ws hw).wrap (by decide) (by decide), opens_cons (by decide) _⟩
  | object _ ih => exact ⟨ih.1.wrap (by decide) (by decide), opens_cons (by decide) _⟩
  | element hu _ hv ih =>
    exact ⟨((runs_ws hu).append ih.1).append (runs_ws hv), (ih.2.ws_append hu).append _⟩
  | lastElement _ ih => exact ih
  | elements _ _ ihw ihv =>
    -- the next element shows that the comma is not a trailing one
    exact ⟨ihw.1.separated ihv.1 ihv.2, ihw.2.append _⟩
  | member hu hs hv _ ih =>
    have hcolon : Runs [0x3a] := runs_of_all (by decide)
    have hname := ((runs_ws hu).append (runs_str hs)).append (runs_ws hv)
    exact ⟨hname.append (hcolon.append ih.1),
      (((opens_str hs).ws_append hu).append _).append _⟩
  | lastMember _ ih => exact ih
  | members _ _ ihw ihv => exact ⟨ihw.1.separated ihv.1 ihv.2, ihw.2.append _⟩

theorem prepLoop_of_json {text : List UInt8} (h : Json.Text text) : prepLoop text 0 = text := by
  have hloop := prepLoop_eq_run [] text
  have hrun := (runs_opens_of_derives h).1 []
  rw [List.append_nil] at hrun
  rw [hrun] at hloop
  exact hloop.trans (List.append_nil text)

/-- **Strict JSON passes through unchanged.** -/
theorem prep_of_json {text : List UInt8} (h : Json.Text text) (err : Option String) :
    prep text err = (text, err) := by
  rcases err with _ | err
  · rw [prep, prepLoop_of_json h]
  · rfl

/-- An escaped quote, a comma, a bracket and two slashes in a string, behind which an array goes on:
`["\",]//" ,{}]`. -/
def sampleArray : List UInt8 :=
  [0x5b, 0x22, 0x5c, 0x22, 0x2c, 0x5d, 0x2f, 0x2f, 0x22, 0x20, 0x2c, 0x7b, 0x7d, 0x5d]

theorem text_sampleArray : Json.Text sampleArray := by
  have hempty : Json.Ws [] := List.forall_mem_nil _
  have hplain {c : UInt8} {v : List UInt8} (hc : 0x20 ≤ c ∧ c ≠ 0x22 ∧ c ≠ 0x5c)
      (hv : Json.Characters v) : Json.Characters (c :: v) :=
    .cons (.unescaped hc.1 hc.2.1 hc.2.2) hv
  have hcharacters : Json.Characters [0x5c, 0x22, 0x2c, 0x5d, 0x2f, 0x2f] :=
    .cons (w := [0x5c, 0x22]) (.escaped (by decide)) (hplain (by decide) (hplain (by decide)
      (hplain (by decide) (hplain (by decide) .nil))))
  have hstring : Json.Derives .element [0x22, 0x5c, 0x22, 0x2c, 0x5d, 0x2f, 0x2f, 0x22, 0x20] :=
    .element (u := []) (v := [0x20]) hempty (.string (.mk hcharacters))
      (List.forall_mem_singleton.mpr (by decide))
  have hobject : Json.Derives .element [0x7b, 0x7d] :=
    .element (u := []) (v := []) hempty (.emptyObject (w := []) hempty) hempty
  have harray := Json.Derives.array (.elements hstring (.lastElement hobject))
  exact .element (u := []) (v := []) hempty harray hempty

theorem prep_of_json_array : prep sampleArray none = (sampleArray, none) :=
  prep_of_json text_sampleArray none

/-- The reader hands on the bytes of a JSON text, whatever the lengths of the buffers. -/
theorem TrimNodeReader.reads_of_json {text : List UInt8} (h : Json.Text text) (ns : List ℕ) :
    let reads := TrimNodeReader.reads { data := text } ns
    reads.2 ++ reads.1.pending = text := by
  intro reads
  exact (TrimNodeReader.reads_append_pending rfl ns).trans (prepLoop_of_json h)

/-- Buffers of five bytes, of none and of one byte. -/
theorem TrimNodeReader.reads_of_json_array :
    let reads := TrimNodeReader.reads { data := sampleArray } [5, 0, 1]
    reads.2 ++ reads.1.pending = sampleArray :=
  TrimNodeReader.reads_of_json text_sampleArray [5, 0, 1]

end Tox.Json5
