import Mathlib.Data.List.Basic
import Mathlib.Data.Nat.Digits.Defs
import Mathlib.Tactic.Common

/-!
# Texts that show where they end

Values are written as texts, one after the other. A reader can take them apart again if every text
shows where it ends: two texts agree, with whatever follows them, only if the values agree and what
follows agrees (`Delimited`). This is kept by putting texts together (`Delimited.append`,
`Delimited.wrap`, `Delimited.sum`, `Delimited.listed`, `Delimited.optional`), so that a compound
text determines its value.

The texts are those of an indented JSON writer.

* `quote` — a string. The quote, the backslash and the control characters are escaped, as are
  `<`, `>`, `&` and the two line separators of Unicode.
* `Nat.toDigits` — a number, which ends before the first character that is no digit.
* `array` — a list, one element a line.
-/

namespace Tox.Foundation

/-! ### Delimited texts -/

section Delimited

variable {τ α β : Type*}

/-- The text of a value shows where it ends. -/
def Delimited (w : α → List τ) : Prop :=
  ∀ a b x y, w a ++ x = w b ++ y → a = b ∧ x = y

variable {w : α → List τ} {v : β → List τ}

theorem Delimited.injective (h : Delimited w) : Function.Injective w := fun a b hab =>
  (h a b [] [] (by rw [hab])).1

/-- The values are taken from another type. -/
theorem Delimited.comp (h : Delimited w) {f : β → α} (hf : Function.Injective f) :
    Delimited (w ∘ f) := by
  intro a b x y hab
  obtain ⟨heq, hxy⟩ := h (f a) (f b) x y hab
  exact ⟨hf heq, hxy⟩

/-- A fixed text before and after. -/
theorem Delimited.wrap (h : Delimited w) (pre post : List τ) :
    Delimited fun a => pre ++ (w a ++ post) := by
  intro a b x y hab
  simp only [List.append_assoc, List.append_cancel_left_eq] at hab
  obtain ⟨heq, hxy⟩ := h a b _ _ hab
  exact ⟨heq, List.append_cancel_left hxy⟩

/-- One text after the other. -/
theorem Delimited.append (hw : Delimited w) (hv : Delimited v) :
    Delimited fun p : α × β => w p.1 ++ v p.2 := by
  rintro ⟨a, b⟩ ⟨a', b'⟩ x y hab
  simp only [List.append_assoc] at hab
  obtain ⟨rfl, hrest⟩ := hw a a' _ _ hab
  obtain ⟨rfl, hxy⟩ := hv b b' x y hrest
  exact ⟨rfl, hxy⟩

/-- Values of two kinds, whose texts differ at once. -/
theorem Delimited.sum (hw : Delimited w) (hv : Delimited v)
    (hne : ∀ a b x y, w a ++ x ≠ v b ++ y) : Delimited (Sum.elim w v) := by
  rintro (a | a) (b | b) x y hab
  · obtain ⟨rfl, hxy⟩ := hw a b x y hab
    exact ⟨rfl, hxy⟩
  · exact absurd hab (hne a b x y)
  · exact absurd hab.symm (hne b a y x)
  · obtain ⟨rfl, hxy⟩ := hv a b x y hab
    exact ⟨rfl, hxy⟩

/-- A list: every element after a separator, and an end. -/
def listed (w : α → List τ) (sep fin : List τ) : List α → List τ
  | [] => fin
  | a :: l => sep ++ (w a ++ listed w sep fin l)

theorem Delimited.listed (hw : Delimited w) {sep fin : List τ}
    (hne : ∀ a x y, sep ++ (w a ++ x) ≠ fin ++ y) : Delimited (listed w sep fin) := by
  intro l
  induction l with
  | nil =>
    rintro (_ | ⟨b, l'⟩) x y hab
    · exact ⟨rfl, List.append_cancel_left hab⟩
    · rw [Foundation.listed, Foundation.listed, List.append_assoc, List.append_assoc] at hab
      exact absurd hab.symm (hne b _ x)
  | cons a l ih =>
    rintro (_ | ⟨b, l'⟩) x y hab
    · rw [Foundation.listed, Foundation.listed, List.append_assoc, List.append_assoc] at hab
      exact absurd hab (hne a _ y)
    · rw [Foundation.listed, Foundation.listed] at hab
      simp only [List.append_assoc, List.append_cancel_left_eq] at hab
      obtain ⟨rfl, hrest⟩ := hw a b _ _ hab
      obtain ⟨rfl, hxy⟩ := ih l' x y hrest
      exact ⟨rfl, hxy⟩

/-- A value that may be missing, with a text before it, and an end. -/
def optional (w : α → List τ) (pre fin : List τ) : Option α → List τ
  | none => fin
  | some a => pre ++ (w a ++ fin)

theorem Delimited.optional {pre fin : List τ} (hw : Delimited fun a => w a ++ fin)
    (hne : ∀ x y, pre ++ x ≠ fin ++ y) : Delimited (optional w pre fin) := by
  rintro (_ | a) (_ | b) x y hab
  · exact ⟨rfl, List.append_cancel_left hab⟩
  · rw [Foundation.optional, Foundation.optional, List.append_assoc] at hab
    exact absurd hab.symm (hne _ x)
  · rw [Foundation.optional, Foundation.optional, List.append_assoc] at hab
    exact absurd hab (hne _ y)
  · rw [Foundation.optional, Foundation.optional, List.append_assoc pre, List.append_assoc pre]
      at hab
    obtain ⟨rfl, hxy⟩ := hw a b x y (List.append_cancel_left hab)
    exact ⟨rfl, hxy⟩

theorem append_cons_inj_of_notMem {u u' x y : List τ} {t : τ} (hu : t ∉ u) (hu' : t ∉ u')
    (h : u ++ t :: x = u' ++ t :: y) : u = u' ∧ x = y := by
  induction u generalizing u' with
  | nil =>
    rcases u' with _ | ⟨s, u'⟩
    · exact ⟨rfl, (List.cons.inj h).2⟩
    · exact absurd (List.mem_cons.mpr (.inl (List.cons.inj h).1)) hu'
  | cons s u ih =>
    rcases u' with _ | ⟨s', u'⟩
    · exact absurd (List.mem_cons.mpr (.inl (List.cons.inj h).1.symm)) hu
    · obtain ⟨rfl, hrest⟩ := List.cons.inj h
      obtain ⟨rfl, hxy⟩ := ih (fun hmem => hu (List.mem_cons_of_mem _ hmem))
        (fun hmem => hu' (List.mem_cons_of_mem _ hmem)) hrest
      exact ⟨rfl, hxy⟩

/-- A text ends before a token that it does not have. -/
theorem Delimited.until (hinj : Function.Injective w) {t : τ} (ht : ∀ a, t ∉ w a)
    (rest : List τ) : Delimited fun a => w a ++ t :: rest := by
  intro a b x y hab
  simp only [List.append_assoc, List.cons_append] at hab
  obtain ⟨heq, hxy⟩ := append_cons_inj_of_notMem (ht a) (ht b) hab
  exact ⟨hinj heq, List.append_cancel_left hxy⟩

end Delimited

/-! ### Strings -/

/-- The character that is written after a backslash for a character. -/
def shortEscape : Char → Option Char
  | '"' => some '"'
  | '\\' => some '\\'
  | '\x08' => some 'b'
  | '\x0c' => some 'f'
  | '\n' => some 'n'
  | '\r' => some 'r'
  | '\t' => some 't'
  | _ => none

/-- The characters that are written by their number. -/
def numbered (c : Char) : Bool :=
  c.toNat < 0x20 || c ∈ ['<', '>', '&', '\u2028', '\u2029']

/-- The four hexadecimal digits of a number. -/
def hexDigits (n : ℕ) : List Char :=
  [Nat.digitChar (n / 4096 % 16), Nat.digitChar (n / 256 % 16), Nat.digitChar (n / 16 % 16),
    Nat.digitChar (n % 16)]

/-- A character in a string. -/
def escape (c : Char) : List Char :=
  match shortEscape c with
  | some d => ['\\', d]
  | none => if numbered c then '\\' :: 'u' :: hexDigits c.toNat else [c]

/-- A string in quotes. -/
def quote (s : String) : List Char := '"' :: listed escape [] ['"'] s.toList

/-- The character of a short escape. -/
def unescape : Char → Option Char
  | '"' => some '"'
  | '\\' => some '\\'
  | 'b' => some '\x08'
  | 'f' => some '\x0c'
  | 'n' => some '\n'
  | 'r' => some '\r'
  | 't' => some '\t'
  | _ => none

theorem unescape_of_shortEscape {c d : Char} (h : shortEscape c = some d) :
    unescape d = some c := by
  unfold shortEscape at h
  split at h
  case h_8 => cases h
  all_goals
    obtain rfl := Option.some.inj h
    rfl

theorem digitChar_injOn {m n : ℕ} (hm : m < 16) (hn : n < 16)
    (h : Nat.digitChar m = Nat.digitChar n) : m = n := by
  have hall : ∀ m < 16, ∀ n < 16, Nat.digitChar m = Nat.digitChar n → m = n := by decide
  exact hall m hm n hn h

theorem hexDigits_injOn {m n : ℕ} (hm : m < 65536) (hn : n < 65536)
    (h : hexDigits m = hexDigits n) : m = n := by
  simp only [hexDigits, List.cons.injEq, and_true] at h
  obtain ⟨h₃, h₂, h₁, h₀⟩ := h
  have e₃ := digitChar_injOn (Nat.mod_lt _ (by decide)) (Nat.mod_lt _ (by decide)) h₃
  have e₂ := digitChar_injOn (Nat.mod_lt _ (by decide)) (Nat.mod_lt _ (by decide)) h₂
  have e₁ := digitChar_injOn (Nat.mod_lt _ (by decide)) (Nat.mod_lt _ (by decide)) h₁
  have e₀ := digitChar_injOn (Nat.mod_lt _ (by decide)) (Nat.mod_lt _ (by decide)) h₀
  omega

theorem toNat_lt_of_numbered {c : Char} (h : numbered c = true) : c.toNat < 65536 := by
  simp only [numbered, Bool.or_eq_true, decide_eq_true_eq, List.mem_cons, List.not_mem_nil,
    or_false] at h
  rcases h with h | rfl | rfl | rfl | rfl | rfl
  · omega
  all_goals decide

/-- The three forms of a character in a string. -/
theorem escape_cases (c : Char) :
    (∃ d, unescape d = some c ∧ escape c = ['\\', d]) ∨
      (c.toNat < 65536 ∧ escape c = '\\' :: 'u' :: hexDigits c.toNat) ∨
      (c ≠ '\\' ∧ c ≠ '"' ∧ escape c = [c]) := by
  rw [escape]
  rcases hshort : shortEscape c with _ | d
  · dsimp only
    split_ifs with hnumbered
    · exact .inr (.inl ⟨toNat_lt_of_numbered hnumbered, rfl⟩)
    · refine .inr (.inr ⟨?_, ?_, rfl⟩)
      · rintro rfl
        cases hshort
      · rintro rfl
        cases hshort
  · exact .inl ⟨d, unescape_of_shortEscape hshort, rfl⟩

/-- No character of a string is written with a quote at the beginning. -/
theorem escape_append_ne (c : Char) (x y : List Char) : escape c ++ x ≠ '"' :: y := by
  rcases escape_cases c with ⟨d, -, hc⟩ | ⟨-, hc⟩ | ⟨-, hquote, hc⟩
  · rw [hc]
    exact fun h => absurd (List.cons.inj h).1 (by decide)
  · rw [hc]
    exact fun h => absurd (List.cons.inj h).1 (by decide)
  · rw [hc]
    exact fun h => hquote (List.cons.inj h).1

theorem delimited_escape : Delimited escape := by
  intro c d x y h
  rcases escape_cases c with ⟨e, he, hc⟩ | ⟨hlt, hc⟩ | ⟨hback, -, hc⟩ <;>
    rcases escape_cases d with ⟨e', he', hd⟩ | ⟨hlt', hd⟩ | ⟨hback', -, hd⟩ <;>
    rw [hc, hd] at h
  · obtain ⟨rfl, hxy⟩ := List.cons.inj (List.cons.inj h).2
    exact ⟨Option.some.inj (he.symm.trans he'), hxy⟩
  · obtain ⟨rfl, -⟩ := List.cons.inj (List.cons.inj h).2
    cases he
  · exact absurd (List.cons.inj h).1.symm hback'
  · obtain ⟨rfl, -⟩ := List.cons.inj (List.cons.inj h).2
    cases he'
  · have hhex : hexDigits c.toNat ++ x = hexDigits d.toNat ++ y :=
      (List.cons.inj (List.cons.inj h).2).2
    obtain ⟨hdigits, hxy⟩ := List.append_inj hhex rfl
    exact ⟨Char.toNat_inj.mp (hexDigits_injOn hlt hlt' hdigits), hxy⟩
  · exact absurd (List.cons.inj h).1.symm hback'
  · exact absurd (List.cons.inj h).1 hback
  · exact absurd (List.cons.inj h).1 hback
  · exact List.cons.inj h

theorem delimited_quote : Delimited quote := by
  have hlisted : Delimited (listed escape [] ['"']) :=
    delimited_escape.listed fun c x y => escape_append_ne c x y
  intro s t x y h
  obtain ⟨heq, hxy⟩ := hlisted s.toList t.toList x y (List.cons.inj h).2
  exact ⟨String.toList_inj.mp heq, hxy⟩

/-! ### Numbers and lists -/

theorem toDigits_injective : Function.Injective (Nat.toDigits 10) := by
  intro m n h
  have hread := congrArg (fun digits => Nat.ofDigitChars 10 digits 0) h
  rwa [Nat.ofDigitChars_ten_toDigits, Nat.ofDigitChars_ten_toDigits] at hread

/-- A number ends before a character that is no digit. -/
theorem delimited_toDigits {c : Char} (hc : c.isDigit = false) (rest : List Char) :
    Delimited fun n => Nat.toDigits 10 n ++ c :: rest := by
  refine .until toDigits_injective (fun n hmem => ?_) rest
  have hdigit := Nat.isDigit_of_mem_toDigits (by decide) (by decide) hmem
  rw [hc] at hdigit
  cases hdigit

/-- A line break, with the indentation of the next line. -/
def newline (depth : ℕ) : List Char := '\n' :: List.replicate (2 * depth) ' '

/-- A list, one element a line. -/
def array {α : Type*} (w : α → List Char) (depth : ℕ) : List α → List Char
  | [] => ['[', ']']
  | a :: l =>
    '[' :: (newline (depth + 1) ++
      (w a ++ listed w (',' :: newline (depth + 1)) (newline depth ++ [']']) l))

theorem Delimited.array {α : Type*} {w : α → List Char} (hw : Delimited w) (depth : ℕ) :
    Delimited (array w depth) := by
  have hlisted : Delimited
      (Foundation.listed w (',' :: newline (depth + 1)) (newline depth ++ [']'])) :=
    hw.listed fun a x y h => absurd (List.cons.inj h).1 (by decide)
  rintro (_ | ⟨a, l⟩) (_ | ⟨b, l'⟩) x y hab
  · exact ⟨rfl, List.append_cancel_left hab⟩
  · exact absurd (List.cons.inj (List.cons.inj hab).2).1 (by decide)
  · exact absurd (List.cons.inj (List.cons.inj hab).2).1 (by decide)
  · rw [Foundation.array, Foundation.array] at hab
    simp only [List.cons_append, List.cons.injEq, true_and, List.append_assoc,
      List.append_cancel_left_eq] at hab
    obtain ⟨rfl, hrest⟩ := hw a b _ _ hab
    obtain ⟨rfl, hxy⟩ := hlisted l l' x y hrest
    exact ⟨rfl, hxy⟩

end Tox.Foundation
