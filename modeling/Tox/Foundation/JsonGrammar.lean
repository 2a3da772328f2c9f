import Mathlib.Data.List.Basic
import Mathlib.Tactic.Common

/-!
# The grammar of JSON

The strict grammar of JSON over the bytes of a text: whitespace, numbers, strings, and the symbols
of the nested part (`Symbol`), whose derivations are one inductive family (`Derives`). A text is an
element: a value with whitespace around it.

A byte of a string that is no control byte, no quote and no backslash stands for itself. Whether the
bytes are the encoding of a text is not asked.
-/

namespace Tox.Foundation.Json

/-! ### Tokens -/

def IsSpace (c : UInt8) : Prop := c = 0x20 ∨ c = 0x09 ∨ c = 0x0a ∨ c = 0x0d

instance : DecidablePred IsSpace := fun _ => inferInstanceAs (Decidable (_ ∨ _))

/-- Whitespace. -/
def Ws (w : List UInt8) : Prop := ∀ c ∈ w, IsSpace c

def IsDigit (c : UInt8) : Prop := 0x30 ≤ c ∧ c ≤ 0x39

instance : DecidablePred IsDigit := fun _ => inferInstanceAs (Decidable (_ ∧ _))

def IsHex (c : UInt8) : Prop := IsDigit c ∨ 0x41 ≤ c ∧ c ≤ 0x46 ∨ 0x61 ≤ c ∧ c ≤ 0x66

instance : DecidablePred IsHex := fun _ => inferInstanceAs (Decidable (_ ∨ _))

def Digits (w : List UInt8) : Prop := w ≠ [] ∧ ∀ c ∈ w, IsDigit c

/-- The whole part of a number, without leading zeros. -/
inductive Whole : List UInt8 → Prop
  | zero : Whole [0x30]
  | digits {c : UInt8} {w : List UInt8} (hc : IsDigit c) (hne : c ≠ 0x30)
      (hw : ∀ d ∈ w, IsDigit d) : Whole (c :: w)

inductive Fraction : List UInt8 → Prop
  | none : Fraction []
  | digits {w : List UInt8} (hw : Digits w) : Fraction (0x2e :: w)

inductive Exponent : List UInt8 → Prop
  | none : Exponent []
  | digits {c : UInt8} {sign w : List UInt8} (hc : c = 0x65 ∨ c = 0x45)
      (hsign : sign = [] ∨ sign = [0x2d] ∨ sign = [0x2b]) (hw : Digits w) :
      Exponent (c :: sign ++ w)

inductive Number : List UInt8 → Prop
  | mk {sign whole fraction exponent : List UInt8} (hsign : sign = [] ∨ sign = [0x2d])
      (hwhole : Whole whole) (hfraction : Fraction fraction) (hexponent : Exponent exponent) :
      Number (sign ++ whole ++ fraction ++ exponent)

/-- One character of a string. -/
inductive Character : List UInt8 → Prop
  | unescaped {c : UInt8} (hc : 0x20 ≤ c) (hquote : c ≠ 0x22) (hback : c ≠ 0x5c) : Character [c]
  /-- The escapes of the quote, the backslash, the slash and the letters b, f, n, r and t. -/
  | escaped {c : UInt8} (hc : c ∈ [0x22, 0x5c, 0x2f, 0x62, 0x66, 0x6e, 0x72, 0x74]) :
      Character [0x5c, c]
  /-- The escape of the letter u and four hexadecimal digits. -/
  | unicode {w : List UInt8} (hlength : w.length = 4) (hw : ∀ c ∈ w, IsHex c) :
      Character (0x5c :: 0x75 :: w)

inductive Characters : List UInt8 → Prop
  | nil : Characters []
  | cons {w v : List UInt8} (hw : Character w) (hv : Characters v) : Characters (w ++ v)

inductive Str : List UInt8 → Prop
  | mk {w : List UInt8} (hw : Characters w) : Str (0x22 :: w ++ [0x22])

/-! ### Values -/

/-- The symbols of the nested part: a value, a value with whitespace around it, a list of such
values, a name with its value, and a list of those. -/
inductive Symbol
  | value
  | element
  | elements
  | member
  | members
deriving DecidableEq, Repr

inductive Derives : Symbol → List UInt8 → Prop
  | null : Derives .value [0x6e, 0x75, 0x6c, 0x6c]
  | true : Derives .value [0x74, 0x72, 0x75, 0x65]
  | false : Derives .value [0x66, 0x61, 0x6c, 0x73, 0x65]
  | number {w : List UInt8} (hw : Number w) : Derives .value w
  | string {w : List UInt8} (hw : Str w) : Derives .value w
  | emptyArray {w : List UInt8} (hw : Ws w) : Derives .value (0x5b :: w ++ [0x5d])
  | array {w : List UInt8} (hw : Derives .elements w) : Derives .value (0x5b :: w ++ [0x5d])
  | emptyObject {w : List UInt8} (hw : Ws w) : Derives .value (0x7b :: w ++ [0x7d])
  | object {w : List UInt8} (hw : Derives .members w) : Derives .value (0x7b :: w ++ [0x7d])
  | element {u w v : List UInt8} (hu : Ws u) (hw : Derives .value w) (hv : Ws v) :
      Derives .element (u ++ w ++ v)
  | lastElement {w : List UInt8} (hw : Derives .element w) : Derives .elements w
  | elements {w v : List UInt8} (hw : Derives .element w) (hv : Derives .elements v) :
      Derives .elements (w ++ 0x2c :: v)
  | member {u s v w : List UInt8} (hu : Ws u) (hs : Str s) (hv : Ws v)
      (hw : Derives .element w) : Derives .member (u ++ s ++ v ++ 0x3a :: w)
  | lastMember {w : List UInt8} (hw : Derives .member w) : Derives .members w
  | members {w v : List UInt8} (hw : Derives .member w) (hv : Derives .members v) :
      Derives .members (w ++ 0x2c :: v)

/-- A JSON text. -/
def Text (w : List UInt8) : Prop := Derives .element w

/-! ### The bytes of numbers -/

/-- A byte that can stand in a number. -/
def IsNumeric (c : UInt8) : Prop := IsDigit c ∨ c ∈ [0x2d, 0x2b, 0x2e, 0x65, 0x45]

instance : DecidablePred IsNumeric := fun _ => inferInstanceAs (Decidable (_ ∨ _))

section Numeric

variable {w : List UInt8}

theorem Digits.isNumeric (h : Digits w) : ∀ c ∈ w, IsNumeric c := fun c hc => .inl (h.2 c hc)

theorem Whole.isNumeric (h : Whole w) : ∀ c ∈ w, IsNumeric c := by
  intro c hc
  cases h with
  | zero =>
    rw [List.mem_singleton.mp hc]
    exact .inl (by decide)
  | digits hd _ hw => exact .inl (List.forall_mem_cons.mpr ⟨hd, hw⟩ c hc)

theorem Fraction.isNumeric (h : Fraction w) : ∀ c ∈ w, IsNumeric c := by
  cases h with
  | none => exact List.forall_mem_nil _
  | digits hw => exact List.forall_mem_cons.mpr ⟨.inr (by decide), hw.isNumeric⟩

theorem Exponent.isNumeric (h : Exponent w) : ∀ c ∈ w, IsNumeric c := by
  cases h with
  | none => exact List.forall_mem_nil _
  | digits he hsign hw =>
    refine List.forall_mem_append.mpr ⟨List.forall_mem_cons.mpr ⟨.inr ?_, fun c hc => .inr ?_⟩,
      hw.isNumeric⟩
    · rcases he with rfl | rfl <;> decide
    · rcases hsign with rfl | rfl | rfl
      · cases hc
      · rw [List.mem_singleton.mp hc]
        decide
      · rw [List.mem_singleton.mp hc]
        decide

theorem Number.isNumeric (h : Number w) : ∀ c ∈ w, IsNumeric c := by
  obtain ⟨hsign, hwhole, hfraction, hexponent⟩ := h
  refine List.forall_mem_append.mpr ⟨List.forall_mem_append.mpr
    ⟨List.forall_mem_append.mpr ⟨fun c hc => .inr ?_, hwhole.isNumeric⟩, hfraction.isNumeric⟩,
    hexponent.isNumeric⟩
  rcases hsign with rfl | rfl
  · cases hc
  · rw [List.mem_singleton.mp hc]
    decide

theorem Whole.ne_nil (h : Whole w) : w ≠ [] := by
  cases h with
  | zero => exact List.cons_ne_nil _ _
  | digits => exact List.cons_ne_nil _ _

theorem Number.ne_nil (h : Number w) : w ≠ [] := by
  obtain ⟨_, hwhole, _, _⟩ := h
  simp [hwhole.ne_nil]

end Numeric

end Tox.Foundation.Json
