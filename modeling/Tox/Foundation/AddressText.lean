import Tox.Foundation.Join
import Tox.Foundation.Wire
import Mathlib.Data.List.TakeWhile
import Mathlib.Tactic.Set

/-!
# The texts of network addresses

* `joinHostPort`, `splitHostPort`: a host and a port in one text, over any alphabet with the three
  delimiters. The host stands in brackets if it has a colon. A host without brackets and a port
  without delimiters are split as they were joined (`splitHostPort_joinHostPort`).
* `v4Text`, `v6Text`: IP addresses in bytes, dotted decimal and in hexadecimal groups of which the
  first longest run of at least two zeros is left out. `parseIP` reads both back (`parseIP_v4Text`,
  `parseIP_v6Text`), and accepts nothing but digits, points and colons (`isAddressByte_of_parseIP`).
-/

namespace Tox.Foundation

/-! ### Hosts and ports -/

/-- The characters that separate a host from a port. -/
structure Delimiters (α : Type) where
  colon : α
  left : α
  right : α
  colon_ne_left : colon ≠ left
  colon_ne_right : colon ≠ right
  left_ne_right : left ≠ right

inductive AddrError where
  | missingPort
  | tooManyColons
  | missingBracket
  | unexpectedLeft
  | unexpectedRight
  deriving DecidableEq, Repr

def AddrError.text : AddrError → String
  | .missingPort => "missing port in address"
  | .tooManyColons => "too many colons in address"
  | .missingBracket => "missing ']' in address"
  | .unexpectedLeft => "unexpected '[' in address"
  | .unexpectedRight => "unexpected ']' in address"

namespace Delimiters

variable {α : Type} [DecidableEq α] (d : Delimiters α)

def joinHostPort (host port : List α) : List α :=
  if d.colon ∈ host then d.left :: host ++ d.right :: d.colon :: port else host ++ d.colon :: port

/-- The text behind the last colon. -/
def lastPart (hostport : List α) : List α :=
  (hostport.reverse.takeWhile (· ≠ d.colon)).reverse

/-- The brackets that a text may not have behind those of its host. -/
def checkBrackets (fromLeft fromRight host port : List α) : Except AddrError (List α × List α) :=
  if d.left ∈ fromLeft then .error .unexpectedLeft
  else if d.right ∈ fromRight then .error .unexpectedRight
  else .ok (host, port)

def splitHostPort (hostport : List α) : Except AddrError (List α × List α) :=
  if d.colon ∉ hostport then .error .missingPort
  else
    let port := d.lastPart hostport
    let i := hostport.length - (port.length + 1)
    if hostport.head? = some d.left then
      -- the first closing bracket is expected right before the last colon
      let last := hostport.idxOf d.right
      if d.right ∉ hostport then .error .missingBracket
      else if last + 1 = hostport.length then .error .missingPort
      else if last + 1 ≠ i then
        .error (if hostport[last + 1]? = some d.colon then .tooManyColons else .missingPort)
      else
        d.checkBrackets (hostport.drop 1) (hostport.drop (last + 1)) ((hostport.take last).drop 1)
          port
    else if d.colon ∈ hostport.take i then .error .tooManyColons
    else d.checkBrackets hostport hostport (hostport.take i) port

theorem lastPart_append (pre : List α) {port : List α} (h : d.colon ∉ port) :
    d.lastPart (pre ++ d.colon :: port) = port := by
  have hport : ∀ c ∈ port.reverse, decide (c ≠ d.colon) = true := by
    intro c hc
    refine decide_eq_true ?_
    rintro rfl
    exact h (List.mem_reverse.mp hc)
  rw [lastPart, List.reverse_append, List.reverse_cons, List.append_assoc,
    List.takeWhile_append_of_pos hport]
  simp

/-- A host without brackets is split off as it was joined. -/
theorem splitHostPort_joinHostPort {host port : List α} (hleft : d.left ∉ host)
    (hright : d.right ∉ host) (hcolon : d.colon ∉ port) (hleft' : d.left ∉ port)
    (hright' : d.right ∉ port) : d.splitHostPort (d.joinHostPort host port) = .ok (host, port) := by
  by_cases hhost : d.colon ∈ host
  · have hjoin : d.joinHostPort host port =
        (d.left :: host ++ [d.right]) ++ d.colon :: port := by
      rw [joinHostPort, if_pos hhost]
      simp
    have hlast : ((d.left :: host ++ [d.right]) ++ d.colon :: port).idxOf d.right =
        host.length + 1 := by
      rw [List.cons_append, List.cons_append, List.idxOf_cons_ne _ d.left_ne_right,
        List.append_assoc, List.idxOf_append_of_notMem hright, List.singleton_append,
        List.idxOf_cons_self, Nat.add_zero]
    simp only [hjoin, splitHostPort, d.lastPart_append _ hcolon, hlast]
    simp [checkBrackets, hleft, hleft', hright', d.left_ne_right, d.colon_ne_left.symm,
      d.colon_ne_right.symm]
    omega
  · have hhead : (host ++ d.colon :: port).head? ≠ some d.left := by
      rcases host with _ | ⟨c, host⟩
      · simpa using d.colon_ne_left
      · simpa using fun h : c = d.left => hleft (by simp [h])
    have hlength : (host ++ d.colon :: port).length - (port.length + 1) = host.length := by
      rw [List.length_append, List.length_cons, Nat.add_sub_cancel]
    simp only [joinHostPort, if_neg hhost, splitHostPort, d.lastPart_append _ hcolon, hlength,
      if_neg hhead, List.take_left]
    simp [checkBrackets, hleft, hright, hleft', hright', d.colon_ne_left.symm,
      d.colon_ne_right.symm]

end Delimiters

/-! ### Parts of a text -/

/-- The bytes of a joined text are the separator and those of its parts. -/
theorem forall_mem_intercalate {P : UInt8 → Prop} {sep : UInt8} (hsep : P sep) :
    ∀ {parts : List (List UInt8)}, (∀ part ∈ parts, ∀ c ∈ part, P c) →
      ∀ c ∈ [sep].intercalate parts, P c
  | [], _ => by simp
  | [part], h => by simpa using h
  | part :: part' :: parts, h => by
    have hrest := forall_mem_intercalate hsep fun q hq => h q (List.mem_cons_of_mem _ hq)
    rw [List.intercalate_cons_cons]
    simp only [List.forall_mem_append, List.forall_mem_singleton]
    exact ⟨⟨h part List.mem_cons_self, hsep⟩, hrest⟩

/-- Parts that are read back one by one. -/
theorem mapM_map_eq_some {α β : Type} {text : α → β} {parse : β → Option α} {as : List α}
    (h : ∀ a ∈ as, parse (text a) = some a) : (as.map text).mapM parse = some as := by
  induction as with
  | nil => rfl
  | cons a as ih =>
    rw [List.forall_mem_cons] at h
    rw [List.map_cons, List.mapM_cons, h.1, ih h.2]
    rfl

/-! ### IPv4 -/

theorem digit_of_mem_decimal (n : ℕ) : ∀ c ∈ decimal n, 48 ≤ c ∧ c ≤ 57 := by
  induction n using decimal.induct with
  | case1 n hn =>
    rw [decimal, if_pos hn]
    exact List.forall_mem_singleton.mpr (digit_bounds hn)
  | case2 n hn ih =>
    rw [decimal, if_neg hn]
    exact List.forall_mem_append.mpr
      ⟨ih, List.forall_mem_singleton.mpr (digit_bounds (Nat.mod_lt n (by omega)))⟩

/-- A number of at most 255 without leading zeros. -/
def parseOctet (part : List UInt8) : Option UInt8 :=
  (parseDecimal part).bind fun n =>
    if n ≤ 255 ∧ decimal n = part then some (UInt8.ofNat n) else none

def v4Text (ip : List UInt8) : List UInt8 :=
  [0x2e].intercalate (ip.map fun b => decimal b.toNat)

def parseV4 (text : List UInt8) : Option (List UInt8) :=
  let parts := text.splitOn 0x2e
  if parts.length = 4 then parts.mapM parseOctet else none

theorem parseOctet_decimal (b : UInt8) : parseOctet (decimal b.toNat) = some b := by
  have hle : b.toNat ≤ 255 := Nat.le_of_lt_succ b.toNat_lt
  rw [parseOctet, parseDecimal_decimal, Option.bind_some, if_pos ⟨hle, rfl⟩, UInt8.ofNat_toNat]

theorem ne_of_mem_decimal {n : ℕ} {c : UInt8} (h : c < 48 ∨ 57 < c) : c ∉ decimal n := by
  intro hc
  have hdigit := digit_of_mem_decimal n c hc
  rw [UInt8.lt_iff_toNat_lt, UInt8.lt_iff_toNat_lt] at h
  rw [UInt8.le_iff_toNat_le, UInt8.le_iff_toNat_le] at hdigit
  omega

theorem parseV4_v4Text {ip : List UInt8} (h : ip.length = 4) : parseV4 (v4Text ip) = some ip := by
  have hparts : (v4Text ip).splitOn 0x2e = ip.map fun b => decimal b.toNat := by
    refine List.splitOn_intercalate _ ?_ ?_
    · rintro part hpart
      obtain ⟨b, -, rfl⟩ := List.mem_map.mp hpart
      exact ne_of_mem_decimal (.inl (by decide))
    · rintro hnil
      rw [List.map_eq_nil_iff.mp hnil] at h
      cases h
  rw [parseV4, hparts, if_pos (by rw [List.length_map, h])]
  exact mapM_map_eq_some fun b _ => parseOctet_decimal b

theorem parseV4_eq_none {text : List UInt8} (h : 0x2e ∉ text) : parseV4 text = none := by
  rw [parseV4, splitOn_of_notMem _ h]
  rfl

/-! ### IPv6 -/

def hexDigit (d : ℕ) : UInt8 := UInt8.ofNat (if d < 10 then 48 + d else 87 + d)

/-- The value of a hexadecimal digit in either case. -/
def hexValue (c : UInt8) : Option ℕ :=
  if 48 ≤ c ∧ c ≤ 57 then some (c.toNat - 48)
  else if 97 ≤ c ∧ c ≤ 102 then some (c.toNat - 87)
  else if 65 ≤ c ∧ c ≤ 70 then some (c.toNat - 55)
  else none

theorem hexValue_hexDigit : ∀ {d : ℕ}, d < 16 → hexValue (hexDigit d) = some d := by
  decide

/-- Two bytes of an address. -/
abbrev Group : Type := UInt8 × UInt8

/-- The digits of a group, without leading zeros. -/
def groupDigits (g : Group) : List ℕ :=
  [g.1.toNat / 16, g.1.toNat % 16, g.2.toNat / 16].dropWhile (· = 0) ++ [g.2.toNat % 16]

def groupText (g : Group) : List UInt8 := (groupDigits g).map hexDigit

/-- One more hexadecimal digit at the end. -/
def hexStep (n : ℕ) (c : UInt8) : Option ℕ := (hexValue c).map (16 * n + ·)

/-- At most four digits. -/
def parseGroup (part : List UInt8) : Option Group :=
  if part = [] ∨ 4 < part.length then none
  else (part.foldlM hexStep 0).map fun n => (UInt8.ofNat (n / 256), UInt8.ofNat (n % 256))

theorem foldlM_hexStep {ds : List ℕ} (h : ∀ d ∈ ds, d < 16) (n : ℕ) :
    (ds.map hexDigit).foldlM hexStep n = some (ds.foldl (16 * · + ·) n) := by
  induction ds generalizing n with
  | nil => rfl
  | cons d ds ih =>
    rw [List.forall_mem_cons] at h
    rw [List.map_cons, List.foldlM_cons, hexStep, hexValue_hexDigit h.1]
    exact ih h.2 _

/-- Leading zeros do not count. -/
theorem foldl_dropWhile_zero (ds : List ℕ) :
    (ds.dropWhile (· = 0)).foldl (16 * · + ·) 0 = ds.foldl (16 * · + ·) 0 := by
  induction ds with
  | nil => rfl
  | cons d ds ih =>
    by_cases hd : d = 0
    · rw [List.dropWhile_cons_of_pos (by simpa using hd), ih, hd]
      rfl
    · rw [List.dropWhile_cons_of_neg (by simpa using hd)]

theorem lt_of_mem_groupDigits (g : Group) : ∀ d ∈ groupDigits g, d < 16 := by
  have hfst := g.1.toNat_lt
  have hsnd := g.2.toNat_lt
  intro d hd
  rcases List.mem_append.mp hd with hd | hd
  · have hmem := (List.dropWhile_sublist _).mem hd
    simp only [List.mem_cons, List.not_mem_nil, or_false] at hmem
    omega
  · rw [List.mem_singleton.mp hd]
    omega

theorem parseGroup_groupText (g : Group) : parseGroup (groupText g) = some g := by
  have hlength : (groupText g).length ≤ 4 := by
    rw [groupText, List.length_map, groupDigits, List.length_append]
    exact Nat.add_le_add_right ((List.dropWhile_sublist _).length_le) 1
  have hne : groupText g ≠ [] := by simp [groupText, groupDigits]
  have hvalue : (groupDigits g).foldl (16 * · + ·) 0 = 256 * g.1.toNat + g.2.toNat := by
    rw [groupDigits, List.foldl_append, foldl_dropWhile_zero]
    change 16 * (16 * (16 * (16 * 0 + g.1.toNat / 16) + g.1.toNat % 16) + g.2.toNat / 16) +
      g.2.toNat % 16 = _
    omega
  have hsnd := g.2.toNat_lt
  rw [parseGroup, if_neg (not_or_intro hne (Nat.not_lt.mpr hlength)), groupText,
    foldlM_hexStep (lt_of_mem_groupDigits g), hvalue, Option.map_some]
  refine congrArg some (Prod.ext ?_ ?_)
  · rw [show (256 * g.1.toNat + g.2.toNat) / 256 = g.1.toNat by omega, UInt8.ofNat_toNat]
  · rw [show (256 * g.1.toNat + g.2.toNat) % 256 = g.2.toNat by omega, UInt8.ofNat_toNat]

def groups : List UInt8 → List Group
  | hi :: lo :: ip => (hi, lo) :: groups ip
  | _ => []

def bytes (gs : List Group) : List UInt8 := gs.flatMap fun g => [g.1, g.2]

theorem bytes_groups {n : ℕ} : ∀ {ip : List UInt8}, ip.length = 2 * n →
    bytes (groups ip) = ip ∧ (groups ip).length = n := by
  induction n with
  | zero =>
    intro ip h
    rw [List.eq_nil_of_length_eq_zero h]
    exact ⟨rfl, rfl⟩
  | succ n ih =>
    rintro (_ | ⟨hi, _ | ⟨lo, ip⟩⟩) h
    · cases h
    · rw [List.length_singleton] at h
      omega
    · have hrest : ip.length = 2 * n := by
        simp only [List.length_cons] at h
        omega
      obtain ⟨hbytes, hlength⟩ := ih hrest
      refine ⟨?_, ?_⟩
      · change hi :: lo :: bytes (groups ip) = _
        rw [hbytes]
      · rw [groups, List.length_cons, hlength]

/-- Where the first longest run of at least two zero groups starts, and its length. -/
def zeroRun (gs : List Group) : ℕ × ℕ :=
  (List.range gs.length).foldl (fun best i =>
    let n := ((gs.drop i).takeWhile (· = (0, 0))).length
    if 2 ≤ n ∧ best.2 < n then (i, n) else best) (0, 0)

theorem zeroRun_spec (gs : List Group) :
    gs.take (zeroRun gs).1 ++ List.replicate (zeroRun gs).2 (0, 0) ++
      gs.drop ((zeroRun gs).1 + (zeroRun gs).2) = gs := by
  refine List.foldlRecOn (motive := fun best : ℕ × ℕ =>
    gs.take best.1 ++ List.replicate best.2 (0, 0) ++ gs.drop (best.1 + best.2) = gs) _ _ (by simp)
    fun best hbest i _ => ?_
  simp only
  split
  · set run := (gs.drop i).takeWhile (· = (0, 0)) with hrun
    have hzeros : run = List.replicate run.length (0, 0) :=
      List.eq_replicate_of_mem fun g hg => by simpa using List.mem_takeWhile_imp hg
    have hrest : gs.drop (i + run.length) = (gs.drop i).dropWhile (· = (0, 0)) := by
      conv_lhs => rw [← List.drop_drop, ← List.takeWhile_append_dropWhile (l := gs.drop i)
        (p := (· = (0, 0)))]
      rw [← hrun, List.drop_left]
    rw [hrest, ← hzeros, List.append_assoc, hrun, List.takeWhile_append_dropWhile,
      List.take_append_drop]
  · exact hbest

/-- The parts on one side of a run that is left out. -/
def side (gs : List Group) : List (List UInt8) :=
  if gs = [] then [[]] else gs.map groupText

def v6Parts (gs : List Group) : List (List UInt8) :=
  if (zeroRun gs).2 = 0 then gs.map groupText
  else side (gs.take (zeroRun gs).1) ++ [] :: side (gs.drop ((zeroRun gs).1 + (zeroRun gs).2))

def v6Text (ip : List UInt8) : List UInt8 := [0x3a].intercalate (v6Parts (groups ip))

/-- Groups with a run of at least one zero group left out. -/
def parseShortened (parts : List (List UInt8)) : Option (List Group) :=
  let before := parts.takeWhile (· ≠ [])
  let after := parts.drop (if before = [] then 2 else before.length + 1)
  if (before = [] ∧ parts[1]? ≠ some []) ∨ after = [] then none
  else do
    let left ← before.mapM parseGroup
    let right ← (if after = [[]] then [] else after).mapM parseGroup
    if left.length + right.length < 8 then
      some (left ++ List.replicate (8 - (left.length + right.length)) (0, 0) ++ right)
    else none

/-- The last part may be an IPv4 address in place of two groups. -/
def expandV4 (parts : List (List UInt8)) : List (List UInt8) :=
  match parts.getLast?.bind parseV4 with
  | some ip4 => parts.dropLast ++ (groups ip4).map groupText
  | none => parts

def parseV6 (text : List UInt8) : Option (List UInt8) :=
  let parts := expandV4 (text.splitOn 0x3a)
  if [] ∈ parts then (parseShortened parts).map bytes
  else if parts.length = 8 then (parts.mapM parseGroup).map bytes
  else none

section RoundTrip

variable {gs : List Group}

theorem groupText_ne_nil (g : Group) : groupText g ≠ [] := by
  simp [groupText, groupDigits]

theorem mapM_parseGroup (gs : List Group) : (gs.map groupText).mapM parseGroup = some gs :=
  mapM_map_eq_some fun g _ => parseGroup_groupText g

theorem side_ne_nil (gs : List Group) : side gs ≠ [] := by
  rw [side]
  split_ifs with h
  · exact List.cons_ne_nil _ _
  · exact fun hnil => h (List.map_eq_nil_iff.mp hnil)

/-- A part is empty or the text of a group. -/
theorem mem_v6Parts {part : List UInt8} (h : part ∈ v6Parts gs) :
    part = [] ∨ ∃ g, part = groupText g := by
  have hmap : ∀ {gs' : List Group}, part ∈ gs'.map groupText → ∃ g, part = groupText g := by
    intro gs' hpart
    obtain ⟨g, -, rfl⟩ := List.mem_map.mp hpart
    exact ⟨g, rfl⟩
  have hside : ∀ {gs' : List Group}, part ∈ side gs' → part = [] ∨ ∃ g, part = groupText g := by
    intro gs' hpart
    rw [side] at hpart
    split_ifs at hpart
    · exact .inl (List.mem_singleton.mp hpart)
    · exact .inr (hmap hpart)
  rw [v6Parts] at h
  split at h
  · exact .inr (hmap h)
  · rcases List.mem_append.mp h with h | h
    · exact hside h
    · exact (List.mem_cons.mp h).elim .inl hside

theorem one_lt_length_v6Parts (h : gs.length = 8) : 1 < (v6Parts gs).length := by
  rw [v6Parts]
  split
  · rw [List.length_map, h]
    decide
  · rw [List.length_append, List.length_cons]
    have := List.length_pos_of_ne_nil (side_ne_nil (gs.take (zeroRun gs).1))
    omega

theorem hexValue_of_mem_groupText {g : Group} {c : UInt8} (h : c ∈ groupText g) :
    hexValue c ≠ none := by
  obtain ⟨d, hd, rfl⟩ := List.mem_map.mp h
  rw [hexValue_hexDigit (lt_of_mem_groupDigits g d hd)]
  exact Option.some_ne_none d

/-- What can be read back of a text that leaves out a run between two lists of groups. -/
theorem parseShortened_sides {left right : List Group} (h : left.length + right.length < 8) :
    parseShortened (side left ++ [] :: side right) =
      some (left ++ List.replicate (8 - (left.length + right.length)) (0, 0) ++ right) := by
  have hright : (if side right = [[]] then [] else side right).mapM parseGroup = some right := by
    by_cases hnil : right = []
    · rw [side, if_pos hnil, if_pos rfl, hnil]
      rfl
    · have hne : right.map groupText ≠ [[]] := by
        intro hempty
        obtain ⟨g, gs, rfl⟩ := List.exists_cons_of_ne_nil hnil
        exact groupText_ne_nil g (List.cons.inj hempty).1
      rw [side, if_neg hnil, if_neg hne]
      exact mapM_parseGroup right
  by_cases hnil : left = []
  · have hparts : side left ++ [] :: side right = [] :: [] :: side right := by
      rw [side, if_pos hnil]
      rfl
    rw [hparts, hnil]
    rw [hnil, List.length_nil, Nat.zero_add] at h
    simp [parseShortened, side_ne_nil, hright, h]
  · have hbefore : (side left ++ [] :: side right).takeWhile (· ≠ []) = left.map groupText := by
      rw [side, if_neg hnil, List.takeWhile_append_of_pos]
      · simp
      · intro part hpart
        obtain ⟨g, -, rfl⟩ := List.mem_map.mp hpart
        exact decide_eq_true (groupText_ne_nil g)
    have hne : left.map groupText ≠ [] := fun h => hnil (List.map_eq_nil_iff.mp h)
    have hafter : (side left ++ [] :: side right).drop ((left.map groupText).length + 1) =
        side right := by
      rw [side, if_neg hnil, ← List.drop_drop, List.drop_left]
      rfl
    simp only [parseShortened, hbefore, hne, if_false, hafter, false_and, false_or,
      side_ne_nil right, mapM_parseGroup, hright]
    exact if_pos h

end RoundTrip

theorem splitOn_v6Text {ip : List UInt8} (h : ip.length = 16) :
    (v6Text ip).splitOn 0x3a = v6Parts (groups ip) ∧ 1 < (v6Parts (groups ip)).length := by
  have hlength := one_lt_length_v6Parts (bytes_groups (n := 8) h).2
  refine ⟨List.splitOn_intercalate _ (fun part hpart hcolon => ?_) ?_, hlength⟩
  · rcases mem_v6Parts hpart with rfl | ⟨g, rfl⟩
    · exact List.not_mem_nil hcolon
    · exact hexValue_of_mem_groupText hcolon rfl
  · exact List.ne_nil_of_length_pos (Nat.zero_lt_of_lt hlength)

theorem parseV6_v6Text {ip : List UInt8} (h : ip.length = 16) : parseV6 (v6Text ip) = some ip := by
  obtain ⟨hbytes, hlength⟩ := bytes_groups (n := 8) h
  have hexpand : expandV4 (v6Parts (groups ip)) = v6Parts (groups ip) := by
    have hnone : (v6Parts (groups ip)).getLast?.bind parseV4 = none := by
      refine Option.bind_eq_none_iff.mpr fun part hpart => parseV4_eq_none fun hpoint => ?_
      rcases mem_v6Parts (List.mem_of_getLast? hpart) with rfl | ⟨g, rfl⟩
      · exact List.not_mem_nil hpoint
      · exact hexValue_of_mem_groupText hpoint rfl
    rw [expandV4, hnone]
  have hspec := zeroRun_spec (groups ip)
  have hcount := congrArg List.length hspec
  simp only [parseV6, (splitOn_v6Text h).1, hexpand]
  rw [v6Parts]
  split
  case isTrue hn =>
    have hne : [] ∉ (groups ip).map groupText := by
      intro hmem
      obtain ⟨g, -, hg⟩ := List.mem_map.mp hmem
      exact groupText_ne_nil g hg
    rw [if_neg hne, if_pos (by rw [List.length_map, hlength]), mapM_parseGroup, Option.map_some,
      hbytes]
  case isFalse hn =>
    rw [List.length_append, List.length_append, List.length_replicate, hlength] at hcount
    have hrun : 8 - (((groups ip).take (zeroRun (groups ip)).1).length +
        ((groups ip).drop ((zeroRun (groups ip)).1 + (zeroRun (groups ip)).2)).length) =
          (zeroRun (groups ip)).2 := by omega
    rw [if_pos (by simp), parseShortened_sides (by omega), Option.map_some, hrun, hspec, hbytes]

/-! ### Both -/

/-- The bytes of which addresses are written. -/
def isAddressByte (c : UInt8) : Bool :=
  (hexValue c).isSome || c = 0x2e || c = 0x3a

/-- The sixteen bytes of an address, given the bytes before those of an IPv4 address. -/
def parseIP (v4InV6 text : List UInt8) : Option (List UInt8) :=
  if text.all isAddressByte then
    if 0x3a ∈ text then parseV6 text else (parseV4 text).map (v4InV6 ++ ·)
  else none

theorem isAddressByte_of_parseIP {v4InV6 text ip : List UInt8}
    (h : parseIP v4InV6 text = some ip) : ∀ c ∈ text, isAddressByte c = true := by
  rw [parseIP] at h
  split at h
  case isTrue hall => exact List.all_eq_true.mp hall
  case isFalse => cases h

theorem parseIP_v4Text (v4InV6 : List UInt8) {ip : List UInt8} (h : ip.length = 4) :
    parseIP v4InV6 (v4Text ip) = some (v4InV6 ++ ip) := by
  have hall : (v4Text ip).all isAddressByte = true := by
    refine List.all_eq_true.mpr (forall_mem_intercalate (by decide) fun part hpart c hc => ?_)
    obtain ⟨b, -, rfl⟩ := List.mem_map.mp hpart
    rw [isAddressByte, hexValue, if_pos (digit_of_mem_decimal _ c hc)]
    rfl
  have hcolon : 0x3a ∉ v4Text ip := by
    intro hmem
    refine forall_mem_intercalate (P := (· ≠ 0x3a)) (by decide) (fun part hpart c hc => ?_) _ hmem
      rfl
    obtain ⟨b, -, rfl⟩ := List.mem_map.mp hpart
    rintro rfl
    exact ne_of_mem_decimal (.inr (by decide)) hc
  rw [parseIP, if_pos hall, if_neg hcolon, parseV4_v4Text h, Option.map_some]

theorem parseIP_v6Text (v4InV6 : List UInt8) {ip : List UInt8} (h : ip.length = 16) :
    parseIP v4InV6 (v6Text ip) = some ip := by
  have hall : (v6Text ip).all isAddressByte = true := by
    refine List.all_eq_true.mpr (forall_mem_intercalate (by decide) fun part hpart c hc => ?_)
    rcases mem_v6Parts hpart with rfl | ⟨g, rfl⟩
    · exact absurd hc List.not_mem_nil
    · rw [isAddressByte, Option.isSome_iff_ne_none.mpr (hexValue_of_mem_groupText hc)]
      rfl
  have hcolon : 0x3a ∈ v6Text ip := by
    by_contra hnot
    obtain ⟨hsplit, hlength⟩ := splitOn_v6Text h
    rw [← hsplit, splitOn_of_notMem _ hnot] at hlength
    exact absurd hlength (by simp)
  rw [parseIP, if_pos hall, if_pos hcolon, parseV6_v6Text h]

end Tox.Foundation
