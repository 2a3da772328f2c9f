import Tox.Foundation.Decoder
import Tox.Vless.Protocol

/-!
# The bytes and the buffers of a VLESS header

`ReadRequest` and `readAddons` once more, as decoders of the stream of a connection: what they have
read is gone also when they fail, and every buffer that `readAddons` makes is recorded together with
the number of bytes of the addons that have not been read then.

The decoders read no more than the header, whether they succeed or not
(`readRequest_within_header`). The buffers are another matter. `readAddons` makes a buffer of the
length that a field announces before it looks how much is left, so that a field may announce any
length up to `2 ^ 64`. The buffers are within what is left, and making them does not panic, exactly
if no field announces more than what is left (`Overlong`).
-/

namespace Tox.Vless.Stream

open Tox.Foundation

/-- A buffer that `readAddons` has made, and the bytes of the addons that were left. -/
structure Allocation where
  length : ℕ
  unread : ℕ
deriving DecidableEq, Repr

/-- The buffer is no longer than what is left. -/
def Allocation.Fits (a : Allocation) : Prop := a.length ≤ a.unread

instance : DecidablePred Allocation.Fits := fun _ => inferInstanceAs (Decidable (_ ≤ _))

/-- A decoder with the errors of the request and the buffers of its addons. A panic of `make` is the
error `makeslice`. -/
abbrev Parser (α : Type) : Type := Decoder Allocation ReadError α

open Decoder (fail readByte readFull record onBytes)

/-! ### Addons -/

/-- The call `make([]byte, n)`. -/
def makeBytes (n : ℕ) : Parser Unit := do
  record fun unread => ⟨n, unread⟩
  if maxAlloc < n then fail .makeslice else pure ()

/-- A length and as many bytes. -/
def readPrefixed : Parser (List UInt8) := do
  let n ← Decoder.readUvarint.mapError .uvarint
  makeBytes n
  readFull shortRead n

/-- The switch of `readAddons` over the header byte of a field. -/
def readField (addons : Addons) (protoHeader : UInt8) : Parser Addons :=
  if protoHeader = flowHeader then do
    let flowBytes ← readPrefixed
    pure { addons with flow := flowBytes }
  else if protoHeader = seedHeader then do
    let seedBytes ← readPrefixed
    pure { addons with seed := seedBytes }
  else fail (.unknownHeader protoHeader)

/-- One round of the loop of `readAddons`. -/
def readAddon (addons : Addons) : Parser Addons :=
  readByte .eof >>= readField addons

theorem advances_readPrefixed : Decoder.Advances readPrefixed := by
  refine ((Decoder.advances_readUvarintLoop 10 0 0).mapError _).bind fun n => ?_
  refine ((Decoder.advances_record _).bind fun _ => ?_).bind fun _ =>
    Decoder.advances_readFull _ n
  split
  · exact Decoder.Advances.fail _
  · exact Decoder.Advances.pure _

theorem advances_readField (addons : Addons) (protoHeader : UInt8) :
    Decoder.Advances (readField addons protoHeader) := by
  rw [readField]
  split
  · exact advances_readPrefixed.bind fun _ => Decoder.Advances.pure _
  · split
    · exact advances_readPrefixed.bind fun _ => Decoder.Advances.pure _
    · exact Decoder.Advances.fail _

/-- Every round reads at least the header byte. -/
theorem length_lt_of_readAddon (addons : Addons) {cur : Cursor Allocation}
    (h : cur.unread ≠ []) : (readAddon addons cur).2.unread.length < cur.unread.length := by
  obtain ⟨_ | ⟨protoHeader, input⟩, log⟩ := cur
  · exact absurd rfl h
  · exact Nat.lt_succ_of_le (advances_readField addons protoHeader ⟨input, log⟩).length_le

/-- The loop of `readAddons`, from the fields read so far. -/
def readAddonsLoop (addons : Addons) (cur : Cursor Allocation) :
    Except ReadError Addons × Cursor Allocation :=
  if h : cur.unread = [] then (.ok addons, cur)
  else
    match hround : readAddon addons cur with
    | (.error err, cur') => (.error err, cur')
    | (.ok addons', cur') =>
      have := hround ▸ length_lt_of_readAddon addons h
      readAddonsLoop addons' cur'
termination_by cur.unread.length

def readAddons : Parser Addons := readAddonsLoop {}

/-! ### Overlong fields -/

/-- A header byte that announces a field. -/
def IsFieldHeader (protoHeader : UInt8) : Prop :=
  protoHeader = flowHeader ∨ protoHeader = seedHeader

/-- Among the fields that are read one after the other, there is one that announces more bytes than
are left, or more than the runtime allocates. -/
inductive Overlong : List UInt8 → Prop
  | here {protoHeader : UInt8} {input tail : List UInt8} {n : ℕ}
      (hheader : IsFieldHeader protoHeader) (hn : readUvarint.run input = .ok (n, tail))
      (hlong : tail.length < n ∨ maxAlloc < n) : Overlong (protoHeader :: input)
  | later {protoHeader : UInt8} {input tail : List UInt8} {n : ℕ}
      (hheader : IsFieldHeader protoHeader) (hn : readUvarint.run input = .ok (n, tail))
      (hrest : Overlong (tail.drop n)) : Overlong (protoHeader :: input)

/-- The decoder has not panicked, and all buffers fit. -/
def Safe {α : Type} (out : Except ReadError α × Cursor Allocation) : Prop :=
  out.1 ≠ .error .makeslice ∧ ∀ a ∈ out.2.log, a.Fits

section Round

variable {protoHeader : UInt8} {input tail : List UInt8} {n : ℕ} {log : List Allocation}

theorem makeBytes_of_lt (h : maxAlloc < n) (cur : Cursor Allocation) :
    makeBytes n cur =
      (.error .makeslice, ⟨cur.unread, cur.log ++ [⟨n, cur.unread.length⟩]⟩) := by
  rw [makeBytes, if_pos h]
  rfl

theorem makeBytes_of_not_lt (h : ¬ maxAlloc < n) (cur : Cursor Allocation) :
    makeBytes n cur = (.ok (), ⟨cur.unread, cur.log ++ [⟨n, cur.unread.length⟩]⟩) := by
  rw [makeBytes, if_neg h]
  rfl

theorem readUvarint_of_ok (hn : readUvarint.run input = .ok (n, tail)) :
    (Decoder.readUvarint.mapError .uvarint : Parser ℕ) ⟨input, log⟩ = (.ok n, ⟨tail, log⟩) := by
  have huvarint : (Decoder.readUvarint : Decoder Allocation UvarintError ℕ) ⟨input, log⟩ =
      (.ok n, ⟨tail, log⟩) :=
    (Decoder.refines_readUvarintLoop 10 0 0).eq_of_run_ok
      (Decoder.keepsLog_readUvarintLoop 10 0 0) hn
  rw [Decoder.mapError, huvarint]
  rfl

theorem readPrefixed_of_error {err : UvarintError} (hn : readUvarint.run input = .error err)
    (log : List Allocation) :
    ∃ rest, readPrefixed ⟨input, log⟩ = (.error (.uvarint err), ⟨rest, log⟩) := by
  obtain ⟨rest, huvarint⟩ : ∃ rest,
      (Decoder.readUvarint : Decoder Allocation UvarintError ℕ) ⟨input, log⟩ =
        (.error err, ⟨rest, log⟩) :=
    (Decoder.refines_readUvarintLoop 10 0 0).exists_of_run_error
      (Decoder.keepsLog_readUvarintLoop 10 0 0) hn
  refine ⟨rest, Decoder.bind_of_error ?_ _⟩
  rw [Decoder.mapError, huvarint]
  rfl

/-- The buffer is made before anything is compared with what is left. -/
theorem readPrefixed_of_ok (hn : readUvarint.run input = .ok (n, tail)) :
    readPrefixed ⟨input, log⟩ =
      if maxAlloc < n then (.error .makeslice, ⟨tail, log ++ [⟨n, tail.length⟩]⟩)
      else readFull shortRead n ⟨tail, log ++ [⟨n, tail.length⟩]⟩ := by
  refine (Decoder.bind_of_ok (readUvarint_of_ok hn) _).trans ?_
  by_cases hmax : maxAlloc < n
  · rw [if_pos hmax]
    exact Decoder.bind_of_error (makeBytes_of_lt hmax _) _
  · rw [if_neg hmax]
    exact Decoder.bind_of_ok (makeBytes_of_not_lt hmax _) _

theorem exists_readField (hheader : IsFieldHeader protoHeader) (addons : Addons) :
    ∃ f : List UInt8 → Addons,
      readField addons protoHeader = readPrefixed >>= fun bs => pure (f bs) := by
  rcases hheader with rfl | rfl
  · exact ⟨fun bs => { addons with flow := bs }, if_pos rfl⟩
  · refine ⟨fun bs => { addons with seed := bs }, ?_⟩
    rw [readField, if_neg (by decide), if_pos rfl]

/-- A round that reads a field goes on behind it. -/
theorem readAddon_of_le (addons : Addons) (log : List Allocation)
    (hheader : IsFieldHeader protoHeader) (hn : readUvarint.run input = .ok (n, tail))
    (hle : n ≤ tail.length) (hmax : n ≤ maxAlloc) :
    ∃ addons', readAddon addons ⟨protoHeader :: input, log⟩ =
      (.ok addons', ⟨tail.drop n, log ++ [⟨n, tail.length⟩]⟩) := by
  obtain ⟨f, hfield⟩ := exists_readField hheader addons
  have hfull : readPrefixed ⟨input, log⟩ =
      (.ok (tail.take n), ⟨tail.drop n, log ++ [⟨n, tail.length⟩]⟩) := by
    rw [readPrefixed_of_ok hn, if_neg (Nat.not_lt.mpr hmax)]
    exact if_pos hle
  refine ⟨f (tail.take n), ?_⟩
  change readField addons protoHeader ⟨input, log⟩ = _
  rw [hfield, Decoder.bind_of_ok hfull]
  rfl

/-- A round that finds an overlong field has made a buffer that does not fit, or has panicked. -/
theorem readAddon_of_overlong (addons : Addons) (log : List Allocation)
    (hheader : IsFieldHeader protoHeader) (hn : readUvarint.run input = .ok (n, tail))
    (hlong : tail.length < n ∨ maxAlloc < n) :
    ∃ err cur, readAddon addons ⟨protoHeader :: input, log⟩ = (.error err, cur) ∧
      ¬ Safe ((.error err : Except ReadError Addons), cur) := by
  obtain ⟨f, hfield⟩ := exists_readField hheader addons
  change ∃ err cur, readField addons protoHeader ⟨input, log⟩ = _ ∧ _
  rw [hfield]
  by_cases hmax : maxAlloc < n
  · have hpanic : readPrefixed ⟨input, log⟩ =
        (.error .makeslice, ⟨tail, log ++ [⟨n, tail.length⟩]⟩) := by
      rw [readPrefixed_of_ok hn, if_pos hmax]
    exact ⟨_, _, Decoder.bind_of_error hpanic _, fun h => h.1 rfl⟩
  · have hshort : tail.length < n := hlong.resolve_right hmax
    have heof : readPrefixed ⟨input, log⟩ =
        (.error (shortRead tail), ⟨[], log ++ [⟨n, tail.length⟩]⟩) := by
      rw [readPrefixed_of_ok hn, if_neg hmax]
      exact if_neg (Nat.not_le.mpr hshort)
    refine ⟨_, _, Decoder.bind_of_error heof _, fun h => ?_⟩
    have hfits : (⟨n, tail.length⟩ : Allocation).Fits := h.2 _ (by simp)
    exact absurd hfits (Nat.not_le.mpr hshort)

/-- A round that finds no length ends the loop without a buffer. -/
theorem readAddon_of_not_field (addons : Addons) (log : List Allocation)
    (h : ¬ (IsFieldHeader protoHeader ∧ ∃ n tail, readUvarint.run input = .ok (n, tail))) :
    ∃ err rest, readAddon addons ⟨protoHeader :: input, log⟩ = (.error err, ⟨rest, log⟩) ∧
      err ≠ .makeslice := by
  change ∃ err rest, readField addons protoHeader ⟨input, log⟩ = _ ∧ _
  by_cases hheader : IsFieldHeader protoHeader
  · rcases hn : readUvarint.run input with err | ⟨n, tail⟩
    · obtain ⟨f, hfield⟩ := exists_readField hheader addons
      obtain ⟨rest, herr⟩ := readPrefixed_of_error hn log
      rw [hfield]
      exact ⟨_, rest, Decoder.bind_of_error herr _, (fun h => by cases h)⟩
    · exact absurd ⟨hheader, n, tail, hn⟩ h
  · obtain ⟨hflow, hseed⟩ := not_or.mp hheader
    refine ⟨.unknownHeader protoHeader, input, ?_, (fun h => by cases h)⟩
    rw [readField, if_neg hflow, if_neg hseed]
    rfl

end Round

theorem not_overlong_nil : ¬ Overlong [] := by
  intro h
  cases h

theorem overlong_cons_iff {protoHeader : UInt8} {input tail : List UInt8} {n : ℕ}
    (hheader : IsFieldHeader protoHeader) (hn : readUvarint.run input = .ok (n, tail)) :
    Overlong (protoHeader :: input) ↔
      (tail.length < n ∨ maxAlloc < n) ∨ Overlong (tail.drop n) := by
  constructor
  · intro h
    cases h with
    | here _ hn' hlong =>
      cases hn.symm.trans hn'
      exact .inl hlong
    | later _ hn' hrest =>
      cases hn.symm.trans hn'
      exact .inr hrest
  · rintro (hlong | hrest)
    · exact .here hheader hn hlong
    · exact .later hheader hn hrest

theorem readAddonsLoop_of_ok {addons addons' : Addons} {cur cur' : Cursor Allocation}
    (hne : cur.unread ≠ []) (h : readAddon addons cur = (.ok addons', cur')) :
    readAddonsLoop addons cur = readAddonsLoop addons' cur' := by
  rw [readAddonsLoop, dif_neg hne]
  split
  case h_1 err cur'' herr => cases h.symm.trans herr
  case h_2 addons'' cur'' hok =>
    cases h.symm.trans hok
    rfl

theorem readAddonsLoop_of_error {addons : Addons} {cur cur' : Cursor Allocation} {err : ReadError}
    (hne : cur.unread ≠ []) (h : readAddon addons cur = (.error err, cur')) :
    readAddonsLoop addons cur = (.error err, cur') := by
  rw [readAddonsLoop, dif_neg hne]
  split
  case h_1 err' cur'' herr =>
    cases h.symm.trans herr
    rfl
  case h_2 addons'' cur'' hok => cases h.symm.trans hok

/-- The loop is safe exactly if it has been so far and no field that is left is overlong. -/
theorem safe_readAddonsLoop_iff (addons : Addons) (cur : Cursor Allocation) :
    Safe (readAddonsLoop addons cur) ↔ (∀ a ∈ cur.log, a.Fits) ∧ ¬ Overlong cur.unread := by
  induction hlen : cur.unread.length using Nat.strongRecOn generalizing addons cur with
  | ind len ih =>
    obtain ⟨unread, log⟩ := cur
    rcases unread with _ | ⟨protoHeader, input⟩
    · rw [readAddonsLoop, dif_pos rfl, and_iff_left not_overlong_nil]
      exact and_iff_right fun h => by cases h
    have hne : (⟨protoHeader :: input, log⟩ : Cursor Allocation).unread ≠ [] :=
      List.cons_ne_nil _ _
    by_cases hfield : IsFieldHeader protoHeader ∧ ∃ n tail, readUvarint.run input = .ok (n, tail)
    · obtain ⟨hheader, n, tail, hn⟩ := hfield
      by_cases hlong : tail.length < n ∨ maxAlloc < n
      · obtain ⟨err, cur', hround, hunsafe⟩ :=
          readAddon_of_overlong addons log hheader hn hlong
        rw [readAddonsLoop_of_error hne hround]
        exact iff_of_false hunsafe fun h => h.2 (.here hheader hn hlong)
      · obtain ⟨hle, hmax⟩ := not_or.mp hlong
        have hfits : (⟨n, tail.length⟩ : Allocation).Fits := Nat.le_of_not_lt hle
        obtain ⟨addons', hround⟩ := readAddon_of_le addons log hheader hn hfits
          (Nat.le_of_not_lt hmax)
        have hlt := length_lt_of_readAddon addons hne
        rw [hround, hlen] at hlt
        rw [readAddonsLoop_of_ok hne hround, ih _ hlt _ _ rfl, overlong_cons_iff hheader hn,
          or_iff_right hlong, List.forall_mem_append, List.forall_mem_singleton,
          and_iff_left hfits]
    · obtain ⟨err, rest, hround, herr⟩ :=
        readAddon_of_not_field addons log hfield
      rw [readAddonsLoop_of_error hne hround]
      have hnot : ¬ Overlong (protoHeader :: input) := by
        intro h
        cases h with
        | here hheader hn _ => exact hfield ⟨hheader, _, _, hn⟩
        | later hheader hn _ => exact hfield ⟨hheader, _, _, hn⟩
      rw [and_iff_left hnot]
      exact and_iff_right fun h => herr (Except.error.inj h)

/-! ### The request -/

def readVersion : Parser Bool := do
  let v ← readByte .eof
  if v = versionPrivate then pure true
  else if v ≠ version then fail (.unknownVersion v)
  else pure false

def readUUID : Parser UUID := do
  let bs ← readFull shortRead 16
  pure fun i => bs.getD i 0

def readFlow (addonsLen : UInt8) : Parser (List UInt8) :=
  if 0 < addonsLen then do
    let addonsBytes ← readFull shortRead addonsLen.toNat
    let addons ← onBytes addonsBytes readAddons
    pure addons.flow
  else pure []

/-- The reader of addresses: an address or an error, and what is then left of the stream. -/
structure AddressReader (Addr : Type) where
  readAddrPort : List UInt8 → Except String Addr × List UInt8
  suffix : ∀ input, (readAddrPort input).2 <:+ input

variable {Addr : Type} (reader : AddressReader Addr)

/-- The call of the reader of addresses on the stream. -/
def readAddress : Parser Addr := fun cur =>
  ((reader.readAddrPort cur.unread).1.mapError .address,
    ⟨(reader.readAddrPort cur.unread).2, cur.log⟩)

def readDestination [Inhabited Addr] (command : UInt8) : Parser Addr :=
  if command ≠ commandMux then readAddress reader else pure default

/-- `ReadRequest` from the command on. -/
def readEnd [Inhabited Addr] (isPrivate : Bool) (uuid : UUID) (flow : List UInt8) :
    Parser (Request Addr) := do
  let command ← readByte .eof
  let destination ← readDestination reader command
  pure
    { uuid := if isPrivate then xorPrivateKey uuid else uuid
      command := command
      destination := destination
      flow := flow
      isPrivate := isPrivate }

def readRequest [Inhabited Addr] : Parser (Request Addr) := do
  let isPrivate ← readVersion
  let uuid ← readUUID
  let addonsLen ← readByte .eof
  let flow ← readFlow addonsLen
  readEnd reader isPrivate uuid flow

/-! ### The plain readers -/

section Plain

variable [Inhabited Addr]

theorem refines_readPrefixed : Decoder.Refines readPrefixed Vless.readPrefixed := by
  refine ((Decoder.refines_readUvarintLoop 10 0 0).mapError _).bind fun n => ?_
  intro cur
  by_cases hmax : maxAlloc < n
  · rw [if_pos hmax, Decoder.bind_of_error (makeBytes_of_lt hmax cur)]
    rfl
  · rw [if_neg hmax, Decoder.bind_of_ok (makeBytes_of_not_lt hmax cur)]
    exact Decoder.refines_readFull _ n ⟨cur.unread, cur.log ++ [⟨n, cur.unread.length⟩]⟩

theorem refines_readAddon (addons : Addons) :
    Decoder.Refines (readAddon addons) (Vless.readAddon addons) := by
  refine (Decoder.refines_readByte _).bind fun protoHeader => ?_
  rw [readField, Vless.readField]
  split
  · exact refines_readPrefixed.bind fun _ => Decoder.Refines.pure _
  · split
    · exact refines_readPrefixed.bind fun _ => Decoder.Refines.pure _
    · exact Decoder.Refines.fail _

theorem fst_readAddonsLoop (addons : Addons) (cur : Cursor Allocation) :
    (readAddonsLoop addons cur).1 = Vless.readAddonsLoop addons cur.unread := by
  fun_induction readAddonsLoop addons cur with
  | case1 addons cur hnil => rw [Vless.readAddonsLoop, if_pos hnil]
  | case2 addons cur hne err cur' hround =>
    have hplain := (refines_readAddon addons).run_of_error hround
    rw [Vless.readAddonsLoop, if_neg hne]
    split
    case h_1 err' herr => exact congrArg _ (Except.error.inj (hplain.symm.trans herr))
    case h_2 addons'' rest hok => cases hplain.symm.trans hok
  | case3 addons cur hne addons' cur' hround hlt ih =>
    have hplain := (refines_readAddon addons).run_of_ok hround
    rw [ih]
    conv_rhs => rw [Vless.readAddonsLoop, if_neg hne]
    split
    case h_1 err' herr => cases hplain.symm.trans herr
    case h_2 addons'' rest hok =>
      cases hplain.symm.trans hok
      rfl

theorem refines_readVersion : Decoder.Refines readVersion Vless.readVersion := by
  refine (Decoder.refines_readByte _).bind fun v => ?_
  split
  · exact Decoder.Refines.pure _
  · split
    · exact Decoder.Refines.fail _
    · exact Decoder.Refines.pure _

theorem refines_readFlow (addonsLen : UInt8) :
    Decoder.Refines (readFlow addonsLen) (Vless.readFlow addonsLen) := by
  rw [readFlow, Vless.readFlow]
  split
  · refine (Decoder.refines_readFull _ _).bind fun addonsBytes => ?_
    refine Decoder.Refines.bind ?_ fun _ => Decoder.Refines.pure _
    intro cur
    have hfst := fst_readAddonsLoop {} ⟨addonsBytes, cur.log⟩
    change (StateT.lift (Vless.readAddonsLoop {} addonsBytes)).run cur.unread = _
    rw [← hfst]
    change _ = (readAddonsLoop {} ⟨addonsBytes, cur.log⟩).1.map fun addons => (addons, cur.unread)
    rcases (readAddonsLoop {} ⟨addonsBytes, cur.log⟩).1 with err | addons
    · rfl
    · rfl
  · exact Decoder.Refines.pure _

/-- The decoder is `readRequest` of `Tox.Vless.Protocol`, if the readers of addresses agree. -/
theorem refines_readRequest {serializer : AddressSerializer Addr}
    (haddress : ∀ input, serializer.readAddrPort.run input =
      (reader.readAddrPort input).1.map fun addr => (addr, (reader.readAddrPort input).2)) :
    Decoder.Refines (readRequest reader) (Vless.readRequest serializer) := by
  have hdestination (command : UInt8) :
      Decoder.Refines (readDestination reader command)
        (Vless.readDestination serializer command) := by
    rw [readDestination, Vless.readDestination]
    split
    · intro cur
      change (serializer.readAddrPort.run cur.unread).mapError ReadError.address =
        ((reader.readAddrPort cur.unread).1.mapError ReadError.address).map fun addr =>
          (addr, (reader.readAddrPort cur.unread).2)
      rw [haddress]
      rcases (reader.readAddrPort cur.unread).1 with err | addr
      · rfl
      · rfl
    · exact Decoder.Refines.pure _
  refine refines_readVersion.bind fun isPrivate => ?_
  refine ((Decoder.refines_readFull _ 16).bind fun bs => Decoder.Refines.pure _).bind fun uuid => ?_
  refine (Decoder.refines_readByte _).bind fun addonsLen => ?_
  refine (refines_readFlow addonsLen).bind fun flow => ?_
  refine (Decoder.refines_readByte _).bind fun command => ?_
  exact (hdestination command).bind fun destination => Decoder.Refines.pure _

end Plain

/-! ### The parts of the header -/

/-- The stream starts with a known version and a UUID and goes on with the length of the addons. -/
def Opened (bs : List UInt8) (addonsLen : UInt8) (rest : List UInt8) : Prop :=
  ∃ v uuid, (v = version ∨ v = versionPrivate) ∧ uuid.length = 16 ∧
    bs = v :: (uuid ++ addonsLen :: rest)

section Parts

variable [Inhabited Addr] {bs rest block : List UInt8} {addonsLen : UInt8} {log : List Allocation}

theorem Opened.drop_eq (h : Opened bs addonsLen rest) : bs.drop 17 = addonsLen :: rest := by
  obtain ⟨v, uuid, -, huuid, rfl⟩ := h
  rw [List.drop_succ_cons, ← huuid, List.drop_left]

theorem Opened.getD_eq (h : Opened bs addonsLen rest) : bs.getD 17 0 = addonsLen := by
  have hdrop := congrArg (fun l => l.getD 0 0) h.drop_eq
  simpa [List.getD_eq_getElem?_getD] using hdrop

theorem Opened.length_eq (h : Opened bs addonsLen rest) : bs.length = 18 + rest.length := by
  obtain ⟨v, uuid, -, huuid, rfl⟩ := h
  simp only [List.length_cons, List.length_append, huuid]
  omega

theorem Opened.suffix (h : Opened bs addonsLen rest) : rest <:+ bs := by
  have hsuffix := List.drop_suffix 17 bs
  rw [h.drop_eq] at hsuffix
  exact (List.suffix_cons _ _).trans hsuffix

theorem readVersion_of_known {v : UInt8} (hv : v = version ∨ v = versionPrivate)
    (rest : List UInt8) (log : List Allocation) :
    ∃ isPrivate, readVersion ⟨v :: rest, log⟩ = (.ok isPrivate, ⟨rest, log⟩) := by
  rcases hv with rfl | rfl
  · exact ⟨false, rfl⟩
  · exact ⟨true, rfl⟩

theorem readVersion_of_unknown {v : UInt8} (hv : ¬ (v = version ∨ v = versionPrivate)) :
    readVersion ⟨v :: rest, log⟩ = (.error (.unknownVersion v), ⟨rest, log⟩) := by
  obtain ⟨hpublic, hprivate⟩ := not_or.mp hv
  refine (Decoder.bind_of_ok (a := v) rfl _).trans ?_
  rw [if_neg hprivate, if_pos hpublic]
  rfl

theorem readUUID_of_le (h : 16 ≤ rest.length) (log : List Allocation) :
    ∃ uuid, readUUID ⟨rest, log⟩ = (.ok uuid, ⟨rest.drop 16, log⟩) :=
  ⟨_, Decoder.bind_of_ok (if_pos h) _⟩

theorem readUUID_of_lt (h : rest.length < 16) :
    readUUID ⟨rest, log⟩ = (.error (shortRead rest), ⟨[], log⟩) :=
  Decoder.bind_of_error (if_neg (Nat.not_le.mpr h)) _

theorem readRequest_of_opened (h : Opened bs addonsLen rest) (log : List Allocation) :
    ∃ isPrivate uuid, readRequest reader ⟨bs, log⟩ =
      (readFlow addonsLen >>= readEnd reader isPrivate uuid) ⟨rest, log⟩ := by
  obtain ⟨v, bytes, hv, hlength, rfl⟩ := h
  have hdrop : (bytes ++ addonsLen :: rest).drop 16 = addonsLen :: rest := by
    rw [← hlength, List.drop_left]
  have hle : 16 ≤ (bytes ++ addonsLen :: rest).length := by
    rw [List.length_append, hlength]
    exact Nat.le_add_right 16 _
  obtain ⟨isPrivate, hversion⟩ := readVersion_of_known hv (bytes ++ addonsLen :: rest) log
  obtain ⟨uuid, huuid⟩ := readUUID_of_le hle log
  rw [hdrop] at huuid
  refine ⟨isPrivate, uuid, ?_⟩
  rw [readRequest, Decoder.bind_of_ok hversion, Decoder.bind_of_ok huuid]
  exact Decoder.bind_of_ok rfl _

/-- Without the length of the addons the decoder stops before the addons. -/
theorem readRequest_of_not_opened (h : ∀ addonsLen rest, ¬ Opened bs addonsLen rest)
    (log : List Allocation) :
    ∃ err rest, readRequest reader ⟨bs, log⟩ = (.error err, ⟨rest, log⟩) ∧ err ≠ .makeslice ∧
      rest <:+ bs ∧ bs.length ≤ 18 + rest.length := by
  rcases bs with _ | ⟨v, bs⟩
  · exact ⟨.eof, [], rfl, (fun h => by cases h), List.suffix_refl _, by simp⟩
  by_cases hv : v = version ∨ v = versionPrivate
  · obtain ⟨isPrivate, hversion⟩ := readVersion_of_known hv bs log
    by_cases hlength : 16 ≤ bs.length
    · obtain ⟨uuid, huuid⟩ := readUUID_of_le hlength log
      rcases hdrop : bs.drop 16 with _ | ⟨addonsLen, rest⟩
      · have hlen : bs.length ≤ 16 := List.drop_eq_nil_iff.mp hdrop
        rw [hdrop] at huuid
        refine ⟨.eof, [], ?_, (fun h => by cases h), List.nil_suffix, ?_⟩
        · rw [readRequest, Decoder.bind_of_ok hversion, Decoder.bind_of_ok huuid]
          exact Decoder.bind_of_error rfl _
        · rw [List.length_cons]
          omega
      · refine absurd ⟨v, bs.take 16, hv, ?_, ?_⟩ (h addonsLen rest)
        · rw [List.length_take, Nat.min_eq_left hlength]
        · rw [← hdrop, List.take_append_drop]
    · have hlt : bs.length < 16 := Nat.lt_of_not_le hlength
      refine ⟨_, [], ?_, shortRead_ne_makeslice bs, List.nil_suffix, ?_⟩
      · rw [readRequest, Decoder.bind_of_ok hversion]
        exact Decoder.bind_of_error (readUUID_of_lt hlt) _
      · rw [List.length_cons]
        omega
  · refine ⟨_, bs, Decoder.bind_of_error (readVersion_of_unknown hv) _, (fun h => by cases h),
      List.suffix_cons v bs, ?_⟩
    rw [List.length_cons]
    omega

theorem readFlow_of_lt (h : rest.length < addonsLen.toNat) (log : List Allocation) :
    readFlow addonsLen ⟨rest, log⟩ = (.error (shortRead rest), ⟨[], log⟩) := by
  have hpos : 0 < addonsLen := UInt8.lt_iff_toNat_lt.mpr (Nat.zero_lt_of_lt h)
  rw [readFlow, if_pos hpos]
  exact Decoder.bind_of_error (if_neg (Nat.not_le.mpr h)) _

/-- The addons are read from their own bytes only. -/
theorem readFlow_of_block (h : addonsLen.toNat = block.length) (rest : List UInt8)
    (log : List Allocation) :
    readFlow addonsLen ⟨block ++ rest, log⟩ =
      ((readAddons ⟨block, log⟩).1.map Addons.flow, ⟨rest, (readAddons ⟨block, log⟩).2.log⟩) := by
  by_cases hpos : 0 < addonsLen
  · have hfull : (readFull shortRead addonsLen.toNat : Parser (List UInt8)) ⟨block ++ rest, log⟩ =
        (.ok block, ⟨rest, log⟩) := by
      rw [Decoder.readFull, h, if_pos (by simp), List.take_left, List.drop_left]
    rw [readFlow, if_pos hpos, Decoder.bind_of_ok hfull]
    rcases hread : readAddons ⟨block, log⟩ with ⟨err | addons, cur⟩
    · have hbytes : onBytes block readAddons ⟨rest, log⟩ = (.error err, ⟨rest, cur.log⟩) := by
        rw [onBytes, hread]
      exact Decoder.bind_of_error hbytes _
    · have hbytes : onBytes block readAddons ⟨rest, log⟩ = (.ok addons, ⟨rest, cur.log⟩) := by
        rw [onBytes, hread]
      exact Decoder.bind_of_ok hbytes _
  · have hzero : addonsLen.toNat = 0 := by
      have hle := UInt8.lt_iff_toNat_lt.not.mp hpos
      exact Nat.le_zero.mp (Nat.le_of_not_lt hle)
    obtain rfl : block = [] := List.eq_nil_of_length_eq_zero (h.symm.trans hzero)
    have hread : readAddons ⟨[], log⟩ = (.ok {}, ⟨[], log⟩) := by
      rw [readAddons, readAddonsLoop, dif_pos rfl]
    rw [readFlow, if_neg hpos, hread]
    rfl

end Parts

/-! ### The length of the header -/

/-- The length of the command and the address at the start of the bytes. -/
def endLength : List UInt8 → ℕ
  | [] => 1
  | command :: bs =>
    1 + if command ≠ commandMux then bs.length - (reader.readAddrPort bs).2.length else 0

/-- The length of the header at the start of a stream, as its length byte and the reader of
addresses say. -/
def headerLength (bs : List UInt8) : ℕ :=
  let addonsLen := (bs.getD 17 0).toNat
  18 + addonsLen + endLength reader (bs.drop (18 + addonsLen))

/-- What is left of the stream is what follows the header, or more if there is an error. -/
def WithinHeader (bs : List UInt8) (out : Except ReadError (Request Addr) × Cursor Allocation) :
    Prop :=
  ∃ used, bs = used ++ out.2.unread ∧ used.length ≤ headerLength reader bs ∧
    ∀ request, out.1 = .ok request → used.length = headerLength reader bs

section Length

variable {bs rest block : List UInt8} {addonsLen : UInt8}

theorem Opened.headerLength_eq (h : Opened bs addonsLen (block ++ rest))
    (hblock : addonsLen.toNat = block.length) :
    headerLength reader bs = 18 + block.length + endLength reader rest := by
  have hrest : bs.drop (18 + block.length) = rest := by
    have hdrop : bs.drop 18 = block ++ rest := by
      have := congrArg List.tail h.drop_eq
      rwa [List.tail_drop] at this
    rw [← List.drop_drop, hdrop, List.drop_left]
  rw [headerLength]
  simp only [h.getD_eq, hblock, hrest]

theorem Opened.addonsLen_le (h : Opened bs addonsLen rest) :
    18 + addonsLen.toNat ≤ headerLength reader bs := by
  rw [headerLength]
  simp only [h.getD_eq]
  exact Nat.le_add_right _ _

/-- Bytes before what is left, counted. -/
theorem withinHeader_of_length {reader : AddressReader Addr}
    {out : Except ReadError (Request Addr) × Cursor Allocation} (hsuffix : out.2.unread <:+ bs)
    (hle : bs.length ≤ headerLength reader bs + out.2.unread.length)
    (hok : ∀ request, out.1 = .ok request →
      bs.length = headerLength reader bs + out.2.unread.length) : WithinHeader reader bs out := by
  obtain ⟨used, hused⟩ := hsuffix
  have hlength := congrArg List.length hused
  rw [List.length_append] at hlength
  refine ⟨used, hused.symm, by omega, fun request hrequest => ?_⟩
  have := hok request hrequest
  omega

variable [Inhabited Addr]

theorem readDestination_spec (command : UInt8) (rest : List UInt8) (log : List Allocation) :
    ∃ r rest', readDestination reader command ⟨rest, log⟩ = (r, ⟨rest', log⟩) ∧
      r ≠ .error .makeslice ∧ rest' <:+ rest ∧
      (command :: rest).length = endLength reader (command :: rest) + rest'.length := by
  rw [readDestination, endLength, List.length_cons]
  by_cases hmux : command ≠ commandMux
  · have hlength := (reader.suffix rest).length_le
    rw [if_pos hmux, if_pos hmux]
    refine ⟨_, (reader.readAddrPort rest).2, rfl, ?_, reader.suffix rest, by omega⟩
    change (reader.readAddrPort rest).1.mapError ReadError.address ≠ _
    rcases (reader.readAddrPort rest).1 with message | addr
    · exact fun h => by cases h
    · exact fun h => by cases h
  · rw [if_neg hmux, if_neg hmux]
    exact ⟨_, _, rfl, (fun h => by cases h), List.suffix_refl rest, by omega⟩

/-- The command and the address: nothing is recorded, and no more is read than belongs to them. -/
theorem readEnd_spec (isPrivate : Bool) (uuid : UUID) (flow rest : List UInt8)
    (log : List Allocation) :
    ∃ r rest', readEnd reader isPrivate uuid flow ⟨rest, log⟩ = (r, ⟨rest', log⟩) ∧
      r ≠ .error .makeslice ∧ rest' <:+ rest ∧ rest.length ≤ endLength reader rest + rest'.length ∧
      ∀ request, r = .ok request → rest.length = endLength reader rest + rest'.length := by
  rcases rest with _ | ⟨command, rest⟩
  · exact ⟨.error .eof, [], rfl, by simp, List.suffix_refl _, Nat.zero_le _,
      fun _ h => by cases h⟩
  have hbyte : (readByte .eof : Parser UInt8) ⟨command :: rest, log⟩ = (.ok command, ⟨rest, log⟩) :=
    rfl
  obtain ⟨r, rest', hread, hr, hsuffix, hlength⟩ :=
    readDestination_spec reader command rest log
  have hsuffix' := hsuffix.trans (List.suffix_cons command rest)
  rw [readEnd, Decoder.bind_of_ok hbyte]
  rcases r with err | destination
  · rw [Decoder.bind_of_error hread]
    exact ⟨.error err, rest', rfl, fun h => hr (congrArg _ (Except.error.inj h)), hsuffix',
      hlength.le, fun _ _ => hlength⟩
  · rw [Decoder.bind_of_ok hread]
    exact ⟨_, rest', rfl, (fun h => by cases h), hsuffix', hlength.le, fun _ _ => hlength⟩

end Length

section Outcome

variable [Inhabited Addr] {bs : List UInt8}

/-- How a request is decoded: without the length of the addons, without all bytes of the addons, or
from the bytes of the addons. -/
theorem readRequest_cases (bs : List UInt8) :
    (∀ addonsLen rest, ¬ Opened bs addonsLen rest) ∨
      (∃ addonsLen rest, Opened bs addonsLen rest ∧ rest.length < addonsLen.toNat) ∨
      ∃ addonsLen block rest, Opened bs addonsLen (block ++ rest) ∧
        addonsLen.toNat = block.length := by
  by_cases hopened : ∃ addonsLen rest, Opened bs addonsLen rest
  · obtain ⟨addonsLen, rest, hopened⟩ := hopened
    by_cases hlt : rest.length < addonsLen.toNat
    · exact .inr (.inl ⟨addonsLen, rest, hopened, hlt⟩)
    · refine .inr (.inr ⟨addonsLen, rest.take addonsLen.toNat, rest.drop addonsLen.toNat, ?_, ?_⟩)
      · rwa [List.take_append_drop]
      · rw [List.length_take, Nat.min_eq_left (Nat.le_of_not_lt hlt)]
  · exact .inl fun addonsLen rest h => hopened ⟨addonsLen, rest, h⟩

theorem readRequest_of_short {addonsLen : UInt8} {rest : List UInt8}
    (h : Opened bs addonsLen rest) (hlt : rest.length < addonsLen.toNat) (log : List Allocation) :
    readRequest reader ⟨bs, log⟩ = (.error (shortRead rest), ⟨[], log⟩) := by
  obtain ⟨isPrivate, uuid, hread⟩ := readRequest_of_opened reader h log
  rw [hread]
  exact Decoder.bind_of_error (readFlow_of_lt hlt log) _

/-- The whole request, when all bytes of the addons are there. -/
theorem readRequest_of_block {addonsLen : UInt8} {block rest : List UInt8}
    (h : Opened bs addonsLen (block ++ rest)) (hblock : addonsLen.toNat = block.length)
    (log : List Allocation) :
    (∃ err, (readAddons ⟨block, log⟩).1 = .error err ∧
        readRequest reader ⟨bs, log⟩ = (.error err, ⟨rest, (readAddons ⟨block, log⟩).2.log⟩)) ∨
      ∃ addons isPrivate uuid, (readAddons ⟨block, log⟩).1 = .ok addons ∧
        readRequest reader ⟨bs, log⟩ =
          readEnd reader isPrivate uuid addons.flow
            ⟨rest, (readAddons ⟨block, log⟩).2.log⟩ := by
  obtain ⟨isPrivate, uuid, hread⟩ := readRequest_of_opened reader h log
  have hflow := readFlow_of_block hblock rest log
  rcases haddons : (readAddons ⟨block, log⟩).1 with err | addons
  · rw [haddons] at hflow
    exact .inl ⟨err, rfl, hread.trans (Decoder.bind_of_error hflow _)⟩
  · rw [haddons] at hflow
    exact .inr ⟨addons, isPrivate, uuid, rfl, hread.trans (Decoder.bind_of_ok hflow _)⟩

theorem readRequest_within_header (bs : List UInt8) (log : List Allocation) :
    WithinHeader reader bs (readRequest reader ⟨bs, log⟩) := by
  rcases readRequest_cases bs with hnot | ⟨addonsLen, rest, hopened, hlt⟩ |
    ⟨addonsLen, block, rest, hopened, hblock⟩
  · obtain ⟨err, rest, hread, -, hsuffix, hlength⟩ := readRequest_of_not_opened reader hnot log
    rw [hread]
    refine withinHeader_of_length hsuffix ?_ fun _ h => by cases h
    have h18 : 18 ≤ headerLength reader bs := by
      rw [headerLength]
      exact (Nat.le_add_right 18 _).trans (Nat.le_add_right _ _)
    exact hlength.trans (Nat.add_le_add_right h18 _)
  · rw [readRequest_of_short reader hopened hlt]
    refine withinHeader_of_length List.nil_suffix ?_ fun _ h => by cases h
    have hle := hopened.addonsLen_le reader
    have hlength := hopened.length_eq
    exact Nat.le_add_right_of_le (by omega)
  · have hlength := hopened.length_eq
    have hheader := hopened.headerLength_eq reader hblock
    rw [List.length_append] at hlength
    have hrest : rest <:+ bs := (List.suffix_append block rest).trans hopened.suffix
    rcases readRequest_of_block reader hopened hblock log with ⟨err, -, hread⟩ |
      ⟨addons, isPrivate, uuid, -, hread⟩
    · rw [hread]
      refine withinHeader_of_length hrest ?_ fun _ h => by cases h
      change bs.length ≤ _ + rest.length
      omega
    · obtain ⟨r, rest', hend, -, hsuffix, hle, hok⟩ := readEnd_spec reader isPrivate uuid
        addons.flow rest (readAddons ⟨block, log⟩).2.log
      rw [hread, hend]
      refine withinHeader_of_length (hsuffix.trans hrest) ?_ fun request hrequest => ?_
      · change bs.length ≤ _ + rest'.length
        omega
      · have := hok request hrequest
        change bs.length = _ + rest'.length
        omega

/-- The bytes of the addons, and their length, are determined by the stream. -/
theorem Opened.block_eq {addonsLen addonsLen' : UInt8} {block block' rest rest' : List UInt8}
    (h : Opened bs addonsLen (block ++ rest)) (hblock : addonsLen.toNat = block.length)
    (h' : Opened bs addonsLen' (block' ++ rest')) (hblock' : addonsLen'.toNat = block'.length) :
    block' = block := by
  obtain ⟨hlen, hrest⟩ := List.cons.inj (h.drop_eq.symm.trans h'.drop_eq)
  subst hlen
  exact (List.append_inj hrest (hblock.symm.trans hblock')).1.symm

theorem safe_readRequest_iff (bs : List UInt8) :
    Safe (readRequest reader ⟨bs, []⟩) ↔
      ∀ addonsLen block rest, Opened bs addonsLen (block ++ rest) →
        addonsLen.toNat = block.length → ¬ Overlong block := by
  rcases readRequest_cases bs with hnot | ⟨addonsLen, rest, hopened, hlt⟩ |
    ⟨addonsLen, block, rest, hopened, hblock⟩
  · obtain ⟨err, rest, hread, herr, -⟩ := readRequest_of_not_opened reader hnot []
    rw [hread]
    refine iff_of_true ⟨fun h => herr (Except.error.inj h), List.forall_mem_nil _⟩ ?_
    exact fun addonsLen block rest hopened => absurd hopened (hnot _ _)
  · rw [readRequest_of_short reader hopened hlt]
    refine iff_of_true ⟨fun h => shortRead_ne_makeslice rest (Except.error.inj h),
      List.forall_mem_nil _⟩ ?_
    intro addonsLen' block rest' hopened' hblock'
    obtain ⟨rfl, rfl⟩ := List.cons.inj (hopened.drop_eq.symm.trans hopened'.drop_eq)
    rw [List.length_append] at hlt
    omega
  · have haddons : Safe (readRequest reader ⟨bs, []⟩) ↔ Safe (readAddons ⟨block, []⟩) := by
      rcases readRequest_of_block reader hopened hblock [] with ⟨err, herr, hread⟩ |
        ⟨addons, isPrivate, uuid, hok, hread⟩
      · rw [hread, Safe, Safe, herr]
        exact and_congr_left' (not_congr (by simp))
      · obtain ⟨r, rest', hend, hr, -⟩ := readEnd_spec reader isPrivate uuid addons.flow rest
          (readAddons ⟨block, []⟩).2.log
        rw [hread, hend, Safe, Safe, hok]
        exact and_congr_left' (iff_of_true hr fun h => by cases h)
    rw [haddons, readAddons, safe_readAddonsLoop_iff, and_iff_right (List.forall_mem_nil _)]
    constructor
    · intro hnot addonsLen' block' rest' hopened' hblock'
      rwa [hopened.block_eq hblock hopened' hblock']
    · exact fun hall => hall addonsLen block rest hopened hblock

end Outcome

theorem advances_readAddonsLoop (addons : Addons) (cur : Cursor Allocation) :
    (readAddonsLoop addons cur).2.unread <:+ cur.unread := by
  have hsuffix (addons : Addons) (cur : Cursor Allocation) :
      (readAddon addons cur).2.unread <:+ cur.unread :=
    (Decoder.advances_readByte ReadError.eof).bind (advances_readField addons) cur
  fun_induction readAddonsLoop addons cur with
  | case1 addons cur hnil => exact List.suffix_refl _
  | case2 addons cur hne err cur' hround =>
    have h := hsuffix addons cur
    rwa [hround] at h
  | case3 addons cur hne addons' cur' hround hlt ih =>
    have h := hsuffix addons cur
    rw [hround] at h
    exact ih.trans h

/-- **The header before authentication.** The addons are decoded from their own bytes and the
request from the bytes of its header. All buffers fit into what is left, and none panics, exactly if
the addons have no overlong field. -/
theorem readRequest_safe_iff [Inhabited Addr] (reader : AddressReader Addr) :
    (∀ block, ((readAddons ⟨block, []⟩).2.unread <:+ block ∧ Safe (readAddons ⟨block, []⟩)) ↔
        ¬ Overlong block) ∧
      ∀ bs, (WithinHeader reader bs (readRequest reader ⟨bs, []⟩) ∧
          Safe (readRequest reader ⟨bs, []⟩)) ↔
        ∀ addonsLen block rest, Opened bs addonsLen (block ++ rest) →
          addonsLen.toNat = block.length → ¬ Overlong block := by
  constructor
  · intro block
    have hsuffix : (readAddons ⟨block, []⟩).2.unread <:+ block :=
      advances_readAddonsLoop {} ⟨block, []⟩
    rw [and_iff_right hsuffix, readAddons, safe_readAddonsLoop_iff,
      and_iff_right (List.forall_mem_nil _)]
  · intro bs
    rw [and_iff_right (readRequest_within_header reader bs []), safe_readRequest_iff]

/-- The address that follows the byte `family`. -/
def readFamily (family : UInt8) : Decoder Allocation String Host :=
  if family = 1 then do
    let bs ← readFull (fun _ => "EOF") 4
    pure (.ipv4 fun i => bs.getD i 0)
  else if family = 2 then do
    let n ← readByte "EOF"
    let name ← readFull (fun _ => "EOF") n.toNat
    pure (.fqdn name)
  else if family = 3 then do
    let bs ← readFull (fun _ => "EOF") 16
    pure (.ipv6 fun i => bs.getD i 0)
  else fail "unknown address family"

/-- The port, the byte of the family and the address. -/
def readSocksaddr : Decoder Allocation String Socksaddr := do
  let port ← readFull (fun _ => "EOF") 2
  let family ← readByte "EOF"
  let host ← readFamily family
  pure ⟨host, port.getD 0 0, port.getD 1 0⟩

theorem advances_readFamily (family : UInt8) : Decoder.Advances (readFamily family) := by
  rw [readFamily]
  split_ifs
  · exact (Decoder.advances_readFull _ 4).bind fun _ => Decoder.Advances.pure _
  · exact (Decoder.advances_readByte _).bind fun n =>
      (Decoder.advances_readFull _ n.toNat).bind fun _ => Decoder.Advances.pure _
  · exact (Decoder.advances_readFull _ 16).bind fun _ => Decoder.Advances.pure _
  · exact Decoder.Advances.fail _

def addressReader : AddressReader Socksaddr where
  readAddrPort input := ((readSocksaddr ⟨input, []⟩).1, (readSocksaddr ⟨input, []⟩).2.unread)
  suffix input := (Decoder.advances_readFull _ 2).bind (fun _ =>
    (Decoder.advances_readByte _).bind fun family =>
      (advances_readFamily family).bind fun _ => Decoder.Advances.pure _) ⟨input, []⟩

/-- Addons of eleven bytes with a flow that announces `2 ^ 64 - 1` bytes. -/
def hugeFlow : List UInt8 := flowHeader :: (List.replicate 9 0xff ++ [0x01])

/-- The buffer for these addons panics, before the user is known. -/
theorem readRequest_hugeFlow :
    readAddons ⟨hugeFlow, []⟩ = (.error .makeslice, ⟨[], [⟨2 ^ 64 - 1, 0⟩]⟩) ∧
      readRequest addressReader ⟨version :: (List.replicate 16 0 ++ 11 :: hugeFlow), []⟩ =
        (.error .makeslice, ⟨[], [⟨2 ^ 64 - 1, 0⟩]⟩) := by
  have hround : readAddon {} ⟨hugeFlow, []⟩ = (.error .makeslice, ⟨[], [⟨2 ^ 64 - 1, 0⟩]⟩) := rfl
  have haddons : readAddons ⟨hugeFlow, []⟩ = (.error .makeslice, ⟨[], [⟨2 ^ 64 - 1, 0⟩]⟩) :=
    readAddonsLoop_of_error (List.cons_ne_nil _ _) hround
  have hopened : Opened (version :: (List.replicate 16 0 ++ 11 :: hugeFlow)) 11 (hugeFlow ++ []) :=
    ⟨version, List.replicate 16 0, .inl rfl, rfl, by rw [List.append_nil]⟩
  refine ⟨haddons, ?_⟩
  rcases readRequest_of_block addressReader hopened rfl [] with ⟨err, herr, hread⟩ |
    ⟨addons, isPrivate, uuid, hok, -⟩
  · rw [haddons] at herr hread
    rw [hread, ← Except.error.inj herr]
  · rw [haddons] at hok
    cases hok

end Tox.Vless.Stream
