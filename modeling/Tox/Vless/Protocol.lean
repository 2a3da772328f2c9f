import Tox.Foundation.Wire
import Mathlib.Data.Fintype.Pi
import Mathlib.Data.List.OfFn

/-!
# The VLESS request and its private dialect

A model of the request codec of the bundled VLESS code with its version-99 dialect: one decoder,
`readRequest`, and three separately written encoders. A private request differs from a public one
in its first byte and in the UUID, which is combined byte by byte with a key of fifteen bytes,
taken cyclically.

The encoders write into a buffer of fixed capacity and panic when a byte does not fit. The address
of the destination is written and read by an external serializer, of which only the two laws that
`AddressSerializer` states are used.
-/

namespace Tox.Vless

open Tox.Foundation

/-! ### Requests -/

def version : UInt8 := 0

def versionPrivate : UInt8 := 99

def commandUDP : UInt8 := 2

def commandMux : UInt8 := 3

abbrev UUID : Type := Fin 16 → UInt8

/-- A request with destinations in `Addr`. -/
structure Request (Addr : Type) where
  uuid : UUID
  command : UInt8
  destination : Addr
  flow : List UInt8
  isPrivate : Bool
  deriving DecidableEq

/-- The serializer of addresses: the bytes it writes for an address or its error, their announced
number, and its reader, which reads back what was written. -/
structure AddressSerializer (Addr : Type) where
  encoding : Addr → Except String (List UInt8)
  addrPortLen : Addr → ℕ
  readAddrPort : Reader String Addr
  length_encoding : ∀ {addr bs}, encoding addr = .ok bs → bs.length = addrPortLen addr
  reads_encoding : ∀ {addr bs}, encoding addr = .ok bs → Reads readAddrPort bs addr

def privateKey : List UInt8 :=
  "MOMclashSecureX".toList.map fun c => UInt8.ofNat c.toNat

/-- The loop over the sixteen bytes of a private UUID, in both directions. -/
def xorPrivateKey (uuid : UUID) : UUID := fun i =>
  uuid i ^^^ privateKey.getD (i % privateKey.length) 0

@[simp]
theorem xorPrivateKey_xorPrivateKey (uuid : UUID) : xorPrivateKey (xorPrivateKey uuid) = uuid := by
  funext i
  rw [xorPrivateKey, xorPrivateKey, UInt8.xor_assoc, UInt8.xor_self, UInt8.xor_zero]

/-! ### The decoder -/

inductive ReadError where
  | eof
  | unexpectedEOF
  | unknownVersion (version : UInt8)
  | unknownHeader (protoHeader : UInt8)
  | uvarint (err : UvarintError)
  | makeslice
  | address (message : String)
  deriving DecidableEq, Repr

structure Addons where
  flow : List UInt8 := []
  seed : List UInt8 := []
  deriving DecidableEq, Repr

/-- What `io.ReadFull` returns when the stream ends before all bytes are read. -/
def shortRead (left : List UInt8) : ReadError :=
  if left = [] then .eof else .unexpectedEOF

theorem shortRead_ne_makeslice (left : List UInt8) : shortRead left ≠ .makeslice := by
  rw [shortRead]
  split <;> simp

/-- The largest slice the runtime allocates; `make` panics beyond it. -/
def maxAlloc : ℕ := 2 ^ 48

/-- A length and as many bytes. -/
def readPrefixed : Reader ReadError (List UInt8) := do
  let n ← readUvarint.mapError .uvarint
  if maxAlloc < n then throw .makeslice else readFull shortRead n

def flowHeader : UInt8 := ((1 : UInt8) <<< 3) ||| 2

def seedHeader : UInt8 := ((2 : UInt8) <<< 3) ||| 2

/-- The switch of `readAddons` over the header byte of a field. -/
def readField (addons : Addons) (protoHeader : UInt8) : Reader ReadError Addons :=
  if protoHeader = flowHeader then do
    let flowBytes ← readPrefixed
    pure { addons with flow := flowBytes }
  else if protoHeader = seedHeader then do
    let seedBytes ← readPrefixed
    pure { addons with seed := seedBytes }
  else throw (.unknownHeader protoHeader)

/-- One round of the loop of `readAddons`. -/
def readAddon (addons : Addons) : Reader ReadError Addons :=
  readByte .eof >>= readField addons

theorem shrinks_readPrefixed : Shrinks readPrefixed := by
  refine (Shrinks.mapError (shrinks_readUvarintLoop 10 0 0) _).bind fun n => ?_
  by_cases hn : maxAlloc < n
  · rw [if_pos hn]
    exact Shrinks.throw _
  · rw [if_neg hn]
    exact shrinks_readFull _ n

theorem shrinks_readField (addons : Addons) (protoHeader : UInt8) :
    Shrinks (readField addons protoHeader) := by
  rw [readField]
  split
  · exact shrinks_readPrefixed.bind fun _ => Shrinks.pure _
  · split
    · exact shrinks_readPrefixed.bind fun _ => Shrinks.pure _
    · exact Shrinks.throw _

/-- Every round reads at least the header byte. -/
theorem length_lt_of_readAddon {addons addons' : Addons} {input rest : List UInt8}
    (h : (readAddon addons).run input = .ok (addons', rest)) : rest.length < input.length := by
  rcases input with _ | ⟨protoHeader, input⟩
  · cases h
  · exact Nat.lt_succ_of_le (shrinks_readField addons protoHeader input addons' rest h)

/-- The loop of `readAddons`, from the fields read so far. -/
def readAddonsLoop (addons : Addons) (input : List UInt8) : Except ReadError Addons :=
  if input = [] then .ok addons
  else
    match h : (readAddon addons).run input with
    | .error err => .error err
    | .ok (addons', rest) =>
      have := length_lt_of_readAddon h
      readAddonsLoop addons' rest
termination_by input.length

def readAddons (input : List UInt8) : Except ReadError Addons :=
  readAddonsLoop {} input

/-- The version byte, as the choice of the dialect. -/
def readVersion : Reader ReadError Bool := do
  let v ← readByte .eof
  if v = versionPrivate then pure true
  else if v ≠ version then throw (.unknownVersion v)
  else pure false

def readUUID : Reader ReadError UUID := do
  let bs ← readFull shortRead 16
  pure fun i => bs.getD i 0

/-- The addons, of which the request keeps the flow. -/
def readFlow (addonsLen : UInt8) : Reader ReadError (List UInt8) :=
  if 0 < addonsLen then do
    let addonsBytes ← readFull shortRead addonsLen.toNat
    let addons ← StateT.lift (readAddons addonsBytes)
    pure addons.flow
  else pure []

variable {Addr : Type}

/-- The destination, which the mux command does not carry. -/
def readDestination [Inhabited Addr] (serializer : AddressSerializer Addr) (command : UInt8) :
    Reader ReadError Addr :=
  if command ≠ commandMux then serializer.readAddrPort.mapError .address else pure default

def readRequest [Inhabited Addr] (serializer : AddressSerializer Addr) :
    Reader ReadError (Request Addr) := do
  let isPrivate ← readVersion
  let uuid ← readUUID
  let addonsLen ← readByte .eof
  let flow ← readFlow addonsLen
  let command ← readByte .eof
  let destination ← readDestination serializer command
  pure
    { uuid := if isPrivate then xorPrivateKey uuid else uuid
      command := command
      destination := destination
      flow := flow
      isPrivate := isPrivate }

/-! ### The encoders -/

/-- A panic of `common.Must` or of the buffer, or an error of the serializer. -/
inductive WriteError where
  | panic
  | address (message : String)
  deriving DecidableEq, Repr

namespace Request

variable (request : Request Addr)

def versionByte : UInt8 :=
  if request.isPrivate then versionPrivate else version

def uuidBytes : List UInt8 :=
  List.ofFn (if request.isPrivate then xorPrivateKey request.uuid else request.uuid)

def addonsLen : ℕ :=
  if request.flow ≠ [] then 1 + uvarintLen request.flow.length + request.flow.length else 0

end Request

/-- The call `binary.PutUvarint(buffer.Extend(n), x)`. -/
def extendUvarint (buffer : Buffer) (n x : ℕ) : Except WriteError Buffer :=
  if n < (putUvarint x).length then .error .panic
  else buffer.writeAll .panic (putUvarint x ++ List.replicate (n - (putUvarint x).length) 0)

def writeAddons (request : Request Addr) (addonsLen : ℕ) (buffer : Buffer) :
    Except WriteError Buffer :=
  if 0 < addonsLen then do
    let buffer ← buffer.writeByte .panic 10
    let buffer ← extendUvarint buffer (uvarintLen request.flow.length) request.flow.length
    buffer.write .panic request.flow
  else pure buffer

/-- The writes that the three encoders have in common, up to the command. -/
def writeHead (request : Request Addr) (addonsLen : ℕ) (command : UInt8) (buffer : Buffer) :
    Except WriteError Buffer := do
  let buffer ← buffer.writeByte .panic request.versionByte
  let buffer ← buffer.write .panic request.uuidBytes
  let buffer ← buffer.writeByte .panic (UInt8.ofNat addonsLen)
  let buffer ← writeAddons request addonsLen buffer
  buffer.writeByte .panic command

def AddressSerializer.writeAddrPort (serializer : AddressSerializer Addr) (destination : Addr)
    (buffer : Buffer) : Except WriteError Buffer :=
  match serializer.encoding destination with
  | .error message => .error (.address message)
  | .ok bs => buffer.writeAll (.address "short buffer") bs

def encodeRequest (serializer : AddressSerializer Addr) (request : Request Addr)
    (buffer : Buffer) : Except WriteError Buffer := do
  let buffer ← writeHead request request.addonsLen request.command buffer
  if request.command ≠ commandMux then
    serializer.writeAddrPort request.destination buffer
  else pure buffer

def requestLen (serializer : AddressSerializer Addr) (request : Request Addr) : ℕ :=
  1 + 16 + 1 + request.addonsLen + 1 +
    if request.command ≠ commandMux then serializer.addrPortLen request.destination else 0

/-- The bytes handed to the writer. The body repeats that of `encodeRequest`, in a buffer of the
length of the request and the payload. -/
def writeRequest (serializer : AddressSerializer Addr) (request : Request Addr)
    (payload : List UInt8) : Except WriteError (List UInt8) := do
  let buffer := Buffer.newSize (requestLen serializer request + payload.length)
  let buffer ← encodeRequest serializer request buffer
  let buffer ← buffer.write .panic payload
  pure buffer.bytes

/-- A 16-bit length in network order. -/
def uint16 (n : ℕ) : List UInt8 :=
  [UInt8.ofNat (n / 2 ^ 8), UInt8.ofNat n]

/-- The length of the first packet's request, as its encoder computes it. -/
def packetRequestLen (serializer : AddressSerializer Addr) (request : Request Addr)
    (payload : List UInt8) : ℕ :=
  1 + 16 + 1 + 1 + serializer.addrPortLen request.destination +
    if payload ≠ [] then 2 + payload.length else 0

def writePacketPayload (payload : List UInt8) (buffer : Buffer) : Except WriteError Buffer :=
  if payload ≠ [] then do
    let buffer ← buffer.write .panic (uint16 payload.length)
    buffer.write .panic payload
  else pure buffer

/-- The bytes handed to the writer for the first packet: no addons and always an address. -/
def writePacketRequest (serializer : AddressSerializer Addr) (request : Request Addr)
    (payload : List UInt8) : Except WriteError (List UInt8) := do
  let buffer := Buffer.newSize (packetRequestLen serializer request payload)
  let buffer ← writeHead request 0 commandUDP buffer
  let buffer ← serializer.writeAddrPort request.destination buffer
  let buffer ← writePacketPayload payload buffer
  pure buffer.bytes

/-! ### What the encoders write -/

namespace Request

variable (request : Request Addr)

/-- The addons that announce themselves with the length `addonsLen`. -/
def addons (addonsLen : ℕ) : List UInt8 :=
  if 0 < addonsLen then [10] ++ putUvarint request.flow.length ++ request.flow else []

/-- The bytes of a request up to the command. -/
def head (addonsLen : ℕ) (command : UInt8) : List UInt8 :=
  [request.versionByte] ++ (request.uuidBytes ++ [UInt8.ofNat addonsLen] ++
    (request.addons addonsLen ++ [command]))

/-- The bytes of a request whose address is written as `addr`. -/
def header (addr : List UInt8) : List UInt8 :=
  request.head request.addonsLen request.command ++ addr

end Request

/-- The bytes of the address of a request, if it carries one. -/
def AddressSerializer.addrBytes (serializer : AddressSerializer Addr) (request : Request Addr) :
    Except String (List UInt8) :=
  if request.command ≠ commandMux then serializer.encoding request.destination else .ok []

theorem writes_extendUvarint (x : ℕ) :
    Writes (fun buffer => extendUvarint buffer (uvarintLen x) x) (putUvarint x) := by
  have hlen := length_putUvarint x
  have h := writes_writeAll WriteError.panic (putUvarint x)
  simpa only [extendUvarint, hlen, lt_irrefl, if_false, Nat.sub_self, List.replicate_zero,
    List.append_nil] using h

theorem writes_writeAddons_writeByte (request : Request Addr) (addonsLen : ℕ) (command : UInt8) :
    Writes (fun buffer => writeAddons request addonsLen buffer >>=
      fun buffer => buffer.writeByte .panic command) (request.addons addonsLen ++ [command]) := by
  by_cases h : 0 < addonsLen
  · have hflow := (writes_writeByte WriteError.panic 10).bind
      ((writes_extendUvarint request.flow.length).bind
        (writes_write_writeByte .panic request.flow command))
    simpa only [writeAddons, Request.addons, if_pos h, bind_assoc, List.append_assoc] using hflow
  · have hnone := Writes.pure.bind (writes_writeByte WriteError.panic command)
    simpa only [writeAddons, Request.addons, if_neg h] using hnone

theorem writes_writeHead (request : Request Addr) (addonsLen : ℕ) (command : UInt8) :
    Writes (writeHead request addonsLen command) (request.head addonsLen command) := by
  have h := (writes_writeByte WriteError.panic request.versionByte).bind
    ((writes_write_writeByte .panic request.uuidBytes (UInt8.ofNat addonsLen)).bind
      (writes_writeAddons_writeByte request addonsLen command))
  simp only [bind_assoc] at h
  exact h

theorem writes_writeAddrPort {serializer : AddressSerializer Addr} {destination : Addr}
    {bs : List UInt8} (h : serializer.encoding destination = .ok bs) :
    Writes (serializer.writeAddrPort destination) bs := by
  intro buffer out
  rw [AddressSerializer.writeAddrPort, h]
  exact writes_writeAll _ bs buffer out

theorem writes_encodeRequest {serializer : AddressSerializer Addr} {request : Request Addr}
    {addr : List UInt8} (h : serializer.addrBytes request = .ok addr) :
    Writes (encodeRequest serializer request) (request.header addr) := by
  refine (writes_writeHead request request.addonsLen request.command).bind ?_
  rw [AddressSerializer.addrBytes] at h
  split at h
  case isTrue hcommand =>
    simp only [if_pos hcommand]
    exact writes_writeAddrPort h
  case isFalse hmux =>
    cases h
    simp only [if_neg hmux]
    exact Writes.pure

/-- An error of the serializer is returned when everything before the address fits. -/
theorem encodeRequest_eq_error {serializer : AddressSerializer Addr} {request : Request Addr}
    {message : String} (h : serializer.addrBytes request = .error message) {buffer : Buffer} :
    encodeRequest serializer request buffer =
      writeHead request request.addonsLen request.command buffer >>=
        fun _ => .error (.address message) := by
  rw [AddressSerializer.addrBytes] at h
  split at h
  case isTrue hcommand =>
    simp only [encodeRequest, if_pos hcommand, AddressSerializer.writeAddrPort, h]
  case isFalse => cases h

/-- The two cases of the addons: none without a flow, and otherwise one field. -/
theorem addons_cases (request : Request Addr) :
    (request.flow = [] ∧ request.addonsLen = 0 ∧ request.addons request.addonsLen = []) ∨
      (request.addonsLen = 1 + uvarintLen request.flow.length + request.flow.length ∧
        request.addons request.addonsLen =
          [10] ++ putUvarint request.flow.length ++ request.flow) := by
  by_cases h : request.flow = []
  · have hlen : request.addonsLen = 0 := if_neg (not_not_intro h)
    exact .inl ⟨h, hlen, by rw [hlen]; rfl⟩
  · have hlen : request.addonsLen = 1 + uvarintLen request.flow.length + request.flow.length :=
      if_pos h
    exact .inr ⟨hlen, if_pos (by omega)⟩

theorem length_addons (request : Request Addr) :
    (request.addons request.addonsLen).length = request.addonsLen := by
  rcases addons_cases request with ⟨-, hlen, haddons⟩ | ⟨hlen, haddons⟩
  · rw [haddons, hlen, List.length_nil]
  · rw [haddons, hlen, List.length_append, List.length_append, length_putUvarint,
      List.length_singleton]

theorem length_head (request : Request Addr) (addonsLen : ℕ) (command : UInt8) :
    (request.head addonsLen command).length =
      1 + 16 + 1 + (request.addons addonsLen).length + 1 := by
  simp only [Request.head, Request.uuidBytes, List.length_append, List.length_singleton,
    List.length_ofFn]
  omega

theorem length_header {serializer : AddressSerializer Addr} {request : Request Addr}
    {addr : List UInt8} (h : serializer.addrBytes request = .ok addr) :
    (request.header addr).length = requestLen serializer request := by
  rw [Request.header, List.length_append, length_head, length_addons, requestLen]
  rw [AddressSerializer.addrBytes] at h
  split at h
  case isTrue hcommand => rw [if_pos hcommand, serializer.length_encoding h]
  case isFalse hmux =>
    cases h
    rw [if_neg hmux, List.length_nil]

/-- The encoder into a buffer of its own has the room it needs: it fails with nothing but an error
of the serializer. -/
theorem writeRequest_eq (serializer : AddressSerializer Addr) (request : Request Addr)
    (payload : List UInt8) : writeRequest serializer request payload =
      match serializer.addrBytes request with
      | .error message => .error (.address message)
      | .ok addr => .ok (request.header addr ++ payload) := by
  rcases h : serializer.addrBytes request with message | addr
  · have hroom : (request.head request.addonsLen request.command).length ≤
        requestLen serializer request + payload.length := by
      rw [length_head, length_addons, requestLen]
      omega
    obtain ⟨mid, hmid, -⟩ := (writes_writeHead request _ _).run_newSize hroom
    rw [writeRequest, encodeRequest_eq_error h, hmid]
    rfl
  · have hlen := length_header h
    obtain ⟨mid, hmid, hbytes, hcap⟩ := (writes_encodeRequest h).run_newSize
      (hlen.le.trans (Nat.le_add_right _ payload.length))
    have hroom : payload.length ≤ mid.free := by
      rw [Buffer.free, hbytes, hcap]
      omega
    rw [writeRequest, hmid]
    change (mid.write WriteError.panic payload >>= fun buffer => pure buffer.bytes) =
      .ok (request.header addr ++ payload)
    rw [Buffer.write_eq_fill hroom, ← hbytes, ← Buffer.fill_bytes hroom]
    rfl

/-- The payload of a packet request, with its length before it. -/
def packetPayload (payload : List UInt8) : List UInt8 :=
  if payload ≠ [] then uint16 payload.length ++ payload else []

theorem writePacketPayload_eq {payload : List UInt8} {buffer : Buffer}
    (h : (packetPayload payload).length ≤ buffer.free) : ∃ out,
      writePacketPayload payload buffer = .ok out ∧
        out.bytes = buffer.bytes ++ packetPayload payload := by
  rw [packetPayload] at h ⊢
  rw [writePacketPayload]
  split at h
  case isTrue hne =>
    rw [List.length_append] at h
    have hlen : (uint16 payload.length).length ≤ buffer.free := by omega
    have hroom : payload.length ≤ (buffer.fill (uint16 payload.length)).free := by
      rw [Buffer.free, Buffer.fill_bytes hlen, List.length_append]
      change _ ≤ buffer.capacity - _
      rw [Buffer.free] at h
      omega
    refine ⟨(buffer.fill (uint16 payload.length)).fill payload, ?_, ?_⟩
    · rw [if_pos hne, Buffer.write_eq_fill hlen]
      exact Buffer.write_eq_fill hroom _
    · rw [if_pos hne, Buffer.fill_bytes hroom, Buffer.fill_bytes hlen, List.append_assoc]
  case isFalse hnil =>
    rw [if_neg hnil, if_neg hnil]
    exact ⟨buffer, rfl, (List.append_nil _).symm⟩

theorem writePacketRequest_eq (serializer : AddressSerializer Addr) (request : Request Addr)
    (payload : List UInt8) : writePacketRequest serializer request payload =
      match serializer.encoding request.destination with
      | .error message => .error (.address message)
      | .ok addr => .ok (request.head 0 commandUDP ++ addr ++ packetPayload payload) := by
  have hhead : (request.head 0 commandUDP).length = 1 + 16 + 1 + 1 := length_head request 0 _
  rcases h : serializer.encoding request.destination with message | addr
  · have hroom : (request.head 0 commandUDP).length ≤
        packetRequestLen serializer request payload := by
      rw [packetRequestLen]
      omega
    obtain ⟨mid, hmid, -⟩ := (writes_writeHead request 0 commandUDP).run_newSize hroom
    rw [writePacketRequest, hmid]
    simp only [AddressSerializer.writeAddrPort, h]
    rfl
  · have hlen := serializer.length_encoding h
    have htotal : (request.head 0 commandUDP ++ addr).length + (packetPayload payload).length =
        packetRequestLen serializer request payload := by
      rw [List.length_append, hhead, hlen, packetPayload, packetRequestLen]
      split
      · rw [List.length_append, uint16, List.length_cons, List.length_singleton]
      · rw [List.length_nil]
    have hwrites := (writes_writeHead request 0 commandUDP).bind (writes_writeAddrPort h)
    obtain ⟨mid, hmid, hbytes, hcap⟩ := hwrites.run_newSize (Nat.le.intro htotal)
    obtain ⟨out, hout, hout_bytes⟩ : ∃ out, writePacketPayload payload mid = .ok out ∧
        out.bytes = mid.bytes ++ packetPayload payload := by
      refine writePacketPayload_eq ?_
      rw [Buffer.free, hbytes, hcap]
      omega
    simp only [writePacketRequest, ← bind_assoc, hmid]
    change (writePacketPayload payload mid >>= fun buffer => pure buffer.bytes) =
      .ok (request.head 0 commandUDP ++ addr ++ packetPayload payload)
    rw [hout, ← hbytes, ← hout_bytes]
    rfl

/-! ### What the decoder reads -/

/-- What is left of a request on the wire: the mux command carries no destination. -/
def Request.carried [Inhabited Addr] (request : Request Addr) : Request Addr :=
  if request.command ≠ commandMux then request else { request with destination := default }

theorem reads_readVersion (isPrivate : Bool) :
    Reads readVersion [if isPrivate then versionPrivate else version] isPrivate := by
  cases isPrivate
  · exact fun _ => rfl
  · exact fun _ => rfl

/-- An array is read back from its bytes. -/
theorem reads_array {ε : Type} {n : ℕ} (short : List UInt8 → ε) (a : Fin n → UInt8) :
    Reads (do let bs ← readFull short n; pure fun i : Fin n => bs.getD i 0) (List.ofFn a) a := by
  have hfull := reads_readFull short (List.ofFn a)
  rw [List.length_ofFn] at hfull
  have harray : (fun i : Fin n => (List.ofFn a).getD i 0) = a := by
    funext i
    rw [List.getD_eq_getElem _ _ (by rw [List.length_ofFn]; exact i.isLt), List.getElem_ofFn]
  have h := hfull.bind_pure fun bs => fun i : Fin n => bs.getD i 0
  rw [harray] at h
  exact h

theorem reads_readUUID (uuid : UUID) : Reads readUUID (List.ofFn uuid) uuid :=
  reads_array shortRead uuid

theorem reads_readPrefixed {bs : List UInt8} (h : bs.length ≤ maxAlloc) :
    Reads readPrefixed (putUvarint bs.length ++ bs) bs := by
  have hlen : bs.length < 2 ^ 64 := lt_of_le_of_lt h (by decide)
  refine ((reads_putUvarint hlen).mapError _).bind ?_
  rw [if_neg (by omega)]
  exact reads_readFull _ bs

/-- The addons that the encoders write are read back as the flow. -/
theorem readAddons_flow {flow : List UInt8} (h : flow.length ≤ maxAlloc) :
    readAddons ([10] ++ putUvarint flow.length ++ flow) = .ok { flow := flow } := by
  have hfield : Reads (readField {} flowHeader) (putUvarint flow.length ++ flow)
      { flow := flow } :=
    (reads_readPrefixed h).bind_pure fun bs => ({ flow := bs } : Addons)
  have hround := (reads_readByte ReadError.eof flowHeader).bind hfield []
  rw [List.append_nil] at hround
  rw [readAddons, readAddonsLoop, if_neg (by simp), List.append_assoc]
  split
  case h_1 err herr => cases hround.symm.trans herr
  case h_2 addons rest hok =>
    cases hround.symm.trans hok
    rw [readAddonsLoop, if_pos rfl]

/-- The flow of at most 252 bytes is announced by one byte. -/
theorem toNat_addonsLen {request : Request Addr} (h : request.flow.length ≤ 252) :
    (UInt8.ofNat request.addonsLen).toNat = request.addonsLen := by
  have huvarint : uvarintLen request.flow.length ≤ 2 := uvarintLen_le_two (by omega)
  have hle : request.addonsLen ≤ 255 := by
    rw [Request.addonsLen]
    split <;> omega
  exact UInt8.toNat_ofNat_of_lt' (Nat.lt_succ_of_le hle)

theorem reads_readFlow {request : Request Addr} (h : request.flow.length ≤ 252) :
    Reads (readFlow (UInt8.ofNat request.addonsLen)) (request.addons request.addonsLen)
      request.flow := by
  rcases addons_cases request with ⟨hflow, hlen, haddons⟩ | ⟨hlen, haddons⟩
  · rw [hlen] at haddons ⊢
    rw [haddons, hflow]
    exact Reads.pure _
  · have hbyte := toNat_addonsLen h
    have hpos : 0 < UInt8.ofNat request.addonsLen := by
      rw [UInt8.lt_iff_toNat_lt, hbyte, hlen, UInt8.toNat_zero]
      omega
    have hfull := reads_readFull shortRead (request.addons request.addonsLen)
    rw [length_addons] at hfull
    have hread : readAddons (request.addons request.addonsLen) = .ok { flow := request.flow } := by
      rw [haddons, readAddons_flow (h.trans (by decide))]
    rw [readFlow, if_pos hpos, hbyte, ← List.append_nil (request.addons request.addonsLen)]
    exact hfull.bind ((Reads.lift hread).bind_pure Addons.flow)

theorem reads_readDestination [Inhabited Addr] {serializer : AddressSerializer Addr}
    {request : Request Addr} {addr : List UInt8} (h : serializer.addrBytes request = .ok addr) :
    Reads (readDestination serializer request.command) addr request.carried.destination := by
  rw [AddressSerializer.addrBytes] at h
  rw [readDestination, Request.carried]
  split at h
  case isTrue hcommand =>
    rw [if_pos hcommand, if_pos hcommand]
    exact (serializer.reads_encoding h).mapError _
  case isFalse hmux =>
    cases h
    rw [if_neg hmux, if_neg hmux]
    exact Reads.pure _

/-- The decoder reads back what a header carries, whatever follows it. -/
theorem reads_header [Inhabited Addr] {serializer : AddressSerializer Addr}
    {request : Request Addr} {addr : List UInt8} (hflow : request.flow.length ≤ 252)
    (h : serializer.addrBytes request = .ok addr) :
    Reads (readRequest serializer) (request.header addr) request.carried := by
  have hbytes : request.header addr = [request.versionByte] ++ (request.uuidBytes ++
      ([UInt8.ofNat request.addonsLen] ++ (request.addons request.addonsLen ++
        ([request.command] ++ addr)))) := by
    simp only [Request.header, Request.head, List.append_assoc]
  have huuid : ∀ uuid : UUID, (if request.isPrivate then
      xorPrivateKey (if request.isPrivate then xorPrivateKey uuid else uuid) else
        if request.isPrivate then xorPrivateKey uuid else uuid) = uuid := by
    intro uuid
    cases request.isPrivate
    · rfl
    · exact xorPrivateKey_xorPrivateKey uuid
  have hcarried : { request with destination := request.carried.destination } =
      request.carried := by
    rw [Request.carried]
    split <;> rfl
  rw [hbytes, ← hcarried]
  -- field by field, in the order in which the decoder reads them
  refine (reads_readVersion request.isPrivate).bind <| (reads_readUUID _).bind <|
    (reads_readByte _ _).bind <| (reads_readFlow hflow).bind <| (reads_readByte _ _).bind ?_
  rw [huuid]
  exact (reads_readDestination h).bind_pure fun destination =>
    ({ request with destination := destination } : Request Addr)

/-- The first packet's request is the header of a request for UDP without a flow. -/
theorem head_packet (request : Request Addr) (addr : List UInt8) :
    request.head 0 commandUDP ++ addr =
      { request with command := commandUDP, flow := [] }.header addr :=
  rfl

/-- What is written for a request is read back: the request and the payload from `writeRequest`,
whose header is what `encodeRequest` appends to every buffer with room for `requestLen` bytes, and
the user and the destination from `writePacketRequest`. -/
theorem readRequest_written [Inhabited Addr] (serializer : AddressSerializer Addr)
    (request : Request Addr) (hflow : request.flow.length ≤ 252) (payload : List UInt8) :
    (∀ written, writeRequest serializer request payload = .ok written →
      (readRequest serializer).run written = .ok (request.carried, payload) ∧
      ∃ header, written = header ++ payload ∧ header.length = requestLen serializer request ∧
        (∀ buffer, requestLen serializer request ≤ buffer.free →
          ∃ out, encodeRequest serializer request buffer = .ok out) ∧
        ∀ buffer out, encodeRequest serializer request buffer = .ok out →
          out.bytes = buffer.bytes ++ header) ∧
    ∀ written, writePacketRequest serializer request payload = .ok written →
      (readRequest serializer).run written =
        .ok ({ request with command := commandUDP, flow := [] }, packetPayload payload) := by
  constructor
  · intro written hwritten
    rw [writeRequest_eq] at hwritten
    rcases h : serializer.addrBytes request with message | addr
    · rw [h] at hwritten
      cases hwritten
    · rw [h] at hwritten
      cases hwritten
      refine ⟨reads_header hflow h payload, request.header addr, rfl, length_header h, ?_, ?_⟩
      · intro buffer hroom
        rw [← length_header h] at hroom
        exact ⟨buffer.fill _, (writes_encodeRequest h buffer _).mpr ⟨Buffer.fill_bytes hroom, rfl⟩⟩
      · intro buffer out hout
        exact ((writes_encodeRequest h buffer out).mp hout).1
  · intro written hwritten
    rw [writePacketRequest_eq] at hwritten
    rcases h : serializer.encoding request.destination with message | addr
    · rw [h] at hwritten
      cases hwritten
    · rw [h] at hwritten
      cases hwritten
      have hread : Reads (readRequest serializer)
          (({ request with command := commandUDP, flow := [] } : Request Addr).header addr)
          { request with command := commandUDP, flow := [] } := reads_header (Nat.zero_le _) h
      rw [head_packet]
      exact hread (packetPayload payload)

/-! ### The port and the address -/

inductive Host where
  | ipv4 (ip : Fin 4 → UInt8)
  | fqdn (name : List UInt8)
  | ipv6 (ip : Fin 16 → UInt8)
  deriving DecidableEq

/-- A host with the two bytes of its port, the higher first. -/
structure Socksaddr where
  host : Host
  port : UInt8 × UInt8
  deriving DecidableEq

instance : Inhabited Socksaddr := ⟨⟨.fqdn [], 0, 0⟩⟩

/-- The byte of the address family and the address. -/
def Host.encoding : Host → Except String (List UInt8)
  | .ipv4 ip => .ok ([1] ++ List.ofFn ip)
  | .fqdn name =>
    if name.length ≤ 255 then .ok ([2] ++ ([UInt8.ofNat name.length] ++ name))
    else .error "domain name too long"
  | .ipv6 ip => .ok ([3] ++ List.ofFn ip)

def Host.len : Host → ℕ
  | .ipv4 _ => 5
  | .fqdn name => 2 + name.length
  | .ipv6 _ => 17

/-- The address that follows the byte `family`. -/
def readFamily (family : UInt8) : Reader String Host :=
  if family = 1 then .ipv4 <$> do
    let bs ← readFull (fun _ => "EOF") 4
    pure fun i : Fin 4 => bs.getD i 0
  else if family = 2 then .fqdn <$> do
    let n ← readByte "EOF"
    readFull (fun _ => "EOF") n.toNat
  else if family = 3 then .ipv6 <$> do
    let bs ← readFull (fun _ => "EOF") 16
    pure fun i : Fin 16 => bs.getD i 0
  else throw "unknown address family"

theorem Host.length_encoding {host : Host} {bs : List UInt8} (h : host.encoding = .ok bs) :
    bs.length = host.len := by
  cases host with
  | ipv4 ip => cases h; rfl
  | fqdn name =>
    rw [Host.encoding] at h
    split at h
    · cases h
      rw [Host.len, List.length_append, List.length_append, List.length_singleton,
        List.length_singleton, ← Nat.add_assoc]
    · cases h
  | ipv6 ip => cases h; rfl

theorem Host.reads_encoding {host : Host} {bs : List UInt8} (h : host.encoding = .ok bs) :
    Reads (readByte "EOF" >>= readFamily) bs host := by
  cases host with
  | ipv4 ip =>
    cases h
    exact (reads_readByte _ 1).bind ((reads_array _ ip).bind_pure Host.ipv4)
  | fqdn name =>
    rw [Host.encoding] at h
    split at h
    case isTrue hlen =>
      cases h
      have hname : Reads (readFull (fun _ => "EOF") (UInt8.ofNat name.length).toNat) name name := by
        rw [UInt8.toNat_ofNat_of_lt' (Nat.lt_succ_of_le hlen)]
        exact reads_readFull _ name
      exact (reads_readByte _ 2).bind (((reads_readByte _ _).bind hname).bind_pure Host.fqdn)
    case isFalse => cases h
  | ipv6 ip =>
    cases h
    exact (reads_readByte _ 3).bind ((reads_array _ ip).bind_pure Host.ipv6)

/-- The serializer of addresses: the port, the byte of the family and the address. -/
def addressSerializer : AddressSerializer Socksaddr where
  encoding addr := addr.host.encoding.map fun bs => [addr.port.1] ++ ([addr.port.2] ++ bs)
  addrPortLen addr := 2 + addr.host.len
  readAddrPort := do
    let high ← readByte "EOF"
    let low ← readByte "EOF"
    let host ← readByte "EOF" >>= readFamily
    pure ⟨host, high, low⟩
  length_encoding := by
    intro addr bs h
    rcases hhost : addr.host.encoding with _ | bytes
    · rw [hhost] at h
      cases h
    · rw [hhost] at h
      cases h
      rw [← Host.length_encoding hhost, List.length_append, List.length_append,
        List.length_singleton, List.length_singleton, ← Nat.add_assoc]
  reads_encoding := by
    intro addr bs h
    rcases hhost : addr.host.encoding with _ | bytes
    · rw [hhost] at h
      cases h
    · rw [hhost] at h
      cases h
      exact (reads_readByte _ _).bind ((reads_readByte _ _).bind
        ((Host.reads_encoding hhost).bind_pure fun host => (⟨host, addr.port⟩ : Socksaddr)))

/-- A private request with a flow, to `example.com:443`. -/
def visionRequest : Request Socksaddr where
  uuid i := UInt8.ofNat i
  command := 1
  destination := ⟨.fqdn ("example.com".toList.map fun c => UInt8.ofNat c.toNat), 1, 0xbb⟩
  flow := "xtls-rprx-vision".toList.map fun c => UInt8.ofNat c.toNat
  isPrivate := true

theorem visionRequest_written : ∃ written,
    writeRequest addressSerializer visionRequest [1, 2] = .ok written ∧
      (readRequest addressSerializer).run written = .ok (visionRequest, [1, 2]) :=
  ⟨_, writeRequest_eq addressSerializer visionRequest [1, 2],
    ((readRequest_written addressSerializer visionRequest (by decide) [1, 2]).1 _
      (writeRequest_eq addressSerializer visionRequest [1, 2])).1⟩

end Tox.Vless
