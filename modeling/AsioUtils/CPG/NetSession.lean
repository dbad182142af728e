import AsioUtils.Lib.Loop
import AsioUtils.Net.DataBuffer
import AsioUtils.Net.NetPacket

/-!
# The receive loops of the sessions

`defaultMessageCallback` of the three session classes: while the buffer holds a packet, hand it over and retrieve it.
The classes differ only in the handler a message type goes to. The loop of the source has no bound, so it gets fuel
here; `.running` is a loop that has used it up.

* `iteration_packet` : one iteration on a buffer that begins with a packet hands over this packet and retrieves it;
* `messageLoop_packets` : the loop on some packets and an incomplete rest;
* `receive_chunks` : however a stream of packets is cut into reads, the same packets are handed over;
* `safeLoop_iff` : the loop is safe and ends exactly when no header with a size from `-12` to `-1` comes up.
-/

namespace AsioUtils.CPG

open Net

def kServerRegistRS : Int32 := 5002
def kServerNewServicesNotify : Int32 := 5005
def kHeartBeatRQ : Int32 := 20101
def kHeartBeatRS : Int32 := 20102

/-- The function of a session a packet is handed to. -/
inductive Handler
  | heartBeatRQ | updateHeartBeat | serverRegistRS | newServicesNotify | handlerMsg
  deriving DecidableEq, Repr

def CPGServerSession.handlerOf (type : Int32) : Handler := if type = kHeartBeatRQ then .heartBeatRQ else .handlerMsg

def CPGClientSession.handlerOf (type : Int32) : Handler :=
  if type = kHeartBeatRS then .updateHeartBeat else .handlerMsg

def CPGToCentralSession.handlerOf (type : Int32) : Handler :=
  if type = kServerRegistRS then .serverRegistRS
  else if type = kServerNewServicesNotify then .newServicesNotify
  else if type = kHeartBeatRS then .updateHeartBeat
  else .handlerMsg

/-- A packet as it is handed over: the header, and the `size` bytes behind it. -/
structure Delivery where
  handler : Handler
  header : PacketHeader
  body : List UInt8
  deriving DecidableEq

/-- How a receive loop ends; it breaks off when the `assert` of `retrieve` fails. -/
abbrev LoopEnd := Loop.End DataBuffer Delivery

section ReceiveLoop

variable (handlerOf : Int32 → Handler)

/-- One iteration: the packet handed over and the buffer after `retrieve`; `none` when `hasPacket` says no. -/
def iteration (data : DataBuffer) : Option (Delivery × Option DataBuffer) :=
  if hasPacket data.peek (toInt data.readableBytes) then
    let header := PacketHeader.read data.peek
    let buffer := data.peek.drop kPacketHeaderSize
    some (⟨handlerOf header.type, header, buffer.take header.size.toInt.toNat⟩, data.retrieve (packetSize header))
  else none

def messageLoop (fuel : Nat) (data : DataBuffer) : LoopEnd := Loop.run (iteration handlerOf) fuel data

end ReceiveLoop

def CPGServerSession.defaultMessageCallback (fuel : Nat) (data : DataBuffer) : LoopEnd :=
  messageLoop CPGServerSession.handlerOf fuel data

def CPGClientSession.defaultMessageCallback (fuel : Nat) (data : DataBuffer) : LoopEnd :=
  messageLoop CPGClientSession.handlerOf fuel data

def CPGToCentralSession.defaultMessageCallback (fuel : Nat) (data : DataBuffer) : LoopEnd :=
  messageLoop CPGToCentralSession.handlerOf fuel data

/-- The session classes. -/
inductive SessionClass
  | CPGServerSession | CPGClientSession | CPGToCentralSession
  deriving DecidableEq, Repr

namespace SessionClass

def handlerOf : SessionClass → Int32 → Handler
  | CPGServerSession => CPG.CPGServerSession.handlerOf
  | CPGClientSession => CPG.CPGClientSession.handlerOf
  | CPGToCentralSession => CPG.CPGToCentralSession.handlerOf

def defaultMessageCallback : SessionClass → Nat → DataBuffer → LoopEnd
  | CPGServerSession => CPG.CPGServerSession.defaultMessageCallback
  | CPGClientSession => CPG.CPGClientSession.defaultMessageCallback
  | CPGToCentralSession => CPG.CPGToCentralSession.defaultMessageCallback

theorem defaultMessageCallback_eq (c : SessionClass) (fuel : Nat) (data : DataBuffer) :
    c.defaultMessageCallback fuel data = messageLoop c.handlerOf fuel data := by
  cases c
  · exact Eq.refl (messageLoop CPG.CPGServerSession.handlerOf fuel data)
  · exact Eq.refl (messageLoop CPG.CPGClientSession.handlerOf fuel data)
  · exact Eq.refl (messageLoop CPG.CPGToCentralSession.handlerOf fuel data)

end SessionClass

/-! ## Reads -/

/-- `handRead` without an error: `chunk` has arrived at `beginWrite`, the callback runs, and `startAsyncRead` makes room
for the next read. -/
def handRead (c : SessionClass) (fuel : Nat) (data : DataBuffer) (chunk : List UInt8) :
    Option (List Delivery × DataBuffer) :=
  ((data.writeAt chunk).bind fun data => data.hasWritten chunk.length).bind fun data =>
    match c.defaultMessageCallback fuel data with
    | .ended ds data => (data.ensureWritableBytes 1024).map fun data => (ds, data)
    | _ => none

/-- Successive reads. -/
def receive (c : SessionClass) (fuel : Nat) : DataBuffer → List (List UInt8) → Option (List Delivery × DataBuffer)
  | data, [] => some ([], data)
  | data, chunk :: chunks =>
    match handRead c fuel data chunk with
    | none => none
    | some (ds, data) => (receive c fuel data chunks).map fun r => (ds ++ r.1, r.2)

/-- What a socket can deliver: no read is longer than the room it was offered, and less than `2^31` bytes are
buffered. -/
def Offered (c : SessionClass) (fuel : Nat) : DataBuffer → List (List UInt8) → Prop
  | _, [] => True
  | data, chunk :: chunks =>
    chunk.length ≤ data.writableBytes ∧ data.readableBytes + chunk.length < 2147483648 ∧
      match handRead c fuel data chunk with
      | none => True
      | some (_, data) => Offered c fuel data chunks

instance decidableOffered (c : SessionClass) (fuel : Nat) : ∀ data chunks, Decidable (Offered c fuel data chunks)
  | _, [] => .isTrue trivial
  | data, chunk :: chunks =>
    have : Decidable (match handRead c fuel data chunk with
        | none => True
        | some (_, data) => Offered c fuel data chunks) :=
      match handRead c fuel data chunk with
      | none => .isTrue trivial
      | some (_, data) => decidableOffered c fuel data chunks
    inferInstanceAs (Decidable (_ ∧ _ ∧ _))

/-! ## One iteration -/

/-- The packet as a session of this kind gets it. -/
def deliver (handlerOf : Int32 → Handler) (p : Packet) : Delivery := ⟨handlerOf p.type, p.header, p.body⟩

section Iteration

variable (handlerOf : Int32 → Handler) {data : DataBuffer}

theorem peek_eq (data : DataBuffer) : ∃ rest, data.peek = data.content ++ rest := by
  obtain ⟨rest, hrest⟩ := data.content_prefix_peek
  exact ⟨rest, hrest.symm⟩

/-- The header read through `peek` is that of the content. -/
theorem read_peek (h : 12 ≤ data.readableBytes) : PacketHeader.read data.peek = PacketHeader.read data.content := by
  obtain ⟨rest, hrest⟩ := peek_eq data
  rw [hrest]
  exact PacketHeader.read_append (by rw [DataBuffer.length_content]; exact h) rest

/-- The completeness test reads the content alone. -/
theorem hasPacket_peek (h : data.readableBytes < 2147483648) :
    hasPacket data.peek (toInt data.readableBytes) = true ↔
      12 ≤ data.readableBytes ∧ -12 ≤ (PacketHeader.read data.content).size.toInt ∧
        (PacketHeader.read data.content).size.toInt + 12 ≤ data.readableBytes := by
  rw [toInt_of_lt h, hasPacket_iff h]
  refine and_congr_right fun h12 => ?_
  rw [read_peek h12]

theorem iteration_eq_none (h : data.readableBytes < 2147483648) : iteration handlerOf data = none ↔
    ¬ (12 ≤ data.readableBytes ∧ -12 ≤ (PacketHeader.read data.content).size.toInt ∧
      (PacketHeader.read data.content).size.toInt + 12 ≤ data.readableBytes) := by
  rw [← hasPacket_peek h]
  unfold iteration
  split_ifs with hp <;> simp [hp]

/-- **An iteration** on a buffer that begins with a packet hands it over, body and all, and takes it out. -/
theorem iteration_packet {p : Packet} {rest : List UInt8} (h : data.readableBytes < 2147483648)
    (hp : data.content = p.bytes ++ rest) :
    ∃ data', iteration handlerOf data = some (deliver handlerOf p, some data') ∧ data'.content = rest := by
  have hlen : data.readableBytes = 12 + p.body.length + rest.length := by
    rw [← DataBuffer.length_content, hp, List.length_append, Packet.length_bytes]
  have hread : PacketHeader.read data.content = p.header := by rw [hp, Packet.read_bytes]
  have hpeek : PacketHeader.read data.peek = p.header := by rw [read_peek (by omega), hread]
  have hsize := p.size_header
  have hhas : hasPacket data.peek (toInt data.readableBytes) = true := by
    rw [hasPacket_peek h, hread, hsize]
    omega
  have hpacket : packetSize p.header = 12 + p.body.length := by
    have := packetSize_of_le p.header (by omega)
    omega
  obtain ⟨data', hdata', hcontent, -⟩ := data.retrieve_spec (show 12 + p.body.length ≤ data.readableBytes by omega)
  refine ⟨data', ?_, ?_⟩
  · have hbody : (data.peek.drop kPacketHeaderSize).take p.body.length = p.body := by
      obtain ⟨tail, htail⟩ := peek_eq data
      rw [htail, hp, Packet.bytes, List.append_assoc, List.append_assoc]
      show (p.body ++ (rest ++ tail)).take p.body.length = p.body
      exact List.take_left
    unfold iteration
    rw [if_pos hhas, hpeek]
    dsimp only
    rw [hsize, Int.toNat_natCast, hbody, hpacket, hdata']
    rfl
  · rw [hcontent, hp, ← Packet.length_bytes, List.drop_left]

end Iteration

/-! ## Packets in, packets out -/

section Packets

variable (handlerOf : Int32 → Handler)

/-- No complete packet at the front. -/
def Incomplete (bytes : List UInt8) : Prop :=
  ¬ (12 ≤ bytes.length ∧ -12 ≤ (PacketHeader.read bytes).size.toInt ∧
    (PacketHeader.read bytes).size.toInt + 12 ≤ bytes.length)

theorem incomplete_nil : Incomplete [] := fun h => absurd h.1 (by decide)

/-- A proper first part of a packet is incomplete. -/
theorem incomplete_of_prefix {p : Packet} {bytes : List UInt8} (h : bytes <+: p.bytes)
    (hlt : bytes.length < p.bytes.length) : Incomplete bytes := by
  rintro ⟨h12, -, hle⟩
  obtain ⟨tail, htail⟩ := h
  have hread : PacketHeader.read bytes = p.header := by
    rw [← PacketHeader.read_append h12 tail, htail, ← List.append_nil p.bytes, Packet.read_bytes]
  rw [hread, p.size_header] at hle
  rw [Packet.length_bytes] at hlt
  omega

/-- **The loop** on packets and an incomplete rest hands over the packets and leaves the rest. -/
theorem messageLoop_packets {ps : List Packet} {rest : List UInt8} {fuel : Nat} {data : DataBuffer}
    (h : data.readableBytes < 2147483648) (hps : data.content = ps.flatMap Packet.bytes ++ rest)
    (hrest : Incomplete rest) (hfuel : ps.length < fuel) :
    ∃ data', messageLoop handlerOf fuel data = .ended (ps.map (deliver handlerOf)) data' ∧ data'.content = rest := by
  induction ps generalizing fuel data with
  | nil =>
    obtain ⟨fuel, rfl⟩ : ∃ k, fuel = k + 1 := ⟨fuel - 1, by rw [List.length_nil] at hfuel; omega⟩
    have hdata : data.content = rest := hps
    have hnone : iteration handlerOf data = none := by
      rw [iteration_eq_none handlerOf h, ← DataBuffer.length_content, hdata]
      exact hrest
    exact ⟨data, Loop.run_none hnone fuel, hdata⟩
  | cons p ps ih =>
    obtain ⟨fuel, rfl⟩ : ∃ k, fuel = k + 1 := ⟨fuel - 1, by omega⟩
    rw [List.flatMap_cons, List.append_assoc] at hps
    obtain ⟨data₁, hstep, hdata₁⟩ := iteration_packet handlerOf h hps
    have h₁ : data₁.readableBytes < 2147483648 := by
      rw [← DataBuffer.length_content, hps, List.length_append] at h
      rw [← DataBuffer.length_content, hdata₁]
      omega
    obtain ⟨data', hloop, hdata'⟩ := ih h₁ hdata₁ (Nat.lt_of_succ_lt_succ hfuel)
    refine ⟨data', ?_, hdata'⟩
    show Loop.run (iteration handlerOf) (fuel + 1) data = _
    rw [Loop.run_some hstep]
    show (messageLoop handlerOf fuel data₁).prepend _ = _
    rw [hloop]
    rfl

/-- A first part of a stream of packets: some packets and an incomplete piece. -/
theorem prefix_packets {ps : List Packet} {pre : List UInt8} (h : pre <+: ps.flatMap Packet.bytes) :
    ∃ done todo piece, ps = done ++ todo ∧ pre = done.flatMap Packet.bytes ++ piece ∧ Incomplete piece := by
  obtain ⟨done, todo, piece, hsplit, hbytes, hpiece⟩ := Bytes.prefix_flatMap Packet.bytes h
  refine ⟨done, todo, piece, hsplit, hbytes, ?_⟩
  rcases hpiece with ⟨rfl, -⟩ | ⟨p, todo', -, hpart, hlt⟩
  · exact incomplete_nil
  · exact incomplete_of_prefix hpart hlt

theorem length_le_flatMap (ps : List Packet) : ps.length ≤ (ps.flatMap Packet.bytes).length := by
  induction ps with
  | nil => exact Nat.le_refl 0
  | cons p ps ih =>
    rw [List.flatMap_cons, List.length_append, Packet.length_bytes, List.length_cons]
    omega

/-- One read: the packets that are whole now are handed over, and an incomplete rest stays. -/
theorem handRead_split {c : SessionClass} {fuel : Nat} {data : DataBuffer} {chunk rest : List UInt8} {ps : List Packet}
    (hroom : chunk.length ≤ data.writableBytes) (hlt : data.readableBytes + chunk.length < 2147483648)
    (hbytes : data.content ++ chunk = ps.flatMap Packet.bytes ++ rest) (hrest : Incomplete rest)
    (hfuel : ps.length < fuel) :
    ∃ data', handRead c fuel data chunk = some (ps.map (deliver c.handlerOf), data') ∧ data'.content = rest := by
  obtain ⟨data₁, hwrite, hdata₁, -⟩ := DataBuffer.written_spec hroom
  have hlen₁ : data₁.readableBytes < 2147483648 := by
    rw [← DataBuffer.length_content, hdata₁, List.length_append, DataBuffer.length_content]
    exact hlt
  obtain ⟨data₂, hloop, hdata₂⟩ := messageLoop_packets c.handlerOf hlen₁ (hdata₁.trans hbytes) hrest hfuel
  obtain ⟨data', hensure, hdata', -, -⟩ := data₂.ensureWritableBytes_spec 1024
  refine ⟨data', ?_, hdata'.trans hdata₂⟩
  unfold handRead
  rw [hwrite, Option.bind_some, SessionClass.defaultMessageCallback_eq, hloop]
  dsimp only
  rw [hensure, Option.map_some]

/-- One read of a stream of packets: some packets are handed over, and the rest of the stream is still to come. -/
theorem handRead_packets {c : SessionClass} {fuel : Nat} {data : DataBuffer} {chunk later : List UInt8}
    {ps : List Packet} (hroom : chunk.length ≤ data.writableBytes)
    (hlt : data.readableBytes + chunk.length < 2147483648)
    (hstream : data.content ++ (chunk ++ later) = ps.flatMap Packet.bytes)
    (hfuel : (ps.flatMap Packet.bytes).length < fuel) :
    ∃ done todo data', ps = done ++ todo ∧
      handRead c fuel data chunk = some (done.map (deliver c.handlerOf), data') ∧
      data'.content ++ later = todo.flatMap Packet.bytes ∧ Incomplete data'.content := by
  have hpre : data.content ++ chunk <+: ps.flatMap Packet.bytes := ⟨later, by rw [List.append_assoc]; exact hstream⟩
  obtain ⟨done, todo, rest, hsplit, hbytes, hinc⟩ := prefix_packets hpre
  have hcount : done.length < fuel := by
    have := length_le_flatMap ps
    rw [hsplit, List.length_append] at this
    rw [hsplit] at hfuel
    omega
  obtain ⟨data', hread, hdata'⟩ := handRead_split (c := c) hroom hlt hbytes hinc hcount
  refine ⟨done, todo, data', hsplit, hread, ?_, by rw [hdata']; exact hinc⟩
  have h := hstream
  rw [← List.append_assoc, hbytes, hsplit, List.flatMap_append, List.append_assoc] at h
  rw [hdata']
  exact List.append_cancel_left h

/-- Reads of a stream of packets, from a buffer in which no packet waits. -/
theorem receive_packets {c : SessionClass} {fuel : Nat} {chunks : List (List UInt8)} {data : DataBuffer}
    {ps : List Packet} (hstream : data.content ++ chunks.flatten = ps.flatMap Packet.bytes)
    (hinc : Incomplete data.content) (hoffered : Offered c fuel data chunks)
    (hfuel : (ps.flatMap Packet.bytes).length < fuel) :
    ∃ data', receive c fuel data chunks = some (ps.map (deliver c.handlerOf), data') ∧ data'.content = [] := by
  induction chunks generalizing data ps with
  | nil =>
    rw [List.flatten_nil, List.append_nil] at hstream
    cases ps with
    | nil => exact ⟨data, rfl, hstream⟩
    | cons p ps =>
      -- a whole packet would wait in the buffer
      rw [List.flatMap_cons] at hstream
      have := p.body_lt
      have hsize := p.size_header
      refine absurd ?_ hinc
      rw [hstream, Packet.read_bytes, hsize, List.length_append, Packet.length_bytes]
      omega
  | cons chunk chunks ih =>
    obtain ⟨hroom, hlt, hrest⟩ := hoffered
    rw [List.flatten_cons] at hstream
    obtain ⟨done, todo, data₁, hsplit, hread, hlater, hinc₁⟩ := handRead_packets (c := c) hroom hlt hstream hfuel
    rw [hread] at hrest
    have hfuel₁ : (todo.flatMap Packet.bytes).length < fuel := by
      rw [hsplit, List.flatMap_append, List.length_append] at hfuel
      omega
    obtain ⟨data', hreceive, hdata'⟩ := ih hlater hinc₁ hrest hfuel₁
    refine ⟨data', ?_, hdata'⟩
    unfold receive
    rw [hread]
    dsimp only
    rw [hreceive, hsplit, List.map_append]
    rfl

/-- **Framing does not depend on the chunks**: from an empty buffer, however the concatenation of some packets is cut
into reads, exactly these packets are handed over, in order and with their bodies, and the buffer is empty again. -/
theorem receive_chunks (c : SessionClass) (ps : List Packet) (chunks : List (List UInt8)) (data : DataBuffer) (fuel : Nat)
    (hempty : data.content = []) (hstream : chunks.flatten = ps.flatMap Packet.bytes)
    (hoffered : Offered c fuel data chunks) (hfuel : (ps.flatMap Packet.bytes).length < fuel) :
    ∃ data', receive c fuel data chunks = some (ps.map (deliver c.handlerOf), data') ∧ data'.content = [] := by
  refine receive_packets ?_ ?_ hoffered hfuel
  · rw [hempty, List.nil_append]
    exact hstream
  · rw [hempty]
    exact incomplete_nil

/-- A heartbeat and a packet with a body of three bytes. -/
def samplePackets : List Packet :=
  [{ type := kHeartBeatRQ, extraID := 0, body := [], body_lt := by decide },
    { type := 11001, extraID := 4, body := [1, 2, 3], body_lt := by decide }]

/-- Their bytes in three reads, cut within the first header and within the second. -/
def sampleChunks : List (List UInt8) :=
  let bytes := samplePackets.flatMap Packet.bytes
  [bytes.take 5, (bytes.drop 5).take 9, bytes.drop 14]

theorem sampleChunks_received : ∃ data', receive .CPGServerSession 40 (.ofSize 1024) sampleChunks =
    some (samplePackets.map (deliver CPGServerSession.handlerOf), data') ∧ data'.content = [] :=
  receive_chunks .CPGServerSession samplePackets sampleChunks (.ofSize 1024) 40 rfl (by decide) (by decide +kernel)
    (by decide)

end Packets

/-! ## Arbitrary bytes -/

/-- The iteration stays within what has been received, and gets on. -/
structure SafeIteration (data : DataBuffer) : Prop where
  body_nonneg : 0 ≤ (PacketHeader.read data.peek).size.toInt
  body_le : (PacketHeader.read data.peek).size.toInt + 12 ≤ data.readableBytes
  consumes : 12 ≤ packetSize (PacketHeader.read data.peek)
  consumes_le : packetSize (PacketHeader.read data.peek) ≤ data.readableBytes

/-- Every iteration the loop makes is safe, and the loop ends. -/
def SafeLoop (c : SessionClass) (data : DataBuffer) : Prop :=
  (∀ n data', Loop.after (iteration c.handlerOf) n data = some data' →
      hasPacket data'.peek (toInt data'.readableBytes) = true → SafeIteration data') ∧
    ∃ fuel ds data', c.defaultMessageCallback fuel data = .ended ds data'

/-- However whole packets are read off the front, the header that comes next has no size from `-12` to `-1`. -/
def NoShortSize (bytes : List UInt8) : Prop :=
  ∀ (ps : List Packet) (rest : List UInt8), bytes = ps.flatMap Packet.bytes ++ rest → 12 ≤ rest.length →
    ¬ (-12 ≤ (PacketHeader.read rest).size.toInt ∧ (PacketHeader.read rest).size.toInt < 0)

section Arbitrary

variable (handlerOf : Int32 → Handler) {data : DataBuffer}

/-- The loop comes to what lies behind the packets at the front. -/
theorem after_packets {ps : List Packet} {rest : List UInt8} (h : data.readableBytes < 2147483648)
    (hps : data.content = ps.flatMap Packet.bytes ++ rest) :
    ∃ data', Loop.after (iteration handlerOf) ps.length data = some data' ∧ data'.content = rest := by
  induction ps generalizing data with
  | nil => exact ⟨data, rfl, hps⟩
  | cons p ps ih =>
    rw [List.flatMap_cons, List.append_assoc] at hps
    obtain ⟨data₁, hstep, hdata₁⟩ := iteration_packet handlerOf h hps
    have h₁ : data₁.readableBytes < 2147483648 := by
      rw [← DataBuffer.length_content, hps, List.length_append] at h
      rw [← DataBuffer.length_content, hdata₁]
      omega
    obtain ⟨data', hafter, hdata'⟩ := ih h₁ hdata₁
    exact ⟨data', (Loop.after_succ hstep ps.length).trans hafter, hdata'⟩

/-- Without a short size the loop stops or takes a whole packet. -/
theorem iteration_noShortSize (h : data.readableBytes < 2147483648) (hno : NoShortSize data.content) :
    iteration handlerOf data = none ∨ ∃ (p : Packet) (data' : DataBuffer),
      iteration handlerOf data = some (deliver handlerOf p, some data') ∧
        data.content = p.bytes ++ data'.content := by
  by_cases hnone : iteration handlerOf data = none
  · exact .inl hnone
  · rw [iteration_eq_none handlerOf h, not_not] at hnone
    obtain ⟨h12, hlow, hle⟩ := hnone
    rw [← DataBuffer.length_content] at h12 hle
    have hnot := hno [] data.content rfl h12
    obtain ⟨p, rest, hp⟩ := Packet.exists_of_read h12 (by omega) hle
    obtain ⟨data', hstep, hdata'⟩ := iteration_packet handlerOf h hp
    exact .inr ⟨p, data', hstep, by rw [hdata']; exact hp⟩

theorem NoShortSize.tail {p : Packet} {rest : List UInt8} (h : NoShortSize (p.bytes ++ rest)) : NoShortSize rest := by
  intro ps later hrest
  exact h (p :: ps) later (by rw [hrest, List.flatMap_cons, List.append_assoc])

/-- The condition stays along the loop. -/
theorem after_noShortSize {n : Nat} {data' : DataBuffer} (h : data.readableBytes < 2147483648)
    (hno : NoShortSize data.content) (hafter : Loop.after (iteration handlerOf) n data = some data') :
    data'.readableBytes < 2147483648 ∧ NoShortSize data'.content := by
  induction n generalizing data with
  | zero =>
    obtain rfl := Option.some.inj hafter
    exact ⟨h, hno⟩
  | succ n ih =>
    obtain ⟨d, data₁, hstep, hafter₁⟩ := Loop.after_succ_eq_some hafter
    rcases iteration_noShortSize handlerOf h hno with hnone | ⟨p, data₂, hstep₂, hp⟩
    · cases hnone.symm.trans hstep
    · obtain ⟨-, hdata⟩ := Prod.mk.inj (Option.some.inj (hstep₂.symm.trans hstep))
      obtain rfl := Option.some.inj hdata
      rw [hp] at hno
      rw [← DataBuffer.length_content, hp, List.length_append, DataBuffer.length_content] at h
      exact ih (by omega) hno.tail hafter₁

/-- **The receive loop on arbitrary bytes, exactly**: every iteration is safe and the loop ends if and only if no header
the loop comes to, behind whole packets, has a size from `-12` to `-1`. -/
theorem safeLoop_iff (c : SessionClass) (data : DataBuffer) (h : data.readableBytes < 2147483648) :
    SafeLoop c data ↔ NoShortSize data.content := by
  constructor
  · rintro ⟨hsafe, -⟩ ps rest hps h12 ⟨hlow, hneg⟩
    obtain ⟨data', hafter, hdata'⟩ := after_packets c.handlerOf h hps
    have hlen : data'.readableBytes = rest.length := by rw [← DataBuffer.length_content, hdata']
    have hlt : data'.readableBytes < 2147483648 := by
      rw [← DataBuffer.length_content, hps, List.length_append] at h
      omega
    have hiter := hsafe ps.length data' hafter ((hasPacket_peek hlt).mpr (by rw [hdata']; omega))
    have h0 := hiter.body_nonneg
    rw [read_peek (by omega), hdata'] at h0
    omega
  · intro hno
    constructor
    · intro n data' hafter hhas
      obtain ⟨hlt, hno'⟩ := after_noShortSize c.handlerOf h hno hafter
      obtain ⟨h12, hlow, hle⟩ := (hasPacket_peek hlt).mp hhas
      have hnot := hno' [] data'.content rfl (by rw [DataBuffer.length_content]; exact h12)
      rw [← read_peek h12] at hlow hle hnot
      have hpacket := packetSize_of_le _ hlow
      exact ⟨by omega, hle, by omega, by omega⟩
    · simp only [c.defaultMessageCallback_eq]
      refine Loop.ends_of_measure DataBuffer.readableBytes fun n data' hafter => ?_
      obtain ⟨hlt, hno'⟩ := after_noShortSize c.handlerOf h hno hafter
      rcases iteration_noShortSize c.handlerOf hlt hno' with hnone | ⟨p, data₁, hstep, hp⟩
      · exact .inl hnone
      · refine .inr ⟨_, data₁, hstep, ?_⟩
        rw [← DataBuffer.length_content, ← DataBuffer.length_content, hp, List.length_append, Packet.length_bytes]
        omega

end Arbitrary

/-- A buffer with a header of size `-12`. -/
def shortSizeBuffer : DataBuffer where
  buffer_ := PacketHeader.bytes { size := -12 }
  readerIndex_ := 0
  writerIndex_ := 12
  reader_le := by decide
  writer_le := by decide

theorem shortSizeBuffer_safeLoop_iff :
    SafeLoop .CPGToCentralSession shortSizeBuffer ↔ NoShortSize shortSizeBuffer.content :=
  safeLoop_iff .CPGToCentralSession shortSizeBuffer (by decide)

/-- A size of `-12` is a packet to `hasPacket`, with a body of negative length. -/
theorem shortSizeBuffer_not_safe :
    ¬ ∀ (c : SessionClass) (data : DataBuffer), data.readableBytes < 2147483648 → SafeLoop c data := by
  intro h
  obtain ⟨hsafe, -⟩ := h .CPGServerSession shortSizeBuffer (by decide)
  have hiter := hsafe 0 shortSizeBuffer rfl (by decide)
  exact absurd hiter.body_nonneg (by decide)

/-- Nothing is taken out, so the loop goes on for ever. -/
theorem shortSizeBuffer_running (fuel : Nat) :
    ∃ ds, CPGServerSession.defaultMessageCallback fuel shortSizeBuffer = .running ds shortSizeBuffer := by
  have hfixed : iteration CPGServerSession.handlerOf shortSizeBuffer =
      some (⟨.handlerMsg, { size := -12 }, []⟩, some shortSizeBuffer) := by decide
  exact Loop.run_of_fixed hfixed fuel

end AsioUtils.CPG
