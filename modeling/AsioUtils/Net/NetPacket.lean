import AsioUtils.Lib.Bytes

/-!
# Packets: header, body, and the completeness test

A packet is a `PacketHeader` of three 32-bit integers, as it lies in memory on a little-endian host, and `size` bytes
of body. `hasPacket` adds the signed `size` to an unsigned 64-bit `sizeof`.

* `hasPacket_iff` : what the test says for a length below `2^31`: a size below `-12` wraps to a huge number, a size
  from `-12` to `-1` to less than the header's own length;
* `Packet` : a packet that can be sent, its size the length of its body;
* `NetPacket` : packets as objects; `getPacket` takes them from bytes by a test of its own, which leaves out the packet
  without a body (`getPacket_isSome_iff`).
-/

namespace AsioUtils.Net

open Bytes

structure PacketHeader where
  type : Int32 := 0
  size : Int32 := 0
  extraID : Int32 := 0
  deriving DecidableEq

def kPacketHeaderSize : Nat := 12

namespace PacketHeader

/-- The header as it lies in memory. -/
def bytes (h : PacketHeader) : List UInt8 := ofInt32 h.type ++ (ofInt32 h.size ++ ofInt32 h.extraID)

/-- `(PacketHeader*)data` -/
def read (data : List UInt8) : PacketHeader :=
  { type := toInt32 data, size := toInt32 (data.drop 4), extraID := toInt32 (data.drop 8) }

@[simp] theorem length_bytes (h : PacketHeader) : h.bytes.length = kPacketHeaderSize := rfl

theorem read_bytes (h : PacketHeader) (rest : List UInt8) : read (h.bytes ++ rest) = h := by
  have h0 : h.bytes ++ rest = ofInt32 h.type ++ (ofInt32 h.size ++ (ofInt32 h.extraID ++ rest)) := by
    simp only [bytes, List.append_assoc]
  have h4 : (h.bytes ++ rest).drop 4 = ofInt32 h.size ++ (ofInt32 h.extraID ++ rest) := rfl
  have h8 : (h.bytes ++ rest).drop 8 = ofInt32 h.extraID ++ rest := rfl
  unfold read
  rw [h4, h8, h0, toInt32_ofInt32, toInt32_ofInt32, toInt32_ofInt32]

end PacketHeader

/-- Only the first twelve bytes are read. -/
theorem PacketHeader.read_append {data : List UInt8} (h : 12 ≤ data.length) (rest : List UInt8) :
    read (data ++ rest) = read data := by
  unfold read
  rw [toInt32_append (by omega), List.drop_append_of_le_length (by omega),
    toInt32_append (by rw [List.length_drop]; omega), List.drop_append_of_le_length (by omega),
    toInt32_append (by rw [List.length_drop]; omega)]

theorem PacketHeader.bytes_read {data : List UInt8} (h : 12 ≤ data.length) : (read data).bytes = data.take 12 := by
  unfold read bytes
  rw [ofInt32_toInt32 (by omega), ofInt32_toInt32 (by rw [List.length_drop]; omega),
    ofInt32_toInt32 (by rw [List.length_drop]; omega), ← List.drop_drop (i := 4) (j := 4), ← List.take_add,
    ← List.take_add]

/-- Conversion to `size_t`. -/
def toSize (i : Int) : Nat := (i % 2 ^ 64).toNat

/-- Conversion of a `size_t` to `int`. -/
def toInt (n : Nat) : Int := (n : Int).bmod (2 ^ 32)

theorem toInt_of_lt {n : Nat} (h : n < 2147483648) : toInt n = n := by
  unfold toInt
  rw [Int.bmod_def]
  split_ifs <;> omega

/-- `size + kPacketHeaderSize`, an `int` added to a `size_t`. -/
def packetSize (header : PacketHeader) : Nat := toSize (header.size.toInt + kPacketHeaderSize)

/-- `len` is an `int`; both comparisons are of `size_t`. -/
def hasPacket (data : List UInt8) (len : Int) : Bool :=
  if kPacketHeaderSize ≤ toSize len then packetSize (PacketHeader.read data) ≤ toSize len else false

theorem size_range (header : PacketHeader) : -2147483648 ≤ header.size.toInt ∧ header.size.toInt < 2147483648 := by
  have h1 := header.size.toBitVec.le_toInt
  have h2 := header.size.toBitVec.toInt_lt
  exact ⟨h1, h2⟩

theorem packetSize_of_le (header : PacketHeader) (h : -12 ≤ header.size.toInt) :
    (packetSize header : Int) = header.size.toInt + 12 := by
  have := size_range header
  unfold packetSize toSize kPacketHeaderSize
  omega

/-- A size below `-12` wraps. -/
theorem packetSize_of_lt {header : PacketHeader} (h : header.size.toInt < -12) : 2147483648 ≤ packetSize header := by
  have := size_range header
  unfold packetSize toSize kPacketHeaderSize
  omega

/-- **The completeness test**, for a length that is positive as an `int`. -/
theorem hasPacket_iff {data : List UInt8} {len : Nat} (hlen : len < 2147483648) :
    hasPacket data len = true ↔ 12 ≤ len ∧ -12 ≤ (PacketHeader.read data).size.toInt ∧
      (PacketHeader.read data).size.toInt + 12 ≤ len := by
  have hsize : toSize len = len := by unfold toSize; omega
  unfold hasPacket
  rw [hsize]
  by_cases hneg : (PacketHeader.read data).size.toInt < -12
  · have := packetSize_of_lt hneg
    split_ifs <;> simp <;> omega
  · have := packetSize_of_le (PacketHeader.read data) (by omega)
    unfold kPacketHeaderSize
    split_ifs <;> simp <;> omega

/-- A packet that can be sent: the body has an `int` length that leaves room for the header. -/
structure Packet where
  type : Int32
  extraID : Int32
  body : List UInt8
  body_lt : body.length < 2147483648

namespace Packet

def header (p : Packet) : PacketHeader := { type := p.type, size := .ofNat p.body.length, extraID := p.extraID }

/-- The packet on the wire. -/
def bytes (p : Packet) : List UInt8 := p.header.bytes ++ p.body

@[simp] theorem length_bytes (p : Packet) : p.bytes.length = 12 + p.body.length := by
  rw [bytes, List.length_append, PacketHeader.length_bytes, kPacketHeaderSize]

theorem size_header (p : Packet) : p.header.size.toInt = p.body.length := by
  have := p.body_lt
  show (Int32.ofNat p.body.length).toInt = _
  exact Int32.toInt_ofNat_of_lt this

theorem read_bytes (p : Packet) (rest : List UInt8) : PacketHeader.read (p.bytes ++ rest) = p.header := by
  rw [bytes, List.append_assoc, PacketHeader.read_bytes]

/-- No packet is a first part of another. -/
theorem append_inj {p q : Packet} {rest rest' : List UInt8} (h : p.bytes ++ rest = q.bytes ++ rest') :
    p = q ∧ rest = rest' := by
  have hheader : p.header = q.header := by rw [← p.read_bytes rest, h, q.read_bytes rest']
  have hlength : p.body.length = q.body.length := by
    have hp := p.size_header
    have hq := q.size_header
    rw [hheader] at hp
    omega
  obtain ⟨hbytes, hrest⟩ := List.append_inj h (by rw [length_bytes, length_bytes, hlength])
  have hbody : p.body = q.body := (List.append_inj hbytes (by rw [hheader])).2
  refine ⟨?_, hrest⟩
  have htype : p.type = q.type := congrArg PacketHeader.type hheader
  have hextra : p.extraID = q.extraID := congrArg PacketHeader.extraID hheader
  cases p
  cases q
  simp only [Packet.mk.injEq]
  exact ⟨htype, hextra, hbody⟩

/-- Bytes that begin with a header of non-negative size and all of its body begin with a packet. -/
theorem exists_of_read {data : List UInt8} (h : 12 ≤ data.length) (h0 : 0 ≤ (PacketHeader.read data).size.toInt)
    (hle : (PacketHeader.read data).size.toInt + 12 ≤ data.length) :
    ∃ (p : Packet) (rest : List UInt8), data = p.bytes ++ rest := by
  set header := PacketHeader.read data with hread
  set n := header.size.toInt.toNat with hn
  have hbody : ((data.drop 12).take n).length = n := by
    rw [List.length_take, List.length_drop]
    omega
  have hlt : ((data.drop 12).take n).length < 2147483648 := by
    have := size_range header
    omega
  have hsize : Int32.ofNat ((data.drop 12).take n).length = header.size := by
    rw [← Int32.toInt_inj, Int32.toInt_ofNat_of_lt hlt, hbody]
    omega
  refine ⟨⟨header.type, header.extraID, (data.drop 12).take n, hlt⟩, (data.drop 12).drop n, ?_⟩
  have hheader : Packet.header ⟨header.type, header.extraID, (data.drop 12).take n, hlt⟩ = header := by
    unfold Packet.header
    rw [hsize]
  rw [bytes, hheader, hread, PacketHeader.bytes_read h, List.append_assoc, List.take_append_drop,
    List.take_append_drop]

end Packet

/-! ## Packet objects -/

/-- `buffer_`, whose length is `size_`; `logicID_`, which no constructor sets, is left out. -/
structure NetPacket where
  buffer_ : List UInt8
  deriving DecidableEq

namespace NetPacket

/-- `NetPacket(data, size)`, for a size from `0` on. -/
def ofData (data : List UInt8) (size : Int) : NetPacket := ⟨data.take size.toNat⟩

/-- `NetPacket(data, size, msgid, extraid)` -/
def ofBody (data : List UInt8) (size : Int32) (msgid extraid : Int32) : NetPacket :=
  ⟨PacketHeader.bytes { type := msgid, size := size, extraID := extraid } ++ data⟩

def createPacket (str : List UInt8) (msgid extraid : Int32) : NetPacket := ofBody str (.ofNat str.length) msgid extraid

/-- The first comparison leaves out the length of a header, where `hasPacket` takes it in. -/
def getPacket (data : List UInt8) (len : Int) : Option NetPacket :=
  if kPacketHeaderSize < toSize len then
    if packetSize (PacketHeader.read data) ≤ toSize len then
      some (ofData data (toInt (packetSize (PacketHeader.read data))))
    else none
  else none

/-- There is a packet where the other test says so, unless it is a header alone. -/
theorem getPacket_isSome_iff {data : List UInt8} {len : Nat} (hlen : len < 2147483648) :
    (getPacket data len).isSome = true ↔ hasPacket data len = true ∧ len ≠ 12 := by
  have hsize : toSize len = len := by unfold toSize; omega
  unfold getPacket hasPacket
  rw [hsize]
  unfold kPacketHeaderSize
  split_ifs <;> simp <;> omega

theorem createPacket_eq {body : List UInt8} (h : body.length < 2147483648) (type extraID : Int32) :
    createPacket body type extraID = ⟨Packet.bytes ⟨type, extraID, body, h⟩⟩ := rfl

/-- The bytes of a packet give the packet back, if there is a byte behind the header. -/
theorem getPacket_bytes {p : Packet} {trailing : List UInt8} (h : (p.bytes ++ trailing).length < 2147483648) :
    getPacket (p.bytes ++ trailing) (p.bytes ++ trailing).length = some ⟨p.bytes⟩ ↔ p.body ≠ [] ∨ trailing ≠ [] := by
  have hread := p.read_bytes trailing
  have hheader := p.size_header
  have hlength : (p.bytes ++ trailing).length = 12 + p.body.length + trailing.length := by
    rw [List.length_append, Packet.length_bytes]
  have hsize : packetSize p.header = p.bytes.length := by
    have hle := packetSize_of_le p.header (by omega)
    rw [Packet.length_bytes]
    omega
  have hhas : hasPacket (p.bytes ++ trailing) (p.bytes ++ trailing).length = true := by
    rw [hasPacket_iff h, hread]
    omega
  have hsome : (getPacket (p.bytes ++ trailing) (p.bytes ++ trailing).length).isSome = true ↔ _ :=
    getPacket_isSome_iff h
  rw [hhas, eq_self, true_and, hlength] at hsome
  constructor
  · intro hget
    rw [hlength] at hget
    have hne := hsome.mp (by rw [hget]; rfl)
    by_contra hnil
    rw [not_or, not_not, not_not] at hnil
    rw [hnil.1, hnil.2] at hne
    exact hne rfl
  · intro hne
    have hpos : 12 + p.body.length + trailing.length ≠ 12 := by
      rcases hne with hne | hne <;> have := List.length_pos_iff.mpr hne <;> omega
    obtain ⟨packet, hget⟩ := Option.isSome_iff_exists.mp (hsome.mpr hpos)
    rw [hlength, hget]
    unfold getPacket at hget
    split_ifs at hget
    have hint : toInt p.bytes.length = p.bytes.length := toInt_of_lt (by rw [List.length_append] at h; omega)
    rw [hread, hsize, hint, ofData, Int.toNat_natCast, List.take_left] at hget
    exact hget.symm

/-- **Packet objects, exactly**: a packet comes back from its own bytes and what is behind them if and only if some byte
is behind its header, and on bytes with a size from `0` on the two tests differ on a header of size `0` alone. -/
theorem getPacket_exact (body : List UInt8) (type extraID : Int32) (trailing data : List UInt8)
    (hlen : 12 + body.length + trailing.length < 2147483648) (hdata : data.length < 2147483648)
    (hsize : 12 ≤ data.length → 0 ≤ (PacketHeader.read data).size.toInt ∧
      (PacketHeader.read data).size.toInt + 12 < 2147483648) :
    (getPacket ((createPacket body type extraID).buffer_ ++ trailing)
        ((createPacket body type extraID).buffer_ ++ trailing).length = some (createPacket body type extraID) ↔
      body ≠ [] ∨ trailing ≠ []) ∧
    (((getPacket data data.length).isSome = true ↔ hasPacket data data.length = true) ↔
      ¬ (data.length = 12 ∧ (PacketHeader.read data).size.toInt = 0)) := by
  constructor
  · have hbody : body.length < 2147483648 := by omega
    have hlength : (Packet.bytes ⟨type, extraID, body, hbody⟩ ++ trailing).length < 2147483648 := by
      rw [List.length_append, Packet.length_bytes]
      exact hlen
    rw [createPacket_eq hbody]
    exact getPacket_bytes hlength
  · rw [getPacket_isSome_iff hdata, hasPacket_iff hdata]
    omega

/-- A packet without a body and with a byte behind it, and the header of a longer packet of which one byte has come. -/
theorem getPacket_exact_empty : getPacket ((createPacket [] 7 0).buffer_ ++ [1]) 13 = some (createPacket [] 7 0) ∧
    ((getPacket ((createPacket [1, 2, 3] 7 0).buffer_.take 13) 13).isSome = true ↔
      hasPacket ((createPacket [1, 2, 3] 7 0).buffer_.take 13) 13 = true) := by
  obtain ⟨hback, hagree⟩ := getPacket_exact [] 7 0 [1] ((createPacket [1, 2, 3] 7 0).buffer_.take 13) (by decide)
    (by decide) (by decide)
  exact ⟨hback.mpr (.inr (by decide)), hagree.mpr (by decide)⟩

/-- A packet without a body is complete for `hasPacket` and none for `getPacket`. -/
theorem getPacket_misses_empty :
    (¬ ∀ (body : List UInt8) (type extraID : Int32) (trailing : List UInt8),
      12 + body.length + trailing.length < 2147483648 →
      getPacket ((createPacket body type extraID).buffer_ ++ trailing)
        ((createPacket body type extraID).buffer_ ++ trailing).length = some (createPacket body type extraID)) ∧
    ¬ ∀ data : List UInt8, data.length < 2147483648 → 0 ≤ (PacketHeader.read data).size.toInt →
      (PacketHeader.read data).size.toInt + 12 < 2147483648 →
      ((getPacket data data.length).isSome = true ↔ hasPacket data data.length = true) := by
  constructor
  · intro h
    exact absurd (h [] 7 0 [] (by decide)) (by decide)
  · intro h
    exact absurd (h (createPacket [] 7 0).buffer_ (by decide) (by decide) (by decide)) (by decide)

end NetPacket

end AsioUtils.Net
