import AsioUtils.Lib.Bytes
import AsioUtils.Net.DataBuffer
import Mathlib.Tactic.Common

/-!
# Integers in a `DataBuffer`

`appendInt32`, `appendInt16`, `appendInt8`, what reads them back, and `prepend`, on a little-endian host. All widths go
through `htonl`, which is a 32-bit operation: a narrower integer is widened to an `int`, its four bytes are swapped, and
the low ones of the result are kept, which are copies of the sign.

* `htonl` : the four bytes in the other order, its own inverse (`htonl_htonl`);
* `netInt`, `netInt_narrow` : the integer that is stored, and which one that is for the narrow widths;
* `survives_iff` : what comes back as it was;
* `appendInts_exact` : for lists of integers of any widths, and for `prepend`.
-/

namespace AsioUtils.Net

open Bytes

/-- Network order; `ntohl` is the same function. -/
def htonl (x : BitVec 32) : BitVec 32 :=
  x.extractLsb' 0 8 ++ x.extractLsb' 8 8 ++ x.extractLsb' 16 8 ++ x.extractLsb' 24 8

theorem getLsbD_htonl (x : BitVec 32) {i : Nat} (hi : i < 32) :
    (htonl x).getLsbD i = x.getLsbD (8 * (3 - i / 8) + i % 8) := by
  unfold htonl
  simp only [BitVec.getLsbD_append, BitVec.getLsbD_extractLsb']
  split_ifs with h1 h2 h3
  · rw [decide_eq_true h1, Bool.true_and]
    congr 1
    omega
  · rw [decide_eq_true h2, Bool.true_and]
    congr 1
    omega
  · rw [decide_eq_true h3, Bool.true_and]
    congr 1
    omega
  · rw [decide_eq_true (by omega : i - 8 - 8 - 8 < 8), Bool.true_and]
    congr 1
    omega

theorem htonl_htonl (x : BitVec 32) : htonl (htonl x) = x := by
  refine BitVec.eq_of_getLsbD_eq fun i hi => ?_
  rw [getLsbD_htonl _ hi, getLsbD_htonl _ (by omega)]
  congr 1
  omega

/-- An `n`-byte integer as an `int` through `htonl`, cut to `n` bytes again. -/
def netInt (n : Nat) (x : BitVec (8 * n)) : BitVec (8 * n) := (htonl (x.signExtend 32)).setWidth (8 * n)

theorem netInt_four (x : BitVec 32) : netInt 4 x = htonl x := by
  show (htonl (BitVec.signExtend 32 x)).setWidth 32 = _
  rw [BitVec.signExtend_eq, BitVec.setWidth_eq]

/-- Of one or two bytes copies of the sign are left. -/
theorem netInt_narrow {n : Nat} (hn : n ≤ 2) (x : BitVec (8 * n)) :
    netInt n x = if x.msb then BitVec.allOnes (8 * n) else 0 := by
  refine BitVec.eq_of_getLsbD_eq fun i hi => ?_
  rw [netInt, BitVec.getLsbD_setWidth, getLsbD_htonl _ (by omega), BitVec.getLsbD_signExtend, if_neg (by omega),
    decide_eq_true hi, decide_eq_true (by omega), Bool.true_and, Bool.true_and]
  cases x.msb <;> simp [hi]

/-- What is read of a stored integer. -/
theorem netInt_netInt_narrow {n : Nat} (hn : n ≤ 2) (hpos : 0 < n) (x : BitVec (8 * n)) :
    netInt n (netInt n x) = x ↔ x = 0 ∨ x = BitVec.allOnes (8 * n) := by
  have hmsb : (BitVec.allOnes (8 * n)).msb = true := by simp [BitVec.msb_allOnes, hpos]
  have hzero : (0 : BitVec (8 * n)).msb = false := by simp
  rw [netInt_narrow hn x]
  constructor
  · intro h
    cases hx : x.msb with
    | false =>
      rw [hx, if_neg Bool.false_ne_true, netInt_narrow hn, hzero, if_neg Bool.false_ne_true] at h
      exact .inl h.symm
    | true =>
      rw [hx, if_pos rfl, netInt_narrow hn, hmsb, if_pos rfl] at h
      exact .inr h.symm
  · rintro (rfl | rfl)
    · rw [hzero, if_neg Bool.false_ne_true, netInt_narrow hn, hzero, if_neg Bool.false_ne_true]
    · rw [hmsb, if_pos rfl, netInt_narrow hn, hmsb, if_pos rfl]

namespace DataBuffer

/-! ## The operations -/

/-- `append(&val, sizeof(val))` -/
def appendInt (n : Nat) (b : DataBuffer) (x : BitVec (8 * n)) : Option DataBuffer :=
  b.append (ofNat n (netInt n x).toNat)

/-- `memcpy(&val, peek(), sizeof(val))` and `ntohl(val)` -/
def peekInt (n : Nat) (b : DataBuffer) : Option (BitVec (8 * n)) :=
  if n ≤ b.readableBytes then some (netInt n (.ofNat (8 * n) (toNat (b.peek.take n)))) else none

def readInt (n : Nat) (b : DataBuffer) : Option (BitVec (8 * n) × DataBuffer) := do
  let val ← b.peekInt n
  let b ← b.retrieve n
  return (val, b)

def prepend (b : DataBuffer) (data : List UInt8) : Option DataBuffer :=
  if h : data.length ≤ b.prependableBytes then
    some { b with
      buffer_ := b.buffer_.take (b.readerIndex_ - data.length) ++ (data ++ b.buffer_.drop b.readerIndex_)
      readerIndex_ := b.readerIndex_ - data.length
      reader_le := Nat.le_trans (Nat.sub_le _ _) b.reader_le
      writer_le := by
        have h1 := b.reader_le
        have h2 := b.writer_le
        unfold prependableBytes at h
        rw [List.length_append, List.length_append, List.length_take, List.length_drop]
        omega }
  else none

/-- `prepend(&val, sizeof(val))` -/
def prependInt (n : Nat) (b : DataBuffer) (x : BitVec (8 * n)) : Option DataBuffer :=
  b.prepend (ofNat n (netInt n x).toNat)

def appendInt32 (b : DataBuffer) (x : Int32) : Option DataBuffer := b.appendInt 4 x.toBitVec

def appendInt16 (b : DataBuffer) (x : Int16) : Option DataBuffer := b.appendInt 2 x.toBitVec

def appendInt8 (b : DataBuffer) (x : Int8) : Option DataBuffer := b.appendInt 1 x.toBitVec

def readInt32 (b : DataBuffer) : Option (Int32 × DataBuffer) := (b.readInt 4).map (Prod.map Int32.ofBitVec id)

def readInt16 (b : DataBuffer) : Option (Int16 × DataBuffer) := (b.readInt 2).map (Prod.map Int16.ofBitVec id)

def readInt8 (b : DataBuffer) : Option (Int8 × DataBuffer) := (b.readInt 1).map (Prod.map Int8.ofBitVec id)

def prependInt32 (b : DataBuffer) (x : Int32) : Option DataBuffer := b.prependInt 4 x.toBitVec

def prependInt16 (b : DataBuffer) (x : Int16) : Option DataBuffer := b.prependInt 2 x.toBitVec

def prependInt8 (b : DataBuffer) (x : Int8) : Option DataBuffer := b.prependInt 1 x.toBitVec

theorem prepend_spec {b : DataBuffer} {data : List UInt8} (h : data.length ≤ b.prependableBytes) :
    ∃ b', b.prepend data = some b' ∧ b'.content = data ++ b.content := by
  have h1 := b.reader_le
  have h2 := b.writer_le
  have hle : data.length ≤ b.readerIndex_ := h
  unfold prepend
  rw [dif_pos h]
  refine ⟨_, rfl, ?_⟩
  have htake : (b.buffer_.take (b.readerIndex_ - data.length)).length = b.readerIndex_ - data.length :=
    List.length_take_of_le (by omega)
  have hlen : b.writerIndex_ - (b.readerIndex_ - data.length) = data.length + b.readableBytes := by
    unfold readableBytes
    omega
  unfold content peek
  show ((b.buffer_.take (b.readerIndex_ - data.length) ++ (data ++ b.buffer_.drop b.readerIndex_)).drop
    (b.readerIndex_ - data.length)).take (b.writerIndex_ - (b.readerIndex_ - data.length)) = _
  rw [hlen, List.drop_left' htake, List.take_length_add_append]

/-- The integer whose bytes come first is read and taken off. -/
theorem readInt_spec {n : Nat} {b : DataBuffer} {x : BitVec (8 * n)} {rest : List UInt8}
    (h : b.content = ofNat n x.toNat ++ rest) :
    ∃ b', b.readInt n = some (netInt n x, b') ∧ b'.content = rest := by
  have hlen : n ≤ b.readableBytes := by
    rw [← length_content, h, List.length_append, length_ofNat]
    omega
  have hpeek : b.peek.take n = ofNat n x.toNat := by
    have htake : b.content.take n = b.peek.take n := by rw [content, List.take_take, Nat.min_eq_left hlen]
    rw [← htake, h, List.take_left' (length_ofNat n x.toNat)]
  have hval : BitVec.ofNat (8 * n) (toNat (b.peek.take n)) = x := by
    rw [hpeek, toNat_ofNat, Nat.mod_eq_of_lt x.isLt, BitVec.ofNat_toNat, BitVec.setWidth_eq]
  obtain ⟨b', hb', hcontent, -⟩ := retrieve_spec hlen
  refine ⟨b', ?_, ?_⟩
  · unfold readInt peekInt
    rw [if_pos hlen, hval, Option.bind_eq_bind, Option.bind_some, hb']
    rfl
  · rw [hcontent, h, List.drop_left' (length_ofNat n x.toNat)]

end DataBuffer

/-! ## Integers of any width -/

inductive IntType
  | int8 | int16 | int32
  deriving DecidableEq, Repr

/-- An integer with its width. -/
inductive IntValue
  | int8 (x : Int8)
  | int16 (x : Int16)
  | int32 (x : Int32)
  deriving DecidableEq

def IntType.read (b : DataBuffer) : IntType → Option (IntValue × DataBuffer)
  | int8 => b.readInt8.map (Prod.map .int8 id)
  | int16 => b.readInt16.map (Prod.map .int16 id)
  | int32 => b.readInt32.map (Prod.map .int32 id)

namespace IntValue

def type : IntValue → IntType
  | int8 _ => .int8
  | int16 _ => .int16
  | int32 _ => .int32

/-- `sizeof` -/
def size : IntValue → Nat
  | int8 _ => 1
  | int16 _ => 2
  | int32 _ => 4

def append (b : DataBuffer) : IntValue → Option DataBuffer
  | int8 x => b.appendInt8 x
  | int16 x => b.appendInt16 x
  | int32 x => b.appendInt32 x

def prepend (b : DataBuffer) : IntValue → Option DataBuffer
  | int8 x => b.prependInt8 x
  | int16 x => b.prependInt16 x
  | int32 x => b.prependInt32 x

/-- What is stored. -/
def bytes : IntValue → List UInt8
  | int8 x => ofNat 1 (netInt 1 x.toBitVec).toNat
  | int16 x => ofNat 2 (netInt 2 x.toBitVec).toNat
  | int32 x => ofNat 4 (netInt 4 x.toBitVec).toNat

/-- What is read of it. -/
def received : IntValue → IntValue
  | int8 x => int8 (.ofBitVec (netInt 1 (netInt 1 x.toBitVec)))
  | int16 x => int16 (.ofBitVec (netInt 2 (netInt 2 x.toBitVec)))
  | int32 x => int32 (.ofBitVec (netInt 4 (netInt 4 x.toBitVec)))

/-- The values that are copies of their sign, of the narrow widths. -/
def Survives : IntValue → Prop
  | int8 x => x = 0 ∨ x = -1
  | int16 x => x = 0 ∨ x = -1
  | int32 _ => True

instance (v : IntValue) : Decidable v.Survives := by
  cases v <;> unfold Survives <;> infer_instance

theorem survives_iff (v : IntValue) : v.received = v ↔ v.Survives := by
  cases v with
  | int8 x =>
    rw [received, int8.injEq, ← Int8.toBitVec_inj, Int8.toBitVec_ofBitVec, netInt_netInt_narrow (by decide) (by decide),
      Survives, ← Int8.toBitVec_inj, ← Int8.toBitVec_inj]
    rfl
  | int16 x =>
    rw [received, int16.injEq, ← Int16.toBitVec_inj, Int16.toBitVec_ofBitVec,
      netInt_netInt_narrow (by decide) (by decide), Survives, ← Int16.toBitVec_inj, ← Int16.toBitVec_inj]
    rfl
  | int32 x =>
    rw [received, int32.injEq, netInt_four, netInt_four, htonl_htonl, Int32.ofBitVec_toBitVec]
    exact iff_of_true rfl trivial

theorem append_spec (b : DataBuffer) (v : IntValue) :
    ∃ b', v.append b = some b' ∧ b'.content = b.content ++ v.bytes := by
  obtain ⟨b', hb', hcontent, -⟩ := DataBuffer.append_spec b v.bytes
  refine ⟨b', ?_, hcontent⟩
  cases v <;> exact hb'

theorem length_bytes (v : IntValue) : v.bytes.length = v.size := by
  cases v <;> exact length_ofNat _ _

theorem prepend_spec {b : DataBuffer} {v : IntValue} (h : v.size ≤ b.prependableBytes) :
    ∃ b', v.prepend b = some b' ∧ b'.content = v.bytes ++ b.content := by
  rw [← length_bytes] at h
  obtain ⟨b', hb', hcontent⟩ := DataBuffer.prepend_spec h
  refine ⟨b', ?_, hcontent⟩
  cases v <;> exact hb'

theorem read_spec {b : DataBuffer} {v : IntValue} {rest : List UInt8} (h : b.content = v.bytes ++ rest) :
    ∃ b', v.type.read b = some (v.received, b') ∧ b'.content = rest := by
  cases v with
  | int8 x =>
    obtain ⟨b', hb', hcontent⟩ := DataBuffer.readInt_spec h
    refine ⟨b', ?_, hcontent⟩
    show (b.readInt8).map _ = _
    rw [DataBuffer.readInt8, hb']
    rfl
  | int16 x =>
    obtain ⟨b', hb', hcontent⟩ := DataBuffer.readInt_spec h
    refine ⟨b', ?_, hcontent⟩
    show (b.readInt16).map _ = _
    rw [DataBuffer.readInt16, hb']
    rfl
  | int32 x =>
    obtain ⟨b', hb', hcontent⟩ := DataBuffer.readInt_spec h
    refine ⟨b', ?_, hcontent⟩
    show (b.readInt32).map _ = _
    rw [DataBuffer.readInt32, hb']
    rfl

end IntValue

/-! ## Lists of integers -/

namespace DataBuffer

open IntValue

def appendInts (b : DataBuffer) : List IntValue → Option DataBuffer
  | [] => some b
  | v :: vs => (v.append b).bind fun b => appendInts b vs

def readInts (b : DataBuffer) : List IntType → Option (List IntValue × DataBuffer)
  | [] => some ([], b)
  | type :: types => (type.read b).bind fun r => (readInts r.2 types).map fun rs => (r.1 :: rs.1, rs.2)

theorem appendInts_spec (b : DataBuffer) (vs : List IntValue) :
    ∃ b', b.appendInts vs = some b' ∧ b'.content = b.content ++ vs.flatMap bytes := by
  induction vs generalizing b with
  | nil => exact ⟨b, rfl, (List.append_nil _).symm⟩
  | cons v vs ih =>
    obtain ⟨b₁, hb₁, hcontent₁⟩ := IntValue.append_spec b v
    obtain ⟨b₂, hb₂, hcontent₂⟩ := ih b₁
    refine ⟨b₂, ?_, ?_⟩
    · rw [appendInts, hb₁, Option.bind_some, hb₂]
    · rw [hcontent₂, hcontent₁, List.flatMap_cons, List.append_assoc]

theorem readInts_spec {b : DataBuffer} {vs : List IntValue} {rest : List UInt8}
    (h : b.content = vs.flatMap bytes ++ rest) :
    ∃ b', b.readInts (vs.map type) = some (vs.map received, b') ∧ b'.content = rest := by
  induction vs generalizing b with
  | nil => exact ⟨b, rfl, h⟩
  | cons v vs ih =>
    rw [List.flatMap_cons, List.append_assoc] at h
    obtain ⟨b₁, hb₁, hcontent₁⟩ := read_spec h
    obtain ⟨b₂, hb₂, hcontent₂⟩ := ih hcontent₁
    refine ⟨b₂, ?_, hcontent₂⟩
    rw [List.map_cons, readInts, hb₁, Option.bind_some, hb₂]
    rfl

/-- The values come back as they were if each of them does. -/
theorem map_received_iff (vs : List IntValue) : vs.map received = vs ↔ ∀ v ∈ vs, v.Survives := by
  induction vs with
  | nil => simp
  | cons v vs ih => rw [List.map_cons, List.cons.injEq, survives_iff, ih, List.forall_mem_cons]

/-- `vs`, appended and then read behind what the buffer held before, come back, and the buffer is empty. -/
def ReadsBack (b : DataBuffer) (vs : List IntValue) : Prop :=
  ∃ b₁ b₂ b₃, b.appendInts vs = some b₁ ∧ b₁.retrieve b.readableBytes = some b₂ ∧
    b₂.readInts (vs.map type) = some (vs, b₃) ∧ b₃.readableBytes = 0

/-- `v`, prepended and then read, comes back, and what the buffer held before is left. -/
def PrependsBack (b : DataBuffer) (v : IntValue) : Prop :=
  ∃ b₁ b₂, v.prepend b = some b₁ ∧ v.type.read b₁ = some (v, b₂) ∧ b₂.content = b.content

theorem readsBack_iff (b : DataBuffer) (vs : List IntValue) : b.ReadsBack vs ↔ ∀ v ∈ vs, v.Survives := by
  obtain ⟨b₁, hb₁, hcontent₁⟩ := appendInts_spec b vs
  have hlen : b.readableBytes ≤ b₁.readableBytes := by
    rw [← length_content b, ← length_content b₁, hcontent₁, List.length_append]
    omega
  obtain ⟨b₂, hb₂, hcontent₂, -⟩ := retrieve_spec hlen
  rw [hcontent₁, List.drop_left' b.length_content, ← List.append_nil (vs.flatMap bytes)] at hcontent₂
  obtain ⟨b₃, hb₃, hcontent₃⟩ := readInts_spec hcontent₂
  rw [← map_received_iff]
  constructor
  · rintro ⟨c₁, c₂, c₃, hc₁, hc₂, hc₃, -⟩
    obtain rfl := Option.some.inj (hb₁.symm.trans hc₁)
    obtain rfl := Option.some.inj (hb₂.symm.trans hc₂)
    exact (Prod.mk.inj (Option.some.inj (hb₃.symm.trans hc₃))).1
  · intro h
    rw [h] at hb₃
    exact ⟨b₁, b₂, b₃, hb₁, hb₂, hb₃, content_eq_nil.mp hcontent₃⟩

theorem prependsBack_iff {b : DataBuffer} {v : IntValue} (h : v.size ≤ b.prependableBytes) :
    b.PrependsBack v ↔ v.Survives := by
  obtain ⟨b₁, hb₁, hcontent₁⟩ := IntValue.prepend_spec h
  obtain ⟨b₂, hb₂, hcontent₂⟩ := read_spec hcontent₁
  rw [← survives_iff]
  constructor
  · rintro ⟨c₁, c₂, hc₁, hc₂, -⟩
    obtain rfl := Option.some.inj (hb₁.symm.trans hc₁)
    exact (Prod.mk.inj (Option.some.inj (hb₂.symm.trans hc₂))).1
  · intro hv
    rw [hv] at hb₂
    exact ⟨b₁, b₂, hb₁, hb₂, hcontent₂⟩

/-- **Integers, exactly**: appended to any buffer a list of them is read back, and prepended where there is room one of
them is, if and only if those of 8 or 16 bits are all `0` or `-1`. -/
theorem appendInts_exact (b : DataBuffer) :
    (∀ vs : List IntValue, b.ReadsBack vs ↔ ∀ v ∈ vs, v.Survives) ∧
      ∀ v : IntValue, v.size ≤ b.prependableBytes → (b.PrependsBack v ↔ v.Survives) :=
  ⟨readsBack_iff b, fun _ => prependsBack_iff⟩

/-- Four bytes were read, two wait. -/
def halfRead : DataBuffer where
  buffer_ := [0, 0, 0, 0, 1, 2]
  readerIndex_ := 4
  writerIndex_ := 6
  reader_le := by decide
  writer_le := by decide

theorem appendInts_exact_halfRead :
    halfRead.ReadsBack [.int32 258, .int16 (-1), .int8 0] ∧ halfRead.PrependsBack (.int32 (-7)) := by
  obtain ⟨happend, hprepend⟩ := appendInts_exact halfRead
  exact ⟨(happend _).mpr (by decide), (hprepend _ (by decide)).mpr (by decide)⟩

/-- A 16-bit `1` comes back as `0`. -/
theorem int16_lost : ¬ ∀ (b : DataBuffer) (vs : List IntValue), b.ReadsBack vs := by
  intro h
  have hlost := (readsBack_iff (ofSize 16) [.int16 1]).mp (h _ _) (.int16 1) (List.mem_singleton.mpr rfl)
  revert hlost
  decide

end DataBuffer

end AsioUtils.Net
