import AsioUtils.Lib.Decimal
import AsioUtils.Lib.InPlace
import AsioUtils.Lib.Runs
import AsioUtils.Net.AsyncLogging

/-!
# `LogStream`: the text of a log line

`<<` writes its operand into an array of `kSmallBuffer` bytes, behind what is there. A string is copied where more than its
length is left; the digits of a number are written where at least `kMaxNumericSize` bytes are left, last digit first, and
turned round in place. `none` is a write outside the array.

* `SwapBuffer` : the array and its index; `toBuffer`, `calls_refine` : the buffer the logger's thread deals with;
* `convert`, `convert_spec` : the text of a number, with a zero behind it;
* `LogStream`, `Operand`, `out` : the stream, what `<<` is given and what it does; `out_spec`;
* `lines_of_whole_pieces` : over any sequence of `<<`.
-/

namespace AsioUtils.Net.LogLine

open Runs

def kSmallBuffer : Nat := 4000

def kMaxNumericSize : Nat := 32

/-- `size_t` counts modulo this. -/
def SIZE_T : Nat := 18446744073709551616

structure SwapBuffer (SIZE : Nat) where
  data_ : Vector UInt8 SIZE
  writeIndex_ : Nat := 0

namespace SwapBuffer

variable {SIZE : Nat}

def readable (b : SwapBuffer SIZE) : Nat := b.writeIndex_

def writable (b : SwapBuffer SIZE) : Nat := (SIZE + SIZE_T - b.writeIndex_) % SIZE_T

def add (b : SwapBuffer SIZE) (len : Nat) : SwapBuffer SIZE := { b with writeIndex_ := (b.writeIndex_ + len) % SIZE_T }

def append (b : SwapBuffer SIZE) (buf : List UInt8) : Option (SwapBuffer SIZE) :=
  if b.writable > buf.length then
    (InPlace.copy b.data_ b.writeIndex_ buf).map fun data => { b with data_ := data }.add buf.length
  else some b

def reset (b : SwapBuffer SIZE) : SwapBuffer SIZE := { b with writeIndex_ := 0 }

protected def toString (b : SwapBuffer SIZE) : List UInt8 := b.data_.toList.take b.readable

/-- The buffer as what was written to it. -/
def toBuffer (b : SwapBuffer SIZE) : Logging.SwapBuffer SIZE where
  content := b.toString
  fits := by
    rw [SwapBuffer.toString, List.length_take, Vector.length_toList]
    exact Nat.min_le_right ..

section InBounds

variable {b : SwapBuffer SIZE} (hsize : SIZE < SIZE_T) (h : b.writeIndex_ < SIZE)

include hsize h in
theorem writable_eq : b.writable = SIZE - b.writeIndex_ := by
  unfold SIZE_T at hsize
  unfold writable SIZE_T
  omega

include h in
theorem length_toString : b.toString.length = b.writeIndex_ := by
  rw [SwapBuffer.toString, List.length_take, Vector.length_toList, readable]
  omega

include h in
/-- The array: what was written, as much as will be written next, and what is behind that. -/
theorem split_data (len : Nat) (hlen : b.writeIndex_ + len ≤ SIZE) :
    ∃ mid post, b.data_.toList = b.toString ++ mid ++ post ∧ mid.length = len := by
  refine ⟨(b.data_.toList.drop b.writeIndex_).take len, (b.data_.toList.drop b.writeIndex_).drop len, ?_, ?_⟩
  · rw [List.append_assoc, List.take_append_drop]
    exact (List.take_append_drop ..).symm
  · rw [List.length_take, List.length_drop, Vector.length_toList]
    omega

include hsize h in
/-- The index is set behind what is written behind the rest. -/
theorem add_written {data : Vector UInt8 SIZE} {text post : List UInt8} (hdata : data.toList = b.toString ++ text ++ post)
    (hlen : b.writeIndex_ + text.length < SIZE) :
    (add { b with data_ := data } text.length).writeIndex_ = b.writeIndex_ + text.length ∧
      (add { b with data_ := data } text.length).toString = b.toString ++ text := by
  have hindex : (add { b with data_ := data } text.length).writeIndex_ = b.writeIndex_ + text.length :=
    Nat.mod_eq_of_lt (Nat.lt_trans hlen hsize)
  refine ⟨hindex, ?_⟩
  have hfront : b.writeIndex_ + text.length = (b.toString ++ text).length := by rw [List.length_append, length_toString h]
  show data.toList.take (readable _) = _
  rw [readable, hindex, hdata, hfront, List.take_left]

include hsize h in
/-- **`append`** : all of the bytes where more than their number is left, else nothing. -/
theorem append_spec (buf : List UInt8) : ∃ b', b.append buf = some b' ∧ b'.writeIndex_ < SIZE ∧
    if buf.length < SIZE - b.writeIndex_ then b'.toString = b.toString ++ buf else b' = b := by
  rw [append, writable_eq hsize h]
  split_ifs with hfits
  · obtain ⟨mid, post, hdata, hmid⟩ := split_data h buf.length (by omega)
    obtain ⟨data, hcopy, hdata⟩ := InPlace.copy_spec hdata hmid
    rw [length_toString h] at hcopy
    obtain ⟨hindex, htext⟩ := add_written hsize h hdata (by omega)
    refine ⟨_, by rw [hcopy, Option.map_some], ?_, htext⟩
    rw [hindex]
    omega
  · exact ⟨b, rfl, h, rfl⟩

include hsize h in
/-- The bytes that were written are those of the logger's buffer. -/
theorem append_refines (buf : List UInt8) :
    ∃ b', b.append buf = some b' ∧ b'.writeIndex_ < SIZE ∧ b'.toBuffer = b.toBuffer.append buf := by
  obtain ⟨b', hb', hlt, hspec⟩ := append_spec hsize h buf
  refine ⟨b', hb', hlt, ?_⟩
  have hleft : b.toBuffer.writable = SIZE - b.writeIndex_ := by
    rw [Logging.SwapBuffer.writable, Logging.SwapBuffer.readable]
    exact congrArg (SIZE - ·) (length_toString h)
  unfold Logging.SwapBuffer.append
  split_ifs at hspec ⊢ with hfits hfits' hfits'
  · simp only [toBuffer, hspec]
  · exact absurd (hleft ▸ hfits) hfits'
  · exact absurd (hleft ▸ hfits') hfits
  · rw [hspec]

end InBounds

/-- A call on a buffer. -/
inductive Call
  | append (buf : List UInt8)
  | reset

def call (b : SwapBuffer SIZE) : Call → Option (SwapBuffer SIZE)
  | .append buf => b.append buf
  | .reset => some b.reset

/-- What the call is to do to the bytes that were written. -/
def called (b : Logging.SwapBuffer SIZE) : Call → Logging.SwapBuffer SIZE
  | .append buf => b.append buf
  | .reset => b.reset

/-- The array holds what the logger's buffer says it holds, and one byte more would fit. -/
def Stands (b : SwapBuffer SIZE) (t : Logging.SwapBuffer SIZE) : Prop := b.writeIndex_ < SIZE ∧ b.toBuffer = t

theorem Stands.call {b : SwapBuffer SIZE} {t : Logging.SwapBuffer SIZE} (h : Stands b t) (hsize : SIZE < SIZE_T) (c : Call) :
    ∃ b', b.call c = some b' ∧ Stands b' (called t c) := by
  obtain ⟨hlt, rfl⟩ := h
  cases c with
  | append buf => exact append_refines hsize hlt buf
  | reset => exact ⟨b.reset, rfl, Nat.zero_lt_of_lt hlt, rfl⟩

/-- **The array and its index** are the logger's buffer over any sequence of calls, and no write is outside. -/
theorem calls_refine (hpos : 0 < SIZE) (hsize : SIZE < SIZE_T) (data : Vector UInt8 SIZE) (calls : List Call) :
    Always (beside call called) (fun p => ∃ b, p.1 = some b ∧ Stands b p.2) (some { data_ := data }, {}) calls := by
  have hcall : ∀ (b : SwapBuffer SIZE) (t : Logging.SwapBuffer SIZE) c, Stands b t → True →
      ∃ b', b.call c = some b' ∧ Stands b' (called t c) := fun _ _ c h _ => h.call hsize c
  exact refines_always hcall ⟨hpos, rfl⟩ (along_of_mem fun _ _ _ _ _ => trivial)

end SwapBuffer

/-! ## `convert` -/

def bytes (s : String) : List UInt8 := s.toList.map Char.toUInt8

def digits : List Char := "9876543210123456789".toList

/-- `zero[lsd]`, where `zero` points into the middle of `digits` -/
def zero (lsd : Int) : Option UInt8 := if 0 ≤ 9 + lsd then digits[(9 + lsd).toNat]?.map Char.toUInt8 else none

section Convert

variable {n : Nat}

/-- The loop, with what is left of the number, whose sign the remainders have; in none of the types anything overflows. -/
def convertLoop (data : Vector UInt8 n) (p : Nat) (i : Int) : Option (Vector UInt8 n × Nat) :=
  (zero (i.tmod 10)).bind fun c =>
    (InPlace.put data p c).bind fun data =>
      if h : i.tdiv 10 = 0 then some (data, p + 1) else convertLoop data (p + 1) (i.tdiv 10)
termination_by i.natAbs
decreasing_by
  have hdiv : (i.tdiv 10).natAbs = i.natAbs / 10 := Int.natAbs_tdiv i 10
  omega

/-- `if (value < 0) *p++ = '-'` -/
def convertSign (data : Vector UInt8 n) (p : Nat) (value : Int) : Option (Vector UInt8 n × Nat) :=
  if value < 0 then (InPlace.put data p '-'.toUInt8).map fun data => (data, p + 1) else some (data, p)

/-- The number is written from `buf` on; `p` ends behind its last character. -/
def convert (data : Vector UInt8 n) (buf : Nat) (value : Int) : Option (Vector UInt8 n × Nat) := do
  let (data, p) ← convertLoop data buf value
  let (data, p) ← convertSign data p value
  let data ← InPlace.put data p 0
  let data ← InPlace.reverse data buf p
  return (data, p - buf)

/-- The text of a number, as bytes. -/
def text (v : Int) : List UInt8 := bytes (toString v)

theorem zero_of_lt {lsd : Int} (h : lsd.natAbs < 10) : zero lsd = some (Nat.digitChar lsd.natAbs).toUInt8 := by
  have hall : ∀ k : Fin 19, zero (k - 9) = some (Nat.digitChar ((k : Int) - 9).natAbs).toUInt8 := by decide
  have hk := hall ⟨(lsd + 9).toNat, by omega⟩
  have hlsd : ((lsd + 9).toNat : Int) - 9 = lsd := by omega
  rwa [hlsd] at hk

/-- The digits, last one first. -/
def lastFirst (i : Int) : List UInt8 := ((Nat.toDigits 10 i.natAbs).map Char.toUInt8).reverse

/-- One turn of the loop takes the last digit off. -/
theorem lastFirst_eq (i : Int) : lastFirst i = (Nat.digitChar (i.tmod 10).natAbs).toUInt8 ::
    if i.tdiv 10 = 0 then [] else lastFirst (i.tdiv 10) := by
  have hdiv : (i.tdiv 10).natAbs = i.natAbs / 10 := Int.natAbs_tdiv i 10
  have hmod : (i.tmod 10).natAbs = i.natAbs % 10 := Int.natAbs_tmod i 10
  split_ifs with hzero
  · have hlt : i.natAbs < 10 := by omega
    rw [lastFirst, Nat.toDigits_of_lt_base hlt, hmod, Nat.mod_eq_of_lt hlt]
    rfl
  · have hle : 10 ≤ i.natAbs := by omega
    rw [lastFirst, lastFirst, Nat.toDigits_of_base_le (by decide) hle, List.map_append, List.reverse_append, hdiv, hmod]
    rfl

/-- The loop copies the digits. -/
theorem convertLoop_eq (data : Vector UInt8 n) (p : Nat) (i : Int) : convertLoop data p i =
    (InPlace.copy data p (lastFirst i)).map fun data => (data, p + (lastFirst i).length) := by
  induction data, p, i using convertLoop.induct with
  | case1 data p i ih =>
    have hmod : (i.tmod 10).natAbs < 10 := by
      have heq : (i.tmod 10).natAbs = i.natAbs % 10 := Int.natAbs_tmod i 10
      omega
    rw [convertLoop, zero_of_lt hmod, Option.bind_some, lastFirst_eq, InPlace.copy, Option.map_bind]
    refine Option.bind_congr fun data' hput => ?_
    split_ifs with hzero
    · rfl
    · rw [ih data' hzero, List.length_cons, Nat.add_assoc, Nat.add_comm 1]
      rfl

def sign (v : Int) : List UInt8 := if v < 0 then ['-'.toUInt8] else []

/-- The sign goes behind the digits, as all will be turned round. -/
theorem reverse_text (v : Int) : (text v).reverse = lastFirst v ++ sign v := by
  rw [text, bytes, Decimal.toList_toString, List.map_append, List.reverse_append, lastFirst, sign]
  split_ifs <;> rfl

theorem length_text_eq (v : Int) : (text v).length = (lastFirst v).length + (sign v).length := by
  rw [← List.length_reverse, reverse_text, List.length_append]

theorem convertSign_eq (data : Vector UInt8 n) (p : Nat) (value : Int) : convertSign data p value =
    (InPlace.copy data p (sign value)).map fun data => (data, p + (sign value).length) := by
  rw [convertSign, sign]
  split_ifs
  · show _ = ((InPlace.put data p _).bind some).map _
    rw [Option.bind_fun_some]
    rfl
  · rfl

theorem convert_eq (data : Vector UInt8 n) (buf : Nat) (value : Int) : convert data buf value =
    (InPlace.copy data buf ((text value).reverse ++ [0])).bind fun data =>
      (InPlace.reverse data buf (buf + (text value).length)).map fun data => (data, (text value).length) := by
  rw [convert, convertLoop_eq, reverse_text, InPlace.copy_append, InPlace.copy_append, Option.bind_assoc]
  cases InPlace.copy data buf (lastFirst value) with
  | none => rfl
  | some data₁ =>
    simp only [Option.map_some, Option.bind_eq_bind, Option.bind_some, convertSign_eq]
    cases InPlace.copy data₁ (buf + (lastFirst value).length) (sign value) with
    | none => rfl
    | some data₂ =>
      simp only [Option.map_some, Option.bind_some, InPlace.copy, Option.bind_fun_some, length_text_eq, List.length_append,
        Nat.add_assoc]
      refine Option.bind_congr fun data₃ _ => ?_
      rw [Option.map_eq_bind, Nat.add_sub_cancel_left]
      rfl

/-- **`convert`** : the text of the number and a zero, where there is room for them. -/
theorem convert_spec {data : Vector UInt8 n} {pre mid post : List UInt8} (h : data.toList = pre ++ mid ++ post) {value : Int}
    (hmid : mid.length = (text value).length + 1) :
    ∃ data', convert data pre.length value = some (data', (text value).length) ∧
      data'.toList = pre ++ text value ++ 0 :: post := by
  have hlength : mid.length = ((text value).reverse ++ [0]).length := by
    rw [hmid, List.length_append, List.length_reverse, List.length_singleton]
  obtain ⟨data₁, hcopy, hdata₁⟩ := InPlace.copy_spec h hlength
  have hsplit : data₁.toList = pre ++ (text value).reverse ++ 0 :: post := by simpa using hdata₁
  obtain ⟨data₂, hreverse, hdata₂⟩ := InPlace.reverse_spec hsplit
  rw [List.length_reverse] at hreverse
  rw [List.reverse_reverse] at hdata₂
  exact ⟨data₂, by rw [convert_eq, hcopy, Option.bind_some, hreverse, Option.map_some], hdata₂⟩

/-- A number of 64 bits leaves room for the zero. -/
theorem length_text {v : Int} (h : v.natAbs < 18446744073709551616) : (text v).length + 1 ≤ kMaxNumericSize := by
  have hdigits : (Nat.toDigits 10 v.natAbs).length ≤ 20 :=
    (Nat.length_toDigits_le_iff (by decide) (by decide)).mpr (Nat.lt_trans h (by decide))
  have hsign : (if v < 0 then ['-'] else []).length ≤ 1 := by split_ifs <;> simp
  rw [text, bytes, List.length_map, Decimal.toList_toString, List.length_append]
  unfold kMaxNumericSize
  omega

end Convert

/-! ## `LogStream` -/

structure LogStream where
  buffer_ : SwapBuffer kSmallBuffer

/-- What `<<` is given. A pointer to characters may be null; behind it are those up to a zero and others. -/
inductive Operand
  | bool (v : Bool)
  | short (v : Int16)
  | unsignedShort (v : UInt16)
  | int (v : Int32)
  | unsignedInt (v : UInt32)
  | long (v : Int64)
  | unsignedLong (v : UInt64)
  | longLong (v : Int64)
  | unsignedLongLong (v : UInt64)
  | char (v : UInt8)
  | cstr (str : Option (List UInt8))
  | string (v : List UInt8)

def strlen (str : List UInt8) : Nat := (str.takeWhile (· ≠ 0)).length

namespace LogStream

def append (l : LogStream) (data : List UInt8) : Option LogStream :=
  (l.buffer_.append data).map fun buffer => { l with buffer_ := buffer }

def formatInteger (l : LogStream) (v : Int) : Option LogStream :=
  if l.buffer_.writable ≥ kMaxNumericSize then
    (convert l.buffer_.data_ l.buffer_.writeIndex_ v).map fun r =>
      { l with buffer_ := { l.buffer_ with data_ := r.1 }.add r.2 }
  else some l

/-- `l << op` -/
def out (l : LogStream) : Operand → Option LogStream
  | .bool v => l.append (bytes (if v then "1" else "0"))
  | .short v => l.formatInteger v.toInt32.toInt
  | .unsignedShort v => l.formatInteger v.toUInt32.toNat
  | .int v => l.formatInteger v.toInt
  | .unsignedInt v => l.formatInteger v.toNat
  | .long v => l.formatInteger v.toInt
  | .unsignedLong v => l.formatInteger v.toNat
  | .longLong v => l.formatInteger v.toInt
  | .unsignedLongLong v => l.formatInteger v.toNat
  | .char v => l.append [v]
  | .cstr (some str) => l.append (str.take (strlen str))
  | .cstr none => l.append (bytes "(null)")
  | .string v => l.append v

end LogStream

/-! ## Pieces -/

namespace Operand

/-- A number, or the bytes of a string. -/
def value : Operand → Int ⊕ List UInt8
  | bool v => .inr (bytes (if v then "1" else "0"))
  | short v => .inl v.toInt
  | unsignedShort v => .inl v.toNat
  | int v => .inl v.toInt
  | unsignedInt v => .inl v.toNat
  | long v => .inl v.toInt
  | unsignedLong v => .inl v.toNat
  | longLong v => .inl v.toInt
  | unsignedLongLong v => .inl v.toNat
  | char v => .inr [v]
  | cstr (some str) => .inr (str.takeWhile (· ≠ 0))
  | cstr none => .inr (bytes "(null)")
  | string v => .inr v

/-- The number, where it is one. -/
def integer? (op : Operand) : Option Int := op.value.getLeft?

/-- What is to stand in the line for it. -/
def piece (op : Operand) : List UInt8 := op.value.elim text id

theorem natAbs_lt {op : Operand} {v : Int} (h : op.value = .inl v) : v.natAbs < 18446744073709551616 := by
  cases op with
  | cstr str => cases str <;> cases h
  | bool | char | string => cases h
  | short w | int w | long w | longLong w =>
    obtain rfl := Sum.inl.inj h
    have hle := w.le_toInt
    have hlt := w.toInt_lt
    omega
  | unsignedShort w | unsignedInt w | unsignedLong w | unsignedLongLong w =>
    obtain rfl := Sum.inl.inj h
    have hlt := w.toNat_lt
    omega

end Operand

namespace LogStream

/-- What was written. -/
def content (l : LogStream) : List UInt8 := l.buffer_.toString

/-- How many bytes are left. -/
def left (l : LogStream) : Nat := kSmallBuffer - l.buffer_.writeIndex_

theorem out_eq (l : LogStream) (op : Operand) : l.out op = op.value.elim l.formatInteger l.append := by
  cases op with
  | cstr str =>
    cases str with
    | none => rfl
    | some str =>
      exact congrArg l.append (List.prefix_iff_eq_take.mp (List.takeWhile_prefix _)).symm
  | short v => exact congrArg l.formatInteger v.toInt_toInt32
  | unsignedShort v => exact congrArg (fun n : Nat => l.formatInteger n) v.toNat_toUInt32
  | _ => rfl

/-- What one `<<` does to a line: the whole piece goes behind it, or nothing where the piece does not fit, or would be a
number and few bytes are left. -/
def Puts (l l' : LogStream) (op : Operand) : Prop :=
  l'.content = l.content ++ op.piece ∨
    l'.content = l.content ∧ (l.left ≤ op.piece.length ∨ op.integer? ≠ none ∧ l.left < kMaxNumericSize)

def InBounds (l : LogStream) : Prop := l.buffer_.writeIndex_ < kSmallBuffer

theorem kSmallBuffer_lt : kSmallBuffer < SIZE_T := by decide

theorem append_spec {l : LogStream} (h : l.InBounds) (data : List UInt8) : ∃ l', l.append data = some l' ∧ l'.InBounds ∧
    (l'.content = l.content ++ data ∨ l'.content = l.content ∧ l.left ≤ data.length) := by
  obtain ⟨b, hb, hbounds, hspec⟩ := SwapBuffer.append_spec kSmallBuffer_lt h data
  refine ⟨{ l with buffer_ := b }, by rw [append, hb, Option.map_some], hbounds, ?_⟩
  split_ifs at hspec with hfits
  · exact .inl hspec
  · exact .inr ⟨congrArg SwapBuffer.toString hspec, Nat.not_lt.mp hfits⟩

theorem formatInteger_spec {l : LogStream} (h : l.InBounds) {v : Int} (hv : v.natAbs < 18446744073709551616) :
    ∃ l', l.formatInteger v = some l' ∧ l'.InBounds ∧
      (l'.content = l.content ++ text v ∨ l'.content = l.content ∧ l.left < kMaxNumericSize) := by
  have hroom := length_text hv
  rw [formatInteger, SwapBuffer.writable_eq kSmallBuffer_lt h]
  split_ifs with hleft
  · have hend : l.buffer_.writeIndex_ + ((text v).length + 1) ≤ kSmallBuffer := by omega
    obtain ⟨mid, post, hdata, hmid⟩ := SwapBuffer.split_data h _ hend
    obtain ⟨data, hconvert, hdata⟩ := convert_spec hdata hmid
    rw [SwapBuffer.length_toString h] at hconvert
    obtain ⟨hindex, htext⟩ := SwapBuffer.add_written kSmallBuffer_lt h hdata hend
    refine ⟨{ buffer_ := SwapBuffer.add { l.buffer_ with data_ := data } (text v).length },
      by rw [hconvert]; rfl, ?_, .inl htext⟩
    show SwapBuffer.writeIndex_ _ < kSmallBuffer
    rw [hindex]
    exact hend
  · exact ⟨l, rfl, h, .inr ⟨rfl, Nat.not_le.mp hleft⟩⟩

/-- **One `<<`** writes inside the array, and puts a whole piece into it or nothing. -/
theorem out_spec {l : LogStream} (h : l.InBounds) (op : Operand) :
    ∃ l', l.out op = some l' ∧ l'.InBounds ∧ Puts l l' op := by
  rw [out_eq]
  cases hvalue : op.value with
  | inl v =>
    obtain ⟨l', heq, hbounds, hputs⟩ := formatInteger_spec h (Operand.natAbs_lt hvalue)
    have hpiece : op.piece = text v := by rw [Operand.piece, hvalue]; rfl
    have hinteger : op.integer? ≠ none := by simp [Operand.integer?, hvalue]
    refine ⟨l', heq, hbounds, ?_⟩
    rw [Puts, hpiece]
    exact hputs.imp id fun ⟨hsame, hleft⟩ => ⟨hsame, .inr ⟨hinteger, hleft⟩⟩
  | inr data =>
    obtain ⟨l', heq, hbounds, hputs⟩ := append_spec h data
    have hpiece : op.piece = data := by rw [Operand.piece, hvalue]; rfl
    refine ⟨l', heq, hbounds, ?_⟩
    rw [Puts, hpiece]
    exact hputs.imp id fun ⟨hsame, hleft⟩ => ⟨hsame, .inl hleft⟩

end LogStream

/-! ## A line -/

open LogStream

/-- Nothing is written yet; the array holds anything. -/
def fresh (data : Vector UInt8 kSmallBuffer) : LogStream := { buffer_ := { data_ := data } }

def step (s : Option LogStream) (op : Operand) : Option LogStream := s.bind (·.out op)

theorem inBounds_fresh (data : Vector UInt8 kSmallBuffer) : (fresh data).InBounds := by
  show 0 < kSmallBuffer
  decide

theorem step_inBounds (s : Option LogStream) (op : Operand) (h : ∃ l, s = some l ∧ l.InBounds) :
    ∃ l, step s op = some l ∧ l.InBounds := by
  obtain ⟨l, rfl, hl⟩ := h
  obtain ⟨l', heq, hl', -⟩ := out_spec hl op
  exact ⟨l', heq, hl'⟩

/-- The pieces that were put into the line, in their order. -/
theorem kept_run {l : LogStream} (h : l.InBounds) (ops : List Operand) :
    ∃ l', ∃ kept : List (List UInt8), run step (some l) ops = some l' ∧ kept.Sublist (ops.map Operand.piece) ∧
      l'.content = l.content ++ kept.flatten := by
  induction ops generalizing l with
  | nil => exact ⟨l, [], rfl, List.Sublist.slnil, (List.append_nil _).symm⟩
  | cons op ops ih =>
    obtain ⟨l₁, heq, hl₁, hputs⟩ := out_spec h op
    obtain ⟨l₂, kept, hrun, hkept, hcontent⟩ := ih hl₁
    have hfirst : run step (some l) (op :: ops) = some l₂ := by
      rw [run_cons, ← hrun]
      exact congrArg (run step · ops) heq
    rcases hputs with hputs | ⟨hsame, -⟩
    · refine ⟨l₂, op.piece :: kept, hfirst, hkept.cons_cons _, ?_⟩
      rw [hcontent, hputs, List.append_assoc, List.flatten_cons]
    · exact ⟨l₂, kept, hfirst, hkept.cons _, by rw [hcontent, hsame]⟩

/-- A digit or a sign is one byte. -/
theorem ofUInt8_toUInt8 {c : Char} (h : c = '-' ∨ c.isDigit = true) : Char.ofUInt8 c.toUInt8 = c := by
  have hlt : c.val.toNat < 256 := by
    rcases h with rfl | hdigit
    · decide
    · simp only [Char.isDigit, Bool.and_eq_true, decide_eq_true_eq] at hdigit
      have hle : c.val.toNat ≤ 57 := hdigit.2
      omega
  refine Char.ext (UInt32.toNat_inj.mp ?_)
  show c.val.toUInt8.toUInt32.toNat = c.val.toNat
  rw [UInt8.toNat_toUInt32, UInt32.toNat_toUInt8, Nat.mod_eq_of_lt hlt]

/-- The piece of a number is the text of it that has no more than it needs. -/
theorem canonical_piece {op : Operand} {v : Int} (h : op.integer? = some v) :
    Decimal.Canonical v (op.piece.map Char.ofUInt8) := by
  have hpiece : op.piece = text v := by rw [Operand.piece, Sum.getLeft?_eq_some_iff.mp h]; rfl
  obtain ⟨c, cs, htext, hc, hcs⟩ := Decimal.toString_cons v
  have hchars : (text v).map Char.ofUInt8 = (toString v).toList := by
    rw [text, bytes, List.map_map, htext]
    have hback : ∀ d ∈ c :: cs, (Char.ofUInt8 ∘ Char.toUInt8) d = d := by
      intro d hd
      rcases List.mem_cons.mp hd with rfl | hd
      · exact ofUInt8_toUInt8 hc
      · exact ofUInt8_toUInt8 (.inr (hcs d hd))
    rw [List.map_congr_left hback, List.map_id']
  rw [hpiece, hchars]
  exact Decimal.canonical_toString v

/-- **A line is made of whole pieces**: over any sequence of `<<` on a fresh stream, every write is inside the array and
the index stays below its end; each `<<` puts its whole piece behind the line, or nothing, and that only where too little
is left; what is written is some of the pieces, in order; the piece of a number is its decimal text. -/
theorem lines_of_whole_pieces (data : Vector UInt8 kSmallBuffer) (ops : List Operand) :
    Always step (fun s => ∃ l, s = some l ∧ l.buffer_.writeIndex_ < kSmallBuffer) (some (fresh data)) ops ∧
    Along step (fun s op => ∃ l l', s = some l ∧ step s op = some l' ∧ Puts l l' op) (some (fresh data)) ops ∧
    (∃ l, ∃ kept : List (List UInt8), run step (some (fresh data)) ops = some l ∧
      kept.Sublist (ops.map Operand.piece) ∧ l.content = kept.flatten) ∧
    ∀ op ∈ ops, ∀ v, op.integer? = some v → Decimal.Canonical v (op.piece.map Char.ofUInt8) := by
  have hinv : ∃ l, some (fresh data) = some l ∧ l.InBounds := ⟨_, rfl, inBounds_fresh data⟩
  refine ⟨inv_always_all step_inBounds hinv, ?_, ?_, fun op _ v hv => canonical_piece hv⟩
  · refine (along_of_inv step_inBounds hinv).mono fun s op ⟨l, hs, hl⟩ => ?_
    obtain ⟨l', heq, -, hputs⟩ := out_spec hl op
    exact ⟨l, l', hs, by rw [hs]; exact heq, hputs⟩
  · exact kept_run (inBounds_fresh data) ops

end AsioUtils.Net.LogLine
