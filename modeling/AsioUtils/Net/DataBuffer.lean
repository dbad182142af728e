import Mathlib.Data.List.Basic

/-!
# `DataBuffer`: a byte buffer with a reader and a writer index

The bytes between the two indices wait to be read; `append` and the socket write behind them, `retrieve` takes from the
front. A failed `assert` is `none`. As an abstract value the buffer is the byte queue `content`:

* `ensureWritableBytes_spec`, `append_spec` : making room, by moving or growing, keeps the queue; neither fails;
* `retrieve_spec`, `unwrite_spec` : `retrieve` drops from the front, `unwrite` from the back.
-/

namespace AsioUtils.Net

structure DataBuffer where
  buffer_ : List UInt8
  readerIndex_ : Nat
  writerIndex_ : Nat
  isOperating_ : Bool := false
  reader_le : readerIndex_ ≤ writerIndex_
  writer_le : writerIndex_ ≤ buffer_.length
  deriving DecidableEq

namespace DataBuffer

def kInitialSize : Nat := 1024

/-- The constructor. -/
def ofSize (initialSize : Nat) : DataBuffer where
  buffer_ := List.replicate initialSize 0
  readerIndex_ := 0
  writerIndex_ := 0
  reader_le := Nat.le_refl 0
  writer_le := Nat.zero_le _

def readableBytes (b : DataBuffer) : Nat := b.writerIndex_ - b.readerIndex_

def writableBytes (b : DataBuffer) : Nat := b.buffer_.length - b.writerIndex_

def prependableBytes (b : DataBuffer) : Nat := b.readerIndex_

/-- What lies behind the pointer `peek` returns, up to the end of the memory. -/
def peek (b : DataBuffer) : List UInt8 := b.buffer_.drop b.readerIndex_

/-- The bytes that wait to be read. -/
def content (b : DataBuffer) : List UInt8 := b.peek.take b.readableBytes

def retrieveAll (b : DataBuffer) : DataBuffer :=
  { b with readerIndex_ := 0, writerIndex_ := 0, reader_le := Nat.le_refl 0, writer_le := Nat.zero_le _ }

def retrieve (b : DataBuffer) (len : Nat) : Option DataBuffer :=
  if h : len ≤ b.readableBytes then
    if len < b.readableBytes then
      some { b with
        readerIndex_ := b.readerIndex_ + len
        reader_le := by have := b.reader_le; unfold readableBytes at h; omega }
    else some b.retrieveAll
  else none

/-- The grown memory, or the readable bytes moved to the front of it. -/
def makeSpace (b : DataBuffer) (len : Nat) : Option DataBuffer :=
  if b.writableBytes + b.prependableBytes < len then
    some { b with
      buffer_ := b.buffer_ ++ List.replicate (b.writerIndex_ + len - b.buffer_.length) 0
      writer_le := by have := b.writer_le; rw [List.length_append]; omega }
  else if 0 < b.readerIndex_ then
    some { b with
      buffer_ := b.content ++ b.buffer_.drop b.readableBytes
      readerIndex_ := 0
      writerIndex_ := b.readableBytes
      reader_le := Nat.zero_le _
      writer_le := by
        have h1 := b.reader_le
        have h2 := b.writer_le
        rw [content, peek, List.length_append, List.length_take, List.length_drop, readableBytes]
        omega }
  else none

def ensureWritableBytes (b : DataBuffer) (len : Nat) : Option DataBuffer :=
  (if b.writableBytes < len then b.makeSpace len else some b).bind fun b =>
    if len ≤ b.writableBytes then some b else none

/-- Memory written at `beginWrite`, by `std::copy` or by the socket; what does not fit the memory is no valid write. -/
def writeAt (b : DataBuffer) (data : List UInt8) : Option DataBuffer :=
  if h : data.length ≤ b.writableBytes then
    some { b with
      buffer_ := b.buffer_.take b.writerIndex_ ++ (data ++ b.buffer_.drop (b.writerIndex_ + data.length))
      writer_le := by
        have h2 := b.writer_le
        unfold writableBytes at h
        rw [List.length_append, List.length_append, List.length_take, List.length_drop]
        omega }
  else none

def hasWritten (b : DataBuffer) (len : Nat) : Option DataBuffer :=
  if h : len ≤ b.writableBytes then
    some { b with
      writerIndex_ := b.writerIndex_ + len
      reader_le := Nat.le_trans b.reader_le (Nat.le_add_right _ _)
      writer_le := by have := b.writer_le; unfold writableBytes at h; omega }
  else none

def unwrite (b : DataBuffer) (len : Nat) : Option DataBuffer :=
  if h : len ≤ b.readableBytes then
    some { b with
      writerIndex_ := b.writerIndex_ - len
      reader_le := by have := b.reader_le; unfold readableBytes at h; omega
      writer_le := Nat.le_trans (Nat.sub_le _ _) b.writer_le }
  else none

def append (b : DataBuffer) (data : List UInt8) : Option DataBuffer := do
  let b ← b.ensureWritableBytes data.length
  let b ← b.writeAt data
  b.hasWritten data.length

def operate (b : DataBuffer) : DataBuffer := { b with isOperating_ := true }

def unoperate (b : DataBuffer) : DataBuffer := { b with isOperating_ := false }

/-! ## The byte queue -/

theorem content_eq (b : DataBuffer) : b.content = (b.buffer_.take b.writerIndex_).drop b.readerIndex_ := by
  rw [content, peek, readableBytes, List.drop_take]

@[simp] theorem length_content (b : DataBuffer) : b.content.length = b.readableBytes := by
  have h1 := b.reader_le
  have h2 := b.writer_le
  rw [content, peek, List.length_take, List.length_drop, readableBytes]
  omega

theorem content_eq_nil {b : DataBuffer} : b.content = [] ↔ b.readableBytes = 0 := by
  rw [← length_content, List.length_eq_zero_iff]

@[simp] theorem content_ofSize (n : Nat) : (ofSize n).content = [] := rfl

@[simp] theorem content_operate (b : DataBuffer) : b.operate.content = b.content := rfl

@[simp] theorem content_retrieveAll (b : DataBuffer) : b.retrieveAll.content = [] := rfl

/-- Behind `peek` lie the readable bytes first. -/
theorem content_prefix_peek (b : DataBuffer) : b.content <+: b.peek := List.take_prefix _ _

theorem retrieve_spec {b : DataBuffer} {len : Nat} (h : len ≤ b.readableBytes) :
    ∃ b', b.retrieve len = some b' ∧ b'.content = b.content.drop len ∧ b'.isOperating_ = b.isOperating_ := by
  unfold retrieve
  rw [dif_pos h]
  split_ifs with hlt
  · refine ⟨_, rfl, ?_, rfl⟩
    rw [content_eq, content_eq, List.drop_drop]
  · refine ⟨_, rfl, ?_, rfl⟩
    rw [content_retrieveAll, List.drop_eq_nil_of_le (by rw [length_content]; omega)]

theorem makeSpace_spec {b : DataBuffer} {len : Nat} (h : b.writableBytes < len) :
    ∃ b', b.makeSpace len = some b' ∧ b'.content = b.content ∧ len ≤ b'.writableBytes ∧
      b'.isOperating_ = b.isOperating_ := by
  have h1 := b.reader_le
  have h2 := b.writer_le
  unfold makeSpace
  split_ifs with hgrow hmove
  · refine ⟨_, rfl, ?_, ?_, rfl⟩
    · rw [content_eq, content_eq]
      dsimp only
      rw [List.take_append_of_le_length h2]
    · unfold writableBytes at h ⊢
      dsimp only
      rw [List.length_append, List.length_replicate]
      omega
  · refine ⟨_, rfl, ?_, ?_, rfl⟩
    · rw [content_eq]
      show ((b.content ++ b.buffer_.drop b.readableBytes).take b.readableBytes).drop 0 = b.content
      rw [List.drop_zero, ← length_content, List.take_left]
    · show len ≤ (b.content ++ b.buffer_.drop b.readableBytes).length - b.readableBytes
      unfold writableBytes prependableBytes at *
      rw [List.length_append, List.length_drop, length_content]
      unfold readableBytes
      omega
  · unfold prependableBytes at hgrow
    omega

/-- Making room never fails and keeps the queue. -/
theorem ensureWritableBytes_spec (b : DataBuffer) (len : Nat) :
    ∃ b', b.ensureWritableBytes len = some b' ∧ b'.content = b.content ∧ len ≤ b'.writableBytes ∧
      b'.isOperating_ = b.isOperating_ := by
  unfold ensureWritableBytes
  split_ifs with h
  · obtain ⟨b', hb', hcontent, hroom, hop⟩ := makeSpace_spec h
    refine ⟨b', ?_, hcontent, hroom, hop⟩
    rw [hb', Option.bind_some, if_pos hroom]
  · refine ⟨b, ?_, rfl, Nat.le_of_not_lt h, rfl⟩
    rw [Option.bind_some, if_pos (Nat.le_of_not_lt h)]

/-- A write behind the queue is not part of it yet. -/
theorem writeAt_spec {b : DataBuffer} {data : List UInt8} (h : data.length ≤ b.writableBytes) :
    ∃ b', b.writeAt data = some b' ∧ b'.content = b.content ∧ data.length ≤ b'.writableBytes ∧
      (b'.buffer_.drop b'.writerIndex_).take data.length = data ∧ b'.isOperating_ = b.isOperating_ := by
  have h2 := b.writer_le
  have htake : (b.buffer_.take b.writerIndex_).length = b.writerIndex_ := List.length_take_of_le h2
  unfold writeAt
  rw [dif_pos h]
  refine ⟨_, rfl, ?_, ?_, ?_, rfl⟩
  · rw [content_eq, content_eq]
    dsimp only
    rw [List.take_append_of_le_length (Nat.le_of_eq htake.symm), List.take_of_length_le (Nat.le_of_eq htake)]
  · unfold writableBytes
    dsimp only
    rw [List.length_append, List.length_append, htake]
    omega
  · dsimp only
    rw [List.drop_append_of_le_length (Nat.le_of_eq htake.symm), List.drop_eq_nil_of_le (Nat.le_of_eq htake), List.nil_append,
      List.take_left]

/-- Bytes declared written join the queue. -/
theorem hasWritten_spec {b : DataBuffer} {len : Nat} (h : len ≤ b.writableBytes) :
    ∃ b', b.hasWritten len = some b' ∧ b'.content = b.content ++ (b.buffer_.drop b.writerIndex_).take len ∧
      b'.isOperating_ = b.isOperating_ := by
  have h1 := b.reader_le
  have htake : (b.buffer_.take b.writerIndex_).length = b.writerIndex_ := List.length_take_of_le b.writer_le
  unfold hasWritten
  rw [dif_pos h]
  refine ⟨_, rfl, ?_, rfl⟩
  rw [content_eq, content_eq]
  dsimp only
  rw [List.take_add, List.drop_append_of_le_length (by rw [htake]; exact h1)]

theorem unwrite_spec {b : DataBuffer} {len : Nat} (h : len ≤ b.readableBytes) :
    ∃ b', b.unwrite len = some b' ∧ b'.content = b.content.take (b.content.length - len) ∧
      b'.isOperating_ = b.isOperating_ := by
  unfold unwrite
  rw [dif_pos h]
  refine ⟨_, rfl, ?_, rfl⟩
  rw [length_content, content_eq, content_eq]
  dsimp only
  rw [List.take_drop, List.take_take, readableBytes]
  unfold readableBytes at h
  have h1 := b.reader_le
  congr 2
  omega

/-- What is written and then declared written joins the queue. -/
theorem written_spec {b : DataBuffer} {data : List UInt8} (h : data.length ≤ b.writableBytes) :
    ∃ b', (b.writeAt data).bind (·.hasWritten data.length) = some b' ∧ b'.content = b.content ++ data ∧
      b'.isOperating_ = b.isOperating_ := by
  obtain ⟨b₁, hb₁, hcontent₁, hroom, hmem, hop₁⟩ := writeAt_spec h
  obtain ⟨b₂, hb₂, hcontent₂, hop₂⟩ := hasWritten_spec hroom
  refine ⟨b₂, ?_, ?_, hop₂.trans hop₁⟩
  · rw [hb₁, Option.bind_some, hb₂]
  · rw [hcontent₂, hcontent₁, hmem]

theorem append_spec (b : DataBuffer) (data : List UInt8) :
    ∃ b', b.append data = some b' ∧ b'.content = b.content ++ data ∧ b'.isOperating_ = b.isOperating_ := by
  obtain ⟨b₁, hb₁, hcontent₁, hroom, hop₁⟩ := ensureWritableBytes_spec b data.length
  obtain ⟨b₂, hb₂, hcontent₂, hop₂⟩ := written_spec hroom
  refine ⟨b₂, ?_, hcontent₂.trans (by rw [hcontent₁]), hop₂.trans hop₁⟩
  show (b.ensureWritableBytes data.length).bind _ = _
  rw [hb₁]
  exact hb₂

end DataBuffer

end AsioUtils.Net
