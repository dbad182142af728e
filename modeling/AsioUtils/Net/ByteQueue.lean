import AsioUtils.Lib.Runs
import AsioUtils.Net.DataBuffer

/-!
# `DataBuffer` as a byte queue, over whole runs

* `Op`, `Op.apply`, `Op.queue` : a call of the buffer's operations, and what it is to do to the queue;
* `IsQueue` : the buffer holds a queue, with its indices in order and room to be made;
* `isQueue_always` : calls that meet their own length assertions fail no assertion and keep buffer and queue together.
-/

namespace AsioUtils.Net.DataBuffer

open Runs

/-- A call, or several that go together: `written` makes room, lets `data` be written at `beginWrite` and declares `len`
bytes written. -/
inductive Op
  | append (data : List UInt8)
  | written (room : Nat) (data : List UInt8) (len : Nat)
  | retrieve (len : Nat)
  | retrieveAll
  | unwrite (len : Nat)
  deriving DecidableEq, Repr

namespace Op

def apply (b : DataBuffer) : Op → Option DataBuffer
  | append data => b.append data
  | written room data len => do
    let b ← b.ensureWritableBytes room
    let b ← b.writeAt data
    b.hasWritten len
  | retrieve len => b.retrieve len
  | retrieveAll => some b.retrieveAll
  | unwrite len => b.unwrite len

/-- The abstract queue: push to the back, drop from the front, clear, drop from the back. -/
def queue (q : List UInt8) : Op → List UInt8
  | append data => q ++ data
  | written _ data len => q ++ data.take len
  | retrieve len => q.drop len
  | retrieveAll => []
  | unwrite len => q.take (q.length - len)

/-- The call's own assertion on lengths; what is written has to fit the memory behind `beginWrite`, and no more than it
is declared written. -/
def Asserted (b : DataBuffer) : Op → Prop
  | append _ => True
  | written room data len =>
    len ≤ data.length ∧ ∀ b' ∈ b.ensureWritableBytes room, data.length ≤ b'.writableBytes
  | retrieve len => len ≤ b.readableBytes
  | retrieveAll => True
  | unwrite len => len ≤ b.readableBytes

instance (b : DataBuffer) : (op : Op) → Decidable (op.Asserted b)
  | append _ | retrieveAll => .isTrue trivial
  | written room data len => inferInstanceAs
      (Decidable (len ≤ data.length ∧ ∀ b' ∈ b.ensureWritableBytes room, data.length ≤ b'.writableBytes))
  | retrieve len | unwrite len => inferInstanceAs (Decidable (len ≤ b.readableBytes))

end Op

/-- The buffer holds `q`. -/
structure IsQueue (b : DataBuffer) (q : List UInt8) : Prop where
  content : b.content = q
  reader : b.readerIndex_ ≤ b.writerIndex_
  writer : b.writerIndex_ ≤ b.buffer_.length
  /-- no assertion fails in `ensureWritableBytes` and, inside it, `makeSpace` -/
  ensures : ∀ len, (b.ensureWritableBytes len).isSome = true
  /-- nor does the one at the end of `makeSpace` -/
  moves : ∀ len b', b.makeSpace len = some b' → b'.readableBytes = b.readableBytes

theorem readableBytes_makeSpace {b b' : DataBuffer} {len : Nat} (h : b.makeSpace len = some b') :
    b'.readableBytes = b.readableBytes := by
  unfold makeSpace at h
  split_ifs at h
  · obtain rfl := Option.some.inj h
    rfl
  · obtain rfl := Option.some.inj h
    exact Nat.sub_zero _

theorem isQueue_of_content {b : DataBuffer} {q : List UInt8} (h : b.content = q) : IsQueue b q where
  content := h
  reader := b.reader_le
  writer := b.writer_le
  ensures len := by
    obtain ⟨b', hb', -⟩ := ensureWritableBytes_spec b len
    rw [hb']
    rfl
  moves _ _ hb' := readableBytes_makeSpace hb'

/-- Room, a write behind the queue, and a declaration of part of it. -/
theorem written_declared {b : DataBuffer} {data : List UInt8} {len : Nat} (hfits : data.length ≤ b.writableBytes)
    (hlen : len ≤ data.length) : ∃ b', (b.writeAt data).bind (·.hasWritten len) = some b' ∧
      b'.content = b.content ++ data.take len := by
  obtain ⟨b₁, hb₁, hcontent₁, hroom, hmem, -⟩ := writeAt_spec hfits
  obtain ⟨b₂, hb₂, hcontent₂, -⟩ := hasWritten_spec (Nat.le_trans hlen hroom)
  refine ⟨b₂, ?_, ?_⟩
  · rw [hb₁, Option.bind_some, hb₂]
  · rw [hcontent₂, hcontent₁, ← hmem, List.take_take, Nat.min_eq_left hlen]

/-- **Step**: a call that meets its own assertions succeeds and does to the buffer what it is to do to the queue. -/
theorem IsQueue.apply {b : DataBuffer} {q : List UInt8} (h : IsQueue b q) {op : Op} (hop : op.Asserted b) :
    ∃ b', op.apply b = some b' ∧ IsQueue b' (op.queue q) := by
  obtain ⟨rfl, -⟩ := h
  cases op with
  | append data =>
    obtain ⟨b', hb', hcontent, -⟩ := append_spec b data
    exact ⟨b', hb', isQueue_of_content hcontent⟩
  | written room data len =>
    obtain ⟨hlen, hfits⟩ := hop
    obtain ⟨b₁, hb₁, hcontent₁, -⟩ := ensureWritableBytes_spec b room
    obtain ⟨b₂, hb₂, hcontent₂⟩ := written_declared (hfits b₁ hb₁) hlen
    refine ⟨b₂, ?_, isQueue_of_content ?_⟩
    · show (b.ensureWritableBytes room).bind _ = some b₂
      rw [hb₁]
      exact hb₂
    · rw [hcontent₂, hcontent₁]
      rfl
  | retrieve len =>
    obtain ⟨b', hb', hcontent, -⟩ := retrieve_spec hop
    exact ⟨b', hb', isQueue_of_content hcontent⟩
  | retrieveAll => exact ⟨_, rfl, isQueue_of_content (content_retrieveAll b)⟩
  | unwrite len =>
    obtain ⟨b', hb', hcontent, -⟩ := unwrite_spec hop
    exact ⟨b', hb', isQueue_of_content hcontent⟩

/-- **A byte queue**: from a new buffer of any size, any calls that meet their own length assertions fail no assertion,
and after each of them the buffer holds the queue the calls were to make. -/
theorem isQueue_always (initialSize : Nat) {ops : List Op}
    (hops : Along (beside Op.apply Op.queue) (fun p op => ∀ b ∈ p.1, op.Asserted b)
      (some (ofSize initialSize), []) ops) :
    Always (beside Op.apply Op.queue) (fun p => ∃ b, p.1 = some b ∧ IsQueue b p.2)
      (some (ofSize initialSize), []) ops :=
  refines_always (fun _ _ _ h hop => h.apply hop) (isQueue_of_content (content_ofSize initialSize)) hops

/-- A buffer of four bytes: it fills up, moves its bytes, grows, and drops from both ends. -/
def fourBytes : List Op :=
  [.append [1, 2, 3], .retrieve 2, .written 2 [4, 5, 6] 2, .append [7, 8, 9], .unwrite 1, .retrieve 1, .retrieveAll]

theorem fourBytes_isQueue : Along (beside Op.apply Op.queue) (fun p op => ∀ b ∈ p.1, op.Asserted b)
      (some (ofSize 4), []) fourBytes ∧
    Always (beside Op.apply Op.queue) (fun p => ∃ b, p.1 = some b ∧ IsQueue b p.2) (some (ofSize 4), []) fourBytes :=
  have hops : Along (beside Op.apply Op.queue) (fun p op => ∀ b ∈ p.1, op.Asserted b)
    (some (ofSize 4), []) fourBytes := by decide
  ⟨hops, isQueue_always 4 hops⟩

end AsioUtils.Net.DataBuffer
