import AsioUtils.Lib.Runs
import Mathlib.Data.List.Count
import Mathlib.Data.List.Nodup
import Mathlib.Logic.Function.Basic
import Mathlib.Tactic.Common

/-!
# `AsyncLogging`: the buffers of the logger

Callers of `append` fill a buffer under the lock; a thread collects the full ones, writes them out and keeps two of them to
put in place of those it takes. A buffer is named by the number of those allocated before it. `none` is a failed assertion
or a null pointer that is followed.

* `SwapBuffer`, `AsyncLogging` : the data; the locals of `threadFunc` and the place it is at are part of the state;
* `append`, `threadStep` : a call, and what the thread does between two points where others can come in;
* `Wf` : no buffer is in two places, those kept for later are empty, and one can be spared whenever two are needed;
* `told` : the log, put together from where it is;
* `Wf.event` : what one event keeps; `told_run` : what a run keeps;
* `recycling_possible`, `nothing_lost` : over any order of calls and steps;
* `never_stops` : `stop` does not end the thread.
-/

namespace AsioUtils.Net.Logging

open Runs

def kLargeBuffer : Nat := 4000 * 1000

/-- What was written to a buffer: `data_` up to `writeIndex_`. -/
structure SwapBuffer (SIZE : Nat) where
  content : List UInt8 := []
  fits : content.length ≤ SIZE := by exact Nat.zero_le _

namespace SwapBuffer

variable {SIZE : Nat}

def readable (b : SwapBuffer SIZE) : Nat := b.content.length

def writable (b : SwapBuffer SIZE) : Nat := SIZE - b.readable

def append (b : SwapBuffer SIZE) (buf : List UInt8) : SwapBuffer SIZE :=
  if h : buf.length < b.writable then
    { content := b.content ++ buf
      fits := by
        unfold writable readable at h
        rw [List.length_append]
        omega }
  else b

def reset (_ : SwapBuffer SIZE) : SwapBuffer SIZE := {}

theorem append_of_lt {b : SwapBuffer SIZE} {buf : List UInt8} (h : buf.length < b.writable) :
    (b.append buf).content = b.content ++ buf := by rw [append, dif_pos h]

end SwapBuffer

abbrev Buffer := SwapBuffer kLargeBuffer

/-- Where the thread is. -/
inductive Stage
  /-- before `threadFunc` -/
  | starting
  /-- before the test of the loop -/
  | test
  /-- before the lock -/
  | locking
  /-- in `wait_until`, without the lock -/
  | waiting
  /-- behind the lock -/
  | collected
  /-- before the buffer `i` is written -/
  | writing (i : Nat)
  | recycling
  /-- behind the loop -/
  | done
  deriving DecidableEq

structure AsyncLogging where
  running_ : Bool := false
  /-- the buffers that were ever allocated are those below `allocated` -/
  heap : Nat → Buffer := fun _ => {}
  allocated : Nat := 2
  currentBuffer_ : Nat := 0
  nextBuffer_ : Option Nat := some 1
  buffers_ : List Nat := []
  stage : Stage := .starting
  newBuffer1 : Option Nat := none
  newBuffer2 : Option Nat := none
  buffersToWrite : List Nat := []
  /-- what the `LogFile` was given -/
  output : List UInt8 := []

namespace AsyncLogging

/-- `currentBuffer_->append(logline, len)` -/
def write (l : AsyncLogging) (logline : List UInt8) : AsyncLogging :=
  { l with heap := Function.update l.heap l.currentBuffer_ ((l.heap l.currentBuffer_).append logline) }

/-- The other branch of `append` before the line is written: the current buffer is full. -/
def changeBuffer (l : AsyncLogging) : AsyncLogging :=
  match l.nextBuffer_ with
  | some next => { l with buffers_ := l.buffers_ ++ [l.currentBuffer_], currentBuffer_ := next, nextBuffer_ := none }
  | none =>
    { l with
      buffers_ := l.buffers_ ++ [l.currentBuffer_]
      currentBuffer_ := l.allocated
      heap := Function.update l.heap l.allocated {}
      allocated := l.allocated + 1 }

def append (l : AsyncLogging) (logline : List UInt8) : AsyncLogging :=
  if logline.length < (l.heap l.currentBuffer_).writable then l.write logline else l.changeBuffer.write logline

/-! ## `threadFunc` -/

/-- `newBuffer && newBuffer->readable() == 0` -/
def ready (l : AsyncLogging) (newBuffer : Option Nat) : Bool :=
  newBuffer.any fun b => (l.heap b).readable = 0

/-- The start of `threadFunc`; the assertion assigns. -/
def begin (l : AsyncLogging) : AsyncLogging :=
  { l with
    running_ := true
    newBuffer1 := some l.allocated
    newBuffer2 := some (l.allocated + 1)
    heap := Function.update (Function.update l.heap l.allocated {}) (l.allocated + 1) {}
    allocated := l.allocated + 2
    stage := .test }

/-- Under the lock, with the wait behind it: `newBuffer1` is the new current buffer. -/
def swapped (l : AsyncLogging) (newBuffer1 : Nat) : AsyncLogging :=
  { l with
    buffersToWrite := l.buffers_ ++ [l.currentBuffer_]
    buffers_ := l.buffersToWrite
    currentBuffer_ := newBuffer1
    newBuffer1 := none
    nextBuffer_ := if l.nextBuffer_ = none then l.newBuffer2 else l.nextBuffer_
    newBuffer2 := if l.nextBuffer_ = none then none else l.newBuffer2
    stage := .collected }

def swap (l : AsyncLogging) : Option AsyncLogging := l.newBuffer1.map l.swapped

/-- `"Dropped log messages at %s, %zd larger buffers\n"` in `buf[256]` -/
def droppedText (now : List UInt8) (size : Nat) : List UInt8 :=
  ("Dropped log messages at ".toUTF8.toList ++ now ++ ", ".toUTF8.toList ++ (toString (size - 2)).toUTF8.toList ++
    " larger buffers\n".toUTF8.toList).take 255

/-- More than 25 buffers are not all written. -/
def limit (l : AsyncLogging) (now : List UInt8) : AsyncLogging :=
  if l.buffersToWrite.length > 25 then
    { l with
      output := l.output ++ droppedText now l.buffersToWrite.length
      buffersToWrite := l.buffersToWrite.take 2
      stage := .writing 0 }
  else { l with stage := .writing 0 }

/-- `newBuffer = buffersToWrite.back(); newBuffer->reset();` -/
def recycleBack (heap : Nat → Buffer) (buffersToWrite : List Nat) : Option (Nat × (Nat → Buffer)) :=
  buffersToWrite.getLast?.map fun b => (b, Function.update heap b (heap b).reset)

/-- `if (!newBuffer1) …` : the buffer is popped. -/
def recycle1 (l : AsyncLogging) : Option AsyncLogging :=
  match l.newBuffer1 with
  | some _ => some l
  | none =>
    (recycleBack l.heap l.buffersToWrite).map fun r =>
      { l with newBuffer1 := some r.1, heap := r.2, buffersToWrite := l.buffersToWrite.dropLast }

/-- `if (!newBuffer2) …` : it stays. -/
def recycle2 (l : AsyncLogging) : Option AsyncLogging :=
  match l.newBuffer2 with
  | some _ => some l
  | none => (recycleBack l.heap l.buffersToWrite).map fun r => { l with newBuffer2 := some r.1, heap := r.2 }

def recycle (l : AsyncLogging) : Option AsyncLogging := do
  let l ← recycle1 { l with buffersToWrite := l.buffersToWrite.take 2 }
  let l ← recycle2 l
  return { l with buffersToWrite := [], stage := .test }

/-- What the thread does next; `now` is the time as it would be written. -/
def threadStep (l : AsyncLogging) (now : List UInt8) : Option AsyncLogging :=
  match l.stage with
  | .starting => some l.begin
  | .test => some { l with stage := if l.running_ then .locking else .done }
  | .locking =>
    if l.ready l.newBuffer1 && l.ready l.newBuffer2 then
      if l.buffers_ = [] then some { l with stage := .waiting } else l.swap
    else none
  | .waiting => l.swap
  | .collected => if l.buffersToWrite = [] then none else some (l.limit now)
  | .writing i =>
    match l.buffersToWrite[i]? with
    | some b => some { l with output := l.output ++ (l.heap b).content, stage := .writing (i + 1) }
    | none => some { l with stage := .recycling }
  | .recycling => l.recycle
  | .done => some l

/-- `stop`; the thread that calls it then waits for the end of the other. -/
def stop (l : AsyncLogging) : AsyncLogging := { l with running_ := true }

end AsyncLogging

/-! ## Runs -/

inductive Event
  | append (logline : List UInt8)
  | thread (now : List UInt8)
  | stop

def step (s : Option AsyncLogging) (e : Event) : Option AsyncLogging :=
  s.bind fun l =>
    match e with
    | .append logline => some (l.append logline)
    | .thread now => l.threadStep now
    | .stop => some l.stop

/-- Behind the constructor and `start`. -/
def started : AsyncLogging := { running_ := true }

/-- The lines that were appended, one behind the other. -/
def appended (es : List Event) : List UInt8 :=
  es.flatMap fun e => match e with
    | .append logline => logline
    | _ => []

namespace AsyncLogging

/-! ## No buffer is in two places -/

/-- The buffers kept for later. -/
def spare (l : AsyncLogging) : List Nat := l.nextBuffer_.toList ++ l.newBuffer1.toList ++ l.newBuffer2.toList

def pointers (l : AsyncLogging) : List Nat := l.currentBuffer_ :: (l.spare ++ l.buffers_ ++ l.buffersToWrite)

/-- What the thread holds where it is. -/
def Holds (l : AsyncLogging) : Prop :=
  match l.stage with
  | .starting => l.newBuffer1 = none ∧ l.newBuffer2 = none ∧ l.buffersToWrite = []
  | .test | .locking | .waiting | .done => l.newBuffer1 ≠ none ∧ l.newBuffer2 ≠ none ∧ l.buffersToWrite = []
  | .collected | .writing _ | .recycling =>
    l.newBuffer1 = none ∧ l.buffersToWrite ≠ [] ∧ (l.newBuffer2 = none → 2 ≤ l.buffersToWrite.length)

/-- What holds whenever the lock is free. -/
structure Wf (l : AsyncLogging) : Prop where
  distinct : l.pointers.Nodup
  bound : ∀ p ∈ l.pointers, p < l.allocated
  empty : ∀ p ∈ l.spare, (l.heap p).content = []
  next : l.nextBuffer_ = none → l.buffers_ ≠ []
  holds : l.Holds

/-- The flag of the loop says nothing about the buffers. -/
theorem Wf.running {l : AsyncLogging} (h : Wf l) (r : Bool) : Wf { l with running_ := r } :=
  ⟨h.distinct, h.bound, h.empty, h.next, h.holds⟩

/-- Behind the constructor. -/
theorem wf_constructed : Wf {} := by
  refine ⟨by decide, by decide, by decide, by decide, ?_⟩
  exact ⟨rfl, rfl, rfl⟩

theorem wf_started : Wf started := wf_constructed.running true

/-- Pointers that are counted no more often than before. -/
theorem distinct_of_count {l l' : AsyncLogging} (h : l.pointers.Nodup)
    (hcount : ∀ p, l'.pointers.count p ≤ l.pointers.count p) : l'.pointers.Nodup ∧ ∀ p ∈ l'.pointers, p ∈ l.pointers := by
  refine ⟨List.nodup_iff_count_le_one.mpr fun p => ?_, fun p hp => ?_⟩
  · exact Nat.le_trans (hcount p) (List.nodup_iff_count_le_one.mp h p)
  · exact List.count_pos_iff.mp (Nat.lt_of_lt_of_le (List.count_pos_iff.mpr hp) (hcount p))

namespace Wf

variable {l : AsyncLogging} (h : Wf l)

include h in
theorem current_not_mem {p : Nat} (hp : p ∈ l.spare ∨ p ∈ l.buffers_ ∨ p ∈ l.buffersToWrite) : p ≠ l.currentBuffer_ := by
  rintro rfl
  refine (List.nodup_cons.mp h.distinct).1 ?_
  rw [List.mem_append, List.mem_append]
  tauto

include h in
theorem fresh_not_mem (n : Nat) : l.allocated + n ∉ l.pointers := fun hp => by
  have hlt := h.bound _ hp
  omega

include h in
/-- A buffer that is allocated is none of those that are there. -/
theorem update_fresh (heap : Nat → Buffer) (n : Nat) :
    ∀ p ∈ l.pointers, Function.update heap (l.allocated + n) {} p = heap p := by
  intro p hp
  have hlt := h.bound p hp
  exact Function.update_of_ne (by omega) _ _

include h in
/-- A buffer that is kept for later passes the test on it. -/
theorem ready {newBuffer : Option Nat} (hne : newBuffer ≠ none) (hspare : ∀ b, newBuffer = some b → b ∈ l.spare) :
    l.ready newBuffer = true := by
  obtain ⟨b, rfl⟩ := Option.ne_none_iff_exists'.mp hne
  simp [AsyncLogging.ready, SwapBuffer.readable, h.empty b (hspare b rfl)]

include h in
/-- The buffers of the thread, where it has both. -/
theorem ready_both (hone : l.newBuffer1 ≠ none) (htwo : l.newBuffer2 ≠ none) :
    l.ready l.newBuffer1 = true ∧ l.ready l.newBuffer2 = true :=
  ⟨h.ready hone fun b hb => by simp [spare, hb], h.ready htwo fun b hb => by simp [spare, hb]⟩

include h in
theorem write (logline : List UInt8) : Wf (l.write logline) := by
  refine ⟨h.distinct, h.bound, fun p hp => ?_, h.next, h.holds⟩
  show (Function.update l.heap l.currentBuffer_ _ p).content = []
  rw [Function.update_of_ne (h.current_not_mem (.inl hp))]
  exact h.empty p hp

/-- The new current buffer is empty, and the others are as they were. -/
structure Changed (l l' : AsyncLogging) : Prop where
  buffers : l'.buffers_ = l.buffers_ ++ [l.currentBuffer_]
  fresh : (l'.heap l'.currentBuffer_).content = []
  heap : ∀ p ∈ l.pointers, l'.heap p = l.heap p
  output : l'.output = l.output
  stage : l'.stage = l.stage
  toWrite : l'.buffersToWrite = l.buffersToWrite

include h in
/-- The spare buffer becomes the current one. -/
theorem takeNext {next : Nat} (hnext : l.nextBuffer_ = some next) {l' : AsyncLogging} (hl' : l' = { l with
      buffers_ := l.buffers_ ++ [l.currentBuffer_], currentBuffer_ := next, nextBuffer_ := none }) :
    Wf l' ∧ Changed l l' := by
  subst hl'
  have hcount : ∀ p, (pointers { l with
      buffers_ := l.buffers_ ++ [l.currentBuffer_], currentBuffer_ := next, nextBuffer_ := none }).count p ≤
        l.pointers.count p := by
    intro p
    simp only [pointers, spare, hnext, Option.toList_some, Option.toList_none, List.count_cons, List.count_append,
      List.count_nil]
    omega
  obtain ⟨hnodup, hsub⟩ := distinct_of_count h.distinct hcount
  refine ⟨⟨hnodup, fun p hp => h.bound p (hsub p hp), fun p hp => h.empty p ?_, by simp, h.holds⟩,
    ⟨rfl, h.empty next ?_, fun p _ => rfl, rfl, rfl, rfl⟩⟩
  · simp only [spare, Option.toList_none, List.nil_append, List.append_assoc] at hp ⊢
    exact List.mem_append_right _ hp
  · simp [spare, hnext]

include h in
/-- The current buffer is a new one. -/
theorem allocate {l' : AsyncLogging} (hl' : l' = { l with
      buffers_ := l.buffers_ ++ [l.currentBuffer_]
      currentBuffer_ := l.allocated
      heap := Function.update l.heap l.allocated {}
      allocated := l.allocated + 1 }) : Wf l' ∧ Changed l l' := by
  subst hl'
  have hheap : ∀ p ∈ l.pointers, Function.update l.heap l.allocated {} p = l.heap p := h.update_fresh l.heap 0
  have hperm : (pointers { l with
      buffers_ := l.buffers_ ++ [l.currentBuffer_], currentBuffer_ := l.allocated
      heap := Function.update l.heap l.allocated {}, allocated := l.allocated + 1 }).Perm
        (l.allocated :: l.pointers) := by
    refine List.perm_iff_count.mpr fun p => ?_
    simp only [pointers, spare, List.count_cons, List.count_append, List.count_nil]
    omega
  refine ⟨⟨hperm.nodup_iff.mpr (List.nodup_cons.mpr ⟨h.fresh_not_mem 0, h.distinct⟩), fun p hp => ?_, fun p hp => ?_,
    by simp, h.holds⟩, ⟨rfl, ?_, hheap, rfl, rfl, rfl⟩⟩
  · rcases List.mem_cons.mp (hperm.mem_iff.mp hp) with rfl | hp
    · exact Nat.lt_succ_self _
    · exact Nat.lt_succ_of_lt (h.bound p hp)
  · have hp : p ∈ l.spare := hp
    show (Function.update l.heap l.allocated {} p).content = []
    rw [hheap p (by simp [pointers, hp])]
    exact h.empty p hp
  · show (Function.update l.heap l.allocated {} l.allocated).content = []
    rw [Function.update_self]

include h in
theorem changeBuffer : Wf l.changeBuffer ∧ Changed l l.changeBuffer := by
  unfold AsyncLogging.changeBuffer
  cases hnext : l.nextBuffer_ with
  | some next => exact h.takeNext hnext rfl
  | none => exact h.allocate (by rw [hnext])

include h in
theorem append (logline : List UInt8) : Wf (l.append logline) := by
  unfold AsyncLogging.append
  split_ifs
  · exact h.write logline
  · exact h.changeBuffer.1.write logline

end Wf

/-! ## The log -/

/-- Collected and not given to the `LogFile` yet. -/
def unwritten (l : AsyncLogging) : List Nat :=
  match l.stage with
  | .collected => l.buffersToWrite
  | .writing i => l.buffersToWrite.drop i
  | _ => []

/-- What some buffers hold, in order. -/
def texts (heap : Nat → Buffer) (bs : List Nat) : List UInt8 := bs.flatMap fun b => (heap b).content

/-- The log, from where it is. -/
def told (l : AsyncLogging) : List UInt8 :=
  l.output ++ texts l.heap l.unwritten ++ texts l.heap l.buffers_ ++ (l.heap l.currentBuffer_).content

theorem texts_congr {heap heap' : Nat → Buffer} {bs : List Nat} (h : ∀ b ∈ bs, heap' b = heap b) :
    texts heap' bs = texts heap bs := List.flatMap_congr fun b hb => by rw [h b hb]

theorem texts_append (heap : Nat → Buffer) (bs cs : List Nat) : texts heap (bs ++ cs) = texts heap bs ++ texts heap cs :=
  List.flatMap_append

theorem texts_singleton (heap : Nat → Buffer) (b : Nat) : texts heap [b] = (heap b).content := List.flatMap_singleton _ _

theorem unwritten_subset (l : AsyncLogging) : ∀ b ∈ l.unwritten, b ∈ l.buffersToWrite := by
  intro b hb
  unfold unwritten at hb
  split at hb
  · exact hb
  · exact List.mem_of_mem_drop hb
  · cases hb

namespace Wf

variable {l : AsyncLogging} (h : Wf l)

include h in
/-- A line goes to the end of the log where it fits. -/
theorem told_write {logline : List UInt8} (hfits : logline.length < (l.heap l.currentBuffer_).writable) :
    (l.write logline).told = l.told ++ logline := by
  have hother : ∀ bs : List Nat, (∀ b ∈ bs, b ≠ l.currentBuffer_) →
      texts (l.write logline).heap bs = texts l.heap bs := fun bs hbs =>
    texts_congr fun b hb => Function.update_of_ne (hbs b hb) _ _
  have hunwritten := hother l.unwritten fun b hb => h.current_not_mem (.inr (.inr (l.unwritten_subset b hb)))
  have hbuffers := hother l.buffers_ fun b hb => h.current_not_mem (.inr (.inl hb))
  have hcurrent : ((l.write logline).heap l.currentBuffer_).content = (l.heap l.currentBuffer_).content ++ logline := by
    show (Function.update l.heap l.currentBuffer_ _ l.currentBuffer_).content = _
    rw [Function.update_self, SwapBuffer.append_of_lt hfits]
  show (l.write logline).output ++ texts (l.write logline).heap l.unwritten ++ texts (l.write logline).heap l.buffers_ ++
    ((l.write logline).heap l.currentBuffer_).content = _
  rw [hunwritten, hbuffers, hcurrent, ← List.append_assoc]
  rfl

include h in
theorem told_changeBuffer : l.changeBuffer.told = l.told := by
  obtain ⟨-, hbuffers, hfresh, hheap, houtput, hstage, htoWrite⟩ := h.changeBuffer
  have hunwritten : l.changeBuffer.unwritten = l.unwritten := by rw [unwritten, unwritten, hstage, htoWrite]
  have hsub : ∀ b, b ∈ l.unwritten ∨ b ∈ l.buffers_ ++ [l.currentBuffer_] → b ∈ l.pointers := by
    intro b hb
    have := l.unwritten_subset b
    simp only [List.mem_append, List.mem_singleton] at hb
    simp only [pointers, List.mem_cons, List.mem_append]
    tauto
  rw [told, told, hunwritten, hbuffers, hfresh, houtput, texts_congr fun b hb => hheap b (hsub b (.inl hb)),
    texts_congr fun b hb => hheap b (hsub b (.inr hb)), texts_append, texts_singleton, List.append_nil]
  simp only [List.append_assoc]

include h in
theorem told_append {logline : List UInt8} (hshort : logline.length < kLargeBuffer) :
    (l.append logline).told = l.told ++ logline := by
  unfold AsyncLogging.append
  split_ifs with hfits
  · exact h.told_write hfits
  · obtain ⟨hwf, hchanged⟩ := h.changeBuffer
    rw [hwf.told_write, h.told_changeBuffer]
    rw [SwapBuffer.writable, SwapBuffer.readable, hchanged.fresh]
    exact hshort

end Wf

/-! ## The thread -/

section Swapped

variable {l : AsyncLogging} {newBuffer1 : Nat}

theorem count_spare_swapped (l : AsyncLogging) (newBuffer1 p : Nat) :
    (l.swapped newBuffer1).spare.count p = (l.nextBuffer_.toList ++ l.newBuffer2.toList).count p := by
  simp only [spare, swapped]
  split_ifs with hnone
  · simp [hnone]
  · simp

theorem mem_spare_of_swapped {p : Nat} (hp : p ∈ (l.swapped newBuffer1).spare) : p ∈ l.spare := by
  have hmem := List.count_pos_iff.mpr hp
  rw [count_spare_swapped] at hmem
  have hold := List.count_pos_iff.mp hmem
  simp only [spare, List.mem_append] at hold ⊢
  tauto

theorem next_swapped_ne (newBuffer1 : Nat) (htwo : l.newBuffer2 ≠ none) : (l.swapped newBuffer1).nextBuffer_ ≠ none := by
  show (if l.nextBuffer_ = none then l.newBuffer2 else l.nextBuffer_) ≠ none
  split_ifs with hnone
  · exact htwo
  · exact hnone

/-- The full buffers and the current one are collected, the thread's first one becomes the current one. -/
theorem count_pointers_swapped (hone : l.newBuffer1 = some newBuffer1) (p : Nat) :
    (l.swapped newBuffer1).pointers.count p ≤ l.pointers.count p := by
  have hsame := count_spare_swapped l newBuffer1 p
  have hout : l.pointers.count p = l.spare.count p + (l.buffers_ ++ [l.currentBuffer_]).count p +
      l.buffersToWrite.count p := by
    simp only [pointers, List.count_cons, List.count_append, List.count_nil]
    omega
  have hin : (l.swapped newBuffer1).pointers.count p = [newBuffer1].count p + (l.swapped newBuffer1).spare.count p +
      l.buffersToWrite.count p + (l.buffers_ ++ [l.currentBuffer_]).count p := by
    rw [← List.count_append, ← List.count_append, ← List.count_append]
    rfl
  have hold : l.spare.count p = [newBuffer1].count p + (l.nextBuffer_.toList ++ l.newBuffer2.toList).count p := by
    simp only [spare, hone, Option.toList_some, List.count_append]
    omega
  omega

end Swapped

namespace Wf

variable {l : AsyncLogging} (h : Wf l)

include h in
theorem begin (hstage : l.stage = .starting) : Wf l.begin ∧ l.begin.told = l.told := by
  obtain ⟨hone, htwo, htoWrite⟩ : l.newBuffer1 = none ∧ l.newBuffer2 = none ∧ l.buffersToWrite = [] := by
    have hholds := h.holds
    rwa [Holds, hstage] at hholds
  have hperm : l.begin.pointers.Perm (l.allocated :: (l.allocated + 1) :: l.pointers) := by
    refine List.perm_iff_count.mpr fun p => ?_
    simp only [pointers, spare, AsyncLogging.begin, hone, htwo, Option.toList_some, Option.toList_none, List.count_cons,
      List.count_append, List.count_nil]
    omega
  have hheap : ∀ p ∈ l.pointers, l.begin.heap p = l.heap p := fun p hp =>
    (h.update_fresh _ 1 p hp).trans (h.update_fresh l.heap 0 p hp)
  refine ⟨⟨hperm.nodup_iff.mpr ?_, fun p hp => ?_, fun p hp => ?_, h.next, nofun, nofun, htoWrite⟩, ?_⟩
  · refine List.nodup_cons.mpr ⟨?_, List.nodup_cons.mpr ⟨h.fresh_not_mem 1, h.distinct⟩⟩
    rw [List.mem_cons, not_or]
    exact ⟨by omega, h.fresh_not_mem 0⟩
  · show p < l.allocated + 2
    rcases List.mem_cons.mp (hperm.mem_iff.mp hp) with rfl | hp
    · omega
    · rcases List.mem_cons.mp hp with rfl | hp
      · omega
      · have := h.bound p hp
        omega
  · simp only [spare, AsyncLogging.begin, Option.toList_some, List.mem_append, List.mem_singleton] at hp
    rcases hp with (hp | rfl) | rfl
    · rw [hheap p (by simp [pointers, spare, hp])]
      exact h.empty p (by simp [spare, hp])
    · show (Function.update (Function.update l.heap l.allocated {}) (l.allocated + 1) {} l.allocated).content = []
      rw [Function.update_of_ne (by omega), Function.update_self]
    · show (Function.update (Function.update l.heap l.allocated {}) (l.allocated + 1) {} (l.allocated + 1)).content = []
      rw [Function.update_self]
  · have hbuffers : texts l.begin.heap l.buffers_ = texts l.heap l.buffers_ :=
      texts_congr fun b hb => hheap b (by simp [pointers, hb])
    have hcurrent : l.begin.heap l.currentBuffer_ = l.heap l.currentBuffer_ := hheap _ List.mem_cons_self
    have hunwritten : l.unwritten = [] := by rw [unwritten, hstage]
    show l.output ++ texts l.begin.heap [] ++ texts l.begin.heap l.buffers_ ++ (l.begin.heap l.currentBuffer_).content = _
    rw [hbuffers, hcurrent, told, hunwritten]
    rfl

include h in
/-- The buffers change hands, and the log is where it was. -/
theorem swap (hheld : l.newBuffer1 ≠ none ∧ l.newBuffer2 ≠ none ∧ l.buffersToWrite = []) (hunwritten : l.unwritten = []) :
    ∃ l', l.swap = some l' ∧ Wf l' ∧ l'.told = l.told := by
  obtain ⟨hone, htwo, htoWrite⟩ := hheld
  obtain ⟨newBuffer1, hone⟩ := Option.ne_none_iff_exists'.mp hone
  have hnew : (l.heap newBuffer1).content = [] := h.empty newBuffer1 (by simp [spare, hone])
  obtain ⟨hnodup, hsub⟩ := distinct_of_count h.distinct (count_pointers_swapped hone)
  refine ⟨_, by rw [AsyncLogging.swap, hone, Option.map_some], ?_, ?_⟩
  · refine ⟨hnodup, fun p hp => h.bound p (hsub p hp), fun p hp => h.empty p (mem_spare_of_swapped hp),
      fun hnone => absurd hnone (next_swapped_ne newBuffer1 htwo), rfl, by simp [swapped], fun hnone => ?_⟩
    -- the spare buffer was used, so a full one is there beside the current one
    have hused : l.nextBuffer_ = none := by
      by_contra hne
      exact htwo ((if_neg hne).symm.trans hnone)
    have hpos := List.length_pos_iff.mpr (h.next hused)
    show 2 ≤ (l.buffers_ ++ [l.currentBuffer_]).length
    rw [List.length_append, List.length_singleton]
    omega
  · show l.output ++ texts l.heap (l.buffers_ ++ [l.currentBuffer_]) ++ texts l.heap l.buffersToWrite ++
      (l.heap newBuffer1).content = _
    rw [told, hunwritten, hnew, htoWrite, texts_append, texts_singleton]
    simp [texts]

include h in
/-- Of at most 25 buffers none is dropped. -/
theorem limit (hstage : l.stage = .collected) (now : List UInt8) :
    Wf (l.limit now) ∧ (l.buffersToWrite.length ≤ 25 → (l.limit now).told = l.told) := by
  obtain ⟨hone, hne, htwo⟩ : l.newBuffer1 = none ∧ l.buffersToWrite ≠ [] ∧
      (l.newBuffer2 = none → 2 ≤ l.buffersToWrite.length) := by
    have hholds := h.holds
    rwa [Holds, hstage] at hholds
  unfold AsyncLogging.limit
  split_ifs with hmany
  · refine ⟨?_, fun hfew => absurd hmany (by omega)⟩
    have hcount : ∀ p, (pointers { l with
        output := l.output ++ droppedText now l.buffersToWrite.length
        buffersToWrite := l.buffersToWrite.take 2, stage := .writing 0 }).count p ≤ l.pointers.count p := by
      intro p
      have := (List.take_sublist 2 l.buffersToWrite).count_le p
      simp only [pointers, spare, List.count_cons, List.count_append]
      omega
    obtain ⟨hnodup, hsub⟩ := distinct_of_count h.distinct hcount
    refine ⟨hnodup, fun p hp => h.bound p (hsub p hp), h.empty, h.next, hone, ?_, fun _ => ?_⟩
    · show l.buffersToWrite.take 2 ≠ []
      simp [hne]
    · show 2 ≤ (l.buffersToWrite.take 2).length
      rw [List.length_take]
      omega
  · refine ⟨⟨h.distinct, h.bound, h.empty, h.next, hone, hne, htwo⟩, fun _ => ?_⟩
    have hunwritten : l.unwritten = l.buffersToWrite := by rw [unwritten, hstage]
    rw [told, told, hunwritten]
    rfl

include h in
theorem writing {i : Nat} (hstage : l.stage = .writing i) {b : Nat} (hb : l.buffersToWrite[i]? = some b) :
    Wf { l with output := l.output ++ (l.heap b).content, stage := .writing (i + 1) } ∧
      told { l with output := l.output ++ (l.heap b).content, stage := .writing (i + 1) } = l.told := by
  have hholds := h.holds
  rw [Holds, hstage] at hholds
  refine ⟨⟨h.distinct, h.bound, h.empty, h.next, hholds⟩, ?_⟩
  have hunwritten : l.unwritten = b :: l.buffersToWrite.drop (i + 1) := by
    rw [unwritten, hstage]
    exact List.drop_eq_getElem?_toList_append.trans (by rw [hb]; rfl)
  rw [told, told, hunwritten]
  simp [texts, unwritten]

include h in
theorem written {i : Nat} (hstage : l.stage = .writing i) (hend : l.buffersToWrite[i]? = none) :
    Wf { l with stage := .recycling } ∧ told { l with stage := .recycling } = l.told := by
  have hholds := h.holds
  rw [Holds, hstage] at hholds
  refine ⟨⟨h.distinct, h.bound, h.empty, h.next, hholds⟩, ?_⟩
  have hunwritten : l.unwritten = [] := by
    rw [unwritten, hstage]
    exact List.drop_eq_nil_of_le (List.getElem?_eq_none_iff.mp hend)
  rw [told, told, hunwritten]
  rfl

end Wf

/-! ## Recycling -/

/-- A buffer that was written is kept: what is asked of the pointers before and after. -/
structure Recycled (x : Nat) (l l' : AsyncLogging) : Prop where
  mem : x ∈ l.buffersToWrite
  heap : l'.heap = Function.update l.heap x (l.heap x).reset
  spare : ∀ p ∈ l'.spare, p = x ∨ p ∈ l.spare
  count : ∀ p, l'.pointers.count p ≤ l.pointers.count p

/-- The first three parts of `Wf`. -/
structure Apart (l : AsyncLogging) : Prop where
  distinct : l.pointers.Nodup
  bound : ∀ p ∈ l.pointers, p < l.allocated
  empty : ∀ p ∈ l.spare, (l.heap p).content = []

/-- What the log is made of beside the collected buffers. -/
def rest (l : AsyncLogging) : List UInt8 :=
  l.output ++ texts l.heap l.buffers_ ++ (l.heap l.currentBuffer_).content

theorem Apart.recycled {l l' : AsyncLogging} {x : Nat} (h : Apart l) (hr : Recycled x l l')
    (hallocated : l'.allocated = l.allocated) (hcurrent : l'.currentBuffer_ = l.currentBuffer_)
    (hbuffers : l'.buffers_ = l.buffers_) (houtput : l'.output = l.output) : Apart l' ∧ l'.rest = l.rest := by
  obtain ⟨hnodup, hsub⟩ := distinct_of_count h.distinct hr.count
  obtain ⟨hfirst, hothers⟩ := List.nodup_cons.mp h.distinct
  have hdisj := (List.nodup_append.mp hothers).2.2
  have hheap : ∀ p, p ≠ x → l'.heap p = l.heap p := fun p hp => by rw [hr.heap, Function.update_of_ne hp]
  have hin : ∀ p ∈ l.buffers_, l'.heap p = l.heap p := fun p hp =>
    hheap p fun heq => hdisj p (List.mem_append_right _ hp) x hr.mem heq
  have hcur : l'.heap l.currentBuffer_ = l.heap l.currentBuffer_ :=
    hheap _ fun heq => hfirst (by rw [heq]; exact List.mem_append_right _ hr.mem)
  refine ⟨⟨hnodup, fun p hp => hallocated ▸ h.bound p (hsub p hp), fun p hp => ?_⟩, ?_⟩
  · rcases hr.spare p hp with rfl | hp
    · rw [hr.heap, Function.update_self]
      rfl
    · rw [hheap p fun heq => hdisj p (List.mem_append_left _ hp) x hr.mem heq]
      exact h.empty p hp
  · rw [rest, rest, hcurrent, hbuffers, houtput, hcur, texts_congr hin]

/-- The last of at most two buffers. -/
theorem recycle1_eq {l : AsyncLogging} {ws : List Nat} {x : Nat} (hone : l.newBuffer1 = none)
    (hws : l.buffersToWrite = ws ++ [x]) : l.recycle1 = some { l with
      newBuffer1 := some x, heap := Function.update l.heap x (l.heap x).reset, buffersToWrite := ws } := by
  rw [recycle1, hone]
  simp only [recycleBack, hws, List.getLast?_append, List.getLast?_singleton, Option.some_or, Option.map_some,
    List.dropLast_concat]

theorem recycle2_eq {l : AsyncLogging} {ws : List Nat} {x : Nat} (htwo : l.newBuffer2 = none)
    (hws : l.buffersToWrite = ws ++ [x]) : l.recycle2 = some { l with
      newBuffer2 := some x, heap := Function.update l.heap x (l.heap x).reset } := by
  rw [recycle2, htwo]
  simp only [recycleBack, hws, List.getLast?_append, List.getLast?_singleton, Option.some_or, Option.map_some]

theorem Wf.apart {l : AsyncLogging} (h : Wf l) : Apart l := ⟨h.distinct, h.bound, h.empty⟩

/-- `buffersToWrite.clear()`, and back to the test -/
def cleared (l : AsyncLogging) : AsyncLogging := { l with buffersToWrite := [], stage := .test }

/-- The members that recycling leaves alone. -/
def Keeps (l l' : AsyncLogging) : Prop :=
  l'.allocated = l.allocated ∧ l'.currentBuffer_ = l.currentBuffer_ ∧ l'.buffers_ = l.buffers_ ∧ l'.output = l.output ∧
    l'.nextBuffer_ = l.nextBuffer_

/-- The first buffer is popped off at most two. -/
theorem Apart.recycle1 {l : AsyncLogging} (h : Apart l) (hone : l.newBuffer1 = none) (hne : l.buffersToWrite ≠ []) :
    ∃ l', AsyncLogging.recycle1 { l with buffersToWrite := l.buffersToWrite.take 2 } = some l' ∧ Apart l' ∧
      l'.rest = l.rest ∧ Keeps l l' ∧ l'.newBuffer1 ≠ none ∧ l'.newBuffer2 = l.newBuffer2 ∧
      (2 ≤ l.buffersToWrite.length → l'.buffersToWrite ≠ []) := by
  obtain ⟨ws, x, hws⟩ : ∃ ws x, l.buffersToWrite.take 2 = ws ++ [x] := by
    have htake : l.buffersToWrite.take 2 ≠ [] := by simp [hne]
    exact ⟨_, _, (List.dropLast_append_getLast htake).symm⟩
  have hrecycled : Recycled x l { l with
      newBuffer1 := some x, heap := Function.update l.heap x (l.heap x).reset, buffersToWrite := ws } := by
    refine ⟨List.mem_of_mem_take (i := 2) (by rw [hws]; simp), rfl, fun p hp => ?_, fun p => ?_⟩
    · simp only [spare, hone, Option.toList_some, Option.toList_none, List.mem_append, List.mem_singleton,
        List.not_mem_nil] at hp ⊢
      tauto
    · have htake := (List.take_sublist 2 l.buffersToWrite).count_le p
      rw [hws] at htake
      simp only [pointers, spare, hone, Option.toList_some, Option.toList_none, List.count_cons, List.count_append,
        List.count_nil] at htake ⊢
      omega
  obtain ⟨hapart, hrest⟩ := h.recycled hrecycled rfl rfl rfl rfl
  refine ⟨_, recycle1_eq hone hws, hapart, hrest, ⟨rfl, rfl, rfl, rfl, rfl⟩, nofun, rfl, fun hlen => ?_⟩
  rintro rfl
  have := congrArg List.length hws
  rw [List.length_take, List.nil_append, List.length_singleton] at this
  omega

/-- The second one is not, before all are dropped. -/
theorem Apart.recycle2 {l : AsyncLogging} (h : Apart l) (hleft : l.newBuffer2 = none → l.buffersToWrite ≠ []) :
    ∃ l', l.recycle2 = some l' ∧ Apart l'.cleared ∧ l'.cleared.rest = l.rest ∧ Keeps l l' ∧
      l'.newBuffer1 = l.newBuffer1 ∧ l'.newBuffer2 ≠ none := by
  cases htwo : l.newBuffer2 with
  | some b =>
    have hcount : ∀ p, l.cleared.pointers.count p ≤ l.pointers.count p := by
      intro p
      simp only [cleared, pointers, spare, List.count_cons, List.count_append, List.count_nil]
      omega
    obtain ⟨hnodup, hsub⟩ := distinct_of_count h.distinct hcount
    refine ⟨l, by rw [AsyncLogging.recycle2, htwo], ⟨hnodup, fun p hp => h.bound p (hsub p hp), h.empty⟩, rfl,
      ⟨rfl, rfl, rfl, rfl, rfl⟩, rfl, ?_⟩
    rw [htwo]
    exact nofun
  | none =>
    obtain ⟨ws, x, hws⟩ : ∃ ws x, l.buffersToWrite = ws ++ [x] :=
      ⟨_, _, (List.dropLast_append_getLast (hleft htwo)).symm⟩
    have hrecycled : Recycled x l (cleared { l with
        newBuffer2 := some x, heap := Function.update l.heap x (l.heap x).reset }) := by
      refine ⟨by rw [hws]; simp, rfl, fun p hp => ?_, fun p => ?_⟩
      · simp only [cleared, spare, htwo, Option.toList_some, Option.toList_none, List.mem_append, List.mem_singleton,
          List.not_mem_nil] at hp ⊢
        tauto
      · simp only [cleared, pointers, spare, htwo, hws, Option.toList_some, Option.toList_none, List.count_cons,
          List.count_append, List.count_nil]
        omega
    obtain ⟨hapart, hrest⟩ := h.recycled hrecycled rfl rfl rfl rfl
    exact ⟨_, recycle2_eq htwo hws, hapart, hrest, ⟨rfl, rfl, rfl, rfl, rfl⟩, rfl, nofun⟩

theorem told_of_unwritten_nil {l : AsyncLogging} (h : l.unwritten = []) : l.told = l.rest := by
  rw [told, h, rest]
  simp [texts]

/-- **Recycling** finds the buffers it needs. -/
theorem Wf.recycle {l : AsyncLogging} (h : Wf l) (hstage : l.stage = .recycling) :
    ∃ l', l.recycle = some l' ∧ Wf l' ∧ l'.told = l.told := by
  obtain ⟨hone, hne, htwo⟩ : l.newBuffer1 = none ∧ l.buffersToWrite ≠ [] ∧
      (l.newBuffer2 = none → 2 ≤ l.buffersToWrite.length) := by
    have hholds := h.holds
    rwa [Holds, hstage] at hholds
  obtain ⟨l₁, heq₁, hapart₁, hrest₁, ⟨-, -, hbuffers₁, -, hnext₁⟩, hone₁, htwo₁, hleft₁⟩ := h.apart.recycle1 hone hne
  obtain ⟨l₂, heq₂, hapart₂, hrest₂, ⟨-, -, hbuffers₂, -, hnext₂⟩, hone₂, htwo₂⟩ :=
    hapart₁.recycle2 fun hnone => hleft₁ (htwo (htwo₁ ▸ hnone))
  refine ⟨l₂.cleared, ?_, ⟨hapart₂.distinct, hapart₂.bound, hapart₂.empty, ?_, ?_, htwo₂, rfl⟩, ?_⟩
  · rw [AsyncLogging.recycle, heq₁, Option.bind_eq_bind, Option.bind_some, heq₂]
    rfl
  · show l₂.nextBuffer_ = none → l₂.buffers_ ≠ []
    rw [hnext₂, hnext₁, hbuffers₂, hbuffers₁]
    exact h.next
  · show l₂.newBuffer1 ≠ none
    rw [hone₂]
    exact hone₁
  · have hunwritten : l.unwritten = [] := by rw [unwritten, hstage]
    rw [told_of_unwritten_nil (l := l₂.cleared) rfl, hrest₂, hrest₁, told_of_unwritten_nil hunwritten]

/-! ## Whole runs -/

/-- **One step of the thread** goes through, keeps the buffers apart, and the log as it is unless more than 25 buffers were
collected. -/
theorem Wf.threadStep {l : AsyncLogging} (h : Wf l) (now : List UInt8) :
    ∃ l', l.threadStep now = some l' ∧ Wf l' ∧
      ((l.stage = .collected → l.buffersToWrite.length ≤ 25) → l'.told = l.told) := by
  have hholds := h.holds
  rw [Holds] at hholds
  unfold AsyncLogging.threadStep
  cases hstage : l.stage with
  | starting => exact ⟨_, rfl, (h.begin hstage).1, fun _ => (h.begin hstage).2⟩
  | test =>
    rw [hstage] at hholds
    refine ⟨_, rfl, ⟨h.distinct, h.bound, h.empty, h.next, ?_⟩, fun _ => ?_⟩
    · rw [Holds]
      cases l.running_ <;> exact hholds
    · have hunwritten : l.unwritten = [] := by rw [unwritten, hstage]
      rw [told_of_unwritten_nil hunwritten, told_of_unwritten_nil (by rw [unwritten]; cases l.running_ <;> rfl)]
      rfl
  | locking =>
    rw [hstage] at hholds
    have hunwritten : l.unwritten = [] := by rw [unwritten, hstage]
    obtain ⟨hone, htwo⟩ := h.ready_both hholds.1 hholds.2.1
    dsimp only
    rw [hone, htwo, Bool.and_self, if_pos rfl]
    split_ifs
    · refine ⟨_, rfl, ⟨h.distinct, h.bound, h.empty, h.next, hholds⟩, fun _ => ?_⟩
      rw [told_of_unwritten_nil hunwritten, told_of_unwritten_nil rfl]
      rfl
    · obtain ⟨l', heq, hwf, htold⟩ := h.swap hholds hunwritten
      exact ⟨l', heq, hwf, fun _ => htold⟩
  | waiting =>
    rw [hstage] at hholds
    obtain ⟨l', heq, hwf, htold⟩ := h.swap hholds (by rw [unwritten, hstage])
    exact ⟨l', heq, hwf, fun _ => htold⟩
  | collected =>
    rw [hstage] at hholds
    dsimp only
    rw [if_neg hholds.2.1]
    exact ⟨_, rfl, (h.limit hstage now).1, fun hfew => (h.limit hstage now).2 (hfew rfl)⟩
  | writing i =>
    dsimp only
    cases hb : l.buffersToWrite[i]? with
    | some b => exact ⟨_, rfl, (h.writing hstage hb).1, fun _ => (h.writing hstage hb).2⟩
    | none => exact ⟨_, rfl, (h.written hstage hb).1, fun _ => (h.written hstage hb).2⟩
  | recycling =>
    obtain ⟨l', heq, hwf, htold⟩ := h.recycle hstage
    exact ⟨l', heq, hwf, fun _ => htold⟩
  | done => exact ⟨l, rfl, h, fun _ => rfl⟩

/-- **One event**, whichever it is: none fails, the buffers stay apart, and the log has the line that was appended unless
it is too long or too many buffers were collected. -/
theorem Wf.event {l : AsyncLogging} (h : Wf l) (e : Event) : ∃ l', step (some l) e = some l' ∧ Wf l' ∧
    ((∀ line, e = .append line → line.length < kLargeBuffer) → (l.stage = .collected → l.buffersToWrite.length ≤ 25) →
      l'.told = l.told ++ appended [e]) := by
  cases e with
  | append line =>
    refine ⟨_, rfl, h.append line, fun hshort _ => ?_⟩
    rw [h.told_append (hshort line rfl)]
    simp [appended]
  | thread now =>
    obtain ⟨l', heq, hwf, htold⟩ := h.threadStep now
    refine ⟨l', heq, hwf, fun _ hfew => ?_⟩
    rw [htold hfew]
    simp [appended]
  | stop => exact ⟨_, rfl, h.running true, fun _ _ => (List.append_nil _).symm⟩

/-! ## What the thread asserts -/

/-- At the start of the loop the thread has two empty buffers, and nothing is referenced from two places. -/
structure AtLoopStart (l : AsyncLogging) : Prop where
  newBuffer1 : l.ready l.newBuffer1 = true
  newBuffer2 : l.ready l.newBuffer2 = true
  apart : (l.currentBuffer_ :: (l.nextBuffer_.toList ++ l.newBuffer1.toList ++ l.newBuffer2.toList ++ l.buffers_)).Nodup

/-- Each assertion at its place, what it rests on whenever the lock is free, and that the thread gets on. -/
structure Recyclable (l : AsyncLogging) : Prop where
  next : l.nextBuffer_ = none → l.buffers_ ≠ []
  loopStart : l.stage = .test ∨ l.stage = .locking → AtLoopStart l
  collected : l.stage = .collected → l.buffersToWrite ≠ []
  first : l.stage = .recycling → l.newBuffer1 = none → l.buffersToWrite.take 2 ≠ []
  second : l.stage = .recycling → ∀ l₁, recycle1 { l with buffersToWrite := l.buffersToWrite.take 2 } = some l₁ →
    l₁.newBuffer2 = none → l₁.buffersToWrite ≠ []
  passes : ∀ now, l.threadStep now ≠ none

theorem Wf.atLoopStart {l : AsyncLogging} (h : Wf l) (hstage : l.stage = .test ∨ l.stage = .locking) : AtLoopStart l := by
  obtain ⟨hone, htwo, -⟩ : l.newBuffer1 ≠ none ∧ l.newBuffer2 ≠ none ∧ l.buffersToWrite = [] := by
    have hholds := h.holds
    rcases hstage with hstage | hstage <;> rwa [Holds, hstage] at hholds
  obtain ⟨hready1, hready2⟩ := h.ready_both hone htwo
  have hdistinct := h.distinct
  rw [pointers, ← List.cons_append] at hdistinct
  exact ⟨hready1, hready2, (List.nodup_append.mp hdistinct).1⟩

theorem Wf.recyclable {l : AsyncLogging} (h : Wf l) : Recyclable l := by
  have hrecycling : l.stage = .recycling → l.newBuffer1 = none ∧ l.buffersToWrite ≠ [] ∧
      (l.newBuffer2 = none → 2 ≤ l.buffersToWrite.length) := by
    intro hstage
    have hholds := h.holds
    rwa [Holds, hstage] at hholds
  refine ⟨h.next, h.atLoopStart, fun hstage => ?_, fun hstage _ => ?_, fun hstage l₁ heq hnone => ?_, fun now => ?_⟩
  · have hholds := h.holds
    rw [Holds, hstage] at hholds
    exact hholds.2.1
  · have hne := (hrecycling hstage).2.1
    simp [hne]
  · obtain ⟨hone, hne, htwo⟩ := hrecycling hstage
    obtain ⟨l', heq', -, -, -, -, hsame, hleft⟩ := h.apart.recycle1 hone hne
    obtain rfl := Option.some.inj (heq'.symm.trans heq)
    exact hleft (htwo (hsame ▸ hnone))
  · obtain ⟨l', heq, -⟩ := h.threadStep now
    rw [heq]
    exact nofun

end AsyncLogging

open AsyncLogging

/-- **Recycling is always possible**: over any order of `append` calls and steps of the thread, from behind the constructor
on, before or behind `start`. -/
theorem recycling_possible (running : Bool) (es : List Event) :
    Always step (fun s => ∃ l, s = some l ∧ Recyclable l) (some { running_ := running }) es := by
  have hwf : Always step (fun s => ∃ l, s = some l ∧ Wf l) (some { running_ := running }) es := by
    refine inv_always_all ?_ ⟨_, rfl, wf_constructed.running running⟩
    rintro s e ⟨l, rfl, hl⟩
    obtain ⟨l', heq, hl', -⟩ := hl.event e
    exact ⟨l', heq, hl'⟩
  exact hwf.mono fun s ⟨l, heq, hl⟩ => ⟨l, heq, hl.recyclable⟩

/-! ## The log of a run -/

/-- From a state in which the buffers are apart. -/
theorem told_run {l : AsyncLogging} (h : Wf l) {es : List Event}
    (hshort : ∀ line, .append line ∈ es → line.length < kLargeBuffer)
    (hfew : Along step (fun s _ => ∀ l ∈ s, l.stage = .collected → l.buffersToWrite.length ≤ 25) (some l) es) :
    ∃ l', run step (some l) es = some l' ∧ Wf l' ∧ l'.told = l.told ++ appended es := by
  induction es generalizing l with
  | nil => exact ⟨l, rfl, h, (List.append_nil _).symm⟩
  | cons e es ih =>
    obtain ⟨hfirst, hrest⟩ := hfew
    obtain ⟨l₁, heq, hwf, htold⟩ := h.event e
    have htold : l₁.told = l.told ++ appended [e] :=
      htold (fun line hline => hshort line (hline ▸ List.mem_cons_self)) (hfirst l rfl)
    rw [heq] at hrest
    obtain ⟨l₂, hrun, hwf₂, htold₂⟩ := ih hwf (fun line hline => hshort line (List.mem_cons_of_mem _ hline)) hrest
    refine ⟨l₂, by rw [run_cons, heq, hrun], hwf₂, ?_⟩
    rw [htold₂, htold, List.append_assoc]
    simp [appended]

/-- **Nothing is lost and nothing changes its place**: over any order of `append` calls and steps of the thread in which no
more than 25 buffers are collected at once, the log is what was written, what was collected, what is in the full buffers
and what is in the current one. -/
theorem nothing_lost {es : List Event} (hshort : ∀ line, .append line ∈ es → line.length < kLargeBuffer)
    (hfew : Along step (fun s _ => ∀ l ∈ s, l.stage = .collected → l.buffersToWrite.length ≤ 25) (some started) es) :
    ∃ l, run step (some started) es = some l ∧
      l.output ++ texts l.heap l.unwritten ++ texts l.heap l.buffers_ ++ (l.heap l.currentBuffer_).content =
        appended es := by
  obtain ⟨l, hrun, -, htold⟩ := told_run wf_started hshort hfew
  refine ⟨l, hrun, ?_⟩
  rw [← told, htold]
  rfl

/-- A line that leaves one byte of its buffer. -/
def longLine : List UInt8 := List.replicate 3999999 46

/-- It fills the first buffer, the second one gets a line, and the third line comes after the thread has collected both. -/
def threeLines : List Event :=
  [.append longLine, .append [104], .thread [], .thread [], .thread [], .append [105], .thread [], .thread [], .thread [],
    .thread [], .thread []]

theorem nothing_lost_of_three :
    ∃ l, run step (some started) threeLines = some l ∧
      l.output ++ texts l.heap l.unwritten ++ texts l.heap l.buffers_ ++ (l.heap l.currentBuffer_).content =
        appended threeLines := by
  have hlong : longLine.length = 3999999 := List.length_replicate
  refine nothing_lost (fun line hline => ?_) ?_
  · simp only [threeLines, List.mem_cons, Event.append.injEq, reduceCtorEq, List.not_mem_nil, or_false, false_or] at hline
    rcases hline with rfl | rfl | rfl
    · rw [hlong]
      decide
    · decide
    · decide
  · simp [threeLines, Along, step, started, AsyncLogging.append, write, changeBuffer, kLargeBuffer, SwapBuffer.append,
      SwapBuffer.writable, SwapBuffer.readable, threadStep, AsyncLogging.begin, ready, Function.update, AsyncLogging.swap,
      swapped, limit, hlong]

/-! ## Stopping -/

/-- After `stop` the thread gets out of its loop, and what was appended before is in the `LogFile`. -/
def StopsAndDrains (es : List Event) : Prop :=
  ∃ n, ∀ nows : List (List UInt8), n ≤ nows.length →
    ∃ l, run step (some started) (es ++ .stop :: nows.map .thread) = some l ∧ l.stage = .done ∧ l.output = appended es

/-- The flag of the loop is set, and the thread is not behind the loop. -/
def Loops (l : AsyncLogging) : Prop := l.running_ = true ∧ l.stage ≠ .done

theorem loops_recycle {l l' : AsyncLogging} (h : l.running_ = true) (heq : l.recycle = some l') : Loops l' := by
  obtain ⟨l₁, h₁, heq⟩ := Option.bind_eq_some_iff.mp heq
  obtain ⟨l₂, h₂, heq⟩ := Option.bind_eq_some_iff.mp heq
  obtain rfl := Option.some.inj heq
  have hfirst : l₁.running_ = true := by
    unfold recycle1 at h₁
    split at h₁
    · obtain rfl := Option.some.inj h₁
      exact h
    · obtain ⟨r, -, rfl⟩ := Option.map_eq_some_iff.mp h₁
      exact h
  have hsecond : l₂.running_ = true := by
    unfold recycle2 at h₂
    split at h₂
    · obtain rfl := Option.some.inj h₂
      exact hfirst
    · obtain ⟨r, -, rfl⟩ := Option.map_eq_some_iff.mp h₂
      exact hfirst
  exact ⟨hsecond, nofun⟩

theorem loops_threadStep {l l' : AsyncLogging} (h : Loops l) {now : List UInt8} (heq : l.threadStep now = some l') :
    Loops l' := by
  obtain ⟨hrunning, hstage⟩ := h
  have hswap : l.swap = some l' → Loops l' := by
    intro hswap
    obtain ⟨b, -, rfl⟩ := Option.map_eq_some_iff.mp hswap
    exact ⟨hrunning, nofun⟩
  unfold threadStep at heq
  split at heq
  · obtain rfl := Option.some.inj heq
    exact ⟨rfl, nofun⟩
  · obtain rfl := Option.some.inj heq
    refine ⟨hrunning, ?_⟩
    dsimp only
    rw [if_pos hrunning]
    exact nofun
  · split_ifs at heq
    · obtain rfl := Option.some.inj heq
      exact ⟨hrunning, nofun⟩
    · exact hswap heq
  · exact hswap heq
  · split_ifs at heq
    obtain rfl := Option.some.inj heq
    unfold AsyncLogging.limit
    split_ifs <;> exact ⟨hrunning, nofun⟩
  · split at heq <;> obtain rfl := Option.some.inj heq <;> exact ⟨hrunning, nofun⟩
  · exact loops_recycle hrunning heq
  · contradiction

theorem loops_append {l : AsyncLogging} (h : Loops l) (line : List UInt8) : Loops (l.append line) := by
  unfold AsyncLogging.append
  split_ifs
  · exact h
  · unfold changeBuffer
    cases l.nextBuffer_ <;> exact h

/-- The flag is set once and for all. -/
theorem loops_run (es : List Event) : ∀ l ∈ run step (some started) es, Loops l := by
  refine inv_run (q := fun s => ∀ l ∈ s, Loops l) ?_ ?_ es
  · intro s e hs l' hl'
    obtain ⟨l, rfl, heq⟩ := Option.bind_eq_some_iff.mp hl'
    have hl := hs l rfl
    cases e with
    | append line => exact Option.some.inj heq ▸ loops_append hl line
    | thread now => exact loops_threadStep hl heq
    | stop => exact Option.some.inj heq ▸ ⟨rfl, hl.2⟩
  · rintro l hl
    obtain rfl := Option.some.inj hl
    exact ⟨rfl, nofun⟩

theorem not_stopsAndDrains (es : List Event) : ¬ StopsAndDrains es := by
  rintro ⟨n, h⟩
  obtain ⟨l, hrun, hdone, -⟩ := h (List.replicate n []) (by simp)
  exact (loops_run _ l hrun).2 hdone

/-- **The thread is never stopped**, whatever happened before `stop`. -/
theorem never_stops (es : List Event) : ¬ StopsAndDrains es ∧
    ∀ nows : List (List UInt8), ∀ l ∈ run step (some started) (es ++ .stop :: nows.map .thread), l.stage ≠ .done :=
  ⟨not_stopsAndDrains es, fun _ l hl => (loops_run _ l hl).2⟩

/-- A logger that is stopped without a line in it. -/
theorem idle_never_stops : ¬ StopsAndDrains [] := not_stopsAndDrains []

end AsioUtils.Net.Logging
