import AsioUtils.Lib.Runs
import Mathlib.Data.List.Count
import Mathlib.Data.List.Nodup
import Mathlib.Data.List.Perm.Lattice
import Mathlib.Data.List.Range

/-!
# Object pools

`ObjectPool` and `ThreadSafeObjectPool`, each for `T *` and for `std::shared_ptr<T>`: blocks of slots and a list of the
slots to be handed out. Memory is never exhausted. `none` is undefined behaviour: the loop over a new block counts with an
`int`, which overflows in a large block, and a block of no slots leaves nothing to take.

* `Pool`, `Variant` : what the four pools share, and what each of them does;
* `World`, `step` : a pool and its clients; the two parts of `createObject` are steps of their own;
* `Inv`, `Inv.step` : the slots of all blocks are those in the list and those that are out;
* `exclusive_iff` : every slot is in one place, exactly as long as the block size is an `int`.
-/

namespace AsioUtils.Net.Util

open Runs

/-- The place `newBlock + offset`. -/
structure Slot where
  block : Nat
  offset : Nat
  deriving DecidableEq

/-- The members of a pool. A block is named by the number of those allocated before it. -/
structure Pool where
  blockSize_ : Nat := 1024
  blocks_ : List Nat := []
  objects_ : List Slot := []
  deriving DecidableEq

namespace Pool

/-- The `for` loop over a new block from the index `i` on, with `n` slots to come. -/
def pushSlots (block : Nat) : Nat → Nat → List Slot → Option (List Slot)
  | 0, _, objects => some objects
  -- `i++` of the greatest `int`
  | n + 1, i, objects => if i < 2147483647 then pushSlots block n (i + 1) (objects ++ [⟨block, i⟩]) else none

def enableEnoughObjects (p : Pool) : Option Pool :=
  if p.objects_.length = 0 then
    (pushSlots p.blocks_.length p.blockSize_ 0 p.objects_).map fun objects =>
      { p with blocks_ := p.blocks_ ++ [p.blocks_.length], objects_ := objects }
  else some p

def takeFront (p : Pool) : Option (Slot × Pool) :=
  match p.objects_ with
  | [] => none
  | obj :: objects => some (obj, { p with objects_ := objects })

def getFreeObjectMem (p : Pool) : Option (Slot × Pool) := p.enableEnoughObjects.bind takeFront

/-- `if (obj != NULL) objects_.push_back(obj)` -/
def pushBack (p : Pool) : Option Slot → Pool
  | some obj => { p with objects_ := p.objects_ ++ [obj] }
  | none => p

end Pool

/-! ## The four pools -/

namespace ObjectPool

def getFreeObject : Pool → Option (Slot × Pool) := Pool.getFreeObjectMem

def releaseObject : Pool → Option Slot → Pool := Pool.pushBack

end ObjectPool

namespace ObjectPoolShared

def getFreeObject : Pool → Option (Slot × Pool) := Pool.getFreeObjectMem

/-- The public method does nothing; the deleter is `releaseObj`. -/
def releaseObject (p : Pool) (_obj : Option Slot) : Pool := p

def releaseObj : Pool → Option Slot → Pool := Pool.pushBack

end ObjectPoolShared

namespace ThreadSafeObjectPool

def getFreeObjectMem : Pool → Option (Slot × Pool) := Pool.getFreeObjectMem

def releaseObject : Pool → Option Slot → Pool := Pool.pushBack

end ThreadSafeObjectPool

namespace ThreadSafeObjectPoolShared

def getFreeObjectMem : Pool → Option (Slot × Pool) := Pool.getFreeObjectMem

def releaseObject (p : Pool) (_obj : Option Slot) : Pool := p

def releaseObj : Pool → Option Slot → Pool := Pool.pushBack

end ThreadSafeObjectPoolShared

inductive Variant
  | objectPool
  | objectPoolShared
  | threadSafe
  | threadSafeShared
  deriving DecidableEq

namespace Variant

/-- The first part of `createObject`. -/
def getFree : Variant → Pool → Option (Slot × Pool)
  | objectPool => ObjectPool.getFreeObject
  | objectPoolShared => ObjectPoolShared.getFreeObject
  | threadSafe => ThreadSafeObjectPool.getFreeObjectMem
  | threadSafeShared => ThreadSafeObjectPoolShared.getFreeObjectMem

def releaseObject : Variant → Pool → Option Slot → Pool
  | objectPool => ObjectPool.releaseObject
  | objectPoolShared => ObjectPoolShared.releaseObject
  | threadSafe => ThreadSafeObjectPool.releaseObject
  | threadSafeShared => ThreadSafeObjectPoolShared.releaseObject

/-- The last reference to an object goes. A `T *` has no deleter. -/
def lastReference : Variant → Pool → Option Slot → Pool
  | objectPoolShared => ObjectPoolShared.releaseObj
  | threadSafeShared => ThreadSafeObjectPoolShared.releaseObj
  | _ => fun p _ => p

theorem getFree_eq (v : Variant) : v.getFree = Pool.getFreeObjectMem := by cases v <;> rfl

end Variant

/-! ## A pool and its clients -/

/-- What happens to the objects in the slots. -/
inductive Effect
  | construct (s : Slot)
  | release (s : Slot)
  | destroy (s : Slot)
  deriving DecidableEq

structure World where
  pool : Pool
  /-- taken by a `createObject` that has not constructed its object yet -/
  pending : List Slot := []
  /-- constructed and not released -/
  live : List Slot := []
  log : List Effect := []
  deriving DecidableEq

inductive Event
  /-- the first part of `createObject` -/
  | take
  /-- `new (mem) T(…)`, the second part -/
  | construct (s : Slot)
  | releaseObject (obj : Option Slot)
  | lastReference (s : Slot)
  deriving DecidableEq

/-- The object an event gives back to the pool. -/
def Variant.releases : Variant → Event → Option Slot
  | .objectPool, .releaseObject obj => obj
  | .threadSafe, .releaseObject obj => obj
  | .objectPoolShared, .lastReference s => some s
  | .threadSafeShared, .lastReference s => some s
  | _, _ => none

namespace World

/-- The slots that are not the pool's to hand out. -/
def out (w : World) : List Slot := w.pending ++ w.live

/-- An object is given back, if any: the pool, which is `pool` then, runs nothing of the object. -/
def givenBack (w : World) (obj : Option Slot) (pool : Pool) : World :=
  match obj with
  | some s => { w with pool := pool, live := w.live.erase s, log := w.log ++ [.release s] }
  | none => { w with pool := pool }

end World

def World.step (v : Variant) (w : World) : Event → Option World
  | .take => (v.getFree w.pool).map fun r => { w with pool := r.2, pending := w.pending ++ [r.1] }
  | .construct s =>
    some { w with pending := w.pending.erase s, live := w.live ++ [s], log := w.log ++ [.construct s] }
  | .releaseObject obj =>
    some (w.givenBack (v.releases (.releaseObject obj)) (v.releaseObject w.pool obj))
  | .lastReference s =>
    some (w.givenBack (v.releases (.lastReference s)) (v.lastReference w.pool (some s)))

/-- After undefined behaviour there is no state. -/
def step (v : Variant) (s : Option World) (e : Event) : Option World := s.bind fun w => w.step v e

/-- An object is constructed where a slot was taken for it, and what is given back is live. -/
def Valid (v : Variant) (s : Option World) (e : Event) : Prop :=
  ∀ w ∈ s, (∀ m, e = .construct m → m ∈ w.pending) ∧ ∀ m, v.releases e = some m → m ∈ w.live

/-- A pool nobody has used. -/
def start (blockSize : Nat) : World := { pool := { blockSize_ := blockSize } }

theorem step_take (v : Variant) (w : World) :
    w.step v .take = w.pool.getFreeObjectMem.map fun r => { w with pool := r.2, pending := w.pending ++ [r.1] } := by
  rw [← v.getFree_eq]
  rfl

/-- An event that gives something back gives the pool and the clients the same slot. -/
theorem step_of_releases {v : Variant} {e : Event} {m : Slot} (h : v.releases e = some m) (w : World) :
    w.step v e = some (w.givenBack (some m) (w.pool.pushBack (some m))) := by
  cases v <;> cases e <;> cases h <;> rfl

/-- An event that gives nothing back is one of the two parts of `createObject`, or changes nothing. -/
theorem step_cases (v : Variant) (w : World) (e : Event) :
    e = .take ∨ (∃ m, e = .construct m) ∨ (∃ m, v.releases e = some m) ∨
      e ≠ .take ∧ v.releases e = none ∧ w.step v e = some w := by
  cases e with
  | take => exact .inl rfl
  | construct s => exact .inr (.inl ⟨s, rfl⟩)
  | releaseObject obj => cases v <;> cases obj <;> simp [Variant.releases] <;> rfl
  | lastReference s => cases v <;> simp [Variant.releases] <;> rfl

/-! ## Taking a slot -/

namespace Pool

/-- The slots of one block. -/
def blockSlots (n block : Nat) : List Slot := (List.range n).map (Slot.mk block)

/-- The slots of all blocks. -/
def slots (p : Pool) : List Slot := p.blocks_.flatMap (blockSlots p.blockSize_)

def Owns (p : Pool) (m : Slot) : Prop := m.block ∈ p.blocks_ ∧ m.offset < p.blockSize_

theorem mem_blockSlots {n block : Nat} {m : Slot} : m ∈ blockSlots n block ↔ m.block = block ∧ m.offset < n := by
  simp only [blockSlots, List.mem_map, List.mem_range]
  constructor
  · rintro ⟨i, hi, rfl⟩
    exact ⟨rfl, hi⟩
  · rintro ⟨rfl, hi⟩
    exact ⟨m.offset, hi, rfl⟩

theorem mem_slots {p : Pool} {m : Slot} : m ∈ p.slots ↔ p.Owns m := by
  simp only [slots, List.mem_flatMap, mem_blockSlots, Owns]
  constructor
  · rintro ⟨b, hb, rfl, hm⟩
    exact ⟨hb, hm⟩
  · exact fun ⟨hb, hm⟩ => ⟨_, hb, rfl, hm⟩

theorem nodup_slots {p : Pool} (h : p.blocks_.Nodup) : p.slots.Nodup := by
  refine List.nodup_flatMap.mpr ⟨fun b _ => ?_, h.imp fun hne => ?_⟩
  · exact List.nodup_range.map fun i j hij => (Slot.mk.inj hij).2
  · intro m hm hm'
    exact hne ((mem_blockSlots.mp hm).1.symm.trans (mem_blockSlots.mp hm').1)

theorem pushSlots_eq (block : Nat) {n i : Nat} (h : i + n ≤ 2147483647) (objects : List Slot) :
    pushSlots block n i objects = some (objects ++ (List.range' i n).map (Slot.mk block)) := by
  induction n generalizing i objects with
  | zero => simp [pushSlots]
  | succ n ih =>
    rw [pushSlots, if_pos (by omega), ih (by omega), List.range'_succ, List.map_cons, List.append_assoc]
    rfl

theorem pushSlots_overflow (block : Nat) {n i : Nat} (h : 2147483647 < i + n) (hi : i ≤ 2147483647)
    (objects : List Slot) : pushSlots block n i objects = none := by
  induction n generalizing i objects with
  | zero => omega
  | succ n ih =>
    rw [pushSlots]
    split_ifs with hlt
    · exact ih (by omega) (by omega) _
    · rfl

/-- The slot in front is taken. -/
theorem getFree_of_cons {p : Pool} {m : Slot} {rest : List Slot} (h : p.objects_ = m :: rest) :
    p.getFreeObjectMem = some (m, { p with objects_ := rest }) := by
  have hne : p.objects_.length ≠ 0 := by simp [h]
  rw [getFreeObjectMem, enableEnoughObjects, if_neg hne, Option.bind_some, takeFront, h]

/-- There is none: a block is allocated, and its first slot is taken. -/
theorem getFree_of_nil {p : Pool} (h : p.objects_ = []) (h0 : 0 < p.blockSize_) (hmax : p.blockSize_ ≤ 2147483647) :
    ∃ m rest, blockSlots p.blockSize_ p.blocks_.length = m :: rest ∧
      p.getFreeObjectMem = some (m, { p with blocks_ := p.blocks_ ++ [p.blocks_.length], objects_ := rest }) := by
  have hpush := pushSlots_eq p.blocks_.length (i := 0) (n := p.blockSize_) (by omega) p.objects_
  rw [h, List.nil_append, ← List.range_eq_range'] at hpush
  have hlen : (blockSlots p.blockSize_ p.blocks_.length).length = p.blockSize_ := by simp [blockSlots]
  cases hslots : blockSlots p.blockSize_ p.blocks_.length with
  | nil => simp [hslots] at hlen; omega
  | cons m rest =>
    refine ⟨m, rest, rfl, ?_⟩
    rw [getFreeObjectMem, enableEnoughObjects, if_pos (by simp [h]), h, hpush, Option.map_some, Option.bind_some,
      takeFront]
    show (match blockSlots p.blockSize_ p.blocks_.length with
      | [] => none
      | obj :: objects => some (obj, _)) = _
    rw [hslots]

theorem getFree_overflow {p : Pool} (h : p.objects_ = []) (hmax : 2147483647 < p.blockSize_) :
    p.getFreeObjectMem = none := by
  rw [getFreeObjectMem, enableEnoughObjects, if_pos (by simp [h]), pushSlots_overflow _ (by omega) (by omega)]
  rfl

end Pool

/-! ## Every slot is in one place -/

/-- Blocks are allocated in order, and the slots of all of them are those in the list and those that are out. -/
structure Inv (n : Nat) (w : World) : Prop where
  size : w.pool.blockSize_ = n
  blocks : w.pool.blocks_ = List.range w.pool.blocks_.length
  slots : (w.pool.objects_ ++ w.out).Perm w.pool.slots

namespace Inv

variable {n : Nat} {w : World}

theorem nodup (h : Inv n w) : (w.pool.objects_ ++ w.out).Nodup := by
  refine h.slots.nodup_iff.mpr (Pool.nodup_slots ?_)
  rw [h.blocks]
  exact List.nodup_range

theorem take_cons (h : Inv n w) {m : Slot} {rest : List Slot} (hfree : w.pool.objects_ = m :: rest) :
    Inv n { w with pool := { w.pool with objects_ := rest }, pending := w.pending ++ [m] } := by
  refine ⟨h.size, h.blocks, List.Perm.trans ?_ h.slots⟩
  rw [hfree]
  show (rest ++ ((w.pending ++ [m]) ++ w.live)).Perm (m :: rest ++ (w.pending ++ w.live))
  rw [List.append_assoc, List.singleton_append]
  exact (List.perm_middle.append_left rest).trans List.perm_middle

theorem take_nil (h : Inv n w) (hfree : w.pool.objects_ = []) {m : Slot} {rest : List Slot}
    (hslots : Pool.blockSlots w.pool.blockSize_ w.pool.blocks_.length = m :: rest) :
    Inv n { w with
      pool := { w.pool with blocks_ := w.pool.blocks_ ++ [w.pool.blocks_.length], objects_ := rest }
      pending := w.pending ++ [m] } := by
  have hout : w.out.Perm w.pool.slots := by simpa [hfree] using h.slots
  refine ⟨h.size, ?_, ?_⟩
  · show w.pool.blocks_ ++ [w.pool.blocks_.length] = List.range (w.pool.blocks_ ++ [w.pool.blocks_.length]).length
    rw [List.length_append, List.length_singleton, List.range_succ, ← h.blocks]
  · show (rest ++ ((w.pending ++ [m]) ++ w.live)).Perm
      ((w.pool.blocks_ ++ [w.pool.blocks_.length]).flatMap (Pool.blockSlots w.pool.blockSize_))
    rw [List.flatMap_append, List.flatMap_singleton, hslots, List.append_assoc, List.singleton_append]
    have hmove : (rest ++ (w.pending ++ m :: w.live)).Perm (m :: rest ++ w.out) :=
      (List.perm_middle.append_left rest).trans List.perm_middle
    exact hmove.trans (List.perm_append_comm.trans (hout.append_right _))

theorem construct (h : Inv n w) {m : Slot} (hm : m ∈ w.pending) :
    Inv n { w with pending := w.pending.erase m, live := w.live ++ [m], log := w.log ++ [.construct m] } := by
  refine ⟨h.size, h.blocks, List.Perm.trans (List.Perm.append_left _ ?_) h.slots⟩
  show (w.pending.erase m ++ (w.live ++ [m])).Perm (w.pending ++ w.live)
  rw [← List.append_assoc]
  refine List.perm_append_comm.trans ?_
  rw [List.singleton_append, ← List.cons_append]
  exact ((List.perm_cons_erase hm).symm).append_right _

theorem givenBack (h : Inv n w) {m : Slot} (hm : m ∈ w.live) :
    Inv n (w.givenBack (some m) (w.pool.pushBack (some m))) := by
  refine ⟨h.size, h.blocks, List.Perm.trans ?_ h.slots⟩
  show (w.pool.objects_ ++ [m] ++ (w.pending ++ w.live.erase m)).Perm (w.pool.objects_ ++ (w.pending ++ w.live))
  rw [List.append_assoc, List.singleton_append]
  refine List.Perm.append_left _ ?_
  exact List.perm_middle.symm.trans ((List.perm_cons_erase hm).symm.append_left _)

/-- **One event** keeps the slots together, unless it is a `take` in a pool whose blocks are too large or empty. -/
theorem step (h : Inv n w) {v : Variant} {e : Event} (hv : Valid v (some w) e)
    (htake : e = .take → 0 < n ∧ n ≤ 2147483647) : ∃ w', w.step v e = some w' ∧ Inv n w' := by
  rcases step_cases v w e with rfl | ⟨m, rfl⟩ | ⟨m, hm⟩ | ⟨-, -, heq⟩
  · obtain ⟨h0, hmax⟩ := htake rfl
    have hget := step_take v w
    cases hfree : w.pool.objects_ with
    | nil =>
      have hsize := h.size
      obtain ⟨m, rest, hslots, hsome⟩ := Pool.getFree_of_nil hfree (by omega) (by omega)
      rw [hsome] at hget
      exact ⟨_, hget, h.take_nil hfree hslots⟩
    | cons m rest =>
      rw [Pool.getFree_of_cons hfree] at hget
      exact ⟨_, hget, h.take_cons hfree⟩
  · exact ⟨_, rfl, h.construct ((hv w rfl).1 m rfl)⟩
  · exact ⟨_, step_of_releases hm w, h.givenBack ((hv w rfl).2 m hm)⟩
  · exact ⟨w, heq, h⟩

end Inv

theorem inv_start (n : Nat) : Inv n (start n) := ⟨rfl, rfl, List.Perm.refl _⟩

/-- What is asked of a state: a slot of the pool is once in the list or once out, no slot is out twice, and only when all
slots are out the next `createObject` allocates a block. -/
structure Exclusive (v : Variant) (w : World) : Prop where
  once : ∀ m, w.pool.Owns m →
    w.pool.objects_.count m = 1 ∧ w.out.count m = 0 ∨ w.pool.objects_.count m = 0 ∧ w.out.count m = 1
  distinct : w.out.Nodup
  grows : ∀ w', w.step v .take = some w' → w'.pool.blocks_ ≠ w.pool.blocks_ → ∀ m, w.pool.Owns m → m ∈ w.out

theorem Inv.exclusive {n : Nat} {w : World} (h : Inv n w) (v : Variant) : Exclusive v w := by
  refine ⟨fun m hm => ?_, (List.nodup_append.mp h.nodup).2.1, fun w' hw' hgrows m hm => ?_⟩
  · have hone : w.pool.objects_.count m + w.out.count m = 1 := by
      rw [← List.count_append]
      exact List.count_eq_one_of_mem h.nodup (h.slots.mem_iff.mpr (Pool.mem_slots.mpr hm))
    omega
  · -- with a slot in the list no block is allocated
    have hmem := h.slots.mem_iff.mpr (Pool.mem_slots.mpr hm)
    cases hfree : w.pool.objects_ with
    | nil => simpa [hfree] using hmem
    | cons s rest =>
      have hget := step_take v w
      rw [Pool.getFree_of_cons hfree] at hget
      rw [hget] at hw'
      obtain rfl := Option.some.inj hw'
      exact absurd rfl hgrows

/-- The first `take` from a pool of blocks that are too large. -/
theorem Inv.take_overflow {n : Nat} {w : World} (h : Inv n w) (v : Variant) (hn : 2147483647 < n)
    (hblocks : w.pool.blocks_ = []) : w.step v .take = none := by
  have hnone := h.slots
  rw [Pool.slots, hblocks] at hnone
  obtain ⟨hfree, -⟩ := List.append_eq_nil_iff.mp hnone.eq_nil
  rw [step_take, Pool.getFree_overflow hfree (by rw [h.size]; exact hn)]
  rfl

/-- Without a `take` no block is allocated. -/
theorem blocks_step {v : Variant} {w w' : World} {e : Event} (he : e ≠ .take) (h : w.step v e = some w') :
    w'.pool.blocks_ = w.pool.blocks_ := by
  rcases step_cases v w e with rfl | ⟨m, rfl⟩ | ⟨m, hm⟩ | ⟨-, -, heq⟩
  · exact absurd rfl he
  · obtain rfl := Option.some.inj h
    rfl
  · obtain rfl := Option.some.inj ((step_of_releases hm w).symm.trans h)
    rfl
  · obtain rfl := Option.some.inj (heq.symm.trans h)
    rfl

/-- The invariant, and the size of a block where there is one. -/
def Sized (n : Nat) (s : Option World) : Prop :=
  ∃ w, s = some w ∧ Inv n w ∧ (n ≤ 2147483647 ∨ w.pool.blocks_ = [])

/-- **Slots are never shared**: over any order of events, in which a live object is released at most once, every slot is
in one place exactly if the block size is an `int`, or no object is ever created. -/
theorem exclusive_iff (v : Variant) {n : Nat} (hn : 0 < n) {es : List Event}
    (hv : Along (step v) (Valid v) (some (start n)) es) :
    Always (step v) (fun s => ∃ w, s = some w ∧ Exclusive v w) (some (start n)) es ↔
      n ≤ 2147483647 ∨ .take ∉ es := by
  have hguard : Always (step v) (fun s => ∃ w, s = some w ∧ Exclusive v w) (some (start n)) es ↔
      Along (step v) (fun _ e => e = .take → n ≤ 2147483647) (some (start n)) es := by
    have hstart : Sized n (some (start n)) := ⟨_, rfl, inv_start n, .inr rfl⟩
    refine always_iff_along_of_inv ?_ ?_ ?_ hstart hv
    · rintro s ⟨w, rfl, h, -⟩
      exact ⟨w, rfl, h.exclusive v⟩
    · rintro _ e ⟨w, rfl, h, hsmall⟩ hve
      constructor
      · rintro ⟨w', hw', -⟩ rfl
        by_contra hmax
        have hblocks := hsmall.resolve_left hmax
        exact absurd ((h.take_overflow v (by omega) hblocks).symm.trans hw') nofun
      · intro hok
        obtain ⟨w', hw', h'⟩ := h.step hve fun he => ⟨hn, hok he⟩
        exact ⟨w', hw', h'.exclusive v⟩
    · rintro _ e ⟨w, rfl, h, hsmall⟩ hve hok
      obtain ⟨w', hw', h'⟩ := h.step hve fun he => ⟨hn, hok he⟩
      refine ⟨w', hw', h', ?_⟩
      by_cases he : e = .take
      · exact .inl (hok he)
      · rw [blocks_step he hw']
        exact hsmall
  rw [hguard, along_iff_mem]
  constructor
  · intro h
    by_cases htake : Event.take ∈ es
    · exact .inl (h _ htake rfl)
    · exact .inr htake
  · rintro (h | h) e he rfl
    · exact h
    · exact absurd he h

theorem exclusive_of_two :
    Always (step .threadSafe) (fun s => ∃ w, s = some w ∧ Exclusive .threadSafe w) (some (start 2))
      [.take, .construct ⟨0, 0⟩, .take, .releaseObject (some ⟨0, 0⟩), .take] := by
  refine (exclusive_iff .threadSafe (n := 2) (by decide) ?_).mpr (.inl (by decide))
  simp [Along, Valid, step, World.step, start, Variant.getFree, ThreadSafeObjectPool.getFreeObjectMem,
    Pool.getFreeObjectMem, Pool.enableEnoughObjects, Pool.pushSlots, Pool.takeFront, Variant.releases,
    Variant.releaseObject, ThreadSafeObjectPool.releaseObject, Pool.pushBack, World.givenBack]

theorem take_large {n : Nat} (hn : 2147483647 < n) :
    Along (step .threadSafe) (Valid .threadSafe) (some (start n)) [.take] ∧
      step .threadSafe (some (start n)) .take = none ∧
      ¬ Always (step .threadSafe) (fun s => ∃ w, s = some w ∧ Exclusive .threadSafe w) (some (start n)) [.take] := by
  have hnone : step .threadSafe (some (start n)) .take = none := (inv_start n).take_overflow .threadSafe hn rfl
  refine ⟨⟨fun w _ => ⟨by simp, by simp [Variant.releases]⟩, trivial⟩, hnone, fun h => ?_⟩
  obtain ⟨w, hw, -⟩ := h.last
  exact absurd (hnone.symm.trans hw) nofun

/-- The first object of a pool with blocks of `2 ^ 31 + 1` slots. -/
theorem large_block_overflows :
    Along (step .threadSafe) (Valid .threadSafe) (some (start 2147483649)) [.take] ∧
      step .threadSafe (some (start 2147483649)) .take = none ∧
      ¬ Always (step .threadSafe) (fun s => ∃ w, s = some w ∧ Exclusive .threadSafe w) (some (start 2147483649))
        [.take] := take_large (by decide)

end AsioUtils.Net.Util
