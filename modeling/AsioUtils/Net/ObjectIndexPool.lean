import Mathlib.Data.List.Basic

/-!
# `ObjectIndexPool`: an array of slots and a list of what is in them

Slots are handed out in ascending order once, and after that from the queue `invalidIndexs_`, which starts with
`MAX_NUM`. Objects are pointers that are not null; an empty slot is `none`, and `unsigned int` wraps.

* `addObject_cases` : what `addObject` can do: fail, or fill one slot of the array;
* `objectArray_removeObject` : what `removeObject` does to the slots.
-/

namespace AsioUtils.Net

def POOL_INVALID_INDEX : UInt32 := 0xFFFFFFFF

def OB_MAX : Nat := 10000

/-- An index of such a pool is no negative `int32`. -/
theorem toInt_toInt32 {i : UInt32} (h : i.toNat ≤ OB_MAX) : i.toInt32.toInt = i.toNat := by
  have hlt : 2 * i.toNat < 2 ^ 32 := by
    unfold OB_MAX at h
    omega
  exact BitVec.toInt_eq_toNat_of_lt hlt

structure ObjectIndexPool (α : Type*) (MAX_NUM : Nat) where
  maxIndex_ : UInt32
  size_ : UInt32
  objectArray_ : UInt32 → Option α
  objects_ : List α
  invalidIndexs_ : List UInt32
  /-- an index that is handed out again lies in the array -/
  invalid_le : ∀ i ∈ invalidIndexs_, i.toNat ≤ MAX_NUM

namespace ObjectIndexPool

variable {α : Type*} {MAX_NUM : Nat}

/-- The constructor. -/
def empty : ObjectIndexPool α MAX_NUM where
  maxIndex_ := 0
  size_ := 0
  objectArray_ := fun _ => none
  objects_ := []
  invalidIndexs_ := [UInt32.ofNat MAX_NUM]
  invalid_le := by
    intro i hi
    rw [List.mem_singleton.mp hi, UInt32.toNat_ofNat']
    exact Nat.mod_le _ _

/-- The common part of the two branches of `addObject`. -/
def store (p : ObjectIndexPool α MAX_NUM) (index : UInt32) (object : α) : ObjectIndexPool α MAX_NUM :=
  { p with
    objectArray_ := fun j => if j = index then some object else p.objectArray_ j
    objects_ := p.objects_ ++ [object]
    size_ := p.size_ + 1 }

/-- The index `object` gets, and the pool after it. -/
def addObject (p : ObjectIndexPool α MAX_NUM) (object : α) : UInt32 × ObjectIndexPool α MAX_NUM :=
  if p.maxIndex_.toNat ≤ MAX_NUM then
    (p.maxIndex_, { p.store p.maxIndex_ object with maxIndex_ := p.maxIndex_ + 1 })
  else
    match p.invalidIndexs_.head? with
    | some invalidIndex =>
      if invalidIndex ≠ POOL_INVALID_INDEX then
        (invalidIndex, { p.store invalidIndex object with
          invalidIndexs_ := p.invalidIndexs_.tail
          invalid_le := fun i hi => p.invalid_le i (List.mem_of_mem_tail hi) })
      else (POOL_INVALID_INDEX, p)
    | none => (POOL_INVALID_INDEX, p)

def removeObject [DecidableEq α] (p : ObjectIndexPool α MAX_NUM) (index : UInt32) : ObjectIndexPool α MAX_NUM :=
  if h : index.toNat ≤ MAX_NUM then
    { p with
      size_ := p.size_ - 1
      objects_ := match p.objectArray_ index with
        | some object => p.objects_.filter (· ≠ object)
        | none => p.objects_
      objectArray_ := fun j => if j = index then none else p.objectArray_ j
      invalidIndexs_ := p.invalidIndexs_ ++ [index]
      invalid_le := fun i hi => (List.mem_append.mp hi).elim (p.invalid_le i) fun hi => List.mem_singleton.mp hi ▸ h }
  else p

/-- The outer `none` is the failed `assert`. -/
def getObject (p : ObjectIndexPool α MAX_NUM) (index : UInt32) : Option (Option α) :=
  if index.toNat ≤ MAX_NUM then some (p.objectArray_ index) else none

def getSize (p : ObjectIndexPool α MAX_NUM) : UInt32 := p.size_

/-- The effects of `cb` on the objects of the list, in order. -/
def foreach {β : Type*} (p : ObjectIndexPool α MAX_NUM) (cb : α → List β) : List β := p.objects_.flatMap cb

/-! ## What the operations do to the slots -/

/-- `addObject` fails and changes nothing, or fills one slot of the array. -/
theorem addObject_cases (p : ObjectIndexPool α MAX_NUM) (object : α) :
    p.addObject object = (POOL_INVALID_INDEX, p) ∨
      ∃ index p', p.addObject object = (index, p') ∧ index.toNat ≤ MAX_NUM ∧
        p'.objectArray_ = fun j => if j = index then some object else p.objectArray_ j := by
  unfold addObject
  by_cases hmax : p.maxIndex_.toNat ≤ MAX_NUM
  · rw [if_pos hmax]
    exact .inr ⟨_, _, rfl, hmax, rfl⟩
  · rw [if_neg hmax]
    rcases hhead : p.invalidIndexs_.head? with _ | invalidIndex
    · exact .inl rfl
    · by_cases hinvalid : invalidIndex = POOL_INVALID_INDEX
      · exact .inl (if_neg (not_not_intro hinvalid))
      · refine .inr ⟨invalidIndex, _, if_pos hinvalid, ?_, rfl⟩
        exact p.invalid_le _ (List.mem_of_mem_head? hhead)

theorem objectArray_removeObject [DecidableEq α] (p : ObjectIndexPool α MAX_NUM) {index : UInt32}
    (h : index.toNat ≤ MAX_NUM) :
    (p.removeObject index).objectArray_ = fun j => if j = index then none else p.objectArray_ j := by
  unfold removeObject
  rw [dif_pos h]

theorem objects_removeObject [DecidableEq α] (p : ObjectIndexPool α MAX_NUM) {index : UInt32} {object : α}
    (h : index.toNat ≤ MAX_NUM) (hobject : p.objectArray_ index = some object) :
    (p.removeObject index).objects_ = p.objects_.filter (· ≠ object) := by
  unfold removeObject
  rw [dif_pos h]
  dsimp only
  rw [hobject]

theorem removeObject_of_lt [DecidableEq α] (p : ObjectIndexPool α MAX_NUM) {index : UInt32} (h : MAX_NUM < index.toNat) :
    p.removeObject index = p := dif_neg (Nat.not_le_of_lt h)

/-! ## The indices in stock

The index `MAX_NUM` is handed out as the last of the ascending ones and is in the queue from the start. While no index
is handed out that is in use, that spare one keeps the queue from running empty. -/

/-- The stock of a pool whose indices in use are those of `used`. -/
structure Stocked (p : ObjectIndexPool α MAX_NUM) (used : UInt32 → Prop) : Prop where
  below : p.maxIndex_.toNat ≤ MAX_NUM → ∀ i, used i → i.toNat < p.maxIndex_.toNat
  queued : 1 ≤ p.invalidIndexs_.count (UInt32.ofNat MAX_NUM)
  spare : MAX_NUM < p.maxIndex_.toNat → ¬ used (UInt32.ofNat MAX_NUM) →
    2 ≤ p.invalidIndexs_.count (UInt32.ofNat MAX_NUM)

variable {p : ObjectIndexPool α MAX_NUM} {used used' : UInt32 → Prop}

theorem stocked_empty (used : UInt32 → Prop) (h : ∀ i, ¬ used i) : Stocked (empty : ObjectIndexPool α MAX_NUM) used where
  below _ i hi := absurd hi (h i)
  queued := by simp [empty]
  spare hlt := by simp [empty] at hlt

theorem Stocked.congr (h : Stocked p used) (hused : ∀ i, used i ↔ used' i) : Stocked p used' where
  below hmax i hi := h.below hmax i ((hused i).mpr hi)
  queued := h.queued
  spare hmax hfree := h.spare hmax fun hi => hfree ((hused _).mp hi)

/-- The front of the queue is taken: one entry `MAX_NUM` is left, and two while that index is not in use. -/
theorem Stocked.tail (h : Stocked p used) (hmax : MAX_NUM < p.maxIndex_.toNat) {index : UInt32} {rest : List UInt32}
    (hqueue : p.invalidIndexs_ = index :: rest) (hfresh : ¬ used index) :
    1 ≤ rest.count (UInt32.ofNat MAX_NUM) ∧
      (¬ (UInt32.ofNat MAX_NUM = index ∨ used (UInt32.ofNat MAX_NUM)) → 2 ≤ rest.count (UInt32.ofNat MAX_NUM)) := by
  have hqueued := h.queued
  have hspare := h.spare hmax
  rw [hqueue] at hqueued hspare
  constructor
  · by_cases hsame : index = UInt32.ofNat MAX_NUM
    · have htwo := hspare (hsame ▸ hfresh)
      rw [hsame, List.count_cons_self] at htwo
      omega
    · rwa [List.count_cons_of_ne hsame] at hqueued
  · intro hfree
    have hne : index ≠ UInt32.ofNat MAX_NUM := fun hsame => hfree (.inl hsame.symm)
    have htwo := hspare fun hused => hfree (.inr hused)
    rwa [List.count_cons_of_ne hne] at htwo

/-- The next of the ascending indices is handed out. -/
theorem Stocked.next (h : Stocked p used) (hmax : MAX_NUM < 4294967295) (hle : p.maxIndex_.toNat ≤ MAX_NUM) (object : α) :
    Stocked { p.store p.maxIndex_ object with maxIndex_ := p.maxIndex_ + 1 } fun i => i = p.maxIndex_ ∨ used i := by
  have hlast : (UInt32.ofNat MAX_NUM).toNat = MAX_NUM := by
    rw [UInt32.toNat_ofNat', Nat.mod_eq_of_lt (by omega)]
  have hnext : (p.maxIndex_ + 1).toNat = p.maxIndex_.toNat + 1 := by
    rw [UInt32.toNat_add, UInt32.toNat_one]
    omega
  refine ⟨?_, h.queued, ?_⟩
  · show (p.maxIndex_ + 1).toNat ≤ MAX_NUM → ∀ i : UInt32, _ → i.toNat < (p.maxIndex_ + 1).toNat
    rw [hnext]
    rintro - i (rfl | hi)
    · exact Nat.lt_succ_self _
    · exact Nat.lt_succ_of_lt (h.below hle i hi)
  · show MAX_NUM < (p.maxIndex_ + 1).toNat → _
    rw [hnext]
    intro hlt hfree
    refine absurd (Or.inl ?_) hfree
    rw [← UInt32.toNat_inj, hlast]
    omega

/-- An index that is not in use is handed out, and fills its slot. -/
theorem Stocked.addObject (h : Stocked p used) (hmax : MAX_NUM < 4294967295) (object : α)
    (hfresh : ¬ used (p.addObject object).1) :
    ∃ index p', p.addObject object = (index, p') ∧ index.toNat ≤ MAX_NUM ∧
      p'.objectArray_ = (fun j => if j = index then some object else p.objectArray_ j) ∧
      p'.objects_ = p.objects_ ++ [object] ∧ Stocked p' fun i => i = index ∨ used i := by
  unfold ObjectIndexPool.addObject at hfresh ⊢
  by_cases hle : p.maxIndex_.toNat ≤ MAX_NUM
  · rw [if_pos hle]
    exact ⟨_, _, rfl, hle, rfl, rfl, h.next hmax hle object⟩
  · -- the first of the queue, which is not empty
    rw [if_neg hle] at hfresh ⊢
    rcases hhead : p.invalidIndexs_.head? with _ | index
    · have hqueued := h.queued
      rw [List.head?_eq_none_iff.mp hhead] at hqueued
      cases hqueued
    · obtain ⟨rest, hqueue⟩ := List.head?_eq_some_iff.mp hhead
      have hindex : index.toNat ≤ MAX_NUM := p.invalid_le index (List.mem_of_mem_head? hhead)
      have hvalid : index ≠ POOL_INVALID_INDEX := by
        rintro rfl
        rw [show POOL_INVALID_INDEX.toNat = 4294967295 from rfl] at hindex
        omega
      rw [hhead] at hfresh
      dsimp only at hfresh ⊢
      rw [if_pos hvalid] at hfresh
      obtain ⟨hone, htwo⟩ := h.tail (Nat.lt_of_not_le hle) hqueue hfresh
      refine ⟨index, _, if_pos hvalid, hindex, rfl, rfl, fun hmore => absurd hmore hle, ?_, fun _ hfree => ?_⟩
      · show 1 ≤ p.invalidIndexs_.tail.count _
        rwa [hqueue]
      · show 2 ≤ p.invalidIndexs_.tail.count _
        rw [hqueue]
        exact htwo hfree

/-- An index that was in use is taken back. -/
theorem Stocked.removeObject [DecidableEq α] (h : Stocked p used) {index : UInt32} (hindex : index.toNat ≤ MAX_NUM) :
    Stocked (p.removeObject index) fun i => used i ∧ i ≠ index := by
  have hqueue : (p.removeObject index).invalidIndexs_ = p.invalidIndexs_ ++ [index] ∧
      (p.removeObject index).maxIndex_ = p.maxIndex_ := by
    unfold ObjectIndexPool.removeObject
    rw [dif_pos hindex]
    exact ⟨rfl, rfl⟩
  obtain ⟨hqueue, hmaxIndex⟩ := hqueue
  have hqueued := h.queued
  refine ⟨fun hle i hi => ?_, ?_, fun hlt hfree => ?_⟩
  · rw [hmaxIndex] at hle ⊢
    exact h.below hle i hi.1
  · rw [hqueue, List.count_append]
    omega
  · rw [hmaxIndex] at hlt
    rw [hqueue, List.count_append]
    by_cases hlast : used (UInt32.ofNat MAX_NUM)
    · have hsame : UInt32.ofNat MAX_NUM = index := not_not.mp fun hne => hfree ⟨hlast, hne⟩
      rw [← hsame, List.count_singleton_self]
      omega
    · have htwo := h.spare hlt hlast
      omega

end ObjectIndexPool

end AsioUtils.Net
