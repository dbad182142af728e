import AsioUtils.Lib.Runs
import AsioUtils.Net.ObjectIndexPool
import Mathlib.Data.List.Nodup
import Mathlib.Data.List.Perm.Subperm

/-!
# `ObjectIndexPool` as a map from indices to objects, over whole runs

The constructor puts `MAX_NUM` into `invalidIndexs_`, though no slot has been given up yet. The entry lies at the front
when the fresh indices run out, and each time the queue has gone round.

* `Tracked` : the pool beside the objects it holds, with their indices;
* `Consistent` : slots, object list, size and free indices agree with them, but for one entry `MAX_NUM` too many;
* `faithful_iff` : the pool is a faithful map along a run exactly when no `addObject` takes that entry while the slot
  is filled.
-/

namespace AsioUtils.Net.ObjectIndexPool

open Runs

variable {α : Type*} {MAX_NUM : Nat}

/-- A pool, and the objects that were added and not removed since, with their indices. -/
structure Tracked (α : Type*) (MAX_NUM : Nat) where
  pool : ObjectIndexPool α MAX_NUM
  live : List (UInt32 × α)

namespace Tracked

inductive Event (α : Type*)
  | addObject (object : α)
  | removeObject (index : UInt32)

def start : Tracked α MAX_NUM := ⟨.empty, []⟩

/-- The indices in use. -/
def indices (w : Tracked α MAX_NUM) : List UInt32 := w.live.map Prod.fst

/-- The objects in the pool. -/
def objects (w : Tracked α MAX_NUM) : List α := w.live.map Prod.snd

def step [DecidableEq α] (w : Tracked α MAX_NUM) : Event α → Tracked α MAX_NUM
  | .addObject object =>
    let r := w.pool.addObject object
    ⟨r.2, if r.1 = POOL_INVALID_INDEX then w.live else w.live ++ [(r.1, object)]⟩
  | .removeObject index => ⟨w.pool.removeObject index, w.live.filter (·.1 ≠ index)⟩

/-- The added object is not in the pool, the removed index is in use. -/
def Admissible (w : Tracked α MAX_NUM) : Event α → Prop
  | .addObject object => object ∉ w.objects
  | .removeObject index => index ∈ w.indices

/-- All `MAX_NUM + 1` slots are in use. -/
def Full (w : Tracked α MAX_NUM) : Prop := ∀ n ≤ MAX_NUM, ∃ index ∈ w.indices, index.toNat = n

/-- `addObject` returns an index that is not in use, and `POOL_INVALID_INDEX` exactly when there is none. -/
def AddsRight (w : Tracked α MAX_NUM) : Event α → Prop
  | .addObject object =>
    (w.pool.addObject object).1 ∉ w.indices ∧ ((w.pool.addObject object).1 = POOL_INVALID_INDEX ↔ w.Full)
  | .removeObject _ => True

/-- What the pool tells is what was added: at each index in use the object, as many as there are, and each once. -/
structure Faithful (w : Tracked α MAX_NUM) : Prop where
  get : ∀ e ∈ w.live, w.pool.getObject e.1 = some (some e.2)
  size : w.pool.getSize.toNat = w.live.length
  visits : (w.pool.foreach fun object => [object]).Perm w.objects

/-- A fresh index is not the invalid one, and a free index is not `MAX_NUM` while that slot is filled. -/
def NoPhantom (w : Tracked α MAX_NUM) : Event α → Prop
  | .addObject _ =>
    (w.pool.maxIndex_.toNat ≤ MAX_NUM → w.pool.maxIndex_ ≠ POOL_INVALID_INDEX) ∧
      (MAX_NUM < w.pool.maxIndex_.toNat → w.pool.invalidIndexs_.head? = some (UInt32.ofNat MAX_NUM) →
        w.pool.objectArray_ (UInt32.ofNat MAX_NUM) = none)
  | .removeObject _ => True

/-! ## The invariant -/

structure Consistent (w : Tracked α MAX_NUM) : Prop where
  indices_nodup : w.indices.Nodup
  objects_nodup : w.objects.Nodup
  filled : ∀ e ∈ w.live, w.pool.objectArray_ e.1 = some e.2
  empty : ∀ index, index ∉ w.indices → w.pool.objectArray_ index = none
  listed : w.pool.objects_.Perm w.objects
  size : w.pool.size_.toNat = w.live.length
  /-- only indices below the high-water mark have been handed out -/
  below : ∀ index ∈ w.indices, index.toNat < w.pool.maxIndex_.toNat
  mark : w.pool.maxIndex_.toNat ≤ MAX_NUM + 1
  /-- the queue has every index that was given up once, and `MAX_NUM` once more -/
  free : ∀ index, w.pool.invalidIndexs_.count index =
    (if index.toNat < w.pool.maxIndex_.toNat ∧ index ∉ w.indices then 1 else 0) +
      if index = UInt32.ofNat MAX_NUM then 1 else 0

theorem consistent_start : (start : Tracked α MAX_NUM).Consistent where
  indices_nodup := List.nodup_nil
  objects_nodup := List.nodup_nil
  filled e he := absurd he List.not_mem_nil
  empty _ _ := rfl
  listed := .refl _
  size := rfl
  below _ hindex := absurd hindex List.not_mem_nil
  mark := Nat.zero_le _
  free index := by
    have hmark : ¬ (index.toNat < (0 : UInt32).toNat ∧ index ∉ ([] : List UInt32)) := fun h => Nat.not_lt_zero _ h.1
    show [UInt32.ofNat MAX_NUM].count index = (if index.toNat < (0 : UInt32).toNat ∧ index ∉ [] then 1 else 0) + _
    rw [if_neg hmark, Nat.zero_add]
    by_cases hindex : index = UInt32.ofNat MAX_NUM
    · rw [if_pos hindex, hindex, List.count_singleton_self]
    · rw [if_neg hindex, List.count_eq_zero, List.mem_singleton]
      exact hindex

theorem Consistent.faithful {w : Tracked α MAX_NUM} (h : w.Consistent) : w.Faithful where
  get e he := by
    have hbelow := h.below e.1 (List.mem_map_of_mem he)
    have hmark := h.mark
    unfold getObject
    rw [if_pos (by omega), h.filled e he]
  size := h.size
  visits := by
    unfold foreach
    rw [List.flatMap_singleton']
    exact h.listed

/-! ## Adding -/

/-- A slot of the array that is not in use shows that not all are. -/
theorem not_full {w : Tracked α MAX_NUM} {index : UInt32} (hindex : index ∉ w.indices) (hle : index.toNat ≤ MAX_NUM) :
    ¬ w.Full := by
  intro hfull
  obtain ⟨index', hin, heq⟩ := hfull index.toNat hle
  exact hindex (UInt32.toNat_inj.mp heq ▸ hin)

/-- There are no more indices than lie below the mark. -/
theorem length_le_mark {l : List UInt32} {n : Nat} (hnd : l.Nodup) (hlt : ∀ i ∈ l, i.toNat < n) : l.length ≤ n := by
  have hnd' : (l.map UInt32.toNat).Nodup := hnd.map fun a b hab => UInt32.toNat_inj.mp hab
  have hsub : l.map UInt32.toNat ⊆ List.range n := by
    intro m hm
    obtain ⟨i, hi, rfl⟩ := List.mem_map.mp hm
    exact List.mem_range.mpr (hlt i hi)
  have hle := (List.subperm_of_subset hnd' hsub).length_le
  rwa [List.length_map, List.length_range] at hle

section Add

variable {w : Tracked α MAX_NUM} (h : w.Consistent)
include h

/-- The free index at the front is not in use, unless it is `MAX_NUM`. -/
theorem Consistent.front {index : UInt32} (hhead : w.pool.invalidIndexs_.head? = some index)
    (hphantom : index = UInt32.ofNat MAX_NUM → w.pool.objectArray_ (UInt32.ofNat MAX_NUM) = none) :
    index ∉ w.indices := by
  intro hin
  have hpos : 0 < w.pool.invalidIndexs_.count index := List.count_pos_iff.mpr (List.mem_of_mem_head? hhead)
  have hmax : index = UInt32.ofNat MAX_NUM := by
    by_contra hne
    rw [h.free, if_neg (fun hcase => hcase.2 hin), if_neg hne] at hpos
    exact absurd hpos (Nat.lt_irrefl 0)
  obtain ⟨e, he, rfl⟩ := List.mem_map.mp hin
  have hfilled := h.filled e he
  rw [hmax, hphantom hmax] at hfilled
  cases hfilled

/-- The indices in use are fewer than `2 ^ 32`, so `size_` does not wrap when one joins them. -/
theorem Consistent.size_succ {index mark : UInt32} (hnodup : (w.indices ++ [index]).Nodup)
    (hbelow : ∀ i ∈ w.indices ++ [index], i.toNat < mark.toNat) : (w.pool.size_ + 1).toNat = w.live.length + 1 := by
  have hlen := length_le_mark hnodup hbelow
  have hlt := mark.toNat_lt
  rw [List.length_append, List.length_singleton, indices, List.length_map] at hlen
  have hone : (1 : UInt32).toNat = 1 := rfl
  rw [UInt32.toNat_add, h.size, hone]
  exact Nat.mod_eq_of_lt (by omega)

/-- Filling a slot that is not in use, whichever branch of `addObject` does it. -/
theorem Consistent.store {index : UInt32} {object : α} (hindex : index ∉ w.indices) (hobject : object ∉ w.objects)
    {pool : ObjectIndexPool α MAX_NUM} (harray : pool.objectArray_ = (w.pool.store index object).objectArray_)
    (hobjects : pool.objects_ = (w.pool.store index object).objects_)
    (hsize : pool.size_ = (w.pool.store index object).size_)
    (hbelow : ∀ i ∈ w.indices, i.toNat < pool.maxIndex_.toNat) (hnew : index.toNat < pool.maxIndex_.toNat)
    (hmark : pool.maxIndex_.toNat ≤ MAX_NUM + 1)
    (hfree : ∀ i, pool.invalidIndexs_.count i =
      (if i.toNat < pool.maxIndex_.toNat ∧ i ∉ w.indices ++ [index] then 1 else 0) +
        if i = UInt32.ofNat MAX_NUM then 1 else 0) :
    Consistent (⟨pool, w.live ++ [(index, object)]⟩ : Tracked α MAX_NUM) := by
  have hindices : (⟨pool, w.live ++ [(index, object)]⟩ : Tracked α MAX_NUM).indices = w.indices ++ [index] :=
    List.map_append
  have hlist : (⟨pool, w.live ++ [(index, object)]⟩ : Tracked α MAX_NUM).objects = w.objects ++ [object] :=
    List.map_append
  have hnodup : (w.indices ++ [index]).Nodup := by
    rw [← List.concat_eq_append]
    exact h.indices_nodup.concat hindex
  have hbelow' : ∀ i ∈ w.indices ++ [index], i.toNat < pool.maxIndex_.toNat := by
    rw [List.forall_mem_append, List.forall_mem_singleton]
    exact ⟨hbelow, hnew⟩
  constructor
  · rw [hindices]
    exact hnodup
  · rw [hlist, ← List.concat_eq_append]
    exact h.objects_nodup.concat hobject
  · intro e he
    show pool.objectArray_ e.1 = some e.2
    rw [harray]
    rcases List.mem_append.mp he with he | he
    · have hne : e.1 ≠ index := fun heq => hindex (heq ▸ List.mem_map_of_mem he)
      exact (if_neg hne).trans (h.filled e he)
    · rw [List.mem_singleton.mp he]
      exact if_pos rfl
  · intro i hi
    rw [hindices, List.mem_append, not_or, List.mem_singleton] at hi
    show pool.objectArray_ i = none
    rw [harray]
    exact (if_neg hi.2).trans (h.empty i hi.1)
  · show pool.objects_.Perm _
    rw [hobjects, hlist]
    exact h.listed.append_right [object]
  · show pool.size_.toNat = (w.live ++ [(index, object)]).length
    rw [hsize, List.length_append, List.length_singleton]
    exact h.size_succ hnodup hbelow'
  · rw [hindices]
    exact hbelow'
  · exact hmark
  · rw [hindices]
    exact hfree

/-- The mark goes up, and lets in the new index alone, which is in use. -/
theorem Consistent.free_mark (hnext : (w.pool.maxIndex_ + 1).toNat = w.pool.maxIndex_.toNat + 1) (i : UInt32) :
    w.pool.invalidIndexs_.count i =
      (if i.toNat < (w.pool.maxIndex_ + 1).toNat ∧ i ∉ w.indices ++ [w.pool.maxIndex_] then 1 else 0) +
        if i = UInt32.ofNat MAX_NUM then 1 else 0 := by
  have hsame : (i.toNat < (w.pool.maxIndex_ + 1).toNat ∧ i ∉ w.indices ++ [w.pool.maxIndex_]) ↔
      (i.toNat < w.pool.maxIndex_.toNat ∧ i ∉ w.indices) := by
    rw [hnext, List.mem_append, not_or, List.mem_singleton, ← UInt32.toNat_inj]
    constructor
    · rintro ⟨hle, hni, hne⟩
      exact ⟨by omega, hni⟩
    · rintro ⟨hlt, hni⟩
      exact ⟨by omega, hni, by omega⟩
  rw [h.free, if_congr hsame rfl rfl]

/-- The front of the queue is taken: it was the entry for an index that is now in use. -/
theorem Consistent.free_tail {index : UInt32} {rest : List UInt32} (hqueue : w.pool.invalidIndexs_ = index :: rest)
    (hindex : index.toNat < w.pool.maxIndex_.toNat) (hnot : index ∉ w.indices) (i : UInt32) :
    w.pool.invalidIndexs_.tail.count i =
      (if i.toNat < w.pool.maxIndex_.toNat ∧ i ∉ w.indices ++ [index] then 1 else 0) +
        if i = UInt32.ofNat MAX_NUM then 1 else 0 := by
  have hcount := h.free i
  rw [hqueue, List.count_cons] at hcount
  rw [hqueue, List.tail_cons]
  by_cases hi : index = i
  · subst hi
    rw [if_pos (beq_self_eq_true index), if_pos ⟨hindex, hnot⟩] at hcount
    rw [if_neg (fun hcase => hcase.2 (List.mem_append_right _ (List.mem_singleton_self index)))]
    omega
  · have hsame : (i.toNat < w.pool.maxIndex_.toNat ∧ i ∉ w.indices ++ [index]) ↔
        (i.toNat < w.pool.maxIndex_.toNat ∧ i ∉ w.indices) := by
      rw [List.mem_append, not_or, List.mem_singleton, and_iff_left (Ne.symm hi)]
    rw [if_neg (by simpa using hi), Nat.add_zero] at hcount
    rw [hcount, if_congr hsame rfl rfl]

theorem Consistent.addFresh {object : α} (hobject : object ∉ w.objects) (hmax : w.pool.maxIndex_.toNat ≤ MAX_NUM)
    (hvalid : w.pool.maxIndex_ ≠ POOL_INVALID_INDEX) [DecidableEq α] :
    w.AddsRight (.addObject object) ∧ (w.step (.addObject object)).Consistent := by
  have hadd : w.pool.addObject object = (w.pool.maxIndex_,
      { w.pool.store w.pool.maxIndex_ object with maxIndex_ := w.pool.maxIndex_ + 1 }) := if_pos hmax
  have hnot : w.pool.maxIndex_ ∉ w.indices := fun hin => Nat.lt_irrefl _ (h.below _ hin)
  have hstep : w.step (.addObject object) =
      ⟨{ w.pool.store w.pool.maxIndex_ object with maxIndex_ := w.pool.maxIndex_ + 1 },
        w.live ++ [(w.pool.maxIndex_, object)]⟩ := by
    unfold step
    dsimp only
    rw [hadd, if_neg hvalid]
  have hnext : (w.pool.maxIndex_ + 1).toNat = w.pool.maxIndex_.toNat + 1 := by
    have hone : (1 : UInt32).toNat = 1 := rfl
    have hlt := w.pool.maxIndex_.toNat_lt
    have hne : w.pool.maxIndex_.toNat ≠ 4294967295 := fun heq => hvalid (UInt32.toNat_inj.mp heq)
    rw [UInt32.toNat_add, hone]
    exact Nat.mod_eq_of_lt (by omega)
  constructor
  · show (w.pool.addObject object).1 ∉ w.indices ∧ _
    rw [hadd]
    exact ⟨hnot, iff_of_false hvalid (not_full hnot hmax)⟩
  · rw [hstep]
    refine h.store hnot hobject rfl rfl rfl (fun i hi => ?_) ?_ ?_ fun i => ?_
    · have := h.below i hi
      show i.toNat < (w.pool.maxIndex_ + 1).toNat
      omega
    · show w.pool.maxIndex_.toNat < (w.pool.maxIndex_ + 1).toNat
      omega
    · show (w.pool.maxIndex_ + 1).toNat ≤ MAX_NUM + 1
      omega
    · exact h.free_mark hnext i

theorem Consistent.addFree {object : α} (hobject : object ∉ w.objects) (hmax : MAX_NUM < w.pool.maxIndex_.toNat)
    (hphantom : w.pool.invalidIndexs_.head? = some (UInt32.ofNat MAX_NUM) →
      w.pool.objectArray_ (UInt32.ofNat MAX_NUM) = none) [DecidableEq α] :
    w.AddsRight (.addObject object) ∧ (w.step (.addObject object)).Consistent := by
  obtain ⟨index, rest, hqueue⟩ : ∃ index rest, w.pool.invalidIndexs_ = index :: rest := by
    refine List.exists_cons_of_ne_nil fun hnil => ?_
    have hcount := h.free (UInt32.ofNat MAX_NUM)
    rw [hnil, if_pos rfl, List.count_nil] at hcount
    omega
  have hle : index.toNat ≤ MAX_NUM := w.pool.invalid_le index (hqueue ▸ List.mem_cons_self)
  have hnot : index ∉ w.indices := by
    refine h.front (by rw [hqueue]; rfl) fun heq => hphantom ?_
    rw [hqueue, heq]
    rfl
  have hvalid : index ≠ POOL_INVALID_INDEX := by
    have hlt := w.pool.maxIndex_.toNat_lt
    have hinvalid : POOL_INVALID_INDEX.toNat = 4294967295 := rfl
    exact fun heq => absurd (heq ▸ hle) (by omega)
  have hadd : w.pool.addObject object = (index, { w.pool.store index object with
      invalidIndexs_ := w.pool.invalidIndexs_.tail
      invalid_le := fun i hi => w.pool.invalid_le i (List.mem_of_mem_tail hi) }) := by
    have hhead : w.pool.invalidIndexs_.head? = some index := by
      rw [hqueue]
      rfl
    unfold addObject
    rw [if_neg (Nat.not_le_of_lt hmax), hhead]
    exact if_pos hvalid
  have hstep : w.step (.addObject object) = ⟨{ w.pool.store index object with
      invalidIndexs_ := w.pool.invalidIndexs_.tail
      invalid_le := fun i hi => w.pool.invalid_le i (List.mem_of_mem_tail hi) }, w.live ++ [(index, object)]⟩ := by
    unfold step
    dsimp only
    rw [hadd, if_neg hvalid]
  constructor
  · show (w.pool.addObject object).1 ∉ w.indices ∧ _
    rw [hadd]
    exact ⟨hnot, iff_of_false hvalid (not_full hnot hle)⟩
  · rw [hstep]
    refine h.store hnot hobject rfl rfl rfl h.below (Nat.lt_of_le_of_lt hle hmax) h.mark fun i => ?_
    exact h.free_tail hqueue (Nat.lt_of_le_of_lt hle hmax) hnot i

end Add

/-! ## Removing -/

theorem length_filter_ne {l : List UInt32} (hnd : l.Nodup) {index : UInt32} (h : index ∈ l) :
    (l.filter (· ≠ index)).length + 1 = l.length := by
  have hsame : l.filter (· ≠ index) = l.erase index := by
    rw [hnd.erase_eq_filter]
    refine List.filter_congr fun i _ => ?_
    rw [bne, beq_eq_decide, decide_not]
  rw [hsame, List.length_erase_add_one h]

/-- The index that is given up joins the queue. -/
theorem Consistent.free_remove {w : Tracked α MAX_NUM} (h : w.Consistent) {index : UInt32} (hlive : index ∈ w.indices)
    (i : UInt32) :
    (w.pool.invalidIndexs_ ++ [index]).count i =
      (if i.toNat < w.pool.maxIndex_.toNat ∧ i ∉ w.indices.filter (· ≠ index) then 1 else 0) +
        if i = UInt32.ofNat MAX_NUM then 1 else 0 := by
  rw [List.count_append, h.free i]
  by_cases hi : i = index
  · subst hi
    have hnot : i ∉ w.indices.filter (· ≠ i) := fun hin => of_decide_eq_true (List.mem_filter.mp hin).2 rfl
    have hfree : i.toNat < w.pool.maxIndex_.toNat ∧ i ∉ w.indices.filter (· ≠ i) := ⟨h.below i hlive, hnot⟩
    rw [if_neg (fun hcase => hcase.2 hlive), if_pos hfree, List.count_singleton_self]
    omega
  · have hsame : (i.toNat < w.pool.maxIndex_.toNat ∧ i ∉ w.indices.filter (· ≠ index)) ↔
        (i.toNat < w.pool.maxIndex_.toNat ∧ i ∉ w.indices) := by
      rw [List.mem_filter, and_iff_left (decide_eq_true hi)]
    rw [if_congr hsame rfl rfl, List.count_eq_zero.mpr (fun hin => hi (List.mem_singleton.mp hin)), Nat.add_zero]

section Remove

variable [DecidableEq α] {w : Tracked α MAX_NUM} {index : UInt32} {object : α}

theorem indices_remove (w : Tracked α MAX_NUM) (index : UInt32) :
    (w.step (.removeObject index)).indices = w.indices.filter (· ≠ index) := by
  unfold indices
  rw [show (w.step (.removeObject index)).live = w.live.filter (·.1 ≠ index) from rfl, List.filter_map]
  rfl

/-- An entry is known by its index and by its object. -/
theorem Consistent.objects_remove (h : w.Consistent) (he : (index, object) ∈ w.live) :
    (w.step (.removeObject index)).objects = w.objects.filter (· ≠ object) := by
  have hsame : ∀ e ∈ w.live, e.1 = index ↔ e.2 = object := by
    intro e hin
    constructor
    · intro heq
      rw [List.inj_on_of_nodup_map h.indices_nodup hin he heq]
    · intro heq
      rw [List.inj_on_of_nodup_map h.objects_nodup hin he heq]
  unfold objects
  rw [show (w.step (.removeObject index)).live = w.live.filter (·.1 ≠ index) from rfl, List.filter_map]
  refine congrArg (List.map Prod.snd) (List.filter_congr fun e hin => ?_)
  exact decide_eq_decide.mpr (not_congr (hsame e hin))

/-- The pool afterwards: one object less, its slot is empty, and its index is queued. -/
theorem pool_remove (hle : index.toNat ≤ MAX_NUM) (hfilled : w.pool.objectArray_ index = some object) :
    (w.step (.removeObject index)).pool =
      { w.pool with
        size_ := w.pool.size_ - 1
        objects_ := w.pool.objects_.filter (· ≠ object)
        objectArray_ := fun j => if j = index then none else w.pool.objectArray_ j
        invalidIndexs_ := w.pool.invalidIndexs_ ++ [index]
        invalid_le := fun i hi =>
          (List.mem_append.mp hi).elim (w.pool.invalid_le i) fun hi => List.mem_singleton.mp hi ▸ hle } := by
  show w.pool.removeObject index = _
  unfold removeObject
  rw [dif_pos hle, hfilled]

theorem Consistent.size_remove (h : w.Consistent) (hlive : index ∈ w.indices) :
    (w.pool.size_ - 1).toNat = (w.step (.removeObject index)).live.length := by
  have hlen := length_filter_ne h.indices_nodup hlive
  rw [← indices_remove, indices, indices, List.length_map, List.length_map] at hlen
  have hsize := h.size
  have hone : (1 : UInt32).toNat = 1 := rfl
  rw [UInt32.toNat_sub_of_le _ _ (UInt32.le_iff_toNat_le.mpr (by omega)), hone]
  omega

theorem Consistent.remove (h : w.Consistent) (hlive : index ∈ w.indices) :
    (w.step (.removeObject index)).Consistent := by
  obtain ⟨⟨index, object⟩, he, rfl⟩ := List.mem_map.mp hlive
  dsimp only at hlive ⊢
  have hle : index.toNat ≤ MAX_NUM := by
    have hbelow := h.below index hlive
    have hmark := h.mark
    omega
  have hfilled : w.pool.objectArray_ index = some object := h.filled _ he
  have hindices := indices_remove w index
  have hobjects := h.objects_remove he
  have hpool := pool_remove hle hfilled
  constructor
  · rw [hindices]
    exact h.indices_nodup.filter _
  · rw [hobjects]
    exact h.objects_nodup.filter _
  · intro e hin
    obtain ⟨hin, hne⟩ := List.mem_filter.mp hin
    rw [hpool]
    exact (if_neg (of_decide_eq_true hne)).trans (h.filled e hin)
  · intro i hi
    rw [hindices, List.mem_filter, not_and] at hi
    rw [hpool]
    show (if i = index then none else w.pool.objectArray_ i) = none
    split_ifs with heq
    · rfl
    · exact h.empty i fun hin => hi hin (decide_eq_true heq)
  · rw [hpool, hobjects]
    exact h.listed.filter _
  · rw [hpool]
    exact h.size_remove hlive
  · rw [hindices, hpool]
    exact fun i hi => h.below i (List.mem_filter.mp hi).1
  · rw [hpool]
    exact h.mark
  · rw [hindices, hpool]
    exact h.free_remove hlive

end Remove

/-! ## Runs -/

section Runs

variable [DecidableEq α]

/-- A step that takes no phantom entry keeps the invariant. -/
theorem Consistent.step {w : Tracked α MAX_NUM} (h : w.Consistent) {e : Event α} (hadm : w.Admissible e)
    (hok : w.NoPhantom e) : (w.step e).Consistent := by
  cases e with
  | addObject object =>
    rcases Nat.lt_or_ge MAX_NUM w.pool.maxIndex_.toNat with hmax | hmax
    · exact (h.addFree hadm hmax (hok.2 hmax)).2
    · exact (h.addFresh hadm hmax (hok.1 hmax)).2
  | removeObject index => exact h.remove hadm

/-- **Step**: `addObject` returns what it should exactly when it takes no phantom entry. -/
theorem Consistent.addsRight_iff {w : Tracked α MAX_NUM} (h : w.Consistent) {e : Event α} (hadm : w.Admissible e) :
    w.AddsRight e ↔ w.NoPhantom e := by
  cases e with
  | removeObject index => exact Iff.rfl
  | addObject object =>
    constructor
    · rintro ⟨hnot, hfull⟩
      refine ⟨fun hmax hinvalid => ?_, fun hmax hhead => ?_⟩
      · -- the fresh index that is the invalid one is not in use, so not all are
        have hadd : (w.pool.addObject object).1 = w.pool.maxIndex_ := by
          unfold addObject
          rw [if_pos hmax]
        exact not_full (hadd ▸ hnot) hmax (hfull.mp (hadd.trans hinvalid))
      · by_contra hfilled
        have hin : UInt32.ofNat MAX_NUM ∈ w.indices := by
          by_contra hout
          exact hfilled (h.empty _ hout)
        have hvalid : UInt32.ofNat MAX_NUM ≠ POOL_INVALID_INDEX := by
          have hlt := w.pool.maxIndex_.toNat_lt
          have hbelow := h.below _ hin
          intro heq
          have hinvalid : POOL_INVALID_INDEX.toNat = 4294967295 := rfl
          rw [heq, hinvalid] at hbelow
          omega
        have hadd : (w.pool.addObject object).1 = UInt32.ofNat MAX_NUM := by
          unfold addObject
          rw [if_neg (Nat.not_le_of_lt hmax), hhead]
          dsimp only
          rw [if_pos hvalid]
        exact hnot (hadd ▸ hin)
    · intro hok
      rcases Nat.lt_or_ge MAX_NUM w.pool.maxIndex_.toNat with hmax | hmax
      · exact (h.addFree hadm hmax (hok.2 hmax)).1
      · exact (h.addFresh hadm hmax (hok.1 hmax)).1

/-- **A faithful map, exactly**: along a run of admissible calls every `addObject` returns what it should, and the pool
always tells what was added, if and only if no `addObject` takes a phantom entry. -/
theorem faithful_iff {es : List (Event α)} (hadm : Along step Admissible (start : Tracked α MAX_NUM) es) :
    Along step AddsRight (start : Tracked α MAX_NUM) es ∧ Always step Faithful (start : Tracked α MAX_NUM) es ↔
      Along step NoPhantom (start : Tracked α MAX_NUM) es := by
  have hadds : Along step AddsRight (start : Tracked α MAX_NUM) es ↔ Along step NoPhantom start es :=
    along_iff_along (fun _ _ h hadm => h.addsRight_iff hadm) (fun _ _ h hadm hok => h.step hadm hok) consistent_start hadm
  rw [hadds]
  refine and_iff_left_of_imp fun hok => ?_
  have hconsistent : Always step Consistent (start : Tracked α MAX_NUM) es :=
    inv_always (fun _ _ h hp => h.step hp.1 hp.2) consistent_start (hadm.and hok)
  exact hconsistent.mono fun _ h => h.faithful

instance (w : Tracked α MAX_NUM) : (e : Event α) → Decidable (w.Admissible e)
  | .addObject object => inferInstanceAs (Decidable (object ∉ w.objects))
  | .removeObject index => inferInstanceAs (Decidable (index ∈ w.indices))

/-- Two slots: the second is given up and taken again. -/
def reusedSlot : List (Event Nat) := [.addObject 5, .addObject 6, .removeObject 1, .addObject 7]

theorem reusedSlot_faithful :
    Along step AddsRight (start : Tracked Nat 1) reusedSlot ∧ Always step Faithful (start : Tracked Nat 1) reusedSlot ↔
      Along step NoPhantom (start : Tracked Nat 1) reusedSlot :=
  faithful_iff (by decide)

/-- Two slots and a third object. -/
def thirdObject : List (Event Nat) := [.addObject 5, .addObject 6, .addObject 7]

/-- The third object gets index `1`, where the second is. -/
theorem thirdObject_overwrites : ¬ ∀ (MAX_NUM : Nat) (es : List (Event Nat)),
    Along step Admissible (start : Tracked Nat MAX_NUM) es →
      Along step AddsRight (start : Tracked Nat MAX_NUM) es ∧ Always step Faithful (start : Tracked Nat MAX_NUM) es := by
  intro h
  have hadds := (h 1 thirdObject (by decide)).1
  have hin : ((run step (start : Tracked Nat 1) [.addObject 5, .addObject 6]).pool.addObject 7).1 ∈
      (run step (start : Tracked Nat 1) [.addObject 5, .addObject 6]).indices := by decide
  exact hadds.2.2.1.1 hin

end Runs

end Tracked

end AsioUtils.Net.ObjectIndexPool
