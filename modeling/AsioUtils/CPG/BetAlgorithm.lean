import AsioUtils.CPG.Json
import Mathlib.Algebra.Group.Int.Defs
import Mathlib.Tactic.Common

/-!
# `BetCoreAlgo`: the two searches

`bsearch_similar_number` halves a window of an ascending array, `get_similar_number` walks along it. Both are to find the
last element that is not above `val`. An `int` that overflows and a read outside the array give `none`.

* `Cut` : how many elements of an array are not above `val`, the one fact both loops need;
* `bsearchLoop_left` : once the window's end is below `2 ^ 30` the search finds the cut;
* `bsearchLoop_spine` : as long as it has only moved right, it finds the cut unless a sum on the way overflows;
* `similar_numbers_agree_iff` : when the two searches find the same.
-/

namespace AsioUtils.BetCoreAlgo

open CPG

section

variable {α : Type*} [LE α] [LT α] [DecidableLE α] [DecidableLT α]

/-- `arr[i]` -/
def elementAt (arr : List α) (i : Int) : Option α := if 0 ≤ i then arr[i.toNat]? else none

/-- `arr[i] <= val && arr[i + 1] > val`: the second element is read when the first is not above `val`. -/
def endsAt (arr : List α) (val : α) (i : Int) : Option Bool :=
  match elementAt arr i with
  | none => none
  | some a => if a ≤ val then (elementAt arr (i + 1)).map fun b => decide (val < b) else some false

end

/-- `arr.size() - 1` as an `int` -/
def maxIndex {α : Type*} (arr : List α) : Int := castInt (arr.length - 1)

/-- The `while` loop; `mid` is what the last iteration computed. -/
def bsearchLoop (arr : List Int32) (val : Int32) (max_index left right mid : Int) : Option Int :=
  if left ≤ right then
    -- the sum is an `int`
    if left + right < 2 ^ 31 then
      if (left + right) / 2 = max_index then some ((left + right) / 2)
      else
        match endsAt arr val ((left + right) / 2), elementAt arr ((left + right) / 2) with
        | some true, _ => some ((left + right) / 2)
        | some false, some a =>
          if a < val then bsearchLoop arr val max_index ((left + right) / 2 + 1) right ((left + right) / 2)
          else bsearchLoop arr val max_index left ((left + right) / 2 - 1) ((left + right) / 2)
        | _, _ => none
    else none
  else some mid
termination_by (right + 1 - left).toNat

def bsearch_similar_number (arr : List Int32) (val : Int32) : Option Int :=
  bsearchLoop arr val (maxIndex arr) 0 (maxIndex arr) 0

/-- The `for` loop from `index` on. -/
def similarLoop (arr : List UInt32) (val : UInt32) (max_index index : Int) : Option Int :=
  if index < max_index then
    match endsAt arr val index with
    | some true => some index
    | some false => similarLoop arr val max_index (index + 1)
    | none => none
  else some index
termination_by (max_index - index).toNat

def get_similar_number (arr : List UInt32) (val : UInt32) : Option Int :=
  match elementAt arr 0 with
  | none => none
  | some a => if val ≤ a then some 0 else similarLoop arr val (maxIndex arr) 0

/-! ## The cut of an ascending array -/

/-- The first `c` elements of `arr` are those not above `val`, and only the last of them may equal it. -/
structure Cut {α : Type*} [LE α] [LT α] (arr : List α) (val : α) (c : Nat) : Prop where
  le_length : c ≤ arr.length
  le_iff : ∀ i a, arr[i]? = some a → (a ≤ val ↔ i < c)
  gt_iff : ∀ i a, arr[i]? = some a → (val < a ↔ c ≤ i)
  lt : ∀ i a, arr[i]? = some a → i + 1 < c → a < val

section

variable {α : Type*} [LE α] [LT α] {v : α → Int} (hle : ∀ a b, a ≤ b ↔ v a ≤ v b) (hlt : ∀ a b, a < b ↔ v a < v b)

include hle hlt in
theorem exists_cut (val : α) : ∀ {arr : List α}, arr.Pairwise (· < ·) → ∃ c, Cut arr val c
  | [], _ => ⟨0, by simp, by simp, by simp, by simp⟩
  | a :: arr, h => by
    obtain ⟨hfirst, hrest⟩ := List.pairwise_cons.mp h
    obtain ⟨c, hc⟩ := exists_cut val hrest
    by_cases ha : a ≤ val
    · refine ⟨c + 1, Nat.succ_le_succ hc.le_length, fun i x hx => ?_, fun i x hx => ?_, fun i x hx hi => ?_⟩
      · cases i with
        | zero =>
          obtain rfl := Option.some.inj hx
          exact iff_of_true ha (Nat.succ_pos c)
        | succ i => exact (hc.le_iff i x hx).trans Nat.succ_lt_succ_iff.symm
      · cases i with
        | zero =>
          obtain rfl := Option.some.inj hx
          rw [hlt]
          rw [hle] at ha
          omega
        | succ i => exact (hc.gt_iff i x hx).trans Nat.succ_le_succ_iff.symm
      · cases i with
        | zero =>
          -- the next element is not above `val` either, and `a` is below it
          obtain rfl := Option.some.inj hx
          have hpos : 0 < arr.length := lt_of_lt_of_le (by omega) hc.le_length
          have hnext := (hc.le_iff 0 arr[0] (List.getElem?_eq_getElem hpos)).mpr (by omega)
          have hbelow := hfirst arr[0] (List.getElem_mem hpos)
          rw [hlt] at hbelow ⊢
          rw [hle] at hnext
          omega
        | succ i => exact hc.lt i x hx (by omega)
    · have habove : ∀ x ∈ a :: arr, ¬ x ≤ val ∧ val < x := by
        intro x hx
        have hax : v a ≤ v x := by
          rcases List.mem_cons.mp hx with rfl | hx
          · exact le_rfl
          · exact (hlt a x |>.mp (hfirst x hx)).le
        rw [hle] at ha
        rw [hle, hlt]
        omega
      refine ⟨0, Nat.zero_le _, fun i x hx => ?_, fun i x hx => ?_, fun i x _ hi => absurd hi (by omega)⟩
      · exact iff_of_false (habove x (List.mem_of_getElem? hx)).1 (Nat.not_lt_zero i)
      · exact iff_of_true (habove x (List.mem_of_getElem? hx)).2 (Nat.zero_le i)

end

theorem elementAt_of_lt {α : Type*} (arr : List α) {i : Int} (h0 : 0 ≤ i) (hi : i < arr.length) :
    ∃ a, elementAt arr i = some a ∧ arr[i.toNat]? = some a := by
  have hlt : i.toNat < arr.length := by omega
  refine ⟨arr[i.toNat], ?_, List.getElem?_eq_getElem hlt⟩
  rw [elementAt, if_pos h0, List.getElem?_eq_getElem hlt]

/-- The test of both loops, within the array. -/
theorem Cut.endsAt_eq {α : Type*} [LE α] [LT α] [DecidableLE α] [DecidableLT α] {arr : List α} {val : α} {c : Nat}
    (h : Cut arr val c) {i : Int} (h0 : 0 ≤ i) (hi : i + 1 < arr.length) :
    endsAt arr val i = some (decide (i + 1 = c)) := by
  obtain ⟨a, hat, ha⟩ := elementAt_of_lt arr h0 (by omega)
  obtain ⟨b, hbt, hb⟩ := elementAt_of_lt arr (i := i + 1) (by omega) hi
  simp only [endsAt, hat, hbt, Option.map_some, h.le_iff _ _ ha, h.gt_iff _ _ hb]
  split_ifs with hcut
  · congr 2
    apply propext
    omega
  · congr 1
    apply (decide_eq_false _).symm
    omega

/-! ## The binary search -/

section

variable {arr : List Int32} {val : Int32} {c : Nat} (h : Cut arr val c)

theorem bsearchLoop_empty {max_index left right mid : Int} (hlt : right < left) :
    bsearchLoop arr val max_index left right mid = some mid := by
  rw [bsearchLoop, if_neg (by omega)]

/-- At the last index the loop breaks off. -/
theorem bsearchLoop_last {max_index left right m : Int} (hle : left ≤ right) (hsum : left + right < 2 ^ 31)
    (hmid : (left + right) / 2 = max_index) : bsearchLoop arr val max_index left right m = some max_index := by
  rw [bsearchLoop, if_pos hle, if_pos hsum, if_pos hmid, hmid]

theorem bsearchLoop_overflow {max_index left right m : Int} (hle : left ≤ right) (hsum : 2 ^ 31 ≤ left + right) :
    bsearchLoop arr val max_index left right m = none := by
  rw [bsearchLoop, if_pos hle, if_neg (by omega)]

include h in
/-- An iteration whose sum does not overflow, before the last index. -/
theorem bsearchLoop_step {left right mid m : Int} (h0 : 0 ≤ left) (hle : left ≤ right) (hsum : left + right < 2 ^ 31)
    (hmid : (left + right) / 2 = mid) (hlast : mid + 1 < arr.length) :
    bsearchLoop arr val (arr.length - 1) left right m =
      if mid + 1 = c then some mid
      else if mid + 1 < c then bsearchLoop arr val (arr.length - 1) (mid + 1) right mid
      else bsearchLoop arr val (arr.length - 1) left (mid - 1) mid := by
  have hmid0 : 0 ≤ mid := by omega
  obtain ⟨a, hat, ha⟩ := elementAt_of_lt arr hmid0 (by omega)
  rw [bsearchLoop, if_pos hle, if_pos hsum, hmid, if_neg (by omega), h.endsAt_eq hmid0 hlast, hat]
  by_cases hc : mid + 1 = c
  · rw [if_pos hc, decide_eq_true hc]
  · rw [if_neg hc, decide_eq_false hc]
    have hless : a < val ↔ mid + 1 < c := by
      constructor
      · intro hav
        have := (h.gt_iff _ _ ha).not.mp (fun hva => absurd (Int32.lt_iff_toInt_lt.mp hav)
          (Int.lt_asymm (Int32.lt_iff_toInt_lt.mp hva)))
        omega
      · intro hlt
        exact h.lt _ _ ha (by omega)
    simp only [hless]

include h in
/-- A window that ends below `2 ^ 30`: no sum overflows, and the cut, or the start of the array when there is none,
is found. -/
theorem bsearchLoop_left {left right m : Int} (h0 : 0 ≤ left) (hlow : right < 2 ^ 30) (hright : right < arr.length)
    (hcut : 0 < c → left < c ∧ c ≤ right + 1) (hzero : c = 0 → left = 0 ∧ (right < 0 → m = 0)) :
    bsearchLoop arr val (arr.length - 1) left right m = some ((c - 1 : Nat) : Int) := by
  induction hw : (right + 1 - left).toNat using Nat.strong_induction_on generalizing left right m with
  | _ w ih =>
    by_cases hle : left ≤ right
    · have hsum : left + right < 2 ^ 31 := by omega
      by_cases hlast : (left + right) / 2 + 1 < arr.length
      · rw [bsearchLoop_step h h0 hle hsum rfl hlast]
        split_ifs with hfound hmore
        · congr 1
          omega
        · exact ih _ (by omega) (by omega) hlow hright (by omega) (by omega) rfl
        · exact ih _ (by omega) h0 (by omega) (by omega) (by omega) (by omega) rfl
      · rw [bsearchLoop_last hle hsum (by omega)]
        congr 1
        omega
    · rw [bsearchLoop_empty (by omega)]
      congr 1
      omega

/-- Having only moved right, the search has windows of `n / 2 ^ k` elements at the end of the array. From the `k`-th on
there is one that it comes to and whose bounds add up to more than an `int`. -/
def SumOverflows (n c k : Nat) : Prop :=
  ∃ j, k ≤ j ∧ 0 < n / 2 ^ j ∧ 2 ^ 31 < 2 * n - n / 2 ^ j ∧ n - n / 2 ^ j < c

theorem div_two_pow_succ (n k : Nat) : n / 2 ^ (k + 1) = n / 2 ^ k / 2 := by
  rw [Nat.pow_succ, Nat.div_div_eq_div_mul]

theorem div_two_pow_anti (n : Nat) {j k : Nat} (h : k ≤ j) : n / 2 ^ j ≤ n / 2 ^ k :=
  Nat.div_le_div_left (Nat.pow_le_pow_right (by omega) h) (Nat.two_pow_pos k)

/-- A window that is not too large itself leaves the question to the later ones. -/
theorem sumOverflows_succ_iff {n c k : Nat} (hk : 2 * n - n / 2 ^ k ≤ 2 ^ 31) :
    SumOverflows n c k ↔ SumOverflows n c (k + 1) := by
  constructor
  · rintro ⟨j, hj, hjpos, hover, hreach⟩
    refine ⟨j, ?_, hjpos, hover, hreach⟩
    rcases Nat.eq_or_lt_of_le hj with rfl | hlt
    · omega
    · exact hlt
  · rintro ⟨j, hj, hover⟩
    exact ⟨j, by omega, hover⟩

/-- A window that starts behind the cut is not reached, and no later one is. -/
theorem not_sumOverflows_of_le {n c k : Nat} (hc : c ≤ n - n / 2 ^ k) : ¬ SumOverflows n c k := by
  rintro ⟨j, hj, -, -, hreach⟩
  have hsmaller := div_two_pow_anti n hj
  omega

/-- Behind a window of one element there is no other. -/
theorem not_sumOverflows_of_one {n c k : Nat} (hone : n / 2 ^ k = 1) (hk : 2 * n - n / 2 ^ k ≤ 2 ^ 31) :
    ¬ SumOverflows n c k := by
  rintro ⟨j, hj, hjpos, hover, -⟩
  have hsmaller := div_two_pow_anti n hj
  omega

include h in
/-- The windows at the end of the array. -/
theorem bsearchLoop_spine (hn : arr.length ≤ 2 ^ 31) (k : Nat) {left m : Int} (hpos : 0 < arr.length / 2 ^ k)
    (hleft : left = (arr.length - arr.length / 2 ^ k : Nat)) (hcome : left < c ∨ k = 0) :
    (SumOverflows arr.length c k → bsearchLoop arr val (arr.length - 1) left (arr.length - 1) m = none) ∧
      (¬ SumOverflows arr.length c k →
        bsearchLoop arr val (arr.length - 1) left (arr.length - 1) m = some ((c - 1 : Nat) : Int)) := by
  induction hw : arr.length / 2 ^ k using Nat.strong_induction_on generalizing k left m with
  | _ w ih =>
    have hall : arr.length / 2 ^ k ≤ arr.length := Nat.div_le_self _ _
    have hc := h.le_length
    have hle : left ≤ arr.length - 1 := by omega
    have hfirst : k = 0 → left = 0 := by
      rintro rfl
      rw [Nat.pow_zero, Nat.div_one] at hleft
      omega
    by_cases hsum : left + (arr.length - 1) < 2 ^ 31
    · have hsmall : 2 * arr.length - arr.length / 2 ^ k ≤ 2 ^ 31 := by omega
      by_cases hone : arr.length / 2 ^ k = 1
      · -- the last index is all that is left
        refine ⟨fun hover => absurd hover (not_sumOverflows_of_one hone hsmall), fun _ => ?_⟩
        rw [bsearchLoop_last hle hsum (by omega)]
        congr 1
        omega
      · have hhalf := div_two_pow_succ arr.length k
        have hmid : (left + (arr.length - 1)) / 2 + 1 = (arr.length - arr.length / 2 ^ (k + 1) : Nat) := by omega
        rw [bsearchLoop_step h (by omega) hle hsum rfl (by omega), sumOverflows_succ_iff hsmall]
        split_ifs with hfound hmore
        · refine ⟨fun hover => absurd hover (not_sumOverflows_of_le (by omega)), fun _ => ?_⟩
          congr 1
          omega
        · exact ih _ (by omega) (k + 1) (by omega) hmid (by omega) rfl
        · refine ⟨fun hover => absurd hover (not_sumOverflows_of_le (by omega)), fun _ => ?_⟩
          exact bsearchLoop_left h (by omega) (by omega) (by omega) (by omega) (by omega)
    · have hover : SumOverflows arr.length c k := ⟨k, le_rfl, hpos, by omega, by omega⟩
      exact ⟨fun _ => bsearchLoop_overflow hle (by omega), fun hnone => absurd hover hnone⟩

theorem maxIndex_eq {α : Type*} {arr : List α} (hne : arr ≠ []) (hn : arr.length ≤ 2 ^ 31) :
    maxIndex arr = arr.length - 1 := by
  have hpos := List.length_pos_iff.mpr hne
  exact castInt_of_range (by omega) (by omega)

include h in
/-- **The binary search** finds the cut unless a sum of its bounds overflows. -/
theorem bsearch_of_cut (hne : arr ≠ []) (hn : arr.length ≤ 2 ^ 31) :
    (SumOverflows arr.length c 0 → bsearch_similar_number arr val = none) ∧
      (¬ SumOverflows arr.length c 0 → bsearch_similar_number arr val = some ((c - 1 : Nat) : Int)) := by
  have hpos := List.length_pos_iff.mpr hne
  rw [bsearch_similar_number, maxIndex_eq hne hn]
  exact bsearchLoop_spine h hn 0 (by simpa using hpos) (by simp) (.inr rfl)

end

/-! ## The linear search -/

section

variable {arr : List UInt32} {val : UInt32} {c : Nat}

theorem similarLoop_of_cut (h : Cut arr val c) {index : Int} (h0 : 0 ≤ index) (hindex : index < c) :
    similarLoop arr val (arr.length - 1) index = some ((c - 1 : Nat) : Int) := by
  have hc := h.le_length
  induction hw : (c - index).toNat using Nat.strong_induction_on generalizing index with
  | _ w ih =>
    rw [similarLoop]
    by_cases hlast : index < arr.length - 1
    · rw [if_pos hlast, h.endsAt_eq h0 (by omega)]
      by_cases hfound : index + 1 = c
      · rw [decide_eq_true hfound]
        show some index = _
        congr 1
        omega
      · rw [decide_eq_false hfound]
        exact ih _ (by omega) (by omega) (by omega) rfl
    · rw [if_neg hlast]
      congr 1
      omega

/-- **The linear search** finds the cut. -/
theorem get_similar_of_cut (h : Cut arr val c) (hne : arr ≠ []) (hn : arr.length ≤ 2 ^ 31) :
    get_similar_number arr val = some ((c - 1 : Nat) : Int) := by
  have hpos := List.length_pos_iff.mpr hne
  obtain ⟨a, hat, ha⟩ := elementAt_of_lt arr le_rfl (by omega)
  rw [get_similar_number, hat, maxIndex_eq hne hn]
  by_cases hval : val ≤ a
  · -- the second element, if any, is above `val`
    have hc : ¬ 1 < c := fun hc => by
      have := UInt32.lt_iff_toNat_lt.mp (h.lt _ _ ha (by simpa using hc))
      have := UInt32.le_iff_toNat_le.mp hval
      omega
    simp only [if_pos hval]
    congr 1
    omega
  · have hle : a ≤ val := by
      rw [UInt32.le_iff_toNat_le] at hval ⊢
      omega
    have := (h.le_iff _ _ ha).mp hle
    simp only [if_neg hval]
    exact similarLoop_of_cut h le_rfl (by omega)

end

/-! ## The two on one array -/

/-- The last index whose element is not above `val`, and `0` when every element is. -/
def IsSimilar (arr : List Int32) (val : Int32) (i : Nat) : Prop :=
  (∃ a, arr[i]? = some a ∧ a ≤ val ∧ ∀ j b, i < j → arr[j]? = some b → val < b) ∨ (i = 0 ∧ ∀ a ∈ arr, val < a)

theorem Cut.isSimilar {arr : List Int32} {val : Int32} {c : Nat} (h : Cut arr val c) : IsSimilar arr val (c - 1) := by
  have hc := h.le_length
  by_cases hpos : 0 < c
  · have ha : arr[c - 1]? = some arr[c - 1] := List.getElem?_eq_getElem (by omega)
    refine .inl ⟨_, ha, (h.le_iff _ _ ha).mpr (by omega), fun j b hj hb => ?_⟩
    exact (h.gt_iff _ _ hb).mpr (by omega)
  · refine .inr ⟨by omega, fun a ha => ?_⟩
    obtain ⟨i, hi⟩ := List.mem_iff_getElem?.mp ha
    exact (h.gt_iff _ _ hi).mpr (by omega)

theorem toNat_toUInt32 {a : Int32} (h : 0 ≤ a) : (a.toUInt32.toNat : Int) = a.toInt := by
  have h0 : 0 ≤ a.toInt := Int32.le_iff_toInt_le.mp h
  have hlt : a.toInt < 2 ^ 31 := a.toInt_lt
  have htoInt : a.toInt = (a.toUInt32.toNat : Int).bmod (2 ^ 32) := BitVec.toInt_eq_toNat_bmod a.toBitVec
  have hsize := a.toUInt32.toNat_lt
  rw [Int.bmod_def] at htoInt
  omega

/-- An ascending array of `int`s from `0` on has at most `2 ^ 31` elements. -/
theorem length_le_of_ascending {arr : List Int32} (hinc : arr.Pairwise (· < ·)) (hnn : ∀ a ∈ arr, 0 ≤ a) :
    arr.length ≤ 2 ^ 31 := by
  have hindex : ∀ i (hi : i < arr.length), (i : Int) ≤ arr[i].toInt := by
    intro i
    induction i with
    | zero => exact fun hi => Int32.le_iff_toInt_le.mp (hnn _ (List.getElem_mem hi))
    | succ i ih =>
      intro hi
      have hnext := Int32.lt_iff_toInt_lt.mp (List.pairwise_iff_getElem.mp hinc i (i + 1) (by omega) hi (by omega))
      have := ih (by omega)
      omega
  by_contra hlen
  have hlast := hindex (arr.length - 1) (by omega)
  have := arr[arr.length - 1].toInt_lt
  omega

/-- Both searches against the array's cut. -/
theorem exists_cut_of_ascending {arr : List Int32} {val : Int32} (hinc : arr.Pairwise (· < ·)) (hnn : ∀ a ∈ arr, 0 ≤ a)
    (hval : 0 ≤ val) : ∃ c, Cut arr val c ∧ Cut (arr.map Int32.toUInt32) val.toUInt32 c := by
  obtain ⟨c, hc⟩ := exists_cut (fun _ _ => Int32.le_iff_toInt_le) (fun _ _ => Int32.lt_iff_toInt_lt) val hinc
  refine ⟨c, hc, ?_⟩
  have hle : ∀ {a b : Int32}, 0 ≤ a → 0 ≤ b → (a.toUInt32 ≤ b.toUInt32 ↔ a ≤ b) := by
    intro a b ha hb
    have := toNat_toUInt32 ha
    have := toNat_toUInt32 hb
    rw [UInt32.le_iff_toNat_le, Int32.le_iff_toInt_le]
    omega
  have hlt : ∀ {a b : Int32}, 0 ≤ a → 0 ≤ b → (a.toUInt32 < b.toUInt32 ↔ a < b) := by
    intro a b ha hb
    have := toNat_toUInt32 ha
    have := toNat_toUInt32 hb
    rw [UInt32.lt_iff_toNat_lt, Int32.lt_iff_toInt_lt]
    omega
  have helem : ∀ (i : Nat) (x : UInt32), (arr.map Int32.toUInt32)[i]? = some x →
      ∃ a, arr[i]? = some a ∧ 0 ≤ a ∧ x = a.toUInt32 := by
    intro i x hx
    rw [List.getElem?_map, Option.map_eq_some_iff] at hx
    obtain ⟨a, ha, rfl⟩ := hx
    exact ⟨a, ha, hnn a (List.mem_of_getElem? ha), rfl⟩
  refine ⟨by simpa using hc.le_length, fun i x hx => ?_, fun i x hx => ?_, fun i x hx hi => ?_⟩
  · obtain ⟨a, ha, h0, rfl⟩ := helem i x hx
    exact (hle h0 hval).trans (hc.le_iff i a ha)
  · obtain ⟨a, ha, h0, rfl⟩ := helem i x hx
    exact (hlt hval h0).trans (hc.gt_iff i a ha)
  · obtain ⟨a, ha, h0, rfl⟩ := helem i x hx
    exact (hlt h0 hval).mpr (hc.lt i a ha hi)

theorem Cut.sumOverflows_iff {arr : List Int32} {val : Int32} {c : Nat} (h : Cut arr val c) :
    SumOverflows arr.length c 0 ↔ ∃ k a, 0 < arr.length / 2 ^ k ∧ 2 ^ 31 < 2 * arr.length - arr.length / 2 ^ k ∧
      arr[arr.length - arr.length / 2 ^ k]? = some a ∧ a ≤ val := by
  have hc := h.le_length
  constructor
  · rintro ⟨k, -, hpos, hover, hreach⟩
    have ha := List.getElem?_eq_getElem (lt_of_lt_of_le hreach hc)
    exact ⟨k, _, hpos, hover, ha, (h.le_iff _ _ ha).mpr hreach⟩
  · rintro ⟨k, a, hpos, hover, ha, hle⟩
    exact ⟨k, Nat.zero_le k, hpos, hover, (h.le_iff _ _ ha).mp hle⟩

/-- **The two searches** find the last element that is not above `val`, or the first one when there is none, exactly when
`val` lies below the first window at the end of the array whose bounds add up to more than an `int`. -/
theorem similar_numbers_agree_iff {arr : List Int32} {val : Int32} (hne : arr ≠ []) (hinc : arr.Pairwise (· < ·))
    (hnn : ∀ a ∈ arr, 0 ≤ a) (hval : 0 ≤ val) :
    (∃ i : Nat, IsSimilar arr val i ∧ bsearch_similar_number arr val = some ↑i ∧
        get_similar_number (arr.map Int32.toUInt32) val.toUInt32 = some ↑i) ↔
      ¬ ∃ k a, 0 < arr.length / 2 ^ k ∧ 2 ^ 31 < 2 * arr.length - arr.length / 2 ^ k ∧
        arr[arr.length - arr.length / 2 ^ k]? = some a ∧ a ≤ val := by
  obtain ⟨c, hc, hcu⟩ := exists_cut_of_ascending hinc hnn hval
  have hn := length_le_of_ascending hinc hnn
  have hget := get_similar_of_cut hcu (by simpa using hne) (by simpa using hn)
  obtain ⟨hover, hok⟩ := bsearch_of_cut hc hne hn
  rw [← hc.sumOverflows_iff]
  constructor
  · rintro ⟨i, -, hb, -⟩ hsum
    rw [hover hsum] at hb
    cases hb
  · exact fun hsum => ⟨c - 1, hc.isSimilar, hok hsum, hget⟩

theorem similar_numbers_agree_of_three :
    ∃ i : Nat, IsSimilar [2, 5, 9] 6 i ∧ bsearch_similar_number [2, 5, 9] 6 = some ↑i ∧
      get_similar_number [2, 5, 9] 6 = some ↑i := by
  refine (@similar_numbers_agree_iff [2, 5, 9] 6 (by decide) (by decide) (by simp) (by decide)).mpr ?_
  rintro ⟨k, a, -, hover, -⟩
  exact absurd (lt_of_lt_of_le hover (Nat.sub_le _ _)) (by decide)

/-- The numbers below `n`. -/
def upTo (n : Nat) : List Int32 := (List.range n).map Int32.ofNat

theorem upTo_ascending {n : Nat} (hn : n ≤ 2 ^ 31) : (upTo n).Pairwise (· < ·) := by
  refine List.pairwise_map.mpr (List.pairwise_lt_range.imp_of_mem fun ha hb hlt => ?_)
  rw [List.mem_range] at ha hb
  exact (Int32.ofNat_lt_iff_lt (by omega) (by omega)).mpr hlt

theorem upTo_nonneg {n : Nat} (hn : n ≤ 2 ^ 31) : ∀ a ∈ upTo n, 0 ≤ a := by
  intro a ha
  obtain ⟨i, hi, rfl⟩ := List.mem_map.mp ha
  rw [List.mem_range] at hi
  exact (Int32.ofNat_le_iff_le (by decide) (by omega)).mpr (Nat.zero_le i)

/-- The last of the numbers up to `2 ^ 30` is looked for in a window whose bounds overflow. -/
theorem upTo_differ {m : Nat} {val : Int32} (hm : m = 2 ^ 30) (hv : val = Int32.ofNat m) :
    upTo (m + 1) ≠ [] ∧ (upTo (m + 1)).Pairwise (· < ·) ∧ (∀ a ∈ upTo (m + 1), 0 ≤ a) ∧ 0 ≤ val ∧
      bsearch_similar_number (upTo (m + 1)) val = none ∧
      get_similar_number ((upTo (m + 1)).map Int32.toUInt32) val.toUInt32 = some ↑m := by
  have hlen : (upTo (m + 1)).length = m + 1 := by rw [upTo, List.length_map, List.length_range]
  have hne : upTo (m + 1) ≠ [] := List.ne_nil_of_length_pos (by omega)
  have hinc := upTo_ascending (n := m + 1) (by omega)
  have hnn := upTo_nonneg (n := m + 1) (by omega)
  have hlast : (upTo (m + 1))[m]? = some val := by
    rw [upTo, List.getElem?_map, List.getElem?_range (by omega), Option.map_some, hv]
  have hval := hnn val (List.mem_of_getElem? hlast)
  obtain ⟨c, hc, hcu⟩ := exists_cut_of_ascending hinc hnn hval
  have hcut := (hc.le_iff _ _ hlast).mp (Int32.le_refl _)
  have hlength := hc.le_length
  have hget := get_similar_of_cut hcu (by simpa using hne) (by rw [List.length_map, hlen]; omega)
  have hone : (m + 1) / 2 ^ 30 = 1 := by omega
  refine ⟨hne, hinc, hnn, hval, (bsearch_of_cut hc hne (by omega)).1 ⟨30, ?_⟩, ?_⟩
  · rw [hlen, hone]
    omega
  · rw [hget]
    congr 1
    omega

theorem similar_numbers_differ :
    upTo (2 ^ 30 + 1) ≠ [] ∧ (upTo (2 ^ 30 + 1)).Pairwise (· < ·) ∧ (∀ a ∈ upTo (2 ^ 30 + 1), 0 ≤ a) ∧
      0 ≤ Int32.ofNat (2 ^ 30) ∧ bsearch_similar_number (upTo (2 ^ 30 + 1)) (Int32.ofNat (2 ^ 30)) = none ∧
      get_similar_number ((upTo (2 ^ 30 + 1)).map Int32.toUInt32) (Int32.ofNat (2 ^ 30)).toUInt32 =
        some ↑(2 ^ 30 : Nat) := upTo_differ rfl rfl

end AsioUtils.BetCoreAlgo
