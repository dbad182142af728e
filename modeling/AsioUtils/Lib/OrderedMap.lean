import Mathlib.Data.List.Basic
import Mathlib.Data.List.Flatten
import Mathlib.Order.Lattice

/-!
# Ordered maps whose order reads part of the key

`OrderedMap κ β ord` is a map in the manner of `std::map`: its entries are kept strictly ascending by `ord : κ → ι`, so
two keys with the same `ord` are one key to it. An entry keeps the key it was inserted with, also the part of the key
that `ord` does not read.

* `find? m i` : the entry, key included, that stands for `i`;
* `erase`, `insert` (leaves an entry that is there alone), `modify` (writes through an iterator), `assign`
  (`m[k] = v`), `ofList`;
* `find?_*` : what each operation changes, read by `find?`; `ext` : maps are equal when all their lookups are;
* `entries_perm_of_find?`, `insert_entries_perm` : the entries as a multiset;
* `elems` : for a map to lists, all the elements of all its lists, and what each operation does to them.
-/

universe u v w

/-- A map with entries strictly ascending by `ord` of their keys. -/
structure OrderedMap (κ : Type u) (β : Type v) {ι : Type w} [LinearOrder ι] (ord : κ → ι) where
  entries : List (κ × β)
  sorted : entries.Pairwise fun a b => ord a.1 < ord b.1

namespace OrderedMap

variable {κ : Type u} {β : Type v} {ι : Type w} [LinearOrder ι] {ord : κ → ι}

instance [DecidableEq κ] [DecidableEq β] : DecidableEq (OrderedMap κ β ord) := fun m m' =>
  decidable_of_iff (m.entries = m'.entries) (by cases m; cases m'; simp)

def empty : OrderedMap κ β ord := ⟨[], List.Pairwise.nil⟩

/-- The entry that stands for `i`. -/
def find? (m : OrderedMap κ β ord) (i : ι) : Option (κ × β) := m.entries.find? fun e => ord e.1 = i

instance : Membership ι (OrderedMap κ β ord) := ⟨fun m i => ∃ e ∈ m.entries, ord e.1 = i⟩

def size (m : OrderedMap κ β ord) : Nat := m.entries.length

/-- The keys, ascending. -/
def keys (m : OrderedMap κ β ord) : List κ := m.entries.map Prod.fst

def erase (m : OrderedMap κ β ord) (i : ι) : OrderedMap κ β ord :=
  ⟨m.entries.filter fun e => ord e.1 ≠ i, m.sorted.filter _⟩

/-- The entries that meet `p`. -/
def filter (m : OrderedMap κ β ord) (p : κ × β → Bool) : OrderedMap κ β ord := ⟨m.entries.filter p, m.sorted.filter _⟩

/-- Insertion into an ascending list of entries; an entry that stands for the same index stays. -/
def insertEntry (ord : κ → ι) (e : κ × β) : List (κ × β) → List (κ × β)
  | [] => [e]
  | x :: xs =>
    if ord e.1 < ord x.1 then e :: x :: xs
    else if ord x.1 < ord e.1 then x :: insertEntry ord e xs
    else x :: xs

theorem mem_insertEntry {e x : κ × β} {l : List (κ × β)} (h : x ∈ insertEntry ord e l) : x = e ∨ x ∈ l := by
  induction l with
  | nil => simpa [insertEntry] using h
  | cons y ys ih =>
    rw [insertEntry] at h
    split_ifs at h with h1 h2
    · simpa using h
    · rcases List.mem_cons.mp h with rfl | h
      · simp
      · rcases ih h with h | h <;> simp [h]
    · exact .inr h

theorem insertEntry_sorted (e : κ × β) {l : List (κ × β)} (h : l.Pairwise fun a b => ord a.1 < ord b.1) :
    (insertEntry ord e l).Pairwise fun a b => ord a.1 < ord b.1 := by
  induction l with
  | nil => simp [insertEntry]
  | cons y ys ih =>
    obtain ⟨hy, hys⟩ := List.pairwise_cons.mp h
    rw [insertEntry]
    split_ifs with h1 h2
    · exact List.pairwise_cons.mpr ⟨fun x hx => (List.mem_cons.mp hx).elim (fun hxy => hxy ▸ h1)
        (fun hx => h1.trans (hy x hx)), h⟩
    · exact List.pairwise_cons.mpr ⟨fun x hx => (mem_insertEntry hx).elim (fun hxe => hxe ▸ h2) (hy x), ih hys⟩
    · exact h

/-- `std::map::insert`: an entry that stands for the same index stays as it is. -/
def insert (m : OrderedMap κ β ord) (e : κ × β) : OrderedMap κ β ord :=
  ⟨insertEntry ord e m.entries, insertEntry_sorted e m.sorted⟩

/-- Apply `f` to every value, keys as they are. -/
def mapVals (m : OrderedMap κ β ord) (f : κ → β → β) : OrderedMap κ β ord :=
  ⟨m.entries.map fun e => (e.1, f e.1 e.2), List.pairwise_map.mpr m.sorted⟩

/-- Write the value that stands for `i` through an iterator. -/
def modify (m : OrderedMap κ β ord) (i : ι) (f : β → β) : OrderedMap κ β ord :=
  m.mapVals fun k v => if ord k = i then f v else v

/-- `m[k] = v`: an entry that is there keeps its key. -/
def assign (m : OrderedMap κ β ord) (k : κ) (v : β) : OrderedMap κ β ord :=
  (m.insert (k, v)).modify (ord k) fun _ => v

/-- The map made of a list of entries, inserted one by one. -/
def ofList (l : List (κ × β)) : OrderedMap κ β ord := l.foldl insert empty

/-! ## Lookups -/

theorem find?_eq_none {m : OrderedMap κ β ord} {i : ι} : m.find? i = none ↔ ∀ e ∈ m.entries, ord e.1 ≠ i := by
  simp [find?]

theorem ord_of_find? {m : OrderedMap κ β ord} {i : ι} {e : κ × β} (h : m.find? i = some e) : ord e.1 = i := by
  simpa using List.find?_some h

theorem mem_of_find? {m : OrderedMap κ β ord} {i : ι} {e : κ × β} (h : m.find? i = some e) : e ∈ m.entries :=
  List.mem_of_find?_eq_some h

/-- In a list of entries with distinct indices every entry is found under its own. -/
theorem list_find?_of_mem {l : List (κ × β)} (hl : (l.map fun e => ord e.1).Nodup) {e : κ × β} (he : e ∈ l) :
    (l.find? fun x => ord x.1 = ord e.1) = some e := by
  induction l with
  | nil => cases he
  | cons x l ih =>
    obtain ⟨hx, hl⟩ := List.nodup_cons.mp hl
    rcases List.mem_cons.mp he with rfl | he
    · simp
    · have hne : ord x.1 ≠ ord e.1 := fun heq => hx (List.mem_map.mpr ⟨e, he, heq.symm⟩)
      rw [List.find?_cons_of_neg (by simpa using hne)]
      exact ih hl he

theorem find?_of_mem {m : OrderedMap κ β ord} {e : κ × β} (h : e ∈ m.entries) : m.find? (ord e.1) = some e :=
  list_find?_of_mem (List.pairwise_map.mpr (m.sorted.imp fun h => h.ne)) h

theorem find?_eq_some {m : OrderedMap κ β ord} {i : ι} {e : κ × β} :
    m.find? i = some e ↔ e ∈ m.entries ∧ ord e.1 = i :=
  ⟨fun h => ⟨mem_of_find? h, ord_of_find? h⟩, fun ⟨h, hi⟩ => hi ▸ find?_of_mem h⟩

theorem mem_iff {m : OrderedMap κ β ord} {i : ι} : i ∈ m ↔ ∃ e, m.find? i = some e := by
  simp only [find?_eq_some]; rfl

theorem not_mem_iff {m : OrderedMap κ β ord} {i : ι} : i ∉ m ↔ m.find? i = none := by
  rw [mem_iff, ← Option.ne_none_iff_exists', not_not]

instance (i : ι) (m : OrderedMap κ β ord) : Decidable (i ∈ m) :=
  decidable_of_iff ((m.find? i).isSome = true) (by rw [mem_iff, Option.isSome_iff_exists])

theorem mem_of_mem_entries {m : OrderedMap κ β ord} {e : κ × β} (h : e ∈ m.entries) : ord e.1 ∈ m := ⟨e, h, rfl⟩

theorem size_eq_zero_iff {m : OrderedMap κ β ord} : m.size = 0 ↔ ∀ i, i ∉ m := by
  rw [size, List.length_eq_zero_iff, List.eq_nil_iff_forall_not_mem]
  constructor
  · rintro h i ⟨e, he, -⟩
    exact h e he
  · intro h e he
    exact h _ (mem_of_mem_entries he)

/-- Two maps are equal when all their lookups are. -/
theorem ext {m m' : OrderedMap κ β ord} (h : ∀ i, m.find? i = m'.find? i) : m = m' := by
  have hmem : ∀ e, e ∈ m.entries ↔ e ∈ m'.entries := fun e => by
    constructor
    · intro he; exact mem_of_find? (h _ ▸ find?_of_mem he)
    · intro he; exact mem_of_find? (h _ ▸ find?_of_mem he)
  obtain ⟨l, hs⟩ := m
  obtain ⟨l', hs'⟩ := m'
  have hn : l.Nodup := hs.imp fun hab heq => absurd (heq ▸ hab) (lt_irrefl _)
  have hn' : l'.Nodup := hs'.imp fun hab heq => absurd (heq ▸ hab) (lt_irrefl _)
  have : l = l' := ((List.perm_ext_iff_of_nodup hn hn').mpr hmem).eq_of_pairwise
    (fun a b _ _ hab hba => absurd hab (not_lt.mpr hba.le)) hs hs'
  subst this; rfl

/-- Maps with the same entries are equal. -/
theorem ext_entries {m m' : OrderedMap κ β ord} (h : ∀ e, e ∈ m.entries ↔ e ∈ m'.entries) : m = m' := by
  refine ext fun i => Option.ext fun e => ?_
  rw [find?_eq_some, find?_eq_some, h]

/-- The indices of the entries, strictly ascending. -/
def indices (m : OrderedMap κ β ord) : List ι := m.entries.map fun e => ord e.1

@[simp] theorem mem_indices {m : OrderedMap κ β ord} {i : ι} : i ∈ m.indices ↔ i ∈ m := List.mem_map

theorem indices_pairwise (m : OrderedMap κ β ord) : m.indices.Pairwise (· < ·) := List.pairwise_map.mpr m.sorted

theorem indices_nodup (m : OrderedMap κ β ord) : m.indices.Nodup :=
  m.indices_pairwise.imp fun hab heq => absurd (heq ▸ hab) (lt_irrefl _)

/-- The indices are known when their set is. -/
theorem indices_eq {m m' : OrderedMap κ β ord} (h : ∀ i, i ∈ m' ↔ i ∈ m) : m'.indices = m.indices := by
  have hmem : ∀ i, i ∈ m'.indices ↔ i ∈ m.indices := fun i => by rw [mem_indices, mem_indices, h]
  have hperm := (List.perm_ext_iff_of_nodup m'.indices_nodup m.indices_nodup).mpr hmem
  exact hperm.eq_of_pairwise (fun a b _ _ hab hba => absurd hab (not_lt.mpr hba.le)) m'.indices_pairwise
    m.indices_pairwise

@[simp] theorem find?_empty (i : ι) : (empty : OrderedMap κ β ord).find? i = none := rfl

@[simp] theorem find?_erase (m : OrderedMap κ β ord) (i j : ι) :
    (m.erase i).find? j = if j = i then none else m.find? j := by
  ext e
  rw [find?_eq_some]
  simp only [erase, List.mem_filter, decide_eq_true_eq]
  split_ifs with h
  · subst h; simp only [iff_false]; tauto
  · rw [find?_eq_some]
    constructor
    · rintro ⟨⟨hm, -⟩, hj⟩; exact ⟨hm, hj⟩
    · rintro ⟨hm, rfl⟩; exact ⟨⟨hm, h⟩, rfl⟩

theorem mem_insert_entries {m : OrderedMap κ β ord} {e x : κ × β} :
    x ∈ (m.insert e).entries ↔ x ∈ m.entries ∨ x = e ∧ ord e.1 ∉ m := by
  obtain ⟨l, hs⟩ := m
  show x ∈ insertEntry ord e l ↔ x ∈ l ∨ x = e ∧ ¬ ∃ y ∈ l, ord y.1 = ord e.1
  induction l with
  | nil => simp [insertEntry]
  | cons y ys ih =>
    obtain ⟨hy, hys⟩ := List.pairwise_cons.mp hs
    rw [insertEntry]
    split_ifs with h1 h2
    · have hno : ¬ ∃ z ∈ y :: ys, ord z.1 = ord e.1 := by
        rintro ⟨z, hz, hze⟩
        rcases List.mem_cons.mp hz with rfl | hz
        · exact absurd hze h1.ne'
        · exact absurd hze (h1.trans (hy z hz)).ne'
      rw [List.mem_cons (a := x) (b := e), or_comm]
      exact or_congr_right (iff_self_and.mpr fun _ => hno)
    · have hcons : (∃ z ∈ y :: ys, ord z.1 = ord e.1) ↔ ∃ z ∈ ys, ord z.1 = ord e.1 := by
        simp [h2.ne]
      rw [List.mem_cons, ih hys, List.mem_cons, hcons, or_assoc]
    · have hyes : ∃ z ∈ y :: ys, ord z.1 = ord e.1 := ⟨y, by simp, le_antisymm (not_lt.mp h1) (not_lt.mp h2)⟩
      simp only [hyes, not_true_eq_false, and_false, or_false]

@[simp] theorem find?_insert (m : OrderedMap κ β ord) (e : κ × β) (i : ι) :
    (m.insert e).find? i = if i = ord e.1 then some ((m.find? i).getD e) else m.find? i := by
  ext x
  rw [find?_eq_some, mem_insert_entries]
  split_ifs with h
  · subst h
    by_cases hm : ord e.1 ∈ m
    · obtain ⟨y, hy⟩ := mem_iff.mp hm
      simp only [hm, not_true_eq_false, and_false, or_false, hy, Option.getD_some, Option.some.injEq]
      rw [← find?_eq_some, hy, Option.some.injEq]
    · simp only [hm, not_false_eq_true, and_true, not_mem_iff.mp hm, Option.getD_none, Option.some.injEq]
      constructor
      · rintro ⟨hx | rfl, hi⟩
        · exact absurd (hi ▸ mem_of_mem_entries hx) hm
        · rfl
      · rintro rfl; exact ⟨.inr rfl, rfl⟩
  · rw [find?_eq_some]
    constructor
    · rintro ⟨hx | ⟨rfl, -⟩, hi⟩
      · exact ⟨hx, hi⟩
      · exact absurd hi.symm h
    · rintro ⟨hx, hi⟩; exact ⟨.inl hx, hi⟩

theorem find?_insert_of_none {m : OrderedMap κ β ord} {e : κ × β} (h : m.find? (ord e.1) = none) (i : ι) :
    (m.insert e).find? i = if i = ord e.1 then some e else m.find? i := by
  rw [find?_insert]
  split_ifs with hi
  · rw [hi, h]
    rfl
  · rfl

/-- Of several entries for one index the first stays. -/
@[simp] theorem find?_ofList (l : List (κ × β)) (i : ι) :
    (ofList l : OrderedMap κ β ord).find? i = l.find? fun e => ord e.1 = i := by
  have hfold : ∀ m : OrderedMap κ β ord, (l.foldl insert m).find? i = (m.find? i).or (l.find? fun e => ord e.1 = i) := by
    induction l with
    | nil => intro m; simp
    | cons e l ih =>
      intro m
      rw [List.foldl_cons, ih, find?_insert, List.find?_cons]
      by_cases h : ord e.1 = i
      · rw [if_pos h.symm, decide_eq_true h]
        cases m.find? i <;> rfl
      · rw [if_neg (Ne.symm h), decide_eq_false h]
  rw [ofList, hfold, find?_empty, Option.none_or]

theorem find?_ofList_of_mem {l : List (κ × β)} (hl : (l.map fun e => ord e.1).Nodup) {e : κ × β} (he : e ∈ l) :
    (ofList l : OrderedMap κ β ord).find? (ord e.1) = some e := by
  rw [find?_ofList, list_find?_of_mem hl he]

/-- The entries of a list without repetition. -/
theorem mem_ofList {l : List (κ × β)} (hl : (l.map fun e => ord e.1).Nodup) {e : κ × β} :
    e ∈ (ofList l : OrderedMap κ β ord).entries ↔ e ∈ l := by
  constructor
  · intro he
    have hfind := find?_of_mem he
    rw [find?_ofList] at hfind
    exact List.mem_of_find?_eq_some hfind
  · exact fun he => mem_of_find? (find?_ofList_of_mem hl he)

@[simp] theorem find?_filter (m : OrderedMap κ β ord) (p : κ × β → Bool) (i : ι) :
    (m.filter p).find? i = (m.find? i).filter p := by
  ext e
  rw [find?_eq_some, filter, List.mem_filter, Option.filter_eq_some_iff, find?_eq_some]
  tauto

@[simp] theorem find?_mapVals (m : OrderedMap κ β ord) (f : κ → β → β) (i : ι) :
    (m.mapVals f).find? i = (m.find? i).map fun e => (e.1, f e.1 e.2) := by
  simp only [find?, mapVals, List.find?_map]
  rfl

theorem find?_modify (m : OrderedMap κ β ord) (i j : ι) (f : β → β) :
    (m.modify i f).find? j = if j = i then (m.find? j).map (fun e => (e.1, f e.2)) else m.find? j := by
  rw [modify, find?_mapVals]
  cases h : m.find? j with
  | none => simp
  | some e =>
    have hj := ord_of_find? h
    split_ifs with hji <;> simp [hj, hji]

theorem modify_of_find?_none {m : OrderedMap κ β ord} {i : ι} (h : m.find? i = none) (f : β → β) : m.modify i f = m := by
  refine ext fun j => ?_
  rw [find?_modify]
  split_ifs with hj
  · rw [hj, h]
    rfl
  · rfl

@[simp] theorem find?_assign (m : OrderedMap κ β ord) (k : κ) (v : β) (i : ι) :
    (m.assign k v).find? i = if i = ord k then some (((m.find? i).map Prod.fst).getD k, v) else m.find? i := by
  rw [assign, find?_modify, find?_insert]
  split_ifs with h
  · cases m.find? i <;> rfl
  · rfl

/-- `m[k] = v` for a key that is not there. -/
theorem mem_assign_entries {m : OrderedMap κ β ord} {k : κ} (h : ord k ∉ m) {v : β} {e : κ × β} :
    e ∈ (m.assign k v).entries ↔ e = (k, v) ∨ e ∈ m.entries := by
  have hfind : m.find? (ord k) = none := not_mem_iff.mp h
  rw [← find?_eq_some.trans (and_iff_left rfl), ← find?_eq_some.trans (and_iff_left rfl), find?_assign]
  split_ifs with hord
  · rw [hord, hfind]
    simp [eq_comm]
  · refine (or_iff_right fun heq => hord ?_).symm
    rw [heq]

@[simp] theorem not_mem_empty (i : ι) : i ∉ (empty : OrderedMap κ β ord) := by simp [not_mem_iff]

@[simp] theorem mem_erase {m : OrderedMap κ β ord} {i j : ι} : j ∈ m.erase i ↔ j ≠ i ∧ j ∈ m := by
  rw [mem_iff, mem_iff, find?_erase]
  split_ifs with h <;> simp [h]

@[simp] theorem mem_insert {m : OrderedMap κ β ord} {e : κ × β} {i : ι} :
    i ∈ m.insert e ↔ i = ord e.1 ∨ i ∈ m := by
  rw [mem_iff, mem_iff, find?_insert]
  split_ifs with h <;> simp [h]

@[simp] theorem mem_modify {m : OrderedMap κ β ord} {i j : ι} {f : β → β} : j ∈ m.modify i f ↔ j ∈ m := by
  rw [mem_iff, mem_iff, find?_modify]
  split_ifs with h <;> simp

@[simp] theorem mem_assign {m : OrderedMap κ β ord} {k : κ} {v : β} {i : ι} :
    i ∈ m.assign k v ↔ i = ord k ∨ i ∈ m := by
  rw [assign, mem_modify, mem_insert]

/-! ## Entries as a multiset -/

theorem filter_ne_of_find?_none {m : OrderedMap κ β ord} {i : ι} (h : m.find? i = none) : m.erase i = m := by
  refine ext fun j => ?_
  rw [find?_erase]
  split_ifs with hj
  · rw [hj, h]
  · rfl

/-- Taking one entry out. -/
theorem entries_perm_of_find? {m : OrderedMap κ β ord} {i : ι} {e : κ × β} (h : m.find? i = some e) :
    m.entries.Perm (e :: (m.erase i).entries) := by
  obtain ⟨l, hs⟩ := m
  obtain ⟨hmem, rfl⟩ := find?_eq_some.mp h
  simp only [erase] at hmem ⊢
  clear h
  induction l with
  | nil => cases hmem
  | cons x xs ih =>
    obtain ⟨hx, hxs⟩ := List.pairwise_cons.mp hs
    rcases List.mem_cons.mp hmem with rfl | hmem
    · have hxs' : xs.filter (fun y => decide (ord y.1 ≠ ord e.1)) = xs :=
        List.filter_eq_self.mpr fun y hy => by simpa using (hx y hy).ne'
      rw [List.filter_cons_of_neg (by simp), hxs']
    · rw [List.filter_cons_of_pos (by simpa using (hx e hmem).ne)]
      exact ((ih hxs hmem).cons x).trans (List.Perm.swap _ _ _)

theorem insertEntry_perm {e : κ × β} {l : List (κ × β)} (h : ∀ x ∈ l, ord x.1 ≠ ord e.1) :
    (insertEntry ord e l).Perm (e :: l) := by
  induction l with
  | nil => exact List.Perm.refl _
  | cons y ys ih =>
    have hne := h y (by simp)
    rw [insertEntry]
    split_ifs with h1 h2
    · exact List.Perm.refl _
    · exact ((ih fun x hx => h x (by simp [hx])).cons y).trans (List.Perm.swap _ _ _)
    · exact absurd (le_antisymm (not_lt.mp h1) (not_lt.mp h2)) hne

/-- Putting an entry in where none stood. -/
theorem insert_entries_perm {m : OrderedMap κ β ord} {e : κ × β} (h : m.find? (ord e.1) = none) :
    (m.insert e).entries.Perm (e :: m.entries) :=
  insertEntry_perm (find?_eq_none.mp h)

/-- Assigning to an index that is not there adds an entry. -/
theorem length_assign {m : OrderedMap κ β ord} {k : κ} (h : m.find? (ord k) = none) (v : β) :
    (m.assign k v).entries.length = m.entries.length + 1 :=
  (List.length_map _).trans (insert_entries_perm (e := (k, v)) h).length_eq

theorem erase_modify (m : OrderedMap κ β ord) (i : ι) (f : β → β) : (m.modify i f).erase i = m.erase i := by
  refine ext fun j => ?_
  rw [find?_erase, find?_erase, find?_modify]
  split_ifs <;> rfl

/-- Writing one entry's value. -/
theorem modify_entries_perm {m : OrderedMap κ β ord} {i : ι} {e : κ × β} (f : β → β) (h : m.find? i = some e) :
    (m.modify i f).entries.Perm ((e.1, f e.2) :: (m.erase i).entries) := by
  rw [← erase_modify m i f]
  exact entries_perm_of_find? (by rw [find?_modify, if_pos rfl, h]; rfl)

/-! ## Maps to lists -/

section Elems

variable {α : Type*} {m : OrderedMap κ (List α) ord}

/-- The elements of all lists of the map. -/
def elems (m : OrderedMap κ (List α) ord) : List α := m.entries.flatMap Prod.snd

theorem elems_perm_of_find? {i : ι} {e : κ × List α} (h : m.find? i = some e) :
    m.elems.Perm (e.2 ++ (m.erase i).elems) :=
  (entries_perm_of_find? h).flatMap_right Prod.snd

/-- In a map without repetition an element has one owner. -/
theorem eq_of_mem_elems (h : m.elems.Nodup) {e e' : κ × List α} (he : e ∈ m.entries) (he' : e' ∈ m.entries) {v : α}
    (hv : v ∈ e.2) (hv' : v ∈ e'.2) : e = e' := by
  have hfind := find?_of_mem he
  by_contra hne
  have hrest : e' ∈ (m.erase (ord e.1)).entries := by
    refine List.mem_filter.mpr ⟨he', decide_eq_true fun hord => hne ?_⟩
    exact Option.some.inj (hfind.symm.trans (hord ▸ find?_of_mem he'))
  obtain ⟨-, -, hdisj⟩ := List.nodup_append.mp ((elems_perm_of_find? hfind).nodup_iff.mp h)
  exact hdisj v hv v (List.mem_flatMap.mpr ⟨e', hrest, hv'⟩) rfl

theorem insert_elems_perm {e : κ × List α} (h : m.find? (ord e.1) = none) :
    (m.insert e).elems.Perm (e.2 ++ m.elems) :=
  (insert_entries_perm h).flatMap_right Prod.snd

theorem modify_elems_perm {i : ι} {e : κ × List α} (f : List α → List α) (h : m.find? i = some e) :
    (m.modify i f).elems.Perm (f e.2 ++ (m.erase i).elems) :=
  (modify_entries_perm f h).flatMap_right Prod.snd

/-- Replacing the entry of an index, key included, by one with the same list. -/
theorem rekey_elems_perm {i : ι} {e : κ × List α} {k : κ} (h : m.find? i = some e) (hk : ord k = i) :
    ((m.erase i).insert (k, e.2)).elems.Perm m.elems :=
  (insert_elems_perm (by simp [hk])).trans (elems_perm_of_find? h).symm

/-- Writing a list that is a permutation of the one there. -/
theorem modify_elems_perm_self {i : ι} {f : List α → List α} (hf : ∀ l, (f l).Perm l) :
    (m.modify i f).elems.Perm m.elems := by
  cases h : m.find? i with
  | none => rw [modify_of_find?_none h]
  | some e => exact (modify_elems_perm f h).trans (((hf e.2).append_right _).trans (elems_perm_of_find? h).symm)

end Elems

end OrderedMap
