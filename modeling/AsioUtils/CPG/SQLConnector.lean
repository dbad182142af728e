import AsioUtils.CPG.MatchStruct

/-!
# `SQLConnector`: the rows of a result

A query's result has rows of cells, `NULL` or a text, below columns with distinct names. `mysql_fetch_row` and
`mysql_fetch_field` yield rows and columns in order.

* `queryFields` : the first row; the names of its cells that are not `NULL` are kept in `fieldVec_`;
* `queryNext` : a further row, whose cells are stored under the names in `fieldVec_`;
* `fetched_eq_iff` : which row is stored as it is. A `NULL` of the first row moves the names behind it one column to the
  left, so it must be that the row has nothing there; and a cell is copied as a C string, so none may hold a zero byte.
-/

namespace AsioUtils.CPG

/-- A `MYSQL_ROW`, `none` for a `NULL` cell. -/
abbrev Row := List (Option String)

/-- A `MYSQL_RES` with the rows that were not fetched yet. -/
structure Result where
  columns : List String
  rows : List Row
  distinct : columns.Nodup
  width : ∀ row ∈ rows, row.length = columns.length

/-- The names of the cells that are not `NULL`, with the texts. -/
def rowMap (columns : List String) (row : Row) : Properties :=
  .ofList ((columns.zip row).filterMap fun cell => cell.2.map fun text => (cell.1, text))

structure SQLConnector where
  /-- the rows of `myResult_` that were not fetched yet -/
  rows : List Row := []
  fieldVec_ : List String := []
  fieldsValue_ : Properties := .empty

namespace SQLConnector

/-- What a `std::string` is assigned from a `char*`: the text before the first zero byte. -/
def cString (text : String) : String := String.ofList (text.toList.takeWhile fun c => c.toNat ≠ 0)

/-- `fieldsValue_[name] = tempRes` for each cell that is not `NULL`; `tempRes` is a `char*`. -/
def storeCells : List (String × Option String) → Properties → Properties
  | [], fieldsValue => fieldsValue
  | (_, none) :: cells, fieldsValue => storeCells cells fieldsValue
  | (name, some tempRes) :: cells, fieldsValue => storeCells cells (fieldsValue.assign name (cString tempRes))

/-- `fieldVec_.push_back(fieldStr)` for each cell that is not `NULL`. -/
def pushNames : List (String × Option String) → List String
  | [] => []
  | (_, none) :: cells => pushNames cells
  | (name, some _) :: cells => name :: pushNames cells

/-- `execQuery` ends with it: `columns` are the columns of the result. -/
def queryFields (columns : List String) (s : SQLConnector) : SQLConnector :=
  match s.rows with
  | [] => { s with fieldVec_ := [], fieldsValue_ := .empty }
  | curRow :: rows =>
    { rows := rows
      fieldVec_ := pushNames (columns.zip curRow)
      fieldsValue_ := storeCells (columns.zip curRow) .empty }

def queryNext (s : SQLConnector) : SQLConnector :=
  match s.rows with
  | [] => { s with fieldsValue_ := .empty }
  | curRow :: rows => { s with rows := rows, fieldsValue_ := storeCells (s.fieldVec_.zip curRow) .empty }

/-- After `queryFields` and `k` calls of `queryNext`. -/
def fetched (s : SQLConnector) (result : Result) (k : Nat) : SQLConnector :=
  queryNext^[k] (queryFields result.columns { s with rows := result.rows })

/-! ## Cells stored under names -/

section Cells

/-- No cell of the row holds a zero byte. -/
def NulFree (row : Row) : Prop := ∀ text, some text ∈ row → ∀ c ∈ text.toList, c.toNat ≠ 0

theorem cString_eq_iff {text : String} : cString text = text ↔ ∀ c ∈ text.toList, c.toNat ≠ 0 := by
  rw [cString, ← String.toList_inj, String.toList_ofList, List.takeWhile_eq_self_iff]
  simp only [decide_eq_true_eq]

theorem cString_nul_free (text : String) : ∀ c ∈ (cString text).toList, c.toNat ≠ 0 := by
  intro c hc
  rw [cString, String.toList_ofList] at hc
  have hkept := List.mem_takeWhile_imp hc
  simpa using hkept

/-- Each cell that is not `NULL` is stored under its name, up to its first zero byte. -/
theorem mem_storeCells {cells : List (String × Option String)} (hcells : (cells.map Prod.fst).Nodup)
    {fieldsValue : Properties} (hnew : ∀ cell ∈ cells, cell.1 ∉ fieldsValue) {e : String × String} :
    e ∈ (storeCells cells fieldsValue).entries ↔
      (∃ text, (e.1, some text) ∈ cells ∧ e.2 = cString text) ∨ e ∈ fieldsValue.entries := by
  induction cells generalizing fieldsValue with
  | nil => simp [storeCells]
  | cons cell cells ih =>
    obtain ⟨name, tempRes⟩ := cell
    obtain ⟨hname, hrestNames⟩ := List.nodup_cons.mp hcells
    have hrest : ∀ cell ∈ cells, cell.1 ∉ fieldsValue := fun cell hcell => hnew cell (List.mem_cons_of_mem _ hcell)
    cases tempRes with
    | none =>
      rw [storeCells, ih hrestNames hrest]
      simp
    | some tempRes =>
      have hfirst : name ∉ fieldsValue := hnew _ List.mem_cons_self
      have hassigned : ∀ cell ∈ cells, cell.1 ∉ fieldsValue.assign name (cString tempRes) := by
        intro cell hcell
        have hne : cell.1 ≠ name := fun heq => hname (List.mem_map.mpr ⟨cell, hcell, heq⟩)
        rw [OrderedMap.mem_assign, not_or]
        exact ⟨hne, hrest cell hcell⟩
      rw [storeCells, ih hrestNames hassigned, OrderedMap.mem_assign_entries hfirst]
      simp only [List.mem_cons, Option.some.injEq, Prod.ext_iff, or_and_right, exists_or]
      rw [← or_assoc, or_comm (b := e.1 = name ∧ e.2 = cString tempRes)]
      refine or_congr_left (or_congr_left ⟨?_, ?_⟩)
      · rintro ⟨hkey, htext⟩
        exact ⟨tempRes, ⟨hkey, rfl⟩, htext⟩
      · rintro ⟨text, ⟨hkey, rfl⟩, htext⟩
        exact ⟨hkey, htext⟩

/-- The names of `fieldVec_` are the columns of the first row's texts, in order. -/
theorem pushNames_sublist (columns : List String) (row : Row) : (pushNames (columns.zip row)).Sublist columns := by
  induction columns generalizing row with
  | nil => exact List.Sublist.refl _
  | cons name columns ih =>
    cases row with
    | nil => exact List.nil_sublist _
    | cons cell row =>
      cases cell with
      | none => exact (ih row).cons name
      | some text => exact (ih row).cons_cons name

theorem map_fst_zip_sublist (names : List String) (row : Row) : ((names.zip row).map Prod.fst).Sublist names := by
  induction names generalizing row with
  | nil => exact List.Sublist.refl _
  | cons name names ih =>
    cases row with
    | nil => exact List.nil_sublist _
    | cons cell row => exact (ih row).cons_cons name

theorem map_rowCells (cells : List (String × Option String)) :
    ((cells.filterMap fun cell => cell.2.map fun text => (cell.1, text)).map fun e => id e.1) = pushNames cells := by
  induction cells with
  | nil => rfl
  | cons cell cells ih =>
    obtain ⟨name, tempRes⟩ := cell
    cases tempRes with
    | none => exact ih
    | some text => exact congrArg (name :: ·) ih

theorem mem_rowMap {columns : List String} (hcolumns : columns.Nodup) (row : Row) {e : String × String} :
    e ∈ (rowMap columns row).entries ↔ (e.1, some e.2) ∈ columns.zip row := by
  have hnames := (pushNames_sublist columns row).nodup hcolumns
  rw [← map_rowCells] at hnames
  rw [rowMap, OrderedMap.mem_ofList hnames, List.mem_filterMap]
  constructor
  · rintro ⟨⟨name, cell⟩, hcell, heq⟩
    obtain ⟨text, rfl, rfl⟩ := Option.map_eq_some_iff.mp heq
    exact hcell
  · intro hcell
    exact ⟨_, hcell, rfl⟩

/-- What a row stores is its own map exactly if no text is cut and both pair the same names with texts. -/
theorem storeCells_eq_iff {names columns : List String} (hnames : names.Nodup) (hcolumns : columns.Nodup) {row : Row}
    (hrow : row.length ≤ columns.length) :
    storeCells (names.zip row) .empty = rowMap columns row ↔
      (∀ name text, (name, some text) ∈ names.zip row ↔ (name, some text) ∈ columns.zip row) ∧ NulFree row := by
  have hstored : ∀ e : String × String, e ∈ (storeCells (names.zip row) .empty).entries ↔
      ∃ text, (e.1, some text) ∈ names.zip row ∧ e.2 = cString text := by
    intro e
    rw [mem_storeCells ((map_fst_zip_sublist names row).nodup hnames) (by simp)]
    exact or_iff_left List.not_mem_nil
  -- texts without a zero byte are stored as they are
  have hwhole : NulFree row → ∀ name text, (∃ t, (name, some t) ∈ names.zip row ∧ text = cString t) ↔
      (name, some text) ∈ names.zip row := by
    intro hfree name text
    constructor
    · rintro ⟨t, ht, rfl⟩
      rwa [cString_eq_iff.mpr (hfree t (List.of_mem_zip ht).2)]
    · intro ht
      exact ⟨text, ht, (cString_eq_iff.mpr (hfree text (List.of_mem_zip ht).2)).symm⟩
  constructor
  · intro heq
    have hpaired : ∀ name text, (∃ t, (name, some t) ∈ names.zip row ∧ text = cString t) ↔
        (name, some text) ∈ columns.zip row := by
      intro name text
      rw [← hstored (name, text), heq, mem_rowMap hcolumns]
    have hfree : NulFree row := by
      intro text htext
      obtain ⟨j, hj, hcell⟩ := List.mem_iff_getElem.mp htext
      have hmem : (columns[j], some text) ∈ columns.zip row := by
        refine List.mem_iff_getElem.mpr ⟨j, by simp only [List.length_zip]; omega, ?_⟩
        rw [List.getElem_zip, hcell]
      obtain ⟨t, -, rfl⟩ := (hpaired _ text).mpr hmem
      exact cString_nul_free t
    exact ⟨fun name text => (hwhole hfree name text).symm.trans (hpaired name text), hfree⟩
  · rintro ⟨hagree, hfree⟩
    refine OrderedMap.ext_entries fun e => ?_
    rw [hstored, mem_rowMap hcolumns, hwhole hfree, hagree]

end Cells

/-! ## Rows under the names of the first row -/

/-- The row has nothing in or behind a column that is `NULL` in the first row. -/
def Aligned (first row : Row) : Prop := ∀ i j : Nat, i ≤ j → first[i]? = some none → row[j]?.join = none

theorem aligned_nil (first : Row) : Aligned first [] := fun _ _ _ _ => rfl

theorem aligned_cons_some {text : String} {first row : Row} {cell : Option String} :
    Aligned (some text :: first) (cell :: row) ↔ Aligned first row := by
  constructor
  · intro h i j hij hi
    exact h (i + 1) (j + 1) (by omega) (by simpa using hi)
  · intro h i j hij hi
    cases i with
    | zero => simp at hi
    | succ i =>
      obtain ⟨j, rfl⟩ : ∃ k, j = k + 1 := ⟨j - 1, by omega⟩
      simpa using h i j (by omega) (by simpa using hi)

theorem aligned_cons_none {first row : Row} : Aligned (none :: first) row ↔ ∀ cell ∈ row, cell = none := by
  constructor
  · intro h cell hcell
    obtain ⟨j, hj⟩ := List.mem_iff_getElem?.mp hcell
    simpa [hj] using h 0 j (by omega) rfl
  · intro h i j _ _
    cases hj : row[j]? with
    | none => rfl
    | some cell => exact h cell (List.mem_of_getElem? hj)

/-- A `NULL` pairs no name with a text. -/
theorem mem_zip_cons_none {names : List String} {row : Row} {name text : String} :
    (name, some text) ∈ names.zip (none :: row) ↔ (name, some text) ∈ names.tail.zip row := by
  cases names <;> simp

theorem not_mem_zip_of_none {names : List String} {row : Row} (h : ∀ cell ∈ row, cell = none) (name text : String) :
    (name, some text) ∉ names.zip row := fun hmem => absurd (h _ (List.of_mem_zip hmem).2) (by simp)

/-- Names that lag behind the columns: the first cell has no name left, so it is `NULL`, and the next one is in the
same case. -/
theorem none_of_lagging {row : Row} {names columns : List String} {first : String} (hsub : names.Sublist columns)
    (hcolumns : (first :: columns).Nodup)
    (h : ∀ name text, (name, some text) ∈ names.zip row ↔ (name, some text) ∈ (first :: columns).zip row) :
    ∀ cell ∈ row.take (columns.length + 1), cell = none := by
  induction row generalizing names columns first with
  | nil => simp
  | cons cell row ih =>
    obtain ⟨hfirst, hrest⟩ := List.nodup_cons.mp hcolumns
    have hcell : cell = none := by
      cases cell with
      | none => rfl
      | some text =>
        have hmem : (first, some text) ∈ names.zip (some text :: row) := (h first text).mpr (by simp)
        exact absurd (hsub.subset (List.of_mem_zip hmem).1) hfirst
    subst hcell
    cases columns with
    | nil => simp
    | cons next columns =>
      have hlag : names.tail.Sublist columns := hsub.tail
      have hnext := ih hlag hrest fun name text => by
        rw [← mem_zip_cons_none, h, mem_zip_cons_none, List.tail_cons]
      simpa using hnext

/-- **The names of the first row, exactly**: they pair a row's texts with their columns if and only if the row is
aligned with the first. -/
theorem names_agree_iff {columns : List String} (hcolumns : columns.Nodup) {first row : Row}
    (hfirst : first.length = columns.length) (hrow : row.length = columns.length) :
    (∀ name text, (name, some text) ∈ (pushNames (columns.zip first)).zip row ↔ (name, some text) ∈ columns.zip row) ↔
      Aligned first row := by
  induction columns generalizing first row with
  | nil =>
    obtain rfl := List.length_eq_zero_iff.mp hrow
    exact iff_of_true (by simp) (aligned_nil first)
  | cons column columns ih =>
    obtain ⟨hcolumn, hrest⟩ := List.nodup_cons.mp hcolumns
    obtain ⟨cell, first, rfl⟩ := List.exists_cons_of_length_eq_add_one hfirst
    obtain ⟨x, row, rfl⟩ := List.exists_cons_of_length_eq_add_one hrow
    cases cell with
    | none =>
      rw [aligned_cons_none]
      constructor
      · intro h
        have hnone := none_of_lagging (pushNames_sublist columns first) hcolumns h
        rwa [← List.length_cons (a := column), List.take_of_length_le hrow.le] at hnone
      · intro h name text
        exact iff_of_false (not_mem_zip_of_none h name text) (not_mem_zip_of_none h name text)
    | some text =>
      rw [aligned_cons_some, ← ih hrest (by simpa using hfirst) (by simpa using hrow)]
      have hnot : column ∉ pushNames (columns.zip first) := fun hmem => hcolumn ((pushNames_sublist _ _).subset hmem)
      refine forall₂_congr fun name value => ?_
      show ((name, some value) ∈ (column, x) :: (pushNames (columns.zip first)).zip row ↔
        (name, some value) ∈ (column, x) :: columns.zip row) ↔ _
      rw [List.mem_cons, List.mem_cons]
      by_cases hname : (name, some value) = (column, x)
      · obtain ⟨rfl, -⟩ := Prod.mk.inj hname
        exact iff_of_true (iff_of_true (.inl hname) (.inl hname)) (iff_of_false
          (fun hmem => hnot (List.of_mem_zip hmem).1) (fun hmem => hcolumn (List.of_mem_zip hmem).1))
      · rw [or_iff_right hname, or_iff_right hname]

/-! ## Runs -/

section Fetched

variable (s : SQLConnector) (result : Result)

theorem fetched_succ (k : Nat) : fetched s result (k + 1) = queryNext (fetched s result k) :=
  Function.iterate_succ_apply' _ _ _

theorem queryNext_rows (s : SQLConnector) : (queryNext s).rows = s.rows.tail := by
  unfold queryNext
  split <;> simp_all

theorem queryNext_fieldVec_ (s : SQLConnector) : (queryNext s).fieldVec_ = s.fieldVec_ := by
  unfold queryNext
  split <;> rfl

/-- A row that is not there stores nothing. -/
theorem queryNext_fieldsValue_ (s : SQLConnector) :
    (queryNext s).fieldsValue_ = storeCells (s.fieldVec_.zip (s.rows.headD [])) .empty := by
  unfold queryNext
  split
  next h => rw [h, List.headD_nil, List.zip_nil_right, storeCells]
  next h => rw [h, List.headD_cons]

theorem fetched_zero_fieldsValue_ :
    (fetched s result 0).fieldsValue_ = storeCells (result.columns.zip (result.rows.getD 0 [])) .empty := by
  show (queryFields _ _).fieldsValue_ = _
  unfold queryFields
  cases result.rows with
  | nil => rw [List.getD_nil, List.zip_nil_right, storeCells]
  | cons row rows => rfl

theorem fetched_rows (k : Nat) : (fetched s result k).rows = result.rows.drop (k + 1) := by
  induction k with
  | zero =>
    show (queryFields _ _).rows = _
    unfold queryFields
    cases result.rows <;> rfl
  | succ k ih => rw [fetched_succ, queryNext_rows, ih, List.tail_drop]

theorem fetched_fieldVec_ (k : Nat) :
    (fetched s result k).fieldVec_ = pushNames (result.columns.zip (result.rows.getD 0 [])) := by
  induction k with
  | zero =>
    show (queryFields _ _).fieldVec_ = _
    unfold queryFields
    cases result.rows with
    | nil => rw [List.getD_nil, List.zip_nil_right, pushNames]
    | cons row rows => rfl
  | succ k ih => rw [fetched_succ, queryNext_fieldVec_, ih]

theorem fetched_succ_fieldsValue_ (k : Nat) : (fetched s result (k + 1)).fieldsValue_ =
    storeCells ((pushNames (result.columns.zip (result.rows.getD 0 []))).zip (result.rows.getD (k + 1) [])) .empty := by
  rw [fetched_succ, queryNext_fieldsValue_, fetched_fieldVec_, fetched_rows, List.headD_eq_head?_getD, List.head?_drop,
    List.getD_eq_getElem?_getD, List.getD_eq_getElem?_getD]

theorem getD_width {k : Nat} (hk : k < result.rows.length) : (result.rows.getD k []).length = result.columns.length := by
  rw [List.getD_eq_getElem?_getD, List.getElem?_eq_getElem hk, Option.getD_some]
  exact result.width _ (List.getElem_mem hk)

theorem getD_width_le (k : Nat) : (result.rows.getD k []).length ≤ result.columns.length := by
  by_cases hk : k < result.rows.length
  · exact (getD_width result hk).le
  · rw [List.getD_eq_getElem?_getD, List.getElem?_eq_none (by omega), Option.getD_none]
    exact Nat.zero_le _

/-- A row is stored as it is if it is the first or aligned with the first, and holds no zero byte. -/
theorem fetched_rowMap_iff (k : Nat) :
    (fetched s result k).fieldsValue_ = rowMap result.columns (result.rows.getD k []) ↔
      (k = 0 ∨ Aligned (result.rows.getD 0 []) (result.rows.getD k [])) ∧ NulFree (result.rows.getD k []) := by
  cases k with
  | zero =>
    rw [fetched_zero_fieldsValue_, storeCells_eq_iff result.distinct result.distinct (getD_width_le result 0)]
    exact and_congr_left fun _ => iff_of_true (fun _ _ => Iff.rfl) (.inl rfl)
  | succ k =>
    have hnames := (pushNames_sublist result.columns (result.rows.getD 0 [])).nodup result.distinct
    rw [fetched_succ_fieldsValue_, storeCells_eq_iff hnames result.distinct (getD_width_le result (k + 1)),
      or_iff_right (Nat.succ_ne_zero k)]
    refine and_congr_left fun _ => ?_
    by_cases hk : k + 1 < result.rows.length
    · exact names_agree_iff result.distinct (getD_width result (by omega)) (getD_width result hk)
    · have hnone : result.rows[k + 1]? = none := List.getElem?_eq_none (by omega)
      rw [List.getD_eq_getElem?_getD (i := k + 1), hnone, Option.getD_none]
      exact iff_of_true (by simp) (aligned_nil _)

end Fetched

/-- **The rows, exactly**: after `queryFields` and `k` calls of `queryNext` the map holds row `k` if and only if no text
of that row has a zero byte, and it is the first row or has nothing in or behind a column that is `NULL` in the first
row. -/
theorem fetched_eq_iff (s : SQLConnector) (result : Result) (k : Nat) :
    (fetched s result k).fieldsValue_ = rowMap result.columns (result.rows.getD k []) ↔
      (k = 0 ∨ Aligned (result.rows.getD 0 []) (result.rows.getD k [])) ∧ NulFree (result.rows.getD k []) :=
  fetched_rowMap_iff s result k

/-- Two rows, the first without an `a`. -/
def nullFirst : Result where
  columns := ["a", "b"]
  rows := [[none, some "1"], [some "2", some "3"]]
  distinct := by decide
  width := by decide

/-- In the second row the text of `a` is stored under `b`. -/
theorem nullFirst_misread : ¬ ∀ (s : SQLConnector) (result : Result) (k : Nat),
    (fetched s result k).fieldsValue_ = rowMap result.columns (result.rows.getD k []) := by
  intro h
  have hmap := h {} nullFirst 1
  have hb : (fetched {} nullFirst 1).fieldsValue_.find? "b" = some ("b", "2") := by decide
  have hrow : (rowMap nullFirst.columns (nullFirst.rows.getD 1 [])).find? "b" = some ("b", "3") := by decide
  rw [hmap, hrow] at hb
  exact absurd hb (by decide)

/-! ## Matches from the database -/

/-- The loop of `loadFromDB`, over the number of rows. -/
def loadMatches : Nat → SQLConnector → List CPGMatchProfile
  | 0, _ => []
  | n + 1, s => mapConvertStruct s.fieldsValue_ :: loadMatches n (queryNext s)

theorem loadMatches_fetched (s : SQLConnector) (result : Result) (n k : Nat) : loadMatches n (fetched s result k) =
    (List.range' k n).map fun i => mapConvertStruct (fetched s result i).fieldsValue_ := by
  induction n generalizing k with
  | zero => rfl
  | succ n ih => rw [loadMatches, ← fetched_succ, ih, List.range'_succ, List.map_cons]

/-- `CPGMatchCreateFactory::loadFromDB`, when the `SELECT` has this result. -/
def loadFromDB (s : SQLConnector) (result : Result) : List CPGMatchProfile :=
  loadMatches result.rows.length (fetched s result 0)

/-- When every further row is aligned with the first and no cell holds a zero byte, each match is the one of its row. -/
theorem loadFromDB_rows {result : Result} (hfree : ∀ row ∈ result.rows, NulFree row)
    (h : ∀ k, k = 0 ∨ Aligned (result.rows.getD 0 []) (result.rows.getD k [])) (s : SQLConnector) :
    loadFromDB s result = result.rows.map fun row => mapConvertStruct (rowMap result.columns row) := by
  rw [loadFromDB, loadMatches_fetched]
  refine List.ext_getElem (by simp) fun k hk hk' => ?_
  rw [List.length_map] at hk'
  have hrow : result.rows.getD k [] = result.rows[k] := by
    rw [List.getD_eq_getElem?_getD, List.getElem?_eq_getElem hk', Option.getD_some]
  have hread := (fetched_rowMap_iff s result k).mpr ⟨h k, hrow ▸ hfree _ (List.getElem_mem hk')⟩
  rw [List.getElem_map, List.getElem_map, List.getElem_range', Nat.zero_add, Nat.one_mul, hread, hrow]

end SQLConnector

end AsioUtils.CPG
