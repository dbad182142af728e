import AsioUtils.CPG.MatchRow

/-!
# The text of an `INSERT`

`createAndStoreMatch` writes the columns and values of `structConvertMap` into a text, each value between single quotes
as it is.

* `insertText` : that text;
* `insert_reads_iff` : the server reads it as one `INSERT` of those values exactly if the name is plain.
-/

namespace AsioUtils.CPG

open SqlText

namespace CPGMatchCreateFactory

/-- `save.str()` -/
def insertText (profile : CPGMatchProfile) : String :=
  let paramap := structConvertMap profile
  let fss := ",".intercalate (paramap.entries.map fun pair => pair.1)
  let vss := ",".intercalate (paramap.entries.map fun pair => "'" ++ pair.2 ++ "'")
  "INSERT INTO match_infos ( " ++ fss ++ " ) " ++ " VALUES ( " ++ vss ++ " ); "

/-- The `INSERT` of the profile's columns and values. -/
def insertOf (profile : CPGMatchProfile) : SqlText.Insert where
  table := "match_infos"
  columns := (structConvertMap profile).entries.map fun pair => pair.1
  values := (structConvertMap profile).entries.map fun pair => pair.2

/-! ## What the server reads -/

section Read

variable (m : CPGMatchProfile)

/-- The values between their quotes, with commas between them. -/
def valuesText : List Char := [','].intercalate ((insertOf m).values.map quotedText)

/-- The columns, with commas between them. -/
def columnsText : List Char := [','].intercalate ((insertOf m).columns.map String.toList)

theorem insertText_toList : (insertText m).toList =
    "INSERT INTO".toList ++ ' ' :: ("match_infos".toList ++ ' ' :: ("(".toList ++ ' ' :: (columnsText m ++
      ' ' :: (")".toList ++ ' ' :: ' ' :: ("VALUES".toList ++ ' ' :: ("(".toList ++ ' ' :: (valuesText m ++
        ' ' :: (")".toList ++ (";".toList ++ [' ']))))))))) := by
  have hquoted : ∀ v : String, ("'" ++ v ++ "'").toList = quotedText v := fun v => by
    rw [String.toList_append, String.toList_append]
    rfl
  have hhead : "INSERT INTO match_infos ( ".toList =
      "INSERT INTO".toList ++ ' ' :: ("match_infos".toList ++ ' ' :: ("(".toList ++ [' '])) := by simp
  have hclose : " ) ".toList = ' ' :: (")".toList ++ [' ']) := by simp
  have hvalues : " VALUES ( ".toList = ' ' :: ("VALUES".toList ++ ' ' :: ("(".toList ++ [' '])) := by simp
  have hend : " ); ".toList = ' ' :: (")".toList ++ (";".toList ++ [' '])) := by simp
  have hcomma : ",".toList = [','] := rfl
  unfold insertText columnsText valuesText insertOf
  dsimp only
  simp only [String.toList_append, String.toList_intercalate, List.map_map, Function.comp_def, hquoted, hhead, hclose,
    hvalues, hend, hcomma, List.append_assoc, List.cons_append, List.nil_append]

/-- The columns are read back, each a word. -/
theorem items_columnsText
    (hcolumns : ∀ key ∈ (insertOf m).columns, key.toList ≠ [] ∧ ∀ c ∈ key.toList, isWord c = true)
    (hne : (insertOf m).columns ≠ []) {n : Nat} (hn : (insertOf m).columns.length ≤ n) {rest : List Char}
    (hrest : Delimited rest) (hend : keyword "," rest = none) :
    items word n (' ' :: (columnsText m ++ rest)) = some ((insertOf m).columns, rest) := by
  have hitem : ∀ key ∈ (insertOf m).columns, ∀ cs, Delimited cs → word (key.toList ++ cs) = some (id key, cs) := by
    intro key hkey cs hcs
    rw [word_append (hcolumns key hkey).1 (hcolumns key hkey).2 hcs, String.ofList_toList]
    rfl
  have hread := items_intercalate (separates_comma word) hrest hend hne hitem hn
  rw [List.map_id] at hread
  rw [items_congr (word_space _)]
  exact hread

/-- What is left to read behind the columns. -/
theorem parseInsert_insertText
    (hcolumns : ∀ key ∈ (insertOf m).columns, key.toList ≠ [] ∧ ∀ c ∈ key.toList, isWord c = true)
    (hne : (insertOf m).columns ≠ []) : ∃ n, (insertOf m).values.length ≤ n ∧ parseInsert (insertText m) =
      (items quoted n (valuesText m ++ ' ' :: (")".toList ++ (";".toList ++ [' '])))).bind fun r =>
        (keyword ")" r.2).bind fun cs => (keyword ";" cs).bind fun cs =>
          if spaces cs = [] then some ⟨"match_infos", (insertOf m).columns, r.1⟩ else none := by
  obtain ⟨rest, hrest⟩ : ∃ rest, rest = "VALUES".toList ++ ' ' :: ("(".toList ++ ' ' :: (valuesText m ++
    ' ' :: (")".toList ++ (";".toList ++ [' '])))) := ⟨_, rfl⟩
  have hspace : ∀ cs, Delimited (' ' :: cs) := fun cs => delimited_cons (by decide) (by decide)
  have htable : ∀ cs, word (' ' :: ("match_infos".toList ++ ' ' :: cs)) = some ("match_infos", ' ' :: cs) :=
    fun cs => isWord_table.read (hspace cs)
  have hlen : (insertOf m).columns.length ≤ (columnsText m).length :=
    length_le_intercalate fun key hkey => (hcolumns key hkey).1
  have hvals : (insertOf m).values.length ≤ (valuesText m).length :=
    length_le_intercalate fun v _ => by simp [quotedText]
  rw [parseInsert, insertText_toList, keyword_append rfl (by decide), ← hrest]
  simp only [Option.bind_eq_bind, Option.bind_some, htable, keyword_space]
  rw [keyword_append rfl (by decide)]
  simp only [Option.bind_some]
  rw [items_columnsText m hcolumns hne (by simp only [List.length_cons, List.length_append]; omega) (hspace _) rfl]
  simp only [Option.bind_some, keyword_space]
  rw [keyword_append rfl (by decide)]
  simp only [Option.bind_some, keyword_space]
  rw [hrest, keyword_append rfl (by decide)]
  simp only [Option.bind_some, keyword_space]
  rw [keyword_append rfl (by decide)]
  simp only [Option.bind_some]
  rw [items_congr (quoted_space _)]
  refine ⟨_, ?_, rfl⟩
  simp only [List.length_cons, List.length_append]
  omega

end Read

/-! ## The values of a profile -/

section Values

variable {m : CPGMatchProfile}

theorem insertOf_columns (m : CPGMatchProfile) :
    (insertOf m).columns = (structConvertMap m).entries.map fun pair => pair.1 := by simp only [insertOf]

theorem insertOf_values (m : CPGMatchProfile) :
    (insertOf m).values = (structConvertMap m).entries.map fun pair => pair.2 := by simp only [insertOf]

theorem mem_columns (m : CPGMatchProfile) {key : String} : key ∈ (insertOf m).columns ↔ ∃ e ∈ structFields m, e.1 = key := by
  simp only [insertOf_columns, List.mem_map, mem_structConvertMap]

theorem mem_values (m : CPGMatchProfile) {v : String} : v ∈ (insertOf m).values ↔ ∃ e ∈ structFields m, e.2 = v := by
  simp only [insertOf_values, List.mem_map, mem_structConvertMap]

theorem columns_words (m : CPGMatchProfile) :
    ∀ key ∈ (insertOf m).columns, key.toList ≠ [] ∧ ∀ c ∈ key.toList, isWord c = true := by
  intro key hkey
  obtain ⟨e, he, rfl⟩ := (mem_columns m).mp hkey
  have hname : e.1 ∈ fieldNames := by
    rw [← structFields_fst m]
    exact List.mem_map_of_mem he
  exact ⟨(fieldNames_words e.1 hname).ne_nil, (fieldNames_words e.1 hname).isWord⟩

/-- Every text is a number, or the name with a number behind it. -/
theorem followed_of_fields (dict : Properties) (hnumber : ∀ e ∈ dict.entries, e.1 = "name" ∨ ∃ i : Int, e.2 = toString i)
    (hlast : ∃ e ∈ dict.entries, "name" < e.1) : Followed (dict.entries.map fun pair => pair.2) := by
  have hsorted := dict.sorted
  intro pre v post heq
  obtain ⟨l₁, l₂, hl, -, hl₂⟩ := List.map_eq_append_iff.mp heq
  obtain ⟨e, l₃, rfl, rfl, rfl⟩ := List.map_eq_cons_iff.mp hl₂
  rw [hl] at hnumber hsorted hlast
  obtain ⟨-, hafter, hbefore⟩ := List.pairwise_append.mp hsorted
  obtain ⟨hafter, -⟩ := List.pairwise_cons.mp hafter
  rcases hnumber e (by simp) with hname | ⟨i, hi⟩
  · right
    -- the key behind the name is above it, and so is that of the next field
    obtain ⟨e', he', hlt⟩ := hlast
    rw [← hname] at hlt
    rcases List.mem_append.mp he' with he' | he'
    · exact absurd (hbefore e' he' e List.mem_cons_self) (lt_asymm hlt)
    · rcases List.mem_cons.mp he' with rfl | he'
      · exact absurd hlt (lt_irrefl _)
      · obtain ⟨f, l₄, rfl⟩ := List.exists_cons_of_ne_nil (List.ne_nil_of_mem he')
        have hf : e.1 < f.1 := hafter f List.mem_cons_self
        obtain ⟨i, hi⟩ := (hnumber f (by simp)).resolve_left fun heq => absurd hf (by rw [hname, heq]; exact lt_irrefl _)
        refine ⟨f.2, _, rfl, ?_⟩
        rw [hi]
        exact head_toString i
  · left
    rw [hi]
    exact plain_toString i

theorem name_mem (m : CPGMatchProfile) : ("name", m.name) ∈ structFields m := by simp [structFields]

theorem values_followed (m : CPGMatchProfile) : Followed (insertOf m).values := by
  have hfield : ("operator_time", toString m.operator_time) ∈ structFields m := by simp [structFields]
  have hlt : "name" < "operator_time" := by decide
  have hnumber : ∀ e ∈ (structConvertMap m).entries, e.1 = "name" ∨ ∃ i : Int, e.2 = toString i := fun e he =>
    structFields_number m e ((mem_structConvertMap m).mp he)
  rw [insertOf_values]
  exact followed_of_fields (structConvertMap m) hnumber ⟨_, (mem_structConvertMap m).mpr hfield, hlt⟩

/-- All values are plain if the name is. -/
theorem values_plain_iff : (∀ v ∈ (insertOf m).values, Plain v) ↔ Plain m.name := by
  constructor
  · intro h
    exact h m.name ((mem_values m).mpr ⟨_, name_mem m, rfl⟩)
  · intro hname v hv
    obtain ⟨⟨key, text⟩, hfield, rfl⟩ := (mem_values m).mp hv
    rcases structFields_number m _ hfield with rfl | ⟨i, hi⟩
    · have htext := (textOf_structConvertMap m hfield).symm.trans (textOf_structConvertMap m (name_mem m))
      dsimp only
      rw [htext]
      exact hname
    · dsimp only at hi ⊢
      rw [hi]
      exact plain_toString i

end Values

/-- The text is read as something whose values are those of the profile only if the name is plain, and then it is. -/
theorem reads_iff_values_plain (m : CPGMatchProfile) :
    parseInsert (insertText m) = some (insertOf m) ↔ ∀ v ∈ (insertOf m).values, Plain v := by
  have hcolumns : (insertOf m).columns ≠ [] := List.ne_nil_of_mem ((mem_columns m).mpr ⟨_, name_mem m, rfl⟩)
  have hvalues : (insertOf m).values ≠ [] := List.ne_nil_of_mem ((mem_values m).mpr ⟨_, name_mem m, rfl⟩)
  have hfollowed := values_followed m
  have hinsert : insertOf m = ⟨"match_infos", (insertOf m).columns, (insertOf m).values⟩ := by simp only [insertOf]
  obtain ⟨n, hn, hread⟩ := parseInsert_insertText m (columns_words m) hcolumns
  rw [hread, hinsert, valuesText]
  generalize (insertOf m).values = vs at hvalues hfollowed hn
  generalize (insertOf m).columns = cols
  constructor
  · intro h
    obtain ⟨⟨us, r⟩, hitems, h⟩ := Option.bind_eq_some_iff.mp h
    obtain ⟨cs, -, h⟩ := Option.bind_eq_some_iff.mp h
    obtain ⟨cs', -, h⟩ := Option.bind_eq_some_iff.mp h
    split_ifs at h
    obtain rfl : us = vs := congrArg SqlText.Insert.values (Option.some.inj h)
    exact plain_of_items hfollowed hitems
  · intro hplain
    have hend : keyword "," (' ' :: (")".toList ++ (";".toList ++ [' ']))) = none := rfl
    have hitems := items_intercalate (separates_comma quoted) (delimited_cons (by decide) (by decide)) hend hvalues
      (fun v hv cs hcs => quoted_quotedText (hplain v hv) hcs) hn
    rw [List.map_id'] at hitems
    rw [hitems]
    rfl

/-- **The text of the `INSERT` is faithful** exactly if the name is plain: then, and only then, the server reads one
`INSERT` with the columns and values of `structConvertMap`. -/
theorem insert_reads_iff (m : CPGMatchProfile) : parseInsert (insertText m) = some (insertOf m) ↔ Plain m.name :=
  (reads_iff_values_plain m).trans values_plain_iff

/-- A match whose name has a quote. -/
def quotedMatch : CPGMatchProfile where
  match_type := 1
  start_time := 5000
  increase_blind_time := 60
  operator_time := 10
  entryfee := 100
  init_chips_amount := 1000
  min_players_amount := 2
  max_players_amount := 9
  delay_join_level := 1
  reward_type := 0
  start_condition := 0
  stop_condition := 0
  first_blind_level := 1
  bonusid := 0
  guarantee_person := 0
  name := "queen's cup"

theorem quotedMatch_misread : parseInsert (insertText quotedMatch) ≠ some (insertOf quotedMatch) := by
  rw [ne_eq, reads_iff_values_plain, values_plain_iff]
  decide

end CPGMatchCreateFactory

end AsioUtils.CPG
