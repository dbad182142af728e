import AsioUtils.CPG.MatchCreateFactory
import AsioUtils.CPG.MatchStruct
import AsioUtils.Lib.SqlText

/-!
# Writing fields of a match

Texts for fields under their names: written over a map of texts, and into the rows of `match_infos`.

* `overlay` : the texts over those of a map;
* `rowOf` : the row a map of texts is, if each column can take its text (`FieldText`);
* `execUpdate` : what an `UPDATE` makes of the table;
* `Written` : a match with some fields written, which is one match (`Written.unique`);
* `exists_written` : both ways of writing give it, up to `bankid`.
-/

namespace AsioUtils.CPG

/-- `dict[pair.first] = pair.second` for each pair. -/
def overlay (set : List (String × String)) (dict : Properties) : Properties :=
  set.foldl (fun dict pair => dict.assign pair.1 pair.2) dict

/-- The keys of `structConvertMap`, which are the columns of `match_infos`. -/
def fieldNames : List String :=
  ["mid", "start_time", "total_player_amount", "remained_player_amount", "match_state", "current_blind_level", "entryfee",
    "init_chips_amount", "min_players_amount", "max_players_amount", "operator_time", "increase_blind_time",
    "first_blind_level", "delay_join_level", "stop_condition", "start_condition", "reward_type", "match_type", "bonusid",
    "guarantee_person", "name", "enter_code", "entry_pool", "reward_coin", "finish_condition", "finish_param",
    "match_auto_cancel_second", "bankid", "end_time"]

theorem fieldNames_words : ∀ key ∈ fieldNames, SqlText.IsWord key := by
  have hwords : (fieldNames.all fun key => !key.toList.isEmpty && key.toList.all SqlText.isWord) = true := by decide +kernel
  exact fun key hkey => SqlText.isWord_of_all (List.all_eq_true.mp hwords key hkey)

/-- The table. -/
theorem isWord_table : SqlText.IsWord "match_infos" := SqlText.isWord_of_all (by decide)

/-- The texts of a field: any for the name, numbers of the column's type for the others, below `limit` for `bankid`. -/
def FieldText (limit : Nat) (key text : String) : Prop :=
  if key = "name" then True
  else if key = "bankid" then ∃ n : Nat, n < limit ∧ text = toString n
  else ∃ i : Int, -2147483648 ≤ i ∧ i < 2147483648 ∧ text = toString i

/-! ## Rows -/

/-- A text as a value of an `int` column. -/
def intColumn (dict : Properties) (key : String) : Option Int :=
  (Decimal.int? (textOf dict key).toList).filter fun i => -2147483648 ≤ i ∧ i < 2147483648

/-- A text as a value of the `bankid` column. -/
def bankidColumn (dict : Properties) : Option Nat :=
  (Decimal.nat? (textOf dict "bankid").toList).filter fun n => n < 18446744073709551616

def rowOf (dict : Properties) : Option CPGMatchProfile := do
  let mid ← intColumn dict "mid"
  let start_time ← intColumn dict "start_time"
  let total_player_amount ← intColumn dict "total_player_amount"
  let remained_player_amount ← intColumn dict "remained_player_amount"
  let match_state ← intColumn dict "match_state"
  let current_blind_level ← intColumn dict "current_blind_level"
  let entryfee ← intColumn dict "entryfee"
  let init_chips_amount ← intColumn dict "init_chips_amount"
  let min_players_amount ← intColumn dict "min_players_amount"
  let max_players_amount ← intColumn dict "max_players_amount"
  let operator_time ← intColumn dict "operator_time"
  let increase_blind_time ← intColumn dict "increase_blind_time"
  let first_blind_level ← intColumn dict "first_blind_level"
  let delay_join_level ← intColumn dict "delay_join_level"
  let stop_condition ← intColumn dict "stop_condition"
  let start_condition ← intColumn dict "start_condition"
  let reward_type ← intColumn dict "reward_type"
  let match_type ← intColumn dict "match_type"
  let bonusid ← intColumn dict "bonusid"
  let guarantee_person ← intColumn dict "guarantee_person"
  let enter_code ← intColumn dict "enter_code"
  let entry_pool ← intColumn dict "entry_pool"
  let reward_coin ← intColumn dict "reward_coin"
  let finish_condition ← intColumn dict "finish_condition"
  let finish_param ← intColumn dict "finish_param"
  let match_auto_cancel_second ← intColumn dict "match_auto_cancel_second"
  let bankid ← bankidColumn dict
  let end_time ← intColumn dict "end_time"
  return { mid, start_time, total_player_amount, remained_player_amount, match_state, current_blind_level, entryfee,
           init_chips_amount, min_players_amount, max_players_amount, operator_time, increase_blind_time,
           first_blind_level, delay_join_level, stop_condition, start_condition, reward_type, match_type, bonusid,
           guarantee_person, enter_code, entry_pool, reward_coin, finish_condition, finish_param,
           match_auto_cancel_second, bankid, end_time, name := textOf dict "name" }

/-- The clause of an `UPDATE`. -/
def Selects (u : SqlText.Update) (row : CPGMatchProfile) : Prop := (u.column, toString u.value) ∈ structFields row

instance (u : SqlText.Update) (row : CPGMatchProfile) : Decidable (Selects u row) :=
  inferInstanceAs (Decidable (_ ∈ structFields row))

/-- The row with these texts written, if they are texts of its columns. -/
def writeRow (assignments : List (String × String)) (row : CPGMatchProfile) : Option CPGMatchProfile :=
  if assignments.all fun a => a.1 ∈ fieldNames then rowOf (overlay assignments (structConvertMap row)) else none

/-- The table after an `UPDATE`: the rows of its clause are written, or none if it fails for one of them. -/
def execUpdate (rows : MatchInfos) (u : SqlText.Update) : MatchInfos :=
  let write row := if Selects u row then writeRow u.assignments row else some row
  if u.table = "match_infos" ∧ rows.all fun row => (write row).isSome then rows.filterMap write else rows

/-! ## Texts of a map -/

theorem textOf_assign (dict : Properties) (k v key : String) :
    textOf (dict.assign k v) key = if key = k then v else textOf dict key := by
  rw [textOf, OrderedMap.find?_assign, id]
  split_ifs <;> rfl

theorem textOf_overlay_of_not_mem {set : List (String × String)} {key : String} (h : key ∉ set.map Prod.fst)
    (dict : Properties) : textOf (overlay set dict) key = textOf dict key := by
  induction set generalizing dict with
  | nil => rfl
  | cons e set ih =>
    rw [List.map_cons, List.mem_cons, not_or] at h
    rw [overlay, List.foldl_cons, ← overlay, ih h.2, textOf_assign, if_neg h.1]

theorem textOf_overlay_of_mem {set : List (String × String)} (hnodup : (set.map Prod.fst).Nodup)
    {e : String × String} (h : e ∈ set) (dict : Properties) : textOf (overlay set dict) e.1 = e.2 := by
  induction set generalizing dict with
  | nil => cases h
  | cons e' set ih =>
    obtain ⟨hfirst, hnodup⟩ := List.nodup_cons.mp hnodup
    rw [overlay, List.foldl_cons, ← overlay]
    rcases List.mem_cons.mp h with rfl | h
    · rw [textOf_overlay_of_not_mem hfirst, textOf_assign, if_pos rfl]
    · exact ih hnodup h _

theorem mapConvertStruct_congr {dict dict' : Properties} (h : ∀ key ∈ fieldNames, textOf dict key = textOf dict' key) :
    mapConvertStruct dict = mapConvertStruct dict' := by
  simp (disch := decide) only [mapConvertStruct, atoiOf, h]

/-! ## Rows of texts -/

section Rows

variable {dict : Properties} {m m' row : CPGMatchProfile}

theorem structFields_fst (m : CPGMatchProfile) : (structFields m).map Prod.fst = fieldNames := rfl

/-- The fields by their keys. -/
theorem structFields_eq_map (m : CPGMatchProfile) :
    structFields m = fieldNames.map fun key => (key, textOf (structConvertMap m) key) := by
  have htext : ∀ e ∈ structFields m, (e.1, textOf (structConvertMap m) e.1) = id e := by
    rintro ⟨key, text⟩ he
    rw [textOf_structConvertMap m he, id]
  rw [← structFields_fst m, List.map_map]
  exact (List.map_id _).symm.trans (List.map_congr_left htext).symm

theorem toString_int_injective : Function.Injective (toString : Int → String) := fun i j h => by
  have hi := Decimal.int?_toString i
  rw [h, Decimal.int?_toString] at hi
  exact (Option.some.inj hi).symm

theorem toString_nat_injective : Function.Injective (toString : Nat → String) := fun i j h => by
  have hi := Decimal.nat?_toString i
  rw [h, Decimal.nat?_toString] at hi
  exact (Option.some.inj hi).symm

theorem structFields_injective : Function.Injective structFields := fun m m' h => by
  simp only [structFields, List.cons.injEq, Prod.mk.injEq, true_and, and_true, toString_int_injective.eq_iff,
    toString_nat_injective.eq_iff] at h
  cases m
  cases m'
  dsimp only at h
  obtain ⟨rfl, rfl, rfl, rfl, rfl, rfl, rfl, rfl, rfl, rfl, rfl, rfl, rfl, rfl, rfl, rfl, rfl, rfl, rfl, rfl, rfl, rfl, rfl,
    rfl, rfl, rfl, rfl, rfl, rfl⟩ := h
  rfl

/-- Each field of a match has a text of its own. -/
theorem fieldText_of_mem (hm : m.WellTyped) : ∀ e ∈ structFields m, FieldText 18446744073709551616 e.1 e.2 := by
  have hint : ∀ key i, i ∈ m.ints → key ≠ "name" → key ≠ "bankid" → FieldText 18446744073709551616 key (toString i) := by
    intro key i hi hname hbankid
    rw [FieldText, if_neg hname, if_neg hbankid]
    exact ⟨i, (hm.ints i hi).1, (hm.ints i hi).2, rfl⟩
  have hname : FieldText 18446744073709551616 "name" m.name := by
    rw [FieldText, if_pos rfl]
    trivial
  have hbankid : FieldText 18446744073709551616 "bankid" (toString m.bankid) := by
    rw [FieldText, if_neg (by decide), if_pos rfl]
    exact ⟨m.bankid, hm.bankid, rfl⟩
  simp only [structFields, List.forall_mem_cons]
  and_intros
  all_goals first
    | exact hname
    | exact hbankid
    | exact hint _ _ (by simp [CPGMatchProfile.ints]) (by decide) (by decide)
    | simp

/-- **A map with a text for each column** is a row with these texts. -/
theorem exists_rowOf (h : ∀ key ∈ fieldNames, FieldText 18446744073709551616 key (textOf dict key)) :
    ∃ r, rowOf dict = some r ∧ r.WellTyped ∧ structFields r = fieldNames.map fun key => (key, textOf dict key) := by
  obtain ⟨f, hf⟩ : ∃ f : String → Int, ∀ key ∈ fieldNames, key ≠ "name" → key ≠ "bankid" →
      (-2147483648 ≤ f key ∧ f key < 2147483648) ∧ intColumn dict key = some (f key) ∧ textOf dict key = toString (f key) := by
    refine ⟨fun key => (Decimal.int? (textOf dict key).toList).getD 0, fun key hkey hname hbankid => ?_⟩
    have htext := h key hkey
    rw [FieldText, if_neg hname, if_neg hbankid] at htext
    obtain ⟨i, hmin, hmax, htext⟩ := htext
    dsimp only
    rw [intColumn, htext, Decimal.int?_toString, Option.filter_some, if_pos (decide_eq_true ⟨hmin, hmax⟩)]
    exact ⟨⟨hmin, hmax⟩, rfl, rfl⟩
  obtain ⟨n, hn, hbankid⟩ : ∃ n : Nat, n < 18446744073709551616 ∧ textOf dict "bankid" = toString n := by
    have htext := h "bankid" (by decide)
    rwa [FieldText, if_neg (by decide), if_pos rfl] at htext
  have hbank : bankidColumn dict = some n := by
    rw [bankidColumn, hbankid, Decimal.nat?_toString, Option.filter_some, if_pos (decide_eq_true hn)]
  simp only [fieldNames, List.forall_mem_cons, ne_eq, String.reduceEq, not_true_eq_false, not_false_eq_true,
    forall_const, false_implies, true_and, and_true, List.not_mem_nil] at hf
  have hrow : ∃ r, rowOf dict = some r := by
    simp only [rowOf, hf, hbank, Option.bind_eq_bind, Option.bind_some]
    exact ⟨_, rfl⟩
  obtain ⟨r, hr⟩ := hrow
  have heq := hr
  simp only [rowOf, hf, hbank, Option.bind_eq_bind, Option.bind_some, Option.pure_def, Option.some.injEq] at heq
  subst heq
  refine ⟨_, hr, ⟨?_, hn⟩, ?_⟩
  · simp only [CPGMatchProfile.ints, List.forall_mem_cons, hf, true_and, List.not_mem_nil, false_implies, forall_const]
  · simp only [structFields, fieldNames, List.map_cons, List.map_nil, hf, hbankid]

end Rows

/-! ## Matches with fields written -/

/-- `r` is `m` with these texts for the fields they name. -/
structure Written (m : CPGMatchProfile) (set : List (String × String)) (r : CPGMatchProfile) : Prop where
  taken : ∀ e ∈ set, e ∈ structFields r
  kept : ∀ e ∈ structFields m, e.1 ∉ set.map Prod.fst → e ∈ structFields r

/-- Texts of fields, at most one for each. -/
structure Fields (limit : Nat) (set : List (String × String)) : Prop where
  nodup : (set.map Prod.fst).Nodup
  field : ∀ e ∈ set, e.1 ∈ fieldNames ∧ FieldText limit e.1 e.2

section Written

variable {m r r' : CPGMatchProfile} {set set' : List (String × String)}

theorem eq_of_mem_structFields {key text text' : String} (h : (key, text) ∈ structFields m)
    (h' : (key, text') ∈ structFields m) : text = text' :=
  (textOf_structConvertMap m h).symm.trans (textOf_structConvertMap m h')

/-- The text of a field is the one written, or the one it had. -/
theorem Written.textOf_eq (h : Written m set r) (hset : (set.map Prod.fst).Nodup) {key : String} (hkey : key ∈ fieldNames) :
    textOf (structConvertMap r) key = textOf (overlay set (structConvertMap m)) key := by
  by_cases hin : key ∈ set.map Prod.fst
  · obtain ⟨e, he, rfl⟩ := List.mem_map.mp hin
    rw [textOf_overlay_of_mem hset he]
    exact textOf_structConvertMap r (h.taken e he)
  · rw [← structFields_fst m] at hkey
    obtain ⟨⟨key, text⟩, he, rfl⟩ := List.mem_map.mp hkey
    rw [textOf_overlay_of_not_mem hin, textOf_structConvertMap m he]
    exact textOf_structConvertMap r (h.kept (key, text) he hin)

/-- The texts determine the match. -/
theorem Written.unique (h : Written m set r) (h' : Written m set r') (hset : (set.map Prod.fst).Nodup) : r = r' := by
  apply structFields_injective
  rw [structFields_eq_map, structFields_eq_map]
  refine List.map_congr_left fun key hkey => ?_
  rw [h.textOf_eq hset hkey, h'.textOf_eq hset hkey]

/-- Writing nothing new. -/
theorem Written.self_iff : Written m set m ↔ ∀ e ∈ set, e ∈ structFields m :=
  ⟨fun h => h.taken, fun h => ⟨h, fun _ he _ => he⟩⟩

theorem Written.perm (h : Written m set r) (hperm : set.Perm set') : Written m set' r where
  taken e he := h.taken e (hperm.mem_iff.mpr he)
  kept e he hnot := h.kept e he fun hin => hnot ((hperm.map Prod.fst).mem_iff.mp hin)

theorem mid_mem (m : CPGMatchProfile) : ("mid", toString m.mid) ∈ structFields m := by simp [structFields]

theorem bankid_mem (m : CPGMatchProfile) : ("bankid", toString m.bankid) ∈ structFields m := by simp [structFields]

theorem Written.mid_eq (h : Written m set r) (hmid : ∀ e ∈ set, e.1 ≠ "mid") : r.mid = m.mid := by
  have hnot : "mid" ∉ set.map Prod.fst := fun hin => by
    obtain ⟨e, he, heq⟩ := List.mem_map.mp hin
    exact hmid e he heq
  exact toString_int_injective (eq_of_mem_structFields (mid_mem r) (h.kept _ (mid_mem m) hnot))

/-- Both ways of writing texts give the match with these texts, up to `bankid`. -/
theorem exists_written (hm : m.WellTyped) (hset : Fields 18446744073709551616 set) :
    ∃ r, rowOf (overlay set (structConvertMap m)) = some r ∧ r.WellTyped ∧ Written m set r ∧
      mapConvertStruct (overlay set (structConvertMap m)) = { r with bankid := bankidOfText r } := by
  have htext : ∀ key ∈ fieldNames, FieldText 18446744073709551616 key (textOf (overlay set (structConvertMap m)) key) := by
    intro key hkey
    by_cases hin : key ∈ set.map Prod.fst
    · obtain ⟨e, he, rfl⟩ := List.mem_map.mp hin
      rw [textOf_overlay_of_mem hset.nodup he]
      exact (hset.field e he).2
    · rw [← structFields_fst m] at hkey
      obtain ⟨⟨key, text⟩, he, rfl⟩ := List.mem_map.mp hkey
      rw [textOf_overlay_of_not_mem hin, textOf_structConvertMap m he]
      exact fieldText_of_mem hm (key, text) he
  obtain ⟨r, hr, htyped, hfields⟩ := exists_rowOf htext
  have hmem : ∀ key ∈ fieldNames, (key, textOf (overlay set (structConvertMap m)) key) ∈ structFields r := by
    intro key hkey
    rw [hfields]
    exact List.mem_map_of_mem hkey
  refine ⟨r, hr, htyped, ⟨?_, ?_⟩, ?_⟩
  · intro e he
    have hin := hmem e.1 (hset.field e he).1
    rwa [textOf_overlay_of_mem hset.nodup he] at hin
  · rintro ⟨key, text⟩ he hnot
    have hkey : key ∈ fieldNames := by
      rw [← structFields_fst m]
      exact List.mem_map_of_mem he
    have hin := hmem key hkey
    rwa [textOf_overlay_of_not_mem hnot, textOf_structConvertMap m he] at hin
  · rw [← mapConvertStruct_structConvertMap htyped]
    exact mapConvertStruct_congr fun key hkey => (textOf_structConvertMap r (hmem key hkey)).symm

end Written

/-! ## The table -/

/-- An `UPDATE` of known columns whose rows can all be written. -/
theorem execUpdate_eq {rows : MatchInfos} {u : SqlText.Update} (htable : u.table = "match_infos")
    (hknown : ∀ a ∈ u.assignments, a.1 ∈ fieldNames) {write : CPGMatchProfile → CPGMatchProfile}
    (hwrite : ∀ row ∈ rows, Selects u row → rowOf (overlay u.assignments (structConvertMap row)) = some (write row)) :
    execUpdate rows u = rows.map fun row => if Selects u row then write row else row := by
  have hall : (u.assignments.all fun a => a.1 ∈ fieldNames) = true := by simpa using hknown
  have hrow : ∀ row ∈ rows, (if Selects u row then writeRow u.assignments row else some row) =
      some (if Selects u row then write row else row) := by
    intro row hrow
    by_cases hsel : Selects u row
    · rw [if_pos hsel, if_pos hsel, writeRow, if_pos hall, hwrite row hrow hsel]
    · rw [if_neg hsel, if_neg hsel]
  have hsome : (rows.all fun row => (if Selects u row then writeRow u.assignments row else some row).isSome) = true :=
    List.all_eq_true.mpr fun row hin => by rw [hrow row hin]; rfl
  rw [execUpdate]
  dsimp only
  rw [if_pos ⟨htable, hsome⟩, List.filterMap_congr hrow, List.filterMap_eq_map']

end AsioUtils.CPG
