import AsioUtils.CPG.CreateFromJson
import AsioUtils.CPG.SQLConnector
import AsioUtils.CentralServer.Update

/-!
# The statements and their results

`execQuery` looks for `SELECT` or `select` anywhere in the text of a statement and, if one is there, reads a result. A text
from a profile or a property map has what it was given in it.

* `MySQL`, `MySQL.Documented` : the database, and what is assumed of `mysql_store_result`;
* `execQuery` : its code, and the calls it makes with the result;
* `Statement`, `Statement.text` : the statements of the program;
* `selects_text` : which of them are taken for queries;
* `execQuery_calls_iff` : when the calls are made with a result only.
-/

namespace AsioUtils.CentralServer

open AsioUtils.CPG CPGMatchCreateFactory SqlText

/-! ## `execQuery` -/

/-- What the client library answers to a text: whether there is a connection (`mysql_`, or after `reConnect`), whether
`mysql_real_query` returns `0`, and what `mysql_store_result` returns then. -/
structure MySQL where
  connected : Bool
  real_query : String → Bool
  store_result : String → Option Result

/-- An `INSERT` and an `UPDATE` have no result; a `SELECT` that succeeded has one. -/
structure MySQL.Documented (db : MySQL) : Prop where
  insert : ∀ data, "INSERT".toList <+: data.toList → db.store_result data = none
  update : ∀ data, "UPDATE".toList <+: data.toList → db.store_result data = none
  select : ∀ data, "SELECT".toList <+: data.toList → db.real_query data = true → db.store_result data ≠ none

/-- A call with `myResult_`. -/
inductive ResultCall
  | mysql_num_fields (myResult_ : Option Result)
  | queryFields (myResult_ : Option Result)
  | mysql_fetch_row (myResult_ : Option Result)

def ResultCall.result : ResultCall → Option Result
  | mysql_num_fields myResult_ => myResult_
  | queryFields myResult_ => myResult_
  | mysql_fetch_row myResult_ => myResult_

/-- What is returned, and the calls with the result; the last of them is the first one in `queryFields`. -/
def execQuery (db : MySQL) (data : String) : Int × List ResultCall :=
  if data.toList.length < 1 then (-1, [])
  else if !db.connected then (-1, [])
  else if !db.real_query data then (-1, [])
  else if selects data then
    let myResult_ := db.store_result data
    (0, [.mysql_num_fields myResult_, .queryFields myResult_, .mysql_fetch_row myResult_])
  else (0, [])

/-! ## The statements -/

inductive Statement
  /-- `createAndStoreMatch` -/
  | insert (profile : CPGMatchProfile)
  /-- the handler of `cancelMatch`, at `now` -/
  | cancel (mid now : Int)
  /-- the handler of `updateMatch`, with the properties in some order -/
  | update (rq : UpdateMatchRQ) (order : List (String × String))
  | queryMatchMid (profile : CPGMatchProfile)
  | loadFromDB (cur : Int)

namespace Statement

def text : Statement → String
  | insert profile => insertText profile
  | cancel mid now =>
    "UPDATE match_infos SET " ++ " end_time=" ++ toString now ++ " , " ++ "match_state" ++ "=" ++ toString (7 : Int) ++
      " WHERE mid=" ++ toString mid
  | update rq order => AsyncDBHandler.updateText rq order
  | queryMatchMid profile =>
    "SELECT mid FROM match_infos WHERE " ++ " start_time=" ++ toString profile.start_time ++ " AND match_type=" ++
      toString profile.match_type ++ " limit 1;"
  | loadFromDB cur =>
    "SELECT * FROM match_infos WHERE " ++ "start_time > " ++ toString cur ++ " AND " ++ " match_state < " ++
      toString (6 : Int) ++ " ;"

/-- A text that the statement was given has one of the two words in it. -/
def given : Statement → Bool
  | insert profile => selects profile.name
  | update _ order => order.any fun pro => selects pro.1 || selects pro.2
  | _ => false

/-- The statement is a query. -/
def isQuery : Statement → Bool
  | queryMatchMid _ => true
  | loadFromDB _ => true
  | _ => false

end Statement

/-! ## Words in the texts -/

section Words

variable {w : List Char}

/-- A word without the signs between two assignments lies in one of them. -/
theorem infix_assignments_iff (hw : w ≠ []) (hcomma : ',' ∉ w) (hspace : ' ' ∉ w) {ls : List (List Char)} :
    w <:+: [',', ' '].intercalate ls ↔ ∃ l ∈ ls, w <:+: l := by
  induction ls with
  | nil => simpa using hw
  | cons l ls ih =>
    by_cases hnil : ls = []
    · subst hnil
      rw [List.intercalate_singleton]
      simp
    · have hsep : l ++ [',', ' '] ++ [',', ' '].intercalate ls = l ++ ',' :: ' ' :: [',', ' '].intercalate ls := by simp
      rw [List.intercalate_cons_of_ne_nil hnil, hsep, infix_append_cons_iff hcomma, infix_cons_iff_of_not_mem hspace hw,
        ih]
      simp only [List.mem_cons, exists_eq_or_imp]

theorem infix_assignmentText_iff (hw : w ≠ []) (hsign : '=' ∉ w) (hquote : quote ∉ w) (pro : String × String) :
    w <:+: assignmentText pro ↔ w <:+: pro.1.toList ∨ w <:+: pro.2.toList := by
  rw [assignmentText, infix_append_cons_iff hsign, infix_quotedText_iff hquote hw]

/-- A word of letters that is in none of the statement's own words is in the `UPDATE` if a key or a value has it. -/
theorem infix_updateText_iff (rq : UpdateMatchRQ) (order : List (String × String)) (hw : w ≠ []) (hspace : ' ' ∉ w)
    (hcomma : ',' ∉ w) (hsign : '=' ∉ w) (hquote : quote ∉ w) (hnumber : ∃ c ∈ w, c ≠ '-' ∧ c.isDigit = false)
    (hown : ∀ text ∈ ["UPDATE", "match_infos", "SET", "WHERE", "mid"], ¬ w <:+: text.toList) :
    w <:+: (AsyncDBHandler.updateText rq order).toList ↔ ∃ pro ∈ order, w <:+: pro.1.toList ∨ w <:+: pro.2.toList := by
  have hequal : "=".toList ++ (toString rq.mid).toList = '=' :: (toString rq.mid).toList := rfl
  simp only [List.forall_mem_cons] at hown
  obtain ⟨hupdate, htable, hset, hwhere, hmid, -⟩ := hown
  rw [updateText_toList]
  delta updateChars updateOf
  dsimp only
  rw [hequal]
  simp only [infix_append_cons_iff hspace, infix_append_cons_iff hsign, infix_assignments_iff hw hcomma hspace, hupdate,
    htable, hset, hwhere, hmid, not_infix_toString hnumber, false_or, or_false, List.mem_map,
    exists_exists_and_eq_and, infix_assignmentText_iff hw hsign hquote]

end Words

/-! ## Which statements are taken for queries -/

theorem selects_updateText (rq : UpdateMatchRQ) (order : List (String × String)) :
    selects (AsyncDBHandler.updateText rq order) = order.any fun pro => selects pro.1 || selects pro.2 := by
  have hwords : ∀ w ∈ ["SELECT".toList, "select".toList], (w <:+: (AsyncDBHandler.updateText rq order).toList ↔
      ∃ pro ∈ order, w <:+: pro.1.toList ∨ w <:+: pro.2.toList) := by
    intro w hw
    obtain ⟨hne, hspace, hcomma, hsign, hquote, hnumber⟩ := word_signs hw
    exact infix_updateText_iff rq order hne hspace hcomma hsign hquote hnumber (not_infix_of_all _ (by decide +kernel) hw)
  refine Bool.eq_iff_iff.mpr ((CPGMatchCreateFactory.selects_iff _).trans ?_)
  rw [hwords _ (by simp), hwords _ (by simp), List.any_eq_true]
  simp only [Bool.or_eq_true, CPGMatchCreateFactory.selects_iff]
  constructor
  · rintro (⟨pro, hpro, h⟩ | ⟨pro, hpro, h⟩)
    · exact ⟨pro, hpro, h.imp .inl .inl⟩
    · exact ⟨pro, hpro, h.imp .inr .inr⟩
  · rintro ⟨pro, hpro, (h | h) | (h | h)⟩
    · exact .inl ⟨pro, hpro, .inl h⟩
    · exact .inr ⟨pro, hpro, .inl h⟩
    · exact .inl ⟨pro, hpro, .inr h⟩
    · exact .inr ⟨pro, hpro, .inr h⟩

theorem selects_cancel (mid now : Int) : selects (Statement.cancel mid now).text = false := by
  have htext : (Statement.cancel mid now).text.toList = "UPDATE".toList ++ ' ' :: ("match_infos".toList ++ ' ' ::
      ("SET".toList ++ ' ' :: ([] ++ ' ' :: ("end_time".toList ++ '=' :: ((toString now).toList ++ ' ' ::
        (",".toList ++ ' ' :: ("match_state".toList ++ '=' :: ((toString (7 : Int)).toList ++ ' ' ::
          ("WHERE".toList ++ ' ' :: ("mid".toList ++ '=' :: (toString mid).toList)))))))))) := by
    have hhead : "UPDATE match_infos SET ".toList =
        "UPDATE".toList ++ ' ' :: ("match_infos".toList ++ ' ' :: ("SET".toList ++ [' '])) := by simp
    have hend : " end_time=".toList = ' ' :: ("end_time".toList ++ ['=']) := by simp
    have hcomma : " , ".toList = ' ' :: (",".toList ++ [' ']) := by simp
    have hsign : "=".toList = ['='] := rfl
    have hwhere : " WHERE mid=".toList = ' ' :: ("WHERE".toList ++ ' ' :: ("mid".toList ++ ['='])) := by simp
    unfold Statement.text
    simp only [String.toList_append, hhead, hend, hcomma, hsign, hwhere, List.append_assoc, List.cons_append,
      List.nil_append]
  refine Bool.eq_false_iff.mpr fun hselects => ?_
  have hnot : ∀ w ∈ ["SELECT".toList, "select".toList], ¬ w <:+: (Statement.cancel mid now).text.toList := by
    intro w hw
    obtain ⟨hne, hspace, -, hsign, -, hnumber⟩ := word_signs hw
    have hown := not_infix_of_all ["UPDATE", "match_infos", "SET", "", "end_time", ",", "match_state", "WHERE", "mid"]
      (by decide +kernel) hw
    simp only [List.forall_mem_cons] at hown
    obtain ⟨h1, h2, h3, h4, h5, h6, h7, h8, h9, -⟩ := hown
    have hnil : ¬ w <:+: [] := fun h => hne (List.infix_nil.mp h)
    rw [htext]
    simp only [infix_append_cons_iff hspace, infix_append_cons_iff hsign, not_infix_toString hnumber, h1, h2, h3, h5, h6,
      h7, h8, h9, hnil, or_false, not_false_eq_true]
  rcases (CPGMatchCreateFactory.selects_iff _).mp hselects with h | h
  · exact hnot _ (by simp) h
  · exact hnot _ (by simp) h

/-- A text that begins with a literal that begins with `k`. -/
theorem prefix_append_right {k : List Char} {a : String} (h : k <+: a.toList) (b : String) : k <+: (a ++ b).toList := by
  rw [String.toList_append]
  exact h.trans (List.prefix_append _ _)

namespace Statement

theorem select_text {st : Statement} (h : st.isQuery = true) : "SELECT".toList <+: st.text.toList := by
  cases st with
  | queryMatchMid profile =>
    have hhead : "SELECT".toList <+: "SELECT mid FROM match_infos WHERE ".toList := by decide +kernel
    unfold text
    iterate 5 apply prefix_append_right
    exact hhead
  | loadFromDB cur =>
    have hhead : "SELECT".toList <+: "SELECT * FROM match_infos WHERE ".toList := by decide +kernel
    unfold text
    iterate 6 apply prefix_append_right
    exact hhead
  | insert profile => cases h
  | cancel mid now => cases h
  | update rq order => cases h

theorem write_text {st : Statement} (h : st.isQuery = false) :
    "INSERT".toList <+: st.text.toList ∨ "UPDATE".toList <+: st.text.toList := by
  cases st with
  | insert profile =>
    have hhead : "INSERT".toList <+: "INSERT INTO".toList := by decide +kernel
    left
    unfold text
    rw [insertText_toList]
    exact hhead.trans (List.prefix_append _ _)
  | cancel mid now =>
    have hhead : "UPDATE".toList <+: "UPDATE match_infos SET ".toList := by decide +kernel
    right
    unfold text
    iterate 8 apply prefix_append_right
    exact hhead
  | update rq order =>
    right
    unfold text
    rw [updateText_toList]
    delta updateChars
    exact List.prefix_append _ _
  | queryMatchMid profile => cases h
  | loadFromDB cur => cases h

/-- **The statements taken for queries** are the queries, and those that were given a text with one of the words. -/
theorem selects_text (st : Statement) : selects st.text = (st.isQuery || st.given) := by
  have hquery : st.isQuery = true → selects st.text = true := fun h =>
    (CPGMatchCreateFactory.selects_iff _).mpr (.inl (select_text h).isInfix)
  cases st with
  | insert profile => exact selects_insertText profile
  | cancel mid now => exact selects_cancel mid now
  | update rq order => exact selects_updateText rq order
  | queryMatchMid profile => exact hquery rfl
  | loadFromDB cur => exact hquery rfl

end Statement

/-! ## The calls with a result -/

theorem Statement.text_ne_nil (st : Statement) : ¬ st.text.toList.length < 1 := by
  have hpos : ∀ k : List Char, 0 < k.length → k <+: st.text.toList → ¬ st.text.toList.length < 1 := by
    intro k hk hprefix
    have := hprefix.length_le
    omega
  cases hquery : st.isQuery with
  | true => exact hpos _ (by decide) (select_text hquery)
  | false =>
    rcases write_text hquery with h | h
    · exact hpos _ (by decide) h
    · exact hpos _ (by decide) h

/-- A statement that is sent and succeeds. -/
theorem execQuery_of_success {db : MySQL} {st : Statement} (hconnected : db.connected = true)
    (hquery : db.real_query st.text = true) :
    (∀ call ∈ (execQuery db st.text).2, call.result ≠ none) ↔
      (selects st.text = true → db.store_result st.text ≠ none) := by
  rw [execQuery, if_neg st.text_ne_nil, hconnected, hquery]
  cases selects st.text <;> simp [ResultCall.result]

/-- Otherwise nothing is called. -/
theorem execQuery_of_failure {db : MySQL} {st : Statement}
    (h : ¬ (db.connected = true ∧ db.real_query st.text = true)) : (execQuery db st.text).2 = [] := by
  rw [execQuery, if_neg st.text_ne_nil]
  cases hconnected : db.connected with
  | false => rfl
  | true =>
    cases hquery : db.real_query st.text with
    | false => rfl
    | true => exact absurd ⟨hconnected, hquery⟩ h

/-- **The result is read only where there is one**, exactly unless an `INSERT` or an `UPDATE` succeeds that was given a
text with `SELECT` or `select` in it. -/
theorem execQuery_calls_iff {db : MySQL} (hdb : db.Documented) (st : Statement) :
    (∀ call ∈ (execQuery db st.text).2, call.result ≠ none) ↔
      ¬ (db.connected = true ∧ db.real_query st.text = true ∧ st.given = true) := by
  by_cases hsuccess : db.connected = true ∧ db.real_query st.text = true
  · rw [execQuery_of_success hsuccess.1 hsuccess.2, st.selects_text]
    simp only [hsuccess.1, hsuccess.2, true_and]
    cases hquery : st.isQuery with
    | true =>
      have hgiven : st.given = false := by cases st <;> first | rfl | cases hquery
      have hresult := hdb.select st.text (Statement.select_text hquery) hsuccess.2
      simp [hgiven, hresult]
    | false =>
      have hnone : db.store_result st.text = none := (Statement.write_text hquery).elim (hdb.insert _) (hdb.update _)
      simp [hnone]
  · rw [execQuery_of_failure hsuccess]
    refine iff_of_true (by simp) fun hall => hsuccess ⟨hall.1, hall.2.1⟩

/-- A database that takes every statement and has no rows. -/
def emptyDB : MySQL where
  connected := true
  real_query := fun _ => true
  store_result := fun data => if "SELECT".toList <+: data.toList then some ⟨["mid"], [], by decide, by simp⟩ else none

theorem emptyDB_documented : emptyDB.Documented := by
  have hother : ∀ {k : List Char} {data : String}, ¬ k <+: "SELECT".toList → ¬ "SELECT".toList <+: k → k <+: data.toList →
      emptyDB.store_result data = none := by
    intro k data h h' hk
    refine if_neg fun hselect => ?_
    rcases List.prefix_or_prefix_of_prefix hk hselect with hk | hk
    · exact h hk
    · exact h' hk
  refine ⟨fun data => hother (by decide +kernel) (by decide +kernel),
    fun data => hother (by decide +kernel) (by decide +kernel), fun data hselect _ => ?_⟩
  show (if "SELECT".toList <+: data.toList then some (_ : Result) else none) ≠ none
  rw [if_pos hselect]
  exact nofun

theorem loadFromDB_calls : (Statement.loadFromDB 5000).given = false ∧
    ∀ call ∈ (execQuery emptyDB (Statement.loadFromDB 5000).text).2, call.result ≠ none :=
  ⟨rfl, (execQuery_calls_iff emptyDB_documented (.loadFromDB 5000)).mpr (by decide)⟩

/-- A match gets the name `selected`. -/
theorem selected_name_read : emptyDB.Documented ∧
    ¬ ∀ call ∈ (execQuery emptyDB (Statement.update { properties := .empty } [("name", "selected")]).text).2,
      call.result ≠ none := by
  refine ⟨emptyDB_documented, ?_⟩
  have hselects : selects (Statement.update { properties := .empty } [("name", "selected")]).text = true := by
    rw [Statement.selects_text]
    decide +kernel
  have hnone : emptyDB.store_result (Statement.update { properties := .empty } [("name", "selected")]).text = none :=
    (Statement.write_text rfl).elim (emptyDB_documented.insert _) (emptyDB_documented.update _)
  rw [execQuery_of_success rfl rfl]
  exact fun h => h hselects hnone

end AsioUtils.CentralServer
