import AsioUtils.CPG.InsertText
import AsioUtils.CPG.Json
import AsioUtils.CPG.MatchCreateFactory
import Mathlib.Data.List.Infix

/-!
# `CPGMatchCreateFactory::createMatch`, from JSON

A match of the match file is decoded member by member, looked up, inserted, and looked up again for its `mid`. The
database is its answers to these statements.

* `createMatch` : the profile that is returned, or null; `catch (...)` returns what was decoded so far. A number that its
  `int` cannot hold is `undefined`, which counts against the code;
* `selects` : `execQuery` takes a statement with `SELECT` or `select` in it for a query, and an `INSERT` has no result
  set (`selects_insertText` : it does so if the name has one of them);
* `Created.Complete` : decoded without an exception, stored, and with a `mid` of the database;
* `createMatch_complete_iff` : on what JSON and which answers every profile that is returned is complete.
-/

namespace AsioUtils.CPG

open SqlText

namespace CPGMatchCreateFactory

/-- How `execQuery` ends for a `SELECT`: with an error; without a result set, which `mysql_num_fields` reads all the
same; or with a number of rows, and the fields of the first. -/
inductive SelectAnswer
  | error
  | noResult
  | result (totalRows : Int) (fieldsValue : Properties)

/-- `fieldData(name, value)`, for an `int32_t` -/
def fieldData (fieldsValue : Properties) (name : String) (value : Int) : Int :=
  match fieldsValue.find? name with
  | some e => Decimal.atoi e.2
  | none => value

/-- `queryMatchMid`, with this answer. -/
def SelectAnswer.queryMatchMid : SelectAnswer → Option Int
  | error => some INVALID_MID
  | noResult => none
  | result totalRows fieldsValue =>
    some (if totalRows = 1 then fieldData fieldsValue "mid" INVALID_MID else INVALID_MID)

/-- The answers to the lookups and to the `INSERT`, in the order in which they may be asked for. -/
structure Answers where
  first : SelectAnswer
  /-- whether the `INSERT` succeeds -/
  insert : Bool
  second : SelectAnswer
  third : SelectAnswer

/-- `data.find("SELECT") != -1 || data.find("select") != -1` -/
def selects (data : String) : Bool := "SELECT".toList <:+: data.toList || "select".toList <:+: data.toList

/-- The `mid`, and whether the profile was stored. An `INSERT` that succeeds and is taken for a query has no result
set. -/
def Answers.createAndStoreMatch (answers : Answers) (profile : CPGMatchProfile) : Option (Int × Bool) :=
  if answers.insert && selects (insertText profile) then none
  else answers.second.queryMatchMid.map fun mid => (mid, answers.insert)

/-- The pair of the source, and whether the profile was stored. -/
def Answers.checkValidAndStore (answers : Answers) (profile : CPGMatchProfile) : Option ((Bool × Int) × Bool) :=
  answers.first.queryMatchMid.bind fun mid =>
    if mid = INVALID_MID then
      (answers.createAndStoreMatch profile).bind fun r =>
        if r.1 = INVALID_MID then answers.third.queryMatchMid.map fun mid => ((true, mid), r.2)
        else some ((true, r.1), r.2)
    else some ((false, mid), false)

/-- `std::make_shared<CPGMatchProfile>()`: the members without a default are zero. -/
def newProfile : CPGMatchProfile where
  match_type := 0
  start_time := 0
  increase_blind_time := 0
  operator_time := 0
  entryfee := 0
  init_chips_amount := 0
  min_players_amount := 0
  max_players_amount := 0
  delay_join_level := 0
  reward_type := 0
  start_condition := 0
  stop_condition := 0
  first_blind_level := 0
  bonusid := 0
  guarantee_person := 0
  name := ""

section Create

variable (getDateTimeIntFromFormat : String → Int)

/-- The assignments of `createMatch`. -/
def createFields : List Field :=
  [.text "start_time" fun s m => { m with start_time := castInt (getDateTimeIntFromFormat s) },
    .text "name" fun s m => { m with name := s },
    .int "start_condition" fun i m => { m with start_condition := i },
    .int "min_players_amount" fun i m => { m with min_players_amount := i },
    .int "max_players_amount" fun i m => { m with max_players_amount := i },
    .int "first_blind_level" fun i m => { m with first_blind_level := i },
    .int "entryfee" fun i m => { m with entryfee := i },
    .int "operator_time" fun i m => { m with operator_time := i },
    .int "init_chips_amount" fun i m => { m with init_chips_amount := i },
    .int "increase_blind_time" fun i m => { m with increase_blind_time := i },
    .int "reward_type" fun i m => { m with reward_type := i },
    .int "entry_pool" fun i m => { m with entry_pool := i },
    .int "reward_coin" fun i m => { m with reward_coin := i },
    .int "bonusid" fun i m => { m with bonusid := i },
    .int "guarantee_person" fun i m => { m with guarantee_person := i },
    .int "match_type" fun i m => { m with match_type := i },
    .int "stop_condition" fun i m => { m with stop_condition := i },
    .int "delay_join_level" fun i m => { m with delay_join_level := i },
    .int "finish_condition" fun i m => { m with finish_condition := i },
    .int "finish_param" fun i m => { m with finish_param := i }]

/-- What follows the assignments. -/
def complement (m : CPGMatchProfile) : CPGMatchProfile :=
  { m with
    current_blind_level := m.first_blind_level
    entry_pool := if m.entry_pool = 0 then m.entryfee else m.entry_pool }

/-- A profile that is returned. The last two members are not the code's: the exception its decoding ended with, and
whether an `INSERT` of it has succeeded. -/
structure Created where
  profile : CPGMatchProfile
  fault : Option Json.Fault
  stored : Bool

/-- Decoded without an exception, stored, and with a `mid` that neither is missing nor the default. -/
def Created.Complete (c : Created) : Prop :=
  c.fault = none ∧ c.stored = true ∧ c.profile.mid ≠ INVALID_MID ∧ c.profile.mid ≠ 0

/-- How the code stops without a result. -/
inductive Stop
  /-- nothing is returned: an assertion fails, or a null result is read -/
  | aborts
  /-- a conversion that the language leaves undefined: the code may go on with any profile -/
  | undefined
  deriving DecidableEq, Repr

/-- What is returned for a profile whose members were read. -/
def Answers.stored (answers : Answers) (profile : CPGMatchProfile) : Except Stop (Option Created) :=
  match answers.checkValidAndStore profile with
  | none => .error .aborts
  | some r => .ok (if r.1.1 then some ⟨{ profile with mid := r.1.2 }, none, r.2⟩ else none)

/-- The profile that is returned, or null. -/
def createMatch (json : Json) (answers : Answers) : Except Stop (Option Created) :=
  if json.is_null then .ok none
  else
    let (profile, fault) := readFields json (createFields getDateTimeIntFromFormat) newProfile
    match fault with
    | some .assertion => .error .aborts
    | some .undefined => .error .undefined
    | some (.type_error id what) => .ok (some ⟨profile, some (.type_error id what), false⟩)
    | none => answers.stored (complement profile)

/-- `loadFromFile`, for the values of `matches` and the answers for each. -/
def loadFromFile : List (Json × Answers) → Except Stop (List Created)
  | [] => .ok []
  | (json, answers) :: items => do
    let c ← createMatch getDateTimeIntFromFormat json answers
    let cs ← loadFromFile items
    return c.toList ++ cs

/-- Nothing undefined, and only complete profiles. -/
def OnlyComplete (r : Except Stop (Option Created)) : Prop := r ≠ .error .undefined ∧ ∀ c, r = .ok (some c) → c.Complete

/-! ## The conditions -/

/-- One row, whose `mid` is this number. -/
def SelectAnswer.Reports (answer : SelectAnswer) (mid : Int) : Prop :=
  ∃ fieldsValue e, answer = .result 1 fieldsValue ∧ fieldsValue.find? "mid" = some e ∧ Decimal.atoi e.2 = mid

/-- One row, with a `mid` that is not the one for no match. -/
def SelectAnswer.Finds (answer : SelectAnswer) : Prop := ∃ mid, answer.Reports mid ∧ mid ≠ INVALID_MID

/-- A `SELECT` that is asked has no result set; or the `INSERT` is taken for one. -/
def NullRead (json : Json) (answers : Answers) : Prop :=
  answers.first = .noResult ∨
    (answers.insert = true ∧ ∃ name, json.find? "name" = some (.string name) ∧ selects name = true) ∨
    answers.second = .noResult ∨ (¬ answers.second.Finds ∧ answers.third = .noResult)

/-- The `INSERT` succeeds, and a lookup behind it reports a `mid` of the database. -/
def Stores (answers : Answers) : Prop :=
  answers.insert = true ∧ ∃ mid, mid ≠ INVALID_MID ∧ mid ≠ 0 ∧
    (answers.second.Reports mid ∨ (¬ answers.second.Finds ∧ answers.third.Reports mid))

/-- Null; or an object whose members are read as far as one that is missing; or all are read, and the match is known,
gets stored, or meets a statement whose null result is read. -/
def Sound (json : Json) (answers : Answers) : Prop :=
  json.is_null = true ∨ AbortsIn json (createFields getDateTimeIntFromFormat) ∨
    ((∀ field ∈ createFields getDateTimeIntFromFormat, field.Reads json) ∧
      (answers.first.Finds ∨ NullRead json answers ∨ Stores answers))

end Create

/-! ## The text of the `INSERT` -/

section Text

variable {w : List Char}

/-- A word with something that no number has. -/
theorem not_infix_toString (h : ∃ c ∈ w, c ≠ '-' ∧ c.isDigit = false) (i : Int) : ¬ w <:+: (toString i).toList := by
  obtain ⟨c, hc, hminus, hdigit⟩ := h
  obtain ⟨x, tl, hi, hx, htl⟩ := Decimal.toString_cons i
  intro hin
  have hmem := hin.subset hc
  rw [hi] at hmem
  have heither : c = '-' ∨ c.isDigit = true := by
    rcases List.mem_cons.mp hmem with rfl | hmem
    · exact hx
    · exact .inr (htl c hmem)
  rcases heither with rfl | h
  · exact hminus rfl
  · exact absurd (hdigit.symm.trans h) (by decide)

/-- The words around the columns and values. -/
def frameWords : List String := ["INSERT INTO", "match_infos", "(", ")", "VALUES", ");"]

/-- A word of letters that is in none of the statement's own words is in the text if it is in the name. -/
theorem infix_insertText_iff (m : CPGMatchProfile) (hw : w ≠ []) (hspace : ' ' ∉ w) (hcomma : ',' ∉ w)
    (hquote : quote ∉ w) (hnumber : ∃ c ∈ w, c ≠ '-' ∧ c.isDigit = false)
    (hown : ∀ text ∈ frameWords ++ fieldNames, ¬ w <:+: text.toList) :
    w <:+: (insertText m).toList ↔ w <:+: m.name.toList := by
  have hnil : ¬ w <:+: [] := fun h => hw (List.infix_nil.mp h)
  have hframe : ∀ text ∈ frameWords, ¬ w <:+: text.toList := fun text htext => hown text (List.mem_append_left _ htext)
  have hcolumns : ¬ w <:+: columnsText m := by
    rw [columnsText, infix_intercalate_iff hcomma hw]
    rintro ⟨l, hl, hin⟩
    obtain ⟨key, hkey, rfl⟩ := List.mem_map.mp hl
    obtain ⟨e, he, rfl⟩ := (mem_columns m).mp hkey
    have hfield : e.1 ∈ fieldNames := structFields_fst m ▸ List.mem_map_of_mem he
    exact hown e.1 (List.mem_append_right _ hfield) hin
  have hvalues : w <:+: valuesText m ↔ w <:+: m.name.toList := by
    rw [valuesText, infix_intercalate_iff hcomma hw]
    constructor
    · rintro ⟨l, hl, hin⟩
      obtain ⟨v, hv, rfl⟩ := List.mem_map.mp hl
      rw [infix_quotedText_iff hquote hw] at hin
      obtain ⟨⟨key, text⟩, he, rfl⟩ := (mem_values m).mp hv
      rcases structFields_number m _ he with rfl | ⟨i, hi⟩
      · rwa [eq_of_mem_structFields he (name_mem m)] at hin
      · dsimp only at hi hin
        rw [hi] at hin
        exact absurd hin (not_infix_toString hnumber i)
    · intro hin
      refine ⟨_, List.mem_map_of_mem ((mem_values m).mpr ⟨_, name_mem m, rfl⟩), ?_⟩
      exact (infix_quotedText_iff hquote hw).mpr hin
  have hlast : ")".toList ++ (";".toList ++ [' ']) = ");".toList ++ ' ' :: [] := by simp
  simp only [frameWords, List.forall_mem_cons] at hframe
  obtain ⟨hinsert, htable, hopen, hclose, hkeyword, hend, -⟩ := hframe
  rw [insertText_toList, hlast]
  simp only [infix_append_cons_iff hspace, infix_cons_iff_of_not_mem hspace hw, hvalues, hinsert, htable, hopen, hclose,
    hkeyword, hend, hcolumns, hnil, or_false, false_or]

theorem selects_iff (data : String) :
    selects data = true ↔ "SELECT".toList <:+: data.toList ∨ "select".toList <:+: data.toList := by
  -- its equation lemma would evaluate the literals
  delta selects
  rw [Bool.or_eq_true, decide_eq_true_iff, decide_eq_true_iff]

/-- The signs that neither word has, and a letter that both have where numbers have none. -/
theorem word_signs {w : List Char} (hw : w ∈ ["SELECT".toList, "select".toList]) :
    w ≠ [] ∧ ' ' ∉ w ∧ ',' ∉ w ∧ '=' ∉ w ∧ quote ∉ w ∧ ∃ c ∈ w, c ≠ '-' ∧ c.isDigit = false := by
  rcases List.mem_pair.mp hw with rfl | rfl
  · exact ⟨by decide, by decide, by decide, by decide, by decide, 'S', by decide⟩
  · exact ⟨by decide, by decide, by decide, by decide, by decide, 's', by decide⟩

/-- Neither word lies in these. -/
theorem not_infix_of_all (texts : List String)
    (h : (["SELECT".toList, "select".toList].all fun w => texts.all fun text => !(w <:+: text.toList : Bool)) = true)
    {w : List Char} (hw : w ∈ ["SELECT".toList, "select".toList]) : ∀ text ∈ texts, ¬ w <:+: text.toList := by
  intro text htext hin
  have hnot := List.all_eq_true.mp (List.all_eq_true.mp h w hw) text htext
  rw [decide_eq_true hin] at hnot
  cases hnot

theorem selects_insertText (m : CPGMatchProfile) : selects (insertText m) = selects m.name := by
  have hwords : ∀ w ∈ ["SELECT".toList, "select".toList], (w <:+: (insertText m).toList ↔ w <:+: m.name.toList) := by
    intro w hw
    obtain ⟨hne, hspace, hcomma, -, hquote, hnumber⟩ := word_signs hw
    exact infix_insertText_iff m hne hspace hcomma hquote hnumber (not_infix_of_all _ (by decide +kernel) hw)
  have hboth := or_congr (hwords "SELECT".toList List.mem_cons_self) (hwords "select".toList (by simp))
  exact Bool.eq_iff_iff.mpr ((selects_iff _).trans (hboth.trans (selects_iff _).symm))

end Text

/-! ## The lookups -/

section Lookups

variable {answer : SelectAnswer} {answers : Answers} {mid : Int}

theorem queryMatchMid_eq_none_iff : answer.queryMatchMid = none ↔ answer = .noResult := by
  cases answer <;> simp [SelectAnswer.queryMatchMid]

theorem reports_iff (hmid : mid ≠ INVALID_MID) : answer.Reports mid ↔ answer.queryMatchMid = some mid := by
  constructor
  · rintro ⟨fieldsValue, e, rfl, hfind, rfl⟩
    simp [SelectAnswer.queryMatchMid, fieldData, hfind]
  · intro h
    cases answer with
    | error => exact absurd (Option.some.inj h).symm hmid
    | noResult => cases h
    | result totalRows fieldsValue =>
      have hreport := Option.some.inj h
      split_ifs at hreport with hone
      · subst hone
        cases hfind : fieldsValue.find? "mid" with
        | none =>
          rw [fieldData, hfind] at hreport
          exact absurd hreport.symm hmid
        | some e =>
          rw [fieldData, hfind] at hreport
          exact ⟨fieldsValue, e, rfl, hfind, hreport⟩
      · exact absurd hreport.symm hmid

theorem finds_iff : answer.Finds ↔ ∃ mid, mid ≠ INVALID_MID ∧ answer.queryMatchMid = some mid := by
  refine exists_congr fun mid => ?_
  rw [and_comm]
  exact and_congr_right reports_iff

/-- The `mid` that the lookups behind the `INSERT` come to. -/
def Answers.laterMid (answers : Answers) : Option Int :=
  answers.second.queryMatchMid.bind fun mid =>
    if mid = INVALID_MID then answers.third.queryMatchMid else some mid

theorem laterMid_eq_none_iff :
    answers.laterMid = none ↔ answers.second = .noResult ∨ (¬ answers.second.Finds ∧ answers.third = .noResult) := by
  rw [← queryMatchMid_eq_none_iff, ← queryMatchMid_eq_none_iff, finds_iff, Answers.laterMid]
  cases hsecond : answers.second.queryMatchMid with
  | none => simp
  | some mid => by_cases hmid : mid = INVALID_MID <;> simp [hmid]

theorem laterMid_eq_iff {mid' : Int} (h : answers.laterMid = some mid') (hmid : mid ≠ INVALID_MID) : mid' = mid ↔
    answers.second.Reports mid ∨ (¬ answers.second.Finds ∧ answers.third.Reports mid) := by
  rw [reports_iff hmid, reports_iff hmid, finds_iff]
  rw [Answers.laterMid] at h
  cases hsecond : answers.second.queryMatchMid with
  | none =>
    rw [hsecond] at h
    cases h
  | some i =>
    rw [hsecond, Option.bind_some] at h
    split_ifs at h with hi
    · simp [hi, h, Ne.symm hmid]
    · obtain rfl := Option.some.inj h
      simp [hi]

/-- A match that is not known: the `INSERT`, and the lookups behind it. -/
theorem checkValidAndStore_of_unknown (h : answers.first.queryMatchMid = some INVALID_MID) (profile : CPGMatchProfile) :
    answers.checkValidAndStore profile =
      if answers.insert && selects profile.name then none
      else answers.laterMid.map fun mid => ((true, mid), answers.insert) := by
  rw [Answers.checkValidAndStore, h, Option.bind_some, if_pos rfl, Answers.createAndStoreMatch, selects_insertText]
  split_ifs
  · rfl
  · rw [Answers.laterMid]
    cases hsecond : answers.second.queryMatchMid with
    | none => rfl
    | some mid => by_cases hmid : mid = INVALID_MID <;> simp [hmid]

/-- What is returned for a match whose members were read. -/
theorem complete_iff_of_read (profile : CPGMatchProfile) :
    OnlyComplete (answers.stored profile) ↔
      answers.first.Finds ∨ (answers.first = .noResult ∨ (answers.insert = true ∧ selects profile.name = true) ∨
        answers.second = .noResult ∨ (¬ answers.second.Finds ∧ answers.third = .noResult)) ∨ Stores answers := by
  rw [← laterMid_eq_none_iff, ← queryMatchMid_eq_none_iff, finds_iff, OnlyComplete, Answers.stored]
  cases hfirst : answers.first.queryMatchMid with
  | none => simp [Answers.checkValidAndStore, hfirst]
  | some mid =>
    by_cases hknown : mid = INVALID_MID
    · subst hknown
      rw [checkValidAndStore_of_unknown hfirst]
      by_cases htaken : (answers.insert && selects profile.name) = true
      · rw [if_pos htaken]
        simp [Bool.and_eq_true_iff.mp htaken]
      · rw [if_neg htaken]
        rw [Bool.and_eq_true_iff] at htaken
        cases hlater : answers.laterMid with
        | none => simp
        | some i =>
          have hstores : Stores answers ↔ answers.insert = true ∧ i ≠ INVALID_MID ∧ i ≠ 0 := by
            refine and_congr_right fun _ => ⟨?_, ?_⟩
            · rintro ⟨mid, hmid, hzero, hreports⟩
              obtain rfl := (laterMid_eq_iff hlater hmid).mpr hreports
              exact ⟨hmid, hzero⟩
            · rintro ⟨hmid, hzero⟩
              exact ⟨i, hmid, hzero, (laterMid_eq_iff hlater hmid).mp rfl⟩
          rw [hstores]
          simp [htaken, Created.Complete]
    · have hchecked : answers.checkValidAndStore profile = some ((false, mid), false) := by
        rw [Answers.checkValidAndStore, hfirst, Option.bind_some, if_neg hknown]
      rw [hchecked]
      simp [hknown]

end Lookups

/-! ## The members that are read -/

section Members

/-- An `int` member that is not the name. -/
theorem assign_int_name {key : String} {set : Int → CPGMatchProfile → CPGMatchProfile}
    (hset : ∀ i m, (set i m).name = m.name) {j : Json} {m m' : CPGMatchProfile}
    (h : (Field.int key set).assign j m = .ok m') : m'.name = m.name := by
  have hrequired : (Field.int key set).optional = false := rfl
  rcases Field.assign_cases hrequired (Field.int_converts key set) j m with ⟨-, v, set', hread, hassign⟩ | ⟨-, -, hassign⟩ |
    ⟨-, -, fault, -, hassign⟩
  · have hm' := Except.ok.inj (h.symm.trans hassign)
    cases hint : v.getInt with
    | error fault =>
      have hfail : (Field.int key set).read v = .error fault := congrArg (Except.map set) hint
      cases hread.symm.trans hfail
    | ok i =>
      have hok : (Field.int key set).read v = .ok (set i) := congrArg (Except.map set) hint
      rw [hm', Except.ok.inj (hread.symm.trans hok), hset]
  · cases h.symm.trans hassign
  · cases h.symm.trans hassign

/-- `int` members that are not the name. -/
theorem readFields_ints_name {j : Json} {fields : List Field}
    (hints : ∀ field ∈ fields, ∃ key set, field = .int key set ∧ ∀ i m, (set i m).name = m.name) (m : CPGMatchProfile) :
    (readFields j fields m).1.name = m.name := by
  induction fields generalizing m with
  | nil => rfl
  | cons field fields ih =>
    obtain ⟨⟨key, set, rfl, hset⟩, hrest⟩ := List.forall_mem_cons.mp hints
    cases hassign : (Field.int key set).assign j m with
    | ok m' =>
      rw [readFields_cons hassign, ih hrest]
      exact assign_int_name hset hassign
    | error fault => rw [readFields, hassign]

variable (f : String → Int)

theorem createFields_required : ∀ field ∈ createFields f, field.optional = false := by
  simp [createFields, Field.int, Field.text]

theorem createFields_converts : ∀ field ∈ createFields f, field.Converts := by
  simp only [createFields, List.forall_mem_cons]
  and_intros
  all_goals first | exact Field.int_converts _ _ | exact Field.text_converts _ _ | simp

/-- When all members are read, the name is that of the object. -/
theorem readFields_createFields_name {json : Json} (h : ∀ field ∈ createFields f, field.Reads json) :
    ∃ name, json.find? "name" = some (.string name) ∧
      (readFields json (createFields f) newProfile).1.name = name := by
  rw [createFields, List.forall_mem_cons, List.forall_mem_cons] at h
  obtain ⟨⟨v, set, hstart, hset⟩, ⟨v', set', hname, hset'⟩, -⟩ := h
  obtain ⟨name, rfl, rfl⟩ : ∃ name, v' = .string name ∧ set' = fun m => { m with name := name } := by
    cases v' with
    | string name => exact ⟨name, rfl, (Except.ok.inj hset').symm⟩
    | _ => cases hset'
  refine ⟨name, hname, ?_⟩
  rw [createFields, readFields_cons (Field.assign_ok hstart hset _), readFields_cons (Field.assign_ok hname hset' _),
    readFields_ints_name]
  simp only [List.forall_mem_cons]
  and_intros
  all_goals first | exact ⟨_, _, rfl, fun _ _ => rfl⟩ | simp

end Members

/-- Every profile that comes back is complete exactly when the JSON and the answers are sound. -/
theorem complete_iff_sound (f : String → Int) (json : Json) (answers : Answers) :
    OnlyComplete (createMatch f json answers) ↔ Sound f json answers := by
  by_cases hnull : json.is_null = true
  · simp [createMatch, Sound, OnlyComplete, hnull]
  · rw [createMatch, if_neg hnull, Sound, or_iff_right hnull]
    have hcases := @readFields_cases json _ (createFields_required f) (createFields_converts f) newProfile
    have hname : (∀ field ∈ createFields f, field.Reads json) → ∃ name, json.find? "name" = some (.string name) ∧
        (complement (readFields json (createFields f) newProfile).1).name = name := readFields_createFields_name f
    obtain ⟨⟨profile, fault⟩, hread⟩ : ∃ r, readFields json (createFields f) newProfile = r := ⟨_, rfl⟩
    rw [hread] at hcases hname ⊢
    dsimp only at hcases hname ⊢
    rcases hcases with ⟨hreads, rfl⟩ | ⟨hnot, habort, rfl⟩ | ⟨hnot, hno, fault, hfault, rfl⟩
    · obtain ⟨name, hfind, hname⟩ := hname hreads
      have hnullRead : NullRead json answers ↔ answers.first = .noResult ∨
          (answers.insert = true ∧ selects (complement profile).name = true) ∨
          answers.second = .noResult ∨ (¬ answers.second.Finds ∧ answers.third = .noResult) := by
        simp [NullRead, hfind, hname]
      rw [or_iff_right (not_abortsIn hreads), and_iff_right hreads, hnullRead]
      exact complete_iff_of_read _
    · simp [habort, OnlyComplete]
    · cases fault with
      | assertion => exact absurd rfl hfault
      | undefined => simp [hnot, hno, OnlyComplete]
      | type_error id what => simp [hnot, hno, OnlyComplete, Created.Complete]

/-- Items that are sound. -/
theorem loadFromFile_complete {f : String → Int} {items : List (Json × Answers)}
    (hsound : ∀ item ∈ items, Sound f item.1 item.2) :
    loadFromFile f items ≠ .error .undefined ∧ ∀ cs, loadFromFile f items = .ok cs → ∀ c ∈ cs, c.Complete := by
  induction items with
  | nil =>
    refine ⟨by simp [loadFromFile], fun cs h => ?_⟩
    obtain rfl := Except.ok.inj h
    simp
  | cons item items ih =>
    obtain ⟨hfirst, hrest⟩ := List.forall_mem_cons.mp hsound
    obtain ⟨json, answers⟩ := item
    obtain ⟨hdefined, hcomplete⟩ := (complete_iff_sound f json answers).mpr hfirst
    obtain ⟨hdefinedRest, hcompleteRest⟩ := ih hrest
    rw [loadFromFile]
    cases hr : createMatch f json answers with
    | error stop =>
      refine ⟨fun h => hdefined (hr.trans ?_), fun cs h => by cases h⟩
      exact congrArg Except.error (Except.error.inj h)
    | ok r =>
      cases hcs' : loadFromFile f items with
      | error stop =>
        refine ⟨fun h => hdefinedRest (hcs'.trans ?_), (fun cs h => by cases h)⟩
        exact congrArg Except.error (Except.error.inj h)
      | ok cs' =>
        refine ⟨(fun h => by cases h), fun cs h c hc => ?_⟩
        obtain rfl := Except.ok.inj h
        rcases List.mem_append.mp hc with hc | hc
        · exact hcomplete c (hr.trans (congrArg Except.ok (Option.mem_toList.mp hc)))
        · exact hcompleteRest cs' hcs' c hc

/-- **Every profile that comes from JSON is complete** exactly when the JSON and the answers are sound; from a file of
such items no other is loaded. -/
theorem createMatch_complete_iff (f : String → Int) :
    (∀ json answers, OnlyComplete (createMatch f json answers) ↔ Sound f json answers) ∧
      ∀ items : List (Json × Answers), (∀ item ∈ items, Sound f item.1 item.2) →
        loadFromFile f items ≠ .error .undefined ∧ ∀ cs, loadFromFile f items = .ok cs → ∀ c ∈ cs, c.Complete :=
  ⟨complete_iff_sound f, fun _ hsound => loadFromFile_complete hsound⟩

/-- A match whose name is a number: what was decoded before it is returned. -/
theorem createMatch_halfBuilt : ¬ ∀ f json answers c, createMatch f json answers = .ok (some c) → c.Complete := by
  intro h
  have hreturned : createMatch (fun _ => 5000) (.object [("start_time", .string "2018-12-01 20:00:00"),
      ("name", .number_unsigned 7)]) ⟨.error, false, .error, .error⟩ =
      .ok (some ⟨{ newProfile with start_time := 5000 },
        some (.type_error 302 "type must be string, but is number"), false⟩) := rfl
  cases (h _ _ _ _ hreturned).1

end CPGMatchCreateFactory

end AsioUtils.CPG
