import AsioUtils.CPG.Json

/-!
# A match as a JSON object

`to_json` and `from_json` of `CPGMatchStructHelper.cpp`. `GetDateTimeIntFromFormat`, which is `strptime` and `mktime`, is
a parameter; no exception comes from it.

* `to_json`, `from_json` : to the object and back, over what the target held before;
* `from_json_to_json` : every member comes back.
-/

namespace AsioUtils.CPG

/-- The initializer list of `to_json`. -/
def jsonFields (m : CPGMatchProfile) : List (String × Json) :=
  [("mid", .number_integer m.mid),
    ("start_time", .number_integer m.start_time),
    ("total_player_amount", .number_integer m.total_player_amount),
    ("remained_player_amount", .number_integer m.remained_player_amount),
    ("match_state", .number_integer m.match_state),
    ("current_blind_level", .number_integer m.current_blind_level),
    ("entryfee", .number_integer m.entryfee),
    ("init_chips_amount", .number_integer m.init_chips_amount),
    ("min_players_amount", .number_integer m.min_players_amount),
    ("max_players_amount", .number_integer m.max_players_amount),
    ("operator_time", .number_integer m.operator_time),
    ("increase_blind_time", .number_integer m.increase_blind_time),
    ("first_blind_level", .number_integer m.first_blind_level),
    ("delay_join_level", .number_integer m.delay_join_level),
    ("stop_condition", .number_integer m.stop_condition),
    ("start_condition", .number_integer m.start_condition),
    ("reward_type", .number_integer m.reward_type),
    ("match_type", .number_integer m.match_type),
    ("bonusid", .number_integer m.bonusid),
    ("guarantee_person", .number_integer m.guarantee_person),
    ("name", .string m.name),
    ("enter_code", .number_integer m.enter_code),
    ("entry_pool", .number_integer m.entry_pool),
    ("reward_coin", .number_integer m.reward_coin),
    ("finish_condition", .number_integer m.finish_condition),
    ("finish_param", .number_integer m.finish_param),
    ("match_auto_cancel_second", .number_integer m.match_auto_cancel_second),
    ("bankid", .number_unsigned m.bankid),
    ("end_time", .number_integer m.end_time)]

def to_json (m : CPGMatchProfile) : Json := .object (jsonFields m)

section Decode

variable (getDateTimeIntFromFormat : String → Int)

/-- `start_time` is a number, or else a date. -/
def startTimeField : Field where
  key := "start_time"
  read v :=
    if v.is_number_integer then v.getInt.map fun i m => { m with start_time := i }
    else v.getString.map fun s m => { m with start_time := castInt (getDateTimeIntFromFormat s) }
  optional := true

/-- The assignments of `from_json`. -/
def fromJsonFields : List Field :=
  [.text "name" fun s m => { m with name := s },
    .int "start_condition" fun i m => { m with start_condition := i },
    .int "min_players_amount" fun i m => { m with min_players_amount := i },
    .int "max_players_amount" fun i m => { m with max_players_amount := i },
    .int "first_blind_level" fun i m => { m with first_blind_level := i },
    .int "entryfee" fun i m => { m with entryfee := i },
    .int "operator_time" fun i m => { m with operator_time := i },
    .int "init_chips_amount" fun i m => { m with init_chips_amount := i },
    .int "increase_blind_time" fun i m => { m with increase_blind_time := i },
    .int "reward_type" fun i m => { m with reward_type := i },
    .int "entry_pool" fun i m => { m with entry_pool := i },
    .int "reward_coin" fun i m => { m with reward_coin := i },
    .int "bonusid" fun i m => { m with bonusid := i },
    .int "guarantee_person" fun i m => { m with guarantee_person := i },
    .int "match_type" fun i m => { m with match_type := i },
    .int "stop_condition" fun i m => { m with stop_condition := i },
    .int "delay_join_level" fun i m => { m with delay_join_level := i },
    .int "finish_condition" fun i m => { m with finish_condition := i },
    .int "finish_param" fun i m => { m with finish_param := i },
    .optionalInt "mid" fun i m => { m with mid := i },
    .optionalInt "end_time" fun i m => { m with end_time := i },
    .optionalInt "match_auto_cancel_second" fun i m => { m with match_auto_cancel_second := i },
    { key := "bankid"
      read := fun v => v.getUnsignedLongLong.map fun n m => { m with bankid := n }
      optional := true },
    .optionalInt "current_blind_level" fun i m => { m with current_blind_level := i },
    .optionalInt "total_player_amount" fun i m => { m with total_player_amount := i },
    .optionalInt "remained_player_amount" fun i m => { m with remained_player_amount := i },
    .optionalInt "match_state" fun i m => { m with match_state := i },
    .optionalInt "enter_code" fun i m => { m with enter_code := i },
    startTimeField getDateTimeIntFromFormat]

/-- The target afterwards, and the fault if there was one. -/
def from_json (j : Json) (m : CPGMatchProfile) : CPGMatchProfile × Option Json.Fault :=
  readFields j (fromJsonFields getDateTimeIntFromFormat) m

end Decode

/-! ## The way back -/

theorem jsonFields_nodup (m : CPGMatchProfile) : ((jsonFields m).map fun e => id e.1).Nodup := by
  simp only [jsonFields, List.map, id]
  decide

/-- Every pair of the initializer list is found under its key. -/
theorem find?_to_json {m : CPGMatchProfile} {key : String} {v : Json} (h : (key, v) ∈ jsonFields m) :
    (to_json m).find? key = some v := by
  have hfind : (jsonFields m).find? (fun e => e.1 = key) = some (key, v) :=
    @OrderedMap.list_find?_of_mem _ _ _ _ id _ (jsonFields_nodup m) (key, v) h
  rw [to_json, Json.find?, hfind]
  rfl

/-- A member that the object has is assigned, and the reading goes on. -/
theorem readFields_member {m : CPGMatchProfile} {field : Field} {v : Json}
    {set : CPGMatchProfile → CPGMatchProfile} (hmem : (field.key, v) ∈ jsonFields m) (hread : field.read v = .ok set)
    (fields : List Field) (t : CPGMatchProfile) :
    readFields (to_json m) (field :: fields) t = readFields (to_json m) fields (set t) :=
  readFields_cons (Field.assign_ok (find?_to_json hmem) hread t) fields

section Assign

variable {m : CPGMatchProfile} (hm : m.WellTyped)
include hm

theorem getInt_number_integer {i : Int} (hi : i ∈ m.ints) : (Json.number_integer i).getInt = .ok i := by
  obtain ⟨hmin, hmax⟩ := hm.ints i hi
  show Except.ok (castInt i) = _
  rw [castInt_of_range hmin hmax]

theorem getUnsignedLongLong_number_unsigned :
    (Json.number_unsigned m.bankid).getUnsignedLongLong = .ok m.bankid := by
  have hlt := hm.bankid
  show Except.ok (toUnsignedLongLong m.bankid) = _
  congr 1
  rw [toUnsignedLongLong]
  omega

/-- An `int` member is assigned what it was. -/
theorem readFields_int {field : Field} {set : Int → CPGMatchProfile → CPGMatchProfile}
    (hread : field.read = fun v => v.getInt.map set) {i : Int} (hmem : (field.key, .number_integer i) ∈ jsonFields m)
    (hi : i ∈ m.ints) (fields : List Field) (t : CPGMatchProfile) :
    readFields (to_json m) (field :: fields) t = readFields (to_json m) fields (set i t) := by
  refine readFields_member hmem ?_ fields t
  rw [hread]
  dsimp only
  rw [getInt_number_integer hm hi]
  rfl

theorem bankid_read : (Json.number_unsigned m.bankid).getUnsignedLongLong.map
    (fun n (t : CPGMatchProfile) => { t with bankid := n }) = .ok fun t => { t with bankid := m.bankid } := by
  rw [getUnsignedLongLong_number_unsigned hm]
  rfl

/-- `to_json` writes a number, so `start_time` is not read as a date. -/
theorem startTimeField_read (f : String → Int) : (startTimeField f).read (.number_integer m.start_time) =
    .ok fun t => { t with start_time := m.start_time } := by
  unfold startTimeField
  dsimp only
  have hinteger : (Json.number_integer m.start_time).is_number_integer = true := rfl
  rw [if_pos hinteger, getInt_number_integer hm (by simp [CPGMatchProfile.ints])]
  rfl

end Assign

/-- **Through the object and back**: whatever the target held, it becomes the match, and no access fails. -/
theorem from_json_to_json (f : String → Int) {m : CPGMatchProfile} (hm : m.WellTyped) (t : CPGMatchProfile) :
    from_json f (to_json m) t = (m, none) := by
  unfold from_json fromJsonFields
  rw [readFields_member (v := .string m.name) (by simp [jsonFields, Field.text]) rfl]
  -- the pair of each `int` is looked for in the object's list
  iterate 21 refine (readFields_int hm rfl (by repeat (first | exact .head _ | apply List.Mem.tail))
    (by simp [CPGMatchProfile.ints]) _ _).trans ?_
  rw [readFields_member (v := .number_unsigned m.bankid) (by simp [jsonFields]) (bankid_read hm)]
  iterate 5 refine (readFields_int hm rfl (by repeat (first | exact .head _ | apply List.Mem.tail))
    (by simp [CPGMatchProfile.ints]) _ _).trans ?_
  rw [readFields_member (v := .number_integer m.start_time) (by simp [jsonFields, startTimeField])
    (startTimeField_read hm f)]
  rfl

theorem from_json_to_json_banked : from_json (fun _ => 0) (to_json (bankedMatch 18446744073709551615)) (bankedMatch 1) =
    (bankedMatch 18446744073709551615, none) :=
  from_json_to_json _ (bankedMatch_wellTyped (by decide)) _

end AsioUtils.CPG
