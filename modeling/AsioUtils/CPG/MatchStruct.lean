import AsioUtils.CPG.Define
import AsioUtils.Lib.Decimal
import AsioUtils.Lib.OrderedMap
import Mathlib.Data.String.Basic

/-!
# A match as a map of texts

`CPGMatchStructHelper.cpp`: the form in which a match goes to the database thread and into an `INSERT`.

* `structConvertMap`, `mapConvertStruct` : to the map and back;
* `CPGMatchProfile.WellTyped` : the values the members of the C++ struct can have;
* `mapConvertStruct_structConvertMap` : what comes back; only `bankid`, which goes through an `int`, may change
  (`bankidOfText_eq_iff`), so the way back is exact for the others (`struct_round_trip_iff`).
-/

namespace AsioUtils.CPG

/-- `std::map<std::string, std::string>` -/
abbrev Properties := OrderedMap String String id

/-- The initializer list of `structConvertMap`. -/
def structFields (m : CPGMatchProfile) : List (String × String) :=
  [("mid", toString m.mid),
    ("start_time", toString m.start_time),
    ("total_player_amount", toString m.total_player_amount),
    ("remained_player_amount", toString m.remained_player_amount),
    ("match_state", toString m.match_state),
    ("current_blind_level", toString m.current_blind_level),
    ("entryfee", toString m.entryfee),
    ("init_chips_amount", toString m.init_chips_amount),
    ("min_players_amount", toString m.min_players_amount),
    ("max_players_amount", toString m.max_players_amount),
    ("operator_time", toString m.operator_time),
    ("increase_blind_time", toString m.increase_blind_time),
    ("first_blind_level", toString m.first_blind_level),
    ("delay_join_level", toString m.delay_join_level),
    ("stop_condition", toString m.stop_condition),
    ("start_condition", toString m.start_condition),
    ("reward_type", toString m.reward_type),
    ("match_type", toString m.match_type),
    ("bonusid", toString m.bonusid),
    ("guarantee_person", toString m.guarantee_person),
    ("name", m.name),
    ("enter_code", toString m.enter_code),
    ("entry_pool", toString m.entry_pool),
    ("reward_coin", toString m.reward_coin),
    ("finish_condition", toString m.finish_condition),
    ("finish_param", toString m.finish_param),
    ("match_auto_cancel_second", toString m.match_auto_cancel_second),
    ("bankid", toString m.bankid),
    ("end_time", toString m.end_time)]

def structConvertMap (m : CPGMatchProfile) : Properties := .ofList (structFields m)

/-- `dict[key]`, which is the empty text for a key that is not there. -/
def textOf (dict : Properties) (key : String) : String := ((dict.find? key).map Prod.snd).getD ""

/-- `std::atoi(dict[key].c_str())` -/
def atoiOf (dict : Properties) (key : String) : Int := Decimal.atoi (textOf dict key)

/-- `int` to `unsigned long long` -/
def toUnsignedLongLong (i : Int) : Nat := (i % 18446744073709551616).toNat

def mapConvertStruct (dict : Properties) : CPGMatchProfile where
  mid := atoiOf dict "mid"
  start_time := atoiOf dict "start_time"
  total_player_amount := atoiOf dict "total_player_amount"
  remained_player_amount := atoiOf dict "remained_player_amount"
  match_state := atoiOf dict "match_state"
  current_blind_level := atoiOf dict "current_blind_level"
  entryfee := atoiOf dict "entryfee"
  init_chips_amount := atoiOf dict "init_chips_amount"
  min_players_amount := atoiOf dict "min_players_amount"
  max_players_amount := atoiOf dict "max_players_amount"
  operator_time := atoiOf dict "operator_time"
  increase_blind_time := atoiOf dict "increase_blind_time"
  first_blind_level := atoiOf dict "first_blind_level"
  delay_join_level := atoiOf dict "delay_join_level"
  start_condition := atoiOf dict "start_condition"
  reward_type := atoiOf dict "reward_type"
  match_type := atoiOf dict "match_type"
  bonusid := atoiOf dict "bonusid"
  guarantee_person := atoiOf dict "guarantee_person"
  enter_code := atoiOf dict "enter_code"
  entry_pool := atoiOf dict "entry_pool"
  reward_coin := atoiOf dict "reward_coin"
  finish_condition := atoiOf dict "finish_condition"
  finish_param := atoiOf dict "finish_param"
  match_auto_cancel_second := atoiOf dict "match_auto_cancel_second"
  bankid := toUnsignedLongLong (atoiOf dict "bankid")
  stop_condition := atoiOf dict "stop_condition"
  name := textOf dict "name"
  end_time := atoiOf dict "end_time"

/-! ## The way back -/

/-- The `int` members. -/
def CPGMatchProfile.ints (m : CPGMatchProfile) : List Int :=
  [m.current_blind_level, m.total_player_amount, m.remained_player_amount, m.match_state, m.end_time, m.mid,
    m.match_type, m.enter_code, m.start_time, m.increase_blind_time, m.operator_time, m.entryfee, m.entry_pool,
    m.reward_coin, m.init_chips_amount, m.min_players_amount, m.max_players_amount, m.delay_join_level, m.reward_type,
    m.start_condition, m.stop_condition, m.finish_condition, m.finish_param, m.first_blind_level, m.bonusid,
    m.guarantee_person, m.match_auto_cancel_second]

/-- `int` has 32 bits, `unsigned long long` 64. -/
structure CPGMatchProfile.WellTyped (m : CPGMatchProfile) : Prop where
  ints : ∀ i ∈ m.ints, -2147483648 ≤ i ∧ i < 2147483648
  bankid : m.bankid < 18446744073709551616

instance (m : CPGMatchProfile) : Decidable m.WellTyped :=
  decidable_of_iff (_ ∧ _) ⟨fun h => ⟨h.1, h.2⟩, fun h => ⟨h.ints, h.bankid⟩⟩

theorem structFields_nodup (m : CPGMatchProfile) : ((structFields m).map fun e => id e.1).Nodup := by
  simp only [structFields, List.map, id]
  decide

theorem mem_structConvertMap (m : CPGMatchProfile) {e : String × String} :
    e ∈ (structConvertMap m).entries ↔ e ∈ structFields m := OrderedMap.mem_ofList (structFields_nodup m)

/-- All fields but the name are numbers. -/
theorem structFields_number (m : CPGMatchProfile) :
    ∀ e ∈ structFields m, e.1 = "name" ∨ ∃ i : Int, e.2 = toString i := by
  simp only [structFields, List.forall_mem_cons]
  and_intros
  all_goals first | exact .inr ⟨_, rfl⟩ | exact .inr ⟨(m.bankid : Int), rfl⟩ | exact .inl rfl | simp

theorem textOf_structConvertMap (m : CPGMatchProfile) {key text : String} (h : (key, text) ∈ structFields m) :
    textOf (structConvertMap m) key = text := by
  have hfind : (structConvertMap m).find? key = some (key, text) :=
    OrderedMap.find?_ofList_of_mem (e := (key, text)) (structFields_nodup m) h
  rw [textOf, hfind]
  rfl

theorem atoiOf_structConvertMap {m : CPGMatchProfile} (hm : m.WellTyped) {key : String} {i : Int}
    (h : (key, toString i) ∈ structFields m) (hi : i ∈ m.ints) : atoiOf (structConvertMap m) key = i := by
  obtain ⟨hmin, hmax⟩ := hm.ints i hi
  rw [atoiOf, textOf_structConvertMap m h, Decimal.atoi_toString hmin hmax]

/-- `bankid` after it went through a text and an `int`. -/
def bankidOfText (m : CPGMatchProfile) : Nat := toUnsignedLongLong (Decimal.atoi (toString m.bankid))

theorem bankidOfText_lt (m : CPGMatchProfile) : bankidOfText m < 18446744073709551616 := by
  rw [bankidOfText, toUnsignedLongLong]
  omega

/-- What the message is converted to is a match again. -/
theorem CPGMatchProfile.WellTyped.converted {m : CPGMatchProfile} (hm : m.WellTyped) :
    ({ m with bankid := bankidOfText m } : CPGMatchProfile).WellTyped where
  ints := hm.ints
  bankid := by
    show bankidOfText m < 18446744073709551616
    exact bankidOfText_lt m

/-- An `int` holds the small ones; all from `2^63` on are cut to `LONG_MAX`, which is `-1` as an `int` and so the
greatest of them. -/
theorem bankidOfText_eq_iff {m : CPGMatchProfile} (hm : m.WellTyped) :
    bankidOfText m = m.bankid ↔ m.bankid < 2147483648 ∨ m.bankid = 18446744073709551615 := by
  have hlt := hm.bankid
  rw [bankidOfText, toUnsignedLongLong, Decimal.atoi, Decimal.strtol_toString_nat, Int.bmod_def, Decimal.LONG_MAX]
  omega

/-- **Through the map and back**: `bankid` alone may change. -/
theorem mapConvertStruct_structConvertMap {m : CPGMatchProfile} (hm : m.WellTyped) :
    mapConvertStruct (structConvertMap m) = { m with bankid := bankidOfText m } := by
  have hint : ∀ key i, (key, toString i) ∈ structFields m → i ∈ m.ints → atoiOf (structConvertMap m) key = i :=
    fun _ _ => atoiOf_structConvertMap hm
  have hbankid : toUnsignedLongLong (atoiOf (structConvertMap m) "bankid") = bankidOfText m := by
    have htext : ("bankid", toString m.bankid) ∈ structFields m := by simp [structFields]
    rw [atoiOf, textOf_structConvertMap m htext, bankidOfText]
  have hname : textOf (structConvertMap m) "name" = m.name := textOf_structConvertMap m (by simp [structFields])
  rw [mapConvertStruct, CPGMatchProfile.mk.injEq]
  refine ⟨?_, ?_, ?_, ?_, ?_, ?_, ?_, ?_, ?_, ?_, ?_, ?_, ?_, ?_, ?_, ?_, ?_, ?_, ?_, ?_, ?_, ?_, ?_, ?_, ?_, ?_, ?_,
    hbankid, hname⟩
  all_goals exact hint _ _ (by simp [structFields]) (by simp [CPGMatchProfile.ints])

/-- **The way back, exactly**: the match comes back as it was if and only if its `bankid` is one an `int` can stand
for. -/
theorem struct_round_trip_iff {m : CPGMatchProfile} (hm : m.WellTyped) :
    mapConvertStruct (structConvertMap m) = m ↔ m.bankid < 2147483648 ∨ m.bankid = 18446744073709551615 := by
  rw [mapConvertStruct_structConvertMap hm, ← bankidOfText_eq_iff hm]
  constructor
  · intro h
    exact congrArg CPGMatchProfile.bankid h
  · intro h
    rw [h]

/-- A match of a dealer with this `bankid`. -/
def bankedMatch (bankid : Nat) : CPGMatchProfile where
  match_type := 1
  start_time := 1543000000
  increase_blind_time := 60
  operator_time := 15
  entryfee := 100
  init_chips_amount := 2000
  min_players_amount := 2
  max_players_amount := 6
  delay_join_level := 3
  reward_type := 1
  start_condition := 1
  stop_condition := 1
  first_blind_level := 1
  bonusid := 1
  guarantee_person := 0
  bankid := bankid
  name := "sng"

theorem bankedMatch_wellTyped {bankid : Nat} (h : bankid < 18446744073709551616) : (bankedMatch bankid).WellTyped where
  ints := by
    show ∀ i ∈ (bankedMatch 0).ints, _
    decide
  bankid := h

theorem struct_round_trip_small : mapConvertStruct (structConvertMap (bankedMatch 100000)) = bankedMatch 100000 :=
  (struct_round_trip_iff (bankedMatch_wellTyped (by decide))).mpr (.inl (by decide))

/-- The first `bankid` that an `int` does not hold comes back as another. -/
theorem struct_round_trip_fails :
    ¬ ∀ m : CPGMatchProfile, m.WellTyped → mapConvertStruct (structConvertMap m) = m := by
  intro h
  have hm : (bankedMatch 2147483648).WellTyped := bankedMatch_wellTyped (by decide)
  have hsame := h _ hm
  rw [mapConvertStruct_structConvertMap hm] at hsame
  have hbankid : bankidOfText (bankedMatch 2147483648) = 2147483648 := congrArg CPGMatchProfile.bankid hsame
  have hcases := (bankidOfText_eq_iff hm).mp hbankid
  revert hcases
  decide

end AsioUtils.CPG
