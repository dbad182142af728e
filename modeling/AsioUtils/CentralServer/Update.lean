import AsioUtils.CPG.MatchRow
import AsioUtils.CentralServer.MatchManager

/-!
# Updating a match

`CSMatchManager::updateMatch` writes texts over the fields of a match in memory and sends them to the database thread;
the handler there makes an `UPDATE` of them. The message has a `mid`, which `updateMatch` leaves as it is.

* `updateMatch`, `AsyncDBHandler.updateMatch` : the two sides;
* `Settable` : texts for fields;
* `Agrees` : the row of the match is the match again, and nothing else changed;
* `updateMatch_agrees_iff` : when it is.
-/

namespace AsioUtils.CentralServer

open AsioUtils.CPG SqlText

/-- `CPGServer::UpdateMatchRQ` -/
structure UpdateMatchRQ where
  mid : Int := 0
  properties : Properties

namespace CSMatchManager

def updateMatch (s : CSMatchManager) (mid : Int) (properties : Properties) : CSMatchManager × Int × Option UpdateMatchRQ :=
  match getMatch s mid with
  | none => (s, kManager_MatchNotFound, none)
  | some m =>
    let matchproperties := overlay properties.entries (structConvertMap m)
    ({ s with matches_ := s.matches_.modify mid fun _ => mapConvertStruct matchproperties }, kNoneError,
      some { properties })

end CSMatchManager

/-- The text the handler makes, with the properties in some order; the map of the message has none. -/
def AsyncDBHandler.updateText (rq : UpdateMatchRQ) (order : List (String × String)) : String :=
  "UPDATE match_infos SET " ++ ", ".intercalate (order.map fun pro => pro.1 ++ "=" ++ ("'" ++ pro.2 ++ "'")) ++
    " WHERE mid=" ++ toString rq.mid

/-- `CSMatchManager::updateMatch` of the database thread: the table afterwards. -/
def AsyncDBHandler.updateMatch (rows : MatchInfos) (rq : UpdateMatchRQ) (order : List (String × String)) : MatchInfos :=
  match parseUpdate (updateText rq order) with
  | none => rows
  | some u => execUpdate rows u

theorem AsyncDBHandler.updateMatch_of_refused {rows : MatchInfos} {rq : UpdateMatchRQ} {order : List (String × String)}
    (h : parseUpdate (updateText rq order) = none) : updateMatch rows rq order = rows := by
  delta updateMatch
  rw [h]

theorem AsyncDBHandler.updateMatch_of_read {rows : MatchInfos} {rq : UpdateMatchRQ} {order : List (String × String)}
    {u : Update} (h : parseUpdate (updateText rq order) = some u) : updateMatch rows rq order = execUpdate rows u := by
  delta updateMatch
  rw [h]

/-! ## What the server reads -/

/-- Texts for fields other than `mid`: numbers an `int` can hold, and for the name any text without quotes. -/
structure Settable (properties : Properties) : Prop where
  ne_nil : properties.entries ≠ []
  field : ∀ e ∈ properties.entries, e.1 ∈ fieldNames ∧ e.1 ≠ "mid" ∧ FieldText 2147483648 e.1 e.2
  quote : ∀ e ∈ properties.entries, quote ∉ e.2.toList

theorem fieldText_mono {limit limit' : Nat} (hlimit : limit ≤ limit') {key text : String} (h : FieldText limit key text) :
    FieldText limit' key text := by
  unfold FieldText at h ⊢
  split_ifs at h ⊢ with hname hbankid
  · obtain ⟨n, hn, htext⟩ := h
    exact ⟨n, hn.trans_le hlimit, htext⟩
  · exact h

/-- The `UPDATE` of a message. -/
def updateOf (rq : UpdateMatchRQ) (order : List (String × String)) : SqlText.Update where
  table := "match_infos"
  assignments := order
  column := "mid"
  value := rq.mid

theorem updateText_toList (rq : UpdateMatchRQ) (order : List (String × String)) :
    (AsyncDBHandler.updateText rq order).toList = updateChars (updateOf rq order) := by
  have htext : ∀ pro : String × String, (pro.1 ++ "=" ++ ("'" ++ pro.2 ++ "'")).toList = assignmentText pro := fun pro => by
    have hquoted : ("'" ++ pro.2 ++ "'").toList = quotedText pro.2 := by
      rw [String.toList_append, String.toList_append]
      rfl
    have hsign : "=".toList = ['='] := rfl
    rw [String.toList_append, hquoted, String.toList_append, hsign, List.append_assoc, assignmentText]
    rfl
  have hhead : "UPDATE match_infos SET ".toList =
      "UPDATE".toList ++ ' ' :: ("match_infos".toList ++ ' ' :: ("SET".toList ++ [' '])) := by simp
  have hwhere : " WHERE mid=".toList = ' ' :: ("WHERE".toList ++ ' ' :: ("mid".toList ++ "=".toList)) := by simp
  have hcomma : ", ".toList = [',', ' '] := rfl
  delta updateChars
  unfold AsyncDBHandler.updateText updateOf
  simp only [String.toList_append, String.toList_intercalate, List.map_map, Function.comp_def, htext, hhead, hwhere, hcomma,
    List.append_assoc, List.cons_append, List.nil_append]

theorem nodup_keys (properties : Properties) : (properties.entries.map Prod.fst).Nodup :=
  List.pairwise_map.mpr (properties.sorted.imp fun hlt => ne_of_lt hlt)

theorem isWord_mid : IsWord "mid" := isWord_of_all (by decide)

section Read

variable {properties : Properties} (hset : Settable properties) {order : List (String × String)}
  (horder : order.Perm properties.entries)
include hset

/-- All texts but the name are numbers. -/
theorem Settable.number {e : String × String} (he : e ∈ properties.entries) (hname : e.1 ≠ "name") :
    ∃ i : Int, e.2 = toString i := by
  obtain ⟨-, -, htext⟩ := hset.field e he
  rw [FieldText, if_neg hname] at htext
  split_ifs at htext
  · obtain ⟨n, -, htext⟩ := htext
    exact ⟨(n : Int), htext⟩
  · obtain ⟨i, -, -, htext⟩ := htext
    exact ⟨i, htext⟩

include horder

theorem Settable.assignable : ∀ a ∈ order, Assignable a := fun a ha =>
  have hin := horder.mem_iff.mp ha
  ⟨fieldNames_words a.1 (hset.field a hin).1, hset.quote a hin⟩

/-- Closed texts: the server reads an `UPDATE` of what they stand for. -/
theorem parseUpdate_updateText (rq : UpdateMatchRQ) {value : String × String → String}
    (hvalue : ∀ a ∈ order, denoted a.2 = some (value a)) : parseUpdate (AsyncDBHandler.updateText rq order) =
      some (updateOf rq (order.map fun a => (a.1, value a))) := by
  have hne : order ≠ [] := fun hnil => hset.ne_nil (List.nil_perm.mp (hnil ▸ horder))
  have hread := parseUpdate_of_denoted (u := updateOf rq order) isWord_table isWord_mid
    (updateText_toList rq order) (hset.assignable horder) hne hvalue
  rw [hread]
  rfl

/-- An open text: the server refuses. -/
theorem parseUpdate_updateText_of_open (rq : UpdateMatchRQ) (hopen : ∃ a ∈ order, denoted a.2 = none) :
    parseUpdate (AsyncDBHandler.updateText rq order) = none := by
  have hkeys : (order.map Prod.fst).Nodup := (horder.map Prod.fst).nodup_iff.mpr (nodup_keys properties)
  have hnumber : order.Pairwise fun a b => denoted a.2 = none → ∃ i : Int, b.2 = toString i := by
    refine (List.pairwise_map.mp hkeys).imp_of_mem fun {a b} ha hb hne hnone => ?_
    have hname : a.1 = "name" := by
      by_contra hother
      obtain ⟨i, hi⟩ := hset.number (horder.mem_iff.mp ha) hother
      rw [hi, denoted_of_plain (plain_toString i)] at hnone
      cases hnone
    exact hset.number (horder.mem_iff.mp hb) fun heq => hne (hname.trans heq.symm)
  exact parseUpdate_of_open (u := updateOf rq order) isWord_table isWord_mid
    (updateText_toList rq order) (hset.assignable horder) hopen hnumber

end Read

/-! ## The two sides -/

section Sides

variable {s : CSMatchManager} {mid : Int} {m r : CPGMatchProfile} {rows : MatchInfos} {properties : Properties}
  {order : List (String × String)}

theorem Settable.fields (hset : Settable properties) : Fields 18446744073709551616 properties.entries :=
  ⟨nodup_keys properties, fun e he => ⟨(hset.field e he).1, fieldText_mono (by decide) (hset.field e he).2.2⟩⟩

/-- In memory: the match with the texts, up to `bankid`. -/
theorem updateMatch_eq (hget : s.getMatch mid = some m) (hm : m.WellTyped) (hset : Settable properties) :
    ∃ r, r.WellTyped ∧ Written m properties.entries r ∧ s.updateMatch mid properties =
      ({ s with matches_ := s.matches_.modify mid fun _ => { r with bankid := bankidOfText r } }, kNoneError,
        some { properties }) := by
  obtain ⟨r, -, htyped, hwritten, hconvert⟩ := exists_written hm hset.fields
  refine ⟨r, htyped, hwritten, ?_⟩
  rw [CSMatchManager.updateMatch, hget]
  dsimp only
  rw [hconvert]

theorem getMatch_modify (hget : s.getMatch mid = some m) (m' : CPGMatchProfile) :
    ({ s with matches_ := s.matches_.modify mid fun _ => m' } : CSMatchManager).getMatch mid = some m' := by
  obtain ⟨e, he, -⟩ := Option.map_eq_some_iff.mp hget
  rw [CSMatchManager.getMatch]
  dsimp only
  rw [OrderedMap.find?_modify, if_pos rfl, he]
  rfl

theorem mem_properties {key : String} : key ∈ properties ↔ key ∈ properties.entries.map Prod.fst := by
  constructor
  · rintro ⟨e, he, rfl⟩
    exact List.mem_map_of_mem he
  · intro h
    obtain ⟨e, he, rfl⟩ := List.mem_map.mp h
    exact ⟨e, he, rfl⟩

/-- An `int` holds the `bankid` if one is given, or else if it holds the one there is. -/
theorem bankidOfText_written_iff (hset : Settable properties) (hr : r.WellTyped) (h : Written m properties.entries r) :
    bankidOfText r = r.bankid ↔ "bankid" ∈ properties ∨ m.bankid < 2147483648 ∨ m.bankid = 18446744073709551615 := by
  rw [bankidOfText_eq_iff hr]
  by_cases hnamed : "bankid" ∈ properties
  · obtain ⟨⟨key, text⟩, he, rfl⟩ := hnamed
    obtain ⟨-, -, htext⟩ := hset.field ("bankid", text) he
    have hname : "bankid" ≠ "name" := by decide
    rw [FieldText, if_neg hname, if_pos rfl] at htext
    obtain ⟨n, hn, rfl⟩ := htext
    have hbankid : r.bankid = n := toString_nat_injective (eq_of_mem_structFields (bankid_mem r) (h.taken _ he))
    rw [hbankid]
    exact ⟨fun _ => .inl ⟨_, he, rfl⟩, fun _ => .inl hn⟩
  · have hkept := h.kept _ (bankid_mem m) (mem_properties.not.mp hnamed)
    rw [toString_nat_injective (eq_of_mem_structFields (bankid_mem r) hkept)]
    simp only [hnamed, false_or]

/-- In the table, if some text is open: nothing. -/
theorem updateMatch_of_open (hset : Settable properties) (horder : order.Perm properties.entries)
    (hopen : ∃ e ∈ properties.entries, denoted e.2 = none) : AsyncDBHandler.updateMatch rows { properties } order = rows := by
  obtain ⟨e, he, hnone⟩ := hopen
  exact AsyncDBHandler.updateMatch_of_refused
    (parseUpdate_updateText_of_open hset horder _ ⟨e, horder.mem_iff.mpr he, hnone⟩)

theorem selects_iff (rq : UpdateMatchRQ) (row : CPGMatchProfile) : Selects (updateOf rq order) row ↔ row.mid = rq.mid := by
  constructor
  · intro h
    exact toString_int_injective (eq_of_mem_structFields (mid_mem row) h)
  · intro h
    rw [Selects, updateOf, ← h]
    exact mid_mem row

/-- What a closed text is read as is one for the same field. -/
theorem Settable.denoted (hset : Settable properties) {e : String × String} (he : e ∈ properties.entries) {text : String}
    (htext : denoted e.2 = some text) : FieldText 18446744073709551616 e.1 text := by
  by_cases hname : e.1 = "name"
  · rw [FieldText, if_pos hname]
    trivial
  · obtain ⟨i, hi⟩ := hset.number he hname
    rw [hi, denoted_of_plain (plain_toString i), Option.some.injEq] at htext
    rw [← htext, ← hi]
    exact (hset.fields.field e he).2

/-- What closed texts are read as. -/
def readAs (value : String × String → String) (order : List (String × String)) : List (String × String) :=
  order.map fun e => (e.1, value e)

theorem readAs_fields (hset : Settable properties) (horder : order.Perm properties.entries)
    {value : String × String → String} (hvalue : ∀ e ∈ properties.entries, denoted e.2 = some (value e)) :
    Fields 18446744073709551616 (readAs value order) := by
  refine ⟨?_, ?_⟩
  · rw [readAs, List.map_map]
    exact (horder.map Prod.fst).nodup_iff.mpr (nodup_keys properties)
  · intro a ha
    obtain ⟨e, he, rfl⟩ := List.mem_map.mp ha
    have hin := horder.mem_iff.mp he
    exact ⟨(hset.field e hin).1, hset.denoted hin (hvalue e hin)⟩

/-- In the table, if all texts are closed: the rows with `mid` zero, whatever the `mid` of the match. -/
theorem updateMatch_of_denoted (htyped : ∀ row ∈ rows, row.WellTyped) (hset : Settable properties)
    (horder : order.Perm properties.entries) {value : String × String → String}
    (hvalue : ∀ e ∈ properties.entries, denoted e.2 = some (value e)) :
    ∃ write : CPGMatchProfile → CPGMatchProfile,
      (∀ row ∈ rows, Written row (readAs value properties.entries) (write row)) ∧
      AsyncDBHandler.updateMatch rows { properties } order = rows.map fun row => if row.mid = 0 then write row else row := by
  have hfields := readAs_fields hset horder hvalue
  have hexists : ∀ row : CPGMatchProfile, ∃ r, row ∈ rows →
      rowOf (overlay (readAs value order) (structConvertMap row)) = some r ∧ Written row (readAs value order) r := by
    intro row
    by_cases hrow : row ∈ rows
    · obtain ⟨r, hr, -, hwritten, -⟩ := exists_written (htyped row hrow) hfields
      exact ⟨r, fun _ => ⟨hr, hwritten⟩⟩
    · exact ⟨row, fun hin => absurd hin hrow⟩
  choose write hwrite using hexists
  have hperm : (readAs value order).Perm (readAs value properties.entries) := horder.map _
  have hclosed : ∀ a ∈ order, denoted a.2 = some (value a) := fun a ha => hvalue a (horder.mem_iff.mp ha)
  refine ⟨write, fun row hrow => Written.perm (hwrite row hrow).2 hperm, ?_⟩
  rw [AsyncDBHandler.updateMatch_of_read (parseUpdate_updateText hset horder _ hclosed)]
  have hexec := execUpdate_eq (u := updateOf { properties } (readAs value order)) rfl
    (fun a ha => (hfields.field a ha).1) fun row hrow _ => (hwrite row hrow).1
  simp only [selects_iff] at hexec
  exact hexec

end Sides

/-! ## Memory and table -/

/-- The table has one row for each match of `matches_`, equal to it. -/
structure Mirrors (rows : MatchInfos) (s : CSMatchManager) : Prop where
  row : ∀ {mid m}, s.getMatch mid = some m → rows.filter (·.mid = mid) = [m]
  typed : ∀ row ∈ rows, row.WellTyped

/-- After an update of `m`, `s` and `rows'` have the same match again; its other fields and the other rows are as in
`m` and `rows`. -/
def Agrees (properties : Properties) (m : CPGMatchProfile) (rows : MatchInfos) (s : CSMatchManager) (rows' : MatchInfos) :
    Prop :=
  ∃ m', s.getMatch m.mid = some m' ∧ rows'.filter (·.mid = m.mid) = [m'] ∧
    (∀ e ∈ structFields m, e.1 ∉ properties → e ∈ structFields m') ∧
    rows'.filter (·.mid ≠ m.mid) = rows.filter (·.mid ≠ m.mid)

/-- No text says anything new. -/
def SaysNothing (properties : Properties) (m : CPGMatchProfile) : Prop := ∀ e ∈ properties.entries, e ∈ structFields m

/-- Some text, which is the name, is open. -/
def IsOpen (properties : Properties) : Prop := ∃ e ∈ properties.entries, denoted e.2 = none

/-- What the texts are read as says nothing new about the rows with `mid` zero. -/
def SparesZero (properties : Properties) (rows : MatchInfos) : Prop :=
  ∀ row ∈ rows, row.mid = 0 → ∀ e ∈ properties.entries, ∀ text, denoted e.2 = some text → (e.1, text) ∈ structFields row

/-- `bankid` is given, or an `int` holds the one there is. -/
def HoldsBankid (properties : Properties) (m : CPGMatchProfile) : Prop :=
  "bankid" ∈ properties ∨ m.bankid < 2147483648 ∨ m.bankid = 18446744073709551615

/-- For the match with `mid` zero the texts are plain, or refused and nothing new; for another match they say nothing
new, about it and about the rows with `mid` zero. -/
def Harmless (properties : Properties) (m : CPGMatchProfile) (rows : MatchInfos) : Prop :=
  HoldsBankid properties m ∧
    if m.mid = 0 then (∀ e ∈ properties.entries, Plain e.2) ∨ (IsOpen properties ∧ SaysNothing properties m)
    else SaysNothing properties m ∧ (IsOpen properties ∨ SparesZero properties rows)

section Both

variable {s : CSMatchManager} {m r : CPGMatchProfile} {rows rows' : MatchInfos} {properties : Properties}

/-- With an `int` for `bankid` or not, `Agrees` is about `r`. -/
theorem agrees_iff (hset : Settable properties) (hr : r.WellTyped) (hwritten : Written m properties.entries r)
    (hget : s.getMatch m.mid = some { r with bankid := bankidOfText r }) : Agrees properties m rows s rows' ↔
      HoldsBankid properties m ∧ rows'.filter (·.mid = m.mid) = [r] ∧
        rows'.filter (·.mid ≠ m.mid) = rows.filter (·.mid ≠ m.mid) := by
  rw [HoldsBankid, ← bankidOfText_written_iff hset hr hwritten, Agrees, hget]
  constructor
  · rintro ⟨m', heq, hrow, hkept, hothers⟩
    obtain rfl := Option.some.inj heq
    have hbankid : bankidOfText r = r.bankid := by
      by_cases hnamed : "bankid" ∈ properties
      · exact (bankidOfText_written_iff hset hr hwritten).mpr (.inl hnamed)
      · have hmem := hkept _ (bankid_mem m) hnamed
        have hmem' := hwritten.kept _ (bankid_mem m) (mem_properties.not.mp hnamed)
        have hnew := toString_nat_injective (eq_of_mem_structFields (bankid_mem _) hmem)
        have hold := toString_nat_injective (eq_of_mem_structFields (bankid_mem r) hmem')
        exact hnew.trans hold.symm
    rw [hbankid] at hrow
    exact ⟨hbankid, hrow, hothers⟩
  · rintro ⟨hbankid, hrow, hothers⟩
    rw [hbankid]
    exact ⟨r, rfl, hrow, fun e he hnot => hwritten.kept e he (mem_properties.not.mp hnot), hothers⟩

theorem filter_map_of_mid {f : CPGMatchProfile → CPGMatchProfile} (hf : ∀ row ∈ rows, (f row).mid = row.mid)
    (p : Int → Bool) : (rows.map f).filter (fun row => p row.mid) = (rows.filter fun row => p row.mid).map f := by
  rw [List.filter_map]
  congr 1
  exact List.filter_congr fun row hrow => by rw [Function.comp_apply, hf row hrow]

/-- Rows that were written are as they were exactly if all were. -/
theorem map_eq_self_iff {f : CPGMatchProfile → CPGMatchProfile} : rows.map f = rows ↔ ∀ row ∈ rows, f row = row := by
  constructor
  · intro h row hrow
    exact List.map_inj_left.mp (h.trans (List.map_id rows).symm) row hrow
  · intro h
    exact (List.map_congr_left h).trans (List.map_id rows)

theorem saysNothing_iff (hwritten : Written m properties.entries r) : m = r ↔ SaysNothing properties m := by
  rw [SaysNothing, ← Written.self_iff]
  constructor
  · rintro rfl
    exact hwritten
  · exact fun h => h.unique hwritten (nodup_keys properties)

theorem not_plain_of_open (h : IsOpen properties) : ¬∀ e ∈ properties.entries, Plain e.2 := by
  obtain ⟨e, he, hnone⟩ := h
  intro hplain
  rw [denoted_of_plain (hplain e he)] at hnone
  cases hnone

section Read

variable {value : String × String → String} (hset : Settable properties)
  (hvalue : ∀ e ∈ properties.entries, denoted e.2 = some (value e))
include hset hvalue

/-- Texts are written as they are exactly if they are plain. -/
theorem written_as_is_iff {r' : CPGMatchProfile} (hwritten : Written m properties.entries r)
    (hread : Written m (readAs value properties.entries) r') : r' = r ↔ ∀ e ∈ properties.entries, Plain e.2 := by
  constructor
  · rintro rfl e he
    have hmem : (e.1, value e) ∈ readAs value properties.entries := List.mem_map_of_mem he
    have htext : value e = e.2 := eq_of_mem_structFields (hread.taken _ hmem) (hwritten.taken e he)
    exact plain_of_denoted (hset.quote e he) (htext ▸ hvalue e he)
  · intro hplain
    have hsame : readAs value properties.entries = properties.entries := by
      refine (List.map_congr_left fun e he => ?_).trans (List.map_id _)
      have htext := hvalue e he
      rw [denoted_of_plain (hplain e he), Option.some.injEq] at htext
      rw [← htext, id]
    rw [hsame] at hread
    exact hread.unique hwritten (nodup_keys properties)

/-- Rows with `mid` zero that are written are as they were exactly if the texts say nothing new about them. -/
theorem sparesZero_iff {write : CPGMatchProfile → CPGMatchProfile}
    (hwrite : ∀ row ∈ rows, Written row (readAs value properties.entries) (write row)) :
    (∀ row ∈ rows, row.mid = 0 → write row = row) ↔ SparesZero properties rows := by
  have hnodup : ((readAs value properties.entries).map Prod.fst).Nodup :=
    (readAs_fields hset (List.Perm.refl _) hvalue).nodup
  have hrow : ∀ row ∈ rows, (write row = row ↔
      ∀ e ∈ properties.entries, ∀ text, denoted e.2 = some text → (e.1, text) ∈ structFields row) := by
    intro row hrow
    constructor
    · intro heq e he text htext
      have hwritten := hwrite row hrow
      rw [heq] at hwritten
      obtain rfl : value e = text := Option.some.inj ((hvalue e he).symm.trans htext)
      exact hwritten.taken _ (List.mem_map_of_mem (f := fun e => (e.1, value e)) he)
    · intro h
      refine (hwrite row hrow).unique (Written.self_iff.mpr fun a ha => ?_) hnodup
      obtain ⟨e, he, rfl⟩ := List.mem_map.mp ha
      exact h e he _ (hvalue e he)
  exact forall₂_congr fun row hin => imp_congr_right fun _ => hrow row hin

end Read

end Both

variable {s : CSMatchManager} {mid : Int} {m : CPGMatchProfile} {rows : MatchInfos} {properties : Properties}
  {order : List (String × String)}

theorem Mirrors.mem (htable : Mirrors rows s) (hget : s.getMatch mid = some m) : m ∈ rows ∧ m.mid = mid := by
  have hin : m ∈ rows.filter (·.mid = mid) := by
    rw [htable.row hget]
    exact List.mem_singleton_self m
  rwa [List.mem_filter, decide_eq_true_iff] at hin

theorem agrees_iff_harmless (hget : s.getMatch mid = some m) (htable : Mirrors rows s) (hset : Settable properties)
    (horder : order.Perm properties.entries) :
    Agrees properties m rows (s.updateMatch mid properties).1 (AsyncDBHandler.updateMatch rows { properties } order) ↔
      Harmless properties m rows := by
  have hrow := htable.row hget
  obtain ⟨hm, rfl⟩ := htable.mem hget
  obtain ⟨r, hr, hwritten, hupdate⟩ := updateMatch_eq hget (htable.typed m hm) hset
  rw [hupdate, agrees_iff hset hr hwritten (getMatch_modify hget _), Harmless, ← saysNothing_iff hwritten]
  refine and_congr_right fun _ => ?_
  by_cases hopen : IsOpen properties
  · rw [updateMatch_of_open hset horder hopen, hrow]
    simp only [hopen, not_plain_of_open hopen, List.cons.injEq, and_true, false_or, true_or, true_and, ite_self]
  · obtain ⟨value, hvalue⟩ : ∃ value : String × String → String, ∀ e ∈ properties.entries, denoted e.2 = some (value e) := by
      refine ⟨fun e => (denoted e.2).getD "", fun e he => ?_⟩
      obtain ⟨text, htext⟩ := Option.ne_none_iff_exists'.mp fun hnone => hopen ⟨e, he, hnone⟩
      dsimp only
      rw [htext, Option.getD_some]
    obtain ⟨write, hwrite, hrows⟩ := updateMatch_of_denoted htable.typed hset horder hvalue
    have hkeep : ∀ row ∈ rows, (if row.mid = 0 then write row else row).mid = row.mid := by
      intro row hin
      split_ifs
      · refine (hwrite row hin).mid_eq fun a ha => ?_
        obtain ⟨e, he, rfl⟩ := List.mem_map.mp ha
        exact (hset.field e he).2.1
      · rfl
    rw [hrows, filter_map_of_mid hkeep fun k => k = m.mid, filter_map_of_mid hkeep fun k => k ≠ m.mid, hrow, map_eq_self_iff,
      List.map_singleton]
    simp only [hopen, false_and, or_false, false_or, List.cons.injEq, and_true, List.mem_filter, decide_eq_true_iff]
    by_cases hzero : m.mid = 0
    · have hothers : ∀ row, row ∈ rows ∧ row.mid ≠ m.mid → (if row.mid = 0 then write row else row) = row :=
        fun row h => if_neg (hzero ▸ h.2)
      rw [if_pos hzero, if_pos hzero, written_as_is_iff hset hvalue hwritten (hwrite m hm)]
      exact and_iff_left hothers
    · rw [if_neg hzero, if_neg hzero, ← sparesZero_iff hset hvalue hwrite]
      refine and_congr_right fun _ => ⟨fun h row hin hz => ?_, fun h row hin => ?_⟩
      · have hwritten := h row ⟨hin, fun heq => hzero (heq.symm.trans hz)⟩
        rwa [if_pos hz] at hwritten
      · split_ifs with hz
        · exact h row hin.1 hz
        · rfl

/-- **Memory and table agree** after an update exactly if it is harmless. -/
theorem updateMatch_agrees (hget : s.getMatch mid = some m) (htable : Mirrors rows s) (hset : Settable properties)
    (horder : order.Perm properties.entries) : ∃ s' rq, s.updateMatch mid properties = (s', kNoneError, some rq) ∧
      (Agrees properties m rows s' (AsyncDBHandler.updateMatch rows rq order) ↔ Harmless properties m rows) := by
  have hagrees := agrees_iff_harmless hget htable hset horder
  obtain ⟨r, -, -, hupdate⟩ := updateMatch_eq hget (htable.typed m (htable.mem hget).1) hset
  rw [hupdate] at hagrees
  exact ⟨_, _, hupdate, hagrees⟩

/-- A manager with one match, whose fee is to be doubled. -/
def oneMatch : CSMatchManager := .initialized 0 (sampleMatches [5])

def feeUpdate : Properties := OrderedMap.empty.assign "entryfee" "200"

theorem oneMatch_mirrors : Mirrors [sampleMatch 5] oneMatch := by
  refine ⟨fun {mid m} hget => ?_, by decide⟩
  obtain ⟨e, he, rfl⟩ := Option.map_eq_some_iff.mp hget
  have hin : e ∈ [((5 : Int), sampleMatch 5)] := OrderedMap.mem_of_find? he
  have hmid := OrderedMap.ord_of_find? he
  obtain rfl := List.mem_singleton.mp hin
  obtain rfl : 5 = mid := hmid
  rfl

theorem feeUpdate_settable : Settable feeUpdate := by
  have hfee : FieldText 2147483648 "entryfee" "200" := by
    rw [FieldText, if_neg (by decide), if_neg (by decide)]
    exact ⟨200, by decide, by decide, rfl⟩
  refine ⟨by decide, ?_, ?_⟩
  · rintro e (_ | ⟨_, ⟨⟩⟩)
    exact ⟨by decide, by decide, hfee⟩
  · rintro e (_ | ⟨_, ⟨⟩⟩)
    decide

theorem feeUpdate_agrees_iff : ∃ s' rq, oneMatch.updateMatch 5 feeUpdate = (s', kNoneError, some rq) ∧
    (Agrees feeUpdate (sampleMatch 5) [sampleMatch 5] s' (AsyncDBHandler.updateMatch [sampleMatch 5] rq feeUpdate.entries) ↔
      Harmless feeUpdate (sampleMatch 5) [sampleMatch 5]) :=
  updateMatch_agrees (by rfl) oneMatch_mirrors feeUpdate_settable (List.Perm.refl _)

/-- The row keeps the fee. -/
theorem feeUpdate_lost : oneMatch.getMatch 5 = some (sampleMatch 5) ∧ Mirrors [sampleMatch 5] oneMatch ∧ Settable feeUpdate ∧
    ¬Agrees feeUpdate (sampleMatch 5) [sampleMatch 5] (oneMatch.updateMatch 5 feeUpdate).1
      (AsyncDBHandler.updateMatch [sampleMatch 5] { properties := feeUpdate } feeUpdate.entries) := by
  refine ⟨rfl, oneMatch_mirrors, feeUpdate_settable, ?_⟩
  rw [agrees_iff_harmless (by rfl) oneMatch_mirrors feeUpdate_settable (List.Perm.refl _)]
  rintro ⟨-, hharmless⟩
  rw [if_neg (by decide)] at hharmless
  have hnew : ("entryfee", "200") ∈ structFields (sampleMatch 5) := hharmless.1 _ List.mem_cons_self
  have hold : ("entryfee", "100") ∈ structFields (sampleMatch 5) := by
    simp [structFields, sampleMatch]
    rfl
  exact absurd (eq_of_mem_structFields hnew hold) (by decide)

end AsioUtils.CentralServer
