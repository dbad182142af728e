import AsioUtils.CentralServer.Ownership
import AsioUtils.MatchServer.MatchManager

/-!
# The distribution check between a match server and the central server

A match server that reconnects sends the matches it runs (`CheckMatchDistributeRQ`); the central server compares them
with what it gave out and answers (`CheckMatchDistributeRS`). Messages are the records the generated code carries.

* `checkServiceDistMap_result` : which result a comparison has, in terms of how often each match is listed;
* `check_agrees_iff` : when both sides hold the same matches afterwards. The reply carries matches only for
  `ErrorMatchServerMore`, and then those the match server sent, so an answer of `ErrorMatchServerLess` empties the match
  server and one of `ErrorMatchServerMore` leaves it what it had.
-/

namespace AsioUtils

open CPG StdList CentralServer CentralServer.CSMatchManager MatchServer

structure CheckMatchDistributeRQ where
  sid : Int
  type : Int
  mids : List Int

structure CheckMatchDistributeRS where
  sid : Int
  type : Int
  result : Int
  mids : List Int

/-- `M2CSession::checkMatchDistribute`, for a session with this `logicID`. -/
def M2CSession.checkMatchDistribute (logicID : Int) (m : MSMatchManager) : CheckMatchDistributeRQ :=
  { sid := logicID, type := ServerType.MatchServer.toInt, mids := m.matches_ }

/-- `CSKernel::checkMatchDistributeRQ`, for a session with this `logicID` and `type`. -/
def CSKernel.checkMatchDistributeRQ (s : CSMatchManager) (now logicID type : Int) (rq : CheckMatchDistributeRQ) :
    CSMatchManager × CheckMatchDistributeRS :=
  let loaded := CSMatchLoadedEvaluation.evaluate logicID rq.mids
  let service : MatchDisService := ⟨logicID, loaded⟩
  let (s, res, mids) := checkServiceDistMap s now service rq.mids
  (s, { sid := logicID
        type := type
        result := res.toInt
        -- the source tests the same code twice
        mids := if res = .ErrorMatchServerMore ∨ res = .ErrorMatchServerMore then mids else [] })

/-- `MSKernel::checkMatchDistributeRS` -/
def MSKernel.checkMatchDistributeRS (m : MSMatchManager) (rs : CheckMatchDistributeRS) : MSMatchManager :=
  if rs.result = 1 ∨ rs.result = 2 then m.updateMatches rs.mids else m

/-- A whole check: request, comparison, reply. -/
def distributeCheck (s : CSMatchManager) (m : MSMatchManager) (now sid : Int) : CSMatchManager × MSMatchManager :=
  let (s, rs) := CSKernel.checkMatchDistributeRQ s now sid ServerType.MatchServer.toInt
    (M2CSession.checkMatchDistribute sid m)
  (s, MSKernel.checkMatchDistributeRS m rs)

/-- The match server runs exactly the matches the central server has for it. -/
def Agree (s : CSMatchManager) (m : MSMatchManager) (sid : Int) : Prop :=
  ∀ mid, mid ∈ m.matches_ ↔ mid ∈ getDistMatch s.matchServices_ sid

/-! ## The comparison -/

section Compare

variable {s : CSMatchManager} {service : MatchDisService} {e : MatchDisService × List Int}

/-- The three results for a service that is known. -/
theorem checkServiceDistMap_result (h : s.matchServices_.find? service.sid = some e) (now : Int) (mids : List Int) :
    (mids.Perm e.2 ∧ (checkServiceDistMap s now service mids).2.1 = .ErrorNo) ∨
    ((∃ mid, e.2.count mid < mids.count mid) ∧
      (checkServiceDistMap s now service mids).2.1 = .ErrorMatchServerMore) ∨
    ((∀ mid, mids.count mid ≤ e.2.count mid) ∧ (∃ mid, mids.count mid < e.2.count mid) ∧
      (checkServiceDistMap s now service mids).2.1 = .ErrorMatchServerLess) := by
  have hless := setDifference_eq_nil (sort_sorted e.2) (sort_sorted mids)
  have hmore := setDifference_eq_nil (sort_sorted mids) (sort_sorted e.2)
  simp only [(sort_perm _).count_eq] at hless hmore
  have hres : (checkServiceDistMap s now service mids).2.1 =
      if (setDifference (sort mids) (sort e.2)).length > 0 then .ErrorMatchServerMore
      else if (setDifference (sort e.2) (sort mids)).length > 0 then .ErrorMatchServerLess else .ErrorNo := by
    unfold checkServiceDistMap
    simp only [filterValidMatch, h]
    rfl
  by_cases hm : ∀ mid, mids.count mid ≤ e.2.count mid
  · rw [hres, hmore.mpr hm, if_neg (by simp)]
    by_cases hl : ∀ mid, e.2.count mid ≤ mids.count mid
    · refine .inl ⟨List.perm_iff_count.mpr fun mid => le_antisymm (hm mid) (hl mid), ?_⟩
      rw [hless.mpr hl]
      rfl
    · have hne : setDifference (sort e.2) (sort mids) ≠ [] := mt hless.mp hl
      push Not at hl
      exact .inr (.inr ⟨hm, hl, if_pos (List.length_pos_iff.mpr hne)⟩)
  · have hne : setDifference (sort mids) (sort e.2) ≠ [] := mt hmore.mp hm
    push Not at hm
    exact .inr (.inl ⟨hm, hres.trans (if_pos (List.length_pos_iff.mpr hne))⟩)

/-- The caller's list comes back sorted. -/
theorem checkServiceDistMap_mids (h : s.matchServices_.find? service.sid = some e) (now : Int) (mids : List Int) :
    (checkServiceDistMap s now service mids).2.2 = sort mids := by
  unfold checkServiceDistMap
  simp only [filterValidMatch, h]

/-- The stored list is sorted and otherwise stays. -/
theorem mem_getDistMatch_known (h : s.matchServices_.find? service.sid = some e) (now : Int) (mids : List Int)
    (mid : Int) : mid ∈ getDistMatch (checkServiceDistMap s now service mids).1.matchServices_ service.sid ↔
      mid ∈ e.2 := by
  have hfind : (s.matchServices_.modify service.sid sort).find? service.sid = some (e.1, sort e.2) := by
    rw [OrderedMap.find?_modify, if_pos rfl, h]
    rfl
  rw [checkServiceDistMap_known h]
  unfold getDistMatch
  dsimp only
  rw [hfind]
  exact (sort_perm e.2).mem_iff

end Compare

/-- The result for a service that is not known. -/
theorem checkServiceDistMap_unknown_result {s : CSMatchManager} {service : MatchDisService}
    (h : s.matchServices_.find? service.sid = none) (now : Int) (mids : List Int) :
    (checkServiceDistMap s now service mids).2.1 = if mids.length > 0 then .ErrorReconnect else .ErrorNoMatch := by
  unfold checkServiceDistMap
  simp only [filterValidMatch, h]
  by_cases hm : mids.length > 0
  · rw [if_pos hm]
    exact congrArg (fun r : CSMatchManager × CheckError × List Int => r.2.1) (if_pos hm)
  · rw [if_neg hm]
    exact congrArg (fun r : CSMatchManager × CheckError × List Int => r.2.1) (if_neg hm)

/-- A known service: the result read off from how often each match is listed, and what changes. -/
theorem checkServiceDistMap_known_iff {s : CSMatchManager} {service : MatchDisService} {e : MatchDisService × List Int}
    (h : s.matchServices_.find? service.sid = some e) (now : Int) (mids : List Int) :
    ((checkServiceDistMap s now service mids).2.1 = .ErrorNo ↔ mids.Perm e.2) ∧
      ((checkServiceDistMap s now service mids).2.1 = .ErrorMatchServerMore ↔
        ∃ mid, e.2.count mid < mids.count mid) ∧
      ((checkServiceDistMap s now service mids).2.1 = .ErrorMatchServerLess ↔
        ¬ mids.Perm e.2 ∧ ¬ ∃ mid, e.2.count mid < mids.count mid) := by
  have hexcl : mids.Perm e.2 → ¬ ∃ mid, e.2.count mid < mids.count mid := by
    rintro hperm ⟨mid, hmid⟩
    rw [hperm.count_eq] at hmid
    exact lt_irrefl _ hmid
  rcases checkServiceDistMap_result h now mids with ⟨hperm, hres⟩ | ⟨hmore, hres⟩ | ⟨hle, ⟨v, hv⟩, hres⟩
  · rw [hres]
    simp [hperm, hexcl hperm]
  · have hnot : ¬ mids.Perm e.2 := fun hperm => hexcl hperm hmore
    rw [hres]
    simp [hnot, hmore]
  · have hnot : ¬ mids.Perm e.2 := by
      intro hperm
      rw [hperm.count_eq] at hv
      exact lt_irrefl _ hv
    have hle' : ¬ ∃ mid, e.2.count mid < mids.count mid := fun ⟨mid, hmid⟩ => absurd (hle mid) (not_le.mpr hmid)
    rw [hres]
    simp [hnot, hle']

/-- **The classification, exactly**: for a known service the three results are the three ways its list and the report
compare as multisets, and its own list is at most reordered; an unknown service with a report is adopted with it, its
matches leave the pool and its pending changes are dropped. -/
theorem checkServiceDistMap_classifies (s : CSMatchManager) (now : Int) (service : MatchDisService) (mids : List Int) :
    match s.matchServices_.find? service.sid with
    | some e =>
      ((checkServiceDistMap s now service mids).2.1 = .ErrorNo ↔ mids.Perm e.2) ∧
        ((checkServiceDistMap s now service mids).2.1 = .ErrorMatchServerMore ↔
          ∃ mid, e.2.count mid < mids.count mid) ∧
        ((checkServiceDistMap s now service mids).2.1 = .ErrorMatchServerLess ↔
          ¬ mids.Perm e.2 ∧ ¬ ∃ mid, e.2.count mid < mids.count mid) ∧
        ∃ distMids : List Int, distMids.Perm e.2 ∧
          (checkServiceDistMap s now service mids).1.matchServices_.find? service.sid = some (e.1, distMids) ∧
          (∀ sid, sid ≠ service.sid → (checkServiceDistMap s now service mids).1.matchServices_.find? sid =
            s.matchServices_.find? sid) ∧
          { (checkServiceDistMap s now service mids).1 with matchServices_ := s.matchServices_ } = s
    | none =>
      ((checkServiceDistMap s now service mids).2.1 = .ErrorNoMatch ↔ mids = []) ∧
        (mids ≠ [] → (checkServiceDistMap s now service mids).2.1 = .ErrorReconnect ∧
          (checkServiceDistMap s now service mids).1.matchServices_.find? service.sid = some (service, mids) ∧
          (∀ sid, sid ≠ service.sid → (checkServiceDistMap s now service mids).1.matchServices_.find? sid =
            s.matchServices_.find? sid) ∧
          (checkServiceDistMap s now service mids).1.undistMatches_ = s.undistMatches_.filter (· ∉ mids) ∧
          (checkServiceDistMap s now service mids).1.changedServices_ =
            s.changedServices_.filter (fun c => c.service.sid ≠ service.sid)) := by
  cases h : s.matchServices_.find? service.sid with
  | some e =>
    obtain ⟨hno, hmore, hless⟩ := checkServiceDistMap_known_iff h now mids
    refine ⟨hno, hmore, hless, sort e.2, sort_perm e.2, ?_⟩
    rw [checkServiceDistMap_known h]
    dsimp only
    refine ⟨?_, fun sid hsid => ?_, rfl⟩
    · rw [OrderedMap.find?_modify, if_pos rfl, h]
      rfl
    · rw [OrderedMap.find?_modify, if_neg hsid]
  | none =>
    have hres := checkServiceDistMap_unknown_result h now mids
    constructor
    · rw [hres]
      split_ifs with hm
      · exact iff_of_false (by simp) (List.length_pos_iff.mp hm)
      · exact iff_of_true rfl (by simpa using hm)
    · intro hm
      refine ⟨hres.trans (if_pos (List.length_pos_iff.mpr hm)), ?_⟩
      rw [checkServiceDistMap_adopt h now hm]
      dsimp only
      refine ⟨?_, fun sid hsid => ?_, rfl, rfl⟩
      · rw [OrderedMap.find?_assign, if_pos rfl, h]
        rfl
      · rw [OrderedMap.find?_assign, if_neg hsid]

/-! ## Both sides afterwards -/

/-- What the match server runs after each result. -/
theorem distributeCheck_matches (s : CSMatchManager) (m : MSMatchManager) (now sid : Int) :
    (distributeCheck s m now sid).2.matches_ =
      match (checkServiceDistMap s now ⟨sid, m.matches_.length⟩ m.matches_).2.1 with
      | .ErrorMatchServerMore => (checkServiceDistMap s now ⟨sid, m.matches_.length⟩ m.matches_).2.2
      | .ErrorMatchServerLess => []
      | _ => m.matches_ := by
  show (MSKernel.checkMatchDistributeRS m
    (CSKernel.checkMatchDistributeRQ s now sid _ (M2CSession.checkMatchDistribute sid m)).2).matches_ = _
  unfold CSKernel.checkMatchDistributeRQ M2CSession.checkMatchDistribute CSMatchLoadedEvaluation.evaluate
  dsimp only
  generalize checkServiceDistMap s now ⟨sid, m.matches_.length⟩ m.matches_ = r
  obtain ⟨s', res, mids⟩ := r
  cases res <;> rfl

/-- An unknown service keeps its list, and the central server takes that list over. -/
theorem agree_unknown {s : CSMatchManager} {sid : Int} (h : s.matchServices_.find? sid = none) (m : MSMatchManager)
    (now : Int) : Agree (distributeCheck s m now sid).1 (distributeCheck s m now sid).2 sid := by
  have hnew : s.matchServices_.find? (MatchDisService.mk sid m.matches_.length).sid = none := h
  intro mid
  rw [distributeCheck_matches, checkServiceDistMap_unknown_result hnew]
  show _ ↔ mid ∈ getDistMatch (checkServiceDistMap s now ⟨sid, m.matches_.length⟩ m.matches_).1.matchServices_ sid
  by_cases hm : m.matches_ = []
  · rw [hm, checkServiceDistMap_noMatch h]
    show mid ∈ [] ↔ mid ∈ getDistMatch s.matchServices_ sid
    rw [getDistMatch, h]
  · have hfind : (s.matchServices_.assign ⟨sid, m.matches_.length⟩ m.matches_).find? sid =
        some (⟨sid, m.matches_.length⟩, m.matches_) := by
      rw [OrderedMap.find?_assign, if_pos rfl, h]
      rfl
    rw [if_pos (List.length_pos_iff.mpr hm), checkServiceDistMap_adopt hnew now hm, getDistMatch]
    dsimp only
    rw [hfind]

/-- A known service agrees afterwards when both lists had the same matches, unless its list was only missing
repetitions: then the reply is `ErrorMatchServerLess`, without matches. -/
theorem agree_known_iff {s : CSMatchManager} {sid : Int} {e : MatchDisService × List Int}
    (h : s.matchServices_.find? sid = some e) (m : MSMatchManager) (now : Int) :
    Agree (distributeCheck s m now sid).1 (distributeCheck s m now sid).2 sid ↔
      (∀ mid, mid ∈ m.matches_ ↔ mid ∈ e.2) ∧ (m.matches_.Perm e.2 ∨ ∃ mid, e.2.count mid < m.matches_.count mid) := by
  have hknown : s.matchServices_.find? (MatchDisService.mk sid m.matches_.length).sid = some e := h
  have hcentral : ∀ mid, mid ∈ getDistMatch (distributeCheck s m now sid).1.matchServices_ sid ↔ mid ∈ e.2 :=
    mem_getDistMatch_known hknown now m.matches_
  unfold Agree
  simp only [hcentral, distributeCheck_matches]
  rcases checkServiceDistMap_result hknown now m.matches_ with ⟨hperm, hres⟩ | ⟨hmore, hres⟩ | ⟨hle, ⟨v, hv⟩, hres⟩
  · rw [hres]
    exact iff_of_true (fun mid => hperm.mem_iff) ⟨fun mid => hperm.mem_iff, .inl hperm⟩
  · rw [hres, checkServiceDistMap_mids hknown]
    simp only [(sort_perm _).mem_iff]
    exact (and_iff_left (.inr hmore)).symm
  · rw [hres]
    have hin : v ∈ e.2 := List.count_pos_iff.mp (by omega)
    refine iff_of_false (fun hall => absurd ((hall v).mpr hin) (List.not_mem_nil)) ?_
    rintro ⟨-, hperm | ⟨w, hw⟩⟩
    · have := hperm.count_eq v
      omega
    · have := hle w
      omega

/-- **The check, exactly**: both sides hold the same matches afterwards if and only if the central server did not know
the service, or both lists had the same matches and the match server's is a permutation of the other or lists some
match more often. -/
theorem check_agrees_iff (s : CSMatchManager) (m : MSMatchManager) (now sid : Int) :
    Agree (distributeCheck s m now sid).1 (distributeCheck s m now sid).2 sid ↔
      sid ∉ s.matchServices_ ∨
        ((∀ mid, mid ∈ m.matches_ ↔ mid ∈ getDistMatch s.matchServices_ sid) ∧
          (m.matches_.Perm (getDistMatch s.matchServices_ sid) ∨
            ∃ mid, (getDistMatch s.matchServices_ sid).count mid < m.matches_.count mid)) := by
  cases h : s.matchServices_.find? sid with
  | none => exact iff_of_true (agree_unknown h m now) (.inl (OrderedMap.not_mem_iff.mpr h))
  | some e =>
    rw [or_iff_right (not_not.mpr (OrderedMap.mem_iff.mpr ⟨e, h⟩)), getDistMatch, h]
    exact agree_known_iff h m now

/-- A central server that has given service `1` the matches `7` and `8`. -/
def distributed : CSMatchManager :=
  Runs.run step (initialized 0 (sampleMatches [7, 8]))
    [⟨1, .updateMatchService { sid := 1 }⟩, ⟨40, .updateDistMatchServices⟩]

/-- A match server that has only heard of `7` is told to run nothing. -/
theorem less_empties_match_server :
    ¬ ∀ (s : CSMatchManager) (m : MSMatchManager) (now sid : Int), sid ∈ s.matchServices_ →
      Agree (distributeCheck s m now sid).1 (distributeCheck s m now sid).2 sid := by
  intro h
  have hagree := h distributed (MSMatchManager.updateMatches {} [7]) 50 1 (by decide)
  have hms : (distributeCheck distributed (MSMatchManager.updateMatches {} [7]) 50 1).2.matches_ = [] := by decide
  have hcs : (7 : Int) ∈ getDistMatch
      (distributeCheck distributed (MSMatchManager.updateMatches {} [7]) 50 1).1.matchServices_ 1 := by decide
  have := (hagree 7).mpr hcs
  rw [hms] at this
  cases this

end AsioUtils
