import AsioUtils.CentralServer.Ownership

/-!
# Cancelling a match

`cancelMatch` asks `getService` who runs the match and takes it out of that service's list, but only for a `sid` above
zero; the session pool hands out `0` first.

* `cancelMatch_of_code` : what an accepted cancellation does, in terms of `getService`;
* `cancelMatch_removes_iff` : when it leaves the match nowhere, whatever the lists;
* `cancelledEverywhere_iff` : it removes the match everywhere if and only if service `0` does not run it.
-/

namespace AsioUtils.CentralServer.CSMatchManager

open AsioUtils.CPG StdList

/-! ## Whose match it is -/

theorem mem_getDistMatch {ms : ServiceMap} {sid mid : Int} :
    mid ∈ getDistMatch ms sid ↔ ∃ e, ms.find? sid = some e ∧ mid ∈ e.2 := by
  unfold getDistMatch
  cases ms.find? sid <;> simp

section Owner

variable {s : CSMatchManager} {mid : Int}

theorem getService_of_waiting (h : mid ∈ s.undistMatches_) : getService s mid = -1 :=
  if_pos ⟨List.length_pos_of_mem h, h⟩

theorem getService_of_not_waiting (h : mid ∉ s.undistMatches_) : getService s mid =
    match s.matchServices_.entries.find? fun e => mid ∈ e.2 with
    | some e => e.1.sid
    | none => -1 :=
  if_neg fun hin => h hin.2

theorem getService_of_not_listed (h : ∀ e ∈ s.matchServices_.entries, mid ∉ e.2) : getService s mid = -1 := by
  by_cases hwait : mid ∈ s.undistMatches_
  · exact getService_of_waiting hwait
  · rw [getService_of_not_waiting hwait]
    have hnone : (s.matchServices_.entries.find? fun e => mid ∈ e.2) = none :=
      List.find?_eq_none.mpr fun e he => by simpa using h e he
    rw [hnone]

/-- The owner of a match that one service lists. -/
theorem getService_of_listed (hwait : mid ∉ s.undistMatches_) {e : MatchDisService × List Int}
    (he : e ∈ s.matchServices_.entries) (hmid : mid ∈ e.2)
    (honly : ∀ e' ∈ s.matchServices_.entries, mid ∈ e'.2 → e' = e) : getService s mid = e.1.sid := by
  rw [getService_of_not_waiting hwait]
  cases hfind : s.matchServices_.entries.find? fun e => mid ∈ e.2 with
  | none => exact absurd hmid (by simpa using List.find?_eq_none.mp hfind e he)
  | some e' =>
    have hmid' : mid ∈ e'.2 := by simpa using List.find?_some hfind
    rw [honly e' (List.mem_of_find?_eq_some hfind) hmid']

/-- A service that `getService` names lists the match. -/
theorem listed_of_getService (h : getService s mid ≠ -1) : mid ∉ s.undistMatches_ ∧
    ∃ e ∈ s.matchServices_.entries, mid ∈ e.2 ∧ e.1.sid = getService s mid := by
  have hwait : mid ∉ s.undistMatches_ := fun hin => h (getService_of_waiting hin)
  rw [getService_of_not_waiting hwait] at h ⊢
  refine ⟨hwait, ?_⟩
  cases hfind : s.matchServices_.entries.find? fun e => mid ∈ e.2 with
  | none => exact absurd (by rw [hfind]) h
  | some e => exact ⟨e, List.mem_of_find?_eq_some hfind, by simpa using List.find?_some hfind, rfl⟩

theorem Unique.not_waiting (h : Unique s) {e : MatchDisService × List Int} (he : e ∈ s.matchServices_.entries)
    (hmid : mid ∈ e.2) : mid ∉ s.undistMatches_ := by
  obtain ⟨-, -, hdisj⟩ := List.nodup_append.mp h
  exact fun hin => hdisj mid hin mid (List.mem_flatMap.mpr ⟨e, he, hmid⟩) rfl

theorem Unique.getService_eq (h : Unique s) {e : MatchDisService × List Int} (he : e ∈ s.matchServices_.entries)
    (hmid : mid ∈ e.2) : getService s mid = e.1.sid := by
  obtain ⟨-, helems, -⟩ := List.nodup_append.mp h
  refine getService_of_listed (h.not_waiting he hmid) he hmid fun e' he' hmid' => ?_
  exact OrderedMap.eq_of_mem_elems helems he' he hmid' hmid

end Owner

/-! ## An accepted cancellation -/

/-- `cancelMatch` in terms of `getService`, once it is accepted. -/
theorem cancelMatch_of_code {s : CSMatchManager} {mid reason : Int} (h : (cancelMatch s mid reason).code = kNoneError) :
    (cancelMatch s mid reason).manager =
      { s with
        matchServices_ := if 0 < getService s mid then s.matchServices_.modify (getService s mid) (·.filter (· ≠ mid))
          else s.matchServices_
        undistMatches_ := s.undistMatches_.filter (· ≠ mid) } ∧
    (cancelMatch s mid reason).changed = (if 0 < getService s mid then s.matchServices_.find? (getService s mid)
      else none).map fun e => OrderedMap.empty.assign (toUnsigned (getService s mid)) (e.2.filter (· ≠ mid)) := by
  unfold cancelMatch at h ⊢
  cases hmatch : getMatch s mid with
  | none =>
    rw [hmatch] at h
    exact absurd h (show kManager_MatchNotFound ≠ kNoneError by decide)
  | some m =>
    rw [hmatch] at h
    dsimp only at h ⊢
    by_cases hstate : m.match_state > ENUM_STATE_READY
    · rw [if_pos hstate] at h
      exact absurd h (show kManager_MatchCancel_StartedError ≠ kNoneError by decide)
    · rw [if_neg hstate]
      refine ⟨?_, rfl⟩
      dsimp only
      by_cases hpos : 0 < getService s mid
      · rw [if_pos hpos, if_pos hpos]
        cases howner : s.matchServices_.find? (getService s mid) with
        | none => rw [OrderedMap.modify_of_find?_none howner, if_neg (by simp)]
        | some e => rw [if_pos (show (some e).isSome = true from rfl)]
      · rw [if_neg hpos, if_neg hpos, if_neg (by simp)]

/-- `cancelMatch` accepts `mid`: the match is known and has not started. -/
def Cancellable (s : CSMatchManager) (mid : Int) : Prop :=
  ∃ e, s.matches_.find? mid = some e ∧ e.2.match_state ≤ ENUM_STATE_READY

theorem cancelMatch_code_iff {s : CSMatchManager} {mid reason : Int} :
    (cancelMatch s mid reason).code = kNoneError ↔ Cancellable s mid := by
  unfold cancelMatch getMatch Cancellable
  cases s.matches_.find? mid with
  | none => exact iff_of_false (show kManager_MatchNotFound ≠ kNoneError by decide) (by simp)
  | some e =>
    simp only [Option.map_some, Option.some.injEq, exists_eq_left']
    by_cases hstate : e.2.match_state > ENUM_STATE_READY
    · rw [if_pos hstate]
      exact iff_of_false (show kManager_MatchCancel_StartedError ≠ kNoneError by decide) (not_le.mpr hstate)
    · rw [if_neg hstate]
      exact iff_of_true rfl (not_lt.mp hstate)

/-- An accepted cancellation takes the match out of everything exactly when no service lists it, or one service above
zero does and it is not in the pool as well. -/
theorem cancelMatch_removes_iff {s : CSMatchManager} {mid reason : Int}
    (hcode : (cancelMatch s mid reason).code = kNoneError) :
    mid ∉ (cancelMatch s mid reason).manager.allocated ↔ ∀ e ∈ s.matchServices_.entries, mid ∈ e.2 →
      mid ∉ s.undistMatches_ ∧ 0 < e.1.sid ∧ ∀ e' ∈ s.matchServices_.entries, mid ∈ e'.2 → e' = e := by
  rw [mem_allocated, (cancelMatch_of_code hcode).1]
  simp only [List.mem_filter, ne_eq, not_true_eq_false, decide_false, Bool.false_eq_true, and_false, false_or]
  by_cases hpos : 0 < getService s mid
  · rw [if_pos hpos]
    have howner : getService s mid ≠ -1 := by omega
    obtain ⟨hwait, e₀, he₀, hmid₀, hsid₀⟩ := listed_of_getService howner
    constructor
    · intro hno
      -- a list that still has the match is one that was not written
      have honly : ∀ e ∈ s.matchServices_.entries, mid ∈ e.2 → e = e₀ := by
        intro e he hmid
        by_contra hne
        refine hno ⟨_, List.mem_map_of_mem he, ?_⟩
        have hi : ¬ e.1.sid = getService s mid := fun hi => hne (Option.some.inj
          ((OrderedMap.find?_of_mem he).symm.trans ((hi.trans hsid₀.symm) ▸ OrderedMap.find?_of_mem he₀)))
        dsimp only
        rw [if_neg hi]
        exact hmid
      intro e he hmid
      obtain rfl := honly e he hmid
      exact ⟨hwait, by omega, honly⟩
    · rintro honly ⟨e, he, hmid⟩
      obtain ⟨e₁, he₁, rfl⟩ := List.mem_map.mp he
      dsimp only at hmid
      split_ifs at hmid with hi
      · simp at hmid
      · obtain ⟨-, -, hone⟩ := honly e₁ he₁ hmid
        exact hi ((hone e₀ he₀ hmid₀) ▸ hsid₀)
  · rw [if_neg hpos]
    constructor
    · intro hno e he hmid
      exact absurd ⟨e, he, hmid⟩ hno
    · rintro honly ⟨e, he, hmid⟩
      obtain ⟨hwait, hsid, hone⟩ := honly e he hmid
      exact hpos (getService_of_listed hwait he hmid hone ▸ hsid)

/-- What cancelling `mid` everywhere leaves: nobody has it, the others stay where they are, and its owner's new list
has been reported. -/
structure CancelledEverywhere (s : CSMatchManager) (mid : Int) (r : CancelResult) : Prop where
  unlisted : ∀ e ∈ r.manager.matchServices_.entries, mid ∉ e.2
  not_waiting : mid ∉ r.manager.undistMatches_
  others_listed : ∀ sid, (r.manager.matchServices_.find? sid).map (fun e => (e.1, e.2.filter (· ≠ mid))) =
    (s.matchServices_.find? sid).map fun e => (e.1, e.2.filter (· ≠ mid))
  others_waiting : r.manager.undistMatches_.filter (· ≠ mid) = s.undistMatches_.filter (· ≠ mid)
  notified : ∀ e ∈ s.matchServices_.entries, mid ∈ e.2 → ∃ changed, r.changed = some changed ∧
    (changed.find? (toUnsigned e.1.sid)).map Prod.snd = some (getDistMatch r.manager.matchServices_ e.1.sid)

/-- Taking the match out of one list leaves the others. -/
theorem find?_modify_filter (ms : ServiceMap) (i sid mid : Int) :
    ((ms.modify i (·.filter (· ≠ mid))).find? sid).map (fun e => (e.1, e.2.filter (· ≠ mid))) =
      (ms.find? sid).map fun e => (e.1, e.2.filter (· ≠ mid)) := by
  rw [OrderedMap.find?_modify]
  split_ifs
  · rw [Option.map_map]
    refine congrArg (fun f => (ms.find? sid).map f) (funext fun e => ?_)
    show (e.1, (e.2.filter (· ≠ mid)).filter (· ≠ mid)) = _
    rw [List.filter_filter]
    simp only [Bool.and_self]
  · rfl

section Accepted

variable {s : CSMatchManager} {mid reason : Int} (hcode : (cancelMatch s mid reason).code = kNoneError)
include hcode

/-- The matches that wait lose this one alone. -/
theorem cancelMatch_waiting : mid ∉ (cancelMatch s mid reason).manager.undistMatches_ ∧
    (cancelMatch s mid reason).manager.undistMatches_.filter (· ≠ mid) = s.undistMatches_.filter (· ≠ mid) := by
  obtain ⟨hmanager, -⟩ := cancelMatch_of_code hcode
  rw [hmanager]
  constructor <;> simp

/-- A service other than `0` runs the match: it loses it, and its list is reported. -/
theorem cancelledEverywhere_of_pos (h : Unique s) (hpos : 0 < getService s mid) :
    CancelledEverywhere s mid (cancelMatch s mid reason) := by
  obtain ⟨hmanager, hchanged⟩ := cancelMatch_of_code hcode
  obtain ⟨hwaiting, hothers⟩ := cancelMatch_waiting hcode
  rw [if_pos hpos] at hmanager hchanged
  refine ⟨?_, hwaiting, ?_, hothers, ?_⟩
  · rw [hmanager]
    intro e' he' hmid'
    obtain ⟨e₀, he₀, rfl⟩ := List.mem_map.mp he'
    dsimp only [id] at hmid'
    split_ifs at hmid' with hi
    · simp at hmid'
    · exact hi (h.getService_eq he₀ hmid').symm
  · rw [hmanager]
    exact fun sid => find?_modify_filter _ _ sid mid
  · intro e' he' hmid'
    have howner : s.matchServices_.find? (getService s mid) = some e' := by
      rw [h.getService_eq he' hmid']
      exact OrderedMap.find?_of_mem he'
    refine ⟨_, hchanged.trans (congrArg _ howner), ?_⟩
    rw [hmanager, ← h.getService_eq he' hmid', OrderedMap.find?_assign, if_pos (id_eq _).symm]
    unfold getDistMatch
    rw [OrderedMap.find?_modify, if_pos rfl, howner]
    rfl

/-- Nobody runs the match: all lists stay. -/
theorem cancelledEverywhere_of_not_listed (howned : ∀ e ∈ s.matchServices_.entries, mid ∉ e.2) :
    CancelledEverywhere s mid (cancelMatch s mid reason) := by
  obtain ⟨hmanager, -⟩ := cancelMatch_of_code hcode
  obtain ⟨hwaiting, hothers⟩ := cancelMatch_waiting hcode
  have hnone : ¬ 0 < getService s mid := by
    rw [getService_of_not_listed howned]
    decide
  rw [if_neg hnone] at hmanager
  refine ⟨?_, hwaiting, fun sid => ?_, hothers, fun e he hmid => absurd hmid (howned e he)⟩
  · rw [hmanager]
    exact howned
  · rw [hmanager]

end Accepted

/-- **A cancellation reaches every owner but service `0`**: with no match listed twice, an accepted `cancelMatch`
removes the match everywhere, and tells its owner's new list, if and only if service `0` does not run it. -/
theorem cancelledEverywhere_iff {s : CSMatchManager} {mid reason : Int} (h : Unique s)
    (hsid : ∀ e ∈ s.matchServices_.entries, 0 ≤ e.1.sid) (hcode : (cancelMatch s mid reason).code = kNoneError) :
    CancelledEverywhere s mid (cancelMatch s mid reason) ↔ mid ∉ getDistMatch s.matchServices_ 0 := by
  constructor
  · intro hdone hzero
    obtain ⟨hmanager, -⟩ := cancelMatch_of_code hcode
    obtain ⟨e, he, hmid⟩ := mem_getDistMatch.mp hzero
    have hservice : getService s mid = 0 := by
      rw [h.getService_eq (OrderedMap.mem_of_find? he) hmid]
      exact OrderedMap.ord_of_find? he
    refine hdone.unlisted e ?_ hmid
    rw [hmanager, hservice]
    exact OrderedMap.mem_of_find? he
  · intro hzero
    by_cases howned : ∃ e ∈ s.matchServices_.entries, mid ∈ e.2
    · obtain ⟨e, he, hmid⟩ := howned
      have hne : e.1.sid ≠ 0 := fun h0 => hzero (mem_getDistMatch.mpr ⟨e, h0 ▸ OrderedMap.find?_of_mem he, hmid⟩)
      have hle := hsid e he
      refine cancelledEverywhere_of_pos hcode h ?_
      rw [h.getService_eq he hmid]
      omega
    · push Not at howned
      exact cancelledEverywhere_of_not_listed hcode howned

/-- Services `0` and `1` run a match each, and a third waits. -/
def threeMatches : CSMatchManager where
  matchServices_ := (OrderedMap.empty.assign ⟨0, 1⟩ [7]).assign ⟨1, 1⟩ [8]
  matches_ := sampleMatches [7, 8, 9]
  undistMatches_ := [9]
  matchLatestUpdateTime_ := 0

theorem threeMatches_cancelled :
    CancelledEverywhere threeMatches 8 (cancelMatch threeMatches 8 1) ↔ 8 ∉ getDistMatch threeMatches.matchServices_ 0 :=
  cancelledEverywhere_iff (by show List.Nodup _; decide) (by decide) (by decide)

/-- The match of service `0` stays in its list, and nobody is told. -/
theorem service_zero_keeps :
    ¬ ∀ (s : CSMatchManager) (mid reason : Int), Unique s → (∀ e ∈ s.matchServices_.entries, 0 ≤ e.1.sid) →
      (cancelMatch s mid reason).code = kNoneError → CancelledEverywhere s mid (cancelMatch s mid reason) := by
  intro h
  have hdone := h threeMatches 7 1 (by show List.Nodup _; decide) (by decide) (by decide)
  have hlisted : (⟨0, 1⟩, [7]) ∈ (cancelMatch threeMatches 7 1).manager.matchServices_.entries := by decide
  exact hdone.unlisted _ hlisted (by decide)

end AsioUtils.CentralServer.CSMatchManager
