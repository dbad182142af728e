import AsioUtils.CentralServer.Cancellation

/-!
# Which matches may be owned

Matches come into the pool and the lists from the database, from creations and from the reports of match servers, and
leave by cancellation. `filterValidMatch`, which is to reject what a report should not name, rejects nothing.

* `Watched` : the manager beside the matches whose cancellation it has accepted;
* `valid_step` : when a call keeps every owned match known and not cancelled;
* `valid_iff_validated` : the same over whole runs.
-/

namespace AsioUtils.CentralServer.CSMatchManager

open AsioUtils.CPG StdList Runs

/-- A manager and the matches whose cancellation it has accepted. -/
structure Watched where
  manager : CSMatchManager
  gone : List Int

namespace Watched

def step (w : Watched) (c : TimedCall) : Watched :=
  ⟨CSMatchManager.step w.manager c, w.gone ++ cancelledBy w.manager c⟩

/-- The match is known and has not been cancelled. -/
def Live (w : Watched) (mid : Int) : Prop := mid ∈ w.manager.matches_ ∧ mid ∉ w.gone

/-- Only live matches are in the pool and in the lists of `matchServices_`. -/
def Valid (w : Watched) : Prop := ∀ mid ∈ w.manager.allocated, w.Live mid

/-- The call brings no match that is unknown or cancelled, and a cancellation finds the match in the list of no service
or of one, which is above zero, while it does not wait. -/
def Validated (w : Watched) (c : TimedCall) : Prop :=
  match c.call with
  | .createdMatches ms => ∀ m ∈ ms, m.mid ∉ w.gone
  | .addUndistriteMatches mids => ∀ mid ∈ mids, w.Live mid
  | .checkServiceDistMap service mids => service.sid ∈ w.manager.matchServices_ ∨ ∀ mid ∈ mids, w.Live mid
  | .cancelMatch mid _ => Cancellable w.manager mid → ∀ e ∈ w.manager.matchServices_.entries, mid ∈ e.2 →
      mid ∉ w.manager.undistMatches_ ∧ 0 < e.1.sid ∧ ∀ e' ∈ w.manager.matchServices_.entries, mid ∈ e'.2 → e' = e
  | _ => True

theorem valid_initialized (now : Int) (stored : MatchMap) : Valid ⟨initialized now stored, []⟩ := by
  intro mid hmid
  refine ⟨?_, List.not_mem_nil⟩
  rw [allocated, show (initialized now stored).matchServices_.elems = [] from rfl, List.append_nil] at hmid
  obtain ⟨e, he, rfl⟩ := List.mem_map.mp hmid
  exact OrderedMap.mem_of_mem_entries he

/-- A call that only moves matches changes nothing. -/
theorem valid_congr {w w' : Watched} (hall : ∀ mid, mid ∈ w'.manager.allocated ↔ mid ∈ w.manager.allocated)
    (hmatches : w'.manager.matches_ = w.manager.matches_) (hgone : w'.gone = w.gone) : w'.Valid ↔ w.Valid := by
  unfold Valid Live
  rw [hmatches, hgone]
  simp only [hall]

/-- Matches that come in decide. -/
theorem valid_of_new {w w' : Watched} (h : w.Valid) (new : List Int)
    (hall : ∀ mid, mid ∈ w'.manager.allocated ↔ mid ∈ w.manager.allocated ∨ mid ∈ new)
    (hmatches : ∀ mid, mid ∈ w.manager.matches_ → mid ∈ w'.manager.matches_) (hgone : w'.gone = w.gone) :
    w'.Valid ↔ ∀ mid ∈ new, w'.Live mid := by
  constructor
  · exact fun hvalid mid hmid => hvalid mid ((hall mid).mpr (.inr hmid))
  · intro hnew mid hmid
    rcases (hall mid).mp hmid with hin | hin
    · exact ⟨hmatches mid (h mid hin).1, hgone ▸ (h mid hin).2⟩
    · exact hnew mid hin

section Step

variable {w : Watched} (h : w.Valid) (now : Int)
include h

theorem valid_step_created (ms : List CPGMatchProfile) :
    (w.step ⟨now, .createdMatches ms⟩).Valid ↔ ∀ m ∈ ms, m.mid ∉ w.gone := by
  have hgone : (w.step ⟨now, .createdMatches ms⟩).gone = w.gone := List.append_nil _
  have hmatches : ∀ mid, mid ∈ (w.step ⟨now, .createdMatches ms⟩).manager.matches_ ↔
      mid ∈ w.manager.matches_ ∨ mid ∈ ms.map (·.mid) := fun mid => mem_createdMatches
  rw [valid_of_new h (ms.map (·.mid)) ?_ (fun mid hmid => (hmatches mid).mpr (.inl hmid)) hgone]
  · unfold Live
    rw [hgone, List.forall_mem_map]
    refine forall_congr' fun m => imp_congr_right fun hm => and_iff_right ?_
    exact (hmatches m.mid).mpr (.inr (List.mem_map_of_mem hm))
  · intro mid
    show mid ∈ (createdMatches w.manager now ms).allocated ↔ _
    unfold createdMatches allocated
    rw [List.mem_append, mem_undist_add, List.mem_append, or_right_comm]
    rfl

theorem valid_step_added (mids : List Int) :
    (w.step ⟨now, .addUndistriteMatches mids⟩).Valid ↔ ∀ mid ∈ mids, w.Live mid := by
  have hgone : (w.step ⟨now, .addUndistriteMatches mids⟩).gone = w.gone := List.append_nil _
  have hmatches : (w.step ⟨now, .addUndistriteMatches mids⟩).manager.matches_ = w.manager.matches_ := rfl
  rw [valid_of_new h mids ?_ (fun mid hmid => hmatches ▸ hmid) hgone]
  · unfold Live
    rw [hgone, hmatches]
  · intro mid
    show mid ∈ (addUndistriteMatches w.manager now mids).allocated ↔ _
    unfold allocated
    rw [List.mem_append, mem_undist_add, List.mem_append, or_right_comm]
    rfl

theorem valid_step_check (service : MatchDisService) (mids : List Int) :
    (w.step ⟨now, .checkServiceDistMap service mids⟩).Valid ↔
      service.sid ∈ w.manager.matchServices_ ∨ ∀ mid ∈ mids, w.Live mid := by
  have hgone : (w.step ⟨now, .checkServiceDistMap service mids⟩).gone = w.gone := List.append_nil _
  have hmanager : (w.step ⟨now, .checkServiceDistMap service mids⟩).manager =
    (checkServiceDistMap w.manager now service mids).1 := rfl
  cases hf : w.manager.matchServices_.find? service.sid with
  | some e =>
    refine iff_of_true ?_ (.inl (OrderedMap.mem_iff.mpr ⟨e, hf⟩))
    rw [checkServiceDistMap_known hf] at hmanager
    refine (valid_congr (fun mid => ?_) (by rw [hmanager]) hgone).mpr h
    rw [hmanager]
    exact ((OrderedMap.modify_elems_perm_self sort_perm).append_left w.manager.undistMatches_).mem_iff
  | none =>
    rw [or_iff_right (OrderedMap.not_mem_iff.mpr hf)]
    by_cases hm : mids = []
    · subst hm
      refine iff_of_true ?_ (by simp)
      rw [checkServiceDistMap_noMatch hf] at hmanager
      exact (valid_congr (fun mid => by rw [hmanager]; rfl) (by rw [hmanager]; rfl) hgone).mpr h
    · rw [checkServiceDistMap_adopt hf now hm] at hmanager
      have hmatches : (w.step ⟨now, .checkServiceDistMap service mids⟩).manager.matches_ = w.manager.matches_ := by
        rw [hmanager]
      rw [valid_of_new h mids ?_ (fun mid hmid => hmatches ▸ hmid) hgone]
      · unfold Live
        rw [hgone, hmatches]
      · intro mid
        rw [hmanager]
        show mid ∈ _ ++ _ ↔ mid ∈ _ ++ _ ∨ _
        rw [List.mem_append, (adopt_elems_perm hf mids).mem_iff, List.mem_append, List.mem_filter, List.mem_append]
        by_cases hmid : mid ∈ mids <;> simp [hmid]

theorem valid_step_cancel (mid reason : Int) : (w.step ⟨now, .cancelMatch mid reason⟩).Valid ↔
    (Cancellable w.manager mid → ∀ e ∈ w.manager.matchServices_.entries, mid ∈ e.2 → mid ∉ w.manager.undistMatches_ ∧
      0 < e.1.sid ∧ ∀ e' ∈ w.manager.matchServices_.entries, mid ∈ e'.2 → e' = e) := by
  have hmanager : (w.step ⟨now, .cancelMatch mid reason⟩).manager = (cancelMatch w.manager mid reason).manager := rfl
  have hgone : (w.step ⟨now, .cancelMatch mid reason⟩).gone =
    w.gone ++ if (cancelMatch w.manager mid reason).code = kNoneError then [mid] else [] := rfl
  by_cases hcode : (cancelMatch w.manager mid reason).code = kNoneError
  · rw [imp_iff_right (cancelMatch_code_iff.mp hcode), ← cancelMatch_removes_iff hcode]
    have hmatches : (cancelMatch w.manager mid reason).manager.matches_ = w.manager.matches_ := by
      rw [(cancelMatch_of_code hcode).1]
    have hsub := (cancelMatch_allocated w.manager mid reason).1.subset
    unfold Valid Live
    rw [hgone, if_pos hcode, hmanager, hmatches]
    constructor
    · intro hvalid hin
      exact (hvalid mid hin).2 (List.mem_append_right _ (List.mem_singleton_self mid))
    · intro hno v hv
      refine ⟨(h v (hsub hv)).1, fun hin => ?_⟩
      rcases List.mem_append.mp hin with hin | hin
      · exact (h v (hsub hv)).2 hin
      · exact hno (List.mem_singleton.mp hin ▸ hv)
  · refine iff_of_true ?_ fun hcan => absurd (cancelMatch_code_iff.mpr hcan) hcode
    rcases cancelMatch_cases w.manager mid reason with ⟨-, hs⟩ | ⟨hyes, -⟩
    · rw [if_neg hcode, List.append_nil] at hgone
      exact (valid_congr (fun v => by rw [hmanager, hs]) (by rw [hmanager, hs]) hgone).mpr h
    · exact absurd hyes hcode

theorem valid_step_pass : (w.step ⟨now, .updateDistMatchServices⟩).Valid := by
  have hgone : (w.step ⟨now, .updateDistMatchServices⟩).gone = w.gone := List.append_nil _
  have hmanager : (w.step ⟨now, .updateDistMatchServices⟩).manager = (updateDistMatchServices w.manager now).1 := rfl
  rcases updateDistMatchServices_cases w.manager now with ⟨-, hs⟩ | ⟨-, hs⟩ <;> rw [hs] at hmanager
  · refine (valid_congr (fun mid => ?_) (by rw [hmanager]; rfl) hgone).mpr h
    rw [hmanager]
    exact (applyChanges_perm _).mem_iff
  · exact (valid_congr (fun mid => by rw [hmanager]; rfl) (by rw [hmanager]) hgone).mpr h

/-- **Step**: only live matches stay owned exactly when the call is validated. -/
theorem valid_step (c : TimedCall) : (w.step c).Valid ↔ w.Validated c := by
  obtain ⟨now, call⟩ := c
  cases call with
  | createdMatches ms => exact valid_step_created h now ms
  | addUndistriteMatches mids => exact valid_step_added h now mids
  | updateMatchService service =>
    have hsame : (w.step ⟨now, .updateMatchService service⟩).Valid ↔ w.Valid :=
      valid_congr (fun _ => Iff.rfl) rfl (List.append_nil _)
    exact iff_of_true (hsame.mpr h) trivial
  | removeMatchService service =>
    have hsame : (w.step ⟨now, .removeMatchService service⟩).Valid ↔ w.Valid :=
      valid_congr (fun _ => Iff.rfl) rfl (List.append_nil _)
    exact iff_of_true (hsame.mpr h) trivial
  | checkServiceDistMap service mids => exact valid_step_check h now service mids
  | cancelMatch mid reason => exact valid_step_cancel h now mid reason
  | updateDistMatchServices => exact iff_of_true (valid_step_pass h now) trivial

end Step

/-- **Only live matches are owned, exactly**: in every state a run from `initialize` reaches every owned match is known
and not cancelled if and only if every call of the run is validated. -/
theorem valid_iff_validated (now : Int) (stored : MatchMap) (calls : List TimedCall) :
    Always step Valid ⟨initialized now stored, []⟩ calls ↔ Along step Validated ⟨initialized now stored, []⟩ calls :=
  always_iff_along_all (fun _ c h => valid_step h c) (valid_initialized now stored)

/-- A match server reports a match the central server has never heard of. -/
def unknownRun : List TimedCall :=
  [⟨1, .updateMatchService { sid := 1 }⟩, ⟨2, .checkServiceDistMap ⟨1, 1⟩ [99]⟩]

theorem unknownRun_adopted : ¬ ∀ (now : Int) (stored : MatchMap) (calls : List TimedCall),
    Always step Valid ⟨initialized now stored, []⟩ calls := by
  intro h
  have hvalid := (h 0 (sampleMatches [7]) unknownRun).last
  have hin : 99 ∈ (run step ⟨initialized 0 (sampleMatches [7]), []⟩ unknownRun).manager.allocated := by decide
  have hknown := (hvalid 99 hin).1
  exact absurd hknown (by decide)

end Watched

end AsioUtils.CentralServer.CSMatchManager
