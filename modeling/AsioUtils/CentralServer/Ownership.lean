import AsioUtils.CentralServer.Effects

/-!
# Who owns a match, over whole runs

* `Unique` : no match is owned twice, or owned and waiting. The adoption branch of `checkServiceDistMap` takes a report
  at its word, so the property lasts exactly as long as no adopted report, and no newly created match, names a match
  that another service holds (`unique_iff_noForeignMids`; `reconnect_breaks_unique` is a service that is lost and
  comes back under a new `sid` before the next pass);
* `Kept` : no live match is lost (`live_kept`), whatever the calls.
-/

namespace AsioUtils.CentralServer.CSMatchManager

open AsioUtils.CPG StdList Runs

/-! ## Unique ownership -/

/-- No match occurs twice in the pool and the lists of `matchServices_` together. -/
def Unique (s : CSMatchManager) : Prop := s.allocated.Nodup

/-- The calls whose arguments are as the callers promise: created matches are new, a report repeats nothing. -/
def Admissible (s : CSMatchManager) (c : TimedCall) : Prop :=
  match c.call with
  | .createdMatches ms => ∀ m ∈ ms, m.mid ∉ s.matches_
  | .addUndistriteMatches _ => False
  | .checkServiceDistMap _ mids => mids.Nodup
  | _ => True

/-- A created match is in no service's list; a service that is not known yet reports no match of another's list. -/
def NoForeignMids (s : CSMatchManager) (c : TimedCall) : Prop :=
  match c.call with
  | .createdMatches ms => ∀ m ∈ ms, m.mid ∉ s.matchServices_.elems
  | .checkServiceDistMap service mids => service.sid ∈ s.matchServices_ ∨ ∀ mid ∈ mids, mid ∉ s.matchServices_.elems
  | _ => True

instance (s : CSMatchManager) : (c : TimedCall) → Decidable (Admissible s c)
  | ⟨_, .createdMatches ms⟩ => inferInstanceAs (Decidable (∀ m ∈ ms, m.mid ∉ s.matches_))
  | ⟨_, .addUndistriteMatches _⟩ => .isFalse id
  | ⟨_, .checkServiceDistMap _ mids⟩ => inferInstanceAs (Decidable mids.Nodup)
  | ⟨_, .updateMatchService _⟩ | ⟨_, .removeMatchService _⟩ | ⟨_, .cancelMatch _ _⟩ | ⟨_, .updateDistMatchServices⟩ =>
    .isTrue trivial

theorem unique_initialized (now : Int) (stored : MatchMap) : Unique (initialized now stored) := by
  have hkeys : stored.keys.Nodup :=
    List.Pairwise.imp (fun h heq => absurd (heq ▸ h) (lt_irrefl _)) (List.pairwise_map.mpr stored.sorted)
  have : (initialized now stored).allocated = stored.keys := List.append_nil _
  rw [Unique, this]
  exact hkeys

/-- New matches in the pool keep ownership unique exactly when no service has them. -/
theorem unique_addUndistriteMatches {s : CSMatchManager} (h : Unique s) (now : Int) (mids : List Int) :
    Unique (addUndistriteMatches s now mids) ↔ ∀ mid ∈ mids, mid ∉ s.matchServices_.elems := by
  obtain ⟨-, helems, hdisj⟩ := List.nodup_append.mp h
  rw [Unique, allocated, List.nodup_append]
  constructor
  · rintro ⟨-, -, hd⟩ mid hmid hown
    exact hd mid (mem_undist_add.mpr (.inr hmid)) mid hown rfl
  · intro hfree
    refine ⟨undist_add_nodup s now mids, helems, fun a ha b hb heq => ?_⟩
    subst heq
    rcases mem_undist_add.mp ha with ha | ha
    · exact hdisj a ha a hb rfl
    · exact hfree a ha hb

/-- An adopted report keeps ownership unique exactly when it names no match of another service. -/
theorem unique_adopt {s : CSMatchManager} (h : Unique s) {service : MatchDisService} {mids : List Int} (now : Int)
    (hnew : s.matchServices_.find? service.sid = none) (hm : mids ≠ []) (hnd : mids.Nodup) :
    Unique (checkServiceDistMap s now service mids).1 ↔ ∀ mid ∈ mids, mid ∉ s.matchServices_.elems := by
  obtain ⟨hundist, helems, hdisj⟩ := List.nodup_append.mp h
  have hperm : ((checkServiceDistMap s now service mids).1.allocated).Perm
      (s.undistMatches_.filter (· ∉ mids) ++ (mids ++ s.matchServices_.elems)) := by
    rw [checkServiceDistMap_adopt hnew now hm]
    exact (adopt_elems_perm hnew mids).append_left _
  rw [Unique, hperm.nodup_iff, List.nodup_append, List.nodup_append]
  constructor
  · rintro ⟨-, ⟨-, -, hd⟩, -⟩ mid hmid hown
    exact hd mid hmid mid hown rfl
  · intro hfree
    refine ⟨hundist.filter _, ⟨hnd, helems, fun a ha b hb heq => hfree a ha (heq ▸ hb)⟩, fun a ha b hb heq => ?_⟩
    subst heq
    obtain ⟨ha, hna⟩ := List.mem_filter.mp ha
    rcases List.mem_append.mp hb with hb | hb
    · simp [hb] at hna
    · exact hdisj a ha a hb rfl

/-- **Step**: from a state with unique owners an admissible call leads to one exactly when it brings no match that
another service holds. -/
theorem unique_step {s : CSMatchManager} {c : TimedCall} (h : Unique s) (hadm : Admissible s c) :
    Unique (step s c) ↔ NoForeignMids s c := by
  obtain ⟨now, call⟩ := c
  cases call with
  | createdMatches ms =>
    have hadd := unique_addUndistriteMatches
      (s := { s with matches_ := ms.foldl (fun map m => map.assign m.mid m) s.matches_ }) h now (ms.map (·.mid))
    exact hadd.trans (List.forall_mem_map (P := fun mid => mid ∉ s.matchServices_.elems))
  | addUndistriteMatches mids => exact absurd hadm id
  | updateMatchService service => exact iff_of_true h trivial
  | removeMatchService service => exact iff_of_true h trivial
  | checkServiceDistMap service mids =>
    show Unique (checkServiceDistMap s now service mids).1 ↔ _ ∨ _
    cases hf : s.matchServices_.find? service.sid with
    | some e =>
      refine iff_of_true ?_ (.inl (OrderedMap.mem_iff.mpr ⟨e, hf⟩))
      rw [checkServiceDistMap_known hf]
      exact ((OrderedMap.modify_elems_perm_self sort_perm).append_left s.undistMatches_).nodup_iff.mpr h
    | none =>
      rw [or_iff_right (OrderedMap.not_mem_iff.mpr hf)]
      by_cases hm : mids = []
      · subst hm
        refine iff_of_true ?_ (by simp)
        rw [checkServiceDistMap_noMatch hf]
        exact h
      · exact unique_adopt h now hf hm hadm
  | cancelMatch mid reason =>
    obtain ⟨l, hperm, hsub⟩ := (cancelMatch_allocated s mid reason).1
    refine iff_of_true ?_ trivial
    exact hperm.nodup_iff.mp (hsub.nodup h)
  | updateDistMatchServices =>
    refine iff_of_true ?_ trivial
    show Unique (updateDistMatchServices s now).1
    rcases updateDistMatchServices_cases s now with ⟨-, hs⟩ | ⟨-, hs⟩ <;> rw [hs]
    · exact (applyChanges_perm _).nodup_iff.mpr h
    · exact h

/-- **Unique ownership, exactly**: a run of admissible calls from `initialize` has unique owners in every state it
reaches if and only if no adopted report and no created match brings a match that another service holds. -/
theorem unique_iff_noForeignMids (now : Int) (stored : MatchMap) (calls : List TimedCall)
    (hadm : Along step Admissible (initialized now stored) calls) :
    Always step Unique (initialized now stored) calls ↔ Along step NoForeignMids (initialized now stored) calls :=
  always_iff_along (fun _ _ h hadm => unique_step h hadm) (unique_initialized now stored) hadm

/-- A restart: two services register and report the matches they run. -/
def recoveryRun : List TimedCall :=
  [⟨1, .updateMatchService { sid := 0 }⟩, ⟨1, .checkServiceDistMap ⟨0, 1⟩ [7]⟩,
    ⟨2, .updateMatchService { sid := 1 }⟩, ⟨2, .checkServiceDistMap ⟨1, 1⟩ [8]⟩, ⟨40, .updateDistMatchServices⟩]

theorem recoveryRun_unique :
    Always step Unique (initialized 0 (sampleMatches [7, 8])) recoveryRun ↔
      Along step NoForeignMids (initialized 0 (sampleMatches [7, 8])) recoveryRun :=
  unique_iff_noForeignMids 0 (sampleMatches [7, 8]) recoveryRun (by decide)

/-- Service `0` gets match `7`, is lost, and reports it again as service `1` before the next pass. -/
def reconnectRun : List TimedCall :=
  [⟨1, .updateMatchService { sid := 0 }⟩, ⟨40, .updateDistMatchServices⟩, ⟨50, .removeMatchService { sid := 0 }⟩,
    ⟨51, .updateMatchService { sid := 1 }⟩, ⟨52, .checkServiceDistMap ⟨1, 1⟩ [7]⟩]

/-- The lost service's list stays until the pass, so the match has two owners. -/
theorem reconnect_breaks_unique :
    ¬ ∀ (now : Int) (stored : MatchMap) (calls : List TimedCall),
      Along step Admissible (initialized now stored) calls → Unique (run step (initialized now stored) calls) := by
  intro h
  have hdup : ¬ Unique (run step (initialized 0 (sampleMatches [7])) reconnectRun) := by
    show ¬ List.Nodup _
    decide
  exact hdup (h 0 (sampleMatches [7]) reconnectRun (by decide))

/-! ## No live match is lost -/

/-- The match a call cancels with `kNoneError`. -/
def cancelledBy (s : CSMatchManager) (c : TimedCall) : List Int :=
  match c.call with
  | .cancelMatch mid reason => if (cancelMatch s mid reason).code = kNoneError then [mid] else []
  | _ => []

/-- The matches cancelled with `kNoneError` during a run. -/
def cancelled : CSMatchManager → List TimedCall → List Int
  | _, [] => []
  | s, c :: calls => cancelledBy s c ++ cancelled (step s c) calls

/-- Every match of `matches_` outside `gone` is in the pool or in a list. -/
def Kept (s : CSMatchManager) (gone : List Int) : Prop := ∀ mid, mid ∈ s.matches_ → mid ∉ gone → mid ∈ s.allocated

theorem kept_initialized (now : Int) (stored : MatchMap) : Kept (initialized now stored) [] := by
  intro mid hmid _
  obtain ⟨e, he⟩ := OrderedMap.mem_iff.mp hmid
  refine List.mem_append_left _ (List.mem_map.mpr ⟨e, OrderedMap.mem_of_find? he, ?_⟩)
  exact OrderedMap.ord_of_find? he

theorem Kept.of_subset {s s' : CSMatchManager} {gone : List Int} (h : Kept s gone)
    (hmatches : ∀ mid, mid ∈ s'.matches_ → mid ∈ s.matches_) (hall : ∀ mid ∈ s.allocated, mid ∈ s'.allocated) :
    Kept s' gone :=
  fun mid hmid hgone => hall mid (h mid (hmatches mid hmid) hgone)

theorem Kept.add {s : CSMatchManager} {gone : List Int} (h : Kept s gone) (now : Int) (mids : List Int) :
    Kept (addUndistriteMatches s now mids) gone := by
  refine h.of_subset (fun _ hm => hm) fun mid hmid => ?_
  rcases List.mem_append.mp hmid with hmid | hmid
  · exact List.mem_append_left _ (mem_undist_add.mpr (.inl hmid))
  · exact List.mem_append_right _ hmid

theorem Kept.created {s : CSMatchManager} {gone : List Int} (h : Kept s gone) (now : Int)
    (ms : List CPGMatchProfile) : Kept (createdMatches s now ms) gone := by
  intro mid hmid hgone
  rcases mem_createdMatches.mp hmid with hmid | hmid
  · rcases List.mem_append.mp (h mid hmid hgone) with hin | hin
    · exact List.mem_append_left _ (mem_undist_add.mpr (.inl hin))
    · exact List.mem_append_right _ hin
  · exact List.mem_append_left _ (mem_undist_add.mpr (.inr hmid))

theorem Kept.check {s : CSMatchManager} {gone : List Int} (h : Kept s gone) (now : Int) (service : MatchDisService)
    (mids : List Int) : Kept (checkServiceDistMap s now service mids).1 gone := by
  cases hf : s.matchServices_.find? service.sid with
  | some e =>
    rw [checkServiceDistMap_known hf]
    exact h.of_subset (fun _ hm => hm) fun mid hmid =>
      (((OrderedMap.modify_elems_perm_self sort_perm).append_left s.undistMatches_).mem_iff).mpr hmid
  | none =>
    by_cases hm : mids = []
    · subst hm
      rw [checkServiceDistMap_noMatch hf]
      exact h
    · rw [checkServiceDistMap_adopt hf now hm]
      refine h.of_subset (fun _ hm => hm) fun mid hmid => ?_
      -- a match that leaves the pool is in the adopted list
      by_cases hrep : mid ∈ mids
      · exact List.mem_append_right _ ((adopt_elems_perm hf mids).mem_iff.mpr (List.mem_append_left _ hrep))
      · rcases List.mem_append.mp hmid with hmid | hmid
        · exact List.mem_append_left _ (List.mem_filter.mpr ⟨hmid, by simpa using hrep⟩)
        · exact List.mem_append_right _ ((adopt_elems_perm hf mids).mem_iff.mpr (List.mem_append_right _ hmid))

theorem Kept.cancel {s : CSMatchManager} {gone : List Int} (h : Kept s gone) (now mid reason : Int) :
    Kept (cancelMatch s mid reason).manager (gone ++ cancelledBy s ⟨now, .cancelMatch mid reason⟩) := by
  have hkeep := (cancelMatch_allocated s mid reason).2
  rcases cancelMatch_cases s mid reason with ⟨-, hs⟩ | ⟨hcode, ms, -, hs⟩
  · rw [hs]
    exact fun v hv hgone => h v hv fun hin => hgone (List.mem_append_left _ hin)
  · have hby : cancelledBy s ⟨now, .cancelMatch mid reason⟩ = [mid] := if_pos hcode
    intro v hv hgone
    rw [hby, List.mem_append, not_or, List.mem_singleton] at hgone
    rw [hs] at hv
    exact hkeep v (h v hv hgone.1) hgone.2

/-- **Step**: a call loses no live match; a cancellation it accepts ends that match's life. -/
theorem kept_step {s : CSMatchManager} {gone : List Int} (h : Kept s gone) (c : TimedCall) :
    Kept (step s c) (gone ++ cancelledBy s c) := by
  obtain ⟨now, call⟩ := c
  cases call with
  | createdMatches ms => simpa [cancelledBy, step] using h.created now ms
  | addUndistriteMatches mids => simpa [cancelledBy, step] using h.add now mids
  | updateMatchService service =>
    show Kept (updateMatchService s now service) (gone ++ [])
    rw [List.append_nil]
    exact h
  | removeMatchService service =>
    show Kept (removeMatchService s now service) (gone ++ [])
    rw [List.append_nil]
    exact h
  | checkServiceDistMap service mids => simpa [cancelledBy, step] using h.check now service mids
  | cancelMatch mid reason => exact h.cancel now mid reason
  | updateDistMatchServices =>
    have hs : Kept (updateDistMatchServices s now).1 gone := by
      rcases updateDistMatchServices_cases s now with ⟨-, hs⟩ | ⟨-, hs⟩ <;> rw [hs]
      · exact h.of_subset (fun _ hm => hm) fun mid hmid => (applyChanges_perm _).mem_iff.mpr hmid
      · exact h
    simpa [cancelledBy, step] using hs

theorem kept_run {s : CSMatchManager} {gone : List Int} (h : Kept s gone) (calls : List TimedCall) :
    Kept (run step s calls) (gone ++ cancelled s calls) := by
  induction calls generalizing s gone with
  | nil => simpa [cancelled] using h
  | cons c calls ih =>
    rw [run_cons, cancelled, ← List.append_assoc]
    exact ih (kept_step h c)

/-- **No live match is ever lost**: after any calls from `initialize` on, every match of `matches_` that was not
cancelled is in the pool or in a service's list. -/
theorem live_kept (now : Int) (stored : MatchMap) (calls : List TimedCall) (mid : Int)
    (hmid : mid ∈ (run step (initialized now stored) calls).matches_)
    (hlive : mid ∉ cancelled (initialized now stored) calls) :
    mid ∈ (run step (initialized now stored) calls).undistMatches_ ∨
      ∃ e ∈ (run step (initialized now stored) calls).matchServices_.entries, mid ∈ e.2 :=
  mem_allocated.mp (kept_run (kept_initialized now stored) calls mid hmid (by simpa using hlive))

theorem reconnectRun_kept : 7 ∈ (run step (initialized 0 (sampleMatches [7])) reconnectRun).undistMatches_ ∨
    ∃ e ∈ (run step (initialized 0 (sampleMatches [7])) reconnectRun).matchServices_.entries, (7 : Int) ∈ e.2 :=
  live_kept 0 (sampleMatches [7]) reconnectRun 7 (by decide) (by decide)

end AsioUtils.CentralServer.CSMatchManager
