import AsioUtils.CentralServer.Effects

/-!
# The set of match services between two passes

Between two passes the manager only notes what happens to a service, one pending change for each `sid`, and adopts
services that report matches. Replaying the events one by one would give the same set of services:

* `ServiceEvent`, `lastEvent` : what the calls of a run say about a `sid`, and the last of it;
* `WillServe` : the set of services the next pass will leave, read off the map and the log;
* `willServe_step` : a call changes `WillServe` only for the `sid` of its event, and as the event says;
* `mem_services_iff_lastEvent` : after the next pass a `sid` is served if and only if its last event was no removal,
  or it had no event and was served before.
-/

namespace AsioUtils.CentralServer.CSMatchManager

open AsioUtils.CPG StdList Runs

/-- What a call says about a service. -/
inductive ServiceEvent
  | update | remove | adopt
  deriving DecidableEq, Repr

/-- The event a call is for `sid`. A report is one only when it makes the manager adopt the service. -/
def eventOf (sid : Int) (s : CSMatchManager) (c : TimedCall) : Option ServiceEvent :=
  match c.call with
  | .updateMatchService service => if service.sid = sid then some .update else none
  | .removeMatchService service => if service.sid = sid then some .remove else none
  | .checkServiceDistMap service mids =>
    if service.sid = sid ∧ service.sid ∉ s.matchServices_ ∧ mids ≠ [] then some .adopt else none
  | _ => none

/-- The last event of `sid` in a run. -/
def lastEvent (sid : Int) : CSMatchManager → List TimedCall → Option ServiceEvent
  | _, [] => none
  | s, c :: calls => (lastEvent sid (step s c) calls).or (eventOf sid s c)

/-- The call runs no redistribution pass. -/
def NoPass (s : CSMatchManager) (c : TimedCall) : Prop :=
  match c.call with
  | .updateDistMatchServices => checkDistMatchServices s c.now = false
  | _ => True

instance (s : CSMatchManager) : (c : TimedCall) → Decidable (NoPass s c)
  | ⟨now, .updateDistMatchServices⟩ => inferInstanceAs (Decidable (checkDistMatchServices s now = false))
  | ⟨_, .createdMatches _⟩ | ⟨_, .addUndistriteMatches _⟩ | ⟨_, .updateMatchService _⟩ | ⟨_, .removeMatchService _⟩
  | ⟨_, .checkServiceDistMap _ _⟩ | ⟨_, .cancelMatch _ _⟩ => .isTrue trivial

/-- A pass right now would leave `sid` served. -/
def WillServe (sid : Int) (s : CSMatchManager) : Prop :=
  (sid ∈ s.matchServices_ ∧ ∀ c ∈ s.changedServices_, c.type = .removed → c.service.sid ≠ sid) ∨
    ∃ c ∈ s.changedServices_, c.type = .added ∧ c.service.sid = sid

/-- The services noted as new are not in the map. -/
def AddedNew (s : CSMatchManager) : Prop :=
  ∀ c ∈ s.changedServices_, c.type = .added → c.service.sid ∉ s.matchServices_

/-- `WillServe` after an event. -/
def ServedAfter (sid : Int) (s : CSMatchManager) : Option ServiceEvent → Prop
  | some e => e ≠ .remove
  | none => WillServe sid s

/-! ## The step lemma -/

section Frame

variable {s s' : CSMatchManager} {sid : Int}

theorem willServe_congr (hms : ∀ i, i ∈ s'.matchServices_ ↔ i ∈ s.matchServices_)
    (hcs : s'.changedServices_ = s.changedServices_) : WillServe sid s' ↔ WillServe sid s := by
  unfold WillServe
  rw [hms, hcs]

/-- Entries of the log for another service do not matter. -/
theorem willServe_other {k : Int} {extra : List ChangedService}
    (hcs : s'.changedServices_ = s.changedServices_.filter (fun c => c.service.sid ≠ k) ++ extra)
    (hextra : ∀ c ∈ extra, c.service.sid = k) (hms : sid ∈ s'.matchServices_ ↔ sid ∈ s.matchServices_) (hsid : k ≠ sid) :
    WillServe sid s' ↔ WillServe sid s := by
  have hmem : ∀ c : ChangedService, c.service.sid = sid → (c ∈ s'.changedServices_ ↔ c ∈ s.changedServices_) := by
    intro c hc
    rw [hcs, List.mem_append, List.mem_filter, or_iff_left fun hin => hsid ((hextra c hin).symm.trans hc)]
    exact and_iff_left (decide_eq_true fun h => hsid (h.symm.trans hc))
  refine or_congr (and_congr hms ?_) ?_
  · constructor
    · intro hno c hc hrem heq
      exact hno c ((hmem c heq).mpr hc) hrem heq
    · intro hno c hc hrem heq
      exact hno c ((hmem c heq).mp hc) hrem heq
  · constructor
    · rintro ⟨c, hc, hadd, heq⟩
      exact ⟨c, (hmem c heq).mp hc, hadd, heq⟩
    · rintro ⟨c, hc, hadd, heq⟩
      exact ⟨c, (hmem c heq).mpr hc, hadd, heq⟩

theorem AddedNew.congr (h : AddedNew s) (hms : ∀ i, i ∈ s'.matchServices_ ↔ i ∈ s.matchServices_)
    (hcs : s'.changedServices_ = s.changedServices_) : AddedNew s' := by
  intro c hc htype
  rw [hms]
  exact h c (hcs ▸ hc) htype

end Frame

section Update

variable {s : CSMatchManager} (now : Int) (service : ServerInfo)

/-- The entry `updateMatchService` appends. -/
theorem updateMatchService_changed : ∃ type stamp,
    (updateMatchService s now service).changedServices_ =
      s.changedServices_.filter (fun c => c.service.sid ≠ service.sid) ++
        [⟨type, ⟨service.sid, service.loaded⟩, stamp⟩] ∧
    ((service.sid ∉ s.matchServices_ ∧ type = .added) ∨ (service.sid ∈ s.matchServices_ ∧ type = .update)) := by
  refine ⟨_, now, rfl, ?_⟩
  by_cases h : s.matchServices_.find? service.sid = none
  · exact .inl ⟨OrderedMap.not_mem_iff.mpr h, if_pos h⟩
  · exact .inr ⟨not_not.mp (mt OrderedMap.not_mem_iff.mp h), if_neg h⟩

theorem addedNew_update (h : AddedNew s) : AddedNew (updateMatchService s now service) := by
  obtain ⟨type, stamp, hcs, htype⟩ := updateMatchService_changed (s := s) now service
  intro c hc hadded
  rw [hcs] at hc
  rcases List.mem_append.mp hc with hc | hc
  · exact h c (List.mem_filter.mp hc).1 hadded
  · rw [List.mem_singleton.mp hc] at hadded ⊢
    rcases htype with ⟨hnew, -⟩ | ⟨-, hup⟩
    · exact hnew
    · cases hadded.symm.trans hup

theorem willServe_update (sid : Int) :
    WillServe sid (updateMatchService s now service) ↔ service.sid = sid ∨ WillServe sid s := by
  obtain ⟨type, stamp, hcs, htype⟩ := updateMatchService_changed (s := s) now service
  by_cases hsid : service.sid = sid
  · subst hsid
    refine iff_of_true ?_ (.inl rfl)
    unfold WillServe
    rw [hcs]
    rcases htype with ⟨-, rfl⟩ | ⟨hin, rfl⟩
    · exact .inr ⟨_, List.mem_append_right _ (List.mem_singleton_self _), rfl, rfl⟩
    · refine .inl ⟨hin, fun c hc hrem => ?_⟩
      rcases List.mem_append.mp hc with hc | hc
      · exact of_decide_eq_true (List.mem_filter.mp hc).2
      · rw [List.mem_singleton.mp hc] at hrem
        cases hrem
  · rw [or_iff_right hsid]
    exact willServe_other hcs (fun c hc => by rw [List.mem_singleton.mp hc]) Iff.rfl hsid

/-- The log after `removeMatchService`: a service that was only noted as new leaves no trace. -/
theorem removeMatchService_changed :
    (removeMatchService s now service).changedServices_ =
      s.changedServices_.filter (fun c => c.service.sid ≠ service.sid) ++
        (if ∃ c ∈ s.changedServices_, c.service.sid = service.sid ∧ c.type = .added then []
          else [⟨.removed, ⟨service.sid, service.loaded⟩, now⟩]) := by
  unfold removeMatchService updateMatchesOrService startTimerCheckDistMatchServices
  dsimp only
  by_cases h : ∃ c ∈ s.changedServices_, c.service.sid = service.sid ∧ c.type = .added
  · have hany : s.changedServices_.any (fun c => decide (c.service.sid = service.sid ∧ c.type = .added)) = true := by
      simpa using h
    rw [hany, if_pos h]
    simp
  · have hany : s.changedServices_.any (fun c => decide (c.service.sid = service.sid ∧ c.type = .added)) = false := by
      simpa using h
    rw [hany, if_neg h]
    simp

theorem addedNew_remove (h : AddedNew s) : AddedNew (removeMatchService s now service) := by
  intro c hc hadded
  rw [removeMatchService_changed] at hc
  rcases List.mem_append.mp hc with hc | hc
  · exact h c (List.mem_filter.mp hc).1 hadded
  · split_ifs at hc
    · cases hc
    · rw [List.mem_singleton.mp hc] at hadded
      cases hadded

theorem willServe_remove (h : AddedNew s) (sid : Int) :
    WillServe sid (removeMatchService s now service) ↔ service.sid ≠ sid ∧ WillServe sid s := by
  by_cases hsid : service.sid = sid
  · subst hsid
    refine iff_of_false ?_ (fun hne => hne.1 rfl)
    unfold WillServe
    rw [removeMatchService_changed]
    rintro (⟨hin, hno⟩ | ⟨c, hc, hadd, hcs⟩)
    · -- the service is in the map, so it is not noted as new, and its removal is in the log
      have hold : ¬ ∃ c ∈ s.changedServices_, c.service.sid = service.sid ∧ c.type = .added := by
        rintro ⟨c, hc, hcs, hadd⟩
        exact h c hc hadd (hcs ▸ hin)
      rw [if_neg hold] at hno
      exact hno _ (List.mem_append_right _ (List.mem_singleton_self _)) rfl rfl
    · rcases List.mem_append.mp hc with hc | hc
      · simp [hcs] at hc
      · split_ifs at hc
        · cases hc
        · rw [List.mem_singleton.mp hc] at hadd
          cases hadd
  · rw [and_iff_right hsid]
    refine willServe_other (removeMatchService_changed now service) (fun c hc => ?_) Iff.rfl hsid
    split_ifs at hc
    · cases hc
    · rw [List.mem_singleton.mp hc]

end Update

/-- An adoption serves the service and clears its entry of the log. -/
theorem willServe_adopt {s : CSMatchManager} {service : MatchDisService} {mids : List Int} (now : Int)
    (hnew : s.matchServices_.find? service.sid = none) (hm : mids ≠ []) (sid : Int) :
    WillServe sid (checkServiceDistMap s now service mids).1 ↔ service.sid = sid ∨ WillServe sid s := by
  rw [checkServiceDistMap_adopt hnew now hm]
  by_cases hsid : service.sid = sid
  · subst hsid
    refine iff_of_true (.inl ⟨OrderedMap.mem_assign.mpr (.inl rfl), fun c hc _ => ?_⟩) (.inl rfl)
    exact of_decide_eq_true (List.mem_filter.mp hc).2
  · rw [or_iff_right hsid]
    refine willServe_other (List.append_nil _).symm (fun c hc => by cases hc) ?_ hsid
    rw [OrderedMap.mem_assign, or_iff_right (Ne.symm hsid)]

theorem addedNew_adopt {s : CSMatchManager} {service : MatchDisService} {mids : List Int} (now : Int)
    (hnew : s.matchServices_.find? service.sid = none) (hm : mids ≠ []) (h : AddedNew s) :
    AddedNew (checkServiceDistMap s now service mids).1 := by
  rw [checkServiceDistMap_adopt hnew now hm]
  intro c hc hadd
  obtain ⟨hc, hne⟩ := List.mem_filter.mp hc
  rw [OrderedMap.mem_assign, not_or]
  exact ⟨by simpa using hne, h c hc hadd⟩

/-- A check serves a service only when it adopts it. -/
theorem willServe_check {s : CSMatchManager} (h : AddedNew s) (now : Int) (service : MatchDisService) (mids : List Int)
    (sid : Int) : AddedNew (checkServiceDistMap s now service mids).1 ∧
      (WillServe sid (checkServiceDistMap s now service mids).1 ↔ ServedAfter sid s
        (if service.sid = sid ∧ service.sid ∉ s.matchServices_ ∧ mids ≠ [] then some .adopt else none)) := by
  cases hf : s.matchServices_.find? service.sid with
  | some e =>
    have hin : service.sid ∈ s.matchServices_ := OrderedMap.mem_iff.mpr ⟨e, hf⟩
    rw [checkServiceDistMap_known hf, if_neg (fun hcase => hcase.2.1 hin)]
    exact ⟨h.congr (fun i => OrderedMap.mem_modify) rfl, willServe_congr (fun i => OrderedMap.mem_modify) rfl⟩
  | none =>
    by_cases hm : mids = []
    · subst hm
      rw [checkServiceDistMap_noMatch hf, if_neg (fun hcase => hcase.2.2 rfl)]
      exact ⟨h, Iff.rfl⟩
    · refine ⟨addedNew_adopt now hf hm h, (willServe_adopt now hf hm sid).trans ?_⟩
      have hnew := OrderedMap.not_mem_iff.mpr hf
      split_ifs with hsid
      · exact iff_of_true (.inl hsid.1) (show ServiceEvent.adopt ≠ .remove by decide)
      · exact or_iff_right fun heq => hsid ⟨heq, hnew, hm⟩

/-- A cancellation serves and removes no service. -/
theorem willServe_cancel {s : CSMatchManager} (h : AddedNew s) (mid reason sid : Int) :
    AddedNew (cancelMatch s mid reason).manager ∧
      (WillServe sid (cancelMatch s mid reason).manager ↔ WillServe sid s) := by
  rcases cancelMatch_cases s mid reason with ⟨-, hs⟩ | ⟨-, ms, hms, hs⟩ <;> rw [hs]
  · exact ⟨h, Iff.rfl⟩
  · have hkeys : ∀ i, i ∈ ms ↔ i ∈ s.matchServices_ := by
      intro i
      rcases hms with rfl | ⟨owner, rfl⟩
      · rfl
      · exact OrderedMap.mem_modify
    exact ⟨h.congr hkeys rfl, willServe_congr hkeys rfl⟩

/-- **Step**: between passes a call changes which services will be there only as its event says. -/
theorem willServe_step {s : CSMatchManager} {c : TimedCall} (h : AddedNew s) (hno : NoPass s c) (sid : Int) :
    AddedNew (step s c) ∧ (WillServe sid (step s c) ↔ ServedAfter sid s (eventOf sid s c)) := by
  obtain ⟨now, call⟩ := c
  cases call with
  | createdMatches ms => exact ⟨h, Iff.rfl⟩
  | addUndistriteMatches mids => exact ⟨h, Iff.rfl⟩
  | updateMatchService service =>
    refine ⟨addedNew_update now service h, (willServe_update now service sid).trans ?_⟩
    show _ ↔ ServedAfter sid s (if service.sid = sid then some .update else none)
    split_ifs with hsid
    · exact iff_of_true (.inl hsid) (show ServiceEvent.update ≠ .remove by decide)
    · exact or_iff_right hsid
  | removeMatchService service =>
    refine ⟨addedNew_remove now service h, (willServe_remove now service h sid).trans ?_⟩
    show _ ↔ ServedAfter sid s (if service.sid = sid then some .remove else none)
    split_ifs with hsid
    · exact iff_of_false (fun hw => hw.1 hsid) (fun hne => hne rfl)
    · exact and_iff_right hsid
  | checkServiceDistMap service mids => exact willServe_check h now service mids sid
  | cancelMatch mid reason => exact willServe_cancel h mid reason sid
  | updateDistMatchServices =>
    show AddedNew (updateDistMatchServices s now).1 ∧ (WillServe sid (updateDistMatchServices s now).1 ↔ WillServe sid s)
    rcases updateDistMatchServices_cases s now with ⟨hpass, -⟩ | ⟨-, hs⟩
    · exact absurd (hpass.symm.trans hno) (by decide)
    · rw [hs]
      exact ⟨h, Iff.rfl⟩

/-! ## Runs between two passes -/

/-- What the next pass will leave, after any calls between passes. -/
theorem willServe_run {s : CSMatchManager} {calls : List TimedCall} (h : AddedNew s)
    (hno : Along step NoPass s calls) (sid : Int) :
    WillServe sid (run step s calls) ↔ ServedAfter sid s (lastEvent sid s calls) := by
  induction calls generalizing s with
  | nil => rfl
  | cons c calls ih =>
    obtain ⟨hadded, hserve⟩ := willServe_step h hno.1 sid
    rw [run_cons, ih hadded hno.2, lastEvent]
    cases hlast : lastEvent sid (step s c) calls with
    | some e => rfl
    | none => exact hserve

/-- A pass that executes leaves the services `WillServe` names. -/
theorem mem_services_pass {s : CSMatchManager} {now : Int} (h : checkDistMatchServices s now = true) (sid : Int) :
    sid ∈ (step s ⟨now, .updateDistMatchServices⟩).matchServices_ ↔ WillServe sid s := by
  show sid ∈ (updateDistMatchServices s now).1.matchServices_ ↔ _
  rcases updateDistMatchServices_cases s now with ⟨-, hs⟩ | ⟨hno, -⟩
  · rw [hs]
    exact mem_applyChanges
  · exact absurd (h.symm.trans hno) (by decide)

theorem changedServices_pass {s : CSMatchManager} {now : Int} (h : checkDistMatchServices s now = true) :
    (step s ⟨now, .updateDistMatchServices⟩).changedServices_ = [] := by
  show (updateDistMatchServices s now).1.changedServices_ = []
  rcases updateDistMatchServices_cases s now with ⟨-, hs⟩ | ⟨hno, -⟩
  · rw [hs]
    rfl
  · exact absurd (h.symm.trans hno) (by decide)

/-- **The last event wins**: between two passes that execute, at `now` and at `now'`, any calls may come; after the
second pass a `sid` is served if and only if its last event was no removal, or it had none and was served before. -/
theorem mem_services_iff_lastEvent (s₀ : CSMatchManager) (now now' : Int) (calls : List TimedCall) (sid : Int)
    (hpass : checkDistMatchServices s₀ now = true)
    (hbetween : Along step NoPass (step s₀ ⟨now, .updateDistMatchServices⟩) calls)
    (hnext : checkDistMatchServices (run step (step s₀ ⟨now, .updateDistMatchServices⟩) calls) now' = true) :
    sid ∈ (run step (step s₀ ⟨now, .updateDistMatchServices⟩)
        (calls ++ [⟨now', .updateDistMatchServices⟩])).matchServices_ ↔
      (∃ e, lastEvent sid (step s₀ ⟨now, .updateDistMatchServices⟩) calls = some e ∧ e ≠ .remove) ∨
        (lastEvent sid (step s₀ ⟨now, .updateDistMatchServices⟩) calls = none ∧
          sid ∈ (step s₀ ⟨now, .updateDistMatchServices⟩).matchServices_) := by
  have hlog := changedServices_pass hpass
  set s := step s₀ ⟨now, .updateDistMatchServices⟩
  have hadded : AddedNew s := fun c hc => by rw [hlog] at hc; cases hc
  have hstart : WillServe sid s ↔ sid ∈ s.matchServices_ := by
    unfold WillServe
    rw [hlog]
    simp
  rw [run_append]
  refine (mem_services_pass hnext sid).trans ((willServe_run hadded hbetween sid).trans ?_)
  cases lastEvent sid s calls with
  | some e => simp [ServedAfter]
  | none => simpa [ServedAfter] using hstart

/-- Service `1` is lost and comes back, service `2` comes and is lost, service `3` reports a match. -/
def changesRun : List TimedCall :=
  [⟨50, .removeMatchService { sid := 1 }⟩, ⟨51, .updateMatchService { sid := 2 }⟩,
    ⟨52, .updateMatchService { sid := 1 }⟩, ⟨53, .removeMatchService { sid := 2 }⟩,
    ⟨54, .checkServiceDistMap ⟨3, 1⟩ [9]⟩, ⟨60, .updateDistMatchServices⟩]

theorem changesRun_lastEvent :
    let s := step (run step (initialized 0 .empty) [⟨1, .updateMatchService { sid := 1 }⟩]) ⟨40, .updateDistMatchServices⟩
    2 ∈ (run step s (changesRun ++ [⟨90, .updateDistMatchServices⟩])).matchServices_ ↔
      (∃ e, lastEvent 2 s changesRun = some e ∧ e ≠ .remove) ∨
        (lastEvent 2 s changesRun = none ∧ 2 ∈ s.matchServices_) :=
  mem_services_iff_lastEvent (run step (initialized 0 .empty) [⟨1, .updateMatchService { sid := 1 }⟩]) 40 90 changesRun 2
    (by decide) (by decide) (by decide)

end AsioUtils.CentralServer.CSMatchManager
