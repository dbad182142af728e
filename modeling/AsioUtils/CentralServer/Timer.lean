import AsioUtils.CentralServer.NextPass

/-!
# Pending work and the check timer

The manager looks at pending changes and waiting matches only when a timer fires: the initial one, 20 seconds after
`initialize`, or the check timer, which some calls arm and every firing disarms first. A pass arms nothing, so it has to
place every match unless another timer is to fire.

* `Timers`, `Timers.step` : the manager beside the initial timer, under calls and firings;
* `Rearmed` : the steps that leave no work without a timer, read off the state before them;
* `onTime_step`, `onTime_always` : what such steps keep, and runs of them;
* `onTime_iff_rearmed` : where the passes go by real loads, no other runs do.
-/

namespace AsioUtils.CentralServer.CSMatchManager

open AsioUtils.CPG StdList Runs

/-- A manager, and whether the timer `initialize` has created is still to fire. -/
structure Timers where
  manager : CSMatchManager
  initialTimer : Bool

namespace Timers

/-- A call, the check timer's handler `updateDistMatchServices` among them, or the initial timer. -/
inductive Event
  | call (c : TimedCall)
  | initialTimer (now : Int)

def step (t : Timers) : Event → Timers
  | .call c => { t with manager := CSMatchManager.step t.manager c }
  | .initialTimer now =>
    -- the timer repeats nothing: its count is `1`
    if t.initialTimer then ⟨(updateDistMatchServices t.manager now).1, false⟩ else t

/-- The state after `initialize`, which ran at `now`. -/
def initialized (now : Int) (stored : MatchMap) : Timers := ⟨CSMatchManager.initialized now stored, true⟩

/-- A redistribution check is scheduled. -/
def Scheduled (t : Timers) : Prop := t.manager.timer_ = true ∨ t.initialTimer = true

/-- There is a pending change, or a match waits while there is a service. -/
def HasWork (t : Timers) : Prop :=
  t.manager.changedServices_ ≠ [] ∨ (t.manager.undistMatches_ ≠ [] ∧ t.manager.matchServices_.size ≠ 0)

def OnTime (t : Timers) : Prop := t.HasWork → t.Scheduled

/-- If the time gate is open, another timer is to fire, or no service will be left, or the loads are known and there is
room for all that will wait. -/
def PassRearmed (s : CSMatchManager) (otherTimer : Bool) (now : Int) : Prop :=
  checkDistMatchServices s now = true → otherTimer = true ∨ s.nextServices = [] ∨ (s.LoadsKnown ∧ s.HasRoom)

/-- The steps that leave no work without a timer: a pass as in `PassRearmed`, and the adoption of the first service only
while a timer is to fire, or with a report of all that waits. -/
def Rearmed (t : Timers) : Event → Prop
  | .initialTimer now => t.initialTimer = true → PassRearmed t.manager false now
  | .call c =>
    match c.call with
    | .updateDistMatchServices => PassRearmed t.manager t.initialTimer c.now
    | .checkServiceDistMap _ mids => mids = [] ∨ t.Scheduled ∨ t.manager.matchServices_.size ≠ 0 ∨
        ∀ mid ∈ t.manager.undistMatches_, mid ∈ mids
    | _ => True

/-- A pass goes by real loads. -/
def PassKnown (t : Timers) : Event → Prop
  | .initialTimer now => t.initialTimer = true → checkDistMatchServices t.manager now = true → t.manager.LoadsKnown
  | .call c =>
    match c.call with
    | .updateDistMatchServices => checkDistMatchServices t.manager c.now = true → t.manager.LoadsKnown
    | _ => True

section Step

variable {t t' : Timers}

theorem onTime_of_armed (h : t.manager.timer_ = true) : t.OnTime := fun _ => .inl h

theorem OnTime.of_less (h : t.OnTime) (hwork : t'.HasWork → t.HasWork) (htimer : t.Scheduled → t'.Scheduled) :
    t'.OnTime :=
  fun hw => htimer (h (hwork hw))

end Step

/-- After a pass the pending work is what the distribution could not place. -/
theorem hasWork_pass {s : CSMatchManager} {now : Int} (hgate : checkDistMatchServices s now = true) (initialTimer : Bool) :
    HasWork ⟨(updateDistMatchServices s now).1, initialTimer⟩ ↔
      (applyChanges s).1.undistMatches_ ≠ [] ∧ s.nextServices ≠ [] := by
  have hs : (updateDistMatchServices s now).1 = (applyChanges (stopTimerCheckDistMatchServices s)).1 := by
    rcases updateDistMatchServices_cases s now with ⟨-, hs⟩ | ⟨hno, -⟩
    · exact hs
    · exact absurd (hgate.symm.trans hno) (by decide)
  have hserved : (applyChanges s).1.matchServices_.size = 0 ↔ s.nextServices = [] := by
    rw [OrderedMap.size_eq_zero_iff, List.eq_nil_iff_forall_not_mem]
    exact forall_congr' fun sid => not_congr (mem_applyChanges.trans mem_nextServices.symm)
  rw [hs]
  refine Iff.trans ?_ (and_congr_right fun _ => not_congr hserved)
  exact or_iff_right fun hchanged => hchanged rfl

/-- A rearmed pass keeps pending work on time. -/
theorem onTime_pass {s : CSMatchManager} (h : Normalised s) {otherTimer : Bool} {now : Int}
    (hpass : PassRearmed s otherTimer now) : OnTime ⟨(updateDistMatchServices s now).1, otherTimer⟩ := by
  by_cases hgate : checkDistMatchServices s now = true
  · intro hwork
    obtain ⟨hleft, hserved⟩ := (hasWork_pass hgate otherTimer).mp hwork
    rcases hpass hgate with hother | hnone | ⟨hknown, hroom⟩
    · exact .inr hother
    · exact absurd hnone hserved
    · exact absurd ((placed_iff h hknown hserved).mpr hroom) hleft
  · rcases updateDistMatchServices_cases s now with ⟨hopen, -⟩ | ⟨-, hs⟩
    · exact absurd hopen hgate
    · rw [hs]
      exact onTime_of_armed rfl

/-- No other pass does that goes by real loads: it disarms the timer. -/
theorem passRearmed_of_onTime {s : CSMatchManager} (h : Normalised s) {otherTimer : Bool} {now : Int}
    (hknown : checkDistMatchServices s now = true → s.LoadsKnown)
    (htime : OnTime ⟨(updateDistMatchServices s now).1, otherTimer⟩) : PassRearmed s otherTimer now := by
  intro hgate
  have hoff : (updateDistMatchServices s now).1.timer_ = false := by
    rcases updateDistMatchServices_cases s now with ⟨-, hs⟩ | ⟨hno, -⟩
    · rw [hs]
      rfl
    · exact absurd (hgate.symm.trans hno) (by decide)
  by_cases hserved : s.nextServices = []
  · exact .inr (.inl hserved)
  · by_cases hroom : s.HasRoom
    · exact .inr (.inr ⟨hknown hgate, hroom⟩)
    · have hleft : (applyChanges s).1.undistMatches_ ≠ [] := mt (placed_iff h (hknown hgate) hserved).mp hroom
      rcases htime ((hasWork_pass hgate otherTimer).mpr ⟨hleft, hserved⟩) with htimer | hother
      · exact absurd (htimer.symm.trans hoff) (by decide)
      · exact .inl hother

/-- The adoption of a service arms no timer, and may be what makes waiting matches pending work. -/
theorem onTime_adopt {t : Timers} (h : t.OnTime) {service : MatchDisService} {mids : List Int} (now : Int)
    (hnew : t.manager.matchServices_.find? service.sid = none) (hm : mids ≠ []) :
    OnTime ⟨(checkServiceDistMap t.manager now service mids).1, t.initialTimer⟩ ↔
      t.Scheduled ∨ t.manager.matchServices_.size ≠ 0 ∨ ∀ mid ∈ t.manager.undistMatches_, mid ∈ mids := by
  rw [checkServiceDistMap_adopt hnew now hm]
  have hserved : (t.manager.matchServices_.assign service mids).size ≠ 0 := by
    intro h0
    exact OrderedMap.size_eq_zero_iff.mp h0 service.sid (OrderedMap.mem_assign.mpr (.inl rfl))
  have hleft : t.manager.undistMatches_.filter (· ∉ mids) = [] ↔ ∀ mid ∈ t.manager.undistMatches_, mid ∈ mids := by
    simp [List.filter_eq_nil_iff]
  have hpool : t.manager.undistMatches_.filter (· ∉ mids) ≠ [] → t.manager.undistMatches_ ≠ [] := by
    intro hne h0
    exact hne (by rw [h0]; rfl)
  rw [← hleft]
  constructor
  · intro htime
    by_cases hempty : t.manager.undistMatches_.filter (· ∉ mids) = []
    · exact .inr (.inr hempty)
    · exact .inl (htime (.inr ⟨hempty, hserved⟩))
  · rintro hcase (hchanged | ⟨hne, -⟩)
    · -- a change that stays pending was pending before
      refine h (.inl fun h0 => hchanged ?_)
      show t.manager.changedServices_.filter _ = []
      rw [h0]
      rfl
    · rcases hcase with hsched | hsize | hempty
      · exact hsched
      · exact h (.inr ⟨hpool hne, hsize⟩)
      · exact absurd hempty hne

theorem onTime_check {t : Timers} (h : t.OnTime) (service : MatchDisService) (mids : List Int) (now : Int) :
    OnTime ⟨(checkServiceDistMap t.manager now service mids).1, t.initialTimer⟩ ↔ mids = [] ∨ t.Scheduled ∨
      t.manager.matchServices_.size ≠ 0 ∨ ∀ mid ∈ t.manager.undistMatches_, mid ∈ mids := by
  cases hf : t.manager.matchServices_.find? service.sid with
  | some e =>
    have hin : service.sid ∈ t.manager.matchServices_ := OrderedMap.mem_iff.mpr ⟨e, hf⟩
    have hsize : t.manager.matchServices_.size ≠ 0 := fun h0 => OrderedMap.size_eq_zero_iff.mp h0 _ hin
    refine iff_of_true ?_ (.inr (.inr (.inl hsize)))
    rw [checkServiceDistMap_known hf]
    refine h.of_less ?_ id
    rintro (hchanged | ⟨hne, -⟩)
    · exact .inl hchanged
    · exact .inr ⟨hne, hsize⟩
  | none =>
    by_cases hm : mids = []
    · subst hm
      refine iff_of_true ?_ (.inl rfl)
      rw [checkServiceDistMap_noMatch hf]
      exact onTime_of_armed rfl
    · rw [or_iff_right hm]
      exact onTime_adopt h now hf hm

theorem OnTime.cancel {t : Timers} (h : t.OnTime) (mid reason : Int) :
    OnTime ⟨(cancelMatch t.manager mid reason).manager, t.initialTimer⟩ := by
  rcases cancelMatch_cases t.manager mid reason with ⟨-, hs⟩ | ⟨-, ms, hms, hs⟩ <;> rw [hs]
  · exact h
  · refine h.of_less ?_ id
    rintro (hchanged | ⟨hne, hsize⟩)
    · exact .inl hchanged
    · refine .inr ⟨fun h0 => hne (by rw [h0]; rfl), fun h0 => hsize ?_⟩
      rw [OrderedMap.size_eq_zero_iff] at h0 ⊢
      rcases hms with rfl | ⟨sid, rfl⟩
      · exact h0
      · exact fun i hi => h0 i (OrderedMap.mem_modify.mp hi)

theorem normalised_step {t : Timers} (h : Normalised t.manager) (e : Event) : Normalised (t.step e).manager := by
  cases e with
  | call c => exact CSMatchManager.normalised_step h c
  | initialTimer now =>
    show Normalised (if t.initialTimer then (⟨_, false⟩ : Timers) else t).manager
    split_ifs
    · exact CSMatchManager.normalised_step h ⟨now, .updateDistMatchServices⟩
    · exact h

/-- **Step**: a rearmed step keeps pending work on time. -/
theorem onTime_step {t : Timers} (hlog : Normalised t.manager) (h : t.OnTime) {e : Event} (hok : t.Rearmed e) :
    (t.step e).OnTime := by
  cases e with
  | initialTimer now =>
    by_cases hinit : t.initialTimer = true
    · have hstep : t.step (.initialTimer now) = ⟨(updateDistMatchServices t.manager now).1, false⟩ := if_pos hinit
      rw [hstep]
      exact onTime_pass hlog (hok hinit)
    · have hstep : t.step (.initialTimer now) = t := if_neg hinit
      rw [hstep]
      exact h
  | call c =>
    obtain ⟨now, call⟩ := c
    cases call with
    | createdMatches ms => exact onTime_of_armed rfl
    | addUndistriteMatches mids => exact onTime_of_armed rfl
    | updateMatchService service => exact onTime_of_armed rfl
    | removeMatchService service => exact onTime_of_armed rfl
    | checkServiceDistMap service mids => exact (onTime_check h service mids now).mpr hok
    | cancelMatch mid reason => exact h.cancel mid reason
    | updateDistMatchServices => exact onTime_pass hlog hok

/-- With known loads no other step does. -/
theorem rearmed_of_onTime {t : Timers} (hlog : Normalised t.manager) (h : t.OnTime) {e : Event} (hknown : t.PassKnown e)
    (hnext : (t.step e).OnTime) : t.Rearmed e := by
  cases e with
  | initialTimer now =>
    intro hinit
    have hstep : t.step (.initialTimer now) = ⟨(updateDistMatchServices t.manager now).1, false⟩ := if_pos hinit
    rw [hstep] at hnext
    exact passRearmed_of_onTime hlog (hknown hinit) hnext
  | call c =>
    obtain ⟨now, call⟩ := c
    cases call with
    | createdMatches ms | addUndistriteMatches mids | updateMatchService service | removeMatchService service
    | cancelMatch mid reason => trivial
    | checkServiceDistMap service mids => exact (onTime_check h service mids now).mp hnext
    | updateDistMatchServices => exact passRearmed_of_onTime hlog hknown hnext

/-- **Pending work has a timer**: in every state a run of rearmed steps from `initialize` reaches, pending work has a
timer to look at it. -/
theorem onTime_always {now : Int} {stored : MatchMap} {es : List Event}
    (hok : Along step Rearmed (initialized now stored) es) : Always step OnTime (initialized now stored) es := by
  have hinv : Always step (fun t => Normalised t.manager ∧ t.OnTime) (initialized now stored) es :=
    inv_always (fun t e h hok => ⟨normalised_step h.1 e, onTime_step h.1 h.2 hok⟩)
      ⟨normalised_initialized now stored, fun _ => .inr rfl⟩ hok
  exact hinv.mono fun t h => h.2

/-- Among the runs whose passes go by real loads these are the only ones. -/
theorem onTime_iff_rearmed {now : Int} {stored : MatchMap} {es : List Event}
    (hknown : Along step PassKnown (initialized now stored) es) :
    Always step OnTime (initialized now stored) es ↔ Along step Rearmed (initialized now stored) es := by
  have hiff : ∀ t e, (Normalised t.manager ∧ OnTime t) → PassKnown t e → (OnTime (step t e) ↔ Rearmed t e) :=
    fun t e h hk => ⟨rearmed_of_onTime h.1 h.2 hk, onTime_step h.1 h.2⟩
  have hkeep : ∀ t e, (Normalised t.manager ∧ OnTime t) → PassKnown t e → Rearmed t e →
      Normalised (step t e).manager ∧ OnTime (step t e) :=
    fun t e h _ hok => ⟨normalised_step h.1 e, onTime_step h.1 h.2 hok⟩
  exact always_iff_along_of_inv (fun t h => h.2) hiff hkeep ⟨normalised_initialized now stored, fun _ => .inr rfl⟩ hknown

/-- Two services register; the check timer and the initial one fire too early for a pass, and then the check timer. -/
def twoServicesRun : List Event :=
  [.call ⟨1, .updateMatchService { sid := 1 }⟩, .call ⟨1, .updateMatchService { sid := 2 }⟩,
    .call ⟨11, .updateDistMatchServices⟩, .initialTimer 20, .call ⟨30, .updateDistMatchServices⟩]

/-- There is room for two matches. -/
theorem twoServicesRun_onTime : Always step OnTime (initialized 0 (sampleMatches [7, 8])) twoServicesRun :=
  have hrearmed : Along step Rearmed (initialized 0 (sampleMatches [7, 8])) twoServicesRun :=
    ⟨trivial, trivial, fun hgate => absurd hgate (by decide), fun _ hgate => absurd hgate (by decide),
      fun _ => .inr (.inr (by decide)), trivial⟩
  onTime_always hrearmed

/-- The average of one match and two services is `0`: the match waits, and no timer is left. -/
theorem strandedRun_waits : ¬ ∀ (now : Int) (stored : MatchMap) (es : List Event),
    Always step OnTime (initialized now stored) es := by
  intro h
  have htime := (h 0 (sampleMatches [7]) twoServicesRun).last
  have hwork : (run step (initialized 0 (sampleMatches [7])) twoServicesRun).manager.undistMatches_ ≠ [] ∧
      (run step (initialized 0 (sampleMatches [7])) twoServicesRun).manager.matchServices_.size ≠ 0 := by decide
  have hno : ¬ ((run step (initialized 0 (sampleMatches [7])) twoServicesRun).manager.timer_ = true ∨
      (run step (initialized 0 (sampleMatches [7])) twoServicesRun).initialTimer = true) := by decide
  exact hno (htime (.inr hwork))

end Timers

end AsioUtils.CentralServer.CSMatchManager
