import AsioUtils.CentralServer.Balance
import AsioUtils.CentralServer.Cancellation
import AsioUtils.CentralServer.LastEvent

/-!
# The recorded loads, over whole runs

A service's load is recorded in its key of `matchServices_` and refreshed by erasing and inserting the entry. The
redistribution does so for the services it changes, `cancelMatch` does not, and part ② of a pass gives an updated
service the load `0` of its `ServerInfo`, whatever its list.

* `accurate_pass` : a pass keeps real loads real unless it updates a service that has matches;
* `loads_always` : so does a run whose cancellations find their match in no list of a service above zero.
-/

namespace AsioUtils.CentralServer.CSMatchManager

open AsioUtils.CPG StdList Runs MatchDistribution

/-! ## The parts of a pass -/

section Parts

variable {ms : ServiceMap}

/-- An assignment of a list as long as the recorded load. -/
theorem accurate_assign (h : Accurate ms) {k : MatchDisService} {mids : List Int} (hk : k.loaded = mids.length)
    (hold : ∀ e, ms.find? k.sid = some e → e.2.length = mids.length) : Accurate (ms.assign k mids) := by
  rw [accurate_iff]
  intro i x hx
  rw [OrderedMap.find?_assign] at hx
  split_ifs at hx with hi
  · obtain rfl := Option.some.inj hx
    rw [hi]
    cases hf : ms.find? k.sid with
    | none => exact hk
    | some e => exact (accurate_iff.mp h _ e hf).trans (congrArg _ (hold e hf))
  · exact accurate_iff.mp h i x hx

theorem accurate_removeServices (cs : List ChangedService) (undist : List Int) (h : Accurate ms) :
    Accurate (removeServices cs undist ms).2 := by
  rw [accurate_iff]
  intro i e he
  rw [find?_removeServices] at he
  split_ifs at he
  exact accurate_iff.mp h i e he

/-- Part ② may find loads that are not real, as long as an update with the real one is pending. -/
theorem accurate_updateServices {cs : List ChangedService}
    (h : ∀ i e, ms.find? i = some e → (∀ c ∈ cs, c.type = .update → c.service.sid ≠ i) → e.1.loaded = e.2.length)
    (hload : ∀ c ∈ cs, c.type = .update → c.service.loaded = (getDistMatch ms c.service.sid).length) :
    Accurate (updateServices cs ms) := by
  induction cs generalizing ms with
  | nil => exact accurate_iff.mpr fun i e he => h i e he fun c hc => absurd hc List.not_mem_nil
  | cons c cs ih =>
    obtain ⟨hc, hcs⟩ := List.forall_mem_cons.mp hload
    -- an entry the rest of the log leaves alone, and this entry as well
    have hrest : ∀ i e, ms.find? i = some e → (c.type = .update → c.service.sid ≠ i) →
        (∀ d ∈ cs, d.type = .update → d.service.sid ≠ i) → e.1.loaded = e.2.length := fun i e he hi hno =>
      h i e he (List.forall_mem_cons.mpr ⟨hi, hno⟩)
    rw [updateServices]
    split_ifs with htype
    · cases hf : ms.find? c.service.sid with
      | none =>
        refine ih (fun i e he => hrest i e he fun _ hi => ?_) hcs
        rw [hi, he] at hf
        cases hf
      | some e =>
        dsimp only
        refine ih (fun i x hx hno => ?_) fun d hd hdtype => ?_
        · rw [OrderedMap.find?_insert, OrderedMap.find?_erase] at hx
          split_ifs at hx with hi
          · obtain rfl := Option.some.inj hx
            have hlist : getDistMatch ms c.service.sid = e.2 := by
              unfold getDistMatch
              rw [hf]
            rw [Option.getD_none, hc htype, hlist]
          · exact hrest i x hx (fun _ => Ne.symm hi) hno
        · rw [getDistMatch_rekey hf]
          exact hcs d hd hdtype
    · exact ih (fun i e he hno => hrest i e he (fun hup => absurd hup htype) hno) hcs

theorem accurate_addServices {cs : List ChangedService} (h : Accurate ms) (hzero : ∀ c ∈ cs, c.service.loaded = 0) :
    Accurate (addServices cs ms) := by
  induction cs generalizing ms with
  | nil => exact h
  | cons c cs ih =>
    obtain ⟨hc, hcs⟩ := List.forall_mem_cons.mp hzero
    rw [addServices]
    cases hf : ms.find? c.service.sid with
    | none => exact ih (accurate_assign h hc fun e he => absurd (hf.symm.trans he) (by simp)) hcs
    | some e =>
      dsimp only
      split_ifs with hempty
      · refine ih (accurate_assign h hc fun x hx => ?_) hcs
        rw [← Option.some.inj (hf.symm.trans hx)]
        exact hempty
      · exact ih h hcs

end Parts

/-! ## The calls -/

/-- The recorded loads are the real ones, and no pending change carries a load. -/
structure LoadsReal (s : CSMatchManager) : Prop where
  accurate : Accurate s.matchServices_
  pending : ∀ c ∈ s.changedServices_, c.service.loaded = 0

/-- A `ServerInfo` has the load `0`, and a report the load of its length. -/
def LoadGiven (_s : CSMatchManager) (c : TimedCall) : Prop :=
  match c.call with
  | .updateMatchService service => service.loaded = 0
  | .removeMatchService service => service.loaded = 0
  | .checkServiceDistMap service mids => service.loaded = mids.length
  | _ => True

instance (s : CSMatchManager) : (c : TimedCall) → Decidable (LoadGiven s c)
  | ⟨_, .updateMatchService service⟩ => inferInstanceAs (Decidable (service.loaded = 0))
  | ⟨_, .removeMatchService service⟩ => inferInstanceAs (Decidable (service.loaded = 0))
  | ⟨_, .checkServiceDistMap service mids⟩ => inferInstanceAs (Decidable (service.loaded = mids.length))
  | ⟨_, .createdMatches _⟩ | ⟨_, .addUndistriteMatches _⟩ | ⟨_, .cancelMatch _ _⟩ | ⟨_, .updateDistMatchServices⟩ =>
    .isTrue trivial

/-- No cancelled match is taken out of a list, and a pass updates only services without matches. -/
def ListsKept (s : CSMatchManager) (c : TimedCall) : Prop :=
  match c.call with
  | .cancelMatch mid _ => Cancellable s mid → getService s mid ≤ 0
  | .updateDistMatchServices => checkDistMatchServices s c.now = true →
      ∀ changed ∈ s.changedServices_, changed.type = .update → getDistMatch s.matchServices_ changed.service.sid = []
  | _ => True

theorem accurate_pass {s : CSMatchManager} (h : LoadsReal s)
    (hkept : ∀ c ∈ s.changedServices_, c.type = .update → getDistMatch s.matchServices_ c.service.sid = []) :
    LoadsReal (applyChanges s).1 := by
  have hupdated : Accurate (updateServices (s.changedServices_.filter fun c => c.type ≠ .removed)
      (removeServices s.changedServices_ [] s.matchServices_).2) := by
    refine accurate_updateServices (fun i e he _ => ?_) fun c hc htype => ?_
    · exact accurate_iff.mp (accurate_removeServices _ _ h.accurate) i e he
    · have hc := (List.mem_filter.mp hc).1
      rw [getDistMatch_removeServices (hkept c hc htype)]
      exact h.pending c hc
  refine ⟨accurate_redistribute (accurate_addServices hupdated fun c hc => ?_) _ _, fun c hc => absurd hc List.not_mem_nil⟩
  exact h.pending c (List.mem_filter.mp (List.mem_filter.mp hc).1).1

/-- A log that loses entries of one service and gains entries without a load. -/
theorem pending_replace {s : CSMatchManager} (h : LoadsReal s) {sid : Int} {extra : List ChangedService}
    (hextra : ∀ c ∈ extra, c.service.loaded = 0) :
    ∀ c ∈ s.changedServices_.filter (fun c => c.service.sid ≠ sid) ++ extra, c.service.loaded = 0 := by
  intro c hc
  rcases List.mem_append.mp hc with hc | hc
  · exact h.pending c (List.mem_filter.mp hc).1
  · exact hextra c hc

theorem LoadsReal.check {s : CSMatchManager} (h : LoadsReal s) (now : Int) {service : MatchDisService} {mids : List Int}
    (hload : service.loaded = mids.length) : LoadsReal (checkServiceDistMap s now service mids).1 := by
  cases hf : s.matchServices_.find? service.sid with
  | some e =>
    rw [checkServiceDistMap_known hf]
    refine ⟨accurate_iff.mpr fun i x hx => ?_, h.pending⟩
    dsimp only at hx
    rw [OrderedMap.find?_modify] at hx
    split_ifs at hx
    · obtain ⟨x₀, hx₀, rfl⟩ := Option.map_eq_some_iff.mp hx
      exact (accurate_iff.mp h.accurate i x₀ hx₀).trans (congrArg _ (sort_perm x₀.2).length_eq.symm)
    · exact accurate_iff.mp h.accurate i x hx
  | none =>
    by_cases hm : mids = []
    · subst hm
      rw [checkServiceDistMap_noMatch hf]
      exact ⟨h.accurate, h.pending⟩
    · rw [checkServiceDistMap_adopt hf now hm]
      refine ⟨accurate_assign h.accurate hload fun e he => absurd (hf.symm.trans he) (by simp), fun c hc => ?_⟩
      exact h.pending c (List.mem_filter.mp hc).1

/-- **Step**: a call that takes no match out of a list, and updates no service that has matches, keeps real loads real. -/
theorem loadsReal_step {s : CSMatchManager} {c : TimedCall} (h : LoadsReal s) (hgiven : LoadGiven s c)
    (hkept : ListsKept s c) : LoadsReal (step s c) := by
  obtain ⟨now, call⟩ := c
  cases call with
  | createdMatches ms => exact ⟨h.accurate, h.pending⟩
  | addUndistriteMatches mids => exact ⟨h.accurate, h.pending⟩
  | updateMatchService service =>
    obtain ⟨type, stamp, hcs, -⟩ := updateMatchService_changed (s := s) now service
    refine ⟨h.accurate, ?_⟩
    show ∀ c ∈ (updateMatchService s now service).changedServices_, c.service.loaded = 0
    rw [hcs]
    exact pending_replace h fun c hc => by rw [List.mem_singleton.mp hc]; exact hgiven
  | removeMatchService service =>
    refine ⟨h.accurate, ?_⟩
    show ∀ c ∈ (removeMatchService s now service).changedServices_, c.service.loaded = 0
    rw [removeMatchService_changed]
    refine pending_replace h fun c hc => ?_
    split_ifs at hc
    · cases hc
    · rw [List.mem_singleton.mp hc]
      exact hgiven
  | checkServiceDistMap service mids => exact h.check now hgiven
  | cancelMatch mid reason =>
    show LoadsReal (cancelMatch s mid reason).manager
    rcases cancelMatch_cases s mid reason with ⟨-, hs⟩ | ⟨hcode, -⟩
    · rw [hs]
      exact h
    · have hnone : ¬ 0 < getService s mid := not_lt.mpr (hkept (cancelMatch_code_iff.mp hcode))
      rw [(cancelMatch_of_code hcode).1, if_neg hnone]
      exact ⟨h.accurate, h.pending⟩
  | updateDistMatchServices =>
    show LoadsReal (updateDistMatchServices s now).1
    rcases updateDistMatchServices_cases s now with ⟨hgate, hs⟩ | ⟨-, hs⟩ <;> rw [hs]
    · exact accurate_pass (s := stopTimerCheckDistMatchServices s) ⟨h.accurate, h.pending⟩ (hkept hgate)
    · exact ⟨h.accurate, h.pending⟩

/-- **Recorded loads are real** in every state that a run from `initialize` reaches, as long as no accepted cancellation
takes its match out of a service's list and no pass updates a service that has matches. -/
theorem loads_always {now : Int} {stored : MatchMap} {calls : List TimedCall}
    (hgiven : Along step LoadGiven (initialized now stored) calls)
    (hkept : Along step ListsKept (initialized now stored) calls) :
    Always step (fun s => Accurate s.matchServices_) (initialized now stored) calls := by
  have h0 : LoadsReal (initialized now stored) :=
    ⟨fun e he => absurd he List.not_mem_nil, fun c hc => absurd hc List.not_mem_nil⟩
  have hboth := hgiven.and hkept
  have hreal : Always step LoadsReal (initialized now stored) calls :=
    inv_always (fun _ _ h hp => loadsReal_step h hp.1 hp.2) h0 hboth
  exact hreal.mono fun _ h => h.accurate

/-- A service is adopted with match `7`, a match that waits is cancelled, and a pass follows. -/
def waitingCancelled : List TimedCall :=
  [⟨1, .updateMatchService { sid := 1 }⟩, ⟨2, .checkServiceDistMap ⟨1, 1⟩ [7]⟩, ⟨3, .cancelMatch 8 0⟩,
    ⟨40, .updateDistMatchServices⟩]

theorem waitingCancelled_loads :
    Always step (fun s => Accurate s.matchServices_) (initialized 0 (sampleMatches [7, 8])) waitingCancelled :=
  have hkept : Along step ListsKept (initialized 0 (sampleMatches [7, 8])) waitingCancelled :=
    ⟨trivial, trivial, fun _ => by decide, fun _ => by decide, trivial⟩
  loads_always (by decide) hkept

/-- A pass gives match `7` to the one service, and the match is cancelled. -/
def runningCancelled : List TimedCall :=
  [⟨1, .updateMatchService { sid := 1 }⟩, ⟨40, .updateDistMatchServices⟩, ⟨50, .cancelMatch 7 0⟩]

/-- The list is empty then and its recorded load `1`. -/
theorem runningCancelled_stale : ¬ ∀ (now : Int) (stored : MatchMap) (calls : List TimedCall),
    Along step LoadGiven (initialized now stored) calls →
      Always step (fun s => Accurate s.matchServices_) (initialized now stored) calls := by
  intro h
  have hreal := (h 0 (sampleMatches [7]) runningCancelled (by decide)).last
  have hstale : ¬ Accurate (run step (initialized 0 (sampleMatches [7])) runningCancelled).matchServices_ := by decide
  exact hstale hreal

end AsioUtils.CentralServer.CSMatchManager
