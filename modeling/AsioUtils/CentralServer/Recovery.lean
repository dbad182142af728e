import AsioUtils.CentralServer.LastEvent
import AsioUtils.CentralServer.Ownership
import Mathlib.Data.List.Induction

/-!
# Recovery after a restart of the central server

The match servers reconnect on their own and each sends what it runs, so the manager rebuilds the distribution out of
reports that arrive in any order.

* `Report`, `Interleaving` : every service updates itself and then reports, otherwise in any order, with time checks
  anywhere;
* `Recovering` : the state after some of the reports, as a function of *which* have arrived;
* `recovering_step`, `recovering_prefix` : a call, and any first part of an interleaving, keep it;
* `recovered` : after all of them every service has exactly its list, the pool the rest, and the log is empty.
-/

namespace AsioUtils.CentralServer.CSMatchManager

open AsioUtils.CPG StdList Runs

/-- A match server that comes back and the matches it says it runs. -/
structure Report where
  info : ServerInfo
  mids : List Int

namespace Report

def sid (r : Report) : Int := r.info.sid

/-- The key the report is checked under. -/
def key (r : Report) : MatchDisService := ⟨r.sid, r.mids.length⟩

@[simp] theorem key_sid (r : Report) : r.key.sid = r.sid := rfl

/-- The two calls a reconnecting service causes. -/
def calls (r : Report) : List Call := [.updateMatchService r.info, .checkServiceDistMap r.key r.mids]

end Report

/-- The service a call is about. -/
def Call.sid? : Call → Option Int
  | .updateMatchService service => some service.sid
  | .removeMatchService service => some service.sid
  | .checkServiceDistMap service _ => some service.sid
  | _ => none

/-- The calls of the reports, each report's own two in order, and calls of the timer. -/
structure Interleaving (reports : List Report) (calls : List TimedCall) : Prop where
  own : ∀ r ∈ reports, (calls.map (·.call)).filter (fun c => c.sid? = some r.sid) = r.calls
  only : ∀ c ∈ calls, c.call = .updateDistMatchServices ∨ ∃ r ∈ reports, c.call ∈ r.calls

/-- The state when exactly the reports of `arrived` have been checked. -/
structure Recovering (reports arrived : List Report) (stored : MatchMap) (s : CSMatchManager) : Prop where
  arrived_find : ∀ r ∈ arrived, s.matchServices_.find? r.sid = some (r.key, r.mids)
  services : ∀ i, i ∈ s.matchServices_ → ∃ r ∈ arrived, r.sid = i
  undist : s.undistMatches_ = stored.keys.filter fun mid => ∀ r ∈ arrived, mid ∉ r.mids
  changed : ∀ c ∈ s.changedServices_, ∃ r ∈ reports, r.sid = c.service.sid ∧ ∀ r' ∈ arrived, r'.sid ≠ r.sid

theorem recovering_initialized (reports : List Report) (now : Int) (stored : MatchMap) :
    Recovering reports [] stored (initialized now stored) where
  arrived_find := by simp
  services i hi := absurd hi (OrderedMap.not_mem_empty i)
  undist := by simp [initialized, initializeWith]
  changed := by simp [initialized, initializeWith]

section Step

variable {reports arrived : List Report} {stored : MatchMap} {s : CSMatchManager} {r : Report}

theorem Recovering.update (h : Recovering reports arrived stored s) (hr : r ∈ reports)
    (hnew : ∀ r' ∈ arrived, r'.sid ≠ r.sid) (now : Int) :
    Recovering reports arrived stored (updateMatchService s now r.info) where
  arrived_find := h.arrived_find
  services := h.services
  undist := h.undist
  changed := by
    obtain ⟨type, stamp, hcs, -⟩ := updateMatchService_changed (s := s) now r.info
    intro c hc
    rw [hcs] at hc
    rcases List.mem_append.mp hc with hc | hc
    · exact h.changed c (List.mem_filter.mp hc).1
    · rw [List.mem_singleton.mp hc]
      exact ⟨r, hr, rfl, hnew⟩

/-- A report of a service that has not been checked yet is adopted as it stands. -/
theorem Recovering.check (h : Recovering reports arrived stored s) (hnew : ∀ r' ∈ arrived, r'.sid ≠ r.sid)
    (hm : r.mids ≠ []) (now : Int) :
    Recovering reports (r :: arrived) stored (checkServiceDistMap s now r.key r.mids).1 := by
  have hunknown : s.matchServices_.find? r.sid = none := by
    rw [← OrderedMap.not_mem_iff]
    intro hin
    obtain ⟨r', hr', hsid⟩ := h.services _ hin
    exact hnew r' hr' hsid
  rw [checkServiceDistMap_adopt hunknown now hm]
  constructor
  · intro r' hr'
    show (s.matchServices_.assign r.key r.mids).find? r'.sid = _
    rw [OrderedMap.find?_assign, Report.key_sid]
    rcases List.mem_cons.mp hr' with rfl | hr'
    · rw [if_pos rfl, hunknown]
      rfl
    · rw [if_neg (hnew r' hr')]
      exact h.arrived_find r' hr'
  · intro i hi
    rcases OrderedMap.mem_assign.mp hi with rfl | hi
    · exact ⟨r, List.mem_cons_self, rfl⟩
    · obtain ⟨r', hr', hsid⟩ := h.services i hi
      exact ⟨r', List.mem_cons_of_mem r hr', hsid⟩
  · show s.undistMatches_.filter (· ∉ r.mids) = _
    rw [h.undist, List.filter_filter]
    congr 1
    funext mid
    simp only [List.forall_mem_cons, Bool.decide_and]
  · intro c hc
    obtain ⟨hc, hne⟩ := List.mem_filter.mp hc
    obtain ⟨r', hr', hsid, hfar⟩ := h.changed c hc
    refine ⟨r', hr', hsid, fun r'' hr'' => ?_⟩
    rcases List.mem_cons.mp hr'' with rfl | hr''
    · intro heq
      exact of_decide_eq_true hne (hsid.symm.trans heq.symm)
    · exact hfar r'' hr''

theorem Recovering.noPass (h : Recovering reports arrived stored s) {now : Int}
    (hno : checkDistMatchServices s now = false) :
    Recovering reports arrived stored (updateDistMatchServices s now).1 := by
  rcases updateDistMatchServices_cases s now with ⟨hpass, -⟩ | ⟨-, hs⟩
  · exact absurd (hpass.symm.trans hno) (by decide)
  · rw [hs]
    exact ⟨h.arrived_find, h.services, h.undist, h.changed⟩

end Step

section Order

variable {reports : List Report} {calls : List TimedCall}

/-- When a call of a report comes, the report has not been checked yet. -/
theorem Interleaving.before (h : Interleaving reports calls) {r : Report} (hr : r ∈ reports) {pre post : List TimedCall}
    {c : TimedCall} (hsplit : calls = pre ++ c :: post) (hc : c.call ∈ r.calls) :
    Call.checkServiceDistMap r.key r.mids ∉ pre.map (·.call) := by
  intro hbefore
  have hown := h.own r hr
  have hsid : c.call.sid? = some r.sid := by
    rcases List.mem_cons.mp hc with hcall | hcall
    · rw [hcall]; rfl
    · rw [List.mem_singleton.mp hcall]; rfl
  rw [hsplit, List.map_append, List.filter_append, List.map_cons, List.filter_cons_of_pos (by simpa using hsid)] at hown
  -- the report's check is already in the first part, so it is the second of the two calls, and nothing may follow it
  have hin : Call.checkServiceDistMap r.key r.mids ∈
      (pre.map (·.call)).filter (fun c => c.sid? = some r.sid) :=
    List.mem_filter.mpr ⟨hbefore, by simp [Call.sid?, Report.key]⟩
  revert hown hin
  generalize (pre.map (·.call)).filter (fun c => c.sid? = some r.sid) = first
  generalize (post.map (·.call)).filter (fun c => c.sid? = some r.sid) = last
  intro hown hin
  match first with
  | [] => cases hin
  | [x] =>
    injection hown with hx
    rw [List.mem_singleton, hx] at hin
    cases hin
  | x :: y :: rest =>
    have hlen := congrArg List.length hown
    simp [Report.calls] at hlen

/-- `arrived` are the reports that have been checked during `pre`. -/
def Arrived (reports arrived : List Report) (pre : List TimedCall) : Prop :=
  ∀ r, r ∈ arrived ↔ r ∈ reports ∧ Call.checkServiceDistMap r.key r.mids ∈ pre.map (·.call)

/-- One more call of an interleaving. -/
theorem recovering_step (hI : Interleaving reports calls) (hsids : (reports.map Report.sid).Nodup)
    (hmids : ∀ r ∈ reports, r.mids ≠ []) {arrived : List Report} {stored : MatchMap} {s : CSMatchManager}
    {pre post : List TimedCall} {c : TimedCall} (hsplit : calls = pre ++ c :: post) (hno : NoPass s c)
    (harr : Arrived reports arrived pre) (hrec : Recovering reports arrived stored s) :
    ∃ arrived', Arrived reports arrived' (pre ++ [c]) ∧ Recovering reports arrived' stored (step s c) := by
  have hsame : ∀ r r', r ∈ reports → r' ∈ reports → r'.sid = r.sid → r' = r :=
    fun r r' hr hr' => List.inj_on_of_nodup_map hsids hr' hr
  rcases hI.only c (hsplit ▸ List.mem_append_right _ List.mem_cons_self) with hcall | ⟨r, hr, hcall⟩
  · refine ⟨arrived, fun r => ?_, ?_⟩
    · rw [harr, List.map_append, List.mem_append]
      simp [hcall]
    · obtain ⟨t, call⟩ := c
      subst hcall
      exact hrec.noPass hno
  · have hnot := hI.before hr hsplit hcall
    have hnew : ∀ r' ∈ arrived, r'.sid ≠ r.sid := by
      intro r' hr' heq
      obtain ⟨hin, hchecked⟩ := (harr r').mp hr'
      rw [hsame r r' hr hin heq] at hchecked
      exact hnot hchecked
    obtain ⟨t, call⟩ := c
    rcases List.mem_cons.mp hcall with hcall | hcall
    · subst hcall
      refine ⟨arrived, fun r' => ?_, hrec.update hr hnew t⟩
      rw [harr, List.map_append, List.mem_append]
      simp
    · rw [List.mem_singleton] at hcall
      subst hcall
      refine ⟨r :: arrived, fun r' => ?_, hrec.check hnew (hmids r hr) t⟩
      rw [List.mem_cons, harr, List.map_append, List.mem_append]
      constructor
      · rintro (rfl | ⟨hin, hchecked⟩)
        · exact ⟨hr, .inr (List.mem_singleton_self _)⟩
        · exact ⟨hin, .inl hchecked⟩
      · rintro ⟨hin, hchecked | hchecked⟩
        · exact .inr ⟨hin, hchecked⟩
        · have hkey := List.mem_singleton.mp hchecked
          injection hkey with hkey _
          exact .inl (hsame r r' hr hin (congrArg MatchDisService.sid hkey))

/-- The state after any first part of an interleaving. -/
theorem recovering_prefix (hI : Interleaving reports calls) (hsids : (reports.map Report.sid).Nodup)
    (hmids : ∀ r ∈ reports, r.mids ≠ []) (now : Int) (stored : MatchMap)
    (hquiet : Along step NoPass (initialized now stored) calls) (pre : List TimedCall) (hpre : pre <+: calls) :
    ∃ arrived, Arrived reports arrived pre ∧
      Recovering reports arrived stored (run step (initialized now stored) pre) := by
  induction pre using List.reverseRecOn with
  | nil => exact ⟨[], by simp [Arrived], recovering_initialized reports now stored⟩
  | append_singleton pre c ih =>
    obtain ⟨post, hpost⟩ := hpre
    have hsplit : calls = pre ++ c :: post := by simpa using hpost.symm
    obtain ⟨arrived, harr, hrec⟩ := ih ⟨c :: post, hsplit.symm⟩
    obtain ⟨-, hno, -⟩ := along_append.mp (hsplit ▸ hquiet)
    rw [run_append]
    exact recovering_step hI hsids hmids hsplit hno harr hrec

end Order

theorem keys_pairwise_lt (stored : MatchMap) : stored.keys.Pairwise (· < ·) := List.pairwise_map.mpr stored.sorted

/-- **Recovery**: when services with distinct `sid`s report their matches, in any interleaving and with no pass in
between, every service ends with exactly its list and load, no other service is there, the pool holds the remaining
keys in ascending order, and no change is pending. -/
theorem recovered (now : Int) (stored : MatchMap) (reports : List Report) (calls : List TimedCall)
    (hsids : (reports.map Report.sid).Nodup) (hmids : ∀ r ∈ reports, r.mids ≠ [])
    (hI : Interleaving reports calls) (hquiet : Along step NoPass (initialized now stored) calls) :
    (∀ r ∈ reports, (run step (initialized now stored) calls).matchServices_.find? r.sid =
        some (⟨r.sid, r.mids.length⟩, r.mids)) ∧
    (∀ i, i ∈ (run step (initialized now stored) calls).matchServices_ → ∃ r ∈ reports, r.sid = i) ∧
    (run step (initialized now stored) calls).undistMatches_ =
      stored.keys.filter (fun mid => ∀ r ∈ reports, mid ∉ r.mids) ∧
    (run step (initialized now stored) calls).undistMatches_.Pairwise (· < ·) ∧
    (run step (initialized now stored) calls).changedServices_ = [] := by
  obtain ⟨arrived, harr, hrec⟩ := recovering_prefix hI hsids hmids now stored hquiet calls List.prefix_rfl
  have hall : ∀ r, r ∈ arrived ↔ r ∈ reports := by
    intro r
    rw [harr, and_iff_left_of_imp]
    intro hr
    have hin : Call.checkServiceDistMap r.key r.mids ∈ r.calls := by simp [Report.calls]
    rw [← hI.own r hr] at hin
    exact (List.mem_filter.mp hin).1
  have hundist : (run step (initialized now stored) calls).undistMatches_ =
      stored.keys.filter (fun mid => ∀ r ∈ reports, mid ∉ r.mids) := by
    rw [hrec.undist]
    simp only [hall]
  refine ⟨fun r hr => hrec.arrived_find r ((hall r).mpr hr), fun i hi => ?_, hundist, ?_, ?_⟩
  · obtain ⟨r, hr, hsid⟩ := hrec.services i hi
    exact ⟨r, (hall r).mp hr, hsid⟩
  · rw [hundist]
    exact (keys_pairwise_lt stored).filter _
  · rw [List.eq_nil_iff_forall_not_mem]
    intro c hc
    obtain ⟨r, hr, -, hfar⟩ := hrec.changed c hc
    exact hfar r ((hall r).mpr hr) rfl

def restartReports : List Report := [⟨{ sid := 1 }, [9, 7]⟩, ⟨{ sid := 2 }, [8]⟩]

def restartCalls : List TimedCall :=
  [⟨1, .updateMatchService { sid := 2 }⟩, ⟨1, .updateMatchService { sid := 1 }⟩,
    ⟨2, .checkServiceDistMap ⟨1, 2⟩ [9, 7]⟩, ⟨20, .updateDistMatchServices⟩, ⟨21, .checkServiceDistMap ⟨2, 1⟩ [8]⟩]

theorem restart_interleaving : Interleaving restartReports restartCalls where
  own := by simp [restartReports, restartCalls, Call.sid?, Report.sid, Report.calls, Report.key]
  only := by simp [restartReports, restartCalls, Report.calls, Report.key, Report.sid]

theorem restart_recovered :
    (run step (initialized 0 (sampleMatches [6, 7, 8, 9])) restartCalls).matchServices_.find? 1 =
        some (⟨1, 2⟩, [9, 7]) ∧
      (run step (initialized 0 (sampleMatches [6, 7, 8, 9])) restartCalls).undistMatches_ = [6] := by
  have h := recovered 0 (sampleMatches [6, 7, 8, 9]) restartReports restartCalls (by decide) (by decide)
    restart_interleaving (by decide)
  exact ⟨h.1 ⟨{ sid := 1 }, [9, 7]⟩ (by simp [restartReports]), h.2.2.1.trans (by decide)⟩

end AsioUtils.CentralServer.CSMatchManager
