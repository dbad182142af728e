import AsioUtils.CentralServer.Load
import AsioUtils.CentralServer.Shape

/-!
# What `std::list::merge` is given

`std::list::merge` asks for two ascending lists. `addUndistriteMatches` sorts the pool after it has merged, and a pass
sorts nothing: it merges the lists of lost services as filling, clipping and adoption have left them.

* `merges` : the operands of the calls of `merge` that a call of the manager makes;
* `passPushes` : what a pass puts behind what;
* `InOrder` : the mids a call brings are ascending, and a pass puts no match behind a greater one;
* `ascending_step` : such a call keeps the pool and every list ascending;
* `ascending_iff_next` : from any other state the next addition, or the loss of a service, merges a list out of order;
* `merges_ascending` : in a run of such calls `merge` only gets ascending lists.
-/

namespace AsioUtils.CentralServer.CSMatchManager

open AsioUtils.CPG StdList Runs MatchDistribution

/-! ## The calls of `merge` -/

/-- Part ① merges the list of each lost service into `undistriMatches`. -/
def removeMerges : List ChangedService → List Int → ServiceMap → List (List Int × List Int)
  | [], _, _ => []
  | changed :: cs, undistriMatches, ms =>
    if changed.type = .removed then
      (undistriMatches, getDistMatch ms changed.service.sid) ::
        removeMerges cs (merge undistriMatches (getDistMatch ms changed.service.sid)) (ms.erase changed.service.sid)
    else removeMerges cs undistriMatches ms

/-- The two lists of every call of `merge` during a call of the manager. -/
def merges (s : CSMatchManager) (c : TimedCall) : List (List Int × List Int) :=
  match c.call with
  | .createdMatches ms => [(s.undistMatches_, ms.map (·.mid))]
  | .addUndistriteMatches mids => [(s.undistMatches_, mids)]
  | .updateDistMatchServices =>
    if checkDistMatchServices s c.now then
      removeMerges s.changedServices_ [] s.matchServices_ ++
        [(s.undistMatches_, (removeServices s.changedServices_ [] s.matchServices_).1)]
    else []
  | _ => []

/-! ## What a pass puts behind what -/

/-- `distributeFill` puts matches from the front of the pool behind the lists. -/
def fillPushes (averageLoaded : Int) : List MatchDisService → Pass → List (List Int × List Int)
  | [], _ => []
  | srv :: ordered, p =>
    if p.undistMatches.length ≤ 0 then []
    else if averageLoaded - srv.loaded ≤ 0 then []
    else
      match p.matchServices.find? srv.sid with
      | none => []
      | some e =>
        let n := (averageLoaded - srv.loaded).toNat
        let r := fillList n e.2 p.undistMatches
        (e.2, p.undistMatches.take n) ::
          fillPushes averageLoaded ordered
            ⟨p.matchServices.modify srv.sid fun _ => r.1, r.2, setInsert srv.sid p.changedServices⟩

/-- `distributeClipping` puts matches from the front of the lists behind the pool. -/
def clipPushes (averageLoaded : Int) : List MatchDisService → Pass → List (List Int × List Int)
  | [], _ => []
  | srv :: ordered, p =>
    if srv.loaded - averageLoaded ≤ 0 then []
    else
      match p.matchServices.find? srv.sid with
      | none => []
      | some e =>
        let n := (srv.loaded - averageLoaded).toNat
        let r := clipList n [] e.2 p.undistMatches false
        (p.undistMatches, e.2.take n) ::
          clipPushes averageLoaded ordered
            ⟨p.matchServices.modify srv.sid fun _ => r.1, r.2.1,
              if r.2.2 then setInsert srv.sid p.changedServices else p.changedServices⟩

def distributeFillPushes (m : ServiceMap) (averageLoaded : Int) (u : List Int) : List (List Int × List Int) :=
  fillPushes averageLoaded (m.keys.insertionSort fun vl vr => vl.loaded ≤ vr.loaded) ⟨m, u, []⟩

def distributeClippingPushes (m : ServiceMap) (averageLoaded : Int) (u : List Int) : List (List Int × List Int) :=
  let ordered := m.keys.insertionSort fun vl vr => vr.loaded ≤ vl.loaded
  if ordered.getLast?.any tooFree || ordered.head?.any tooBusy then clipPushes averageLoaded ordered ⟨m, u, []⟩ else []

/-- Fill, clip, fill. -/
def redistributePushes (m : ServiceMap) (allMatches : MatchMap) (u : List Int) : List (List Int × List Int) :=
  let avg : Int := countPerService allMatches.size m.size
  let p₁ := distributeFill m avg u
  let p₂ := distributeClipping p₁.matchServices avg p₁.undistMatches
  distributeFillPushes m avg u ++ distributeClippingPushes p₁.matchServices avg p₁.undistMatches ++
    distributeFillPushes p₂.matchServices avg p₂.undistMatches

/-- A pass from `s`: each list that grows, and the matches that go behind it. -/
def passPushes (s : CSMatchManager) : List (List Int × List Int) :=
  let r := removeServices s.changedServices_ [] s.matchServices_
  let changed := s.changedServices_.filter fun c => c.type ≠ .removed
  redistributePushes (addServices (changed.filter fun c => c.type ≠ .update) (updateServices changed r.2)) s.matches_
    (merge s.undistMatches_ r.1)

/-- No match goes behind a greater one. -/
def Behind (push : List Int × List Int) : Prop := ∀ x ∈ push.1, ∀ y ∈ push.2, x ≤ y

instance : DecidablePred Behind := fun push => inferInstanceAs (Decidable (∀ x ∈ push.1, ∀ y ∈ push.2, x ≤ y))

/-- The mids that come in are ascending, and a pass puts no match behind a greater one. -/
def InOrder (s : CSMatchManager) (c : TimedCall) : Prop :=
  match c.call with
  | .createdMatches ms => (ms.map (·.mid)).Pairwise (· ≤ ·)
  | .addUndistriteMatches mids => mids.Pairwise (· ≤ ·)
  | .checkServiceDistMap service mids => s.matchServices_.find? service.sid = none → mids.Pairwise (· ≤ ·)
  | .updateDistMatchServices => checkDistMatchServices s c.now = true → ∀ push ∈ passPushes s, Behind push
  | _ => True

instance (s : CSMatchManager) : (c : TimedCall) → Decidable (InOrder s c)
  | ⟨_, .createdMatches ms⟩ => inferInstanceAs (Decidable ((ms.map (·.mid)).Pairwise (· ≤ ·)))
  | ⟨_, .addUndistriteMatches mids⟩ => inferInstanceAs (Decidable (mids.Pairwise (· ≤ ·)))
  | ⟨_, .checkServiceDistMap service mids⟩ =>
    inferInstanceAs (Decidable (s.matchServices_.find? service.sid = none → mids.Pairwise (· ≤ ·)))
  | ⟨now, .updateDistMatchServices⟩ =>
    inferInstanceAs (Decidable (checkDistMatchServices s now = true → ∀ push ∈ passPushes s, Behind push))
  | ⟨_, .updateMatchService _⟩ | ⟨_, .removeMatchService _⟩ | ⟨_, .cancelMatch _ _⟩ => .isTrue trivial

/-! ## A redistribution -/

/-- The pool and the list of every service are ascending. -/
structure Ascending (m : ServiceMap) (u : List Int) : Prop where
  pool : u.Pairwise (· ≤ ·)
  lists : ∀ sid, (getDistMatch m sid).Pairwise (· ≤ ·)

/-- What goes behind an ascending list in order. -/
theorem append_ascending {mids more : List Int} (h : mids.Pairwise (· ≤ ·)) (h' : more.Pairwise (· ≤ ·))
    (hb : Behind (mids, more)) : (mids ++ more).Pairwise (· ≤ ·) := List.pairwise_append.mpr ⟨h, h', hb⟩

section Redistribute

variable {m : ServiceMap} {u : List Int}

/-- Writing an ascending list. -/
theorem Ascending.write (h : Ascending m u) {sid : Int} {e : MatchDisService × List Int} (he : m.find? sid = some e)
    {mids u' : List Int} (hmids : mids.Pairwise (· ≤ ·)) (hu : u'.Pairwise (· ≤ ·)) :
    Ascending (m.modify sid fun _ => mids) u' := by
  refine ⟨hu, fun i => ?_⟩
  rw [getDistMatch_modify he]
  split_ifs
  · exact hmids
  · exact h.lists i

theorem Ascending.list (h : Ascending m u) {sid : Int} {e : MatchDisService × List Int} (he : m.find? sid = some e) :
    e.2.Pairwise (· ≤ ·) := by
  have hlist := h.lists sid
  rwa [getDistMatch_of_find? he] at hlist

theorem ascending_updateLoads {p : Pass} (h : Ascending p.matchServices p.undistMatches) :
    Ascending p.updateLoads.matchServices p.updateLoads.undistMatches := by
  refine ⟨h.pool, fun i => ?_⟩
  rw [getDistMatch_updateLoads]
  exact h.lists i

theorem ascending_fillServices {avg : Int} {ordered : List MatchDisService} {p : Pass}
    (h : Ascending p.matchServices p.undistMatches) (hpush : ∀ push ∈ fillPushes avg ordered p, Behind push) :
    Ascending (fillServices avg ordered p).matchServices (fillServices avg ordered p).undistMatches := by
  induction ordered generalizing p with
  | nil => exact h
  | cons srv ordered ih =>
    unfold fillServices
    unfold fillPushes at hpush
    split_ifs at hpush ⊢
    · exact h
    · exact h
    · cases he : p.matchServices.find? srv.sid with
      | none => exact h
      | some e =>
        rw [he] at hpush
        obtain ⟨hfirst, hrest⟩ := List.forall_mem_cons.mp hpush
        refine ih (h.write he ?_ ?_) hrest <;> rw [fillList_eq]
        · exact append_ascending (h.list he) (h.pool.sublist (List.take_sublist _ _)) hfirst
        · exact h.pool.sublist (List.drop_sublist _ _)

theorem ascending_clipServices {avg : Int} {ordered : List MatchDisService} {p : Pass}
    (h : Ascending p.matchServices p.undistMatches) (hpush : ∀ push ∈ clipPushes avg ordered p, Behind push) :
    Ascending (clipServices avg ordered p).matchServices (clipServices avg ordered p).undistMatches := by
  induction ordered generalizing p with
  | nil => exact h
  | cons srv ordered ih =>
    unfold clipServices
    unfold clipPushes at hpush
    split_ifs at hpush ⊢
    · exact h
    · cases he : p.matchServices.find? srv.sid with
      | none => exact h
      | some e =>
        rw [he] at hpush
        obtain ⟨hfirst, hrest⟩ := List.forall_mem_cons.mp hpush
        refine ih (h.write he ?_ ?_) hrest <;> rw [clipList_eq]
        · exact (h.list he).sublist (List.drop_sublist _ _)
        · exact append_ascending h.pool ((h.list he).sublist (List.take_sublist _ _)) hfirst

theorem ascending_distributeFill (h : Ascending m u) {avg : Int}
    (hpush : ∀ push ∈ distributeFillPushes m avg u, Behind push) :
    Ascending (distributeFill m avg u).matchServices (distributeFill m avg u).undistMatches :=
  ascending_updateLoads (ascending_fillServices (p := ⟨m, u, []⟩) h hpush)

theorem ascending_distributeClipping (h : Ascending m u) {avg : Int}
    (hpush : ∀ push ∈ distributeClippingPushes m avg u, Behind push) :
    Ascending (distributeClipping m avg u).matchServices (distributeClipping m avg u).undistMatches := by
  unfold distributeClipping
  unfold distributeClippingPushes at hpush
  dsimp only at hpush ⊢
  split_ifs at hpush ⊢
  · exact ascending_updateLoads (ascending_clipServices (p := ⟨m, u, []⟩) h hpush)
  · exact h

/-- **A redistribution** that puts no match behind a greater one keeps the pool and the lists ascending. -/
theorem ascending_redistribute (h : Ascending m u) {allMatches : MatchMap}
    (hpush : ∀ push ∈ redistributePushes m allMatches u, Behind push) :
    Ascending (redistribute m allMatches u).matchServices (redistribute m allMatches u).undistMatches := by
  obtain ⟨hboth, hrefill⟩ := List.forall_mem_append.mp hpush
  obtain ⟨hfill, hclip⟩ := List.forall_mem_append.mp hboth
  have hclipped := ascending_distributeClipping (ascending_distributeFill h hfill) hclip
  have hrefilled := ascending_distributeFill hclipped hrefill
  unfold redistribute
  dsimp only
  split_ifs <;> dsimp only
  · exact h
  · exact hrefilled
  · exact hclipped

end Redistribute

/-! ## A pass -/

section Pass

/-- Part ① merges ascending lists, and leaves ascending lists. -/
theorem removeServices_ascending {cs : List ChangedService} {undist : List Int} {ms : ServiceMap}
    (h : Ascending ms undist) :
    (∀ m ∈ removeMerges cs undist ms, m.1.Pairwise (· ≤ ·) ∧ m.2.Pairwise (· ≤ ·)) ∧
      Ascending (removeServices cs undist ms).2 (removeServices cs undist ms).1 := by
  induction cs generalizing undist ms with
  | nil => exact ⟨fun m hm => absurd hm List.not_mem_nil, h⟩
  | cons c cs ih =>
    rw [removeMerges, removeServices]
    split_ifs
    · have hlost := h.lists c.service.sid
      have hnext : Ascending (ms.erase c.service.sid) (merge undist (getDistMatch ms c.service.sid)) := by
        refine ⟨merge_sorted h.pool hlost, fun i => ?_⟩
        unfold getDistMatch
        rw [OrderedMap.find?_erase]
        split_ifs
        · exact List.Pairwise.nil
        · exact h.lists i
      exact ⟨List.forall_mem_cons.mpr ⟨⟨h.pool, hlost⟩, (ih hnext).1⟩, (ih hnext).2⟩
    · exact ih h

variable {s : CSMatchManager}

theorem removeServices_ascending_of (h : Ascending s.matchServices_ s.undistMatches_) :
    (∀ m ∈ removeMerges s.changedServices_ [] s.matchServices_, m.1.Pairwise (· ≤ ·) ∧ m.2.Pairwise (· ≤ ·)) ∧
      Ascending (removeServices s.changedServices_ [] s.matchServices_).2
        (removeServices s.changedServices_ [] s.matchServices_).1 :=
  removeServices_ascending ⟨List.Pairwise.nil, h.lists⟩

theorem ascending_pass (h : Ascending s.matchServices_ s.undistMatches_) (hpush : ∀ push ∈ passPushes s, Behind push) :
    Ascending (applyChanges s).1.matchServices_ (applyChanges s).1.undistMatches_ := by
  obtain ⟨-, hpool, hlists⟩ := removeServices_ascending_of h
  refine ascending_redistribute ⟨merge_sorted h.pool hpool, fun i => ?_⟩ hpush
  rw [getDistMatch_addServices, getDistMatch_updateServices]
  exact hlists i

end Pass

/-! ## The calls -/

section Calls

variable {s : CSMatchManager}

/-- Adding matches leaves a sorted pool, whatever it was. -/
theorem ascending_addUndistriteMatches (h : Ascending s.matchServices_ s.undistMatches_) (now : Int) (mids : List Int) :
    Ascending (addUndistriteMatches s now mids).matchServices_ (addUndistriteMatches s now mids).undistMatches_ :=
  ⟨(unique_sorted (sort_sorted _)).imp le_of_lt, h.lists⟩

theorem ascending_check (h : Ascending s.matchServices_ s.undistMatches_) (now : Int) {service : MatchDisService}
    {mids : List Int} (hmids : s.matchServices_.find? service.sid = none → mids.Pairwise (· ≤ ·)) :
    Ascending (checkServiceDistMap s now service mids).1.matchServices_
      (checkServiceDistMap s now service mids).1.undistMatches_ := by
  cases hf : s.matchServices_.find? service.sid with
  | some e =>
    rw [checkServiceDistMap_known hf]
    refine ⟨h.pool, fun i => ?_⟩
    unfold getDistMatch
    rw [OrderedMap.find?_modify]
    split_ifs with hi
    · rw [hi, hf]
      exact sort_sorted e.2
    · exact h.lists i
  | none =>
    by_cases hm : mids = []
    · subst hm
      rw [checkServiceDistMap_noMatch hf]
      exact h
    · rw [checkServiceDistMap_adopt hf now hm]
      refine ⟨h.pool.filter _, fun i => ?_⟩
      unfold getDistMatch
      rw [OrderedMap.find?_assign]
      split_ifs
      · exact hmids hf
      · exact h.lists i

theorem ascending_cancel (h : Ascending s.matchServices_ s.undistMatches_) (mid reason : Int) :
    Ascending (cancelMatch s mid reason).manager.matchServices_ (cancelMatch s mid reason).manager.undistMatches_ := by
  rcases cancelMatch_cases s mid reason with ⟨-, hs⟩ | ⟨-, ms, hms, hs⟩ <;> rw [hs]
  · exact h
  · refine ⟨h.pool.filter _, fun i => ?_⟩
    rcases hms with rfl | ⟨sid, rfl⟩
    · exact h.lists i
    · have hlist := h.lists i
      unfold getDistMatch at hlist ⊢
      dsimp only
      rw [OrderedMap.find?_modify]
      split_ifs
      · cases hf : s.matchServices_.find? i with
        | none => exact List.Pairwise.nil
        | some e =>
          rw [hf] at hlist
          exact hlist.filter _
      · exact hlist

/-- **Step**: a call in order keeps the pool and every list ascending. -/
theorem ascending_step {c : TimedCall} (h : Ascending s.matchServices_ s.undistMatches_) (hc : InOrder s c) :
    Ascending (step s c).matchServices_ (step s c).undistMatches_ := by
  obtain ⟨now, call⟩ := c
  cases call with
  | createdMatches ms => exact ascending_addUndistriteMatches (s := { s with matches_ := _ }) h now _
  | addUndistriteMatches mids => exact ascending_addUndistriteMatches h now mids
  | updateMatchService service => exact h
  | removeMatchService service => exact h
  | checkServiceDistMap service mids => exact ascending_check h now hc
  | cancelMatch mid reason => exact ascending_cancel h mid reason
  | updateDistMatchServices =>
    show Ascending (updateDistMatchServices s now).1.matchServices_ (updateDistMatchServices s now).1.undistMatches_
    rcases updateDistMatchServices_cases s now with ⟨hgate, hs⟩ | ⟨-, hs⟩ <;> rw [hs]
    · exact ascending_pass (s := stopTimerCheckDistMatchServices s) h (hc hgate)
    · exact h

theorem merges_pass (h : Ascending s.matchServices_ s.undistMatches_) (now : Int) :
    ∀ m ∈ merges s ⟨now, .updateDistMatchServices⟩, m.1.Pairwise (· ≤ ·) ∧ m.2.Pairwise (· ≤ ·) := by
  obtain ⟨hmerges, hpool, -⟩ := removeServices_ascending_of h
  rw [merges]
  split_ifs
  · exact List.forall_mem_append.mpr ⟨hmerges, List.forall_mem_singleton.mpr ⟨h.pool, hpool⟩⟩
  · exact fun m hm => absurd hm List.not_mem_nil

/-- A call in order merges ascending lists. -/
theorem merges_of_ascending {c : TimedCall} (h : Ascending s.matchServices_ s.undistMatches_) (hc : InOrder s c) :
    ∀ m ∈ merges s c, m.1.Pairwise (· ≤ ·) ∧ m.2.Pairwise (· ≤ ·) := by
  obtain ⟨now, call⟩ := c
  cases call with
  | createdMatches ms => exact List.forall_mem_singleton.mpr ⟨h.pool, hc⟩
  | addUndistriteMatches mids => exact List.forall_mem_singleton.mpr ⟨h.pool, hc⟩
  | updateDistMatchServices => exact merges_pass h now
  | _ => exact fun m hm => absurd hm List.not_mem_nil

/-- The list of a lost service is merged as it is. -/
theorem mem_removeMerges {cs : List ChangedService} {c : ChangedService} (hc : c ∈ cs) (hremoved : c.type = .removed)
    (undist : List Int) (ms : ServiceMap) :
    ∃ m ∈ removeMerges cs undist ms, m.2 = getDistMatch ms c.service.sid := by
  induction cs generalizing undist ms with
  | nil => cases hc
  | cons d cs ih =>
    rw [removeMerges]
    rcases List.mem_cons.mp hc with rfl | hc
    · rw [if_pos hremoved]
      exact ⟨_, List.mem_cons_self, rfl⟩
    · split_ifs
      · by_cases hsame : c.service.sid = d.service.sid
        · exact ⟨_, List.mem_cons_self, by rw [hsame]⟩
        · obtain ⟨m, hm, heq⟩ := ih hc (merge undist (getDistMatch ms d.service.sid)) (ms.erase d.service.sid)
          refine ⟨m, List.mem_cons_of_mem _ hm, heq.trans ?_⟩
          unfold getDistMatch
          rw [OrderedMap.find?_erase, if_neg hsame]
      · exact ih hc undist ms

/-- **A list out of order reaches `merge`**: the pool with the next matches that are added, the list of a service with
the pass after its loss. -/
theorem ascending_iff_next (hadded : AddedNew s) (now : Int) : Ascending s.matchServices_ s.undistMatches_ ↔
    (∀ m ∈ merges s ⟨now, .addUndistriteMatches []⟩, m.1.Pairwise (· ≤ ·) ∧ m.2.Pairwise (· ≤ ·)) ∧
      ∀ sid ∈ s.matchServices_, ∀ m ∈ merges (step s ⟨now, .removeMatchService { sid := sid }⟩)
        ⟨now + updateDuration, .updateDistMatchServices⟩, m.1.Pairwise (· ≤ ·) ∧ m.2.Pairwise (· ≤ ·) := by
  constructor
  · intro h
    exact ⟨List.forall_mem_singleton.mpr ⟨h.pool, List.Pairwise.nil⟩,
      fun sid _ => merges_pass (s := removeMatchService s now { sid := sid }) h _⟩
  · rintro ⟨hadd, hlost⟩
    refine ⟨(List.forall_mem_singleton.mp hadd).1, fun sid => ?_⟩
    by_cases hsid : sid ∈ s.matchServices_
    · have hgate : checkDistMatchServices (removeMatchService s now { sid := sid }) (now + updateDuration) = true := by
        show decide (updateDuration ≤ now + updateDuration - now) = true
        simp
      have hold : ¬ ∃ c ∈ s.changedServices_, c.service.sid = sid ∧ c.type = .added := by
        rintro ⟨c, hc, rfl, htype⟩
        exact hadded c hc htype hsid
      have hlog : ∃ c ∈ (removeMatchService s now { sid := sid }).changedServices_,
          c.type = .removed ∧ c.service.sid = sid := by
        rw [removeMatchService_changed, if_neg hold]
        exact ⟨_, List.mem_append_right _ (List.mem_singleton_self _), rfl, rfl⟩
      obtain ⟨c, hc, htype, rfl⟩ := hlog
      obtain ⟨m, hm, heq⟩ := mem_removeMerges hc htype [] s.matchServices_
      have hmerged := hlost c.service.sid hsid m (by
        show m ∈ merges (removeMatchService s now { sid := c.service.sid }) _
        rw [merges, if_pos hgate]
        exact List.mem_append_left _ hm)
      rw [← heq]
      exact hmerged.2
    · unfold getDistMatch
      rw [OrderedMap.not_mem_iff.mp hsid]
      exact List.Pairwise.nil

end Calls

/-- The keys of the stored matches are ascending. -/
theorem ascending_initialized (now : Int) (stored : MatchMap) :
    Ascending (initialized now stored).matchServices_ (initialized now stored).undistMatches_ :=
  ⟨stored.indices_pairwise.imp le_of_lt, fun _ => List.Pairwise.nil⟩

/-- **`merge` only gets ascending lists** in a run from `initialize` whose calls are all in order. -/
theorem merges_ascending {now : Int} {stored : MatchMap} {calls : List TimedCall}
    (h : Along step InOrder (initialized now stored) calls) :
    Along step (fun s c => ∀ m ∈ merges s c, m.1.Pairwise (· ≤ ·) ∧ m.2.Pairwise (· ≤ ·)) (initialized now stored)
      calls := by
  have hboth := inv_along (fun s c hs hc => ascending_step (s := s) hs hc) (ascending_initialized now stored) h
  exact hboth.mono fun s c hs => merges_of_ascending hs.1 hs.2

/-- The first service runs matches `1` and `2`, the second the newer ones, and is lost again. -/
def newerLost : List TimedCall :=
  [⟨1, .updateMatchService { sid := 1 }⟩, ⟨30, .updateDistMatchServices⟩,
    ⟨40, .createdMatches [sampleMatch 3, sampleMatch 4]⟩, ⟨41, .updateMatchService { sid := 2 }⟩,
    ⟨70, .updateDistMatchServices⟩, ⟨80, .removeMatchService { sid := 2 }⟩, ⟨110, .updateDistMatchServices⟩]

theorem newerLost_merges : Along step (fun s c => ∀ m ∈ merges s c, m.1.Pairwise (· ≤ ·) ∧ m.2.Pairwise (· ≤ ·))
    (initialized 0 (sampleMatches [1, 2])) newerLost :=
  merges_ascending (by decide +kernel)

/-- Two services share the stored matches, and are lost one after the other. -/
def bothLost : List TimedCall :=
  [⟨1, .updateMatchService { sid := 1 }⟩, ⟨1, .updateMatchService { sid := 2 }⟩, ⟨30, .updateDistMatchServices⟩,
    ⟨40, .removeMatchService { sid := 1 }⟩, ⟨70, .updateDistMatchServices⟩, ⟨80, .removeMatchService { sid := 2 }⟩,
    ⟨110, .updateDistMatchServices⟩]

/-- The last pass merges `[3, 4, 1, 2]`. -/
theorem bothLost_merges : ¬ ∀ (now : Int) (stored : MatchMap) (calls : List TimedCall),
    Along step (fun s c => ∀ m ∈ merges s c, m.1.Pairwise (· ≤ ·) ∧ m.2.Pairwise (· ≤ ·)) (initialized now stored)
      calls := by
  intro h
  have hall := h 0 (sampleMatches [1, 2, 3, 4]) bothLost
  revert hall
  decide

end AsioUtils.CentralServer.CSMatchManager
