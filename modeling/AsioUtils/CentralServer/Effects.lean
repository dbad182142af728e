import AsioUtils.CentralServer.MatchManager
import Mathlib.Data.List.Perm.Subperm

/-!
# What the calls of the match manager do

One lemma for each function, on the three things the invariants speak of: the services (`i ∈ matchServices_`), the
matches the manager has placed somewhere (`allocated`, the pool and all lists), and the pending changes.

* `applyChanges_perm` : a redistribution pass only moves matches;
* `mem_applyChanges` : the services after a pass;
* `checkServiceDistMap_known`, `_adopt`, `_noMatch` : the three branches of a distribution check;
* `cancelMatch_cases` : a refused cancellation changes nothing, an accepted one takes a match out.
-/

namespace AsioUtils.CentralServer.CSMatchManager

open AsioUtils.CPG StdList

/-- The pool followed by all lists of `matchServices_`. -/
def allocated (s : CSMatchManager) : List Int := s.undistMatches_ ++ s.matchServices_.elems

theorem mem_allocated {s : CSMatchManager} {mid : Int} :
    mid ∈ s.allocated ↔ mid ∈ s.undistMatches_ ∨ ∃ e ∈ s.matchServices_.entries, mid ∈ e.2 := by
  simp [allocated, OrderedMap.elems]

/-! ## The parts of a pass -/

theorem getDistMatch_perm (ms : ServiceMap) (sid : Int) :
    (getDistMatch ms sid ++ (ms.erase sid).elems).Perm ms.elems := by
  unfold getDistMatch
  cases h : ms.find? sid with
  | none => simp [OrderedMap.filter_ne_of_find?_none h]
  | some e => exact (OrderedMap.elems_perm_of_find? h).symm

theorem removeServices_perm (cs : List ChangedService) (undist : List Int) (ms : ServiceMap) :
    ((removeServices cs undist ms).1 ++ (removeServices cs undist ms).2.elems).Perm (undist ++ ms.elems) := by
  induction cs generalizing undist ms with
  | nil => exact .refl _
  | cons c cs ih =>
    rw [removeServices]
    split_ifs with h
    · refine (ih _ _).trans ?_
      calc (merge undist (getDistMatch ms c.service.sid) ++ (ms.erase c.service.sid).elems).Perm
            (undist ++ getDistMatch ms c.service.sid ++ (ms.erase c.service.sid).elems) :=
            (merge_perm _ _).append_right _
        List.Perm _ (undist ++ ms.elems) := by
            rw [List.append_assoc]; exact (getDistMatch_perm ms _).append_left undist
    · exact ih undist ms

theorem find?_removeServices (cs : List ChangedService) (undist : List Int) (ms : ServiceMap) (i : Int) :
    (removeServices cs undist ms).2.find? i =
      if ∃ c ∈ cs, c.type = .removed ∧ c.service.sid = i then none else ms.find? i := by
  induction cs generalizing undist ms with
  | nil => simp [removeServices]
  | cons c cs ih =>
    rw [removeServices]
    by_cases htype : c.type = .removed
    · rw [if_pos htype, ih, OrderedMap.find?_erase]
      by_cases hi : c.service.sid = i
      · simp [htype, hi]
      · simp [hi, Ne.symm hi]
    · rw [if_neg htype, ih]
      simp [htype]

theorem mem_removeServices {cs : List ChangedService} {undist : List Int} {ms : ServiceMap} {i : Int} :
    i ∈ (removeServices cs undist ms).2 ↔ i ∈ ms ∧ ∀ c ∈ cs, c.type = .removed → c.service.sid ≠ i := by
  rw [OrderedMap.mem_iff, OrderedMap.mem_iff, find?_removeServices]
  split_ifs with h
  · obtain ⟨c, hc, htype, hsid⟩ := h
    simp only [exists_false, false_iff, not_and]
    exact fun _ hno => hno c hc htype hsid
  · refine (and_iff_left fun c hc htype hsid => h ⟨c, hc, htype, hsid⟩).symm

theorem updateServices_perm (cs : List ChangedService) (ms : ServiceMap) :
    (updateServices cs ms).elems.Perm ms.elems := by
  induction cs generalizing ms with
  | nil => exact .refl _
  | cons c cs ih =>
    rw [updateServices]
    split_ifs
    · cases h : ms.find? c.service.sid with
      | none => exact ih ms
      | some e => exact (ih _).trans (OrderedMap.rekey_elems_perm h rfl)
    · exact ih ms

theorem mem_updateServices {cs : List ChangedService} {ms : ServiceMap} {i : Int} :
    i ∈ updateServices cs ms ↔ i ∈ ms := by
  induction cs generalizing ms with
  | nil => exact Iff.rfl
  | cons c cs ih =>
    rw [updateServices]
    split_ifs
    · cases h : ms.find? c.service.sid with
      | none => exact ih
      | some e =>
        have hc : c.service.sid ∈ ms := OrderedMap.mem_iff.mpr ⟨e, h⟩
        dsimp only
        rw [ih, OrderedMap.mem_insert, OrderedMap.mem_erase]
        constructor
        · rintro (rfl | ⟨-, hi⟩)
          · exact hc
          · exact hi
        · intro hi
          by_cases hic : i = c.service.sid
          · exact .inl hic
          · exact .inr ⟨hic, hi⟩
    · exact ih

/-- Assigning the empty list to a service that has none, or an empty one, keeps all matches. -/
theorem assign_nil_perm {ms : ServiceMap} {k : MatchDisService} (h : getDistMatch ms k.sid = []) :
    (ms.assign k []).elems.Perm ms.elems := by
  unfold getDistMatch at h
  cases hf : ms.find? k.sid with
  | none =>
    have hins : (ms.insert (k, ([] : List Int))).find? k.sid = some (k, []) :=
      (OrderedMap.find?_insert_of_none hf _).trans (if_pos rfl)
    calc (ms.assign k []).elems.Perm ([] ++ ((ms.insert (k, [])).erase k.sid).elems) :=
          OrderedMap.modify_elems_perm _ hins
      List.Perm _ (ms.insert (k, [])).elems := (OrderedMap.elems_perm_of_find? hins).symm
      List.Perm _ ms.elems := OrderedMap.insert_elems_perm hf
  | some e =>
    rw [hf] at h
    have hins : (ms.insert (k, ([] : List Int))).find? k.sid = some e := by
      rw [OrderedMap.find?_insert, if_pos rfl, hf]; rfl
    have hsame : ms.insert (k, ([] : List Int)) = ms := OrderedMap.ext fun i => by
      rw [OrderedMap.find?_insert]
      split_ifs with hi
      · rw [show i = k.sid from hi, hf]; rfl
      · rfl
    calc (ms.assign k []).elems.Perm ([] ++ ((ms.insert (k, [])).erase k.sid).elems) :=
          OrderedMap.modify_elems_perm _ hins
      List.Perm _ (ms.erase k.sid).elems := by rw [hsame]; exact .refl _
      List.Perm _ ms.elems := by simpa [h] using (OrderedMap.elems_perm_of_find? hf).symm

theorem addServices_perm (cs : List ChangedService) (ms : ServiceMap) : (addServices cs ms).elems.Perm ms.elems := by
  induction cs generalizing ms with
  | nil => exact .refl _
  | cons c cs ih =>
    rw [addServices]
    cases h : ms.find? c.service.sid with
    | none => exact (ih _).trans (assign_nil_perm (by simp [getDistMatch, h]))
    | some e =>
      dsimp only
      split_ifs with he
      · exact (ih _).trans (assign_nil_perm (by simpa [getDistMatch, h] using he))
      · exact ih ms

theorem mem_addServices {cs : List ChangedService} {ms : ServiceMap} {i : Int} :
    i ∈ addServices cs ms ↔ i ∈ ms ∨ ∃ c ∈ cs, c.service.sid = i := by
  induction cs generalizing ms with
  | nil => simp [addServices]
  | cons c cs ih =>
    rw [addServices]
    cases h : ms.find? c.service.sid with
    | none =>
      dsimp only
      rw [ih, OrderedMap.mem_assign]
      simp only [List.mem_cons, exists_eq_or_imp, eq_comm (a := i)]
      tauto
    | some e =>
      have hc : c.service.sid ∈ ms := OrderedMap.mem_iff.mpr ⟨e, h⟩
      have hms : i ∈ (if e.2.length = 0 then ms.assign c.service [] else ms) ↔ i ∈ ms := by
        split_ifs
        · rw [OrderedMap.mem_assign, or_iff_right_of_imp]
          rintro rfl; exact hc
        · rfl
      dsimp only
      rw [ih, hms]
      simp only [List.mem_cons, exists_eq_or_imp]
      constructor
      · rintro (hi | hi)
        · exact .inl hi
        · exact .inr (.inr hi)
      · rintro (hi | rfl | hi)
        · exact .inl hi
        · exact .inl hc
        · exact .inr hi

/-! ### The lists -/

/-- A new key for a service leaves all lists. -/
theorem getDistMatch_rekey {ms : ServiceMap} {k : MatchDisService} {e : MatchDisService × List Int}
    (he : ms.find? k.sid = some e) (sid : Int) :
    getDistMatch ((ms.erase k.sid).insert (k, e.2)) sid = getDistMatch ms sid := by
  unfold getDistMatch
  rw [OrderedMap.find?_insert, OrderedMap.find?_erase]
  split_ifs with hi
  · rw [show sid = k.sid from hi, he]
    rfl
  · rfl

/-- An empty list for a service that has none leaves all lists. -/
theorem getDistMatch_assign_nil {ms : ServiceMap} {k : MatchDisService} (h : getDistMatch ms k.sid = []) (sid : Int) :
    getDistMatch (ms.assign k []) sid = getDistMatch ms sid := by
  unfold getDistMatch at h ⊢
  rw [OrderedMap.find?_assign]
  split_ifs with hi
  · rw [show sid = k.sid from hi]
    exact h.symm
  · rfl

/-- Removing services fills no empty list. -/
theorem getDistMatch_removeServices {cs : List ChangedService} {undist : List Int} {ms : ServiceMap} {sid : Int}
    (h : getDistMatch ms sid = []) : getDistMatch (removeServices cs undist ms).2 sid = [] := by
  unfold getDistMatch at h ⊢
  rw [find?_removeServices]
  split_ifs
  · rfl
  · exact h

/-- Part ① leaves the lists of the services that are not removed. -/
theorem getDistMatch_removeServices_other {cs : List ChangedService} {undist : List Int} {ms : ServiceMap} {sid : Int}
    (h : ∀ c ∈ cs, c.type = .removed → c.service.sid ≠ sid) :
    getDistMatch (removeServices cs undist ms).2 sid = getDistMatch ms sid := by
  unfold getDistMatch
  rw [find?_removeServices, if_neg]
  rintro ⟨c, hc, htype, hsid⟩
  exact h c hc htype hsid

/-- Part ② leaves all lists. -/
theorem getDistMatch_updateServices (cs : List ChangedService) (ms : ServiceMap) (sid : Int) :
    getDistMatch (updateServices cs ms) sid = getDistMatch ms sid := by
  induction cs generalizing ms with
  | nil => rfl
  | cons c cs ih =>
    rw [updateServices]
    split_ifs
    · cases he : ms.find? c.service.sid with
      | none => exact ih ms
      | some e => exact (ih _).trans (getDistMatch_rekey he sid)
    · exact ih ms

/-- Part ③ leaves all lists. -/
theorem getDistMatch_addServices (cs : List ChangedService) (ms : ServiceMap) (sid : Int) :
    getDistMatch (addServices cs ms) sid = getDistMatch ms sid := by
  induction cs generalizing ms with
  | nil => rfl
  | cons c cs ih =>
    rw [addServices]
    cases he : ms.find? c.service.sid with
    | none => exact (ih _).trans (getDistMatch_assign_nil (by simp [getDistMatch, he]) sid)
    | some e =>
      dsimp only
      split_ifs with hempty
      · exact (ih _).trans (getDistMatch_assign_nil (by simpa [getDistMatch, he] using hempty) sid)
      · exact ih ms

/-! ## A pass -/

/-- A pass only moves matches. -/
theorem applyChanges_perm (s : CSMatchManager) : (applyChanges s).1.allocated.Perm s.allocated := by
  set r := removeServices s.changedServices_ [] s.matchServices_ with hr
  set ms := addServices ((s.changedServices_.filter fun c => c.type ≠ .removed).filter fun c => c.type ≠ .update)
    (updateServices (s.changedServices_.filter fun c => c.type ≠ .removed) r.2) with hms
  have hmove := (MatchDistribution.redistribute_moves ms s.matches_ (merge s.undistMatches_ r.1)).mids
  have hadd : ms.elems.Perm r.2.elems := (addServices_perm _ _).trans (updateServices_perm _ _)
  have hrem : (r.1 ++ r.2.elems).Perm s.matchServices_.elems := removeServices_perm s.changedServices_ [] _
  calc (applyChanges s).1.allocated.Perm (merge s.undistMatches_ r.1 ++ ms.elems) := hmove
    List.Perm _ (s.undistMatches_ ++ r.1 ++ r.2.elems) := (merge_perm _ _).append hadd
    List.Perm _ (s.undistMatches_ ++ s.matchServices_.elems) := by
        rw [List.append_assoc]; exact hrem.append_left _

/-- Part ③ gets the entries of new services. -/
theorem mem_toAdd {cs : List ChangedService} {c : ChangedService} :
    c ∈ (cs.filter fun c => c.type ≠ .removed).filter (fun c => c.type ≠ .update) ↔ c ∈ cs ∧ c.type = .added := by
  simp only [List.mem_filter, decide_eq_true_eq, and_assoc]
  refine and_congr_right fun _ => ?_
  cases c.type <;> simp

/-- The services after a pass: those not removed, and the added ones. -/
theorem mem_applyChanges {s : CSMatchManager} {i : Int} :
    i ∈ (applyChanges s).1.matchServices_ ↔
      (i ∈ s.matchServices_ ∧ ∀ c ∈ s.changedServices_, c.type = .removed → c.service.sid ≠ i) ∨
        ∃ c ∈ s.changedServices_, c.type = .added ∧ c.service.sid = i := by
  show i ∈ (MatchDistribution.redistribute _ _ _).matchServices ↔ _
  rw [(MatchDistribution.redistribute_moves _ _ _).sids, mem_addServices, mem_updateServices, mem_removeServices]
  simp only [mem_toAdd, and_assoc]

/-- `updateDistMatchServices` runs a pass or only rearms the timer. -/
theorem updateDistMatchServices_cases (s : CSMatchManager) (now : Int) :
    (checkDistMatchServices s now = true ∧
      (updateDistMatchServices s now).1 = (applyChanges (stopTimerCheckDistMatchServices s)).1) ∨
    (checkDistMatchServices s now = false ∧ (updateDistMatchServices s now).1 = { s with timer_ := true }) := by
  have hstop : checkDistMatchServices (stopTimerCheckDistMatchServices s) now = checkDistMatchServices s now := rfl
  unfold updateDistMatchServices
  dsimp only
  rw [hstop]
  cases checkDistMatchServices s now
  · exact .inr ⟨rfl, rfl⟩
  · exact .inl ⟨rfl, rfl⟩

/-! ## What a pass announces -/

/-- The list under each key is the one of its service. -/
theorem find?_changedMatchMap (ms : ServiceMap) (changed : List Int) (k : Int) :
    (changedMatchMap ms changed).find? k =
      if ∃ sid ∈ changed, toUnsigned sid = k then some (k, getDistMatch ms (toSigned k)) else none := by
  have hfold : ∀ map : ChangedMatchMap, (changed.foldl (fun map sid => map.assign (toUnsigned sid)
      (getDistMatch ms (toSigned (toUnsigned sid)))) map).find? k =
      if ∃ sid ∈ changed, toUnsigned sid = k then some (k, getDistMatch ms (toSigned k)) else map.find? k := by
    induction changed with
    | nil => simp
    | cons sid changed ih =>
      intro map
      rw [List.foldl_cons, ih]
      simp only [List.mem_cons, exists_eq_or_imp]
      by_cases hin : ∃ sid ∈ changed, toUnsigned sid = k
      · rw [if_pos hin, if_pos (.inr hin)]
      · rw [if_neg hin, OrderedMap.find?_assign, id_eq]
        by_cases hk : toUnsigned sid = k
        · rw [if_pos hk.symm, if_pos (.inl hk), hk]
          cases hold : map.find? k with
          | none => rfl
          | some e =>
            have hkey : e.1 = k := OrderedMap.ord_of_find? hold
            simp [hkey]
        · rw [if_neg (Ne.symm hk), if_neg (not_or.mpr ⟨hk, hin⟩)]
  exact (hfold .empty).trans (by simp)

/-- A pass announces services of the map it leaves. -/
theorem changedMatchMap_applyChanges (s : CSMatchManager) :
    ∀ pair ∈ (applyChanges s).2.entries, ∃ sid ∈ (applyChanges s).1.matchServices_, pair.1 = toUnsigned sid := by
  intro pair hpair
  have hfind := OrderedMap.find?_of_mem hpair
  rw [show (applyChanges s).2 = changedMatchMap _ _ from rfl, find?_changedMatchMap] at hfind
  split_ifs at hfind with hin
  obtain ⟨sid, hsid, heq⟩ := hin
  have hmap := MatchDistribution.redistribute_changed _ _ _ sid hsid
  exact ⟨sid, ((MatchDistribution.redistribute_moves _ _ _).sids sid).mpr hmap, heq.symm⟩

/-! ## The other calls -/

theorem foldl_remove_eq (mids undist : List Int) :
    mids.foldl (fun undist mid => undist.filter (· ≠ mid)) undist = undist.filter (· ∉ mids) := by
  induction mids generalizing undist with
  | nil => simp
  | cons mid mids ih =>
    rw [List.foldl_cons, ih, List.filter_filter]
    congr 1
    funext x
    simp only [List.mem_cons, not_or, Bool.decide_and, Bool.and_comm]

section Check

variable {s : CSMatchManager} {service : MatchDisService}

/-- The service is known: its list is sorted, nothing else changes. -/
theorem checkServiceDistMap_known {e : MatchDisService × List Int} (h : s.matchServices_.find? service.sid = some e)
    (now : Int) (mids : List Int) : (checkServiceDistMap s now service mids).1 =
      { s with matchServices_ := s.matchServices_.modify service.sid sort } := by
  unfold checkServiceDistMap
  simp only [filterValidMatch, h]

/-- An unknown service with a report: the service is adopted with the reported list. -/
theorem checkServiceDistMap_adopt (h : s.matchServices_.find? service.sid = none) (now : Int) {mids : List Int}
    (hm : mids ≠ []) : (checkServiceDistMap s now service mids).1 =
      { s with
        matchServices_ := s.matchServices_.assign service mids
        undistMatches_ := s.undistMatches_.filter (· ∉ mids)
        changedServices_ := s.changedServices_.filter fun c => c.service.sid ≠ service.sid } := by
  unfold checkServiceDistMap
  simp only [filterValidMatch, h, foldl_remove_eq]
  rw [if_pos (List.length_pos_iff.mpr hm)]

/-- An unknown service with nothing to report. -/
theorem checkServiceDistMap_noMatch (h : s.matchServices_.find? service.sid = none) (now : Int) :
    (checkServiceDistMap s now service []).1 = updateMatchesOrService s now := by
  unfold checkServiceDistMap
  simp only [filterValidMatch, h]
  rfl

/-- An adopted list joins the allocated matches, and its matches leave the pool. -/
theorem adopt_elems_perm (h : s.matchServices_.find? service.sid = none) (mids : List Int) :
    (s.matchServices_.assign service mids).elems.Perm (mids ++ s.matchServices_.elems) := by
  have hins : (s.matchServices_.insert (service, mids)).find? service.sid = some (service, mids) :=
    (OrderedMap.find?_insert_of_none h _).trans (if_pos rfl)
  calc (s.matchServices_.assign service mids).elems.Perm
        (mids ++ ((s.matchServices_.insert (service, mids)).erase service.sid).elems) :=
        OrderedMap.modify_elems_perm _ hins
    List.Perm _ (s.matchServices_.insert (service, mids)).elems := (OrderedMap.elems_perm_of_find? hins).symm
    List.Perm _ (mids ++ s.matchServices_.elems) := OrderedMap.insert_elems_perm h

end Check

/-- A cancellation is refused and changes nothing, or takes `mid` out of the pool and perhaps of one list. -/
theorem cancelMatch_cases (s : CSMatchManager) (mid reason : Int) :
    ((cancelMatch s mid reason).code ≠ kNoneError ∧ (cancelMatch s mid reason).manager = s) ∨
    ((cancelMatch s mid reason).code = kNoneError ∧ ∃ ms, (ms = s.matchServices_ ∨
        ∃ sid, ms = s.matchServices_.modify sid (·.filter (· ≠ mid))) ∧
      (cancelMatch s mid reason).manager =
        { s with matchServices_ := ms, undistMatches_ := s.undistMatches_.filter (· ≠ mid) }) := by
  unfold cancelMatch
  cases h : getMatch s mid with
  | none => exact .inl ⟨show kManager_MatchNotFound ≠ kNoneError by decide, rfl⟩
  | some m =>
    dsimp only
    by_cases hstate : m.match_state > ENUM_STATE_READY
    · rw [if_pos hstate]
      exact .inl ⟨show kManager_MatchCancel_StartedError ≠ kNoneError by decide, rfl⟩
    · rw [if_neg hstate]
      refine .inr ⟨rfl, _, ?_, rfl⟩
      split_ifs
      all_goals first | exact .inl rfl | exact .inr ⟨_, rfl⟩

/-- Taking one value out of one list leaves a sub-multiset with everything but that value. -/
theorem modify_remove_elems (ms : ServiceMap) (sid mid : Int) :
    (ms.modify sid (·.filter (· ≠ mid))).elems.Subperm ms.elems ∧
      ∀ v ∈ ms.elems, v ≠ mid → v ∈ (ms.modify sid (·.filter (· ≠ mid))).elems := by
  cases h : ms.find? sid with
  | none =>
    rw [OrderedMap.modify_of_find?_none h]
    exact ⟨List.Subperm.refl _, fun v hv _ => hv⟩
  | some e =>
    have hnew := OrderedMap.modify_elems_perm (·.filter (· ≠ mid)) h
    have hold := OrderedMap.elems_perm_of_find? h
    refine ⟨?_, fun v hv hne => ?_⟩
    · exact hnew.subperm.trans
        ((List.filter_sublist.append_right _).subperm.trans hold.symm.subperm)
    · rw [hnew.mem_iff, List.mem_append, List.mem_filter]
      rcases List.mem_append.mp (hold.mem_iff.mp hv) with hv | hv
      · exact .inl ⟨hv, by simpa using hne⟩
      · exact .inr hv

/-- After a cancellation the allocated matches are those before it, some copies of `mid` apart. -/
theorem cancelMatch_allocated (s : CSMatchManager) (mid reason : Int) :
    (cancelMatch s mid reason).manager.allocated.Subperm s.allocated ∧
      ∀ v ∈ s.allocated, v ≠ mid → v ∈ (cancelMatch s mid reason).manager.allocated := by
  rcases cancelMatch_cases s mid reason with ⟨-, h⟩ | ⟨-, ms, hms, h⟩ <;> rw [h]
  · exact ⟨List.Subperm.refl _, fun v hv _ => hv⟩
  · have hms' : ms.elems.Subperm s.matchServices_.elems ∧ ∀ v ∈ s.matchServices_.elems, v ≠ mid → v ∈ ms.elems := by
      rcases hms with rfl | ⟨sid, rfl⟩
      · exact ⟨List.Subperm.refl _, fun v hv _ => hv⟩
      · exact modify_remove_elems _ sid mid
    refine ⟨List.filter_sublist.subperm.append hms'.1, fun v hv hne => ?_⟩
    rcases List.mem_append.mp hv with hv | hv
    · exact List.mem_append_left _ (List.mem_filter.mpr ⟨hv, by simpa using hne⟩)
    · exact List.mem_append_right _ (hms'.2 v hv hne)

/-- The pool after `addUndistriteMatches`: both lists together, without repetition. -/
theorem mem_undist_add {s : CSMatchManager} {now : Int} {mids : List Int} {v : Int} :
    v ∈ (addUndistriteMatches s now mids).undistMatches_ ↔ v ∈ s.undistMatches_ ∨ v ∈ mids := by
  show v ∈ unique (sort (merge s.undistMatches_ mids)) ↔ _
  rw [mem_unique, (sort_perm _).mem_iff, mem_merge]

theorem undist_add_nodup (s : CSMatchManager) (now : Int) (mids : List Int) :
    (addUndistriteMatches s now mids).undistMatches_.Nodup :=
  unique_nodup (sort_sorted _)

/-- The keys of `matches_` after a creation. -/
theorem mem_createdMatches {s : CSMatchManager} {now : Int} {ms : List CPGMatchProfile} {mid : Int} :
    mid ∈ (createdMatches s now ms).matches_ ↔ mid ∈ s.matches_ ∨ mid ∈ ms.map (·.mid) := by
  show mid ∈ ms.foldl (fun map m => map.assign m.mid m) s.matches_ ↔ _
  generalize s.matches_ = map
  induction ms generalizing map with
  | nil => simp
  | cons m ms ih =>
    rw [List.foldl_cons, ih, OrderedMap.mem_assign, List.map_cons, List.mem_cons]
    simp only [id]
    tauto

end AsioUtils.CentralServer.CSMatchManager
