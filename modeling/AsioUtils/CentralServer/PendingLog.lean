import AsioUtils.CentralServer.LastEvent

/-!
# The log of pending changes

`updateDistMatchServices` has two branches that only complain: an update of a service that is not in the map, and an
addition of one that is, with matches. What the log says when a change is noted still holds when the pass comes to it.

* `updateErrors`, `addErrors`, `passErrors` : the services those branches would name;
* `Normalised` : one entry for each `sid`, which fits the map;
* `normalised_step` : a call keeps it;
* `passErrors_eq_nil` : a pass over such a log complains of nothing.
-/

namespace AsioUtils.CentralServer.CSMatchManager

open AsioUtils.CPG StdList Runs

/-! ## The branches that complain -/

/-- `cant found update srv` in part ②. -/
def updateErrors : List ChangedService → ServiceMap → List Int
  | [], _ => []
  | changed :: cs, ms =>
    if changed.type = .update then
      match ms.find? changed.service.sid with
      | none => changed.service.sid :: updateErrors cs ms
      | some e => updateErrors cs ((ms.erase changed.service.sid).insert (changed.service, e.2))
    else updateErrors cs ms

/-- `add service has exist` in part ③. -/
def addErrors : List ChangedService → ServiceMap → List Int
  | [], _ => []
  | srv :: cs, ms =>
    match ms.find? srv.service.sid with
    | none => addErrors cs (ms.assign srv.service [])
    | some e =>
      if e.2.length = 0 then addErrors cs (ms.assign srv.service []) else srv.service.sid :: addErrors cs ms

/-- What a pass from `s` would complain of. -/
def passErrors (s : CSMatchManager) : List Int :=
  let r := removeServices s.changedServices_ [] s.matchServices_
  let changed := s.changedServices_.filter fun c => c.type ≠ .removed
  updateErrors changed r.2 ++ addErrors (changed.filter fun c => c.type ≠ .update) (updateServices changed r.2)

/-! ## One entry for each service -/

/-- The log has at most one entry for a service; a new service is not in the map, an updated one is. -/
structure Normalised (s : CSMatchManager) : Prop where
  once : (s.changedServices_.map fun c => c.service.sid).Nodup
  added : AddedNew s
  update : ∀ c ∈ s.changedServices_, c.type = .update → c.service.sid ∈ s.matchServices_

section Steps

variable {s s' : CSMatchManager}

theorem Normalised.congr (h : Normalised s) (hms : ∀ i, i ∈ s'.matchServices_ ↔ i ∈ s.matchServices_)
    (hcs : s'.changedServices_ = s.changedServices_) : Normalised s' := by
  refine ⟨hcs ▸ h.once, h.added.congr hms hcs, fun c hc htype => ?_⟩
  rw [hms]
  exact h.update c (hcs ▸ hc) htype

/-- The entries of one service give way to at most one. -/
theorem once_replace {cs extra : List ChangedService} {k : Int} (h : (cs.map fun c => c.service.sid).Nodup)
    (hextra : ∀ c ∈ extra, c.service.sid = k) (hlen : extra.length ≤ 1) :
    ((cs.filter (fun c => c.service.sid ≠ k) ++ extra).map fun c => c.service.sid).Nodup := by
  rw [List.map_append]
  refine List.nodup_append.mpr ⟨h.sublist (List.filter_sublist.map _), ?_, ?_⟩
  · match extra, hlen with
    | [], _ => exact List.nodup_nil
    | [c], _ => exact List.nodup_singleton _
  · intro i hi j hj heq
    obtain ⟨c, hc, rfl⟩ := List.mem_map.mp hi
    obtain ⟨d, hd, rfl⟩ := List.mem_map.mp hj
    exact of_decide_eq_true (List.mem_filter.mp hc).2 (heq.trans (hextra d hd))

theorem normalised_update (h : Normalised s) (now : Int) (service : ServerInfo) :
    Normalised (updateMatchService s now service) := by
  obtain ⟨type, stamp, hcs, htype⟩ := updateMatchService_changed (s := s) now service
  refine ⟨?_, addedNew_update now service h.added, fun c hc hupdate => ?_⟩
  · rw [hcs]
    exact once_replace h.once (fun c hc => by rw [List.mem_singleton.mp hc]) le_rfl
  · rw [hcs] at hc
    rcases List.mem_append.mp hc with hc | hc
    · exact h.update c (List.mem_filter.mp hc).1 hupdate
    · rw [List.mem_singleton.mp hc] at hupdate ⊢
      rcases htype with ⟨-, hadded⟩ | ⟨hin, -⟩
      · cases hupdate.symm.trans hadded
      · exact hin

theorem normalised_remove (h : Normalised s) (now : Int) (service : ServerInfo) :
    Normalised (removeMatchService s now service) := by
  have hcs := removeMatchService_changed (s := s) now service
  refine ⟨?_, addedNew_remove now service h.added, fun c hc hupdate => ?_⟩
  · rw [hcs]
    refine once_replace h.once (fun c hc => ?_) ?_
    · split_ifs at hc
      · cases hc
      · rw [List.mem_singleton.mp hc]
    · split_ifs
      · exact Nat.zero_le 1
      · exact le_rfl
  · rw [hcs] at hc
    rcases List.mem_append.mp hc with hc | hc
    · exact h.update c (List.mem_filter.mp hc).1 hupdate
    · split_ifs at hc
      · cases hc
      · rw [List.mem_singleton.mp hc] at hupdate
        cases hupdate

theorem normalised_check (h : Normalised s) (now : Int) (service : MatchDisService) (mids : List Int) :
    Normalised (checkServiceDistMap s now service mids).1 := by
  cases hf : s.matchServices_.find? service.sid with
  | some e =>
    rw [checkServiceDistMap_known hf]
    exact h.congr (fun i => OrderedMap.mem_modify) rfl
  | none =>
    by_cases hm : mids = []
    · subst hm
      rw [checkServiceDistMap_noMatch hf]
      exact h.congr (fun _ => Iff.rfl) rfl
    · have hadded := addedNew_adopt now hf hm h.added
      rw [checkServiceDistMap_adopt hf now hm] at hadded ⊢
      refine ⟨h.once.sublist (List.filter_sublist.map _), hadded, fun c hc hupdate => ?_⟩
      exact OrderedMap.mem_assign.mpr (.inr (h.update c (List.mem_filter.mp hc).1 hupdate))

theorem normalised_cancel (h : Normalised s) (mid reason : Int) : Normalised (cancelMatch s mid reason).manager := by
  rcases cancelMatch_cases s mid reason with ⟨-, hs⟩ | ⟨-, ms, hms, hs⟩ <;> rw [hs]
  · exact h
  · refine h.congr (fun i => ?_) rfl
    rcases hms with rfl | ⟨owner, rfl⟩
    · rfl
    · exact OrderedMap.mem_modify

/-- **A call** keeps the log normalised. -/
theorem normalised_step (h : Normalised s) (c : TimedCall) : Normalised (step s c) := by
  obtain ⟨now, call⟩ := c
  cases call with
  | createdMatches ms => exact h.congr (fun _ => Iff.rfl) rfl
  | addUndistriteMatches mids => exact h.congr (fun _ => Iff.rfl) rfl
  | updateMatchService service => exact normalised_update h now service
  | removeMatchService service => exact normalised_remove h now service
  | checkServiceDistMap service mids => exact normalised_check h now service mids
  | cancelMatch mid reason => exact normalised_cancel h mid reason
  | updateDistMatchServices =>
    show Normalised (updateDistMatchServices s now).1
    rcases updateDistMatchServices_cases s now with ⟨-, hs⟩ | ⟨-, hs⟩
    · have hlog : (updateDistMatchServices s now).1.changedServices_ = [] := by
        rw [hs]
        rfl
      refine ⟨by simp [hlog], fun c hc => ?_, fun c hc => ?_⟩
      · rw [hlog] at hc
        cases hc
      · rw [hlog] at hc
        cases hc
    · rw [hs]
      exact h.congr (fun _ => Iff.rfl) rfl

end Steps

theorem normalised_initialized (now : Int) (stored : MatchMap) : Normalised (initialized now stored) :=
  ⟨List.nodup_nil, (by rintro c ⟨⟩), (by rintro c ⟨⟩)⟩

/-! ## What a pass finds -/

theorem updateErrors_eq_nil {cs : List ChangedService} {ms : ServiceMap}
    (h : ∀ c ∈ cs, c.type = .update → c.service.sid ∈ ms) : updateErrors cs ms = [] := by
  induction cs generalizing ms with
  | nil => rfl
  | cons c cs ih =>
    obtain ⟨hc, hcs⟩ := List.forall_mem_cons.mp h
    rw [updateErrors]
    split_ifs with htype
    · obtain ⟨e, he⟩ := OrderedMap.mem_iff.mp (hc htype)
      rw [he]
      refine ih fun d hd hupdate => ?_
      rw [OrderedMap.mem_insert, OrderedMap.mem_erase]
      by_cases hsame : d.service.sid = c.service.sid
      · exact .inl hsame
      · exact .inr ⟨hsame, hcs d hd hupdate⟩
    · exact ih hcs

theorem addErrors_eq_nil {cs : List ChangedService} {ms : ServiceMap} (honce : (cs.map fun c => c.service.sid).Nodup)
    (h : ∀ c ∈ cs, c.service.sid ∉ ms) : addErrors cs ms = [] := by
  induction cs generalizing ms with
  | nil => rfl
  | cons c cs ih =>
    obtain ⟨hc, hcs⟩ := List.forall_mem_cons.mp h
    obtain ⟨hother, honce⟩ := List.nodup_cons.mp honce
    rw [addErrors, OrderedMap.not_mem_iff.mp hc]
    refine ih honce fun d hd => ?_
    rw [OrderedMap.mem_assign, not_or]
    exact ⟨fun heq => hother (List.mem_map.mpr ⟨d, hd, heq⟩), hcs d hd⟩

/-- **A pass** over a normalised log finds every service it updates, and none it adds. -/
theorem passErrors_eq_nil {s : CSMatchManager} (h : Normalised s) : passErrors s = [] := by
  refine List.append_eq_nil_iff.mpr ⟨updateErrors_eq_nil fun c hc hupdate => ?_, addErrors_eq_nil ?_ fun c hc => ?_⟩
  · -- its entry is the only one of its service, so the service was not removed
    have hc := (List.mem_filter.mp hc).1
    refine mem_removeServices.mpr ⟨h.update c hc hupdate, fun d hd hremoved hsid => ?_⟩
    obtain rfl := List.inj_on_of_nodup_map h.once hd hc hsid
    cases hremoved.symm.trans hupdate
  · exact h.once.sublist ((List.filter_sublist.trans List.filter_sublist).map _)
  · obtain ⟨hc, hadded⟩ := mem_toAdd.mp hc
    rw [mem_updateServices, mem_removeServices]
    exact fun hin => h.added c hc hadded hin.1

/-- **The log of pending changes is normalised** in every state of every run, so no pass complains. -/
theorem pending_log_normalised (now : Int) (stored : MatchMap) (calls : List TimedCall) :
    Always step (fun s => ((s.changedServices_.map fun c => c.service.sid).Nodup ∧
      (∀ c ∈ s.changedServices_, (c.type = .added → c.service.sid ∉ s.matchServices_) ∧
        (c.type = .update → c.service.sid ∈ s.matchServices_))) ∧ passErrors s = []) (initialized now stored) calls := by
  have hinv : Always step Normalised (initialized now stored) calls :=
    inv_always_all (fun s c h => normalised_step h c) (normalised_initialized now stored)
  refine hinv.mono fun s h => ?_
  exact ⟨⟨h.once, fun c hc => ⟨h.added c hc, h.update c hc⟩⟩, passErrors_eq_nil h⟩

end AsioUtils.CentralServer.CSMatchManager
