import AsioUtils.CentralServer.Load
import AsioUtils.CentralServer.PendingLog

/-!
# What the next pass has to place

A pass applies the log before it distributes. The services the distribution will see, how many matches each of them
runs and how many wait can be read off the map and the log as they are before the pass.

* `nextServices`, `nextSizes`, `nextPool` : these, and `LoadsKnown` : the loads the keys will record are real;
* `sizes_toDistribute`, `length_toDistribute`, `accurate_toDistribute` : parts ①, ② and ③ of a pass hand over just that;
* `HasRoom`, `placed_iff` : no match waits after a pass if and only if there was room for all.
-/

namespace AsioUtils.CentralServer.CSMatchManager

open AsioUtils.CPG StdList MatchDistribution WaterFill

/-- The services the log removes. -/
def lostServices (s : CSMatchManager) : List Int :=
  (s.changedServices_.filter fun c => c.type = .removed).map fun c => c.service.sid

/-- The services after the next pass: those of the map that the log does not remove, and those it adds. -/
def nextServices (s : CSMatchManager) : List Int :=
  s.matchServices_.indices.filter (· ∉ s.lostServices) ++
    (s.changedServices_.filter fun c => c.type = .added).map fun c => c.service.sid

/-- How many matches each of them runs. -/
def nextSizes (s : CSMatchManager) : List Nat :=
  s.nextServices.map fun sid => (getDistMatch s.matchServices_ sid).length

/-- How many matches wait, those of the lost services among them. -/
def nextPool (s : CSMatchManager) : Nat :=
  s.undistMatches_.length + (s.lostServices.map fun sid => (getDistMatch s.matchServices_ sid).length).sum

/-- The loads the next pass will go by are the real ones: in the keys the log leaves alone, and in the log. -/
structure LoadsKnown (s : CSMatchManager) : Prop where
  kept : ∀ e ∈ s.matchServices_.entries, (∀ c ∈ s.changedServices_, c.service.sid ≠ e.1.sid) → e.1.loaded = e.2.length
  pending : ∀ c ∈ s.changedServices_, c.type ≠ .removed →
    c.service.loaded = (getDistMatch s.matchServices_ c.service.sid).length

instance (s : CSMatchManager) : Decidable s.LoadsKnown :=
  decidable_of_iff
    ((∀ e ∈ s.matchServices_.entries, (∀ c ∈ s.changedServices_, c.service.sid ≠ e.1.sid) → e.1.loaded = e.2.length) ∧
      ∀ c ∈ s.changedServices_, c.type ≠ .removed →
        c.service.loaded = (getDistMatch s.matchServices_ c.service.sid).length)
    ⟨fun h => ⟨h.1, h.2⟩, fun h => ⟨h.kept, h.pending⟩⟩

/-- There is room for every match that will wait: with `q` matches for each service for all there are, or below `q`
without clipping, when no service is too busy and none stays without a match. -/
def HasRoom (s : CSMatchManager) : Prop :=
  let q := countPerService s.matches_.size s.nextServices.length
  s.nextPool + s.nextSizes.sum ≤ q * s.nextServices.length ∨
    (s.nextPool ≤ need q s.nextSizes ∧ (∀ l ∈ s.nextSizes, l < 10) ∧
      (s.nextSizes.count 0 = 0 ∨ (s.nextSizes.count 0 - 1) * q < s.nextPool))

instance (s : CSMatchManager) : Decidable s.HasRoom :=
  inferInstanceAs (Decidable ((_ : Prop) ∨ (_ ∧ _ ∧ (_ ∨ _))))

/-- What parts ①, ② and ③ hand to the distribution: the services, and the matches that wait. -/
def toDistribute (s : CSMatchManager) : ServiceMap × List Int :=
  let r := removeServices s.changedServices_ [] s.matchServices_
  let changed := s.changedServices_.filter fun c => c.type ≠ .removed
  (addServices (changed.filter fun c => c.type ≠ .update) (updateServices changed r.2), merge s.undistMatches_ r.1)

variable {s : CSMatchManager}

/-! ## The services -/

theorem mem_lostServices {sid : Int} :
    sid ∈ s.lostServices ↔ ∃ c ∈ s.changedServices_, c.type = .removed ∧ c.service.sid = sid := by
  simp [lostServices, and_assoc]

theorem mem_nextServices {sid : Int} : sid ∈ s.nextServices ↔ WillServe sid s := by
  unfold nextServices WillServe
  rw [List.mem_append, List.mem_filter, OrderedMap.mem_indices, decide_eq_true_eq, mem_lostServices]
  simp only [List.mem_map, List.mem_filter, decide_eq_true_eq, and_assoc, not_exists, not_and]

/-- The log has one entry for each service. -/
theorem Normalised.unique (h : Normalised s) {c d : ChangedService} (hc : c ∈ s.changedServices_)
    (hd : d ∈ s.changedServices_) (hsid : c.service.sid = d.service.sid) : c = d :=
  List.inj_on_of_nodup_map h.once hc hd hsid

theorem Normalised.nextServices_nodup (h : Normalised s) : s.nextServices.Nodup := by
  refine List.nodup_append.mpr ⟨s.matchServices_.indices_nodup.filter _, ?_, ?_⟩
  · exact h.once.sublist (List.filter_sublist.map _)
  · rintro sid hkept _ hadded rfl
    obtain ⟨c, hc, rfl⟩ := List.mem_map.mp hadded
    obtain ⟨hc, htype⟩ := List.mem_filter.mp hc
    exact h.added c hc (of_decide_eq_true htype) (OrderedMap.mem_indices.mp (List.mem_filter.mp hkept).1)

/-- A service the next pass leaves is not removed. -/
theorem Normalised.not_removed (h : Normalised s) {sid : Int} (hsid : WillServe sid s) :
    ∀ c ∈ s.changedServices_, c.type = .removed → c.service.sid ≠ sid := by
  rcases hsid with ⟨-, hno⟩ | ⟨d, hd, htype, rfl⟩
  · exact hno
  · rintro c hc hremoved hsid
    rw [h.unique hc hd hsid, htype] at hremoved
    cases hremoved

theorem mem_toDistribute {sid : Int} : sid ∈ s.toDistribute.1 ↔ sid ∈ s.nextServices := by
  rw [mem_nextServices]
  refine Iff.trans ?_ mem_applyChanges
  exact ((redistribute_moves s.toDistribute.1 s.matches_ s.toDistribute.2).sids sid).symm

theorem indices_toDistribute (h : Normalised s) : s.toDistribute.1.indices.Perm s.nextServices := by
  refine (List.perm_ext_iff_of_nodup s.toDistribute.1.indices_nodup h.nextServices_nodup).mpr fun sid => ?_
  rw [OrderedMap.mem_indices, mem_toDistribute]

theorem size_toDistribute (h : Normalised s) : s.toDistribute.1.size = s.nextServices.length :=
  (List.length_map _).symm.trans (indices_toDistribute h).length_eq

/-! ## Their lists -/

theorem sizeAt_eq (m : ServiceMap) (sid : Int) : sizeAt m sid = (getDistMatch m sid).length := by
  unfold sizeAt getDistMatch
  cases m.find? sid <;> rfl

/-- A service keeps its list up to the distribution. -/
theorem getDistMatch_toDistribute (h : Normalised s) {sid : Int} (hsid : sid ∈ s.nextServices) :
    getDistMatch s.toDistribute.1 sid = getDistMatch s.matchServices_ sid := by
  have hkept := h.not_removed (mem_nextServices.mp hsid)
  calc getDistMatch s.toDistribute.1 sid
      = getDistMatch (updateServices _ (removeServices s.changedServices_ [] s.matchServices_).2) sid :=
        getDistMatch_addServices _ _ sid
    _ = getDistMatch (removeServices s.changedServices_ [] s.matchServices_).2 sid := getDistMatch_updateServices _ _ sid
    _ = getDistMatch s.matchServices_ sid := getDistMatch_removeServices_other hkept

/-- The distribution sees the lists' lengths. -/
theorem sizes_toDistribute (h : Normalised s) : (sizes s.toDistribute.1).Perm s.nextSizes := by
  have hsizes : sizes s.toDistribute.1 =
      s.toDistribute.1.indices.map fun sid => (getDistMatch s.matchServices_ sid).length := by
    refine sizes_congr (fun _ => Iff.rfl) fun sid hsid => ?_
    rw [sizeAt_eq, getDistMatch_toDistribute h (mem_toDistribute.mp hsid)]
  rw [hsizes]
  exact (indices_toDistribute h).map _

/-! ## The pool -/

/-- Part ① collects the list of every service it removes. -/
theorem length_removeServices {cs : List ChangedService} (honce : (cs.map fun c => c.service.sid).Nodup)
    (undist : List Int) (ms : ServiceMap) : (removeServices cs undist ms).1.length = undist.length +
      (((cs.filter fun c => c.type = .removed).map fun c => c.service.sid).map fun sid =>
        (getDistMatch ms sid).length).sum := by
  induction cs generalizing undist ms with
  | nil => rfl
  | cons c cs ih =>
    obtain ⟨hother, honce⟩ := List.nodup_cons.mp honce
    rw [removeServices]
    by_cases htype : c.type = .removed
    · have hfilter : (c :: cs).filter (fun c => c.type = .removed) = c :: cs.filter fun c => c.type = .removed :=
        List.filter_cons_of_pos (decide_eq_true htype)
      rw [if_pos htype, ih honce, hfilter, List.map_cons, List.map_cons, List.sum_cons, (merge_perm _ _).length_eq,
        List.length_append, Nat.add_assoc]
      congr 3
      -- the lists of the others are still there
      refine List.map_congr_left fun sid hsid => ?_
      obtain ⟨d, hd, rfl⟩ := List.mem_map.mp hsid
      have hne : d.service.sid ≠ c.service.sid := fun heq =>
        hother (List.mem_map.mpr ⟨d, (List.mem_filter.mp hd).1, heq⟩)
      unfold getDistMatch
      rw [OrderedMap.find?_erase, if_neg hne]
    · have hfilter : (c :: cs).filter (fun c => c.type = .removed) = cs.filter fun c => c.type = .removed :=
        List.filter_cons_of_neg (by simpa using htype)
      rw [if_neg htype, ih honce, hfilter]

theorem length_toDistribute (h : Normalised s) : s.toDistribute.2.length = s.nextPool := by
  show (merge s.undistMatches_ _).length = _
  rw [(merge_perm _ _).length_eq, List.length_append, length_removeServices h.once, List.length_nil, Nat.zero_add]
  rfl

/-! ## The loads -/

/-- The log fits the map, so the distribution goes by the loads in the keys and in the log. -/
theorem accurate_toDistribute (h : Normalised s) (hknown : s.LoadsKnown) : Accurate s.toDistribute.1 := by
  refine accurate_addServices (accurate_updateServices (fun i e he hno => ?_) fun c hc htype => ?_) fun c hc => ?_
  · rw [find?_removeServices] at he
    split_ifs at he with hremoved
    have hentry := OrderedMap.mem_of_find? he
    have hsid : e.1.sid = i := OrderedMap.ord_of_find? he
    refine hknown.kept e hentry fun c hc hi => ?_
    rw [hsid] at hi
    cases htype : c.type with
    | removed => exact hremoved ⟨c, hc, htype, hi⟩
    | update => exact hno c (List.mem_filter.mpr ⟨hc, by simp [htype]⟩) htype hi
    | added => exact h.added c hc htype (hi ▸ OrderedMap.mem_iff.mpr ⟨e, he⟩)
  · obtain ⟨hc, hkept⟩ := List.mem_filter.mp hc
    rw [hknown.pending c hc (of_decide_eq_true hkept), getDistMatch_removeServices_other]
    rintro d hd hremoved hsid
    rw [h.unique hd hc hsid, htype] at hremoved
    cases hremoved
  · obtain ⟨hc, htype⟩ := mem_toAdd.mp hc
    rw [hknown.pending c hc (by rw [htype]; decide), getDistMatch, OrderedMap.not_mem_iff.mp (h.added c hc htype)]
    rfl

/-- **Who waits after a pass**, read off the state before it: with known loads, nobody if and only if there is room. -/
theorem placed_iff (h : Normalised s) (hknown : s.LoadsKnown) (hne : s.nextServices ≠ []) :
    (applyChanges s).1.undistMatches_ = [] ↔ s.HasRoom := by
  have hsize := size_toDistribute h
  have hsizes := sizes_toDistribute h
  have hserved : s.toDistribute.1.size ≠ 0 := by rwa [hsize, Ne, List.length_eq_zero_iff]
  have hplaces := redistribute_places_iff hserved (accurate_toDistribute h hknown) s.matches_ (congrArg _ hsize.symm)
    s.toDistribute.2
  rw [length_toDistribute h, hsize, hsizes.sum_eq, need_perm hsizes, hsizes.count_eq] at hplaces
  simp only [hsizes.mem_iff] at hplaces
  exact hplaces

end AsioUtils.CentralServer.CSMatchManager
