import AsioUtils.CentralServer.MatchDistribution
import AsioUtils.Lib.WaterFill

/-!
# What a redistribution does to the loads

The passes of `MatchDistribution` read the loads the keys record. When these are the real ones (`Accurate`), the passes
are the two levelling loops of `WaterFill` on the lists' lengths:

* `fillServices_spec`, `clipServices_spec` : the loops over the services are `fill` and `clip`;
* `distributeFill_spec`, `distributeClipping_spec` : the passes, which leave accurate loads behind;
* `redistribute_left` : how many matches `operator()` leaves in the pool;
* `redistribute_places_iff`, `redistribute_assigns_all_iff` : when it leaves none.
-/

namespace AsioUtils.CentralServer.MatchDistribution

open StdList WaterFill CSMatchLoadedEvaluation

/-- The recorded loads are the real ones. -/
def Accurate (m : ServiceMap) : Prop := ∀ e ∈ m.entries, e.1.loaded = e.2.length

instance (m : ServiceMap) : Decidable (Accurate m) :=
  inferInstanceAs (Decidable (∀ e ∈ m.entries, e.1.loaded = e.2.length))

/-- How many matches the service runs. -/
def sizeAt (m : ServiceMap) (sid : Int) : Nat :=
  match m.find? sid with
  | some e => e.2.length
  | none => 0

/-- How many matches each service runs, by ascending `sid`. -/
def sizes (m : ServiceMap) : List Nat := m.entries.map fun e => e.2.length

theorem sizeAt_of_find? {m : ServiceMap} {sid : Int} {e : MatchDisService × List Int} (h : m.find? sid = some e) :
    sizeAt m sid = e.2.length := by
  unfold sizeAt
  rw [h]

theorem sizes_eq (m : ServiceMap) : sizes m = m.indices.map (sizeAt m) := by
  unfold sizes OrderedMap.indices
  rw [List.map_map]
  refine List.map_congr_left fun e he => ?_
  exact (sizeAt_of_find? (OrderedMap.find?_of_mem he)).symm

theorem sizes_length (m : ServiceMap) : (sizes m).length = m.size := List.length_map _

theorem sizes_sum (m : ServiceMap) : (sizes m).sum = m.elems.length := List.length_flatMap.symm

/-- Sizes are known from the lookups. -/
theorem sizes_congr {m m' : ServiceMap} (h : ∀ i, i ∈ m' ↔ i ∈ m) {f : Int → Nat} (hf : ∀ i ∈ m, sizeAt m' i = f i) :
    sizes m' = m.indices.map f := by
  rw [sizes_eq, OrderedMap.indices_eq h]
  exact List.map_congr_left fun i hi => hf i (OrderedMap.mem_indices.mp hi)

theorem accurate_iff {m : ServiceMap} : Accurate m ↔ ∀ i e, m.find? i = some e → e.1.loaded = e.2.length := by
  constructor
  · intro h i e he
    exact h e (OrderedMap.mem_of_find? he)
  · intro h e he
    exact h _ e (OrderedMap.find?_of_mem he)

/-! ## Updating the loads -/

/-- A service with its real load. -/
def rekey (e : MatchDisService × List Int) : MatchDisService × List Int := (⟨e.1.sid, e.2.length⟩, e.2)

theorem find?_updateLoaded (sid : Int) (m : ServiceMap) (i : Int) :
    (updateLoaded sid m).find? i = if i = sid then (m.find? i).map rekey else m.find? i := by
  unfold updateLoaded
  cases h : m.find? sid with
  | none =>
    split_ifs with hi
    · rw [hi, h]
      rfl
    · rfl
  | some e =>
    dsimp only
    rw [OrderedMap.find?_insert, OrderedMap.find?_erase]
    split_ifs with hi
    · have hsid : e.1.sid = sid := OrderedMap.ord_of_find? h
      rw [hi, h, Option.getD_none, Option.map_some, rekey, hsid]
      rfl
    · rfl

theorem find?_updateLoads (p : Pass) (i : Int) : p.updateLoads.matchServices.find? i =
    if i ∈ p.changedServices then (p.matchServices.find? i).map rekey else p.matchServices.find? i := by
  obtain ⟨m, u, changed⟩ := p
  show (changed.foldl (fun ms cid => updateLoaded cid ms) m).find? i = if i ∈ changed then _ else _
  induction changed generalizing m with
  | nil => rfl
  | cons cid changed ih =>
    rw [List.foldl_cons, ih, find?_updateLoaded]
    have htwice : ((m.find? i).map rekey).map rekey = (m.find? i).map rekey := by
      rw [Option.map_map]
      rfl
    by_cases hi : i = cid
    · rw [if_pos hi, if_pos (List.mem_cons.mpr (.inl hi)), htwice, ite_self]
    · rw [if_neg hi]
      simp only [List.mem_cons, hi, false_or]

/-- Updating loads changes no list. -/
theorem sizeAt_updateLoads (p : Pass) (i : Int) : sizeAt p.updateLoads.matchServices i = sizeAt p.matchServices i := by
  unfold sizeAt
  rw [find?_updateLoads]
  split_ifs
  · cases p.matchServices.find? i <;> rfl
  · rfl

/-- A service that is not among the changed ones has an accurate load. -/
def UnchangedAccurate (p : Pass) : Prop :=
  ∀ i e, p.matchServices.find? i = some e → i ∉ p.changedServices → e.1.loaded = e.2.length

theorem accurate_updateLoads {p : Pass} (h : UnchangedAccurate p) : Accurate p.updateLoads.matchServices := by
  rw [accurate_iff]
  intro i e he
  rw [find?_updateLoads] at he
  split_ifs at he with hi
  · obtain ⟨e', -, rfl⟩ := Option.map_eq_some_iff.mp he
    rfl
  · exact h i e he hi

/-- Writing the list of a service keeps the invariant when the service is noted, or its list stays as it was. -/
theorem UnchangedAccurate.write {p : Pass} (h : UnchangedAccurate p) {sid : Int} {e : MatchDisService × List Int}
    (he : p.matchServices.find? sid = some e) {mids undist changed : List Int}
    (hsub : ∀ i ∈ p.changedServices, i ∈ changed) (hnote : sid ∈ changed ∨ mids = e.2) :
    UnchangedAccurate ⟨p.matchServices.modify sid fun _ => mids, undist, changed⟩ := by
  intro i x hx hi
  change (p.matchServices.modify sid fun _ => mids).find? i = some x at hx
  rw [OrderedMap.find?_modify] at hx
  have hold : i ∉ p.changedServices := fun hin => hi (hsub i hin)
  split_ifs at hx with his
  · subst his
    rw [he] at hx
    obtain rfl := Option.some.inj hx
    rcases hnote with hin | rfl
    · exact absurd hin hi
    · exact h i e he hold
  · exact h i x hx hold

/-- Sizes after writing one list. -/
theorem sizeAt_modify {m : ServiceMap} {sid : Int} {e : MatchDisService × List Int} (he : m.find? sid = some e)
    (mids : List Int) (i : Int) :
    sizeAt (m.modify sid fun _ => mids) i = if i = sid then mids.length else sizeAt m i := by
  unfold sizeAt
  rw [OrderedMap.find?_modify]
  split_ifs with hi
  · rw [hi, he]
    rfl
  · rfl

/-! ## The loop of `distributeFill` -/

/-- The services a loop is still to visit: distinct, in the map, with their real loads. -/
structure Visits (m : ServiceMap) (ordered : List MatchDisService) : Prop where
  distinct : (ordered.map MatchDisService.sid).Nodup
  known : ∀ srv ∈ ordered, ∃ e, m.find? srv.sid = some e ∧ srv.loaded = e.2.length

/-- The services still to visit are not touched by writing the list of the one that is visited. -/
theorem Visits.tail {m : ServiceMap} {srv : MatchDisService} {ordered : List MatchDisService}
    (h : Visits m (srv :: ordered)) (mids : List Int) :
    Visits (m.modify srv.sid fun _ => mids) ordered ∧
      ordered.map (fun s => sizeAt (m.modify srv.sid fun _ => mids) s.sid) = ordered.map fun s => sizeAt m s.sid := by
  obtain ⟨hnot, hnd⟩ := List.nodup_cons.mp (List.map_cons ▸ h.distinct)
  obtain ⟨e, he, -⟩ := h.known srv List.mem_cons_self
  have hne : ∀ s ∈ ordered, s.sid ≠ srv.sid := fun s hs heq => hnot (heq ▸ List.mem_map_of_mem hs)
  refine ⟨⟨hnd, fun s hs => ?_⟩, List.map_congr_left fun s hs => ?_⟩
  · obtain ⟨x, hx, hload⟩ := h.known s (List.mem_cons_of_mem srv hs)
    refine ⟨x, ?_, hload⟩
    rw [OrderedMap.find?_modify, if_neg (hne s hs)]
    exact hx
  · rw [sizeAt_modify he, if_neg (hne s hs)]

/-- What a loop over `ordered` makes of the pass `p`: the sizes of the visited services and of the pool, and the rest
as it was. -/
structure LoopSpec (ordered : List MatchDisService) (p r : Pass) (levels : List Nat × Nat) : Prop where
  visited : ordered.map (fun srv => sizeAt r.matchServices srv.sid) = levels.1
  pool : r.undistMatches.length = levels.2
  others : ∀ i, i ∉ ordered.map MatchDisService.sid → sizeAt r.matchServices i = sizeAt p.matchServices i
  accurate : UnchangedAccurate p → UnchangedAccurate r

theorem LoopSpec.stop {ordered : List MatchDisService} {p : Pass} :
    LoopSpec ordered p p (ordered.map (fun srv => sizeAt p.matchServices srv.sid), p.undistMatches.length) :=
  ⟨rfl, rfl, fun _ _ => rfl, id⟩

/-- One visit and then the rest of the loop. -/
theorem LoopSpec.cons {srv : MatchDisService} {ordered : List MatchDisService} {p r : Pass} {levels : List Nat × Nat}
    {e : MatchDisService × List Int} {mids undist changed : List Int} (hv : Visits p.matchServices (srv :: ordered))
    (he : p.matchServices.find? srv.sid = some e) (hsub : ∀ i ∈ p.changedServices, i ∈ changed)
    (hnote : srv.sid ∈ changed ∨ mids = e.2)
    (h : LoopSpec ordered ⟨p.matchServices.modify srv.sid fun _ => mids, undist, changed⟩ r levels) :
    LoopSpec (srv :: ordered) p r (mids.length :: levels.1, levels.2) := by
  obtain ⟨hnot, -⟩ := List.nodup_cons.mp (List.map_cons ▸ hv.distinct)
  refine ⟨?_, h.pool, fun i hi => ?_, fun hacc => h.accurate (hacc.write he hsub hnote)⟩
  · rw [List.map_cons, h.visited, h.others srv.sid hnot, sizeAt_modify he, if_pos rfl]
  · rw [List.map_cons, List.mem_cons, not_or] at hi
    rw [h.others i hi.2, sizeAt_modify he, if_neg hi.1]

theorem fillServices_spec (q : Nat) (ordered : List MatchDisService) (p : Pass) (hv : Visits p.matchServices ordered) :
    LoopSpec ordered p (fillServices q ordered p)
      (fill q (ordered.map fun srv => sizeAt p.matchServices srv.sid) p.undistMatches.length) := by
  induction ordered generalizing p with
  | nil => exact LoopSpec.stop
  | cons srv ordered ih =>
    obtain ⟨e, he, hload⟩ := hv.known srv List.mem_cons_self
    have hsize := sizeAt_of_find? he
    unfold fillServices
    split_ifs with h0 h1
    · rw [Nat.le_zero.mp h0, fill_of_zero, ← Nat.le_zero.mp h0]
      exact LoopSpec.stop
    · rw [List.map_cons, fill_of_le (by omega)]
      exact LoopSpec.stop
    · rw [he]
      dsimp only
      rw [fillList_eq, List.map_cons, fill, if_neg (by omega)]
      have hk : ((q : Int) - srv.loaded).toNat = q - sizeAt p.matchServices srv.sid := by omega
      rw [hk]
      generalize hn : q - sizeAt p.matchServices srv.sid = n
      obtain ⟨hv', hsizes⟩ := hv.tail (e.2 ++ p.undistMatches.take n)
      have hrest : LoopSpec ordered
          ⟨p.matchServices.modify srv.sid fun _ => e.2 ++ p.undistMatches.take n, p.undistMatches.drop n,
            setInsert srv.sid p.changedServices⟩
          (fillServices q ordered ⟨p.matchServices.modify srv.sid fun _ => e.2 ++ p.undistMatches.take n,
            p.undistMatches.drop n, setInsert srv.sid p.changedServices⟩)
          (fill q (ordered.map fun s => sizeAt p.matchServices s.sid) (p.undistMatches.length - n)) := by
        rw [← hsizes, ← List.length_drop]
        exact ih ⟨_, _, _⟩ hv'
      have hspec := LoopSpec.cons hv he (fun i hi => mem_setInsert.mpr (.inr hi)) (.inl (mem_setInsert.mpr (.inl rfl)))
        hrest
      rw [List.length_append, List.length_take, ← hsize] at hspec
      exact hspec

/-! ## The loop of `distributeClipping` -/

theorem clipServices_spec (q : Nat) (ordered : List MatchDisService) (p : Pass) (hv : Visits p.matchServices ordered) :
    LoopSpec ordered p (clipServices q ordered p)
      (clip q (ordered.map fun srv => sizeAt p.matchServices srv.sid) p.undistMatches.length) := by
  induction ordered generalizing p with
  | nil => exact LoopSpec.stop
  | cons srv ordered ih =>
    obtain ⟨e, he, hload⟩ := hv.known srv List.mem_cons_self
    have hsize := sizeAt_of_find? he
    unfold clipServices
    split_ifs with h1
    · rw [List.map_cons, clip, if_pos (by omega)]
      exact LoopSpec.stop
    · rw [he]
      dsimp only
      rw [clipList_eq]
      have hgt : q < sizeAt p.matchServices srv.sid := by omega
      obtain ⟨n, hn⟩ : ∃ n, n = sizeAt p.matchServices srv.sid - q := ⟨_, rfl⟩
      have hk : (srv.loaded - (q : Int)).toNat = n := by omega
      -- the service has more than `q` matches, so some match is taken and the service is noted
      have hmids : e.2 ≠ [] := by
        intro hnil
        rw [hnil, List.length_nil] at hsize
        omega
      have hmoved : (false || !(e.2.take n).isEmpty) = true := by
        have : n ≠ 0 := by omega
        simp [hmids, this]
      rw [hk, hmoved, if_pos rfl]
      obtain ⟨hv', hsizes⟩ := hv.tail (e.2.drop n)
      have hlen : p.undistMatches.length + n = (p.undistMatches ++ e.2.take n).length := by
        rw [List.length_append, List.length_take]
        omega
      have hrest : LoopSpec ordered
          ⟨p.matchServices.modify srv.sid fun _ => e.2.drop n, p.undistMatches ++ e.2.take n,
            setInsert srv.sid p.changedServices⟩
          (clipServices q ordered ⟨p.matchServices.modify srv.sid fun _ => e.2.drop n,
            p.undistMatches ++ e.2.take n, setInsert srv.sid p.changedServices⟩)
          (clip q (ordered.map fun s => sizeAt p.matchServices s.sid) (p.undistMatches.length + n)) := by
        rw [← hsizes, hlen]
        exact ih ⟨_, _, _⟩ hv'
      have hspec := LoopSpec.cons hv he (fun i hi => mem_setInsert.mpr (.inr hi)) (.inl (mem_setInsert.mpr (.inl rfl)))
        hrest
      have hq : (e.2.drop n).length = q := by
        rw [List.length_drop]
        omega
      rw [hq] at hspec
      rw [List.map_cons, clip, if_neg (not_le.mpr hgt), ← hn]
      exact hspec

/-! ## The passes -/

theorem keys_map_sid (m : ServiceMap) : m.keys.map MatchDisService.sid = m.indices := List.map_map

theorem visits_of_perm {m : ServiceMap} (h : Accurate m) {ordered : List MatchDisService} (hp : ordered.Perm m.keys) :
    Visits m ordered := by
  constructor
  · rw [(hp.map MatchDisService.sid).nodup_iff, keys_map_sid]
    exact m.indices_nodup
  · intro srv hsrv
    obtain ⟨e, he, rfl⟩ := List.mem_map.mp (hp.mem_iff.mp hsrv)
    exact ⟨e, OrderedMap.find?_of_mem he, h e he⟩

theorem Visits.loaded_eq {m : ServiceMap} {ordered : List MatchDisService} (h : Visits m ordered)
    {srv : MatchDisService} (hsrv : srv ∈ ordered) : srv.loaded = sizeAt m srv.sid := by
  obtain ⟨e, he, hload⟩ := h.known srv hsrv
  rw [hload, sizeAt_of_find? he]

/-- The sizes come in the order of the recorded loads. -/
theorem Visits.sizes_pairwise {m : ServiceMap} {ordered : List MatchDisService} (h : Visits m ordered)
    {r : Int → Int → Prop} (hp : ordered.Pairwise fun a b => r a.loaded b.loaded) :
    (ordered.map fun srv => sizeAt m srv.sid).Pairwise fun a b : Nat => r a b := by
  rw [List.pairwise_map]
  refine hp.imp_of_mem fun {a b} ha hb hab => ?_
  rw [h.loaded_eq ha, h.loaded_eq hb] at hab
  exact hab

instance : Std.Total (fun vl vr : MatchDisService => vl.loaded ≤ vr.loaded) := ⟨fun a b => le_total a.loaded b.loaded⟩

instance : IsTrans MatchDisService (fun vl vr => vl.loaded ≤ vr.loaded) := ⟨fun _ _ _ => le_trans⟩

instance : Std.Total (fun vl vr : MatchDisService => vr.loaded ≤ vl.loaded) := ⟨fun a b => le_total b.loaded a.loaded⟩

instance : IsTrans MatchDisService (fun vl vr => vr.loaded ≤ vl.loaded) := ⟨fun _ _ _ hab hbc => le_trans hbc hab⟩

/-- `distributeFill` fills the lists up in some ascending order of their sizes and records the new loads. -/
theorem distributeFill_spec {m : ServiceMap} (h : Accurate m) (q : Nat) (u : List Int) :
    ∃ order : List Int, order.Perm m.indices ∧ (order.map (sizeAt m)).Pairwise (· ≤ ·) ∧
      order.map (sizeAt (distributeFill m q u).matchServices) = (fill q (order.map (sizeAt m)) u.length).1 ∧
      (distributeFill m q u).undistMatches.length = (fill q (order.map (sizeAt m)) u.length).2 ∧
      Accurate (distributeFill m q u).matchServices := by
  set ordered := m.keys.insertionSort fun vl vr => vl.loaded ≤ vr.loaded with hord
  have hperm : ordered.Perm m.keys := List.perm_insertionSort _ _
  have hv := visits_of_perm h hperm
  have hspec := fillServices_spec q ordered ⟨m, u, []⟩ hv
  have hacc : UnchangedAccurate ⟨m, u, []⟩ := fun i e he _ => accurate_iff.mp h i e he
  refine ⟨ordered.map MatchDisService.sid, ?_, ?_, ?_, ?_, accurate_updateLoads (hspec.accurate hacc)⟩
  · rw [← keys_map_sid]
    exact hperm.map _
  · rw [List.map_map]
    have hsort := List.pairwise_insertionSort (fun vl vr : MatchDisService => vl.loaded ≤ vr.loaded) m.keys
    exact (hv.sizes_pairwise (r := (· ≤ ·)) hsort).imp fun hab => Int.ofNat_le.mp hab
  · rw [List.map_map, List.map_map]
    refine (List.map_congr_left fun srv _ => ?_).trans hspec.visited
    exact sizeAt_updateLoads _ srv.sid
  · rw [List.map_map]
    exact hspec.pool

/-- Some service is too free or too busy. -/
def Clips (m : ServiceMap) : Prop := ∃ l ∈ sizes m, l = 0 ∨ 10 ≤ l

theorem clips_iff {m : ServiceMap} {ordered : List MatchDisService} (hv : Visits m ordered)
    (hp : ordered.Perm m.keys) (hd : ordered.Pairwise fun vl vr => vr.loaded ≤ vl.loaded) :
    (ordered.getLast?.any tooFree || ordered.head?.any tooBusy) = true ↔ Clips m := by
  have hfree : ∀ a b : MatchDisService, b.loaded ≤ a.loaded → tooFree a → tooFree b := by
    intro a b hab ha
    unfold tooFree at ha ⊢
    simp only [decide_eq_true_eq] at ha ⊢
    omega
  have hbusy : ∀ a b : MatchDisService, b.loaded ≤ a.loaded → tooBusy b → tooBusy a := by
    intro a b hab hb
    unfold tooBusy at hb ⊢
    simp only [decide_eq_true_eq] at hb ⊢
    omega
  have hsizes : (ordered.map fun srv => sizeAt m srv.sid).Perm (sizes m) := by
    rw [sizes_eq, ← keys_map_sid, List.map_map]
    exact hp.map _
  rw [Bool.or_eq_true, any_getLast?_iff hfree hd, any_head?_iff hbusy hd, ← exists_or]
  unfold Clips
  simp only [← hsizes.mem_iff, List.mem_map, exists_exists_and_eq_and, ← and_or_left]
  refine exists_congr fun srv => and_congr_right fun hsrv => ?_
  have hload := hv.loaded_eq hsrv
  unfold tooFree tooBusy
  simp only [decide_eq_true_eq]
  omega

/-- `distributeClipping` cuts every list to `q` when some service is too free or too busy, and else does nothing. -/
theorem distributeClipping_spec {m : ServiceMap} (h : Accurate m) (q : Nat) (u : List Int) :
    (Clips m ∧ (∀ i ∈ m, sizeAt (distributeClipping m q u).matchServices i = min q (sizeAt m i)) ∧
      (distributeClipping m q u).undistMatches.length = u.length + surplus q (sizes m) ∧
      Accurate (distributeClipping m q u).matchServices) ∨
    (¬ Clips m ∧ distributeClipping m q u = ⟨m, u, []⟩) := by
  set ordered := m.keys.insertionSort fun vl vr => vr.loaded ≤ vl.loaded with hord
  have hperm : ordered.Perm m.keys := List.perm_insertionSort _ _
  have hsort : ordered.Pairwise fun vl vr => vr.loaded ≤ vl.loaded := List.pairwise_insertionSort _ _
  have hv := visits_of_perm h hperm
  by_cases hclip : Clips m
  · have hrun : distributeClipping m q u = (clipServices q ordered ⟨m, u, []⟩).updateLoads :=
      if_pos ((clips_iff hv hperm hsort).mpr hclip)
    have hspec := clipServices_spec q ordered ⟨m, u, []⟩ hv
    have hacc : UnchangedAccurate ⟨m, u, []⟩ := fun i e he _ => accurate_iff.mp h i e he
    have hdesc : (ordered.map fun srv => sizeAt m srv.sid).Pairwise (· ≥ ·) :=
      (hv.sizes_pairwise (r := (· ≥ ·)) hsort).imp fun hab => Int.ofNat_le.mp hab
    have hsizes : (ordered.map fun srv => sizeAt m srv.sid).Perm (sizes m) := by
      rw [sizes_eq, ← keys_map_sid, List.map_map]
      exact hperm.map _
    rw [clip_eq hdesc] at hspec
    refine .inl ⟨hclip, fun i hi => ?_, ?_, ?_⟩
    · rw [hrun, sizeAt_updateLoads]
      have hin : i ∈ ordered.map MatchDisService.sid := by
        rw [(hperm.map MatchDisService.sid).mem_iff, keys_map_sid]
        exact OrderedMap.mem_indices.mpr hi
      obtain ⟨srv, hsrv, rfl⟩ := List.mem_map.mp hin
      have hvisited := hspec.visited
      rw [List.map_map, List.map_inj_left] at hvisited
      exact hvisited srv hsrv
    · rw [hrun, ← surplus_perm hsizes]
      exact hspec.pool
    · rw [hrun]
      exact accurate_updateLoads (hspec.accurate hacc)
  · exact .inr ⟨hclip, if_neg (mt (clips_iff hv hperm hsort).mp hclip)⟩

/-! ## `operator()` -/

theorem accurate_distributeFill {m : ServiceMap} (h : Accurate m) (q : Nat) (u : List Int) :
    Accurate (distributeFill m q u).matchServices := by
  obtain ⟨-, -, -, -, -, hacc⟩ := distributeFill_spec h q u
  exact hacc

theorem accurate_distributeClipping {m : ServiceMap} (h : Accurate m) (q : Nat) (u : List Int) :
    Accurate (distributeClipping m q u).matchServices := by
  rcases distributeClipping_spec h q u with ⟨-, -, -, hacc⟩ | ⟨-, hsame⟩
  · exact hacc
  · rw [hsame]
    exact h

/-- `operator()` keeps real loads real. -/
theorem accurate_redistribute {m : ServiceMap} (h : Accurate m) (allMatches : MatchMap) (u : List Int) :
    Accurate (redistribute m allMatches u).matchServices := by
  have hfill := accurate_distributeFill h (countPerService allMatches.size m.size) u
  unfold redistribute
  dsimp only
  generalize distributeFill m (countPerService allMatches.size m.size) u = p₁ at hfill ⊢
  have hclip := accurate_distributeClipping hfill (countPerService allMatches.size m.size) p₁.undistMatches
  generalize distributeClipping p₁.matchServices (countPerService allMatches.size m.size) p₁.undistMatches = p₂ at hclip ⊢
  split_ifs
  · exact h
  · exact accurate_distributeFill hclip _ _
  · exact hclip

section Redistribute

variable {m : ServiceMap} {allMatches : MatchMap} {u : List Int}

/-- The sizes after `distributeFill`, in some order, and what stays in the pool. -/
theorem distributeFill_left (h : Accurate m) (q : Nat) (u : List Int) :
    (distributeFill m q u).undistMatches.length = u.length - need q (sizes m) := by
  obtain ⟨order, hperm, hasc, -, hpool, -⟩ := distributeFill_spec h q u
  rw [hpool, fill_left hasc, sizes_eq, need_perm (hperm.map (sizeAt m))]

theorem sizes_distributeFill (h : Accurate m) (q : Nat) (u : List Int) :
    ∃ ls, ls.Perm (sizes m) ∧ ls.Pairwise (· ≤ ·) ∧
      (sizes (distributeFill m q u).matchServices).Perm (fill q ls u.length).1 := by
  obtain ⟨order, hperm, hasc, hsizes, -, -⟩ := distributeFill_spec h q u
  refine ⟨order.map (sizeAt m), ?_, hasc, ?_⟩
  · rw [sizes_eq]
    exact hperm.map _
  · rw [← hsizes, sizes_eq, OrderedMap.indices_eq (distributeFill_moves m q u).sids]
    exact (hperm.map _).symm

theorem sizes_distributeFill_length (m : ServiceMap) (q : Nat) (u : List Int) :
    (sizes (distributeFill m q u).matchServices).length = m.size := by
  rw [sizes_eq, OrderedMap.indices_eq (distributeFill_moves m q u).sids, List.length_map]
  exact List.length_map _

/-- A pass keeps the number of matches. -/
theorem Moves.total {m m' : ServiceMap} {u u' : List Int} (h : Moves m u m' u') :
    u'.length + (sizes m').sum = u.length + (sizes m).sum := by
  rw [sizes_sum, sizes_sum, ← List.length_append, ← List.length_append]
  exact h.mids.length_eq

/-- The second fill after a clipping leaves what goes beyond `q` matches for each service. -/
theorem fill_after_clip {m : ServiceMap} (h : Accurate m) (q : Nat) (u : List Int) (hclip : Clips m) :
    (distributeClipping m q u).undistMatches.length - need q (sizes (distributeClipping m q u).matchServices) =
      u.length + (sizes m).sum - q * m.size := by
  have hmoves := distributeClipping_moves m q u
  rcases distributeClipping_spec h q u with ⟨-, hsize, hpool, -⟩ | ⟨hno, -⟩
  · have hsizes := sizes_congr hmoves.sids hsize
    have hlow : ∀ l ∈ sizes (distributeClipping m q u).matchServices, l ≤ q := by
      intro l hl
      rw [hsizes] at hl
      obtain ⟨i, -, rfl⟩ := List.mem_map.mp hl
      exact min_le_left _ _
    have hlen : (sizes (distributeClipping m q u).matchServices).length = m.size := by
      rw [hsizes, List.length_map]
      exact List.length_map _
    have hneed := need_add_sum hlow
    have htotal := hmoves.total
    rw [hlen] at hneed
    omega
  · exact absurd hclip hno

/-- A second filling right after the first finds nothing to do. -/
theorem distributeFill_again (h : Accurate m) (q : Nat) (u : List Int) :
    (distributeFill m q u).undistMatches.length - need q (sizes (distributeFill m q u).matchServices) =
      u.length - need q (sizes m) := by
  have hleft := distributeFill_left h q u
  by_cases hfit : u.length ≤ need q (sizes m)
  · omega
  · -- with matches left over, the first filling brought every service to the mark
    obtain ⟨ls, hperm, hasc, hsizes⟩ := sizes_distributeFill h q u
    rw [need_perm hperm.symm] at hfit
    rw [fill_full hasc (by omega)] at hsizes
    have hfull : need q (sizes (distributeFill m q u).matchServices) = 0 := by
      rw [need_perm hsizes, need_eq_zero]
      intro l hl
      obtain ⟨l', -, rfl⟩ := List.mem_map.mp hl
      exact le_max_left q l'
    omega

/-- The last filling may be skipped only when it would find an empty pool. -/
theorem redistribute_refill (hne : m.size ≠ 0) {q : Nat} (hq : q = countPerService allMatches.size m.size) {p₁ p₂ : Pass}
    (hp₁ : distributeFill m q u = p₁) (hp₂ : distributeClipping p₁.matchServices q p₁.undistMatches = p₂)
    (hacc₂ : Accurate p₂.matchServices) :
    (redistribute m allMatches u).undistMatches.length =
      p₂.undistMatches.length - need q (sizes p₂.matchServices) := by
  unfold redistribute
  rw [if_neg hne, ← hq]
  dsimp only
  rw [hp₁, hp₂]
  split_ifs with hpos
  · exact distributeFill_left hacc₂ q p₂.undistMatches
  · show p₂.undistMatches.length = _
    omega

/-- **What `operator()` leaves in the pool**, for accurate loads: what is beyond `q` matches for each service when the
first filling makes it clip, and otherwise what does not fit below `q`. -/
theorem redistribute_left (h : Accurate m) (hne : m.size ≠ 0) {q : Nat}
    (hq : q = countPerService allMatches.size m.size) :
    (Clips (distributeFill m q u).matchServices ∧
      (redistribute m allMatches u).undistMatches.length = u.length + (sizes m).sum - q * m.size) ∨
    (¬ Clips (distributeFill m q u).matchServices ∧
      (redistribute m allMatches u).undistMatches.length = u.length - need q (sizes m)) := by
  set p₁ := distributeFill m q u with hp₁
  set p₂ := distributeClipping p₁.matchServices q p₁.undistMatches with hp₂
  have hacc₁ : Accurate p₁.matchServices := accurate_distributeFill h q u
  have hrun : Accurate p₂.matchServices → (redistribute m allMatches u).undistMatches.length =
      p₂.undistMatches.length - need q (sizes p₂.matchServices) :=
    redistribute_refill hne hq hp₁.symm hp₂.symm
  have hsize₁ : p₁.matchServices.size = m.size := by
    rw [← sizes_length]
    exact sizes_distributeFill_length m q u
  have htotal₁ : p₁.undistMatches.length + (sizes p₁.matchServices).sum = u.length + (sizes m).sum :=
    (distributeFill_moves m q u).total
  by_cases hclip : Clips p₁.matchServices
  · refine .inl ⟨hclip, ?_⟩
    have hacc₂ : Accurate p₂.matchServices := accurate_distributeClipping hacc₁ q p₁.undistMatches
    rw [hrun hacc₂, fill_after_clip hacc₁ q p₁.undistMatches hclip, hsize₁, htotal₁]
  · refine .inr ⟨hclip, ?_⟩
    have hsame : p₂ = ⟨p₁.matchServices, p₁.undistMatches, []⟩ := by
      rcases distributeClipping_spec hacc₁ q p₁.undistMatches with ⟨hyes, -⟩ | ⟨-, hsame⟩
      · exact absurd hyes hclip
      · exact hsame
    rw [hrun (by rw [hsame]; exact hacc₁), hsame]
    exact distributeFill_again h q u

theorem lt_of_not_clips (h : Accurate m) {q : Nat} (hno : ¬ Clips (distributeFill m q u).matchServices) :
    ∀ l ∈ sizes m, l < 10 := by
  obtain ⟨ls, hperm, -, hsizes⟩ := sizes_distributeFill h q u
  intro l hl
  refine lt_of_fill_lt (q := q) (u := u.length) (fun l' hl' => ?_) l (hperm.mem_iff.mpr hl)
  by_contra hge
  exact hno ⟨l', hsizes.mem_iff.mpr hl', .inr (not_lt.mp hge)⟩

/-- When the pool fits below the mark, and the mark below ten, the first filling leaves no service too free or too busy
exactly when none was too busy before and the pool reaches the last of those that run none. -/
theorem clips_distributeFill_iff (h : Accurate m) {q : Nat} (hq : q < 10) (hfit : u.length ≤ need q (sizes m)) :
    ¬ Clips (distributeFill m q u).matchServices ↔
      (∀ l ∈ sizes m, l < 10) ∧ ((sizes m).count 0 = 0 ∨ ((sizes m).count 0 - 1) * q < u.length) := by
  obtain ⟨ls, hperm, hasc, hsizes⟩ := sizes_distributeFill h q u
  have hclips : ¬ Clips (distributeFill m q u).matchServices ↔
      (∀ l ∈ (fill q ls u.length).1, l < 10) ∧ ∀ l ∈ (fill q ls u.length).1, 0 < l := by
    unfold Clips
    simp only [hsizes.mem_iff, ← forall_and, not_exists, not_and, not_or]
    refine forall_congr' fun l => ?_
    constructor
    · intro hl hin
      have := hl hin
      omega
    · intro hl hin
      have := hl hin
      omega
  have hten : (∀ l ∈ (fill q ls u.length).1, l < 10) ↔ ∀ l ∈ sizes m, l < 10 := by
    simp only [← hperm.mem_iff]
    exact ⟨lt_of_fill_lt, fun hl => fill_lt hq hl u.length⟩
  have hzero : (∀ l ∈ (fill q ls u.length).1, 0 < l) ↔
      (sizes m).count 0 = 0 ∨ ((sizes m).count 0 - 1) * q < u.length := by
    rw [← hperm.count_eq]
    by_cases hq0 : q = 0
    · -- nothing is filled, and the pool is empty
      have hu : u.length = 0 := by
        rw [hq0, need_eq_zero.mpr fun l _ => Nat.zero_le l] at hfit
        omega
      rw [hu, fill_of_zero, List.count_eq_zero]
      constructor
      · intro hpos
        exact .inl fun hin => absurd (hpos 0 hin) (lt_irrefl 0)
      · rintro (hno | hlt)
        · intro l hl
          refine Nat.pos_of_ne_zero fun h0 => hno (h0 ▸ hl)
        · omega
    · exact fill_pos_iff (Nat.pos_of_ne_zero hq0) hasc u.length
  rw [hclips, hten, hzero]

end Redistribute

/-- `operator()` leaves nothing in the pool if and only if `q` matches for each service are enough for all, or the pool
fits below `q`, no service runs ten matches or more, and the pool reaches the last of those that run none. -/
theorem redistribute_places_iff {m : ServiceMap} (hne : m.size ≠ 0) (hacc : Accurate m) (allMatches : MatchMap) {q : Nat}
    (hq : q = countPerService allMatches.size m.size) (u : List Int) :
    (redistribute m allMatches u).undistMatches = [] ↔
      u.length + (sizes m).sum ≤ q * m.size ∨
        (u.length ≤ need q (sizes m) ∧ (∀ l ∈ sizes m, l < 10) ∧
          ((sizes m).count 0 = 0 ∨ ((sizes m).count 0 - 1) * q < u.length)) := by
  rw [← List.length_eq_zero_iff]
  have henough := le_need_add_sum q (sizes m)
  rw [sizes_length] at henough
  -- with a mark of ten or more every service is below it, so what fits below it is all there is room for
  have hroom : (∀ l ∈ sizes m, l < 10) → ¬ q < 10 → need q (sizes m) + (sizes m).sum = q * m.size := by
    intro hbusy hq10
    rw [← sizes_length]
    refine need_add_sum fun l hl => ?_
    have := hbusy l hl
    omega
  rcases redistribute_left (u := u) hacc hne hq with ⟨hclip, hleft⟩ | ⟨hclip, hleft⟩
  · rw [hleft]
    constructor
    · intro h0
      exact .inl (by omega)
    · rintro (hle | ⟨hfit, hbusy, hreach⟩)
      · omega
      · by_cases hq10 : q < 10
        · exact absurd hclip ((clips_distributeFill_iff hacc hq10 hfit).mpr ⟨hbusy, hreach⟩)
        · have := hroom hbusy hq10
          omega
  · rw [hleft]
    constructor
    · intro h0
      by_cases hq10 : q < 10
      · exact .inr ⟨by omega, (clips_distributeFill_iff hacc hq10 (by omega)).mp hclip⟩
      · have := hroom (lt_of_not_clips hacc hclip) hq10
        exact .inl (by omega)
    · rintro (hle | ⟨hfit, -⟩)
      · omega
      · omega

/-- **When every match finds a service**: `operator()` leaves nothing in the pool if and only if `q` matches for each
service are enough for all of them, or the pool fits below `q`, no service runs ten matches or more, and the pool
reaches the last of the services that run none. -/
theorem redistribute_assigns_all_iff (m : ServiceMap) (allMatches : MatchMap) (u : List Int) (hne : m.size ≠ 0)
    (hacc : Accurate m) (htotal : allMatches.size = u.length + m.elems.length) :
    (redistribute m allMatches u).undistMatches = [] ↔
      allMatches.size ≤ countPerService allMatches.size m.size * m.size ∨
        (u.length ≤ need (countPerService allMatches.size m.size) (sizes m) ∧ (∀ l ∈ sizes m, l < 10) ∧
          ((sizes m).count 0 = 0 ∨
            ((sizes m).count 0 - 1) * countPerService allMatches.size m.size < u.length)) := by
  have hplaces := redistribute_places_iff hne hacc allMatches rfl u
  rw [sizes_sum, ← htotal] at hplaces
  exact hplaces

/-- Two services without matches. -/
def twoServices : ServiceMap := ((OrderedMap.empty.insert (⟨1, 0⟩, [])).insert (⟨2, 0⟩, []))

theorem twoServices_assigns_iff :
    (redistribute twoServices (sampleMatches [7]) [7]).undistMatches = [] ↔
      (sampleMatches [7]).size ≤ countPerService (sampleMatches [7]).size twoServices.size * twoServices.size ∨
        (1 ≤ need (countPerService (sampleMatches [7]).size twoServices.size) (sizes twoServices) ∧
          (∀ l ∈ sizes twoServices, l < 10) ∧ ((sizes twoServices).count 0 = 0 ∨
            ((sizes twoServices).count 0 - 1) * countPerService (sampleMatches [7]).size twoServices.size < 1)) :=
  redistribute_assigns_all_iff twoServices (sampleMatches [7]) [7] (by decide) (by decide) (by decide)

/-- The average of one match and two services is `0`, so nobody gets the match. -/
theorem oneMatch_stays :
    ¬ ∀ (m : ServiceMap) (allMatches : MatchMap) (u : List Int), m.size ≠ 0 → Accurate m →
      allMatches.size = u.length + m.elems.length → (redistribute m allMatches u).undistMatches = [] := by
  intro h
  have hstay : (redistribute twoServices (sampleMatches [7]) [7]).undistMatches = [7] := by decide
  have hempty := h twoServices (sampleMatches [7]) [7] (by decide) (by decide) (by decide)
  rw [hstay] at hempty
  cases hempty

end AsioUtils.CentralServer.MatchDistribution
