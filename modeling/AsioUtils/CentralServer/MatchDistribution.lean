import AsioUtils.CPG.Define
import AsioUtils.Lib.OrderedMap
import AsioUtils.Lib.StdList
import AsioUtils.Lib.Binary32

/-!
# `MatchDistribution`: spreading the matches over the match services

The passes of `CSMatchDistribution.cpp` over `matchServices_` and `undistMatches_`:

* `distributeFill` : services below the average take matches from the front of the pool, least loaded first;
* `distributeClipping` : if some service is too free or too busy, services above the average give matches up;
* `redistribute` : the functor's `operator()`, fill, clip, fill;
* `Moves` : a pass keeps the set of services and only moves matches (`redistribute_moves`).

The loads are unbounded here. They are the lengths of lists; `IntLoads` runs the passes on any recorded `int`.
-/

namespace AsioUtils.CentralServer

open AsioUtils.CPG StdList

/-- The key of `matchServices_`; `operator<` reads `sid` alone. -/
structure MatchDisService where
  sid : Int := -1
  loaded : Int := 0
  deriving DecidableEq, Repr

/-- `std::map<MatchDisService, std::list<int>>`: the matches each service runs. -/
abbrev ServiceMap := OrderedMap MatchDisService (List Int) MatchDisService.sid

/-- `std::map<int, std::shared_ptr<CPGMatchProfile>>`: the matches by `mid`. -/
abbrev MatchMap := OrderedMap Int CPGMatchProfile id

/-- A match nobody has started. -/
def sampleMatch (mid : Int) : CPGMatchProfile where
  mid := mid
  match_type := 1
  start_time := 5000
  increase_blind_time := 60
  operator_time := 10
  entryfee := 100
  init_chips_amount := 1000
  min_players_amount := 2
  max_players_amount := 9
  delay_join_level := 1
  reward_type := 0
  start_condition := 0
  stop_condition := 0
  first_blind_level := 1
  bonusid := 0
  guarantee_person := 0
  name := "match"

/-- Such matches with the given mids. -/
def sampleMatches (mids : List Int) : MatchMap := mids.foldl (fun map mid => map.assign mid (sampleMatch mid)) .empty

/-! ## `CSMatchLoadedEvaluation` -/

namespace CSMatchLoadedEvaluation

def evaluate (_sid : Int) (mids : List Int) : Int := mids.length

/-- Re-key the service with its evaluated load. The callers pass services of the map, so the `none` branch (an
`end()` iterator in the source) is not taken. -/
def updateLoaded (sid : Int) (services : ServiceMap) : ServiceMap :=
  match services.find? sid with
  | none => services
  | some e => (services.erase sid).insert (⟨sid, evaluate sid e.2⟩, e.2)

end CSMatchLoadedEvaluation

open CSMatchLoadedEvaluation

namespace MatchDistribution

def tooFree (srv : MatchDisService) : Bool := srv.loaded ≤ 0

def tooBusy (srv : MatchDisService) : Bool := 10 ≤ srv.loaded

def canRedistribute (_mid : Int) : Bool := true

/-- What a pass works on; `changedServices` is a `std::set<int>`, ascending. -/
structure Pass where
  matchServices : ServiceMap
  undistMatches : List Int
  changedServices : List Int
  deriving DecidableEq

/-- Update the load of every changed service. -/
def Pass.updateLoads (p : Pass) : Pass :=
  { p with matchServices := p.changedServices.foldl (fun ms cid => updateLoaded cid ms) p.matchServices }

/-! ## Filling up -/

/-- Inner loop of `distributeFill`: `n` matches, if there are that many, go from the front of the pool to `mids`. -/
def fillList : Nat → List Int → List Int → List Int × List Int
  | 0, mids, undist => (mids, undist)
  | _ + 1, mids, [] => (mids, [])
  | n + 1, mids, mid :: undist => fillList n (mids ++ [mid]) undist

/-- Loop of `distributeFill` over the services, least loaded first. -/
def fillServices (averageLoaded : Int) : List MatchDisService → Pass → Pass
  | [], p => p
  | srv :: ordered, p =>
    if p.undistMatches.length ≤ 0 then p
    else if averageLoaded - srv.loaded ≤ 0 then p
    else
      match p.matchServices.find? srv.sid with
      | none => p -- not taken: `srv` is a key of the map
      | some e =>
        let r := fillList (averageLoaded - srv.loaded).toNat e.2 p.undistMatches
        fillServices averageLoaded ordered
          { matchServices := p.matchServices.modify srv.sid fun _ => r.1
            undistMatches := r.2
            changedServices := setInsert srv.sid p.changedServices }

def distributeFill (matchServices : ServiceMap) (averageLoaded : Int) (undistMatches : List Int) : Pass :=
  let ordered := matchServices.keys.insertionSort fun vl vr => vl.loaded ≤ vr.loaded
  (fillServices averageLoaded ordered ⟨matchServices, undistMatches, []⟩).updateLoads

/-! ## Clipping -/

/-- Inner loops of `distributeClipping`: `n` redistributable matches go from the list to the back of the pool.
`skipped` is what lies before `changedIter`, the second list what lies from it on. The last component is `changed`. -/
def clipList : Nat → List Int → List Int → List Int → Bool → List Int × List Int × Bool
  | 0, skipped, mes, undist, changed => (skipped ++ mes, undist, changed)
  | _ + 1, skipped, [], undist, changed => (skipped, undist, changed)
  | n + 1, skipped, mid :: mes, undist, changed =>
    if canRedistribute mid then clipList n skipped mes (undist ++ [mid]) true
    else clipList (n + 1) (skipped ++ [mid]) mes undist changed

/-- Loop of `distributeClipping` over the services, most loaded first. -/
def clipServices (averageLoaded : Int) : List MatchDisService → Pass → Pass
  | [], p => p
  | srv :: ordered, p =>
    if srv.loaded - averageLoaded ≤ 0 then p
    else
      match p.matchServices.find? srv.sid with
      | none => p -- not taken: `srv` is a key of the map
      | some e =>
        let r := clipList (srv.loaded - averageLoaded).toNat [] e.2 p.undistMatches false
        clipServices averageLoaded ordered
          { matchServices := p.matchServices.modify srv.sid fun _ => r.1
            undistMatches := r.2.1
            changedServices := if r.2.2 then setInsert srv.sid p.changedServices else p.changedServices }

def distributeClipping (matchServices : ServiceMap) (averageLoaded : Int) (undistMatches : List Int) : Pass :=
  let ordered := matchServices.keys.insertionSort fun vl vr => vr.loaded ≤ vl.loaded
  if ordered.getLast?.any tooFree || ordered.head?.any tooBusy then
    (clipServices averageLoaded ordered ⟨matchServices, undistMatches, []⟩).updateLoads
  else ⟨matchServices, undistMatches, []⟩

/-! ## `operator()` -/

/-- `floor(allLoaded / (float)allServices)` -/
def countPerService (allLoaded allServices : Nat) : Nat :=
  Binary32.floorQuot (Binary32.ofNat allLoaded) (Binary32.ofNat allServices)

/-- `MatchDistribution::operator()`; the changed services are its return value. -/
def redistribute (matchServices : ServiceMap) (allMatches : MatchMap) (undistMatches : List Int) : Pass :=
  if matchServices.size = 0 then ⟨matchServices, undistMatches, []⟩
  else
    let avg : Int := countPerService allMatches.size matchServices.size
    let p₁ := distributeFill matchServices avg undistMatches
    let p₂ := distributeClipping p₁.matchServices avg p₁.undistMatches
    let changed := p₂.changedServices.foldl (fun s x => setInsert x s) p₁.changedServices
    if p₂.undistMatches.length > 0 then
      let p₃ := distributeFill p₂.matchServices avg p₂.undistMatches
      ⟨p₃.matchServices, p₃.undistMatches, p₃.changedServices.foldl (fun s x => setInsert x s) changed⟩
    else ⟨p₂.matchServices, p₂.undistMatches, changed⟩

/-- For fewer than `2^24` matches and services the average is that of integer division. -/
theorem countPerService_eq_div {n k : Nat} (hn : n < 2 ^ 24) (hk : k < 2 ^ 24) (h0 : 0 < k) :
    countPerService n k = n / k := by
  rw [countPerService, Binary32.ofNat_of_lt hn, Binary32.ofNat_of_lt hk, Binary32.floorQuot_eq_div hn h0]

/-! ## A pass only moves matches -/

theorem fillList_eq (n : Nat) (mids undist : List Int) :
    fillList n mids undist = (mids ++ undist.take n, undist.drop n) := by
  induction n generalizing mids undist with
  | zero => simp [fillList]
  | succ n ih =>
    cases undist with
    | nil => simp [fillList]
    | cons mid undist => simp [fillList, ih]

theorem clipList_eq (n : Nat) (skipped mes undist : List Int) (changed : Bool) :
    clipList n skipped mes undist changed =
      (skipped ++ mes.drop n, undist ++ mes.take n, changed || !(mes.take n).isEmpty) := by
  induction mes generalizing n undist changed with
  | nil => cases n <;> simp [clipList]
  | cons mid mes ih =>
    cases n with
    | zero => simp [clipList]
    | succ n => simp [clipList, canRedistribute, ih]

/-- From `(m, u)` to `(m', u')` matches only changed their place, and the services are the same. -/
structure Moves (m : ServiceMap) (u : List Int) (m' : ServiceMap) (u' : List Int) : Prop where
  sids : ∀ i, i ∈ m' ↔ i ∈ m
  mids : (u' ++ m'.elems).Perm (u ++ m.elems)

theorem Moves.refl (m : ServiceMap) (u : List Int) : Moves m u m u := ⟨fun _ => Iff.rfl, .refl _⟩

theorem Moves.trans {m₁ m₂ m₃ : ServiceMap} {u₁ u₂ u₃ : List Int} (h : Moves m₁ u₁ m₂ u₂) (h' : Moves m₂ u₂ m₃ u₃) :
    Moves m₁ u₁ m₃ u₃ :=
  ⟨fun i => (h'.sids i).trans (h.sids i), h'.mids.trans h.mids⟩

/-- Inserting a service again under another load. -/
theorem rekey_moves {m : ServiceMap} {sid : Int} {e : MatchDisService × List Int} (h : m.find? sid = some e) (loaded : Int)
    (u : List Int) : Moves m u ((m.erase sid).insert (⟨sid, loaded⟩, e.2)) u := by
  refine ⟨fun i => ?_, (OrderedMap.rekey_elems_perm h rfl).append_left u⟩
  have hsid : sid ∈ m := OrderedMap.mem_iff.mpr ⟨e, h⟩
  by_cases hi : i = sid
  · simp [hi, hsid]
  · simp [hi]

theorem updateLoaded_moves (sid : Int) (m : ServiceMap) (u : List Int) : Moves m u (updateLoaded sid m) u := by
  unfold updateLoaded
  cases h : m.find? sid with
  | none => exact .refl m u
  | some e => exact rekey_moves h _ u

theorem updateLoads_moves (p : Pass) :
    Moves p.matchServices p.undistMatches p.updateLoads.matchServices p.undistMatches := by
  obtain ⟨m, u, changed⟩ := p
  show Moves m u (changed.foldl _ m) u
  induction changed generalizing m with
  | nil => exact .refl m u
  | cons cid changed ih => exact (updateLoaded_moves cid m u).trans (ih _)

/-- Writing a service's list while the pool takes up the difference. -/
theorem modify_moves {m : ServiceMap} {u u' : List Int} {sid : Int} {e : MatchDisService × List Int} {mids : List Int}
    (h : m.find? sid = some e) (hp : (u' ++ mids).Perm (u ++ e.2)) : Moves m u (m.modify sid fun _ => mids) u' := by
  refine ⟨fun i => OrderedMap.mem_modify, ?_⟩
  calc (u' ++ (m.modify sid fun _ => mids).elems).Perm (u' ++ (mids ++ (m.erase sid).elems)) :=
        (OrderedMap.modify_elems_perm _ h).append_left u'
    List.Perm _ (u ++ e.2 ++ (m.erase sid).elems) := by
        rw [← List.append_assoc]; exact hp.append_right _
    List.Perm _ (u ++ m.elems) := by
        rw [List.append_assoc]; exact (OrderedMap.elems_perm_of_find? h).symm.append_left u

/-- Filling up one service. -/
theorem fillList_moves {m : ServiceMap} {sid : Int} {e : MatchDisService × List Int} (h : m.find? sid = some e) (n : Nat)
    (u : List Int) : Moves m u (m.modify sid fun _ => (fillList n e.2 u).1) (fillList n e.2 u).2 := by
  refine modify_moves h ?_
  rw [fillList_eq]
  calc (u.drop n ++ (e.2 ++ u.take n)).Perm (e.2 ++ u.take n ++ u.drop n) := List.perm_append_comm
    List.Perm _ (e.2 ++ u) := by rw [List.append_assoc, List.take_append_drop]
    List.Perm _ (u ++ e.2) := List.perm_append_comm

/-- Clipping one service. -/
theorem clipList_moves {m : ServiceMap} {sid : Int} {e : MatchDisService × List Int} (h : m.find? sid = some e) (n : Nat)
    (u : List Int) :
    Moves m u (m.modify sid fun _ => (clipList n [] e.2 u false).1) (clipList n [] e.2 u false).2.1 := by
  refine modify_moves h ?_
  rw [clipList_eq]
  simp only [List.nil_append, List.append_assoc, List.take_append_drop]
  exact .refl _

theorem fillServices_moves (avg : Int) (ordered : List MatchDisService) (p : Pass) :
    Moves p.matchServices p.undistMatches (fillServices avg ordered p).matchServices
      (fillServices avg ordered p).undistMatches := by
  induction ordered generalizing p with
  | nil => exact .refl _ _
  | cons srv ordered ih =>
    unfold fillServices
    split_ifs with h0 h1
    · exact .refl _ _
    · exact .refl _ _
    · cases h : p.matchServices.find? srv.sid with
      | none => exact .refl _ _
      | some e => exact (fillList_moves h _ p.undistMatches).trans (ih ⟨_, _, _⟩)

theorem clipServices_moves (avg : Int) (ordered : List MatchDisService) (p : Pass) :
    Moves p.matchServices p.undistMatches (clipServices avg ordered p).matchServices
      (clipServices avg ordered p).undistMatches := by
  induction ordered generalizing p with
  | nil => exact .refl _ _
  | cons srv ordered ih =>
    unfold clipServices
    split_ifs with h0
    · exact .refl _ _
    · cases h : p.matchServices.find? srv.sid with
      | none => exact .refl _ _
      | some e => exact (clipList_moves h _ p.undistMatches).trans (ih ⟨_, _, _⟩)

theorem distributeFill_moves (m : ServiceMap) (avg : Int) (u : List Int) :
    Moves m u (distributeFill m avg u).matchServices (distributeFill m avg u).undistMatches :=
  (fillServices_moves avg _ ⟨m, u, []⟩).trans (updateLoads_moves _)

theorem distributeClipping_moves (m : ServiceMap) (avg : Int) (u : List Int) :
    Moves m u (distributeClipping m avg u).matchServices (distributeClipping m avg u).undistMatches := by
  unfold distributeClipping
  dsimp only
  split_ifs
  · exact (clipServices_moves avg _ ⟨m, u, []⟩).trans (updateLoads_moves _)
  · exact .refl m u

/-- **`operator()` keeps every service and every match**, whatever the recorded loads and the average. -/
theorem redistribute_moves (m : ServiceMap) (allMatches : MatchMap) (u : List Int) :
    Moves m u (redistribute m allMatches u).matchServices (redistribute m allMatches u).undistMatches := by
  have hfill := distributeFill_moves m (countPerService allMatches.size m.size) u
  unfold redistribute
  dsimp only
  generalize distributeFill m (countPerService allMatches.size m.size) u = p₁ at hfill ⊢
  have hclip := distributeClipping_moves p₁.matchServices (countPerService allMatches.size m.size) p₁.undistMatches
  generalize distributeClipping p₁.matchServices (countPerService allMatches.size m.size) p₁.undistMatches = p₂ at hclip ⊢
  split_ifs
  · exact .refl m u
  · exact (hfill.trans hclip).trans (distributeFill_moves _ _ _)
  · exact hfill.trans hclip

/-! ## Which services change -/

theorem mem_foldl_setInsert {xs s : List Int} {i : Int} :
    i ∈ xs.foldl (fun s x => setInsert x s) s ↔ i ∈ xs ∨ i ∈ s := by
  induction xs generalizing s with
  | nil => simp
  | cons x xs ih =>
    rw [List.foldl_cons, ih, mem_setInsert, List.mem_cons]
    tauto

theorem fillServices_changed (avg : Int) (ordered : List MatchDisService) (p : Pass) :
    ∀ i ∈ (fillServices avg ordered p).changedServices, i ∈ p.changedServices ∨ i ∈ p.matchServices := by
  induction ordered generalizing p with
  | nil => exact fun i hi => .inl hi
  | cons srv ordered ih =>
    intro i hi
    unfold fillServices at hi
    split_ifs at hi
    · exact .inl hi
    · exact .inl hi
    · cases h : p.matchServices.find? srv.sid with
      | none =>
        rw [h] at hi
        exact .inl hi
      | some e =>
        rw [h] at hi
        rcases ih _ i hi with hi | hi
        · rcases mem_setInsert.mp hi with rfl | hi
          · exact .inr (OrderedMap.mem_iff.mpr ⟨e, h⟩)
          · exact .inl hi
        · exact .inr (OrderedMap.mem_modify.mp hi)

theorem clipServices_changed (avg : Int) (ordered : List MatchDisService) (p : Pass) :
    ∀ i ∈ (clipServices avg ordered p).changedServices, i ∈ p.changedServices ∨ i ∈ p.matchServices := by
  induction ordered generalizing p with
  | nil => exact fun i hi => .inl hi
  | cons srv ordered ih =>
    intro i hi
    unfold clipServices at hi
    split_ifs at hi
    · exact .inl hi
    · cases h : p.matchServices.find? srv.sid with
      | none =>
        rw [h] at hi
        exact .inl hi
      | some e =>
        rw [h] at hi
        rcases ih _ i hi with hi | hi
        · dsimp only at hi
          split_ifs at hi
          · rcases mem_setInsert.mp hi with rfl | hi
            · exact .inr (OrderedMap.mem_iff.mpr ⟨e, h⟩)
            · exact .inl hi
          · exact .inl hi
        · exact .inr (OrderedMap.mem_modify.mp hi)

theorem distributeFill_changed (m : ServiceMap) (avg : Int) (u : List Int) :
    ∀ i ∈ (distributeFill m avg u).changedServices, i ∈ m := fun i hi =>
  (fillServices_changed avg _ ⟨m, u, []⟩ i hi).resolve_left List.not_mem_nil

theorem distributeClipping_changed (m : ServiceMap) (avg : Int) (u : List Int) :
    ∀ i ∈ (distributeClipping m avg u).changedServices, i ∈ m := by
  intro i hi
  unfold distributeClipping at hi
  dsimp only at hi
  split_ifs at hi
  · exact (clipServices_changed avg _ ⟨m, u, []⟩ i hi).resolve_left List.not_mem_nil
  · cases hi

/-- Only services of the map change. -/
theorem redistribute_changed (m : ServiceMap) (allMatches : MatchMap) (u : List Int) :
    ∀ i ∈ (redistribute m allMatches u).changedServices, i ∈ m := by
  have hfill := distributeFill_changed m (countPerService allMatches.size m.size) u
  have hmoves := (distributeFill_moves m (countPerService allMatches.size m.size) u).sids
  unfold redistribute
  dsimp only
  generalize distributeFill m (countPerService allMatches.size m.size) u = p₁ at hfill hmoves ⊢
  have hclip := distributeClipping_changed p₁.matchServices (countPerService allMatches.size m.size) p₁.undistMatches
  have hmoves' :=
    (distributeClipping_moves p₁.matchServices (countPerService allMatches.size m.size) p₁.undistMatches).sids
  generalize distributeClipping p₁.matchServices (countPerService allMatches.size m.size) p₁.undistMatches = p₂
    at hclip hmoves' ⊢
  have hchanged : ∀ i ∈ p₂.changedServices.foldl (fun s x => setInsert x s) p₁.changedServices, i ∈ m := fun i hi => by
    rcases mem_foldl_setInsert.mp hi with hi | hi
    · exact (hmoves i).mp (hclip i hi)
    · exact hfill i hi
  intro i hi
  split_ifs at hi
  · cases hi
  · rcases mem_foldl_setInsert.mp hi with hi | hi
    · exact (hmoves i).mp ((hmoves' i).mp (distributeFill_changed _ _ _ i hi))
    · exact hchanged i hi
  · exact hchanged i hi

end MatchDistribution

end AsioUtils.CentralServer
