import AsioUtils.CentralServer.MatchDistribution

/-!
# The redistribution on `int` loads

The loads a redistribution compares are C++ `int`s. Here its passes are run once more with every `int` difference
checked: one that overflows leaves the call undefined (`none`).

* `redistribute` : `operator()` with its `int` arithmetic;
* `redistribute_moves` : a call that is defined only moves matches, whatever the loads;
* `redistribute_eq` : when no load is far below the average, the call is defined and is the one on unbounded loads;
* `redistribute_conserves` : both, for the sids and the mids.
-/

namespace AsioUtils.CentralServer.MatchDistribution.IntLoads

open StdList

/-- `a - b`, undefined when it does not fit an `int`. -/
def subInt (a b : Int) : Option Int := if -2147483648 ≤ a - b ∧ a - b ≤ 2147483647 then some (a - b) else none

/-- `evaluate` returns the size as an `int`, modulo `2 ^ 32`. -/
def evaluate (_sid : Int) (mids : List Int) : Int := (mids.length : Int).bmod (2 ^ 32)

def updateLoaded (sid : Int) (services : ServiceMap) : ServiceMap :=
  match services.find? sid with
  | none => services
  | some e => (services.erase sid).insert (⟨sid, evaluate sid e.2⟩, e.2)

def updateLoads (p : Pass) : Pass :=
  { p with matchServices := p.changedServices.foldl (fun ms cid => updateLoaded cid ms) p.matchServices }

def fillServices (averageLoaded : Int) : List MatchDisService → Pass → Option Pass
  | [], p => some p
  | srv :: ordered, p =>
    if p.undistMatches.length ≤ 0 then some p
    else
      match subInt averageLoaded srv.loaded with
      | none => none
      | some diff =>
        if diff ≤ 0 then some p
        else
          match p.matchServices.find? srv.sid with
          | none => some p -- not taken: `srv` is a key of the map
          | some e =>
            let r := fillList diff.toNat e.2 p.undistMatches
            fillServices averageLoaded ordered
              { matchServices := p.matchServices.modify srv.sid fun _ => r.1
                undistMatches := r.2
                changedServices := setInsert srv.sid p.changedServices }

def distributeFill (matchServices : ServiceMap) (averageLoaded : Int) (undistMatches : List Int) : Option Pass :=
  let ordered := matchServices.keys.insertionSort fun vl vr => vl.loaded ≤ vr.loaded
  (fillServices averageLoaded ordered ⟨matchServices, undistMatches, []⟩).map updateLoads

def clipServices (averageLoaded : Int) : List MatchDisService → Pass → Option Pass
  | [], p => some p
  | srv :: ordered, p =>
    match subInt srv.loaded averageLoaded with
    | none => none
    | some diff =>
      if diff ≤ 0 then some p
      else
        match p.matchServices.find? srv.sid with
        | none => some p -- not taken: `srv` is a key of the map
        | some e =>
          let r := clipList diff.toNat [] e.2 p.undistMatches false
          clipServices averageLoaded ordered
            { matchServices := p.matchServices.modify srv.sid fun _ => r.1
              undistMatches := r.2.1
              changedServices := if r.2.2 then setInsert srv.sid p.changedServices else p.changedServices }

def distributeClipping (matchServices : ServiceMap) (averageLoaded : Int) (undistMatches : List Int) : Option Pass :=
  let ordered := matchServices.keys.insertionSort fun vl vr => vr.loaded ≤ vl.loaded
  if ordered.getLast?.any tooFree || ordered.head?.any tooBusy then
    (clipServices averageLoaded ordered ⟨matchServices, undistMatches, []⟩).map updateLoads
  else some ⟨matchServices, undistMatches, []⟩

/-- `int countPerService = floor(..)`, undefined when the quotient does not fit. -/
def average (allLoaded allServices : Nat) : Option Int :=
  if countPerService allLoaded allServices ≤ 2147483647 then some (countPerService allLoaded allServices) else none

/-- `MatchDistribution::operator()` on `int`s; `none` when some operation is undefined. -/
def redistribute (matchServices : ServiceMap) (allMatches : MatchMap) (undistMatches : List Int) : Option Pass :=
  if matchServices.size = 0 then some ⟨matchServices, undistMatches, []⟩
  else
    do
      let avg ← average allMatches.size matchServices.size
      let p₁ ← distributeFill matchServices avg undistMatches
      let p₂ ← distributeClipping p₁.matchServices avg p₁.undistMatches
      let changed := p₂.changedServices.foldl (fun s x => setInsert x s) p₁.changedServices
      if p₂.undistMatches.length > 0 then
        let p₃ ← distributeFill p₂.matchServices avg p₂.undistMatches
        some ⟨p₃.matchServices, p₃.undistMatches, p₃.changedServices.foldl (fun s x => setInsert x s) changed⟩
      else some ⟨p₂.matchServices, p₂.undistMatches, changed⟩

/-! ## A defined call only moves matches -/

theorem updateLoaded_moves (sid : Int) (m : ServiceMap) (u : List Int) : Moves m u (updateLoaded sid m) u := by
  unfold updateLoaded
  cases h : m.find? sid with
  | none => exact .refl m u
  | some e => exact rekey_moves h _ u

theorem updateLoads_moves (p : Pass) :
    Moves p.matchServices p.undistMatches (updateLoads p).matchServices p.undistMatches := by
  obtain ⟨m, u, changed⟩ := p
  show Moves m u (changed.foldl _ m) u
  induction changed generalizing m with
  | nil => exact .refl m u
  | cons cid changed ih => exact (updateLoaded_moves cid m u).trans (ih _)

theorem fillServices_moves {avg : Int} {ordered : List MatchDisService} {p r : Pass}
    (h : fillServices avg ordered p = some r) : Moves p.matchServices p.undistMatches r.matchServices r.undistMatches := by
  induction ordered generalizing p with
  | nil =>
    obtain rfl := Option.some.inj h
    exact .refl _ _
  | cons srv ordered ih =>
    unfold fillServices at h
    split at h
    · obtain rfl := Option.some.inj h
      exact .refl _ _
    · cases hdiff : subInt avg srv.loaded with
      | none =>
        rw [hdiff] at h
        cases h
      | some diff =>
        rw [hdiff] at h
        dsimp only at h
        split at h
        · obtain rfl := Option.some.inj h
          exact .refl _ _
        · cases hfind : p.matchServices.find? srv.sid with
          | none =>
            rw [hfind] at h
            obtain rfl := Option.some.inj h
            exact .refl _ _
          | some e =>
            rw [hfind] at h
            exact (fillList_moves hfind _ p.undistMatches).trans (ih h)

theorem clipServices_moves {avg : Int} {ordered : List MatchDisService} {p r : Pass}
    (h : clipServices avg ordered p = some r) : Moves p.matchServices p.undistMatches r.matchServices r.undistMatches := by
  induction ordered generalizing p with
  | nil =>
    obtain rfl := Option.some.inj h
    exact .refl _ _
  | cons srv ordered ih =>
    unfold clipServices at h
    cases hdiff : subInt srv.loaded avg with
    | none =>
      rw [hdiff] at h
      cases h
    | some diff =>
      rw [hdiff] at h
      dsimp only at h
      split at h
      · obtain rfl := Option.some.inj h
        exact .refl _ _
      · cases hfind : p.matchServices.find? srv.sid with
        | none =>
          rw [hfind] at h
          obtain rfl := Option.some.inj h
          exact .refl _ _
        | some e =>
          rw [hfind] at h
          exact (clipList_moves hfind _ p.undistMatches).trans (ih h)

theorem distributeFill_moves {m : ServiceMap} {avg : Int} {u : List Int} {p : Pass} (h : distributeFill m avg u = some p) :
    Moves m u p.matchServices p.undistMatches := by
  obtain ⟨r, hr, rfl⟩ := Option.map_eq_some_iff.mp h
  exact (fillServices_moves hr).trans (updateLoads_moves r)

theorem distributeClipping_moves {m : ServiceMap} {avg : Int} {u : List Int} {p : Pass}
    (h : distributeClipping m avg u = some p) : Moves m u p.matchServices p.undistMatches := by
  unfold distributeClipping at h
  dsimp only at h
  split at h
  · obtain ⟨r, hr, rfl⟩ := Option.map_eq_some_iff.mp h
    exact (clipServices_moves hr).trans (updateLoads_moves r)
  · obtain rfl := Option.some.inj h
    exact .refl m u

/-- **A call that is defined keeps every service and every match**, whatever the recorded loads. -/
theorem redistribute_moves {m : ServiceMap} {allMatches : MatchMap} {u : List Int} {p : Pass}
    (h : redistribute m allMatches u = some p) : Moves m u p.matchServices p.undistMatches := by
  unfold redistribute at h
  split at h
  · obtain rfl := Option.some.inj h
    exact .refl m u
  · obtain ⟨avg, -, h⟩ := Option.bind_eq_some_iff.mp h
    obtain ⟨p₁, h₁, h⟩ := Option.bind_eq_some_iff.mp h
    obtain ⟨p₂, h₂, h⟩ := Option.bind_eq_some_iff.mp h
    have h₁₂ := (distributeFill_moves h₁).trans (distributeClipping_moves h₂)
    dsimp only at h
    split at h
    · obtain ⟨p₃, h₃, h⟩ := Option.bind_eq_some_iff.mp h
      obtain rfl := Option.some.inj h
      have h₂₃ := distributeFill_moves h₃
      exact h₁₂.trans h₂₃
    · obtain rfl := Option.some.inj h
      exact h₁₂

/-! ## Loads that are not far below the average -/

theorem subInt_of_le {a b : Int} (hlow : -2147483648 ≤ a - b) (hhigh : a - b ≤ 2147483647) : subInt a b = some (a - b) :=
  if_pos ⟨hlow, hhigh⟩

/-- A load whose differences from the average are `int`s. -/
def Near (avg loaded : Int) : Prop := avg - 2147483647 ≤ loaded ∧ loaded ≤ 2147483647

instance (avg loaded : Int) : Decidable (Near avg loaded) := inferInstanceAs (Decidable (_ ∧ _))

/-- All the loads are so, and there are no more mids than an `int` counts. -/
structure Fits (avg : Int) (m : ServiceMap) (u : List Int) : Prop where
  loads : ∀ srv ∈ m.keys, Near avg srv.loaded
  total : (u ++ m.elems).length ≤ 2147483647

theorem Fits.moves {avg : Int} {m m' : ServiceMap} {u u' : List Int} (h : Fits avg m u) (hmoves : Moves m u m' u')
    (hloads : ∀ srv ∈ m'.keys, Near avg srv.loaded) : Fits avg m' u' :=
  ⟨hloads, hmoves.mids.length_eq.trans_le h.total⟩

theorem keys_modify (m : ServiceMap) (sid : Int) (f : List Int → List Int) : (m.modify sid f).keys = m.keys := by
  simp [OrderedMap.keys, OrderedMap.modify, OrderedMap.mapVals]

/-- The loop of the fill moves no load. -/
theorem fillServices_keys (avg : Int) (ordered : List MatchDisService) (p : Pass) :
    (MatchDistribution.fillServices avg ordered p).matchServices.keys = p.matchServices.keys := by
  induction ordered generalizing p with
  | nil => rfl
  | cons srv ordered ih =>
    unfold MatchDistribution.fillServices
    split_ifs
    · rfl
    · rfl
    · cases p.matchServices.find? srv.sid with
      | none => rfl
      | some e => exact (ih _).trans (keys_modify ..)

theorem clipServices_keys (avg : Int) (ordered : List MatchDisService) (p : Pass) :
    (MatchDistribution.clipServices avg ordered p).matchServices.keys = p.matchServices.keys := by
  induction ordered generalizing p with
  | nil => rfl
  | cons srv ordered ih =>
    unfold MatchDistribution.clipServices
    split_ifs
    · rfl
    · cases p.matchServices.find? srv.sid with
      | none => rfl
      | some e => exact (ih _).trans (keys_modify ..)

section

variable {avg : Int} {m : ServiceMap} {u : List Int} (h0 : 0 ≤ avg) (hmax : avg ≤ 2147483647)

include h0 in
theorem subInt_fill {loaded : Int} (h : Near avg loaded) : subInt avg loaded = some (avg - loaded) := by
  unfold Near at h
  exact subInt_of_le (by omega) (by omega)

include h0 in
theorem subInt_clip {loaded : Int} (h : Near avg loaded) : subInt loaded avg = some (loaded - avg) := by
  unfold Near at h
  exact subInt_of_le (by omega) (by omega)

include h0 in
theorem fillServices_eq {ordered : List MatchDisService} (h : ∀ srv ∈ ordered, Near avg srv.loaded) (p : Pass) :
    fillServices avg ordered p = some (MatchDistribution.fillServices avg ordered p) := by
  induction ordered generalizing p with
  | nil => rfl
  | cons srv ordered ih =>
    have htail : ∀ s ∈ ordered, Near avg s.loaded := fun s hs => h s (List.mem_cons_of_mem srv hs)
    rw [fillServices, MatchDistribution.fillServices, subInt_fill h0 (h srv List.mem_cons_self)]
    dsimp only
    split_ifs
    · rfl
    · rfl
    · cases p.matchServices.find? srv.sid with
      | none => rfl
      | some e => exact ih htail _

include h0 in
theorem clipServices_eq {ordered : List MatchDisService} (h : ∀ srv ∈ ordered, Near avg srv.loaded) (p : Pass) :
    clipServices avg ordered p = some (MatchDistribution.clipServices avg ordered p) := by
  induction ordered generalizing p with
  | nil => rfl
  | cons srv ordered ih =>
    have htail : ∀ s ∈ ordered, Near avg s.loaded := fun s hs => h s (List.mem_cons_of_mem srv hs)
    rw [clipServices, MatchDistribution.clipServices, subInt_clip h0 (h srv List.mem_cons_self)]
    dsimp only
    split_ifs
    · rfl
    · cases p.matchServices.find? srv.sid with
      | none => rfl
      | some e => exact ih htail _

include hmax in
/-- A size that fits is the load the service gets, and it is not far below the average. -/
theorem Fits.updateLoaded (h : Fits avg m u) (sid : Int) :
    updateLoaded sid m = CSMatchLoadedEvaluation.updateLoaded sid m ∧
      Fits avg (CSMatchLoadedEvaluation.updateLoaded sid m) u := by
  have hmoves := MatchDistribution.updateLoaded_moves sid m u
  unfold IntLoads.updateLoaded
  unfold CSMatchLoadedEvaluation.updateLoaded at hmoves ⊢
  cases hfind : m.find? sid with
  | none => exact ⟨rfl, h⟩
  | some e =>
    rw [hfind] at hmoves
    have hsize : (e.2.length : Int) ≤ 2147483647 := by
      have hperm := (OrderedMap.elems_perm_of_find? hfind).length_eq
      have htotal := h.total
      rw [List.length_append] at htotal hperm
      omega
    have heval : evaluate sid e.2 = e.2.length := by
      unfold evaluate
      rw [Int.bmod_def]
      omega
    refine ⟨by dsimp only; rw [heval]; rfl, h.moves hmoves fun srv hsrv => ?_⟩
    obtain ⟨x, hx, rfl⟩ := List.mem_map.mp hsrv
    rcases OrderedMap.mem_insert_entries.mp hx with hx | ⟨rfl, -⟩
    · exact h.loads _ (List.mem_map_of_mem (List.mem_filter.mp hx).1)
    · show Near avg e.2.length
      unfold Near
      omega

include hmax in
theorem Fits.updateLoads {p : Pass} (h : Fits avg p.matchServices p.undistMatches) :
    updateLoads p = p.updateLoads ∧ Fits avg p.updateLoads.matchServices p.updateLoads.undistMatches := by
  obtain ⟨ms, undist, changed⟩ := p
  have hfold : changed.foldl (fun ms cid => IntLoads.updateLoaded cid ms) ms =
      changed.foldl (fun ms cid => CSMatchLoadedEvaluation.updateLoaded cid ms) ms ∧
      Fits avg (changed.foldl (fun ms cid => CSMatchLoadedEvaluation.updateLoaded cid ms) ms) undist := by
    change Fits avg ms undist at h
    induction changed generalizing ms with
    | nil => exact ⟨by rw [List.foldl_nil, List.foldl_nil], h⟩
    | cons cid changed ih =>
      obtain ⟨heq, hfits⟩ := h.updateLoaded hmax cid
      rw [List.foldl_cons, List.foldl_cons, heq]
      exact ih _ hfits
  refine ⟨?_, hfold.2⟩
  unfold IntLoads.updateLoads Pass.updateLoads
  exact congrArg (Pass.mk · undist changed) hfold.1

include h0 hmax

theorem Fits.distributeFill (h : Fits avg m u) :
    distributeFill m avg u = some (MatchDistribution.distributeFill m avg u) ∧
      Fits avg (MatchDistribution.distributeFill m avg u).matchServices
        (MatchDistribution.distributeFill m avg u).undistMatches := by
  unfold IntLoads.distributeFill MatchDistribution.distributeFill
  dsimp only
  set ordered := m.keys.insertionSort fun vl vr => vl.loaded ≤ vr.loaded
  have hordered : ∀ srv ∈ ordered, Near avg srv.loaded := fun srv hsrv =>
    h.loads srv ((List.perm_insertionSort _ _).mem_iff.mp hsrv)
  have hfits : Fits avg (MatchDistribution.fillServices avg ordered ⟨m, u, []⟩).matchServices
      (MatchDistribution.fillServices avg ordered ⟨m, u, []⟩).undistMatches := by
    refine h.moves (MatchDistribution.fillServices_moves avg ordered ⟨m, u, []⟩) ?_
    rw [fillServices_keys]
    exact h.loads
  obtain ⟨heq, hloads⟩ := hfits.updateLoads hmax
  rw [fillServices_eq h0 hordered, Option.map_some, heq]
  exact ⟨rfl, hloads⟩

theorem Fits.distributeClipping (h : Fits avg m u) :
    distributeClipping m avg u = some (MatchDistribution.distributeClipping m avg u) ∧
      Fits avg (MatchDistribution.distributeClipping m avg u).matchServices
        (MatchDistribution.distributeClipping m avg u).undistMatches := by
  unfold IntLoads.distributeClipping MatchDistribution.distributeClipping
  dsimp only
  set ordered := m.keys.insertionSort fun vl vr => vr.loaded ≤ vl.loaded
  have hordered : ∀ srv ∈ ordered, Near avg srv.loaded := fun srv hsrv =>
    h.loads srv ((List.perm_insertionSort _ _).mem_iff.mp hsrv)
  split
  · have hfits : Fits avg (MatchDistribution.clipServices avg ordered ⟨m, u, []⟩).matchServices
        (MatchDistribution.clipServices avg ordered ⟨m, u, []⟩).undistMatches := by
      refine h.moves (MatchDistribution.clipServices_moves avg ordered ⟨m, u, []⟩) ?_
      rw [clipServices_keys]
      exact h.loads
    obtain ⟨heq, hloads⟩ := hfits.updateLoads hmax
    rw [clipServices_eq h0 hordered, Option.map_some, heq]
    exact ⟨rfl, hloads⟩
  · exact ⟨rfl, h⟩

end

/-- **The call is defined, and is the one on unbounded loads**, when the average is an `int`, no load is far below it and
the mids are no more than an `int` counts. -/
theorem redistribute_eq {m : ServiceMap} {allMatches : MatchMap} {u : List Int}
    (hmax : countPerService allMatches.size m.size ≤ 2147483647)
    (h : Fits (countPerService allMatches.size m.size) m u) :
    redistribute m allMatches u = some (MatchDistribution.redistribute m allMatches u) := by
  have h0 : (0 : Int) ≤ countPerService allMatches.size m.size := Int.natCast_nonneg _
  have hmax' : (countPerService allMatches.size m.size : Int) ≤ 2147483647 := by exact_mod_cast hmax
  unfold redistribute MatchDistribution.redistribute
  rw [average, if_pos hmax]
  split_ifs with hsize
  · rfl
  · obtain ⟨hfill, hfits⟩ := h.distributeFill h0 hmax'
    obtain ⟨hclip, hfits⟩ := hfits.distributeClipping h0 hmax'
    obtain ⟨hagain, -⟩ := hfits.distributeFill h0 hmax'
    simp only [Option.bind_eq_bind, Option.bind_some, hfill, hclip, hagain]
    split_ifs <;> rfl

/-- **Redistribution conserves matches on every `int` load for which it is defined**: the same `sid`s, and the same mids
in the lists and the pool together. It is defined when no load is more than `2147483647` below the average. -/
theorem redistribute_conserves (m : ServiceMap) (allMatches : MatchMap) (u : List Int) :
    (∀ p, redistribute m allMatches u = some p →
      p.matchServices.indices = m.indices ∧ (p.undistMatches ++ p.matchServices.elems).Perm (u ++ m.elems)) ∧
    (countPerService allMatches.size m.size ≤ 2147483647 → Fits (countPerService allMatches.size m.size) m u →
      redistribute m allMatches u = some (MatchDistribution.redistribute m allMatches u)) := by
  refine ⟨fun p h => ?_, redistribute_eq⟩
  have hmoves := redistribute_moves h
  exact ⟨OrderedMap.indices_eq hmoves.sids, hmoves.mids⟩

/-- A service with the least `int` for a load. -/
def leastLoad : ServiceMap := .ofList [(⟨1, -2147483648⟩, [])]

/-- The difference of the average and that load overflows. -/
theorem leastLoad_undefined :
    ¬ ∀ (m : ServiceMap) (allMatches : MatchMap) (u : List Int), m.size ≠ 0 →
      (∀ srv ∈ m.keys, -2147483648 ≤ srv.loaded ∧ srv.loaded ≤ 2147483647) →
      ∃ p, redistribute m allMatches u = some p ∧ p.matchServices.indices = m.indices ∧
        (p.undistMatches ++ p.matchServices.elems).Perm (u ++ m.elems) := by
  intro h
  have hnone : redistribute leastLoad (sampleMatches [7]) [7] = none := by decide
  obtain ⟨p, hp, -⟩ := h leastLoad (sampleMatches [7]) [7] (by decide) (by decide)
  rw [hnone] at hp
  cases hp

/-- Two services whose recorded loads are wrong. -/
def wrongLoads : ServiceMap := .ofList [(⟨1, -2147483645⟩, [5, 6]), (⟨2, 30⟩, [8])]

theorem wrongLoads_conserves :
    ∃ p, redistribute wrongLoads (sampleMatches [5, 6, 7, 8]) [7] = some p ∧
      p.matchServices.indices = wrongLoads.indices ∧
      (p.undistMatches ++ p.matchServices.elems).Perm ([7] ++ wrongLoads.elems) := by
  obtain ⟨hconserves, hdefined⟩ := redistribute_conserves wrongLoads (sampleMatches [5, 6, 7, 8]) [7]
  have h := hdefined (by decide) ⟨by decide, by decide⟩
  exact ⟨_, h, hconserves _ h⟩

end AsioUtils.CentralServer.MatchDistribution.IntLoads
