import AsioUtils.CentralServer.Balance
import AsioUtils.CentralServer.MatchManager

/-!
# The lists a redistribution leaves

What the passes do to each service's list, and when they find nothing to do.

* `fillServices_appends`, `clipServices_takes` : a filling appends to a list, a clipping takes from its front;
* `Settled` : every pass would find nothing to do (`Settled.redistribute`);
* `redistribute_cases` : the state `operator()` leaves, clipped and refilled or only filled;
* `redistribute_shape` : the lists it leaves;
* `redistribute_again` : a second call changes nothing.
-/

namespace AsioUtils.CentralServer.MatchDistribution

open StdList WaterFill CSMatchLoadedEvaluation CSMatchManager

/-! ## The lists after a pass -/

theorem length_getDistMatch (m : ServiceMap) (sid : Int) : (getDistMatch m sid).length = sizeAt m sid := by
  unfold getDistMatch sizeAt
  cases m.find? sid <;> rfl

theorem getDistMatch_modify {m : ServiceMap} {sid : Int} {e : MatchDisService × List Int} (he : m.find? sid = some e)
    (mids : List Int) (i : Int) :
    getDistMatch (m.modify sid fun _ => mids) i = if i = sid then mids else getDistMatch m i := by
  unfold getDistMatch
  rw [OrderedMap.find?_modify]
  split_ifs with hi
  · rw [hi, he]
    rfl
  · rfl

theorem getDistMatch_of_find? {m : ServiceMap} {sid : Int} {e : MatchDisService × List Int}
    (he : m.find? sid = some e) : getDistMatch m sid = e.2 := by
  unfold getDistMatch
  rw [he]

/-- Updating loads changes no list. -/
theorem getDistMatch_updateLoads (p : Pass) (i : Int) :
    getDistMatch p.updateLoads.matchServices i = getDistMatch p.matchServices i := by
  unfold getDistMatch
  rw [find?_updateLoads]
  split_ifs
  · cases p.matchServices.find? i <;> rfl
  · rfl

/-- A filling only appends to the lists. -/
theorem fillServices_appends (avg : Int) (ordered : List MatchDisService) (p : Pass) (i : Int) :
    getDistMatch p.matchServices i <+: getDistMatch (fillServices avg ordered p).matchServices i := by
  induction ordered generalizing p with
  | nil => exact List.prefix_rfl
  | cons srv ordered ih =>
    unfold fillServices
    split_ifs with h0 h1
    · exact List.prefix_rfl
    · exact List.prefix_rfl
    · cases he : p.matchServices.find? srv.sid with
      | none => exact List.prefix_rfl
      | some e =>
        dsimp only
        refine List.IsPrefix.trans ?_ (ih ⟨_, _, _⟩)
        rw [fillList_eq]
        dsimp only
        rw [getDistMatch_modify he]
        split_ifs with hi
        · rw [hi, getDistMatch_of_find? he]
          exact List.prefix_append _ _
        · exact List.prefix_rfl

/-- A clipping only takes from the front of the lists. -/
theorem clipServices_takes (avg : Int) (ordered : List MatchDisService) (p : Pass) (i : Int) :
    getDistMatch (clipServices avg ordered p).matchServices i <:+ getDistMatch p.matchServices i := by
  induction ordered generalizing p with
  | nil => exact List.suffix_rfl
  | cons srv ordered ih =>
    unfold clipServices
    split_ifs with h0
    · exact List.suffix_rfl
    · cases he : p.matchServices.find? srv.sid with
      | none => exact List.suffix_rfl
      | some e =>
        dsimp only
        refine List.IsSuffix.trans (ih ⟨_, _, _⟩) ?_
        rw [clipList_eq]
        dsimp only
        rw [getDistMatch_modify he]
        split_ifs with hi
        · rw [hi, getDistMatch_of_find? he, List.nil_append]
          exact List.drop_suffix _ _
        · exact List.suffix_rfl

theorem distributeFill_appends (m : ServiceMap) (avg : Int) (u : List Int) (i : Int) :
    getDistMatch m i <+: getDistMatch (distributeFill m avg u).matchServices i := by
  unfold distributeFill
  rw [getDistMatch_updateLoads]
  exact fillServices_appends avg _ ⟨m, u, []⟩ i

theorem distributeClipping_takes (m : ServiceMap) (avg : Int) (u : List Int) (i : Int) :
    getDistMatch (distributeClipping m avg u).matchServices i <:+ getDistMatch m i := by
  unfold distributeClipping
  dsimp only
  split_ifs
  · rw [getDistMatch_updateLoads]
    exact clipServices_takes avg _ ⟨m, u, []⟩ i
  · exact List.suffix_rfl

/-! ## The sizes after a filling -/

section Fill

variable {m : ServiceMap}

theorem mem_sizes {l : Nat} : l ∈ sizes m ↔ ∃ i ∈ m, sizeAt m i = l := by
  rw [sizes_eq, List.mem_map]
  simp only [OrderedMap.mem_indices]

/-- A filling lowers no size, and raises a size to the mark at most. -/
theorem sizeAt_distributeFill (h : Accurate m) (q : Nat) (u : List Int) {i : Int} (hi : i ∈ m) :
    sizeAt m i ≤ sizeAt (distributeFill m q u).matchServices i ∧
      sizeAt (distributeFill m q u).matchServices i ≤ max (sizeAt m i) q := by
  obtain ⟨order, hperm, -, hsizes, -, -⟩ := distributeFill_spec h q u
  have hbounds := fill_bounds q (order.map (sizeAt m)) u.length
  rw [← hsizes, List.forall₂_map_left_iff, List.forall₂_map_right_iff, List.forall₂_same] at hbounds
  exact hbounds i (hperm.mem_iff.mpr (OrderedMap.mem_indices.mpr hi))

/-- A pool that reaches brings every service to the mark. -/
theorem sizeAt_distributeFill_full (h : Accurate m) {q : Nat} {u : List Int} (hu : need q (sizes m) ≤ u.length)
    {i : Int} (hi : i ∈ m) : sizeAt (distributeFill m q u).matchServices i = max q (sizeAt m i) := by
  obtain ⟨order, hperm, hasc, hsizes, -, -⟩ := distributeFill_spec h q u
  have hneed : need q (order.map (sizeAt m)) ≤ u.length := by
    rw [need_perm (hperm.map (sizeAt m)), ← sizes_eq]
    exact hu
  rw [fill_full hasc hneed, List.map_map, List.map_inj_left] at hsizes
  exact hsizes i (hperm.mem_iff.mpr (OrderedMap.mem_indices.mpr hi))

/-- A filling leaves the services above the mark alone. -/
theorem distributeFill_above (h : Accurate m) {q : Nat} (u : List Int) {i : Int} (hi : i ∈ m) (hq : q ≤ sizeAt m i) :
    getDistMatch (distributeFill m q u).matchServices i = getDistMatch m i := by
  have hle := (sizeAt_distributeFill h q u hi).2
  refine ((distributeFill_appends m q u i).eq_of_length_le ?_).symm
  rw [length_getDistMatch, length_getDistMatch]
  omega

/-- A filling ends with an empty pool or with every service at the mark. -/
theorem distributeFill_ends (h : Accurate m) (q : Nat) (u : List Int) :
    (distributeFill m q u).undistMatches = [] ∨ ∀ i ∈ m, q ≤ sizeAt (distributeFill m q u).matchServices i := by
  by_cases hu : need q (sizes m) ≤ u.length
  · right
    intro i hi
    rw [sizeAt_distributeFill_full h hu hi]
    exact le_max_left q _
  · left
    rw [← List.length_eq_zero_iff, distributeFill_left h]
    omega

end Fill

/-! ## The sizes after a clipping -/

section Clip

variable {m : ServiceMap}

/-- A clipping cuts every service to the mark, or nobody. -/
theorem sizeAt_distributeClipping (h : Accurate m) (q : Nat) (u : List Int) :
    (Clips m ∧ ∀ i ∈ m, sizeAt (distributeClipping m q u).matchServices i = min q (sizeAt m i)) ∨
      (¬ Clips m ∧ distributeClipping m q u = ⟨m, u, []⟩) := by
  rcases distributeClipping_spec h q u with ⟨hclip, hsize, -, -⟩ | hsame
  · exact .inl ⟨hclip, hsize⟩
  · exact .inr hsame

/-- A clipping leaves the services below the mark alone. -/
theorem distributeClipping_below (h : Accurate m) {q : Nat} (u : List Int) {i : Int} (hi : i ∈ m)
    (hq : sizeAt m i ≤ q) : getDistMatch (distributeClipping m q u).matchServices i = getDistMatch m i := by
  rcases sizeAt_distributeClipping h q u with ⟨-, hsize⟩ | ⟨-, hsame⟩
  · apply (distributeClipping_takes m q u i).eq_of_length
    rw [length_getDistMatch, length_getDistMatch, hsize i hi]
    exact min_eq_right hq
  · rw [hsame]

/-- A clipping brings nobody from above the mark below it. -/
theorem le_sizeAt_distributeClipping (h : Accurate m) {q : Nat} (u : List Int) {i : Int} (hi : i ∈ m)
    (hq : q ≤ sizeAt m i) : q ≤ sizeAt (distributeClipping m q u).matchServices i := by
  rcases sizeAt_distributeClipping h q u with ⟨-, hsize⟩ | ⟨-, hsame⟩
  · rw [hsize i hi]
    exact le_min le_rfl hq
  · rw [hsame]
    exact hq

end Clip

/-! ## When a pass finds nothing to do -/

/-- The pool is empty or every service is at the mark, and nobody is too free or too busy or above the mark. -/
structure Settled (q : Nat) (m : ServiceMap) (u : List Int) : Prop where
  filled : u = [] ∨ ∀ i ∈ m, q ≤ sizeAt m i
  clipped : ¬ Clips m ∨ ∀ i ∈ m, sizeAt m i ≤ q

section Nothing

variable {m : ServiceMap} {q : Nat} {u : List Int}

theorem distributeFill_of_filled (h : Accurate m) (hfilled : u = [] ∨ ∀ i ∈ m, q ≤ sizeAt m i) :
    distributeFill m q u = ⟨m, u, []⟩ := by
  have hstop : fillServices q (m.keys.insertionSort fun vl vr => vl.loaded ≤ vr.loaded) ⟨m, u, []⟩ = ⟨m, u, []⟩ := by
    have hv := visits_of_perm h (List.perm_insertionSort (fun vl vr => vl.loaded ≤ vr.loaded) m.keys)
    cases hord : m.keys.insertionSort fun vl vr => vl.loaded ≤ vr.loaded with
    | nil => rfl
    | cons srv ordered =>
      rw [hord] at hv
      rw [fillServices]
      rcases hfilled with rfl | hge
      · rfl
      · obtain ⟨e, he, -⟩ := hv.known srv List.mem_cons_self
        have hload := hv.loaded_eq List.mem_cons_self
        have hq := hge srv.sid (OrderedMap.mem_iff.mpr ⟨e, he⟩)
        split_ifs with h0 h1
        · rfl
        · rfl
        · omega
  unfold distributeFill
  dsimp only
  rw [hstop]
  rfl

theorem distributeClipping_of_clipped (h : Accurate m) (hclipped : ¬ Clips m ∨ ∀ i ∈ m, sizeAt m i ≤ q) :
    distributeClipping m q u = ⟨m, u, []⟩ := by
  rcases sizeAt_distributeClipping h q u with ⟨hclip, -⟩ | ⟨-, hsame⟩
  · have hle := hclipped.resolve_left (not_not.mpr hclip)
    have hstop : clipServices q (m.keys.insertionSort fun vl vr => vr.loaded ≤ vl.loaded) ⟨m, u, []⟩ = ⟨m, u, []⟩ := by
      have hv := visits_of_perm h (List.perm_insertionSort (fun vl vr => vr.loaded ≤ vl.loaded) m.keys)
      cases hord : m.keys.insertionSort fun vl vr => vr.loaded ≤ vl.loaded with
      | nil => rfl
      | cons srv ordered =>
        rw [hord] at hv
        obtain ⟨e, he, -⟩ := hv.known srv List.mem_cons_self
        have hload := hv.loaded_eq List.mem_cons_self
        have hq := hle srv.sid (OrderedMap.mem_iff.mpr ⟨e, he⟩)
        rw [clipServices, if_pos (by omega)]
    unfold distributeClipping
    dsimp only
    rw [hstop]
    split_ifs <;> rfl
  · exact hsame

/-- **A settled state stays as it is**, and no service is named as changed. -/
theorem Settled.redistribute {allMatches : MatchMap} (h : Settled q m u) (hacc : Accurate m)
    (hq : q = countPerService allMatches.size m.size) :
    redistribute m allMatches u = ⟨m, u, []⟩ := by
  unfold MatchDistribution.redistribute
  rw [← hq]
  dsimp only
  rw [distributeFill_of_filled hacc h.filled]
  dsimp only
  rw [distributeClipping_of_clipped hacc h.clipped]
  dsimp only
  rw [distributeFill_of_filled hacc h.filled]
  split_ifs <;> rfl

end Nothing

/-! ## `operator()` -/

section Redistribute

variable {m : ServiceMap} {allMatches : MatchMap} {u : List Int} {q : Nat}

/-- The passes of `operator()`: a filling, a clipping and a filling. Skipping the last one when the pool is empty makes no
difference. -/
structure Stages (m : ServiceMap) (allMatches : MatchMap) (u : List Int) (q : Nat) (p₁ p₂ p₃ : Pass) : Prop where
  fill : distributeFill m q u = p₁
  clip : distributeClipping p₁.matchServices q p₁.undistMatches = p₂
  refill : distributeFill p₂.matchServices q p₂.undistMatches = p₃
  accurate₁ : Accurate p₁.matchServices
  accurate₂ : Accurate p₂.matchServices
  sids₁ : ∀ i, i ∈ p₁.matchServices ↔ i ∈ m
  sids₂ : ∀ i, i ∈ p₂.matchServices ↔ i ∈ m
  services : (redistribute m allMatches u).matchServices = p₃.matchServices
  pool : (redistribute m allMatches u).undistMatches = p₃.undistMatches

theorem redistribute_stages (hacc : Accurate m) (hne : m.size ≠ 0) (hq : q = countPerService allMatches.size m.size) :
    ∃ p₁ p₂ p₃, Stages m allMatches u q p₁ p₂ p₃ := by
  obtain ⟨p₁, hp₁⟩ : ∃ p, distributeFill m q u = p := ⟨_, rfl⟩
  obtain ⟨p₂, hp₂⟩ : ∃ p, distributeClipping p₁.matchServices q p₁.undistMatches = p := ⟨_, rfl⟩
  obtain ⟨p₃, hp₃⟩ : ∃ p, distributeFill p₂.matchServices q p₂.undistMatches = p := ⟨_, rfl⟩
  have hacc₁ : Accurate p₁.matchServices := hp₁ ▸ accurate_distributeFill hacc q u
  have hacc₂ : Accurate p₂.matchServices := hp₂ ▸ accurate_distributeClipping hacc₁ q _
  have hsids₁ : ∀ i, i ∈ p₁.matchServices ↔ i ∈ m := hp₁ ▸ (distributeFill_moves m q u).sids
  have hsids₂ : ∀ i, i ∈ p₂.matchServices ↔ i ∈ p₁.matchServices := hp₂ ▸ (distributeClipping_moves _ q _).sids
  have hends : (redistribute m allMatches u).matchServices = p₃.matchServices ∧
      (redistribute m allMatches u).undistMatches = p₃.undistMatches := by
    unfold redistribute
    rw [if_neg hne, ← hq]
    dsimp only
    rw [hp₁, hp₂, hp₃]
    split_ifs with hpool
    · exact ⟨rfl, rfl⟩
    · have hempty : p₂.undistMatches = [] := List.length_eq_zero_iff.mp (by omega)
      rw [← hp₃, distributeFill_of_filled hacc₂ (.inl hempty)]
      exact ⟨rfl, rfl⟩
  exact ⟨p₁, p₂, p₃, hp₁, hp₂, hp₃, hacc₁, hacc₂, hsids₁, fun i => (hsids₂ i).trans (hsids₁ i), hends.1, hends.2⟩

/-- Every list is appended to, or cut at the front. -/
theorem redistribute_lists (hacc : Accurate m) (hne : m.size ≠ 0) (hq : q = countPerService allMatches.size m.size)
    {i : Int} (hi : i ∈ m) :
    (sizeAt m i ≤ q → getDistMatch m i <+: getDistMatch (redistribute m allMatches u).matchServices i) ∧
      (q < sizeAt m i → getDistMatch (redistribute m allMatches u).matchServices i <:+ getDistMatch m i) := by
  obtain ⟨p₁, p₂, p₃, h⟩ := redistribute_stages (u := u) hacc hne hq
  have hi₁ : i ∈ p₁.matchServices := (h.sids₁ i).mpr hi
  have hi₂ : i ∈ p₂.matchServices := (h.sids₂ i).mpr hi
  rw [h.services]
  constructor
  · intro hle
    have hle₁ : sizeAt p₁.matchServices i ≤ q := by
      have hmax := (sizeAt_distributeFill hacc q u hi).2
      rw [h.fill] at hmax
      omega
    have hfill := distributeFill_appends m q u i
    have hclip := distributeClipping_below h.accurate₁ p₁.undistMatches hi₁ hle₁
    have hrefill := distributeFill_appends p₂.matchServices q p₂.undistMatches i
    rw [h.fill] at hfill
    rw [h.clip] at hclip
    rw [h.refill, hclip] at hrefill
    exact hfill.trans hrefill
  · intro hlt
    have hfill := distributeFill_above hacc u hi hlt.le
    rw [h.fill] at hfill
    have hq₁ : q ≤ sizeAt p₁.matchServices i := by
      rw [← length_getDistMatch, hfill, length_getDistMatch]
      exact hlt.le
    have hclip := distributeClipping_takes p₁.matchServices q p₁.undistMatches i
    have hq₂ := le_sizeAt_distributeClipping h.accurate₁ p₁.undistMatches hi₁ hq₁
    rw [h.clip] at hclip hq₂
    have hrefill := distributeFill_above h.accurate₂ p₂.undistMatches hi₂ hq₂
    rw [h.refill] at hrefill
    rw [hrefill, ← hfill]
    exact hclip

/-- What `operator()` leaves: nobody above the mark, after a clipping, or the state the first filling left. Either way
the pool is empty or every service is at the mark. -/
theorem redistribute_cases (hacc : Accurate m) (hne : m.size ≠ 0) (hq : q = countPerService allMatches.size m.size) :
    ((redistribute m allMatches u).undistMatches = [] ∨
        ∀ i ∈ m, q ≤ sizeAt (redistribute m allMatches u).matchServices i) ∧
      ((∀ i ∈ m, sizeAt (redistribute m allMatches u).matchServices i ≤ q) ∨
        (¬ Clips (redistribute m allMatches u).matchServices ∧
          ∀ i, getDistMatch m i <+: getDistMatch (redistribute m allMatches u).matchServices i)) := by
  obtain ⟨p₁, p₂, p₃, h⟩ := redistribute_stages (u := u) hacc hne hq
  rw [h.services, h.pool]
  constructor
  · have hends := distributeFill_ends h.accurate₂ q p₂.undistMatches
    rw [h.refill] at hends
    simpa only [h.sids₂] using hends
  · rcases sizeAt_distributeClipping h.accurate₁ q p₁.undistMatches with ⟨-, hsize⟩ | ⟨hno, hsame⟩
    · left
      intro i hi
      have hle := (sizeAt_distributeFill h.accurate₂ q p₂.undistMatches ((h.sids₂ i).mpr hi)).2
      have hcut := hsize i ((h.sids₁ i).mpr hi)
      rw [h.clip] at hcut
      rw [h.refill] at hle
      omega
    · right
      -- no clipping, and the second filling finds what the first one left
      have hends := distributeFill_ends hacc q u
      have hprefix := distributeFill_appends m q u
      simp only [h.fill, ← h.sids₁] at hends hprefix
      have hp₂ : p₂ = ⟨p₁.matchServices, p₁.undistMatches, []⟩ := h.clip.symm.trans hsame
      have hp₃ := h.refill
      rw [hp₂, distributeFill_of_filled h.accurate₁ hends] at hp₃
      rw [← hp₃]
      exact ⟨hno, hprefix⟩

theorem Moves.size {m m' : ServiceMap} {u u' : List Int} (h : Moves m u m' u') : m'.size = m.size := by
  calc m'.size = m'.indices.length := (List.length_map _).symm
    _ = m.indices.length := congrArg List.length (OrderedMap.indices_eq h.sids)
    _ = m.size := List.length_map _

/-- `operator()` leaves a settled state. -/
theorem redistribute_settled (hacc : Accurate m) (hne : m.size ≠ 0) (hq : q = countPerService allMatches.size m.size) :
    Settled q (redistribute m allMatches u).matchServices (redistribute m allMatches u).undistMatches := by
  have hsids := (redistribute_moves m allMatches u).sids
  obtain ⟨hends, hshape⟩ := redistribute_cases (u := u) hacc hne hq
  simp only [← hsids] at hends hshape
  exact ⟨hends, hshape.elim .inr fun h => .inl h.1⟩

/-- When nobody is above the mark and all matches are there, every service is at the mark. -/
theorem eq_mark {m : ServiceMap} {u : List Int} {q : Nat} (hends : u = [] ∨ ∀ i ∈ m, q ≤ sizeAt m i)
    (hle : ∀ i ∈ m, sizeAt m i ≤ q) (htotal : q * m.size ≤ u.length + m.elems.length) : ∀ i ∈ m, sizeAt m i = q := by
  have hge : ∀ i ∈ m, q ≤ sizeAt m i := by
    rcases hends with rfl | hge
    · -- an empty pool leaves no room for a service below the mark
      have hneed : need q (sizes m) + (sizes m).sum = q * (sizes m).length := by
        apply need_add_sum
        intro l hl
        obtain ⟨i, hi, rfl⟩ := mem_sizes.mp hl
        exact hle i hi
      rw [sizes_sum, sizes_length] at hneed
      rw [List.length_nil] at htotal
      have hzero : need q (sizes m) = 0 := by omega
      intro i hi
      exact need_eq_zero.mp hzero _ (mem_sizes.mpr ⟨i, hi, rfl⟩)
    · exact hge
  intro i hi
  exact le_antisymm (hle i hi) (hge i hi)

end Redistribute

/-- **The shape of a redistribution**, for accurate loads and an exact average `q`: every service has `q` matches, or
every service has between `1` and `9` and has lost none; up to `q` matches a list is a prefix of the new one, and of a
longer list a suffix stays. -/
theorem redistribute_shape (m : ServiceMap) (allMatches : MatchMap) (u : List Int) (hacc : Accurate m)
    (hne : m.size ≠ 0) (htotal : allMatches.size = u.length + m.elems.length)
    (hexact : countPerService allMatches.size m.size = allMatches.size / m.size) :
    let q := allMatches.size / m.size
    let m' := (redistribute m allMatches u).matchServices
    ((∀ sid ∈ m', (getDistMatch m' sid).length = q) ∨
      ∀ sid ∈ m', (1 ≤ (getDistMatch m' sid).length ∧ (getDistMatch m' sid).length ≤ 9) ∧
        getDistMatch m sid <+: getDistMatch m' sid) ∧
    ∀ sid ∈ m',
      ((getDistMatch m sid).length ≤ q → getDistMatch m sid <+: getDistMatch m' sid) ∧
      (q < (getDistMatch m sid).length → getDistMatch m' sid <:+ getDistMatch m sid) := by
  intro q m'
  have hq : q = countPerService allMatches.size m.size := hexact.symm
  have hmoves := redistribute_moves m allMatches u
  have hlists : ∀ sid ∈ m', _ := fun sid hsid => redistribute_lists (u := u) hacc hne hq ((hmoves.sids sid).mp hsid)
  obtain ⟨hends, hshape⟩ := redistribute_cases (u := u) hacc hne hq
  simp only [← hmoves.sids] at hends hshape
  simp only [length_getDistMatch]
  refine ⟨?_, hlists⟩
  rcases hshape with hle | ⟨hno, hprefix⟩
  · refine .inl (eq_mark hends hle ?_)
    have hkept := hmoves.mids.length_eq
    rw [List.length_append, List.length_append] at hkept
    rw [hmoves.size, hkept, ← htotal]
    exact Nat.div_mul_le_self allMatches.size m.size
  · refine .inr fun sid hsid => ⟨?_, hprefix sid⟩
    have hnone : ¬ (sizeAt m' sid = 0 ∨ 10 ≤ sizeAt m' sid) := fun hclips =>
      hno ⟨_, mem_sizes.mpr ⟨sid, hsid, rfl⟩, hclips⟩
    omega

/-- Two matches and two services, one of which runs both. -/
def oneBusy : ServiceMap := ((OrderedMap.empty.insert (⟨1, 2⟩, [7, 8])).insert (⟨2, 0⟩, []))

theorem oneBusy_shape :
    let q := (sampleMatches [7, 8]).size / oneBusy.size
    let m' := (redistribute oneBusy (sampleMatches [7, 8]) []).matchServices
    ((∀ sid ∈ m', (getDistMatch m' sid).length = q) ∨
      ∀ sid ∈ m', (1 ≤ (getDistMatch m' sid).length ∧ (getDistMatch m' sid).length ≤ 9) ∧
        getDistMatch oneBusy sid <+: getDistMatch m' sid) ∧
    ∀ sid ∈ m',
      ((getDistMatch oneBusy sid).length ≤ q → getDistMatch oneBusy sid <+: getDistMatch m' sid) ∧
      (q < (getDistMatch oneBusy sid).length → getDistMatch m' sid <:+ getDistMatch oneBusy sid) :=
  redistribute_shape oneBusy (sampleMatches [7, 8]) [] (by decide) (by decide) (by decide) (by decide)

/-- **A second redistribution changes nothing**: for accurate loads the services, their loads and lists and the pool
stay, and no service is named. -/
theorem redistribute_again (m : ServiceMap) (allMatches : MatchMap) (u : List Int) (hacc : Accurate m) :
    redistribute (redistribute m allMatches u).matchServices allMatches (redistribute m allMatches u).undistMatches =
      ⟨(redistribute m allMatches u).matchServices, (redistribute m allMatches u).undistMatches, []⟩ := by
  by_cases hne : m.size = 0
  · have hskip : redistribute m allMatches u = ⟨m, u, []⟩ := if_pos hne
    rw [hskip]
    exact hskip
  · obtain ⟨q, hq⟩ : ∃ q, q = countPerService allMatches.size m.size := ⟨_, rfl⟩
    have hsettled := redistribute_settled (u := u) hacc hne hq
    apply hsettled.redistribute (accurate_redistribute hacc allMatches u)
    rw [(redistribute_moves m allMatches u).size]
    exact hq

theorem oneBusy_again :
    redistribute (redistribute oneBusy (sampleMatches [7, 8]) []).matchServices (sampleMatches [7, 8])
        (redistribute oneBusy (sampleMatches [7, 8]) []).undistMatches =
      ⟨(redistribute oneBusy (sampleMatches [7, 8]) []).matchServices,
        (redistribute oneBusy (sampleMatches [7, 8]) []).undistMatches, []⟩ :=
  redistribute_again oneBusy (sampleMatches [7, 8]) [] (by decide)

end AsioUtils.CentralServer.MatchDistribution
