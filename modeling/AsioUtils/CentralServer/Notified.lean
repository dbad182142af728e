import AsioUtils.CentralServer.Kernel
import AsioUtils.CentralServer.LastEvent
import AsioUtils.CentralServer.Shape

/-!
# What a pass tells the kernel

`updateDistMatchServices` hands the change callback the lists of the services that the redistribution names. The rest of
a pass, removals, new keys and new services, changes no list of a service that stays.

* `redistribute_kept` : a service the redistribution does not name keeps its list;
* `applyChanges_kept` : so does one a pass does not name;
* `IntSids`, `Known` : `sid`s are of type `int`, in every call and so in every state;
* `pass_announces` : the map given to the callback, for every reachable state.
-/

namespace AsioUtils.CentralServer

open AsioUtils.CPG StdList Runs

namespace MatchDistribution

open CSMatchManager

/-! ## What the redistribution names -/

theorem fillServices_noted (avg : Int) (ordered : List MatchDisService) (p : Pass) {i : Int}
    (hi : i ∈ p.changedServices) : i ∈ (fillServices avg ordered p).changedServices := by
  induction ordered generalizing p with
  | nil => exact hi
  | cons srv ordered ih =>
    unfold fillServices
    split_ifs
    · exact hi
    · exact hi
    · cases p.matchServices.find? srv.sid with
      | none => exact hi
      | some e => exact ih ⟨_, _, _⟩ (mem_setInsert.mpr (.inr hi))

theorem fillServices_kept (avg : Int) (ordered : List MatchDisService) (p : Pass) {i : Int}
    (hi : i ∉ (fillServices avg ordered p).changedServices) :
    getDistMatch (fillServices avg ordered p).matchServices i = getDistMatch p.matchServices i := by
  induction ordered generalizing p with
  | nil => rfl
  | cons srv ordered ih =>
    unfold fillServices at hi ⊢
    split_ifs at hi ⊢
    · rfl
    · rfl
    · cases he : p.matchServices.find? srv.sid with
      | none => rfl
      | some e =>
        rw [he] at hi
        dsimp only at hi ⊢
        rw [ih ⟨_, _, _⟩ hi, getDistMatch_modify he, if_neg]
        rintro rfl
        exact hi (fillServices_noted avg ordered ⟨_, _, _⟩ (mem_setInsert.mpr (.inl rfl)))

theorem clipServices_noted (avg : Int) (ordered : List MatchDisService) (p : Pass) {i : Int}
    (hi : i ∈ p.changedServices) : i ∈ (clipServices avg ordered p).changedServices := by
  induction ordered generalizing p with
  | nil => exact hi
  | cons srv ordered ih =>
    unfold clipServices
    split_ifs
    · exact hi
    · cases p.matchServices.find? srv.sid with
      | none => exact hi
      | some e =>
        refine ih ⟨_, _, _⟩ ?_
        dsimp only
        split_ifs
        · exact mem_setInsert.mpr (.inr hi)
        · exact hi

theorem clipServices_kept (avg : Int) (ordered : List MatchDisService) (p : Pass) {i : Int}
    (hi : i ∉ (clipServices avg ordered p).changedServices) :
    getDistMatch (clipServices avg ordered p).matchServices i = getDistMatch p.matchServices i := by
  induction ordered generalizing p with
  | nil => rfl
  | cons srv ordered ih =>
    unfold clipServices at hi ⊢
    split_ifs at hi ⊢
    · rfl
    · cases he : p.matchServices.find? srv.sid with
      | none => rfl
      | some e =>
        rw [he] at hi
        dsimp only at hi ⊢
        rw [ih ⟨_, _, _⟩ hi, getDistMatch_modify he]
        split_ifs with hsid
        · -- the service is not noted, so nothing was taken from its list
          subst hsid
          rw [clipList_eq] at hi ⊢
          dsimp only at hi ⊢
          have hnone : e.2.take (srv.loaded - avg).toNat = [] := by
            by_contra hsome
            refine hi (clipServices_noted avg ordered ⟨_, _, _⟩ ?_)
            dsimp only
            rw [if_pos (by simpa using hsome)]
            exact mem_setInsert.mpr (.inl rfl)
          have hlist := List.take_append_drop (srv.loaded - avg).toNat e.2
          rw [hnone] at hlist
          rw [getDistMatch_of_find? he]
          exact hlist
        · rfl

theorem distributeFill_kept (m : ServiceMap) (avg : Int) (u : List Int) {i : Int}
    (hi : i ∉ (distributeFill m avg u).changedServices) :
    getDistMatch (distributeFill m avg u).matchServices i = getDistMatch m i := by
  unfold distributeFill at hi ⊢
  rw [getDistMatch_updateLoads]
  exact fillServices_kept avg _ ⟨m, u, []⟩ hi

theorem distributeClipping_kept (m : ServiceMap) (avg : Int) (u : List Int) {i : Int}
    (hi : i ∉ (distributeClipping m avg u).changedServices) :
    getDistMatch (distributeClipping m avg u).matchServices i = getDistMatch m i := by
  unfold distributeClipping at hi ⊢
  dsimp only at hi ⊢
  split_ifs at hi ⊢
  · rw [getDistMatch_updateLoads]
    exact clipServices_kept avg _ ⟨m, u, []⟩ hi
  · rfl

/-- A service that `operator()` does not name has the list it had. -/
theorem redistribute_kept (m : ServiceMap) (allMatches : MatchMap) (u : List Int) {i : Int}
    (hi : i ∉ (redistribute m allMatches u).changedServices) :
    getDistMatch (redistribute m allMatches u).matchServices i = getDistMatch m i := by
  unfold redistribute at hi ⊢
  split_ifs at hi ⊢ with hempty
  · rfl
  · dsimp only at hi ⊢
    split_ifs at hi ⊢
    · simp only [mem_foldl_setInsert, not_or] at hi
      obtain ⟨hrefill, hclip, hfill⟩ := hi
      rw [distributeFill_kept _ _ _ hrefill, distributeClipping_kept _ _ _ hclip, distributeFill_kept _ _ _ hfill]
    · simp only [mem_foldl_setInsert, not_or] at hi
      obtain ⟨hclip, hfill⟩ := hi
      rw [distributeClipping_kept _ _ _ hclip, distributeFill_kept _ _ _ hfill]

end MatchDistribution

namespace CSMatchManager

open MatchDistribution CentralServer.CSKernel

/-! ## What a pass names -/

/-- Before it redistributes a pass only empties lists of removed services. -/
theorem applyChanges_redistributes (s : CSMatchManager) : ∃ ms undist,
    (∀ sid, getDistMatch ms sid = getDistMatch (removeServices s.changedServices_ [] s.matchServices_).2 sid) ∧
    (applyChanges s).1.matchServices_ = (redistribute ms s.matches_ undist).matchServices ∧
    (applyChanges s).2 = changedMatchMap (redistribute ms s.matches_ undist).matchServices
      (redistribute ms s.matches_ undist).changedServices := by
  refine ⟨_, _, fun sid => ?_, rfl, rfl⟩
  rw [getDistMatch_addServices, getDistMatch_updateServices]

/-- A service that is there after a pass, and that the pass does not name, has the list it had. -/
theorem applyChanges_kept {s : CSMatchManager} (h : AddedNew s) {sid : Int}
    (hsid : sid ∈ (applyChanges s).1.matchServices_) (hnot : toUnsigned sid ∉ (applyChanges s).2) :
    getDistMatch (applyChanges s).1.matchServices_ sid = getDistMatch s.matchServices_ sid := by
  have hbefore : getDistMatch (removeServices s.changedServices_ [] s.matchServices_).2 sid =
      getDistMatch s.matchServices_ sid := by
    rcases mem_applyChanges.mp hsid with ⟨-, hstays⟩ | ⟨c, hc, htype, rfl⟩
    · exact getDistMatch_removeServices_other hstays
    · -- a service noted as new has no list before the pass
      have hnil : getDistMatch s.matchServices_ c.service.sid = [] := by
        unfold getDistMatch
        rw [OrderedMap.not_mem_iff.mp (h c hc htype)]
      rw [getDistMatch_removeServices hnil, hnil]
  obtain ⟨ms, undist, hlists, hms, hmap⟩ := applyChanges_redistributes s
  rw [hmap, OrderedMap.not_mem_iff, find?_changedMatchMap] at hnot
  have hunnamed : sid ∉ (redistribute ms s.matches_ undist).changedServices := by
    intro hin
    rw [if_pos ⟨sid, hin, rfl⟩] at hnot
    cases hnot
  rw [hms, redistribute_kept ms s.matches_ undist hunnamed, hlists, hbefore]

/-! ## Service ids are of type `int` -/

/-- The service a call is about has an `int` for its `sid`. -/
def IntSids : Call → Prop
  | .updateMatchService service | .removeMatchService service => IsInt service.sid
  | .checkServiceDistMap service _ => IsInt service.sid
  | _ => True

instance : (c : Call) → Decidable (IntSids c)
  | .updateMatchService service | .removeMatchService service => inferInstanceAs (Decidable (IsInt service.sid))
  | .checkServiceDistMap service _ => inferInstanceAs (Decidable (IsInt service.sid))
  | .createdMatches _ | .addUndistriteMatches _ | .cancelMatch _ _ | .updateDistMatchServices => .isTrue trivial

/-- What runs of such calls keep. -/
structure Known (s : CSMatchManager) : Prop where
  addedNew : AddedNew s
  ints : ∀ sid, WillServe sid s → IsInt sid

theorem known_initialized (now : Int) (stored : MatchMap) : Known (initialized now stored) := by
  refine ⟨fun c hc => absurd hc List.not_mem_nil, fun sid hsid => ?_⟩
  rcases hsid with ⟨hsid, -⟩ | ⟨c, hc, -⟩
  · exact absurd hsid (OrderedMap.not_mem_empty sid)
  · exact absurd hc List.not_mem_nil

/-- The event of a call is about an `int`. -/
theorem isInt_of_eventOf {s : CSMatchManager} {c : TimedCall} {sid : Int} {e : ServiceEvent} (hint : IntSids c.call)
    (he : eventOf sid s c = some e) : IsInt sid := by
  obtain ⟨now, call⟩ := c
  cases call with
  | updateMatchService service =>
    change (if service.sid = sid then _ else none) = some e at he
    split_ifs at he with hsid
    exact hsid ▸ hint
  | removeMatchService service =>
    change (if service.sid = sid then _ else none) = some e at he
    split_ifs at he with hsid
    exact hsid ▸ hint
  | checkServiceDistMap service mids =>
    change (if service.sid = sid ∧ service.sid ∉ s.matchServices_ ∧ mids ≠ [] then _ else none) = some e at he
    split_ifs at he with hsid
    exact hsid.1 ▸ hint
  | createdMatches ms => cases he
  | addUndistriteMatches mids => cases he
  | cancelMatch mid reason => cases he
  | updateDistMatchServices => cases he

theorem known_step {s : CSMatchManager} {c : TimedCall} (h : Known s) (hint : IntSids c.call) : Known (step s c) := by
  by_cases hno : NoPass s c
  · refine ⟨(willServe_step h.addedNew hno 0).1, fun sid hsid => ?_⟩
    have hserved := (willServe_step h.addedNew hno sid).2.mp hsid
    cases he : eventOf sid s c with
    | some e => exact isInt_of_eventOf hint he
    | none =>
      rw [he] at hserved
      exact h.ints sid hserved
  · obtain ⟨now, call⟩ := c
    cases call with
    | updateDistMatchServices =>
      have hpass : checkDistMatchServices s now = true := Bool.of_not_eq_false hno
      have hlog := changedServices_pass hpass
      refine ⟨fun c hc => ?_, fun sid hsid => h.ints sid ((mem_services_pass hpass sid).mp ?_)⟩
      · rw [hlog] at hc
        cases hc
      · rcases hsid with ⟨hsid, -⟩ | ⟨c, hc, -⟩
        · exact hsid
        · rw [hlog] at hc
          cases hc
    | createdMatches ms => exact absurd trivial hno
    | addUndistriteMatches mids => exact absurd trivial hno
    | updateMatchService service => exact absurd trivial hno
    | removeMatchService service => exact absurd trivial hno
    | checkServiceDistMap service mids => exact absurd trivial hno
    | cancelMatch mid reason => exact absurd trivial hno

theorem known_run {s : CSMatchManager} {calls : List TimedCall} (h : Known s) (hint : ∀ c ∈ calls, IntSids c.call) :
    Known (run step s calls) :=
  inv_run_along (q := Known) (fun _ _ hs hc => known_step hs hc) h (along_of_mem fun c hc _ => hint c hc)

/-! ## The map given to the callback -/

/-- The services after a pass are `int`s, and each entry of the map is the list of one of them. -/
theorem announced_lists {s : CSMatchManager} (h : Known s) : ∀ pair ∈ (applyChanges s).2.entries,
    ∃ sid ∈ (applyChanges s).1.matchServices_,
      pair = (toUnsigned sid, getDistMatch (applyChanges s).1.matchServices_ sid) := by
  intro pair hpair
  obtain ⟨sid, hsid, hkey⟩ := changedMatchMap_applyChanges s pair hpair
  refine ⟨sid, hsid, ?_⟩
  have hint : IsInt sid := h.ints sid (mem_applyChanges.mp hsid)
  have hfind := OrderedMap.find?_of_mem hpair
  obtain ⟨ms, undist, -, hms, hmap⟩ := applyChanges_redistributes s
  rw [hmap, find?_changedMatchMap, id_eq, hkey, toSigned_toUnsigned hint, ← hms] at hfind
  split_ifs at hfind
  exact (Option.some.inj hfind).symm

/-- **Every changed service is notified**: in a reachable state whose time gate is open the callback gets a map with every
service that is there after the pass with another list than before, with its new list under each key, and with services
of the map only. -/
theorem pass_announces (now₀ now : Int) (stored : MatchMap) (calls : List TimedCall)
    (hint : ∀ c ∈ calls, IntSids c.call)
    (hgate : checkDistMatchServices (run step (initialized now₀ stored) calls) now = true) :
    let s := run step (initialized now₀ stored) calls
    let s' := (updateDistMatchServices s now).1
    ∃ map, (updateDistMatchServices s now).2 = some map ∧
      (∀ sid ∈ s'.matchServices_, getDistMatch s'.matchServices_ sid ≠ getDistMatch s.matchServices_ sid →
        toUnsigned sid ∈ map) ∧
      ∀ pair ∈ map.entries, ∃ sid ∈ s'.matchServices_, pair = (toUnsigned sid, getDistMatch s'.matchServices_ sid) := by
  intro s s'
  have hknown : Known s := known_run (known_initialized now₀ stored) hint
  set t := stopTimerCheckDistMatchServices s with ht
  have hknown' : Known t := ⟨hknown.addedNew, hknown.ints⟩
  have hpass : updateDistMatchServices s now = ((applyChanges t).1, some (applyChanges t).2) := if_pos hgate
  have hs' : s' = (applyChanges t).1 := congrArg Prod.fst hpass
  rw [hs']
  refine ⟨(applyChanges t).2, congrArg Prod.snd hpass, fun sid hsid hne => ?_, announced_lists hknown'⟩
  by_contra hnot
  exact hne (applyChanges_kept hknown'.addedNew hsid hnot)

/-- Service `1` is registered and gets both matches. -/
theorem registered_announces :
    let s := run step (initialized 0 (sampleMatches [7, 8])) [⟨1, .updateMatchService { sid := 1 }⟩]
    let s' := (updateDistMatchServices s 40).1
    ∃ map, (updateDistMatchServices s 40).2 = some map ∧
      (∀ sid ∈ s'.matchServices_, getDistMatch s'.matchServices_ sid ≠ getDistMatch s.matchServices_ sid →
        toUnsigned sid ∈ map) ∧
      ∀ pair ∈ map.entries, ∃ sid ∈ s'.matchServices_, pair = (toUnsigned sid, getDistMatch s'.matchServices_ sid) :=
  pass_announces 0 40 (sampleMatches [7, 8]) [⟨1, .updateMatchService { sid := 1 }⟩] (by decide) (by decide)

end CSMatchManager

end AsioUtils.CentralServer
