import AsioUtils.CentralServer.CreateRequests

/-!
# The calls that the database thread posts

The handler of a create request posts a call of `createdMatches` to the main queue. The closure refers to a local of the
handler, `newmatch`, which is gone when the handler has returned.

* `PostedCalls`, `step` : the create requests, and beside each posted call whether its local is there;
* `Timely` : an accepted match has its slot for itself, and a call that runs finds its local;
* `onePerSlot_always` : in every run of such steps no call reads a local that is gone, and no two completed requests have
  their start time, type and fee in common.
-/

namespace AsioUtils.CentralServer

open AsioUtils.CPG Runs

/-- The create requests, with the lifetimes of the handlers' locals. -/
structure PostedCalls where
  creations : Creations
  /-- a handler has posted its call and has not returned -/
  inside : Bool := false
  /-- for each call in the main queue, whether the local it refers to is there -/
  locals : List Bool := []
  /-- a call has read a local that was gone: whatever follows is undefined -/
  dangling : Bool := false

namespace PostedCalls

/-- A step of one thread. -/
inductive Event
  /-- `/match/create` -/
  | create (now : Int) (profile : CPGMatchProfile)
  /-- the database thread handles its next message, up to the end of the handler -/
  | handle (replies : Replies)
  /-- it returns from the handler, which destroys the local -/
  | returns
  /-- the main queue runs its next call -/
  | created (now : Int)

def step (w : PostedCalls) (e : Event) : PostedCalls :=
  if w.dangling then w
  else
    match e with
    | .create now profile => { w with creations := w.creations.step (.create now profile) }
    | .handle replies =>
      if w.inside || w.creations.dbQueue.isEmpty then w
      else { w with creations := w.creations.step (.handle replies), inside := true, locals := w.locals ++ [true] }
    | .returns => { w with inside := false, locals := w.locals.map fun _ => false }
    | .created now =>
      match w.locals with
      | [] => w
      | true :: locals => { w with creations := w.creations.step (.created now), locals := locals }
      | false :: _ => { w with dangling := true }

/-- Before the first request. -/
def start (manager : CSMatchManager) (rows : MatchInfos) : PostedCalls where
  creations := .start manager rows

def Event.WellTyped : Event → Prop
  | .create _ m => m.WellTyped
  | _ => True

/-- Nothing undefined, and no two requests whose creation is complete have the same slot. -/
structure OnePerSlot (w : PostedCalls) : Prop where
  defined : w.dangling = false
  slots : w.creations.OnePerSlot

/-- An accepted match has its slot for itself (`Creations.Clear`), and a call that runs finds its local. -/
def Timely (w : PostedCalls) : Event → Prop
  | .create now m => w.creations.Clear (.create now m)
  | .created _ => w.locals.head? ≠ some false
  | .handle _ | .returns => True

/-- What every timely step keeps. -/
structure Inv (w : PostedCalls) : Prop where
  defined : w.dangling = false
  sound : w.creations.Sound
  slots : w.creations.slots.Nodup

theorem Inv.onePerSlot {w : PostedCalls} (h : w.Inv) : w.OnePerSlot := ⟨h.defined, .of_slots h.slots⟩

/-- A step of the create requests that is clear. -/
theorem Inv.creations {w : PostedCalls} (h : w.Inv) {e : Creations.Event} (he : e.WellTyped) (hclear : w.creations.Clear e) :
    (w.creations.step e).Sound ∧ (w.creations.step e).slots.Nodup :=
  ⟨h.sound.step e, (Creations.nodup_step_iff h.sound h.slots he).mpr hclear⟩

theorem Inv.step {w : PostedCalls} (h : w.Inv) {e : Event} (he : e.WellTyped) (htimely : w.Timely e) : (w.step e).Inv := by
  unfold PostedCalls.step
  rw [if_neg (by simp [h.defined])]
  cases e with
  | create now m =>
    obtain ⟨hsound, hslots⟩ := h.creations (e := .create now m) he htimely
    exact ⟨h.defined, hsound, hslots⟩
  | handle replies =>
    dsimp only
    split_ifs
    · exact h
    · obtain ⟨hsound, hslots⟩ := h.creations (e := .handle replies) trivial trivial
      exact ⟨h.defined, hsound, hslots⟩
  | returns => exact ⟨h.defined, h.sound, h.slots⟩
  | created now =>
    rcases hlocals : w.locals with _ | ⟨there, locals⟩
    · exact h
    · cases there with
      | false =>
        have hgone : w.locals.head? ≠ some false := htimely
        rw [hlocals] at hgone
        exact absurd rfl hgone
      | true =>
        obtain ⟨hsound, hslots⟩ := h.creations (e := .created now) trivial trivial
        exact ⟨h.defined, hsound, hslots⟩

theorem inv_start (manager : CSMatchManager) (rows : MatchInfos) : (start manager rows).Inv :=
  ⟨rfl, Creations.sound_start manager rows, .nil⟩

/-- **One match for each slot**: in every run in which each accepted match has its slot for itself when it is checked, and
each call runs before its handler has returned. -/
theorem onePerSlot_always {manager : CSMatchManager} {rows : MatchInfos} {es : List Event}
    (hes : ∀ e ∈ es, e.WellTyped) (h : Along step Timely (start manager rows) es) :
    Always step OnePerSlot (start manager rows) es := by
  have hvalid : Along step (fun w e => Event.WellTyped e ∧ Timely w e) (start manager rows) es :=
    (along_of_mem fun e he _ => hes e he).and h
  have hinv := inv_always (fun _ _ hw he => hw.step he.1 he.2) (inv_start manager rows) hvalid
  exact hinv.mono fun _ hw => hw.onePerSlot

/-- A request that is handled, and whose call runs while the handler is still there. -/
def onceRun : List Event :=
  [.create 0 (sampleMatch 0), .handle ⟨some 1, some .oldest⟩, .created 0, .returns]

theorem onceRun_onePerSlot : (∀ e ∈ onceRun, e.WellTyped) ∧ Along step Timely (start (.initialized 0 .empty) []) onceRun ∧
    Always step OnePerSlot (start (.initialized 0 .empty) []) onceRun := by
  have htyped : (sampleMatch 0).WellTyped := by decide
  have hes : ∀ e ∈ onceRun, e.WellTyped := by simp [onceRun, Event.WellTyped, htyped]
  have hlocals : (step (step (start (.initialized 0 .empty) []) (.create 0 (sampleMatch 0)))
      (.handle ⟨some 1, some .oldest⟩)).locals = [true] := rfl
  have htimely : Along step Timely (start (.initialized 0 .empty) []) onceRun := by
    refine ⟨?_, trivial, ?_, trivial, trivial⟩
    · simp [Timely, Creations.Clear, start, Creations.start]
    · show List.head? _ ≠ _
      rw [hlocals]
      simp
  exact ⟨hes, htimely, onePerSlot_always hes htimely⟩

/-- Two requests for the same match, the second while the first is on its way; each call runs in time. -/
def twiceRun : List Event :=
  [.create 0 (sampleMatch 0), .create 0 (sampleMatch 0), .handle ⟨some 1, some .oldest⟩, .created 0, .returns,
    .handle ⟨some 2, some .oldest⟩, .created 0, .returns]

/-- A request whose call runs when the handler has returned. -/
def lateRun : List Event :=
  [.create 0 (sampleMatch 0), .handle ⟨some 1, some .oldest⟩, .returns, .created 0]

/-- Both requests of the first run are completed, nothing being undefined; the second run reads a local that is gone. -/
theorem twiceRun_sameSlot :
    ((run step (start (.initialized 0 .empty) []) twiceRun).dangling = false ∧
      ¬OnePerSlot (run step (start (.initialized 0 .empty) []) twiceRun)) ∧
    ¬OnePerSlot (run step (start (.initialized 0 .empty) []) lateRun) := by
  obtain ⟨w₀, hw₀⟩ : ∃ w₀, w₀ = Creations.start (.initialized 0 .empty) [] := ⟨_, rfl⟩
  have hs : Creations.Sound w₀ := hw₀ ▸ Creations.sound_start _ _
  have hm : (Creations.Event.create 0 (sampleMatch 0)).WellTyped := (by decide : (sampleMatch 0).WellTyped)
  have hrun : (run step (start (.initialized 0 .empty) []) twiceRun).creations =
      run Creations.step w₀ [.create 0 (sampleMatch 0), .create 0 (sampleMatch 0), .handle ⟨some 1, some .oldest⟩,
        .created 0, .handle ⟨some 2, some .oldest⟩, .created 0] := by
    rw [hw₀]
    rfl
  have hcompleted : (run step (start (.initialized 0 .empty) []) twiceRun).creations.slots =
      [(5000, 1, 100), (5000, 1, 100)] := by
    rw [hrun]
    simp only [run_cons, run_nil]
    have hcreated : Creations.Event.WellTyped (.created 0) := trivial
    have hhandle : ∀ replies, Creations.Event.WellTyped (.handle replies) := fun _ => trivial
    rw [Creations.slots_step (((((hs.step _).step _).step _).step _).step _) hcreated,
      Creations.slots_step ((((hs.step _).step _).step _).step _) (hhandle _),
      Creations.slots_step (((hs.step _).step _).step _) hcreated,
      Creations.slots_step ((hs.step _).step _) (hhandle _), Creations.slots_step (hs.step _) hm,
      Creations.slots_step hs hm, hw₀]
    rfl
  refine ⟨⟨rfl, fun h => ?_⟩, fun h => ?_⟩
  · have hslots : (run step (start (.initialized 0 .empty) []) twiceRun).creations.completed.map Creations.slot =
        (run step (start (.initialized 0 .empty) []) twiceRun).creations.slots := by
      rw [Creations.slots, List.append_assoc]
      exact (List.append_nil _).symm
    have hnodup := h.slots
    rw [Creations.OnePerSlot, hslots, hcompleted] at hnodup
    exact absurd hnodup (by decide)
  · cases h.defined

end PostedCalls

end AsioUtils.CentralServer
