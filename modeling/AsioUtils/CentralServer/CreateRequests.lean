import AsioUtils.CentralServer.Creation
import AsioUtils.CentralServer.Effects

/-!
# Create requests in any order

A request takes three steps on three threads: `/match/create` checks the match and sends it to the database thread; that
thread stores it, posts it to the main queue and completes the promise; the main queue enters it into `matches_`.

* `PromiseFutureQueue`, `Creations`, `step` : the threads' shared state, and one event at a time;
* `Sound` : whoever is in the database queue has a promise waiting;
* `nodup_step_iff` : when a step gives a start time, type and fee to a second request;
* `traced` : what a handled request leaves behind, whatever the database answered.
-/

namespace AsioUtils.CentralServer

open AsioUtils.CPG CPGMatchCreateFactory Runs

/-- What a `std::promise<int>` was set to, and the `boost::any` beside it. -/
structure PromiseProfile where
  promise : Option Int := none
  data : Option CPGMatchProfile := none
  deriving DecidableEq

structure PromiseFutureQueue where
  promiseMap_ : OrderedMap Int PromiseProfile id := .empty
  promiseID_ : Int := 100

namespace PromiseFutureQueue

def nextPromise (q : PromiseFutureQueue) : PromiseFutureQueue × Int :=
  ({ promiseMap_ := q.promiseMap_.insert (q.promiseID_, {}), promiseID_ := q.promiseID_ + 1 }, q.promiseID_)

/-- `none` : the promise has its value already, and `set_value` throws. -/
def setData (q : PromiseFutureQueue) (data : CPGMatchProfile) (value promiseID : Int) : Option PromiseFutureQueue :=
  match q.promiseMap_.find? promiseID with
  | none => some q
  | some e =>
    if e.2.promise.isSome then none
    else some { q with promiseMap_ := q.promiseMap_.modify promiseID fun _ => ⟨some value, some data⟩ }

end PromiseFutureQueue

/-- What the threads share. `mainQueue` holds the matches of the posted calls of `createdMatches`, which is what the calls
read if the handler's local is still there (`PostedCalls`); `completed` are those whose call has run, a list that the code
does not keep. -/
structure Creations where
  manager : CSMatchManager
  promises : PromiseFutureQueue := {}
  dbQueue : List CreateMatchRQ := []
  rows : MatchInfos
  mainQueue : List CPGMatchProfile := []
  completed : List CPGMatchProfile := []
  terminated : Bool := false

namespace Creations

/-- A step of one thread, with `time(NULL)` and the answers of the database. -/
inductive Event
  /-- `/match/create` -/
  | create (now : Int) (profile : CPGMatchProfile)
  /-- the database thread handles its next message -/
  | handle (replies : Replies)
  /-- the main queue runs its next call -/
  | created (now : Int)

/-- A thread that throws terminates the program. -/
def step (w : Creations) (e : Event) : Creations :=
  if w.terminated then w
  else
    match e with
    | .create now profile =>
      let p := w.promises.nextPromise
      { w with promises := p.1, dbQueue := w.dbQueue ++ (w.manager.createMatch now profile p.2).2.toList }
    | .handle replies =>
      match w.dbQueue with
      | [] => w
      | rq :: dbQueue =>
        let r := AsyncDBHandler.createMatch w.rows rq replies
        let w := { w with dbQueue := dbQueue, rows := r.1, mainQueue := w.mainQueue ++ [r.2] }
        match w.promises.setData r.2 kNoneError rq.extraID with
        | some promises => { w with promises := promises }
        | none => { w with terminated := true }
    | .created now =>
      match w.mainQueue with
      | [] => w
      | m :: mainQueue =>
        { w with
          manager := w.manager.createdMatches now [m]
          mainQueue := mainQueue
          completed := w.completed ++ [m] }

/-- Before the first request. -/
def start (manager : CSMatchManager) (rows : MatchInfos) : Creations where
  manager := manager
  rows := rows

/-! ## Every request has its promise -/

/-- A promise that has no value yet. -/
def Waits (q : PromiseFutureQueue) (promiseID : Int) : Prop :=
  ∃ e, q.promiseMap_.find? promiseID = some e ∧ e.2.promise = none

/-- A promise that has the value. -/
def Completed (q : PromiseFutureQueue) (promiseID value : Int) : Prop :=
  ∃ e, q.promiseMap_.find? promiseID = some e ∧ e.2.promise = some value

structure Sound (w : Creations) : Prop where
  running : w.terminated = false
  waits : ∀ rq ∈ w.dbQueue, Waits w.promises rq.extraID
  distinct : (w.dbQueue.map (·.extraID)).Nodup
  below : ∀ i ∈ w.promises.promiseMap_, i < w.promises.promiseID_

theorem Waits.mem {q : PromiseFutureQueue} {i : Int} (h : Waits q i) : i ∈ q.promiseMap_ :=
  OrderedMap.mem_iff.mpr ⟨_, h.choose_spec.1⟩

/-- A new promise leaves the others as they are. -/
theorem find?_nextPromise {q : PromiseFutureQueue} {i : Int} {e : Int × PromiseProfile}
    (h : q.promiseMap_.find? i = some e) : q.nextPromise.1.promiseMap_.find? i = some e := by
  rw [PromiseFutureQueue.nextPromise, OrderedMap.find?_insert, h]
  exact ite_self _

theorem waits_promiseID {q : PromiseFutureQueue} (hbelow : ∀ i ∈ q.promiseMap_, i < q.promiseID_) :
    Waits q.nextPromise.1 q.promiseID_ := by
  have hnone : q.promiseMap_.find? q.promiseID_ = none :=
    OrderedMap.not_mem_iff.mp fun hmem => lt_irrefl _ (hbelow _ hmem)
  exact ⟨(q.promiseID_, {}), (OrderedMap.find?_insert_of_none hnone _).trans (if_pos rfl), rfl⟩

/-- Completing a promise that waits. -/
theorem setData_of_waits {q : PromiseFutureQueue} {i : Int} (h : Waits q i) (data : CPGMatchProfile) (value : Int) :
    q.setData data value i = some { q with promiseMap_ := q.promiseMap_.modify i fun _ => ⟨some value, some data⟩ } := by
  obtain ⟨e, he, hp⟩ := h
  simp [PromiseFutureQueue.setData, he, hp]

section Step

variable {w : Creations}

/-- What a request sends to the database thread. -/
theorem createMatch_toList (s : CSMatchManager) (now : Int) (m : CPGMatchProfile) (promiseID : Int) :
    (s.createMatch now m promiseID).2.toList =
      if s.createMatchValid now m = kNoneError then [⟨structConvertMap m, promiseID⟩] else [] := by
  rw [CSMatchManager.createMatch]
  split_ifs <;> simp_all

theorem step_create (hw : Sound w) (now : Int) (m : CPGMatchProfile) :
    step w (.create now m) =
      { w with
        promises := w.promises.nextPromise.1
        dbQueue := w.dbQueue ++
          if w.manager.createMatchValid now m = kNoneError then [⟨structConvertMap m, w.promises.promiseID_⟩] else [] } := by
  rw [step, if_neg (by simp [hw.running])]
  dsimp only
  rw [createMatch_toList]
  rfl

theorem step_handle (hw : Sound w) {rq : CreateMatchRQ} {dbQueue : List CreateMatchRQ} (hq : w.dbQueue = rq :: dbQueue)
    (replies : Replies) :
    step w (.handle replies) =
      { w with
        dbQueue := dbQueue
        rows := (AsyncDBHandler.createMatch w.rows rq replies).1
        mainQueue := w.mainQueue ++ [(AsyncDBHandler.createMatch w.rows rq replies).2]
        promises := { w.promises with
          promiseMap_ := w.promises.promiseMap_.modify rq.extraID fun _ =>
            ⟨some kNoneError, some (AsyncDBHandler.createMatch w.rows rq replies).2⟩ } } := by
  have hwaits : Waits w.promises rq.extraID := hw.waits rq (by simp [hq])
  rw [step, if_neg (by simp [hw.running])]
  simp only [hq, setData_of_waits hwaits]

theorem step_handle_nil (hw : Sound w) (hq : w.dbQueue = []) (replies : Replies) : step w (.handle replies) = w := by
  rw [step, if_neg (by simp [hw.running])]
  simp only [hq]

theorem step_created (hw : Sound w) {m : CPGMatchProfile} {mainQueue : List CPGMatchProfile}
    (hq : w.mainQueue = m :: mainQueue) (now : Int) :
    step w (.created now) =
      { w with
        manager := w.manager.createdMatches now [m]
        mainQueue := mainQueue
        completed := w.completed ++ [m] } := by
  rw [step, if_neg (by simp [hw.running])]
  simp only [hq]

theorem step_created_nil (hw : Sound w) (hq : w.mainQueue = []) (now : Int) : step w (.created now) = w := by
  rw [step, if_neg (by simp [hw.running])]
  simp only [hq]

theorem sound_start (manager : CSMatchManager) (rows : MatchInfos) : Sound (start manager rows) :=
  ⟨rfl, by simp [start], by simp [start], by simp [start]⟩

theorem Sound.create (hw : Sound w) (now : Int) (m : CPGMatchProfile) : Sound (step w (.create now m)) := by
  rw [step_create hw]
  have hnew : ∀ rq ∈ w.dbQueue, rq.extraID ≠ w.promises.promiseID_ :=
    fun rq hrq => (hw.below _ (hw.waits rq hrq).mem).ne
  refine ⟨hw.running, fun rq hrq => ?_, ?_, fun i hi => ?_⟩
  · rcases List.mem_append.mp hrq with hrq | hrq
    · obtain ⟨e, he, hp⟩ := hw.waits rq hrq
      exact ⟨e, find?_nextPromise he, hp⟩
    · split_ifs at hrq with hcode
      · rw [List.mem_singleton.mp hrq]
        exact waits_promiseID hw.below
      · cases hrq
  · dsimp only
    split_ifs with hcode
    · rw [List.map_append, List.map_singleton, ← List.concat_eq_append]
      refine hw.distinct.concat fun hin => ?_
      obtain ⟨rq, hrq, heq⟩ := List.mem_map.mp hin
      exact hnew rq hrq heq
    · rw [List.append_nil]
      exact hw.distinct
  · show i < w.promises.promiseID_ + 1
    rcases OrderedMap.mem_insert.mp hi with rfl | hi
    · exact lt_add_one _
    · exact (hw.below i hi).trans (lt_add_one _)

theorem Sound.handle (hw : Sound w) (replies : Replies) : Sound (step w (.handle replies)) := by
  cases hq : w.dbQueue with
  | nil => rwa [step_handle_nil hw hq]
  | cons rq dbQueue =>
    rw [step_handle hw hq]
    have hdistinct := hw.distinct
    rw [hq] at hdistinct
    obtain ⟨hrq, hdistinct⟩ := List.nodup_cons.mp hdistinct
    refine ⟨hw.running, fun rq' hrq' => ?_, hdistinct, fun i hi => hw.below i (OrderedMap.mem_modify.mp hi)⟩
    obtain ⟨e, he, hp⟩ := hw.waits rq' (hq ▸ List.mem_cons_of_mem _ hrq')
    refine ⟨e, ?_, hp⟩
    have hne : rq'.extraID ≠ rq.extraID := fun heq => hrq (List.mem_map.mpr ⟨rq', hrq', heq⟩)
    rw [OrderedMap.find?_modify, if_neg hne, he]

theorem Sound.created (hw : Sound w) (now : Int) : Sound (step w (.created now)) := by
  cases hq : w.mainQueue with
  | nil => rwa [step_created_nil hw hq]
  | cons m mainQueue =>
    rw [step_created hw hq]
    exact ⟨hw.running, hw.waits, hw.distinct, hw.below⟩

theorem Sound.step (hw : Sound w) (e : Event) : Sound (step w e) := by
  cases e with
  | create now m => exact hw.create now m
  | handle replies => exact hw.handle replies
  | created now => exact hw.created now

/-- **No run throws**, and whoever waits for the database has its own promise waiting. -/
theorem Sound.run (hw : Sound w) (es : List Event) : Sound (run Creations.step w es) :=
  inv_run (q := Sound) (fun _ e h => Sound.step h e) hw es

end Step

/-! ## One match for each slot -/

/-- The attributes in which matches are to differ. -/
def slot (m : CPGMatchProfile) : Int × Int × Int := (m.start_time, m.match_type, m.entryfee)

/-- No two requests whose creation is complete have the same slot. -/
def OnePerSlot (w : Creations) : Prop := (w.completed.map slot).Nodup

/-- The match in a message to the database thread. -/
def requestSlot (rq : CreateMatchRQ) : Int × Int × Int := slot (mapConvertStruct rq.properties)

/-- The slots of all requests accepted so far, in the order in which they complete. -/
def slots (w : Creations) : List (Int × Int × Int) :=
  w.completed.map slot ++ w.mainQueue.map slot ++ w.dbQueue.map requestSlot

def Event.WellTyped : Event → Prop
  | .create _ m => m.WellTyped
  | _ => True

/-- An accepted match has its slot for itself: no request on its way has it, and no completed match that has it was
overwritten in `matches_`. -/
def Clear (w : Creations) : Event → Prop
  | .create now m => w.manager.createMatchValid now m = kNoneError →
    (∀ m' ∈ w.mainQueue, slot m' ≠ slot m) ∧ (∀ rq ∈ w.dbQueue, requestSlot rq ≠ slot m) ∧
      ∀ m' ∈ w.completed, slot m' = slot m → w.manager.getMatch m'.mid = some m'
  | _ => True

theorem slot_mapConvertStruct {m : CPGMatchProfile} (hm : m.WellTyped) :
    slot (mapConvertStruct (structConvertMap m)) = slot m := by
  rw [mapConvertStruct_structConvertMap hm]
  rfl

section Slots

variable {w : Creations}

/-- The slot an event adds. -/
def newSlots (w : Creations) : Event → List (Int × Int × Int)
  | .create now m => if w.manager.createMatchValid now m = kNoneError then [slot m] else []
  | .handle _ | .created _ => []

theorem slots_step (hw : Sound w) {e : Event} (he : e.WellTyped) : slots (step w e) = slots w ++ newSlots w e := by
  cases e with
  | create now m =>
    rw [step_create hw, slots, slots, newSlots, List.append_assoc _ _ (ite _ _ _), List.map_append]
    split_ifs
    · rw [← slot_mapConvertStruct he]
      rfl
    · rfl
  | handle replies =>
    cases hq : w.dbQueue with
    | nil => rw [step_handle_nil hw hq, newSlots, List.append_nil]
    | cons rq dbQueue =>
      rw [step_handle hw hq, slots, slots, hq]
      simp [newSlots, AsyncDBHandler.createMatch, requestSlot, slot]
  | created now =>
    cases hq : w.mainQueue with
    | nil => rw [step_created_nil hw hq, newSlots, List.append_nil]
    | cons m mainQueue =>
      rw [step_created hw hq, slots, slots, hq]
      simp [newSlots]

/-- What `createMatch` accepts. -/
theorem createMatchValid_iff {s : CSMatchManager} {now : Int} {m : CPGMatchProfile} :
    s.createMatchValid now m = kNoneError ↔
      now + 60 ≤ m.start_time ∧ ∀ e ∈ s.matches_.entries, slot e.2 ≠ slot m := by
  have hany : (s.matches_.entries.any fun e =>
      e.2.start_time = m.start_time ∧ e.2.match_type = m.match_type ∧ e.2.entryfee = m.entryfee) = false ↔
      ∀ e ∈ s.matches_.entries, slot e.2 ≠ slot m := by
    simp [slot]
  rw [← hany, CSMatchManager.createMatchValid]
  generalize (s.matches_.entries.any _) = found
  by_cases htime : m.start_time < now + 60
  · simp [htime, kCreateMatch_ErrorTimeOut, kNoneError, not_le.mpr htime]
  · cases found <;> simp [htime, kCreateMatch_ErrorHasExist, kNoneError, not_lt.mp htime]

theorem slot_ne_of_valid {now : Int} {m : CPGMatchProfile} (h : w.manager.createMatchValid now m = kNoneError) {mid : Int}
    {m' : CPGMatchProfile} (hget : w.manager.getMatch mid = some m') : slot m' ≠ slot m := by
  obtain ⟨e, he, rfl⟩ := Option.map_eq_some_iff.mp hget
  exact (createMatchValid_iff.mp h).2 e (OrderedMap.mem_of_find? he)

/-- What the check sees decides whether the new slot is a second one. -/
theorem nodup_step_iff (hw : Sound w) (hs : (slots w).Nodup) {e : Event} (he : e.WellTyped) :
    (slots (step w e)).Nodup ↔ Clear w e := by
  rw [slots_step hw he]
  cases e with
  | handle replies => simpa [newSlots, Clear] using hs
  | created now => simpa [newSlots, Clear] using hs
  | create now m =>
    rw [newSlots, Clear]
    split_ifs with hcode
    · have hcompleted : (∀ m' ∈ w.completed, slot m' = slot m → w.manager.getMatch m'.mid = some m') ↔
          ∀ m' ∈ w.completed, slot m' ≠ slot m :=
        forall₂_congr fun m' _ => ⟨fun h heq => slot_ne_of_valid hcode (h heq) heq, fun h heq => absurd heq h⟩
      rw [hcompleted, List.nodup_append_comm, List.singleton_append, List.nodup_cons, and_iff_left hs, slots]
      simp only [List.mem_append, List.mem_map, hcode, true_imp_iff]
      grind
    · simpa [hcode] using hs

theorem OnePerSlot.of_slots (h : (slots w).Nodup) : OnePerSlot w := by
  rw [slots, List.append_assoc] at h
  exact (List.nodup_append.mp h).1

end Slots

/-! ## What a request leaves behind -/

def Event.isCreated : Event → Bool
  | .created _ => true
  | .create .. | .handle _ => false

/-- The next request fails: its `INSERT` does, or its `mid` cannot be read back. -/
structure Fails (w : Creations) (rq : CreateMatchRQ) (replies : Replies) : Prop where
  next : w.dbQueue.head? = some rq
  fails : replies.insert = none ∨ (AsyncDBHandler.createMatch w.rows rq replies).2.mid = INVALID_MID

/-- The posted call changed no match, and the promise was completed with an error. -/
structure NoTrace (before after : Creations) (promiseID : Int) : Prop where
  matches_ : after.manager.matches_ = before.manager.matches_
  undistMatches_ : after.manager.undistMatches_ = before.manager.undistMatches_
  code : ∃ code, Completed after.promises promiseID code ∧ code ≠ kNoneError

section Trace

variable {w : Creations}

theorem Completed.code_unique {q : PromiseFutureQueue} {i v v' : Int} (h : Completed q i v) (h' : Completed q i v') :
    v = v' := by
  obtain ⟨e, he, hv⟩ := h
  obtain ⟨e', he', hv'⟩ := h'
  rw [he, Option.some.injEq] at he'
  subst he'
  rwa [hv, Option.some.injEq] at hv'

/-- A promise keeps its value. -/
theorem Completed.step (hw : Sound w) {i value : Int} (h : Completed w.promises i value) (e : Event) :
    Completed (Creations.step w e).promises i value := by
  cases e with
  | create now m =>
    rw [step_create hw]
    obtain ⟨p, hp, hvalue⟩ := h
    exact ⟨p, find?_nextPromise hp, hvalue⟩
  | handle replies =>
    cases hq : w.dbQueue with
    | nil => rwa [step_handle_nil hw hq]
    | cons rq dbQueue =>
      rw [step_handle hw hq]
      obtain ⟨p, hp, hvalue⟩ := h
      have hne : i ≠ rq.extraID := by
        rintro rfl
        obtain ⟨p', hp', hnone⟩ := hw.waits rq (by simp [hq])
        rw [hp, Option.some.injEq] at hp'
        rw [← hp', hvalue] at hnone
        cases hnone
      refine ⟨p, ?_, hvalue⟩
      rw [OrderedMap.find?_modify, if_neg hne, hp]
  | created now =>
    cases hq : w.mainQueue with
    | nil => rwa [step_created_nil hw hq]
    | cons m mainQueue =>
      rw [step_created hw hq]
      exact h

theorem Completed.run (hw : Sound w) {i value : Int} (h : Completed w.promises i value) (es : List Event) :
    Completed (run Creations.step w es).promises i value := by
  induction es generalizing w with
  | nil => exact h
  | cons e es ih => exact ih (hw.step e) (h.step hw e)

/-- Calls leave the main queue at the front and come to it at the back. -/
theorem mainQueue_run (hw : Sound w) (fs : List Event) (hfs : fs.countP Event.isCreated ≤ w.mainQueue.length) :
    ∃ more, (run step w fs).mainQueue = w.mainQueue.drop (fs.countP Event.isCreated) ++ more := by
  induction fs generalizing w with
  | nil => exact ⟨[], by simp⟩
  | cons f fs ih =>
    cases f with
    | create now m =>
      have hmain : (step w (.create now m)).mainQueue = w.mainQueue := by rw [step_create hw]
      obtain ⟨more, hmore⟩ := ih (hw.step (.create now m)) (by rw [hmain]; exact hfs)
      exact ⟨more, by rw [run_cons, hmore, hmain]; rfl⟩
    | handle replies =>
      obtain ⟨new, hmain⟩ : ∃ new, (step w (.handle replies)).mainQueue = w.mainQueue ++ new := by
        cases hq : w.dbQueue with
        | nil => exact ⟨[], by rw [step_handle_nil hw hq, List.append_nil]⟩
        | cons rq dbQueue => exact ⟨_, by rw [step_handle hw hq]⟩
      have hlen : fs.countP Event.isCreated ≤ w.mainQueue.length := hfs
      obtain ⟨more, hmore⟩ := ih (hw.step (.handle replies)) (by rw [hmain, List.length_append]; omega)
      refine ⟨new ++ more, ?_⟩
      rw [run_cons, hmore, hmain, List.drop_append_of_le_length hlen, List.append_assoc]
      rfl
    | created now =>
      rw [List.countP_cons_of_pos rfl] at hfs ⊢
      cases hq : w.mainQueue with
      | nil => simp [hq] at hfs
      | cons m mainQueue =>
        have hmain : (step w (.created now)).mainQueue = mainQueue := by rw [step_created hw hq]
        rw [hq, List.length_cons] at hfs
        obtain ⟨more, hmore⟩ := ih (hw.step (.created now)) (by rw [hmain]; omega)
        exact ⟨more, by rw [run_cons, hmore, hmain, List.drop_succ_cons]⟩

/-- The handler completes the promise without an error. -/
theorem completed_handle (hw : Sound w) {rq : CreateMatchRQ} {dbQueue : List CreateMatchRQ}
    (hq : w.dbQueue = rq :: dbQueue) (replies : Replies) :
    Completed (step w (.handle replies)).promises rq.extraID kNoneError := by
  obtain ⟨e, he, -⟩ := hw.waits rq (by simp [hq])
  rw [step_handle hw hq]
  refine ⟨(e.1, ⟨some kNoneError, some (AsyncDBHandler.createMatch w.rows rq replies).2⟩), ?_, rfl⟩
  rw [OrderedMap.find?_modify, if_pos rfl, he]
  rfl

/-- `createdMatches` enters the match. -/
theorem created_traces (s : CSMatchManager) (now : Int) (m : CPGMatchProfile) :
    (s.createdMatches now [m]).getMatch m.mid = some m ∧ m.mid ∈ (s.createdMatches now [m]).undistMatches_ := by
  constructor
  · show ((s.matches_.assign m.mid m).find? m.mid).map Prod.snd = some m
    rw [OrderedMap.find?_assign]
    exact congrArg (Option.map Prod.snd) (if_pos rfl)
  · exact CSMatchManager.mem_undist_add.mpr (.inr (by simp))

/-- **Whatever the database answered**, the promise is completed with `kNoneError`, and once the posted call has run the
match is in `matches_` and in the pool under the `mid` it was given. -/
theorem traced (hw : Sound w) {rq : CreateMatchRQ} {replies : Replies} (hq : w.dbQueue.head? = some rq)
    (fs : List Event) (hfs : fs.countP Event.isCreated = w.mainQueue.length) (now : Int) :
    let m := (AsyncDBHandler.createMatch w.rows rq replies).2
    let after := step (run step w (.handle replies :: fs)) (.created now)
    after.manager.getMatch m.mid = some m ∧ m.mid ∈ after.manager.undistMatches_ ∧
      Completed after.promises rq.extraID kNoneError := by
  intro m after
  obtain ⟨dbQueue, hdb⟩ := List.head?_eq_some_iff.mp hq
  have hhandled : Sound (step w (.handle replies)) := hw.step _
  have hsound : Sound (run step w (.handle replies :: fs)) := hhandled.run fs
  have hpost : (step w (.handle replies)).mainQueue = w.mainQueue ++ [m] := by rw [step_handle hw hdb]
  obtain ⟨more, hmore⟩ := mainQueue_run hhandled fs (by rw [hpost, List.length_append]; omega)
  have hmain : (run step w (.handle replies :: fs)).mainQueue = m :: more := by
    rw [run_cons, hmore, hpost, hfs, List.drop_left, List.singleton_append]
  have hcompleted : Completed after.promises rq.extraID kNoneError :=
    ((completed_handle hw hdb replies).run hhandled fs).step hsound _
  have hmanager : after.manager = (run step w (.handle replies :: fs)).manager.createdMatches now [m] := by
    show (step _ _).manager = _
    rw [step_created hsound hmain]
  rw [hmanager]
  exact ⟨(created_traces _ now m).1, (created_traces _ now m).2, hcompleted⟩

end Trace

/-- **A failed creation leaves a trace**: in no run does a request that fails leave the matches alone and complete its
promise with an error. `fs` is what happens until the main queue reaches the posted call. -/
theorem failed_traced {manager : CSMatchManager} {rows : MatchInfos} {es : List Event} {rq : CreateMatchRQ}
    {replies : Replies} (hfails : Fails (run step (start manager rows) es) rq replies) (fs : List Event)
    (hfs : fs.countP Event.isCreated = (run step (start manager rows) es).mainQueue.length) (now : Int) :
    let w := run step (start manager rows) es
    let m := (AsyncDBHandler.createMatch w.rows rq replies).2
    let before := run step w (.handle replies :: fs)
    let after := step before (.created now)
    ¬NoTrace before after rq.extraID ∧
      after.manager.getMatch m.mid = some m ∧ m.mid ∈ after.manager.undistMatches_ := by
  intro w m before after
  obtain ⟨hmatch, hundist, hcompleted⟩ := traced ((sound_start manager rows).run es) hfails.next fs hfs now
  refine ⟨fun h => ?_, hmatch, hundist⟩
  obtain ⟨code, hcode, hne⟩ := h.code
  exact hne (hcode.code_unique hcompleted)

/-- One request on its way, while an older match has its start time and type. -/
def waitingRun : Creations :=
  run step (start (.initialized 0 .empty) [sampleMatch 7]) [.create 0 { sampleMatch 0 with entryfee := 200 }]

/-- Its message. -/
def waitingRQ : CreateMatchRQ := ⟨structConvertMap { sampleMatch 0 with entryfee := 200 }, 100⟩

theorem failed_traced_insert : Fails waitingRun waitingRQ ⟨none, some .oldest⟩ ∧
    ¬NoTrace (step waitingRun (.handle ⟨none, some .oldest⟩))
      (step (step waitingRun (.handle ⟨none, some .oldest⟩)) (.created 1)) 100 := by
  have hfails : Fails waitingRun waitingRQ ⟨none, some .oldest⟩ := ⟨rfl, .inl rfl⟩
  exact ⟨hfails, (failed_traced hfails [] rfl 1).1⟩

/-- When both statements fail, the match is entered under `INVALID_MID` and the caller is told that all is well. -/
theorem failed_invalidMid :
    let before := step waitingRun (.handle ⟨none, none⟩)
    let after := step before (.created 1)
    Fails waitingRun waitingRQ ⟨none, none⟩ ∧ (after.manager.getMatch INVALID_MID).isSome ∧
      INVALID_MID ∈ after.manager.undistMatches_ ∧ Completed after.promises 100 kNoneError ∧
      ¬NoTrace before after 100 := by
  intro before after
  have hfails : Fails waitingRun waitingRQ ⟨none, none⟩ := ⟨rfl, .inl rfl⟩
  have hw : Sound waitingRun := (sound_start _ _).run _
  obtain ⟨hmatch, hundist, hcompleted⟩ := traced hw hfails.next [] rfl 1
  refine ⟨hfails, Option.isSome_iff_exists.mpr ⟨_, hmatch⟩, hundist, hcompleted, fun h => ?_⟩
  obtain ⟨code, hcode, hne⟩ := h.code
  exact hne (hcode.code_unique hcompleted)

end Creations

end AsioUtils.CentralServer
