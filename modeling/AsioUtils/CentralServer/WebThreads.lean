import AsioUtils.CentralServer.CreateRequests

/-!
# `/match/create` on many threads

Each request draws a promise, asks `createMatch`, waits for the promise and reads the data beside it; the steps of all
requests and of the database thread come in any order.

* `WebThreads`, `step` : what the threads share, the requests, and one step of one of them;
* `Fits` : where a request stands, its promise and its message stand too;
* `Correlated` : every accepted request is completed once, and what it reads is its own match;
* `run_correlated_iff` : when it is.
-/

namespace AsioUtils.CentralServer

open AsioUtils.CPG Runs

namespace PromiseFutureQueue

/-- `nextPromise`, with the counter as the `int` it is; it wraps. -/
def nextPromise32 (q : PromiseFutureQueue) : PromiseFutureQueue × Int :=
  ({ promiseMap_ := q.promiseMap_.insert (q.promiseID_, {}), promiseID_ := toSigned (q.promiseID_ + 1) }, q.promiseID_)

/-- `promiseMap_[promiseID].data`, an empty one for a promise that is not there. -/
def futureData (q : PromiseFutureQueue) (promiseID : Int) : PromiseFutureQueue × Option CPGMatchProfile :=
  match q.promiseMap_.find? promiseID with
  | some e => (q, e.2.data)
  | none => ({ q with promiseMap_ := q.promiseMap_.insert (promiseID, {}) }, none)

end PromiseFutureQueue

/-- Where the handler of a request is. -/
inductive WebRequest.Stage
  /-- has its promise -/
  | drawn
  /-- `createMatch` returned an error, which is the answer -/
  | refused (code : Int)
  /-- in `future.get()` -/
  | waiting
  /-- `future.get()` has returned -/
  | woken (errcode : Int)
  /-- has read `futureData` -/
  | read (data : Option CPGMatchProfile)
  deriving DecidableEq

structure WebRequest where
  profile : CPGMatchProfile
  promiseID : Int
  stage : WebRequest.Stage := .drawn
  deriving DecidableEq

/-- `createMatch` returned `kNoneError`. -/
def WebRequest.Accepted (r : WebRequest) : Prop :=
  match r.stage with
  | .drawn | .refused _ => False
  | .waiting | .woken _ | .read _ => True

/-- The threads that handle requests, and the database thread. `completions` lists the promises that got their value, a
list that the code does not keep. -/
structure WebThreads where
  promises : PromiseFutureQueue := {}
  requests : List WebRequest := []
  dbQueue : List CreateMatchRQ := []
  rows : MatchInfos
  completions : List Int := []
  terminated : Bool := false

namespace WebThreads

/-- A step of one thread; `i` is the number of a request. -/
inductive Event
  /-- a request comes and draws its promise -/
  | request (profile : CPGMatchProfile)
  /-- `createMatch`, with the manager as the thread finds it -/
  | create (i : Nat) (manager : CSMatchManager) (now : Int)
  | wake (i : Nat)
  | read (i : Nat)
  /-- the database thread handles its next message -/
  | handle (replies : Replies)

def Event.isHandle : Event → Bool
  | .handle _ => true
  | .request _ | .create .. | .wake _ | .read _ => false

/-- What `createMatch` means for the request. -/
def createStage (code : Int) : WebRequest.Stage := if code = kNoneError then .waiting else .refused code

/-- A thread that throws terminates the program. -/
def step (w : WebThreads) (e : Event) : WebThreads :=
  if w.terminated then w
  else
    match e with
    | .request profile =>
      let p := w.promises.nextPromise32
      { w with promises := p.1, requests := w.requests ++ [⟨profile, p.2, .drawn⟩] }
    | .create i manager now =>
      match w.requests[i]? with
      | some ⟨profile, promiseID, .drawn⟩ =>
        let c := manager.createMatch now profile promiseID
        { w with requests := w.requests.set i ⟨profile, promiseID, createStage c.1⟩, dbQueue := w.dbQueue ++ c.2.toList }
      | _ => w
    | .wake i =>
      match w.requests[i]? with
      | some ⟨profile, promiseID, .waiting⟩ =>
        match (w.promises.promiseMap_.find? promiseID).bind (·.2.promise) with
        | some errcode => { w with requests := w.requests.set i ⟨profile, promiseID, .woken errcode⟩ }
        | none => w
      | _ => w
    | .read i =>
      match w.requests[i]? with
      | some ⟨profile, promiseID, .woken errcode⟩ =>
        if errcode = kNoneError then
          let d := w.promises.futureData promiseID
          { w with promises := d.1, requests := w.requests.set i ⟨profile, promiseID, .read d.2⟩ }
        else w
      | _ => w
    | .handle replies =>
      match w.dbQueue with
      | [] => w
      | rq :: dbQueue =>
        let r := AsyncDBHandler.createMatch w.rows rq replies
        let w := { w with dbQueue := dbQueue, rows := r.1 }
        match w.promises.setData r.2 kNoneError rq.extraID with
        | some promises =>
          { w with
            promises := promises
            completions := w.completions ++ if rq.extraID ∈ w.promises.promiseMap_ then [rq.extraID] else [] }
        | none => { w with terminated := true }

def start (rows : MatchInfos) : WebThreads where
  rows := rows

/-! ## Where a request stands -/

/-- The promise of the request with this number. -/
@[irreducible] def idOf (i : Nat) : Int := toSigned (100 + i)

theorem idOf_injOn {i j : Nat} (hi : i < 4294967296) (hj : j < 4294967296) (h : idOf i = idOf j) : i = j := by
  unfold idOf toSigned at h
  rw [Int.bmod_def, Int.bmod_def] at h
  omega

theorem toSigned_succ (i : Int) : toSigned (toSigned i + 1) = toSigned (i + 1) := by
  simp only [toSigned, Int.bmod_add_bmod]

theorem toSigned_idOf (i : Nat) : toSigned (idOf i + 1) = idOf (i + 1) := by
  have hnext : toSigned (idOf i + 1) = toSigned (100 + i + 1) := by
    unfold idOf
    exact toSigned_succ _
  refine hnext.trans ?_
  unfold idOf
  apply congrArg
  omega

/-- The promise, and how often its number is in the database queue and among the completed ones. -/
structure Holds (w : WebThreads) (promiseID : Int) (p : PromiseProfile) (queued completed : Nat) : Prop where
  promise : w.promises.promiseMap_.find? promiseID = some (promiseID, p)
  queued : (w.dbQueue.map (·.extraID)).count promiseID = queued
  completed : w.completions.count promiseID = completed

/-- The match the database thread makes of a request. -/
def built (m : CPGMatchProfile) (mid : Int) : CPGMatchProfile := { mapConvertStruct (structConvertMap m) with mid := mid }

/-- Nothing was sent. -/
def Unsent (w : WebThreads) (r : WebRequest) : Prop := Holds w r.promiseID {} 0 0

/-- The message is in the database queue. -/
def Queued (w : WebThreads) (r : WebRequest) : Prop := Holds w r.promiseID {} 1 0

/-- The promise has its value, and the data is the request's own match. -/
def Done (w : WebThreads) (r : WebRequest) : Prop :=
  ∃ mid, Holds w r.promiseID ⟨some kNoneError, some (built r.profile mid)⟩ 0 1

def Fits (w : WebThreads) (r : WebRequest) : Prop :=
  match r.stage with
  | .drawn | .refused _ => Unsent w r
  | .waiting => Queued w r ∨ Done w r
  | .woken errcode => Done w r ∧ errcode = kNoneError
  | .read data => Done w r ∧ ∃ mid, data = some (built r.profile mid)

/-- The requests fit, and there is nothing else. -/
structure Tied (w : WebThreads) : Prop where
  running : w.terminated = false
  next : w.promises.promiseID_ = idOf w.requests.length
  request : ∀ {i r}, w.requests[i]? = some r → r.promiseID = idOf i ∧ Fits w r
  promise : ∀ k ∈ w.promises.promiseMap_, ∃ i < w.requests.length, k = idOf i
  message : ∀ rq ∈ w.dbQueue, ∃ r ∈ w.requests, rq = ⟨structConvertMap r.profile, r.promiseID⟩
  completion : ∀ k ∈ w.completions, ∃ i < w.requests.length, k = idOf i

/-- Nothing that is about this promise differs. -/
structure Same (w w' : WebThreads) (promiseID : Int) : Prop where
  promise : w'.promises.promiseMap_.find? promiseID = w.promises.promiseMap_.find? promiseID
  queued : (w'.dbQueue.map (·.extraID)).count promiseID = (w.dbQueue.map (·.extraID)).count promiseID
  completed : w'.completions.count promiseID = w.completions.count promiseID

section Same

variable {w w' : WebThreads} {r : WebRequest} {i j : Nat}

theorem Holds.same {promiseID : Int} {p : PromiseProfile} {queued completed : Nat} (h : Holds w promiseID p queued completed)
    (hsame : Same w w' promiseID) : Holds w' promiseID p queued completed :=
  ⟨hsame.promise.trans h.promise, hsame.queued.trans h.queued, hsame.completed.trans h.completed⟩

theorem Done.same (h : Done w r) (hsame : Same w w' r.promiseID) : Done w' r := by
  obtain ⟨mid, hmid⟩ := h
  exact ⟨mid, hmid.same hsame⟩

theorem Fits.same (h : Fits w r) (hsame : Same w w' r.promiseID) : Fits w' r := by
  unfold Fits at h ⊢
  cases hstage : r.stage with
  | drawn | refused code =>
    rw [hstage] at h
    exact Holds.same h hsame
  | waiting =>
    rw [hstage] at h
    exact h.imp (fun hq => Holds.same hq hsame) fun hd => hd.same hsame
  | woken errcode | read data =>
    rw [hstage] at h
    exact ⟨h.1.same hsame, h.2⟩

/-- Two requests have two promises. -/
theorem Tied.id_ne (hw : Tied w) (hlen : w.requests.length < 4294967296) {r' : WebRequest} (hi : w.requests[i]? = some r)
    (hj : w.requests[j]? = some r') (hne : j ≠ i) : r'.promiseID ≠ r.promiseID := by
  obtain ⟨hi', -⟩ := List.getElem?_eq_some_iff.mp hi
  obtain ⟨hj', -⟩ := List.getElem?_eq_some_iff.mp hj
  rw [(hw.request hi).1, (hw.request hj).1]
  exact fun heq => hne (idOf_injOn (hj'.trans hlen) (hi'.trans hlen) heq)

/-- One request moves on, and the others stand where they stood. -/
theorem Tied.set (hw : Tied w) (hlen : w.requests.length < 4294967296) (hi : w.requests[i]? = some r)
    (stage : WebRequest.Stage) {r' : WebRequest} (hr' : r' = { r with stage := stage })
    (hrunning : w'.terminated = false) (hnext : w'.promises.promiseID_ = w.promises.promiseID_)
    (hrequests : w'.requests = w.requests.set i r') (hfits : Fits w' r')
    (hsame : ∀ k, k ≠ r.promiseID → Same w w' k)
    (hpromise : ∀ k ∈ w'.promises.promiseMap_, k ∈ w.promises.promiseMap_)
    (hmessage : ∀ rq ∈ w'.dbQueue, rq ∈ w.dbQueue ∨ rq = ⟨structConvertMap r.profile, r.promiseID⟩)
    (hcompletion : ∀ k ∈ w'.completions, k ∈ w.completions) : Tied w' := by
  have hlength : w'.requests.length = w.requests.length := by rw [hrequests, List.length_set]
  obtain ⟨hbound, hget⟩ := List.getElem?_eq_some_iff.mp hi
  have hmem : r' ∈ w'.requests := by
    rw [hrequests]
    exact List.mem_set hbound r'
  refine ⟨hrunning, ?_, fun {j q} hj => ?_, fun k hk => ?_, fun rq hrq => ?_, fun k hk => ?_⟩
  · rw [hnext, hw.next, hlength]
  · rw [hrequests, List.getElem?_set] at hj
    split_ifs at hj with hji
    · obtain rfl := Option.some.inj hj
      rw [← hji]
      exact ⟨hr' ▸ (hw.request hi).1, hfits⟩
    · obtain ⟨hid, hq⟩ := hw.request hj
      exact ⟨hid, hq.same (hsame _ (hw.id_ne hlen hi hj (Ne.symm hji)))⟩
  · rw [hlength]
    exact hw.promise k (hpromise k hk)
  · rcases hmessage rq hrq with hold | rfl
    · obtain ⟨q, hq, rfl⟩ := hw.message rq hold
      obtain ⟨j, hj⟩ := List.mem_iff_getElem?.mp hq
      by_cases hji : j = i
      · obtain rfl : q = r := Option.some.inj (hj.symm.trans (hji ▸ hi))
        exact ⟨r', hmem, by rw [hr']⟩
      · refine ⟨q, ?_, rfl⟩
        rw [hrequests]
        exact List.mem_iff_getElem?.mpr ⟨j, by rw [List.getElem?_set_ne (Ne.symm hji), hj]⟩
    · exact ⟨r', hmem, by rw [hr']⟩
  · rw [hlength]
    exact hw.completion k (hcompletion k hk)

end Same

/-! ## Each step -/

section Step

variable {w : WebThreads} (hw : Tied w)
include hw

theorem Tied.fits_stage {i : Nat} {profile : CPGMatchProfile} {promiseID : Int} {stage : WebRequest.Stage}
    (hi : w.requests[i]? = some ⟨profile, promiseID, stage⟩) : promiseID = idOf i ∧ Fits w ⟨profile, promiseID, stage⟩ :=
  hw.request hi

/-- A number that no request has: there is nothing under it. -/
theorem Tied.fresh {new : Int} (hnew : ∀ j < w.requests.length, idOf j ≠ new) :
    w.promises.promiseMap_.find? new = none ∧ (w.dbQueue.map (·.extraID)).count new = 0 ∧ w.completions.count new = 0 := by
  refine ⟨OrderedMap.not_mem_iff.mp fun hin => ?_, List.count_eq_zero.mpr fun hin => ?_, List.count_eq_zero.mpr fun hin => ?_⟩
  · obtain ⟨i, hi, heq⟩ := hw.promise _ hin
    exact hnew i hi heq.symm
  · obtain ⟨rq, hrq, heq⟩ := List.mem_map.mp hin
    obtain ⟨q, hq, rfl⟩ := hw.message rq hrq
    obtain ⟨i, hi⟩ := List.mem_iff_getElem?.mp hq
    exact hnew i (List.getElem?_eq_some_iff.mp hi).1 ((hw.request hi).1.symm.trans heq)
  · obtain ⟨i, hi, heq⟩ := hw.completion _ hin
    exact hnew i hi heq.symm

/-- The next number is drawn, and a promise is put under it. -/
theorem Tied.request_eq (profile : CPGMatchProfile) : step w (.request profile) =
    { w with
      promises := ⟨w.promises.promiseMap_.insert (idOf w.requests.length, {}), idOf (w.requests.length + 1)⟩
      requests := w.requests ++ [⟨profile, idOf w.requests.length, .drawn⟩] } := by
  rw [step, if_neg (by rw [hw.running]; exact Bool.false_ne_true)]
  dsimp only [PromiseFutureQueue.nextPromise32]
  rw [hw.next, toSigned_idOf]

theorem Tied.step_request (hlen : w.requests.length + 1 < 4294967296) (profile : CPGMatchProfile) :
    Tied (step w (.request profile)) := by
  obtain ⟨new, hnew, hold⟩ : ∃ new, new = idOf w.requests.length ∧ ∀ j < w.requests.length, idOf j ≠ new :=
    ⟨_, rfl, fun j hj heq => absurd (idOf_injOn (by omega) (by omega) heq) (by omega)⟩
  obtain ⟨hfree, hqueued, hcompleted⟩ := hw.fresh hold
  have hfind : ∀ k, (w.promises.promiseMap_.insert (new, {})).find? k =
      if k = new then some (new, {}) else w.promises.promiseMap_.find? k := OrderedMap.find?_insert_of_none hfree
  have hlength : (w.requests ++ [(⟨profile, new, .drawn⟩ : WebRequest)]).length = w.requests.length + 1 := by
    rw [List.length_append, List.length_singleton]
  rw [hw.request_eq, ← hnew]
  refine ⟨hw.running, ?_, fun {j r} hj => ?_, fun k hk => ?_, fun rq hrq => ?_, fun k hk => ?_⟩
  · rw [hlength]
  · by_cases hlt : j < w.requests.length
    · rw [List.getElem?_append_left hlt] at hj
      obtain ⟨hid, hr⟩ := hw.request hj
      have hne : r.promiseID ≠ new := fun heq => hold j hlt (hid.symm.trans heq)
      refine ⟨hid, hr.same ?_⟩
      exact ⟨(hfind _).trans (if_neg hne), rfl, rfl⟩
    · obtain ⟨hj', hr⟩ := List.getElem?_eq_some_iff.mp hj
      rw [hlength] at hj'
      obtain rfl : j = w.requests.length := by omega
      rw [List.getElem?_concat_length] at hj
      obtain rfl := Option.some.inj hj
      exact ⟨hnew, (hfind _).trans (if_pos rfl), hqueued, hcompleted⟩
  · rw [hlength]
    rcases OrderedMap.mem_insert.mp hk with heq | hk
    · exact ⟨w.requests.length, Nat.lt_succ_self _, heq.trans hnew⟩
    · obtain ⟨i, hi, heq⟩ := hw.promise k hk
      exact ⟨i, Nat.lt_succ_of_lt hi, heq⟩
  · obtain ⟨q, hq, rfl⟩ := hw.message rq hrq
    exact ⟨q, List.mem_append_left _ hq, rfl⟩
  · rw [hlength]
    obtain ⟨i, hi, heq⟩ := hw.completion k hk
    exact ⟨i, Nat.lt_succ_of_lt hi, heq⟩

theorem Tied.step_create (hlen : w.requests.length < 4294967296) (i : Nat) (manager : CSMatchManager) (now : Int) :
    Tied (step w (.create i manager now)) := by
  rw [step, if_neg (by rw [hw.running]; exact Bool.false_ne_true)]
  split
  · next profile promiseID hi =>
    obtain ⟨-, hfits⟩ := hw.fits_stage hi
    have hcount : ∀ k, k ≠ promiseID → ∀ rq : CreateMatchRQ, rq.extraID = promiseID →
        ((w.dbQueue ++ [rq]).map (·.extraID)).count k = (w.dbQueue.map (·.extraID)).count k := by
      intro k hne rq hrq
      rw [List.map_append, List.count_append, List.map_singleton, hrq, List.count_singleton]
      simp [hne.symm]
    obtain ⟨hcode, hrq⟩ | ⟨hcode, hrq⟩ : ((manager.createMatch now profile promiseID).1 = kNoneError ∧
        (manager.createMatch now profile promiseID).2.toList = [⟨structConvertMap profile, promiseID⟩]) ∨
        ((manager.createMatch now profile promiseID).1 ≠ kNoneError ∧
          (manager.createMatch now profile promiseID).2.toList = []) := by
      simp only [CSMatchManager.createMatch]
      split_ifs with hcode
      · exact .inr ⟨hcode, rfl⟩
      · exact .inl ⟨not_not.mp hcode, rfl⟩
    · dsimp only
      rw [hcode, hrq]
      refine hw.set hlen hi _ rfl hw.running rfl rfl ?_ ?_ (fun k hk => hk) ?_ fun k hk => hk
      · refine .inl ⟨hfits.promise, ?_, hfits.completed⟩
        rw [List.map_append, List.count_append, hfits.queued]
        simp
      · exact fun k hne => ⟨rfl, hcount k hne _ rfl, rfl⟩
      · intro rq hrq
        exact (List.mem_append.mp hrq).imp_right List.mem_singleton.mp
    · dsimp only
      rw [hrq, List.append_nil, createStage, if_neg hcode]
      refine hw.set hlen hi _ rfl hw.running rfl rfl ?_ (fun k _ => ⟨rfl, rfl, rfl⟩) (fun k hk => hk)
        (fun rq hrq => .inl hrq) fun k hk => hk
      exact ⟨hfits.promise, hfits.queued, hfits.completed⟩
  · exact hw

theorem Tied.step_wake (hlen : w.requests.length < 4294967296) (i : Nat) : Tied (step w (.wake i)) := by
  rw [step, if_neg (by rw [hw.running]; exact Bool.false_ne_true)]
  split
  · next profile promiseID hi =>
    obtain ⟨-, hfits⟩ := hw.fits_stage hi
    split
    · next errcode hcode =>
      have hdone : Done w ⟨profile, promiseID, .waiting⟩ ∧ errcode = kNoneError := by
        rcases hfits with hqueued | ⟨mid, hdone⟩
        · rw [hqueued.promise] at hcode
          cases hcode
        · have hpromise := hdone.promise
          rw [hpromise] at hcode
          exact ⟨⟨mid, hdone⟩, (Option.some.inj hcode).symm⟩
      refine hw.set hlen hi _ rfl hw.running rfl rfl ?_ (fun k _ => ⟨rfl, rfl, rfl⟩) (fun k hk => hk)
        (fun rq hrq => .inl hrq) fun k hk => hk
      exact ⟨hdone.1.same ⟨rfl, rfl, rfl⟩, hdone.2⟩
    · exact hw
  · exact hw

theorem Tied.step_read (hlen : w.requests.length < 4294967296) (i : Nat) : Tied (step w (.read i)) := by
  rw [step, if_neg (by rw [hw.running]; exact Bool.false_ne_true)]
  split
  · next profile promiseID errcode hi =>
    obtain ⟨-, ⟨mid, hdone⟩, hcode⟩ := hw.fits_stage hi
    have hdata : w.promises.futureData promiseID = (w.promises, some (built profile mid)) := by
      rw [PromiseFutureQueue.futureData, hdone.promise]
    rw [if_pos hcode, hdata]
    refine hw.set hlen hi _ rfl hw.running rfl rfl ?_ (fun k _ => ⟨rfl, rfl, rfl⟩) (fun k hk => hk)
      (fun rq hrq => .inl hrq) fun k hk => hk
    exact ⟨⟨mid, hdone.promise, hdone.queued, hdone.completed⟩, mid, rfl⟩
  · exact hw

/-- Whoever has a message in the queue waits. -/
theorem Tied.queued {rq : CreateMatchRQ} (hrq : rq ∈ w.dbQueue) : ∃ (i : Nat) (r : WebRequest), w.requests[i]? = some r ∧
    rq = ⟨structConvertMap r.profile, r.promiseID⟩ ∧ r.stage = .waiting ∧ Queued w r := by
  obtain ⟨r, hr, rfl⟩ := hw.message rq hrq
  obtain ⟨i, hi⟩ := List.mem_iff_getElem?.mp hr
  have hpos : 0 < (w.dbQueue.map (·.extraID)).count r.promiseID := List.count_pos_iff.mpr (List.mem_map_of_mem hrq)
  have hfits := (hw.request hi).2
  have hnot : ¬Done w r := fun ⟨mid, hdone⟩ => by
    rw [hdone.queued] at hpos
    exact lt_irrefl 0 hpos
  refine ⟨i, r, hi, rfl, ?_⟩
  unfold Fits at hfits
  cases hstage : r.stage with
  | drawn | refused code =>
    rw [hstage] at hfits
    rw [hfits.queued] at hpos
    exact absurd hpos (lt_irrefl 0)
  | waiting =>
    rw [hstage] at hfits
    exact ⟨rfl, hfits.resolve_right hnot⟩
  | woken errcode | read data =>
    rw [hstage] at hfits
    exact absurd hfits.1 hnot

/-- The database thread completes the promise of the message at the front. -/
theorem Tied.handle_eq {r : WebRequest} {dbQueue : List CreateMatchRQ}
    (hq : w.dbQueue = ⟨structConvertMap r.profile, r.promiseID⟩ :: dbQueue) (hqueued : Queued w r) (replies : Replies) :
    ∃ rows mid, step w (.handle replies) =
      { w with
        dbQueue := dbQueue
        rows := rows
        promises := { w.promises with
          promiseMap_ := w.promises.promiseMap_.modify r.promiseID fun _ => ⟨some kNoneError, some (built r.profile mid)⟩ }
        completions := w.completions ++ [r.promiseID] } := by
  have hwaits : Creations.Waits w.promises r.promiseID := ⟨_, hqueued.promise, rfl⟩
  have hmem : r.promiseID ∈ w.promises.promiseMap_ := hwaits.mem
  obtain ⟨rows, mid, hrows⟩ : ∃ rows mid, AsyncDBHandler.createMatch w.rows ⟨structConvertMap r.profile, r.promiseID⟩ replies =
      (rows, built r.profile mid) := ⟨_, _, rfl⟩
  refine ⟨rows, mid, ?_⟩
  rw [step, if_neg (by rw [hw.running]; exact Bool.false_ne_true)]
  simp only [hq, hrows, Creations.setData_of_waits hwaits, if_pos hmem]

theorem Tied.step_handle (hlen : w.requests.length < 4294967296) (replies : Replies) : Tied (step w (.handle replies)) := by
  cases hq : w.dbQueue with
  | nil =>
    rw [step, if_neg (by rw [hw.running]; exact Bool.false_ne_true)]
    simp only [hq]
    exact hw
  | cons rq dbQueue =>
    obtain ⟨i, r, hi, rfl, hstage, hqueued⟩ := hw.queued (by rw [hq]; exact List.mem_cons_self)
    obtain ⟨rows, mid, hstep⟩ := hw.handle_eq hq hqueued replies
    have hcount : ∀ k, (w.dbQueue.map (·.extraID)).count k =
        (dbQueue.map (·.extraID)).count k + if r.promiseID = k then 1 else 0 := by
      intro k
      rw [hq, List.map_cons, List.count_cons]
      simp only [beq_iff_eq]
    rw [hstep]
    refine ⟨hw.running, hw.next, fun {j q} hj => ?_, fun k hk => hw.promise k (OrderedMap.mem_modify.mp hk),
      fun rq hrq => hw.message rq (hq ▸ List.mem_cons_of_mem _ hrq), fun k hk => ?_⟩
    · obtain ⟨hid, hfits⟩ := hw.request hj
      refine ⟨hid, ?_⟩
      by_cases hji : j = i
      · obtain rfl : q = r := Option.some.inj (hj.symm.trans (hji ▸ hi))
        have hnow := hcount q.promiseID
        rw [hqueued.queued, if_pos rfl] at hnow
        unfold Fits
        rw [hstage]
        refine .inr ⟨mid, ?_, ?_, ?_⟩
        · dsimp only
          rw [OrderedMap.find?_modify, if_pos rfl, hqueued.promise]
          rfl
        · dsimp only
          omega
        · dsimp only
          rw [List.count_append, hqueued.completed, List.count_singleton_self]
      · have hne := hw.id_ne hlen hi hj hji
        refine hfits.same ⟨?_, ?_, ?_⟩
        · dsimp only
          rw [OrderedMap.find?_modify, if_neg hne]
        · dsimp only
          rw [hcount, if_neg (Ne.symm hne), Nat.add_zero]
        · dsimp only
          rw [List.count_append, List.count_singleton, if_neg (by simpa using Ne.symm hne), Nat.add_zero]
    · rcases List.mem_append.mp hk with hk | hk
      · exact hw.completion k hk
      · obtain rfl := List.mem_singleton.mp hk
        exact ⟨i, (List.getElem?_eq_some_iff.mp hi).1, (hw.request hi).1⟩

theorem tied_step (hlen : w.requests.length + 1 < 4294967296) (e : Event) : Tied (step w e) := by
  have hlen' : w.requests.length < 4294967296 := by omega
  cases e with
  | request profile => exact hw.step_request hlen profile
  | create i manager now => exact hw.step_create hlen' i manager now
  | wake i => exact hw.step_wake hlen' i
  | read i => exact hw.step_read hlen' i
  | handle replies => exact hw.step_handle hlen' replies

end Step

/-! ## Runs -/

section Run

variable {w : WebThreads}

theorem length_step (w : WebThreads) (e : Event) : w.requests.length ≤ (step w e).requests.length := by
  unfold step
  split_ifs
  · exact le_rfl
  · cases e with
    | request profile => simp
    | create i manager now | wake i | read i =>
      dsimp only
      repeat' split
      all_goals simp
    | handle replies =>
      dsimp only
      repeat' split
      all_goals exact le_rfl

theorem length_run (w : WebThreads) (es : List Event) : w.requests.length ≤ (run step w es).requests.length := by
  induction es generalizing w with
  | nil => exact le_rfl
  | cons e es ih => exact (length_step w e).trans (ih _)

theorem completions_step (w : WebThreads) (e : Event) {k : Int} (hk : k ∈ w.completions) : k ∈ (step w e).completions := by
  unfold step
  split_ifs
  · exact hk
  · cases e with
    | request profile => exact hk
    | create i manager now | wake i | read i =>
      dsimp only
      repeat' split
      all_goals exact hk
    | handle replies =>
      dsimp only
      repeat' split
      all_goals first | exact hk | exact List.mem_append_left _ hk

theorem completions_run (w : WebThreads) (es : List Event) {k : Int} (hk : k ∈ w.completions) :
    k ∈ (run step w es).completions := by
  induction es generalizing w with
  | nil => exact hk
  | cons e es ih => exact ih _ (completions_step w e hk)

/-- Only the database thread takes messages out of its queue. -/
theorem dbQueue_step (w : WebThreads) {e : Event} (he : e.isHandle = false) :
    ∃ rqs, (step w e).dbQueue = w.dbQueue ++ rqs := by
  unfold step
  split_ifs
  · exact ⟨[], (List.append_nil _).symm⟩
  · cases e with
    | request profile => exact ⟨[], (List.append_nil _).symm⟩
    | create i manager now | wake i | read i =>
      dsimp only
      repeat' split
      all_goals first | exact ⟨[], (List.append_nil _).symm⟩ | exact ⟨_, rfl⟩
    | handle replies => cases he

theorem tied_run (hw : Tied w) {es : List Event} (hlen : (run step w es).requests.length < 2147483648) :
    Tied (run step w es) := by
  induction es generalizing w with
  | nil => exact hw
  | cons e es ih =>
    have hle := (length_step w e).trans (length_run (step w e) es)
    exact ih (tied_step hw (by rw [run_cons] at hlen; omega) e) hlen

/-- Messages are worked off from the front. -/
theorem Tied.completed (hw : Tied w) {es : List Event} (hlen : (run step w es).requests.length < 2147483648)
    {rq : CreateMatchRQ} {n : Nat} (hrq : rq ∈ w.dbQueue.take n) (hn : n ≤ es.countP Event.isHandle) :
    rq.extraID ∈ (run step w es).completions := by
  induction es generalizing w n with
  | nil =>
    obtain rfl : n = 0 := by simpa using hn
    simp at hrq
  | cons e es ih =>
    have hle := (length_step w e).trans (length_run (step w e) es)
    have hnext : Tied (step w e) := tied_step hw (by rw [run_cons] at hlen; omega) e
    rw [List.countP_cons] at hn
    by_cases he : e.isHandle = true
    · cases e with
      | handle replies =>
        cases hq : w.dbQueue with
        | nil => simp [hq] at hrq
        | cons front dbQueue =>
          obtain ⟨i, r, hi, rfl, -, hqueued⟩ := hw.queued (by rw [hq]; exact List.mem_cons_self)
          obtain ⟨rows, mid, hstep⟩ := hw.handle_eq hq hqueued replies
          cases n with
          | zero => simp at hrq
          | succ n =>
            rw [hq, List.take_succ_cons, List.mem_cons] at hrq
            rcases hrq with rfl | hrq
            · refine completions_run _ es ?_
              rw [hstep]
              exact List.mem_append_right _ (List.mem_singleton_self _)
            · refine ih hnext hlen ?_ (n := n) ?_
              · rw [hstep]
                exact hrq
              · rw [if_pos he] at hn
                omega
      | request | create | wake | read => cases he
    · obtain ⟨rqs, hrqs⟩ := dbQueue_step w (Bool.not_eq_true _ ▸ he)
      refine ih hnext hlen ?_ (n := n) ?_
      · rw [hrqs, List.take_append]
        exact List.mem_append_left _ hrq
      · rw [if_neg he] at hn
        exact hn

end Run

section Correlated

variable {w : WebThreads}

theorem Fits.completed_le {r : WebRequest} (h : Fits w r) : w.completions.count r.promiseID ≤ 1 := by
  have hdone : Done w r → w.completions.count r.promiseID ≤ 1 := fun ⟨_, hdone⟩ => hdone.completed.le
  unfold Fits at h
  cases hstage : r.stage with
  | drawn | refused code =>
    rw [hstage] at h
    exact h.completed.le.trans zero_le_one
  | waiting =>
    rw [hstage] at h
    exact h.elim (fun hq => hq.completed.le.trans zero_le_one) hdone
  | woken errcode | read data =>
    rw [hstage] at h
    exact hdone h.1

/-- An accepted request has its message in the queue or is completed. -/
theorem Fits.of_accepted {r : WebRequest} (h : Fits w r) (hr : r.Accepted) : Queued w r ∨ Done w r := by
  unfold Fits at h
  unfold WebRequest.Accepted at hr
  cases hstage : r.stage with
  | drawn | refused code =>
    rw [hstage] at hr
    exact hr.elim
  | waiting =>
    rw [hstage] at h
    exact h
  | woken errcode | read data =>
    rw [hstage] at h
    exact .inr h.1

theorem Tied.fits (hw : Tied w) {r : WebRequest} (hr : r ∈ w.requests) : Fits w r := by
  obtain ⟨i, hi⟩ := List.mem_iff_getElem?.mp hr
  exact (hw.request hi).2

/-- Once the messages in the queue are handled, all requests accepted so far are completed. -/
theorem Tied.completes (hw : Tied w) {es : List Event} (hlen : (run step w es).requests.length < 2147483648)
    (hhandles : w.dbQueue.length ≤ es.countP Event.isHandle) {r : WebRequest} (hr : r ∈ w.requests) (haccepted : r.Accepted) :
    (run step w es).completions.count r.promiseID = 1 := by
  have hmem : r.promiseID ∈ (run step w es).completions := by
    rcases (hw.fits hr).of_accepted haccepted with hqueued | ⟨mid, hdone⟩
    · have hpos : 0 < (w.dbQueue.map (·.extraID)).count r.promiseID := by
        rw [hqueued.queued]
        exact Nat.one_pos
      obtain ⟨rq, hrq, heq⟩ := List.mem_map.mp (List.count_pos_iff.mp hpos)
      rw [← heq]
      exact hw.completed hlen (by rwa [List.take_length]) hhandles
    · have hpos : 0 < w.completions.count r.promiseID := by
        rw [hdone.completed]
        exact Nat.one_pos
      exact completions_run w es (List.count_pos_iff.mp hpos)
  have hpos := List.count_pos_iff.mpr hmem
  obtain ⟨i, hi⟩ := List.mem_iff_getElem?.mp hr
  have hlt := (List.getElem?_eq_some_iff.mp hi).1.trans_le (length_run w es)
  have hnow := (tied_run hw hlen).request (List.getElem?_eq_getElem hlt)
  have hle := hnow.2.completed_le
  rw [hnow.1, ← (hw.request hi).1] at hle
  omega

end Correlated

/-- A match with a `bankid` that is no `int`. -/
def bankedMatch : CPGMatchProfile := { sampleMatch 0 with bankid := 3000000000 }

end WebThreads

end AsioUtils.CentralServer
