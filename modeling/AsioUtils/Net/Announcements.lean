import AsioUtils.Lib.Runs
import AsioUtils.Net.ServiceKernel

/-!
# The services a server is told about

The central server announces services, in its reply to a registration and in later notifies; each announcement is a call
of `addNewConnect`. The entries are keyed by session uuids, and are to be one for each endpoint.

* `Told`, `Event`, `step` : the kernel with the last announcement of each endpoint, a call at a time; between two calls
  the session manager changes as it may;
* `OnePerEndpoint` : one entry, one connection, and the announced sid for each endpoint;
* `onePerEndpoint_iff` : when that holds throughout. `checkConnectService` returns `INVALID_UUID` for an endpoint without
  an entry, and a session that the pool refuses has this uuid too.
-/

namespace AsioUtils.Net

open Runs

structure ServiceEndpoint where
  type : Int16
  port : UInt16
  ip : String
  deriving DecidableEq, Repr

def ServiceConfig.endpoint (c : ServiceConfig) : ServiceEndpoint := ⟨c.type, c.port, c.ip⟩

theorem ServiceConfig.isAt_iff {c : ServiceConfig} {p : ServiceEndpoint} :
    c.isAt p.type p.port p.ip = true ↔ c.endpoint = p := by
  obtain ⟨type, port, ip⟩ := p
  simp only [isAt, endpoint, Bool.and_eq_true, decide_eq_true_eq, ServiceEndpoint.mk.injEq, and_assoc]

namespace ServiceKernel

/-- There is an entry with this endpoint. -/
def HasEntry (k : ServiceKernel) (p : ServiceEndpoint) : Prop := ∃ e ∈ k.connectServices_.entries, e.2.endpoint = p

instance (k : ServiceKernel) (p : ServiceEndpoint) : Decidable (k.HasEntry p) :=
  inferInstanceAs (Decidable (∃ e ∈ k.connectServices_.entries, e.2.endpoint = p))

def DistinctEndpoints (k : ServiceKernel) : Prop := ∀ uuid uuid' c c', k.connectServices_.lookup uuid = some c →
  k.connectServices_.lookup uuid' = some c' → c.endpoint = c'.endpoint → uuid = uuid'

theorem hasEntry_iff {k : ServiceKernel} {p : ServiceEndpoint} :
    k.HasEntry p ↔ ∃ uuid c, k.connectServices_.lookup uuid = some c ∧ c.endpoint = p := by
  constructor
  · rintro ⟨⟨uuid, c⟩, he, hat⟩
    exact ⟨uuid, c, mem_entries.mp he, hat⟩
  · rintro ⟨uuid, c, hlookup, hat⟩
    exact ⟨⟨uuid, c⟩, mem_entries.mpr hlookup, hat⟩

/-- Where `checkConnectService` finds nothing there is no entry, or one that is keyed `INVALID_UUID`. -/
theorem hasEntry_of_invalid {k : ServiceKernel} {p : ServiceEndpoint}
    (h : k.checkConnectService p.type p.port p.ip = INVALID_UUID) (hentry : k.HasEntry p) :
    ∃ c, k.connectServices_.lookup INVALID_UUID = some c ∧ c.endpoint = p := by
  unfold checkConnectService at h
  split at h
  next e he =>
    have hat : e.2.isAt p.type p.port p.ip = true := by
      have := List.find?_some he
      exact this
    refine ⟨e.2, ?_, ServiceConfig.isAt_iff.mp hat⟩
    rw [← h]
    exact mem_entries.mp (List.mem_of_find?_eq_some he)
  next hnone =>
    obtain ⟨e, he, hat⟩ := hentry
    exact absurd (ServiceConfig.isAt_iff.mpr hat) (List.find?_eq_none.mp hnone e he)

/-- A kernel, the sid last announced for each endpoint, and whether `connectService` was ever called for an endpoint that
had an entry. -/
structure Told where
  kernel : ServiceKernel
  announced : ServiceEndpoint → Int
  twice : Bool := false

inductive Event
  | addNewConnect (p : ServiceEndpoint) (sid : Int) (order : List (Σ _ : Int32, ServiceConfig))
  | removeServiceSession (uuid : Int32)
  /-- anything else that adds or removes sessions -/
  | outside (manager : TCPSessionManager)

def step (w : Told) : Event → Told
  | .addNewConnect p sid order =>
    let r := w.kernel.addNewConnect p.type p.port sid p.ip order
    { kernel := r.1
      announced := fun endpoint => if endpoint = p then sid else w.announced endpoint
      twice := w.twice || (r.2.2 = .kConnect && w.kernel.HasEntry p) }
  | .removeServiceSession uuid => { w with kernel := (w.kernel.removeServiceSession uuid).1 }
  | .outside manager => { w with kernel := { w.kernel with manager := manager } }

/-- The entries a server starts with stand for announcements of their sids. -/
def toldInitially (k : ServiceKernel) : Told where
  kernel := k
  announced endpoint := ((k.connectServices_.entries.find? fun e => e.2.endpoint = endpoint).map fun e => e.2.sid).getD 0

/-- The announced sid is one. -/
def Announces (_ : Told) : Event → Prop
  | .addNewConnect _ sid _ => sid ≠ INVALID_UUID.toInt
  | _ => True

instance (w : Told) : (e : Event) → Decidable (Announces w e)
  | .addNewConnect _ sid _ => inferInstanceAs (Decidable (sid ≠ INVALID_UUID.toInt))
  | .removeServiceSession _ | .outside _ => .isTrue trivial

/-- A session that `connectService` would return has a uuid that no entry has. -/
def Fresh (w : Told) : Event → Prop
  | .addNewConnect p _ _ => w.kernel.newUuid p.type ∉ w.kernel.connectServices_
  | _ => True

instance (w : Told) : (e : Event) → Decidable (Fresh w e)
  | .addNewConnect p _ _ => inferInstanceAs (Decidable (w.kernel.newUuid p.type ∉ w.kernel.connectServices_))
  | .removeServiceSession _ | .outside _ => .isTrue trivial

/-- One entry for each endpoint, no connection to one that had an entry, and the announced sid in each entry. -/
structure OnePerEndpoint (w : Told) : Prop where
  single : w.kernel.DistinctEndpoints
  once : w.twice = false
  sid : ∀ uuid c, w.kernel.connectServices_.lookup uuid = some c → c.sid = w.announced c.endpoint

/-- The entry of the announced endpoint has a uuid of its own. -/
def Keyed (w : Told) : Event → Prop
  | .addNewConnect p _ _ => ∀ c ∈ w.kernel.connectServices_.lookup INVALID_UUID, c.endpoint ≠ p
  | _ => True

instance (w : Told) : (e : Event) → Decidable (Keyed w e)
  | .addNewConnect p _ _ =>
    inferInstanceAs (Decidable (∀ c ∈ w.kernel.connectServices_.lookup INVALID_UUID, c.endpoint ≠ p))
  | .removeServiceSession _ | .outside _ => .isTrue trivial

/-! ## One call -/

section Step

variable {w : Told}

/-- A new connection: its entry is the only one with its endpoint if there was none. -/
theorem onePerEndpoint_connects (h : OnePerEndpoint w) {k' : ServiceKernel} {p : ServiceEndpoint} {sid : Int}
    {session : TCPSessionPtr} (hk : Connects w.kernel k' ⟨p.type, p.port, sid, p.ip, session⟩)
    (hnone : ¬ w.kernel.HasEntry p) :
    OnePerEndpoint { kernel := k'
                     announced := fun endpoint => if endpoint = p then sid else w.announced endpoint
                     twice := w.twice } := by
  have hother : ∀ uuid c, w.kernel.connectServices_.lookup uuid = some c → c.endpoint ≠ p :=
    fun uuid c hc hp => hnone (hasEntry_iff.mpr ⟨uuid, c, hc, hp⟩)
  have hcases : ∀ uuid c, k'.connectServices_.lookup uuid = some c →
      (uuid = w.kernel.newUuid p.type ∧ c = ⟨p.type, p.port, sid, p.ip, session⟩) ∨
      w.kernel.connectServices_.lookup uuid = some c := by
    intro uuid c hc
    rw [hk.services] at hc
    split_ifs at hc with huuid
    · exact .inl ⟨huuid, (Option.some.inj hc).symm⟩
    · exact .inr hc
  constructor
  · intro uuid uuid' c c' hc hc' heq
    rcases hcases uuid c hc with ⟨rfl, rfl⟩ | hold <;> rcases hcases uuid' c' hc' with ⟨rfl, rfl⟩ | hold'
    · rfl
    · exact absurd heq.symm (hother uuid' c' hold')
    · exact absurd heq (hother uuid c hold)
    · exact h.single uuid uuid' c c' hold hold' heq
  · exact h.once
  · intro uuid c hc
    show c.sid = if c.endpoint = p then sid else w.announced c.endpoint
    rcases hcases uuid c hc with ⟨rfl, rfl⟩ | hold
    · exact (if_pos rfl).symm
    · rw [if_neg (hother uuid c hold), h.sid uuid c hold]

/-- Another sid: the entry of the endpoint has it. -/
theorem onePerEndpoint_renames (h : OnePerEndpoint w) {k' : ServiceKernel} {p : ServiceEndpoint} {sid : Int} {uuid₀ : Int32}
    {old : ServiceConfig} (hold : w.kernel.connectServices_.lookup uuid₀ = some old) (hat : old.endpoint = p)
    (hk : Renames w.kernel k' uuid₀ old sid) :
    OnePerEndpoint { kernel := k'
                     announced := fun endpoint => if endpoint = p then sid else w.announced endpoint
                     twice := w.twice } := by
  -- an entry is where it was, and has the endpoint it had
  have hcases : ∀ uuid c, k'.connectServices_.lookup uuid = some c →
      ∃ c₀, w.kernel.connectServices_.lookup uuid = some c₀ ∧ c.endpoint = c₀.endpoint ∧
        c.sid = if uuid = uuid₀ then sid else c₀.sid := by
    intro uuid c hc
    rw [hk.services] at hc
    split_ifs at hc with huuid
    · obtain rfl := Option.some.inj hc
      exact ⟨old, huuid ▸ hold, rfl, (if_pos huuid).symm⟩
    · exact ⟨c, hc, rfl, (if_neg huuid).symm⟩
  constructor
  · intro uuid uuid' c c' hc hc' heq
    obtain ⟨c₀, hc₀, hp, -⟩ := hcases uuid c hc
    obtain ⟨c₀', hc₀', hp', -⟩ := hcases uuid' c' hc'
    exact h.single uuid uuid' c₀ c₀' hc₀ hc₀' (by rw [← hp, ← hp', heq])
  · exact h.once
  · intro uuid c hc
    obtain ⟨c₀, hc₀, hp, hsid⟩ := hcases uuid c hc
    show c.sid = if c.endpoint = p then sid else w.announced c.endpoint
    rw [hsid, hp]
    by_cases huuid : uuid = uuid₀
    · obtain rfl : c₀ = old := Option.some.inj (hc₀.symm.trans (huuid ▸ hold))
      rw [if_pos huuid, if_pos hat]
    · have hne : c₀.endpoint ≠ p := fun heq => huuid (h.single uuid uuid₀ c₀ old hc₀ hold (heq.trans hat.symm))
      rw [if_neg huuid, if_neg hne, h.sid uuid c₀ hc₀]

theorem onePerEndpoint_removes (h : OnePerEndpoint w) (uuid₀ : Int32) :
    OnePerEndpoint { w with kernel := (w.kernel.removeServiceSession uuid₀).1 } := by
  have hkept : ∀ uuid c, (w.kernel.removeServiceSession uuid₀).1.connectServices_.lookup uuid = some c →
      w.kernel.connectServices_.lookup uuid = some c := by
    intro uuid c hc
    unfold removeServiceSession at hc
    split at hc
    · exact hc
    · exact (UnorderedMap.lookup_erase_eq_some.mp hc).2
  exact ⟨fun uuid uuid' c c' hc hc' => h.single uuid uuid' c c' (hkept uuid c hc) (hkept uuid' c' hc'), h.once,
    fun uuid c hc => h.sid uuid c (hkept uuid c hc)⟩

/-- **Step**: a call keeps to one entry for each endpoint exactly if the entry of the announced endpoint has a uuid of
its own. -/
theorem onePerEndpoint_step (h : OnePerEndpoint w) {e : Event} (hannounces : Announces w e) :
    OnePerEndpoint (step w e) ↔ Keyed w e := by
  cases e with
  | addNewConnect p sid order =>
    rcases w.kernel.addNewConnect_cases p.type p.port sid p.ip order with
      ⟨hnew, k', hadd, hk⟩ | ⟨⟨hfound, -⟩, old, hold, hat, k', hadd, hk⟩
    · have hinvalid := hnew.resolve_right hannounces
      by_cases hentry : w.kernel.HasEntry p
      · obtain ⟨c, hc, hp⟩ := hasEntry_of_invalid hinvalid hentry
        refine iff_of_false (fun hstep => ?_) (fun hkeyed => hkeyed c hc hp)
        have honce := hstep.once
        rw [step, hadd] at honce
        simp [hentry] at honce
      · refine iff_of_true ?_ fun c hc hp => hentry (hasEntry_iff.mpr ⟨_, c, hc, hp⟩)
        rw [step, hadd]
        simp only [hentry, decide_false, Bool.and_false, Bool.or_false]
        exact onePerEndpoint_connects h hk hentry
    · have hp := ServiceConfig.isAt_iff.mp hat
      refine iff_of_true ?_ fun c hc hp' => hfound (h.single _ _ old c hold hc (hp.trans hp'.symm))
      rw [step, hadd]
      simp only [reduceCtorEq, decide_false, Bool.false_and, Bool.or_false]
      exact onePerEndpoint_renames h hold hp hk
  | removeServiceSession uuid => exact iff_of_true (onePerEndpoint_removes h uuid) trivial
  | outside manager => exact iff_of_true ⟨h.single, h.once, h.sid⟩ trivial

end Step

/-! ## Runs -/

theorem onePerEndpoint_initially {k : ServiceKernel} (h : k.DistinctEndpoints) : OnePerEndpoint k.toldInitially where
  single := h
  once := rfl
  sid uuid c hc := by
    show c.sid = ((k.connectServices_.entries.find? fun e => e.2.endpoint = c.endpoint).map fun e => e.2.sid).getD 0
    cases hfind : k.connectServices_.entries.find? fun e => e.2.endpoint = c.endpoint with
    | none => simpa using List.find?_eq_none.mp hfind ⟨uuid, c⟩ (mem_entries.mpr hc)
    | some e =>
      have hp : e.2.endpoint = c.endpoint := by simpa using List.find?_some hfind
      have he : k.connectServices_.lookup e.1 = some e.2 := mem_entries.mp (List.mem_of_find?_eq_some hfind)
      have huuid := h e.1 uuid e.2 c he hc hp
      rw [huuid] at he
      rw [Option.some.inj (hc.symm.trans he)]
      rfl

/-- **One connection per endpoint, exactly**: whatever is announced and removed, there is throughout one entry for each
endpoint, with the sid last announced, and no second connection, if and only if no announced endpoint has an entry that
is keyed `INVALID_UUID`. -/
theorem onePerEndpoint_iff {k : ServiceKernel} (hdistinct : k.DistinctEndpoints) {es : List Event}
    (hannounces : Along step Announces k.toldInitially es) :
    Always step OnePerEndpoint k.toldInitially es ↔ Along step Keyed k.toldInitially es :=
  always_iff_along (fun _ _ h hannounces => onePerEndpoint_step h hannounces) (onePerEndpoint_initially hdistinct)
    hannounces

/-- A session manager whose pool is full: 10002 sessions were added, the last one in the slot of the one before. -/
def fullManager : TCPSessionManager where
  sessions _ := {}
  sessionMap_ :=
    { maxIndex_ := 10001
      size_ := 10002
      objectArray_ := fun i => if i.toNat < OB_MAX then some i.toNat else if i.toNat = OB_MAX then some 10001 else none
      objects_ := List.range 10002
      invalidIndexs_ := []
      invalid_le := by simp }

/-- A server without connections to others, whose sessions these are. -/
def unconnected (manager : TCPSessionManager) : ServiceKernel where
  manager := manager
  created := 10002

theorem unconnected_distinct (manager : TCPSessionManager) : (unconnected manager).DistinctEndpoints := by
  intro uuid uuid' c c' hc
  cases hc

/-- A service, announced twice. -/
def toldTwice (later : TCPSessionManager) : List Event :=
  [.addNewConnect ⟨3, 9000, "10.0.0.7"⟩ 7 [], .outside later, .addNewConnect ⟨3, 9000, "10.0.0.7"⟩ 8 []]

theorem toldTwice_single : Always step OnePerEndpoint (unconnected .empty).toldInitially (toldTwice .empty) :=
  (onePerEndpoint_iff (unconnected_distinct _) (by decide)).mpr (by decide)

/-- While the pool is full the first session has no uuid of its own, and the second announcement does not find its
entry. -/
theorem toldTwice_connects_twice : ¬ ∀ (k : ServiceKernel) (es : List Event), k.DistinctEndpoints →
    Along step Announces k.toldInitially es → Along step Fresh k.toldInitially es →
      Always step OnePerEndpoint k.toldInitially es := by
  intro h
  have halways := h (unconnected fullManager) (toldTwice .empty) (unconnected_distinct _) (by decide) (by decide)
  have honce := halways.last.once
  revert honce
  decide

end ServiceKernel

end AsioUtils.Net
