import AsioUtils.CentralServer.Kernel

/-!
# The sessions of the central server

While the session manager gives no new session the uuid of another open one, it finds each open session under its uuid
and reaches it with what it sends to all sessions of a type.

* `Pooled` : that, as an invariant, with the stock of indices it rests on;
* `newSession_pooled`, `onClose_pooled` : accepting and closing keep it.
-/

namespace AsioUtils.CentralServer.CSKernel

open CPG Net ObjectIndexPool

variable (k : CSKernel)

/-- The slot of a session. -/
def index (p : TCPSessionPtr) : UInt32 := (k.manager.sessions p).uuid_.toUInt32

/-- Every open session is in its slot and in the list. -/
structure Pooled : Prop where
  slot : ∀ p, k.Open p → (k.index p).toNat ≤ OB_MAX ∧ k.manager.sessionMap_.objectArray_ (k.index p) = some p
  listed : ∀ p, k.Open p → p ∈ k.manager.sessionMap_.objects_
  accepted : ∀ p, p < k.created → (k.manager.sessions p).client_ = false
  stocked : Stocked k.manager.sessionMap_ fun i => ∃ p, k.Open p ∧ k.index p = i

/-- A new session of type `type` gets a uuid that no open session has. -/
def FreshUuid (type : ServerType) : Prop := ∀ p < k.created, k.Open p → k.uuidOf p ≠ (k.newSession type).uuidOf k.created

instance (type : ServerType) : Decidable (k.FreshUuid type) :=
  inferInstanceAs (Decidable (∀ p < k.created, k.Open p → k.uuidOf p ≠ (k.newSession type).uuidOf k.created))

variable {k}

theorem Pooled.uuid (h : Pooled k) {p : TCPSessionPtr} (hp : k.Open p) : k.uuidOf p = (k.index p).toNat :=
  toInt_toInt32 (h.slot p hp).1

theorem Pooled.uuid_inj (h : Pooled k) {p q : TCPSessionPtr} (hp : k.Open p) (hq : k.Open q)
    (huuid : k.uuidOf p = k.uuidOf q) : p = q := by
  have hsame : k.index p = k.index q := by
    rw [h.uuid hp, h.uuid hq] at huuid
    exact UInt32.toNat_inj.mp (Int.ofNat_inj.mp huuid)
  have hslot := (h.slot p hp).2
  rw [hsame, (h.slot q hq).2] at hslot
  exact (Option.some.inj hslot).symm

theorem Pooled.congr {k' : CSKernel} (h : Pooled k) (hmanager : k'.manager = k.manager) (hcreated : k'.created = k.created) :
    Pooled k' := by
  have hopen : ∀ p, k'.Open p ↔ k.Open p := open_congr hmanager hcreated
  have hindex : ∀ p, k'.index p = k.index p := fun p => by rw [index, index, hmanager]
  refine ⟨fun p hp => ?_, fun p hp => ?_, fun p hp => ?_, ?_⟩
  · rw [hindex, hmanager]
    exact h.slot p ((hopen p).mp hp)
  · rw [hmanager]
    exact h.listed p ((hopen p).mp hp)
  · rw [hmanager]
    exact h.accepted p (hcreated ▸ hp)
  · rw [hmanager]
    refine h.stocked.congr fun i => exists_congr fun p => ?_
    rw [hopen, hindex]

theorem newSession_pooled (h : Pooled k) {type : ServerType} (hfresh : k.FreshUuid type) :
    Pooled (k.newSession type) := by
  obtain ⟨hmap, huuid, hclient⟩ := k.manager.newSession_slot k.created (UInt8.ofNat type.toInt.toNat)
  have hindex : ∀ p, p < k.created → (k.newSession type).index p = k.index p := fun p hp => by
    rw [index, (newSession_other type hp).1, index]
  have hold : ∀ p, (k.newSession type).Open p → p = k.created ∨ k.Open p := fun p hp => by
    rcases Nat.lt_succ_iff_lt_or_eq.mp hp.1 with hlt | heq
    · refine .inr ⟨hlt, ?_⟩
      rw [← (newSession_other type hlt).1]
      exact hp.2
    · exact .inl heq
  have hnew : (k.newSession type).Open k.created := ⟨Nat.lt_succ_self _, (by simp [newSession, setLogicID,
    TCPSessionManager.newSession, Session.connected])⟩
  have hunused : ¬ ∃ p, k.Open p ∧ k.index p = (k.manager.sessionMap_.addObject k.created).1 := by
    rintro ⟨p, hp, hsame⟩
    refine hfresh p hp.1 hp ?_
    show (k.manager.sessions p).uuid_.toInt = ((k.newSession type).manager.sessions k.created).uuid_.toInt
    rw [show ((k.newSession type).manager.sessions k.created).uuid_ = _ from huuid, ← hsame]
    rfl
  obtain ⟨i, pool, hadd, hi, harray, hobjects, hstocked⟩ := h.stocked.addObject (by decide) k.created hunused
  rw [hadd] at hmap huuid hunused
  have hpool : (k.newSession type).manager.sessionMap_ = pool := hmap
  have hcreated : (k.newSession type).index k.created = i := congrArg Int32.toUInt32 huuid
  refine ⟨fun p hp => ?_, fun p hp => ?_, fun p hp => ?_, ?_⟩
  · rw [hpool, harray]
    rcases hold p hp with rfl | hp
    · rw [hcreated]
      exact ⟨hi, if_pos rfl⟩
    · rw [hindex p hp.1]
      exact ⟨(h.slot p hp).1, (if_neg fun hsame => hunused ⟨p, hp, hsame⟩).trans (h.slot p hp).2⟩
  · rw [hpool, hobjects, List.mem_append]
    rcases hold p hp with rfl | hp
    · exact .inr (List.mem_singleton_self _)
    · exact .inl (h.listed p hp)
  · rcases Nat.lt_succ_iff_lt_or_eq.mp hp with hlt | rfl
    · rw [(newSession_other type hlt).1]
      exact h.accepted p hlt
    · exact hclient
  · rw [hpool]
    refine hstocked.congr fun j => ⟨?_, ?_⟩
    · rintro (rfl | ⟨p, hp, hsame⟩)
      · exact ⟨k.created, hnew, hcreated⟩
      · exact ⟨p, hp.newSession type, (hindex p hp.1).trans hsame⟩
    · rintro ⟨p, hp, hsame⟩
      rcases hold p hp with rfl | hp
      · exact .inl (hsame.symm.trans hcreated)
      · exact .inr ⟨p, hp, (hindex p hp.1).symm.trans hsame⟩

/-- The session that closes is the only one in its slot. -/
theorem handClose_pooled (h : Pooled k) {k' : CSKernel} {session : TCPSessionPtr} (hopen : k.Open session)
    (hmanager : k'.manager = k.manager.handClose (fun s => s) session) (hcreated : k'.created = k.created) :
    Pooled k' ∧ ∀ p, k'.Open p ↔ p ≠ session ∧ k.Open p := by
  obtain ⟨hmap, hclosed, hclient⟩ := k.manager.handClose_slot hopen.2 (h.accepted session hopen.1)
  have hother : ∀ p, p ≠ session → k'.manager.sessions p = k.manager.sessions p := fun p hp => by
    rw [hmanager, (k.manager.handClose_frame session p).2.2 hp]
  have hold : ∀ p, k'.Open p ↔ p ≠ session ∧ k.Open p := fun p => by
    by_cases hp : p = session
    · refine ⟨fun hopen' => ?_, fun hopen' => absurd hp hopen'.1⟩
      have hconnected := hopen'.2
      rw [hmanager, hp, hclosed] at hconnected
      cases hconnected
    · rw [Open, hother p hp, hcreated]
      exact (and_iff_right hp).symm
  have hindex : ∀ p, p ≠ session → k'.index p = k.index p := fun p hp => by rw [index, hother p hp, index]
  have hslot := h.slot session hopen
  have hdistinct : ∀ p, p ≠ session → k.Open p → k.index p ≠ k.index session := fun p hp hopen' hsame => by
    have hthere := (h.slot p hopen').2
    rw [hsame, hslot.2] at hthere
    exact hp (Option.some.inj hthere).symm
  have hpool : k'.manager.sessionMap_ = k.manager.sessionMap_.removeObject (k.index session) := by
    rw [hmanager, hmap]
    rfl
  refine ⟨⟨fun p hp => ?_, fun p hp => ?_, fun p hp => ?_, ?_⟩, hold⟩
  · obtain ⟨hne, hp⟩ := (hold p).mp hp
    rw [hindex p hne, hpool, objectArray_removeObject _ hslot.1]
    exact ⟨(h.slot p hp).1, (if_neg (hdistinct p hne hp)).trans (h.slot p hp).2⟩
  · obtain ⟨hne, hp⟩ := (hold p).mp hp
    rw [hpool, objects_removeObject _ hslot.1 hslot.2]
    exact List.mem_filter.mpr ⟨h.listed p hp, decide_eq_true hne⟩
  · by_cases hne : p = session
    · rw [hmanager, hne, hclient]
    · rw [hother p hne]
      exact h.accepted p (hcreated ▸ hp)
  · rw [hpool]
    refine (h.stocked.removeObject hslot.1).congr fun i => ⟨?_, ?_⟩
    · rintro ⟨⟨p, hp, rfl⟩, hne⟩
      have hp' : p ≠ session := fun hsame => hne (by rw [hsame])
      exact ⟨p, (hold p).mpr ⟨hp', hp⟩, hindex p hp'⟩
    · rintro ⟨p, hp, rfl⟩
      obtain ⟨hne, hp⟩ := (hold p).mp hp
      rw [hindex p hne]
      exact ⟨⟨p, hp, rfl⟩, hdistinct p hne hp⟩

/-- Before the first session. -/
theorem start_pooled (matches_ : CSMatchManager) (listenInfos : List ServerInfo.Listener) (now : Int) :
    Pooled (start .empty matches_ listenInfos now) := by
  have hnone : ∀ p, ¬ (start .empty matches_ listenInfos now).Open p := fun p hp => Nat.not_lt_zero p hp.1
  refine ⟨fun p hp => absurd hp (hnone p), fun p hp => absurd hp (hnone p), fun p hp => absurd hp (Nat.not_lt_zero p), ?_⟩
  exact stocked_empty _ fun i ⟨p, hp, _⟩ => hnone p hp

end AsioUtils.CentralServer.CSKernel
