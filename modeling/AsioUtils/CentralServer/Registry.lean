import AsioUtils.CentralServer.Kernel

/-!
# Null pointers in the registry

`serverRegistRQ` tests `servers_[rq.sid()] == nullptr` for every sid below the size of the registry, and a test of a sid
that is not there leaves a null pointer behind; the new service is then entered under the uuid of its session. The loops
of `serverRegistRS` and `requestBestGateServer` read every entry.

* `Registry.Event` : registrations of any sessions with any sids, removals, and requests for a gate server;
* `nonNull_iff` : a run stays without null pointers, and without a crash, exactly if no registration strays.
-/

namespace AsioUtils.CentralServer

open CPG Net

namespace CSKernel

/-- A registration leaves no null pointer, except where its own service is entered. -/
def NoStray (k : CSKernel) (session : TCPSessionPtr) (rq : ServerRegisterRQ) : Prop :=
  ∀ j, k.Stray rq.sid j → j = toUnsigned (k.uuidOf session)

theorem Enters.noNull_iff {k k' : CSKernel} {sid key : Int} {info : ServerInfo} (h : Enters k k' sid key info)
    (hk : k.NoNull) : k'.NoNull ↔ ∀ j, k.Stray sid j → j = key := by
  constructor
  · intro hk' j hstray
    by_contra hne
    exact hk' j (by rw [h.servers, if_neg hne, if_pos hstray])
  · intro hstray j hj
    by_cases hkey : j = key
    · rw [h.servers, if_pos hkey] at hj
      cases hj
    · rw [h.servers, if_neg hkey, if_neg fun hs => hkey (hstray j hs)] at hj
      exact hk j hj

/-- The registry after a registration is without null pointers exactly if the registration does not stray. -/
theorem register_noNull {k : CSKernel} (hk : k.NoNull) (now : Int) (session : TCPSessionPtr) (rq : ServerRegisterRQ)
    (order : List (Σ _ : Int, Option ServerInfo)) :
    (k.register now session rq order).1.NoNull ↔ k.NoStray session rq := by
  obtain ⟨k', key, info, heq, henters, ⟨old, rfl, -, hold, -⟩ | ⟨rfl, -⟩⟩ := k.register_cases now session rq order
  · rw [heq, henters.noNull_iff hk]
    have hnone : ∀ j, ¬ k.Stray rq.sid j := fun j hs => by
      rw [← hs.2.1, hs.2.2] at hold
      cases hold
    exact ⟨fun _ j hs => absurd hs (hnone j), fun _ j hs => absurd hs (hnone j)⟩
  · rw [heq, henters.noNull_iff hk]
    rfl

/-- What a registration makes of the registry, if the kernel survives it. -/
theorem serverRegistRQ_servers {k k' : CSKernel} {now : Int} {session : TCPSessionPtr} {rq : ServerRegisterRQ}
    {order : List (Σ _ : Int, Option ServerInfo)} {sent : List Packet}
    (h : k.serverRegistRQ now session (some rq) order = some (k', sent)) :
    k'.servers_ = (k.register now session rq order).1.servers_ := by
  obtain ⟨rs, -, heq⟩ := Option.map_eq_some_iff.mp h
  rw [← (Prod.mk.inj heq).1]
  split_ifs <;> rfl

theorem serverRegistRQ_isSome {k : CSKernel} {now : Int} {session : TCPSessionPtr} {rq : ServerRegisterRQ}
    {order : List (Σ _ : Int, Option ServerInfo)} (h : (k.register now session rq order).1.NoNull) :
    (k.serverRegistRQ now session (some rq) order).isSome = true := by
  unfold serverRegistRQ
  dsimp only
  rw [Option.isSome_map, serverRegistRS_eq (.inl h)]
  rfl

end CSKernel

namespace Registry

/-- `sessions` is anything that goes on in the session manager meanwhile: the next session may be any. -/
inductive Event
  | serverRegistRQ (session : TCPSessionPtr) (rq : Option ServerRegisterRQ) (now : Int)
    (order : List (Σ _ : Int, Option ServerInfo))
  | removeService (sid now : Int)
  | requestBestGateServer (session : TCPSessionPtr) (parsed : Bool)
  | sessions (manager : TCPSessionManager)

def handle (k : CSKernel) : Event → Option CSKernel
  | .serverRegistRQ session rq now order => (k.serverRegistRQ now session rq order).map Prod.fst
  | .removeService sid now => k.removeService now sid
  | .requestBestGateServer session parsed => (k.requestBestGateServer session parsed).map fun _ => k
  | .sessions manager => some { k with manager }

/-- The kernel after an event, `none` once it has crashed. -/
def step (s : Option CSKernel) (e : Event) : Option CSKernel := s.bind fun k => handle k e

/-- The kernel has not crashed and its registry holds no null pointer. -/
def NonNull (s : Option CSKernel) : Prop := ∃ k, s = some k ∧ k.NoNull

/-- An event that is a registration does not stray. -/
def KeepsAt (k : CSKernel) : Event → Prop
  | .serverRegistRQ session (some rq) _ _ => k.NoStray session rq
  | _ => True

def Keeps (s : Option CSKernel) (e : Event) : Prop := ∀ k ∈ s, KeepsAt k e

theorem nonNull_some {k : CSKernel} : NonNull (some k) ↔ k.NoNull :=
  ⟨fun ⟨_, heq, hk⟩ => Option.some.inj heq ▸ hk, fun hk => ⟨k, rfl, hk⟩⟩

theorem step_nonNull {s : Option CSKernel} (e : Event) (hs : NonNull s) : NonNull (step s e) ↔ Keeps s e := by
  obtain ⟨k, rfl, hk⟩ := hs
  have hkeeps : Keeps (some k) e ↔ KeepsAt k e := by simp [Keeps]
  rw [hkeeps]
  show NonNull (handle k e) ↔ KeepsAt k e
  cases e with
  | serverRegistRQ session rq now order =>
    cases rq with
    | none => exact ⟨fun _ => trivial, fun _ => nonNull_some.mpr hk⟩
    | some rq =>
      show _ ↔ k.NoStray session rq
      rw [← CSKernel.register_noNull hk now session rq order]
      constructor
      · rintro ⟨k', heq, hk'⟩
        obtain ⟨⟨k'', sent⟩, hrq, rfl⟩ := Option.map_eq_some_iff.mp heq
        unfold CSKernel.NoNull
        rw [← CSKernel.serverRegistRQ_servers hrq]
        exact hk'
      · intro hnew
        obtain ⟨⟨k', sent⟩, hrq⟩ := Option.isSome_iff_exists.mp (CSKernel.serverRegistRQ_isSome hnew)
        refine ⟨k', by rw [handle, hrq]; rfl, ?_⟩
        unfold CSKernel.NoNull
        rw [CSKernel.serverRegistRQ_servers hrq]
        exact hnew
  | removeService sid now =>
    refine ⟨fun _ => trivial, fun _ => ?_⟩
    show NonNull (k.removeService now sid)
    unfold CSKernel.removeService
    rcases hsid : k.servers_.lookup sid with _ | _ | info
    · exact nonNull_some.mpr hk
    · exact absurd hsid (hk sid)
    · exact nonNull_some.mpr fun j hj => hk j (UnorderedMap.lookup_erase_eq_some.mp hj).2
  | requestBestGateServer session parsed =>
    refine ⟨fun _ => trivial, fun _ => ?_⟩
    show NonNull ((k.requestBestGateServer session parsed).map _)
    unfold CSKernel.requestBestGateServer
    rw [CSKernel.forServers_eq hk]
    split_ifs
    · exact nonNull_some.mpr hk
    · exact nonNull_some.mpr hk
  | sessions manager => exact ⟨fun _ => trivial, fun _ => nonNull_some.mpr hk⟩

theorem start_nonNull (manager : TCPSessionManager) (matches_ : CSMatchManager)
    (listenInfos : List ServerInfo.Listener) (now : Int) :
    NonNull (some (CSKernel.start manager matches_ listenInfos now)) := by
  refine nonNull_some.mpr fun sid hsid => ?_
  have hmem := AList.mem_lookup_iff.mp hsid
  cases List.mem_singleton.mp hmem

/-- **A run stays without null pointers and never dereferences one exactly if no registration strays.** -/
theorem nonNull_iff (manager : TCPSessionManager) (matches_ : CSMatchManager) (listenInfos : List ServerInfo.Listener)
    (now : Int) (es : List Event) :
    Runs.Always step NonNull (some (CSKernel.start manager matches_ listenInfos now)) es ↔
      Runs.Along step Keeps (some (CSKernel.start manager matches_ listenInfos now)) es :=
  Runs.always_iff_along_all (fun _ e => step_nonNull e) (start_nonNull manager matches_ listenInfos now)

/-- A central server that listens for match servers, with one match stored, and its first two sessions: those of a gate
and of a match server. -/
def sampleManager : TCPSessionManager := (TCPSessionManager.empty.newSession 0 1).newSession 1 3

def sampleStart : CSKernel := .start sampleManager (.initialized 0 (sampleMatches [7])) [⟨3, 8000, "10.0.0.1"⟩] 0

/-- The central server was restarted, and a match server that had sid 0 before comes back first: a null pointer is left
at 0, and the reply dereferences it. -/
theorem returning_crashes :
    ¬ Runs.Always step NonNull (some sampleStart) [.serverRegistRQ 1 (some { sid := 0, connectTypes := [5] }) 0 []] := by
  rintro ⟨-, k, hk, -⟩
  have hcrash : step (some sampleStart) (.serverRegistRQ 1 (some { sid := 0, connectTypes := [5] }) 0 []) = none := by
    rfl
  rw [hcrash] at hk
  cases hk

end Registry

end AsioUtils.CentralServer
