import AsioUtils.Lib.StdList
import AsioUtils.MatchServer.MatchManager
import Mathlib.Data.List.Perm.Basic

/-!
# Players that join and leave

Robots ask a match server to join and to leave matches; requests and replies are on the way for any time and in any order.
A robot asks to leave with the body of an `UnjoinMatchRQ` in a packet of type `kJoinMatchRQ`, and the bodies of both
requests have the same fields.

* `Robot`, `GateSession.handlerMsg` : the two ends; `none` is a failed assertion or a count that overflows;
* `Play`, `Event`, `step` : robots, a match server and what is on the way between them;
* `Counted` : what every step keeps;
* `players_only_join` : over any run, the count of a match is the number of requests, to join or to leave, that were
  handled, and no robot leaves.
-/

namespace AsioUtils.MatchServer

open Runs StdList

def kJoinMatchRQ : Int32 := 15001
def kJoinMatchRS : Int32 := 15002
def kUnjoinMatchRQ : Int32 := 15003
def kUnjoinMatchRS : Int32 := 15004

/-- `CPGClientServer::JoinMatchRQ` and `UnjoinMatchRQ`. -/
structure PlayerRQ where
  uid : Int
  mid : Int
  mtype : Int
  deriving DecidableEq

/-- `CPGClientServer::JoinMatchRS` and `UnjoinMatchRS`. -/
structure PlayerRS extends PlayerRQ where
  remainPlayer : Int
  result : Int
  deriving DecidableEq

/-- A packet of a player, with what is parsed from its body. -/
structure PlayerPacket (Body : Type) where
  robot : Nat
  type : Int32
  body : Body
  deriving DecidableEq

/-! ## The match server -/

namespace MSKernel

/-- The common body of the handlers, for a request that is parsed. -/
def playerRQ (call : MSMatchManager → Int → Option (MSMatchManager × Int)) (type : Int32) (m : MSMatchManager)
    (robot : Nat) (rq : PlayerRQ) : Option (MSMatchManager × PlayerPacket PlayerRS) :=
  (call m rq.mid).map fun r => (r.1, ⟨robot, type, { rq with remainPlayer := r.2, result := 0 }⟩)

def joinMatchRQ := playerRQ MSMatchManager.joinMatch kJoinMatchRS

def unjoinMatchRQ := playerRQ MSMatchManager.unjoinMatch kUnjoinMatchRS

end MSKernel

/-- `GateSession::handlerMsg` : the reply, if there is one. -/
def GateSession.handlerMsg (m : MSMatchManager) (packet : PlayerPacket PlayerRQ) :
    Option (MSMatchManager × Option (PlayerPacket PlayerRS)) :=
  if packet.type = kJoinMatchRQ then (MSKernel.joinMatchRQ m packet.robot packet.body).map fun r => (r.1, some r.2)
  else if packet.type = kUnjoinMatchRQ then
    (MSKernel.unjoinMatchRQ m packet.robot packet.body).map fun r => (r.1, some r.2)
  else some (m, none)

/-! ## The robots -/

/-- `mid` and `type` of what `matchListRS` brings. -/
structure MatchBriefInfo where
  mid : Int
  type : Int
  deriving DecidableEq

structure Robot where
  uid : Int
  login_ : Bool := false
  matchList_ : List MatchBriefInfo := []
  /-- a `std::set` -/
  joinedMatches_ : List Int := []

namespace Robot

/-- `arc4random_uniform` of the size of the list, when `r` is drawn; the assertion fails for an empty list. -/
def randMatch (robot : Robot) (r : Nat) : Option MatchBriefInfo := robot.matchList_[r % robot.matchList_.length]?

def joinedMatch (robot : Robot) (mid : Int) : Robot := { robot with joinedMatches_ := setInsert mid robot.joinedMatches_ }

def unjoinedMatch (robot : Robot) (mid : Int) : Robot :=
  { robot with joinedMatches_ := robot.joinedMatches_.filter (· ≠ mid) }

end Robot

namespace RobotManager

/-- The common body of `joinMatchRQ` and `unjoinMatchRQ`; both send a `kJoinMatchRQ`. -/
def playerRQ (type : Int32) (robot : Robot) (i r : Nat) : Option (PlayerPacket PlayerRQ) :=
  (robot.randMatch r).map fun info => ⟨i, type, ⟨robot.uid, info.mid, info.type⟩⟩

def joinMatchRQ := playerRQ kJoinMatchRQ

def unjoinMatchRQ := playerRQ kJoinMatchRQ

/-- `RobotSession::handlerMsg`, for the replies; neither handler reads `result` or `remainPlayer`. -/
def handlerMsg (robot : Robot) (packet : PlayerPacket PlayerRS) : Robot :=
  if packet.type = kJoinMatchRS then robot.joinedMatch packet.body.mid
  else if packet.type = kUnjoinMatchRS then robot.unjoinedMatch packet.body.mid
  else robot

end RobotManager

/-! ## Runs -/

/-- `robots_`, the match server, and the packets on the way. `asked` are the matches that were asked for, to join (`true`)
or to leave, the latest first. -/
structure Play where
  server : MSMatchManager := {}
  robots : Nat → Robot
  requests : List (PlayerPacket PlayerRQ) := []
  replies : List (PlayerPacket PlayerRS) := []
  asked : List (Int × Bool) := []

inductive Play.Event
  | loginRS (i : Nat)
  | matchListRS (i : Nat) (matchList : List MatchBriefInfo)
  /-- the timers of `RobotManager`, when `r` is drawn for the match -/
  | joinTimer (i r : Nat)
  | unjoinTimer (i r : Nat)
  /-- the match server handles the `n`-th request -/
  | request (n : Nat)
  /-- the `n`-th reply comes back -/
  | reply (n : Nat)
  | updateMatches (mids : List Int)

namespace Play

def setRobot (p : Play) (i : Nat) (robot : Robot) : Play :=
  { p with robots := fun j => if j = i then robot else p.robots j }

/-- A timer of `RobotManager`: `rq` is what it sends for a robot that has logged in. -/
def ask (p : Play) (rq : Robot → Nat → Nat → Option (PlayerPacket PlayerRQ)) (joins : Bool) (i r : Nat) : Option Play :=
  if (p.robots i).login_ then
    (rq (p.robots i) i r).map fun packet =>
      { p with requests := p.requests ++ [packet], asked := (packet.body.mid, joins) :: p.asked }
  else some p

def handle (p : Play) : Event → Option Play
  | .loginRS i => some (p.setRobot i { p.robots i with login_ := true })
  | .matchListRS i matchList => some (p.setRobot i { p.robots i with matchList_ := matchList })
  | .joinTimer i r => p.ask RobotManager.joinMatchRQ true i r
  | .unjoinTimer i r => p.ask RobotManager.unjoinMatchRQ false i r
  | .request n =>
    match p.requests[n]? with
    | none => some p
    | some packet => (GateSession.handlerMsg p.server packet).map fun r =>
        { p with server := r.1, requests := p.requests.eraseIdx n, replies := p.replies ++ r.2.toList }
  | .reply n =>
    match p.replies[n]? with
    | none => some p
    | some packet =>
      some { p.setRobot packet.robot (RobotManager.handlerMsg (p.robots packet.robot) packet) with
             replies := p.replies.eraseIdx n }
  | .updateMatches mids => some { p with server := p.server.updateMatches mids }

def step (s : Option Play) (e : Event) : Option Play := s.bind fun p => p.handle e

/-- The match is in every list that the match server gets. -/
def Keeps (mid : Int) (e : Event) : Prop := ∀ mids, e = .updateMatches mids → mid ∈ mids

/-- The requests for a match that are on the way. -/
def pending (p : Play) (mid : Int) : Nat := p.requests.countP fun packet => packet.body.mid = mid

/-- How often a robot has asked to join or to leave it. -/
def asks (p : Play) (mid : Int) : Nat := p.asked.countP fun a => a.1 = mid

/-- Nothing but requests to join is on the way, and their replies. -/
structure JoinsOnly (p : Play) : Prop where
  requests : ∀ packet ∈ p.requests, packet.type = kJoinMatchRQ
  replies : ∀ packet ∈ p.replies, packet.type = kJoinMatchRS

/-- Every request for `mid` is on the way or counted. -/
structure Counted (mid : Int) (p : Play) : Prop extends JoinsOnly p where
  count : ∃ n : Nat, p.server.count? mid = some (n : Int) ∧ n + p.pending mid = p.asks mid

section Step

variable {p p' : Play}

/-- What a timer does: the robot asks for one match. -/
theorem ask_cases {rq : Robot → Nat → Nat → Option (PlayerPacket PlayerRQ)} {joins : Bool} {i r : Nat}
    (h : p.ask rq joins i r = some p') : p' = p ∨ ∃ packet, rq (p.robots i) i r = some packet ∧
      p' = { p with requests := p.requests ++ [packet], asked := (packet.body.mid, joins) :: p.asked } := by
  unfold ask at h
  split_ifs at h
  · obtain ⟨packet, hpacket, rfl⟩ := Option.map_eq_some_iff.mp h
    exact .inr ⟨packet, hpacket, rfl⟩
  · exact .inl (Option.some.inj h).symm

theorem playerRQ_type {type : Int32} {robot : Robot} {i r : Nat} {packet : PlayerPacket PlayerRQ}
    (h : RobotManager.playerRQ type robot i r = some packet) : packet.type = type := by
  obtain ⟨info, -, rfl⟩ := Option.map_eq_some_iff.mp h
  rfl

theorem ask_counted {mid : Int} (h : Counted mid p) {joins : Bool} {i r : Nat}
    (hask : p.ask (RobotManager.playerRQ kJoinMatchRQ) joins i r = some p') : Counted mid p' := by
  rcases ask_cases hask with rfl | ⟨packet, hpacket, rfl⟩
  · exact h
  · obtain ⟨n, hn, hcount⟩ := h.count
    refine ⟨⟨fun q hq => ?_, h.replies⟩, n, hn, ?_⟩
    · rcases List.mem_append.mp hq with hq | hq
      · exact h.requests q hq
      · rw [List.mem_singleton.mp hq]
        exact playerRQ_type hpacket
    · unfold pending asks at hcount ⊢
      simp only [List.countP_append, List.countP_cons, List.countP_nil]
      omega

/-- A request to join that is handled: the count is one higher. -/
theorem handlerMsg_join {m m' : MSMatchManager} {packet : PlayerPacket PlayerRQ} {rs : Option (PlayerPacket PlayerRS)}
    (htype : packet.type = kJoinMatchRQ) (h : GateSession.handlerMsg m packet = some (m', rs)) :
    (∀ q ∈ rs, q.type = kJoinMatchRS) ∧
      ∀ mid n, m.count? mid = some n → m'.count? mid = some (if packet.body.mid = mid then n + 1 else n) := by
  rw [GateSession.handlerMsg, if_pos htype] at h
  obtain ⟨⟨m₁, rs₁⟩, hjoin, heq⟩ := Option.map_eq_some_iff.mp h
  obtain ⟨rfl, rfl⟩ := Prod.mk.inj heq
  obtain ⟨⟨m₂, remain⟩, hcall, heq⟩ := Option.map_eq_some_iff.mp hjoin
  obtain ⟨rfl, rfl⟩ := Prod.mk.inj heq
  refine ⟨fun q hq => by rw [← Option.some.inj hq], fun mid n hn => ?_⟩
  change m.addPlayers packet.body.mid 1 = some (m₂, remain) at hcall
  cases hthere : m.count? packet.body.mid with
  | none =>
    rw [MSMatchManager.addPlayers_absent hthere] at hcall
    obtain ⟨rfl, -⟩ := Prod.mk.inj (Option.some.inj hcall)
    have hne : packet.body.mid ≠ mid := fun heq => by simp [← heq, hthere] at hn
    rw [if_neg hne, hn]
  | some k =>
    rw [MSMatchManager.addPlayers_hosted hthere, MSMatchManager.addInt] at hcall
    split_ifs at hcall
    · obtain ⟨rfl, -⟩ := Prod.mk.inj (Option.some.inj hcall)
      rw [MSMatchManager.count?_modify, hn]
      by_cases hmid : mid = packet.body.mid
      · rw [hmid, hthere] at hn
        rw [if_pos hmid, if_pos hmid.symm, ← Option.some.inj hn]
        rfl
      · rw [if_neg hmid, if_neg (Ne.symm hmid)]
    · cases hcall

theorem request_counted {mid : Int} (h : Counted mid p) {n : Nat} (hstep : p.handle (.request n) = some p') :
    Counted mid p' := by
  rw [handle] at hstep
  cases hpacket : p.requests[n]? with
  | none =>
    rw [hpacket] at hstep
    exact Option.some.inj hstep ▸ h
  | some packet =>
    rw [hpacket] at hstep
    obtain ⟨⟨m, rs⟩, hhandled, rfl⟩ := Option.map_eq_some_iff.mp hstep
    obtain ⟨hn, rfl⟩ := List.getElem?_eq_some_iff.mp hpacket
    obtain ⟨htype, hcounts⟩ := handlerMsg_join (h.requests _ (List.getElem_mem hn)) hhandled
    obtain ⟨k, hk, hsum⟩ := h.count
    have hperm := List.getElem_cons_eraseIdx_perm hn
    refine ⟨⟨fun q hq => h.requests q (List.mem_of_mem_eraseIdx hq), fun q hq => ?_⟩, ?_⟩
    · rcases List.mem_append.mp hq with hq | hq
      · exact h.replies q hq
      · exact htype q (Option.mem_toList.mp hq)
    · have hpending : p.pending mid = (p.requests.eraseIdx n).countP (fun q => q.body.mid = mid) +
          if p.requests[n].body.mid = mid then 1 else 0 := by
        rw [pending, ← hperm.countP_eq, List.countP_cons]
        simp
      by_cases hmid : p.requests[n].body.mid = mid
      · refine ⟨k + 1, by rw [hcounts mid k hk, if_pos hmid]; rfl, ?_⟩
        rw [if_pos hmid] at hpending
        show k + 1 + (p.requests.eraseIdx n).countP _ = p.asks mid
        omega
      · refine ⟨k, by rw [hcounts mid k hk, if_neg hmid], ?_⟩
        rw [if_neg hmid] at hpending
        show k + (p.requests.eraseIdx n).countP _ = p.asks mid
        omega

theorem handle_counted {mid : Int} (h : Counted mid p) {e : Event} (hkeeps : Keeps mid e) (hstep : p.handle e = some p') :
    Counted mid p' := by
  cases e with
  | loginRS i => exact Option.some.inj hstep ▸ ⟨⟨h.requests, h.replies⟩, h.count⟩
  | matchListRS i matchList => exact Option.some.inj hstep ▸ ⟨⟨h.requests, h.replies⟩, h.count⟩
  | joinTimer i r => exact ask_counted h hstep
  | unjoinTimer i r => exact ask_counted h hstep
  | request n => exact request_counted h hstep
  | reply n =>
    rw [handle] at hstep
    cases hpacket : p.replies[n]? with
    | none =>
      rw [hpacket] at hstep
      exact Option.some.inj hstep ▸ h
    | some packet =>
      rw [hpacket] at hstep
      exact Option.some.inj hstep ▸ ⟨⟨h.requests, fun q hq => h.replies q (List.mem_of_mem_eraseIdx hq)⟩, h.count⟩
  | updateMatches mids =>
    obtain ⟨n, hn, hsum⟩ := h.count
    refine Option.some.inj hstep ▸ ⟨⟨h.requests, h.replies⟩, n, ?_, hsum⟩
    show (p.server.updateMatches mids).count? mid = _
    rw [MSMatchManager.count?_updateMatches, if_pos (hkeeps mids rfl), hn]
    rfl

/-- A reply to a request to join adds to what a robot has joined, and nothing else writes that. -/
theorem handle_joined (h : JoinsOnly p) {e : Event} (hstep : p.handle e = some p') (i : Nat) :
    (p.robots i).joinedMatches_ ⊆ (p'.robots i).joinedMatches_ := by
  have hset : ∀ j robot, (p.robots j).joinedMatches_ ⊆ robot.joinedMatches_ →
      (p.robots i).joinedMatches_ ⊆ ((p.setRobot j robot).robots i).joinedMatches_ := fun j robot hsub => by
    show _ ⊆ (if i = j then robot else p.robots i).joinedMatches_
    split_ifs with hij
    · exact hij ▸ hsub
    · exact List.Subset.refl _
  cases e with
  | loginRS j => exact Option.some.inj hstep ▸ hset j _ (List.Subset.refl _)
  | matchListRS j matchList => exact Option.some.inj hstep ▸ hset j _ (List.Subset.refl _)
  | joinTimer j r => rcases ask_cases hstep with rfl | ⟨packet, -, rfl⟩ <;> exact List.Subset.refl _
  | unjoinTimer j r => rcases ask_cases hstep with rfl | ⟨packet, -, rfl⟩ <;> exact List.Subset.refl _
  | request n =>
    rw [handle] at hstep
    cases hpacket : p.requests[n]? with
    | none =>
      rw [hpacket] at hstep
      exact Option.some.inj hstep ▸ List.Subset.refl _
    | some packet =>
      rw [hpacket] at hstep
      obtain ⟨r, -, rfl⟩ := Option.map_eq_some_iff.mp hstep
      exact List.Subset.refl _
  | reply n =>
    rw [handle] at hstep
    cases hpacket : p.replies[n]? with
    | none =>
      rw [hpacket] at hstep
      exact Option.some.inj hstep ▸ List.Subset.refl _
    | some packet =>
      rw [hpacket] at hstep
      refine Option.some.inj hstep ▸ hset packet.robot _ ?_
      rw [RobotManager.handlerMsg, if_pos (h.replies packet (List.mem_of_getElem? hpacket))]
      exact fun mid hmid => mem_setInsert.mpr (.inr hmid)
  | updateMatches mids => exact Option.some.inj hstep ▸ List.Subset.refl _

end Step

/-- A match server with its list, and robots that have not asked for anything. -/
def start (mids : List Int) (robots : Nat → Robot) : Play :=
  { server := MSMatchManager.updateMatches {} mids, robots := robots }

theorem start_counted {mids : List Int} (robots : Nat → Robot) {mid : Int} (hmid : mid ∈ mids) :
    Counted mid (start mids robots) := by
  refine ⟨⟨by simp [start], by simp [start]⟩, 0, ?_, rfl⟩
  rw [start, MSMatchManager.count?_updateMatches, if_pos hmid]
  rfl

theorem run_counted {p : Play} {mid : Int} (h : Counted mid p) {es : List Event} (hkeeps : ∀ e ∈ es, Keeps mid e) :
    ∀ p' ∈ run step (some p) es, Counted mid p' ∧ ∀ i, (p.robots i).joinedMatches_ ⊆ (p'.robots i).joinedMatches_ := by
  induction es generalizing p with
  | nil =>
    intro p' hp'
    obtain rfl := Option.some.inj hp'
    exact ⟨h, fun i => List.Subset.refl _⟩
  | cons e es ih =>
    intro p' hp'
    obtain ⟨he, hes⟩ := List.forall_mem_cons.mp hkeeps
    rw [run_cons] at hp'
    cases hstep : p.handle e with
    | none =>
      have hcrashed : run step (step (some p) e) es = none := by
        rw [step, Option.bind_some, hstep]
        exact inv_run (q := fun s => s = none) (fun s e hs => by rw [hs]; rfl) rfl es
      rw [hcrashed] at hp'
      cases hp'
    | some p₁ =>
      rw [show step (some p) e = some p₁ from hstep] at hp'
      obtain ⟨hcounted, hsub⟩ := ih (handle_counted h he hstep) hes p' hp'
      exact ⟨hcounted, fun i => List.Subset.trans (handle_joined h.toJoinsOnly hstep i) (hsub i)⟩

/-- **Whoever asks to leave joins again**: over any run in which a match server keeps a match, its count is the number of
times robots asked to join or to leave it, less the requests on the way; and what a robot has joined it never leaves. -/
theorem players_only_join (mids : List Int) (robots : Nat → Robot) (es fs : List Event) (mid : Int) (hmid : mid ∈ mids)
    (hkeeps : ∀ e ∈ es ++ fs, Keeps mid e) : ∀ p ∈ run step (some (start mids robots)) es,
      ∀ p' ∈ run step (some (start mids robots)) (es ++ fs),
        p'.server.count? mid = some ((p'.asks mid : Int) - p'.pending mid) ∧
          ∀ i, (p.robots i).joinedMatches_ ⊆ (p'.robots i).joinedMatches_ := by
  intro p hp p' hp'
  obtain ⟨hes, hfs⟩ := List.forall_mem_append.mp hkeeps
  have hcounted := (run_counted (start_counted robots hmid) hes p hp).1
  rw [run_append, show run step (some (start mids robots)) es = some p from hp] at hp'
  obtain ⟨hcounted', hsub⟩ := run_counted hcounted hfs p' hp'
  obtain ⟨n, hn, hsum⟩ := hcounted'.count
  refine ⟨?_, hsub⟩
  rw [hn, ← hsum]
  congr 1
  omega

/-- A robot joins the match `7`, and asks to leave it. -/
def joinAndLeave : List Event :=
  [.loginRS 0, .matchListRS 0 [⟨7, 1⟩], .joinTimer 0 3, .request 0, .reply 0, .unjoinTimer 0 5, .updateMatches [7, 8],
    .request 0]

theorem players_only_join_twice :
    (run step (some (start [7] fun _ => { uid := 1 })) joinAndLeave).isSome = true ∧
      ∀ p ∈ run step (some (start [7] fun _ => { uid := 1 })) (joinAndLeave.take 5),
        ∀ p' ∈ run step (some (start [7] fun _ => { uid := 1 })) joinAndLeave,
          p'.server.count? 7 = some ((p'.asks 7 : Int) - p'.pending 7) ∧
            ∀ i, (p.robots i).joinedMatches_ ⊆ (p'.robots i).joinedMatches_ := by
  refine ⟨by decide, players_only_join [7] (fun _ => { uid := 1 }) (joinAndLeave.take 5) (joinAndLeave.drop 5) 7 (by simp) ?_⟩
  intro e he mids hmids
  subst hmids
  simp [joinAndLeave] at he
  simp [he]

end Play

end AsioUtils.MatchServer
