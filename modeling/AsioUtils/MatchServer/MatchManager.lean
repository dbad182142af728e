import AsioUtils.Lib.OrderedMap
import AsioUtils.Lib.Runs
import Mathlib.Data.Int.Order.Basic

/-!
# `MSMatchManager`: the matches a match server runs

The list the central server gave out, and for each match how many players joined. The counts are `int`s; `none` is one
that overflows.

* `count?_updateMatches` : an update keeps the counts of what stays and starts the others at `0`;
* `call_update`, `call_hosted`, `call_absent` : what each call does;
* `Sound`, `sound_iff_guarded` : what is asked of a call, and when it does it.
-/

namespace AsioUtils.MatchServer

structure MSMatchManager where
  matches_ : List Int := []
  /-- players by `mid` -/
  testMatchinfos_ : OrderedMap Int Int id := .empty
  deriving DecidableEq

namespace MSMatchManager

open Runs

/-- `testMatchinfos_[mid]`: an absent `mid` is put in with `0`. -/
def playersAt (infos : OrderedMap Int Int id) (mid : Int) : Int × OrderedMap Int Int id :=
  match infos.find? mid with
  | some e => (e.2, infos)
  | none => (0, infos.insert (mid, 0))

/-- Loop of `updateMatches`: `tmp[mid] = testMatchinfos_[mid]`. -/
def collectInfos : List Int → OrderedMap Int Int id → OrderedMap Int Int id → OrderedMap Int Int id
  | [], _, tmp => tmp
  | mid :: mids, infos, tmp =>
    let r := playersAt infos mid
    collectInfos mids r.2 (tmp.assign mid r.1)

def updateMatches (m : MSMatchManager) (mids : List Int) : MSMatchManager :=
  { matches_ := mids, testMatchinfos_ := collectInfos mids m.testMatchinfos_ .empty }

/-- An `int` plus `d`. -/
def addInt (n d : Int) : Option Int := if -2147483648 ≤ n + d ∧ n + d ≤ 2147483647 then some (n + d) else none

/-- The common part of `joinMatch` and `unjoinMatch`: `testMatchinfos_[mid]` changes by `d`. The second component is the
number of players then, `-1` when the match does not run here. -/
def addPlayers (m : MSMatchManager) (mid d : Int) : Option (MSMatchManager × Int) :=
  match m.testMatchinfos_.find? mid with
  | some e => (addInt e.2 d).map fun n => ({ m with testMatchinfos_ := m.testMatchinfos_.modify mid fun _ => n }, n)
  | none => some (m, -1)

def joinMatch (m : MSMatchManager) (mid : Int) : Option (MSMatchManager × Int) := m.addPlayers mid 1

def unjoinMatch (m : MSMatchManager) (mid : Int) : Option (MSMatchManager × Int) := m.addPlayers mid (-1)

/-- The players of a match that runs here. -/
def count? (m : MSMatchManager) (mid : Int) : Option Int := (m.testMatchinfos_.find? mid).map Prod.snd

theorem mem_iff_count? {m : MSMatchManager} {mid : Int} : mid ∈ m.testMatchinfos_ ↔ ∃ n, m.count? mid = some n := by
  rw [OrderedMap.mem_iff]
  constructor
  · rintro ⟨e, he⟩
    exact ⟨e.2, by rw [count?, he]; rfl⟩
  · rintro ⟨n, hn⟩
    obtain ⟨e, he, -⟩ := Option.map_eq_some_iff.mp hn
    exact ⟨e, he⟩

/-! ## Updates -/

theorem playersAt_fst (infos : OrderedMap Int Int id) (mid : Int) :
    (playersAt infos mid).1 = ((infos.find? mid).map Prod.snd).getD 0 := by
  unfold playersAt
  cases infos.find? mid <;> rfl

/-- The entry put in for an absent match changes no number that is read. -/
theorem players_playersAt (infos : OrderedMap Int Int id) (mid i : Int) :
    (((playersAt infos mid).2.find? i).map Prod.snd).getD 0 = ((infos.find? i).map Prod.snd).getD 0 := by
  unfold playersAt
  cases h : infos.find? mid with
  | some e => rfl
  | none =>
    simp only [OrderedMap.find?_insert]
    split_ifs with hi
    · rw [show i = mid from hi, h]
      rfl
    · rfl

theorem find?_collectInfos (mids : List Int) (infos tmp : OrderedMap Int Int id) (i : Int) :
    ((collectInfos mids infos tmp).find? i).map Prod.snd =
      if i ∈ mids then some (((infos.find? i).map Prod.snd).getD 0) else (tmp.find? i).map Prod.snd := by
  induction mids generalizing infos tmp with
  | nil => simp [collectInfos]
  | cons mid mids ih =>
    rw [collectInfos, ih, players_playersAt, OrderedMap.find?_assign, playersAt_fst]
    by_cases hi : i = mid
    · subst hi
      simp
    · simp [hi]

/-- **An update** keeps the counts of the matches that stay, and starts the others at `0`. -/
theorem count?_updateMatches (m : MSMatchManager) (mids : List Int) (mid : Int) :
    (m.updateMatches mids).count? mid = if mid ∈ mids then some ((m.count? mid).getD 0) else none :=
  find?_collectInfos mids m.testMatchinfos_ .empty mid

/-! ## Joining and leaving -/

theorem addPlayers_absent {m : MSMatchManager} {mid : Int} (h : m.count? mid = none) (d : Int) :
    m.addPlayers mid d = some (m, -1) := by
  rw [addPlayers, Option.map_eq_none_iff.mp h]

theorem addPlayers_hosted {m : MSMatchManager} {mid n : Int} (h : m.count? mid = some n) (d : Int) :
    m.addPlayers mid d =
      (addInt n d).map fun n => ({ m with testMatchinfos_ := m.testMatchinfos_.modify mid fun _ => n }, n) := by
  obtain ⟨e, he, rfl⟩ := Option.map_eq_some_iff.mp h
  rw [addPlayers, he]

theorem count?_modify (m : MSMatchManager) (mid n i : Int) :
    count? { m with testMatchinfos_ := m.testMatchinfos_.modify mid fun _ => n } i =
      if i = mid then (m.count? i).map fun _ => n else m.count? i := by
  rw [count?, OrderedMap.find?_modify]
  split_ifs
  · rw [count?, Option.map_map, Option.map_map]
    rfl
  · rfl

/-! ## Sequences of calls -/

inductive Call
  | updateMatches (mids : List Int)
  | joinMatch (mid : Int)
  | unjoinMatch (mid : Int)

/-- The manager after a call, and what the call returns. -/
def call (m : MSMatchManager) : Call → Option (MSMatchManager × Option Int)
  | .updateMatches mids => some (m.updateMatches mids, none)
  | .joinMatch mid => (m.joinMatch mid).map fun r => (r.1, some r.2)
  | .unjoinMatch mid => (m.unjoinMatch mid).map fun r => (r.1, some r.2)

def step (s : Option MSMatchManager) (c : Call) : Option MSMatchManager := s.bind fun m => (m.call c).map Prod.fst

/-- The list of the last update; before the call it was `old`. -/
def Call.lastList (old : List Int) : Call → List Int
  | .updateMatches mids => mids
  | _ => old

/-- The match a call joins or leaves, and by how much its count is to change. -/
def Call.player : Call → Option (Int × Int)
  | .updateMatches _ => none
  | .joinMatch mid => some (mid, 1)
  | .unjoinMatch mid => some (mid, -1)

/-- What is asked of a call: the matches that run here are those of the last update, an update keeps the counts of what
stays and starts the others at `0`, a count is an `int` and not negative, and `-1` is returned for no match that runs
here. -/
structure Meets (m : MSMatchManager) (c : Call) (m' : MSMatchManager) (r : Option Int) : Prop where
  last : m'.matches_ = c.lastList m.matches_
  hosted : ∀ mid, mid ∈ m'.testMatchinfos_ ↔ mid ∈ m'.matches_
  kept : ∀ mids, c = .updateMatches mids → ∀ mid ∈ mids, m'.count? mid = some ((m.count? mid).getD 0)
  count : ∀ mid n, m'.count? mid = some n → 0 ≤ n ∧ n ≤ 2147483647
  absent : ∀ mid d, c.player = some (mid, d) → r = some (-1) → mid ∉ m.testMatchinfos_

def Sound (s : Option MSMatchManager) (c : Call) : Prop :=
  ∃ m m' r, s = some m ∧ m.call c = some (m', r) ∧ m.Meets c m' r

/-- Nobody leaves a match that runs here without players, and nobody joins one whose count is the greatest `int`. -/
def Guarded (s : Option MSMatchManager) (c : Call) : Prop :=
  ∀ m ∈ s, ∀ mid n, m.count? mid = some n → (c = .unjoinMatch mid → 0 < n) ∧ (c = .joinMatch mid → n < 2147483647)

/-- What holds between calls. -/
structure Inv (m : MSMatchManager) : Prop where
  hosted : ∀ mid, mid ∈ m.testMatchinfos_ ↔ mid ∈ m.matches_
  count : ∀ mid n, m.count? mid = some n → 0 ≤ n ∧ n ≤ 2147483647

theorem Meets.inv {m m' : MSMatchManager} {c : Call} {r : Option Int} (h : m.Meets c m' r) : m'.Inv :=
  ⟨h.hosted, h.count⟩

theorem call_of_player {m : MSMatchManager} {c : Call} {mid d : Int} (hc : c.player = some (mid, d)) :
    m.call c = (m.addPlayers mid d).map fun r => (r.1, some r.2) := by
  cases c with
  | updateMatches mids => cases hc
  | joinMatch mid' =>
    obtain ⟨rfl, rfl⟩ := Prod.mk.inj (Option.some.inj hc)
    rfl
  | unjoinMatch mid' =>
    obtain ⟨rfl, rfl⟩ := Prod.mk.inj (Option.some.inj hc)
    rfl

theorem lastList_of_player {c : Call} {p : Int × Int} (hc : c.player = some p) (old : List Int) : c.lastList old = old := by
  cases c with
  | updateMatches mids => cases hc
  | joinMatch mid => rfl
  | unjoinMatch mid => rfl

theorem Inv.meets_update {m : MSMatchManager} (h : m.Inv) (mids : List Int) :
    m.Meets (.updateMatches mids) (m.updateMatches mids) none := by
  refine ⟨rfl, fun mid => ?_, ?_, fun mid n hn => ?_, fun mid d hc => by cases hc⟩
  · rw [mem_iff_count?, count?_updateMatches]
    show _ ↔ mid ∈ mids
    split_ifs with hmid <;> simp [hmid]
  · rintro _ ⟨⟩ mid hmid
    rw [count?_updateMatches, if_pos hmid]
  · rw [count?_updateMatches] at hn
    split_ifs at hn
    obtain rfl := Option.some.inj hn
    cases hcount : m.count? mid with
    | none => decide
    | some n => exact h.count mid n hcount

/-- A call for a match that does not run here. -/
theorem Inv.meets_absent {m : MSMatchManager} (h : m.Inv) {c : Call} {mid d : Int} (hc : c.player = some (mid, d))
    (habsent : m.count? mid = none) : m.Meets c m (some (-1)) := by
  refine ⟨(lastList_of_player hc _).symm, h.hosted, ?_, h.count, fun mid' d' hc' _ => ?_⟩
  · rintro mids rfl
    cases hc
  · obtain ⟨rfl, -⟩ := Prod.mk.inj (Option.some.inj (hc.symm.trans hc'))
    simp [mem_iff_count?, habsent]

/-- A call for a match that runs here does what is asked of it exactly when the count stays a number of players. -/
theorem Inv.meets_hosted {m : MSMatchManager} (h : m.Inv) {c : Call} {mid d n : Int} (hc : c.player = some (mid, d))
    (hn : m.count? mid = some n) :
    (∃ m' r, m.call c = some (m', r) ∧ m.Meets c m' r) ↔ 0 ≤ n + d ∧ n + d ≤ 2147483647 := by
  have hcall := call_of_player (m := m) hc
  rw [addPlayers_hosted hn] at hcall
  constructor
  · rintro ⟨m', r, heq, hmeets⟩
    rw [hcall, addInt] at heq
    split_ifs at heq with hint
    · obtain ⟨rfl, rfl⟩ := Prod.mk.inj (Option.some.inj heq)
      refine hmeets.count mid _ ?_
      rw [count?_modify, if_pos rfl, hn]
      rfl
    · cases heq
  · intro hcount
    rw [addInt, if_pos ⟨by omega, hcount.2⟩] at hcall
    refine ⟨_, _, hcall, (lastList_of_player hc _).symm, fun i => ?_, ?_, fun i k hk => ?_, fun i d' hc' hr => ?_⟩
    · exact OrderedMap.mem_modify.trans (h.hosted i)
    · rintro mids rfl
      cases hc
    · rw [count?_modify] at hk
      split_ifs at hk with hi
      · obtain ⟨-, -, rfl⟩ := Option.map_eq_some_iff.mp hk
        exact hcount
      · exact h.count i k hk
    · have hneg : n + d = -1 := Option.some.inj hr
      omega

theorem Inv.guarded_iff {m : MSMatchManager} (h : m.Inv) {c : Call} {mid d : Int} (hc : c.player = some (mid, d)) :
    Guarded (some m) c ↔ ∀ n, m.count? mid = some n → 0 ≤ n + d ∧ n + d ≤ 2147483647 := by
  have hbound := h.count mid
  constructor
  · intro hg n hn
    have hboth := hg m rfl mid n hn
    have := hbound n hn
    cases c with
    | updateMatches mids => cases hc
    | joinMatch mid' =>
      obtain ⟨rfl, rfl⟩ := Prod.mk.inj (Option.some.inj hc)
      have := hboth.2 rfl
      omega
    | unjoinMatch mid' =>
      obtain ⟨rfl, rfl⟩ := Prod.mk.inj (Option.some.inj hc)
      have := hboth.1 rfl
      omega
  · rintro hall _ ⟨⟩ i n hn
    constructor
    · rintro rfl
      obtain ⟨rfl, rfl⟩ := Prod.mk.inj (Option.some.inj hc)
      have := hall n hn
      omega
    · rintro rfl
      obtain ⟨rfl, rfl⟩ := Prod.mk.inj (Option.some.inj hc)
      have := hall n hn
      omega

/-- One call: from a good state it does what is asked of it exactly when it is guarded. -/
theorem Inv.sound_iff {m : MSMatchManager} (h : m.Inv) (c : Call) : Sound (some m) c ↔ Guarded (some m) c := by
  have hsound : Sound (some m) c ↔ ∃ m' r, m.call c = some (m', r) ∧ m.Meets c m' r := by
    constructor
    · rintro ⟨m₀, m', r, hm, hcall⟩
      obtain rfl := Option.some.inj hm
      exact ⟨m', r, hcall⟩
    · exact fun ⟨m', r, hcall⟩ => ⟨m, m', r, rfl, hcall⟩
  rw [hsound]
  cases hc : c.player with
  | none =>
    cases c with
    | updateMatches mids =>
      refine iff_of_true ⟨_, _, rfl, h.meets_update mids⟩ fun m _ mid n _ => ⟨?_, ?_⟩
      · exact fun hc => by cases hc
      · exact fun hc => by cases hc
    | joinMatch mid => cases hc
    | unjoinMatch mid => cases hc
  | some p =>
    rw [h.guarded_iff hc]
    cases hn : m.count? p.1 with
    | none =>
      refine iff_of_true ⟨m, _, ?_, h.meets_absent hc hn⟩ fun n hn => by cases hn
      rw [call_of_player hc, addPlayers_absent hn]
      rfl
    | some n =>
      refine (h.meets_hosted hc hn).trans ⟨?_, fun hall => hall n rfl⟩
      rintro hcount _ ⟨⟩
      exact hcount

/-- **Sequences of calls** from the empty state do what is asked of them exactly when every call is guarded. -/
theorem sound_iff_guarded (cs : List Call) : Along step Sound (some {}) cs ↔ Along step Guarded (some {}) cs := by
  have hstep : ∀ s c, (∃ m, s = some m ∧ m.Inv) → Guarded s c → ∃ m, step s c = some m ∧ m.Inv := by
    rintro _ c ⟨m, rfl, h⟩ hg
    obtain ⟨m₀, m', r, hm, hcall, hmeets⟩ := (h.sound_iff c).mpr hg
    obtain rfl := Option.some.inj hm
    refine ⟨m', ?_, hmeets.inv⟩
    rw [step, Option.bind_some, hcall]
    rfl
  have hempty : ∃ m : MSMatchManager, some {} = some m ∧ m.Inv :=
    ⟨{}, rfl, by simp, fun mid n hn => by cases hn⟩
  have hvalid : Along step (fun _ _ => True) (some {}) cs := along_of_mem fun _ _ _ => trivial
  refine along_iff_along ?_ (fun s c hs _ hg => hstep s c hs hg) hempty hvalid
  rintro _ c ⟨m, rfl, h⟩ -
  exact h.sound_iff c

/-- Of a match without players somebody is taken off, and the call returns the code of a match that does not run here. -/
theorem unjoin_empty_match :
    ¬ Along step Sound (some {}) [.updateMatches [7], .unjoinMatch 7] ∧
      (step (some {}) (.updateMatches [7])).map (fun m => (decide (7 ∈ m.testMatchinfos_),
        (m.unjoinMatch 7).map fun r => (r.1.count? 7, r.2))) = some (true, some (some (-1), -1)) := by
  refine ⟨?_, by decide⟩
  rintro ⟨-, ⟨m, m', r, hm, hcall, hmeets⟩, -⟩
  obtain rfl := Option.some.inj hm
  obtain ⟨rfl, rfl⟩ := Prod.mk.inj (Option.some.inj hcall)
  exact absurd (hmeets.count 7 (-1) (by decide)).1 (by decide)

end MSMatchManager

end AsioUtils.MatchServer
