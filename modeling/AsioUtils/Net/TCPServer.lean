import AsioUtils.Lib.Decimal
import AsioUtils.Lib.Runs
import AsioUtils.Lib.UnorderedMap
import AsioUtils.Net.TCPSessionManager

/-!
# `TCPServer`: connections by name

A server keeps its connections under their names, which consist of the address and the port of the peer and of a running
number, cut to what a buffer of 64 characters holds. A connection that closes is looked up by its name.

* `connectionName`, `newConnection`, `removeConnection` : the names, and the member functions;
* `Event`, `step` : the acceptor, which accepts until its first error, and the connections that close;
* `connectionName_inj` : names of addresses of up to 45 characters, which is what an IPv6 address takes, differ;
* `holds_open` : over any run with such addresses the map holds the open connections, each under its name.
-/

namespace AsioUtils.Net

open Runs

/-- `snprintf(buf, sizeof(buf), "%s:%d-%d", ...)` -/
def connectionName (address : List Char) (port : Nat) (id : Nat) : List Char :=
  (address ++ ':' :: (toString port).toList ++ '-' :: (toString id).toList).take 63

/-- `names` are the names of the sessions created so far, which are numbered from 0 on. `closed` are those that have
closed. -/
structure TCPServer where
  nextConnectionID_ : Nat := 0
  connectionsMap_ : UnorderedMap (List Char) TCPSessionPtr := ∅
  names : List (List Char) := []
  closed : List TCPSessionPtr := []
  accepting : Bool := true

namespace TCPServer

def INT_MAX : Nat := 2147483647

/-- `none` is a number that overflows. -/
def newConnection (s : TCPServer) (address : List Char) (port : UInt16) : Option TCPServer :=
  if s.nextConnectionID_ < INT_MAX then
    let name := connectionName address port.toNat (s.nextConnectionID_ + 1)
    some
      { s with
        nextConnectionID_ := s.nextConnectionID_ + 1
        connectionsMap_ := UnorderedMap.assign s.connectionsMap_ name s.names.length
        names := s.names ++ [name] }
  else none

/-- The close callback of a session. -/
def removeConnection (s : TCPServer) (session : TCPSessionPtr) (name : List Char) : TCPServer :=
  { s with
    connectionsMap_ := if name ∈ s.connectionsMap_ then s.connectionsMap_.erase name else s.connectionsMap_
    closed := session :: s.closed }

inductive Event
  /-- `handAccept` with a socket that is connected to this peer -/
  | accepted (address : List Char) (port : UInt16)
  /-- `handAccept` with an error -/
  | acceptError
  /-- `handClose` of a session, which acts once -/
  | closes (session : TCPSessionPtr)

def handle (s : TCPServer) : Event → Option TCPServer
  | .accepted address port => if s.accepting then s.newConnection address port else some s
  | .acceptError => some { s with accepting := false }
  | .closes session =>
    match s.names[session]? with
    | some name => if session ∈ s.closed then some s else some (s.removeConnection session name)
    | none => some s

def step (s : Option TCPServer) (e : Event) : Option TCPServer := s.bind fun s => s.handle e

/-- The text of the address is not longer than that of an IPv6 address. -/
def Short : Event → Prop
  | .accepted address _ => address.length ≤ 45
  | _ => True

instance : (e : Event) → Decidable (Short e)
  | .accepted address _ => inferInstanceAs (Decidable (address.length ≤ 45))
  | .acceptError | .closes _ => .isTrue trivial

/-! ## Names -/

/-- What follows the last of a character. -/
theorem eq_of_append_cons {α : Type*} [DecidableEq α] {xs ys as bs : List α} {c : α} (ha : c ∉ as) (hb : c ∉ bs)
    (h : xs ++ c :: as = ys ++ c :: bs) : as = bs := by
  have hlast : ∀ zs ds : List α, c ∉ ds → ((zs ++ c :: ds).reverse.takeWhile (· ≠ c)).reverse = ds := fun zs ds hds => by
    have hne : ∀ d ∈ ds.reverse, decide (d ≠ c) = true := fun d hd => by
      rw [List.mem_reverse] at hd
      exact decide_eq_true fun heq => hds (heq ▸ hd)
    rw [List.reverse_append, List.reverse_cons, List.append_assoc, List.takeWhile_append_of_pos hne]
    simp
  rw [← hlast xs as ha, h, hlast ys bs hb]

theorem not_mem_toString (n : Nat) : '-' ∉ (toString n).toList := by
  rw [Decimal.toList_toString_nat]
  exact fun hmem => absurd (Decimal.isDigit_of_mem_toDigits hmem) (by decide)

theorem toString_injective {n m : Nat} (h : (toString n).toList = (toString m).toList) : n = m := by
  have hn := Decimal.nat?_toString n
  rw [h, Decimal.nat?_toString] at hn
  exact (Option.some.inj hn).symm

theorem length_toString_le {n k : Nat} (h : n < 10 ^ (k + 1)) : (toString n).toList.length ≤ k + 1 := by
  rw [Decimal.toList_toString_nat]
  exact (Nat.length_toDigits_le_iff (by decide) (Nat.succ_pos k)).mpr h

/-- Nothing is cut off. -/
theorem connectionName_eq {address : List Char} {port id : Nat} (haddress : address.length ≤ 45) (hport : port < 65536)
    (hid : id ≤ INT_MAX) :
    connectionName address port id = address ++ ':' :: (toString port).toList ++ '-' :: (toString id).toList := by
  have hports : (toString port).toList.length ≤ 5 := length_toString_le (by omega)
  have hids : (toString id).toList.length ≤ 10 := length_toString_le (by unfold INT_MAX at hid; omega)
  refine List.take_of_length_le ?_
  simp only [List.length_append, List.length_cons]
  omega

theorem connectionName_inj {a a' : List Char} {p p' n n' : Nat} (ha : a.length ≤ 45) (ha' : a'.length ≤ 45)
    (hp : p < 65536) (hp' : p' < 65536) (hn : n ≤ INT_MAX) (hn' : n' ≤ INT_MAX)
    (h : connectionName a p n = connectionName a' p' n') : n = n' := by
  rw [connectionName_eq ha hp hn, connectionName_eq ha' hp' hn'] at h
  exact toString_injective (eq_of_append_cons (not_mem_toString n) (not_mem_toString n') h)

/-! ## Runs -/

structure Inv (s : TCPServer) : Prop where
  next : s.nextConnectionID_ = s.names.length
  bound : s.nextConnectionID_ ≤ INT_MAX
  named : ∀ p name, s.names[p]? = some name → ∃ address port, address.length ≤ 45 ∧ port < 65536 ∧
    name = connectionName address port (p + 1)
  closed : ∀ p ∈ s.closed, p < s.names.length
  holds : ∀ name p, s.connectionsMap_.lookup name = some p ↔ s.names[p]? = some name ∧ p ∉ s.closed

section Step

variable {s s' : TCPServer}

theorem Inv.unique (h : Inv s) {p q : TCPSessionPtr} {name : List Char} (hp : s.names[p]? = some name)
    (hq : s.names[q]? = some name) : p = q := by
  obtain ⟨a, port, ha, hport, hname⟩ := h.named p name hp
  obtain ⟨a', port', ha', hport', hname'⟩ := h.named q name hq
  have hbound := h.bound
  rw [h.next] at hbound
  have hp' := (List.getElem?_eq_some_iff.mp hp).1
  have hq' := (List.getElem?_eq_some_iff.mp hq).1
  exact Nat.succ_injective (connectionName_inj ha ha' hport hport' (by omega) (by omega) (hname.symm.trans hname'))

theorem newConnection_inv (h : Inv s) {address : List Char} {port : UInt16} (haddress : address.length ≤ 45)
    (heq : s.newConnection address port = some s') : Inv s' := by
  unfold newConnection at heq
  split_ifs at heq with hlt
  obtain rfl := Option.some.inj heq
  set name := connectionName address port.toNat (s.nextConnectionID_ + 1) with hname
  have hport : port.toNat < 65536 := port.toNat_lt
  have hlast : ∀ p, (s.names ++ [name])[p]? = if p = s.names.length then some name else s.names[p]? := fun p => by
    split_ifs with hp
    · rw [hp, List.getElem?_concat_length]
    · by_cases hlt : p < s.names.length
      · rw [List.getElem?_append_left hlt]
      · rw [List.getElem?_eq_none (by simp; omega), List.getElem?_eq_none (by omega)]
  -- the running number tells the new name from all others
  have hfresh : ∀ p, s.names[p]? ≠ some name := fun p hp => by
    obtain ⟨a, port', ha, hport', hname'⟩ := h.named p name hp
    have hlt' := (List.getElem?_eq_some_iff.mp hp).1
    have hnext := h.next
    have hsame := connectionName_inj haddress ha hport hport' (by omega) (by omega) (hname.symm.trans hname')
    omega
  have hopen : s.names.length ∉ s.closed := fun hmem => Nat.lt_irrefl _ (h.closed _ hmem)
  refine ⟨?_, hlt, fun p n hp => ?_, fun p hp => ?_, fun n p => ?_⟩
  · simp [h.next]
  · rw [hlast] at hp
    split_ifs at hp with hnew
    · obtain rfl := Option.some.inj hp
      exact ⟨address, port.toNat, haddress, hport, by rw [hname, hnew, h.next]⟩
    · exact h.named p n hp
  · rw [List.length_append]
    exact Nat.lt_add_right _ (h.closed p hp)
  · rw [UnorderedMap.lookup_assign, hlast]
    by_cases hp : p = s.names.length
    · rw [if_pos hp]
      by_cases hn : n = name
      · rw [if_pos hn, hp, hn]
        exact iff_of_true rfl ⟨rfl, hopen⟩
      · rw [if_neg hn, h.holds, hp, List.getElem?_eq_none (Nat.le_refl _)]
        simp [Ne.symm hn]
    · rw [if_neg hp]
      by_cases hn : n = name
      · rw [if_pos hn, hn]
        exact iff_of_false (fun heq => hp (Option.some.inj heq).symm) fun hboth => hfresh p hboth.1
      · rw [if_neg hn, h.holds]

/-- A session that closes is the only one of its name. -/
theorem removeConnection_inv (h : Inv s) {session : TCPSessionPtr} {name : List Char}
    (hname : s.names[session]? = some name) : Inv (s.removeConnection session name) := by
  have hlookup : ∀ n p, (s.removeConnection session name).connectionsMap_.lookup n = some p ↔
      n ≠ name ∧ s.connectionsMap_.lookup n = some p := fun n p => by
    show (if name ∈ s.connectionsMap_ then s.connectionsMap_.erase name else s.connectionsMap_).lookup n = some p ↔ _
    split_ifs with hmem
    · exact UnorderedMap.lookup_erase_eq_some
    · refine (and_iff_right_of_imp fun hn heq => hmem ?_).symm
      rw [← heq]
      exact AList.lookup_isSome.mp (by rw [hn]; rfl)
  refine ⟨h.next, h.bound, h.named, fun p hp => ?_, fun n p => ?_⟩
  · rcases List.mem_cons.mp hp with rfl | hp
    · exact (List.getElem?_eq_some_iff.mp hname).1
    · exact h.closed p hp
  · rw [hlookup, h.holds]
    show n ≠ name ∧ s.names[p]? = some n ∧ p ∉ s.closed ↔ s.names[p]? = some n ∧ p ∉ session :: s.closed
    rw [List.mem_cons, not_or, and_left_comm]
    refine and_congr_right fun hp => and_congr_left fun _ => not_congr ⟨fun heq => ?_, fun heq => ?_⟩
    · exact h.unique (heq ▸ hp) hname
    · rw [heq, hname] at hp
      exact (Option.some.inj hp).symm

theorem handle_inv (h : Inv s) {e : Event} (he : Short e) (heq : s.handle e = some s') : Inv s' := by
  cases e with
  | accepted address port =>
    rw [handle] at heq
    split_ifs at heq
    · exact newConnection_inv h he heq
    · exact Option.some.inj heq ▸ h
  | acceptError => exact Option.some.inj heq ▸ ⟨h.next, h.bound, h.named, h.closed, h.holds⟩
  | closes session =>
    rw [handle] at heq
    cases hname : s.names[session]? with
    | none =>
      rw [hname] at heq
      exact Option.some.inj heq ▸ h
    | some name =>
      rw [hname] at heq
      dsimp only at heq
      split_ifs at heq
      · exact Option.some.inj heq ▸ h
      · exact Option.some.inj heq ▸ removeConnection_inv h hname

end Step

theorem inv_start : Inv {} where
  next := rfl
  bound := Nat.zero_le _
  named p name hp := by simp at hp
  closed p hp := by simp at hp
  holds name p := by simp

theorem run_inv {es : List Event} (hes : ∀ e ∈ es, Short e) : ∀ s ∈ run step (some {}) es, Inv s := by
  refine inv_run_along (q := fun s => ∀ s' ∈ s, Inv s') (p := fun _ e => Short e) (fun s e hs he s' hs' => ?_)
    (fun s hs => Option.some.inj hs ▸ inv_start) (along_iff_mem.mpr hes)
  obtain ⟨s₁, hs₁, heq⟩ := Option.bind_eq_some_iff.mp hs'
  exact handle_inv (hs s₁ hs₁) he heq

/-- **The map of the connections**: over any run with addresses of up to 45 characters, and with fewer connections than
`nextConnectionID_` can number, it holds the connections that were accepted and have not closed, each under its own name. -/
theorem holds_open (es : List Event) (hes : ∀ e ∈ es, Short e) : ∀ s ∈ run step (some {}) es, ∀ name p,
    s.connectionsMap_.lookup name = some p ↔ s.names[p]? = some name ∧ p ∉ s.closed :=
  fun s hs => (run_inv hes s hs).holds

/-- Two connections from one port, of which the first closes. -/
def twoConnections : List Event :=
  [.accepted "::1".toList 7000, .accepted "::1".toList 7000, .closes 0]

theorem holds_open_two : (run step (some {}) twoConnections).isSome = true ∧
    ∀ s ∈ run step (some {}) twoConnections, ∀ name p,
      s.connectionsMap_.lookup name = some p ↔ s.names[p]? = some name ∧ p ∉ s.closed :=
  ⟨by decide, holds_open twoConnections (by decide)⟩

/-- An address that is too long: both connections have its first characters for a name, and the map loses the second one
when the first closes. -/
example : ((run step (some {}) [.accepted (List.replicate 63 'f') 1, .accepted (List.replicate 63 'f') 2, .closes 0]).map
    fun s => s.connectionsMap_.entries.length) = some 0 := by decide

end TCPServer

end AsioUtils.Net
