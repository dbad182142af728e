import Mathlib.Algebra.Group.Nat.Defs
import Mathlib.Data.List.Basic
import Mathlib.Data.Nat.Bitwise

/-!
# `BetCoreAlgo`: packets behind a header of variable length

A header byte with its top bit set is followed by another one. `get_packet_header_size` counts the header's bytes,
`convert_packet` takes the packet apart. A packet is the memory from a pointer on; reading past it gives `none`.

* `groups` : the number a header stands for;
* `convert_of_one`, `convert_of_more` : what `convert_packet` does, by the first byte alone;
* `convert_packet_iff` : it takes apart what has a header of one or two bytes.
-/

namespace AsioUtils.BetCoreAlgo

/-- The `for` loop, `i` being `0`, `8`, `16`, `24`. -/
def headerSizeLoop : List UInt8 → Nat → Option Nat
  | packet, i =>
    if i < 32 then
      match packet with
      | [] => none
      | b :: packet => if b &&& 0x80 = 0 then some ((i + 8) >>> 3) else headerSizeLoop packet (i + 8)
    else some 0

def get_packet_header_size (packet : List UInt8) : Option Nat := headerSizeLoop packet 0

/-- `memcpy(out_packet, packet + n, size - n)`; a difference below `0` would wrap. -/
def copyFrom (packet : List UInt8) (n size : Nat) : Option (List UInt8) :=
  if n ≤ size ∧ size ≤ packet.length then some ((packet.take size).drop n) else none

/-- The length that is returned and the bytes at `out_packet`. -/
def convert_packet (packet : List UInt8) (size : Nat) : Option (Nat × List UInt8) :=
  match packet with
  | [] => none
  | b :: rest =>
    if b &&& 0x80 = 0 then (copyFrom packet 1 size).map fun out => ((b &&& 0x7F).toNat, out)
    else
      match rest with
      | [] => none
      | res :: _ => (copyFrom packet 2 size).map fun out => ((b &&& 0x7F).toNat ||| (res &&& 0xFF).toNat <<< 7, out)

/-- The number that the low seven bits of the bytes form, least significant group first. -/
def groups (header : List UInt8) : Nat := header.foldr (fun b n => b.toNat % 2 ^ 7 + 2 ^ 7 * n) 0

/-! ## One byte -/

theorem and_topBit (b : UInt8) : b &&& 0x80 = 0 ↔ b.toNat < 2 ^ 7 := by
  have hall : ∀ n < 256, (n &&& 0x80 = 0 ↔ n < 2 ^ 7) := by decide +kernel
  rw [← UInt8.toNat_inj, UInt8.toNat_and]
  exact hall _ b.toNat_lt

theorem toNat_lowBits (b : UInt8) : (b &&& 0x7F).toNat = b.toNat % 2 ^ 7 := by
  rw [UInt8.toNat_and]
  exact Nat.and_two_pow_sub_one_eq_mod b.toNat 7

theorem toNat_allBits (b : UInt8) : (b &&& 0xFF).toNat = b.toNat := by
  rw [UInt8.toNat_and]
  exact (Nat.and_two_pow_sub_one_eq_mod b.toNat 8).trans (Nat.mod_eq_of_lt b.toNat_lt)

/-! ## The header's size -/

theorem headerSizeLoop_cons {i : Nat} (hi : i < 4) (b : UInt8) (packet : List UInt8) :
    headerSizeLoop (b :: packet) (8 * i) =
      if b.toNat < 2 ^ 7 then some (i + 1) else headerSizeLoop packet (8 * (i + 1)) := by
  have hshift : (8 * i + 8) >>> 3 = i + 1 := by
    rw [Nat.shiftRight_eq_div_pow]
    omega
  rw [headerSizeLoop, if_pos (by omega)]
  simp only [and_topBit, hshift, Nat.mul_succ]

/-- Past `i` bytes a header has more than `i`, or more than four. -/
theorem lt_of_headerSizeLoop {packet : List UInt8} {i h : Nat} (heq : headerSizeLoop packet (8 * i) = some h) :
    h = 0 ∨ i < h := by
  induction packet generalizing i with
  | nil =>
    rw [headerSizeLoop] at heq
    split_ifs at heq
    exact .inl (Option.some.inj heq).symm
  | cons b packet ih =>
    by_cases hi : i < 4
    · rw [headerSizeLoop_cons hi] at heq
      split_ifs at heq
      · obtain rfl := Option.some.inj heq
        exact .inr (Nat.lt_succ_self i)
      · exact (ih heq).imp_right fun hlt => by omega
    · rw [headerSizeLoop, if_neg (by omega)] at heq
      exact .inl (Option.some.inj heq).symm

/-! ## Taking a packet apart -/

theorem copyFrom_of_le {packet : List UInt8} {n size : Nat} (hn : n ≤ size) (hsize : size ≤ packet.length) :
    copyFrom packet n size = some ((packet.take size).drop n) := if_pos ⟨hn, hsize⟩

/-- The first byte ends the header. -/
theorem convert_of_one {b : UInt8} {rest : List UInt8} {size : Nat} (hb : b.toNat < 2 ^ 7) (h1 : 1 ≤ size)
    (hsize : size ≤ (b :: rest).length) :
    convert_packet (b :: rest) size = some (groups [b], ((b :: rest).take size).drop 1) := by
  simp only [convert_packet, and_topBit, if_pos hb, copyFrom_of_le h1 hsize, Option.map_some, toNat_lowBits]
  rfl

/-- It does not: whatever the second byte is, it is taken for the last one. -/
theorem convert_of_more {b res : UInt8} {rest : List UInt8} {size : Nat} (hb : ¬ b.toNat < 2 ^ 7) (h2 : 2 ≤ size)
    (hsize : size ≤ (b :: res :: rest).length) :
    convert_packet (b :: res :: rest) size =
      some (b.toNat % 2 ^ 7 + 2 ^ 7 * res.toNat, ((b :: res :: rest).take size).drop 2) := by
  have hor : b.toNat % 2 ^ 7 ||| res.toNat <<< 7 = b.toNat % 2 ^ 7 + 2 ^ 7 * res.toNat := by
    rw [Nat.or_comm, ← Nat.shiftLeft_add_eq_or_of_lt (Nat.mod_lt _ (by omega)), Nat.shiftLeft_eq, Nat.add_comm,
      Nat.mul_comm]
  simp only [convert_packet, and_topBit, if_neg hb, copyFrom_of_le h2 hsize, Option.map_some, toNat_lowBits,
    toNat_allBits, hor]

/-- **`convert_packet`** takes a packet apart as `get_packet_header_size` measures it exactly when the header has one or
two bytes. -/
theorem convert_packet_iff {packet : List UInt8} {size h : Nat} (hheader : get_packet_header_size packet = some h)
    (hpos : 1 ≤ h) (hle : h ≤ size) (hsize : size ≤ packet.length) :
    convert_packet packet size = some (groups (packet.take h), (packet.take size).drop h) ↔ h ≤ 2 := by
  cases packet with
  | nil => simp at hsize; omega
  | cons b rest =>
    have hfirst := headerSizeLoop_cons (i := 0) (by omega) b rest
    by_cases hb : b.toNat < 2 ^ 7
    · rw [if_pos hb] at hfirst
      obtain rfl : 1 = h := Option.some.inj (hfirst.symm.trans hheader)
      exact iff_of_true (convert_of_one hb hle hsize) (by omega)
    · rw [if_neg hb] at hfirst
      have hloop : headerSizeLoop rest (8 * 1) = some h := hfirst.symm.trans hheader
      have h2 : 1 < h := (lt_of_headerSizeLoop hloop).resolve_left (by omega)
      cases rest with
      | nil => simp at hsize; omega
      | cons res rest =>
        rw [convert_of_more hb (by omega) hsize]
        rw [headerSizeLoop_cons (by omega)] at hloop
        by_cases hres : res.toNat < 2 ^ 7
        · rw [if_pos hres] at hloop
          obtain rfl : 2 = h := Option.some.inj hloop
          refine iff_of_true ?_ le_rfl
          simp [groups]
          omega
        · -- two bytes are taken off, where the header has more
          rw [if_neg hres] at hloop
          have h3 : 2 < h := (lt_of_headerSizeLoop hloop).resolve_left (by omega)
          refine iff_of_false (fun heq => ?_) (by omega)
          have hlen := congrArg List.length (Prod.mk.inj (Option.some.inj heq)).2
          rw [List.length_drop, List.length_drop, List.length_take_of_le hsize] at hlen
          omega

theorem convert_packet_of_two :
    convert_packet [0x83, 0x02, 7] 3 = some (groups [0x83, 0x02], [7]) :=
  (@convert_packet_iff [0x83, 0x02, 7] 3 2 (by decide) (by omega) (by omega) (by decide)).mpr le_rfl

/-- A header of three bytes, the last of which is taken for the first byte of the packet. -/
theorem convert_packet_three :
    get_packet_header_size [0x80, 0x80, 0x01, 7] = some 3 ∧
      convert_packet [0x80, 0x80, 0x01, 7] 4 ≠ some (groups [0x80, 0x80, 0x01], [7]) ∧
      convert_packet [0x80, 0x80, 0x01, 7] 4 = some (2 ^ 14, [0x01, 7]) := by
  decide

end AsioUtils.BetCoreAlgo
