import Mathlib.Algebra.Group.Int.Defs
import Mathlib.Algebra.Group.Nat.Defs
import Mathlib.Data.List.Basic
import Mathlib.Data.List.Infix

/-!
# Integers and records as bytes

* `ofNat`, `toNat` : the low bytes of a number, least significant first, and back (`toNat_ofNat`);
* `ofInt32`, `toInt32` : 32-bit integers in little-endian order, and back (`toInt32_ofInt32`);
* `prefix_flatMap` : a first part of a concatenation of encodings is some whole encodings and a piece of the next.
-/

namespace Bytes

/-- The four bytes of `x`, least significant first. -/
def ofInt32 (x : Int32) : List UInt8 :=
  [.ofNat x.toBitVec.toNat, .ofNat (x.toBitVec.toNat / 2 ^ 8), .ofNat (x.toBitVec.toNat / 2 ^ 16),
    .ofNat (x.toBitVec.toNat / 2 ^ 24)]

/-- The number whose bytes are `l`, least significant first. -/
def toNat (l : List UInt8) : Nat := l.foldr (fun b n => b.toNat + 2 ^ 8 * n) 0

/-- The `n` low bytes of `x`, least significant first. -/
def ofNat : Nat → Nat → List UInt8
  | 0, _ => []
  | n + 1, x => .ofNat x :: ofNat n (x / 2 ^ 8)

@[simp] theorem length_ofNat (n x : Nat) : (ofNat n x).length = n := by
  induction n generalizing x with
  | zero => rfl
  | succ n ih => rw [ofNat, List.length_cons, ih]

theorem toNat_ofNat (n x : Nat) : toNat (ofNat n x) = x % 2 ^ (8 * n) := by
  induction n generalizing x with
  | zero => simp [ofNat, toNat, Nat.mod_one]
  | succ n ih =>
    show (UInt8.ofNat x).toNat + 2 ^ 8 * toNat (ofNat n (x / 2 ^ 8)) = _
    rw [ih, UInt8.toNat_ofNat', Nat.mul_succ, Nat.add_comm (8 * n), Nat.pow_add, Nat.mod_mul]

/-- The integer in the first four bytes. -/
def toInt32 (l : List UInt8) : Int32 := .ofBitVec (.ofNat 32 (toNat (l.take 4)))

theorem toNat_ofInt32 (x : Int32) : toNat (ofInt32 x) = x.toBitVec.toNat := by
  have hlt : x.toBitVec.toNat < 2 ^ 32 := x.toBitVec.isLt
  simp only [ofInt32, toNat, List.foldr_cons, List.foldr_nil, UInt8.toNat_ofNat']
  omega

theorem toInt32_ofInt32 (x : Int32) (rest : List UInt8) : toInt32 (ofInt32 x ++ rest) = x := by
  have htake : (ofInt32 x ++ rest).take 4 = ofInt32 x := rfl
  rw [toInt32, htake, toNat_ofInt32, BitVec.ofNat_toNat, BitVec.setWidth_eq, Int32.ofBitVec_toBitVec]

/-- Only the first four bytes are read. -/
theorem toInt32_append {l : List UInt8} (h : 4 ≤ l.length) (rest : List UInt8) : toInt32 (l ++ rest) = toInt32 l := by
  rw [toInt32, toInt32, List.take_append_of_le_length h]

theorem ofInt32_toInt32 {l : List UInt8} (h : 4 ≤ l.length) : ofInt32 (toInt32 l) = l.take 4 := by
  match l, h with
  | a :: b :: c :: d :: rest, _ =>
    have ha := a.toNat_lt
    have hb := b.toNat_lt
    have hc := c.toNat_lt
    have hd := d.toNat_lt
    have hnat : (toInt32 (a :: b :: c :: d :: rest)).toBitVec.toNat =
        a.toNat + 2 ^ 8 * (b.toNat + 2 ^ 8 * (c.toNat + 2 ^ 8 * d.toNat)) := by
      show (BitVec.ofNat 32 _).toNat = _
      rw [BitVec.toNat_ofNat]
      show (a.toNat + 2 ^ 8 * (b.toNat + 2 ^ 8 * (c.toNat + 2 ^ 8 * (d.toNat + 2 ^ 8 * 0)))) % 2 ^ 32 = _
      omega
    have hbyte : ∀ (n : Nat) (x : UInt8), n % 256 = x.toNat → UInt8.ofNat n = x := by
      intro n x hn
      rw [← UInt8.toNat_inj, UInt8.toNat_ofNat']
      exact hn
    unfold ofInt32
    rw [hnat, hbyte _ a (by omega), hbyte _ b (by omega), hbyte _ c (by omega), hbyte _ d (by omega)]
    rfl

/-- A first part of `rs.flatMap enc` consists of the encodings of the first records and of a proper first part of the
next one; or it is everything. -/
theorem prefix_flatMap {ρ β : Type*} (enc : ρ → List β) {rs : List ρ} {bytes : List β}
    (h : bytes <+: rs.flatMap enc) :
    ∃ done todo rest, rs = done ++ todo ∧ bytes = done.flatMap enc ++ rest ∧
      (rest = [] ∧ todo = [] ∨ ∃ r todo', todo = r :: todo' ∧ rest <+: enc r ∧ rest.length < (enc r).length) := by
  induction rs generalizing bytes with
  | nil => exact ⟨[], [], [], rfl, List.prefix_nil.mp h, .inl ⟨rfl, rfl⟩⟩
  | cons r rs ih =>
    rw [List.flatMap_cons] at h
    by_cases hlen : bytes.length < (enc r).length
    · refine ⟨[], r :: rs, bytes, rfl, rfl, .inr ⟨r, rs, rfl, ?_, hlen⟩⟩
      exact List.prefix_of_prefix_length_le h (List.prefix_append _ _) hlen.le
    · obtain ⟨tail, htail⟩ : enc r <+: bytes :=
        List.prefix_of_prefix_length_le (List.prefix_append _ _) h (not_lt.mp hlen)
      rw [← htail, List.prefix_append_right_inj] at h
      obtain ⟨done, todo, rest, hrs, hbytes, hrest⟩ := ih h
      refine ⟨r :: done, todo, rest, ?_, ?_, hrest⟩
      · rw [hrs, List.cons_append]
      · rw [← htail, hbytes, List.flatMap_cons, List.append_assoc]

end Bytes
