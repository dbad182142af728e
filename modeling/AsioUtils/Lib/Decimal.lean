import Mathlib.Data.List.TakeWhile

/-!
# Numbers as text

`std::to_string` of an integer is its `toString`; `atoi` reads it back.

* `strtol`, `atoi` : spaces, a sign, digits, and whatever follows; a `long` has 64 bits, an `int` 32;
* `strtol_toString`, `atoi_toString` : integers that fit come back; `strtol_toString_nat` : any natural number;
* `nat?`, `int?` : a text that is a number and nothing else;
* `Canonical` : the one text among those of a number that has no more than it needs; `canonical_toString`.
-/

namespace Decimal

def isSpace (c : Char) : Bool := c.toNat = 32 || (9 ≤ c.toNat && c.toNat ≤ 13)

/-- The number the digits at the front stand for. -/
def digits (cs : List Char) : Int := Nat.ofDigitChars 10 (cs.takeWhile Char.isDigit) 0

def LONG_MAX : Int := 9223372036854775807

def LONG_MIN : Int := -9223372036854775808

/-- The number after the spaces. -/
def signed : List Char → Int
  | '-' :: cs => -digits cs
  | '+' :: cs => digits cs
  | cs => digits cs

/-- `strtol(s, NULL, 10)`, which stops at the bounds. -/
def strtol (s : String) : Int := max LONG_MIN (min (signed (s.toList.dropWhile isSpace)) LONG_MAX)

/-- `(int)strtol(s, NULL, 10)` -/
def atoi (s : String) : Int := (strtol s).bmod 4294967296

/-- The number a text of digits stands for. -/
def nat? (cs : List Char) : Option Nat := if cs ≠ [] ∧ cs.all Char.isDigit then some (Nat.ofDigitChars 10 cs 0) else none

/-- The number a text of a sign and digits stands for. -/
def int? : List Char → Option Int
  | [] => none
  | c :: cs => if c = '-' then (nat? cs).map fun n => -(n : Int) else (nat? (c :: cs)).map fun n => (n : Int)

theorem isDigit_of_mem_toDigits {n : Nat} {c : Char} (hc : c ∈ Nat.toDigits 10 n) : c.isDigit = true :=
  Nat.isDigit_of_mem_toDigits (by decide) (by decide) hc

theorem digits_toDigits (n : Nat) : digits (Nat.toDigits 10 n) = n := by
  have hall : (Nat.toDigits 10 n).takeWhile Char.isDigit = Nat.toDigits 10 n :=
    List.takeWhile_eq_self_iff.mpr fun c hc => isDigit_of_mem_toDigits hc
  rw [digits, hall, Nat.ofDigitChars_ten_toDigits]

/-- A digit is no space and no sign. -/
theorem not_isSpace_of_isDigit {c : Char} (h : c.isDigit = true) : isSpace c = false ∧ c ≠ '-' ∧ c ≠ '+' := by
  have hbounds : 48 ≤ c.toNat ∧ c.toNat ≤ 57 := by
    simp only [Char.isDigit, Bool.and_eq_true, decide_eq_true_eq] at h
    exact h
  refine ⟨?_, ?_, ?_⟩
  · simp only [isSpace, Bool.or_eq_false_iff, Bool.and_eq_false_iff, decide_eq_false_iff_not]
    omega
  · rintro rfl
    simp at hbounds
  · rintro rfl
    simp at hbounds

/-! ## The characters of a number -/

theorem toList_toString_nat (n : Nat) : (toString n).toList = Nat.toDigits 10 n := Nat.toList_repr

theorem toList_toString_ofNat (n : Nat) : (toString (Int.ofNat n)).toList = Nat.toDigits 10 n := Nat.toList_repr

theorem toList_toString_negSucc (n : Nat) : (toString (Int.negSucc n)).toList = '-' :: Nat.toDigits 10 (n + 1) := by
  show ("-" ++ Nat.repr (n + 1)).toList = _
  rw [String.toList_append, Nat.toList_repr]
  rfl

/-- A natural number begins with a digit. -/
theorem toDigits_cons (n : Nat) : ∃ c cs, Nat.toDigits 10 n = c :: cs ∧ c.isDigit = true := by
  obtain ⟨c, cs, hdigits⟩ := List.exists_cons_of_ne_nil (Nat.toDigits_ne_nil (n := n) (b := 10))
  exact ⟨c, cs, hdigits, isDigit_of_mem_toDigits (hdigits ▸ List.mem_cons_self : c ∈ Nat.toDigits 10 n)⟩

/-- Nothing comes before the digits of a natural number. -/
theorem signed_toDigits (n : Nat) : signed ((Nat.toDigits 10 n).dropWhile isSpace) = n := by
  obtain ⟨c, cs, hdigits, hdigit⟩ := toDigits_cons n
  obtain ⟨hspace, hminus, hplus⟩ := not_isSpace_of_isDigit hdigit
  have hn := digits_toDigits n
  rw [hdigits] at hn ⊢
  rw [List.dropWhile_cons_of_neg (by simp [hspace])]
  unfold signed
  split
  · next heq => exact absurd (List.cons.inj heq).1 hminus
  · next heq => exact absurd (List.cons.inj heq).1 hplus
  · exact hn

theorem signed_toString (i : Int) : signed ((toString i).toList.dropWhile isSpace) = i := by
  cases i with
  | ofNat n =>
    rw [toList_toString_ofNat, signed_toDigits]
    rfl
  | negSucc n =>
    rw [toList_toString_negSucc]
    show -digits (Nat.toDigits 10 (n + 1)) = _
    rw [digits_toDigits]
    rfl

/-- The text of a number: a digit or a minus sign, then digits. -/
theorem toString_cons (i : Int) : ∃ c cs, (toString i).toList = c :: cs ∧ (c = '-' ∨ c.isDigit = true) ∧
    ∀ d ∈ cs, d.isDigit = true := by
  cases i with
  | ofNat n =>
    obtain ⟨c, cs, hcs, hdigit⟩ := toDigits_cons n
    refine ⟨c, cs, ?_, .inr hdigit, fun d hd => ?_⟩
    · rw [toList_toString_ofNat, hcs]
    · exact isDigit_of_mem_toDigits (hcs ▸ List.mem_cons_of_mem c hd : d ∈ Nat.toDigits 10 n)
  | negSucc n =>
    exact ⟨'-', Nat.toDigits 10 (n + 1), toList_toString_negSucc n, .inl rfl, fun d hd => isDigit_of_mem_toDigits hd⟩

theorem nat?_toDigits (n : Nat) : nat? (Nat.toDigits 10 n) = some n := by
  have hall : (Nat.toDigits 10 n).all Char.isDigit = true :=
    List.all_eq_true.mpr fun c hc => isDigit_of_mem_toDigits hc
  rw [nat?, if_pos ⟨Nat.toDigits_ne_nil, hall⟩, Nat.ofDigitChars_ten_toDigits]

theorem nat?_toString (n : Nat) : nat? (toString n).toList = some n := by rw [toList_toString_nat, nat?_toDigits]

theorem int?_toString (i : Int) : int? (toString i).toList = some i := by
  cases i with
  | ofNat n =>
    obtain ⟨c, cs, hcs, hdigit⟩ := toDigits_cons n
    rw [toList_toString_ofNat, hcs, int?, if_neg (not_isSpace_of_isDigit hdigit).2.1, ← hcs, nat?_toDigits]
    rfl
  | negSucc n =>
    rw [toList_toString_negSucc, int?, if_pos rfl, nat?_toDigits]
    rfl

theorem strtol_toString {i : Int} (hmin : LONG_MIN ≤ i) (hmax : i ≤ LONG_MAX) : strtol (toString i) = i := by
  rw [strtol, signed_toString, Int.min_eq_left hmax, Int.max_eq_right hmin]

theorem atoi_toString {i : Int} (hmin : -2147483648 ≤ i) (hmax : i < 2147483648) : atoi (toString i) = i := by
  rw [atoi, strtol_toString (by unfold LONG_MIN; omega) (by unfold LONG_MAX; omega), Int.bmod_def]
  omega

/-- A natural number stops at the bound. -/
theorem strtol_toString_nat (n : Nat) : strtol (toString n) = min (n : Int) LONG_MAX := by
  rw [strtol, toList_toString_nat, signed_toDigits, Int.max_eq_right]
  unfold LONG_MIN LONG_MAX
  omega

/-! ## The shortest text of a number -/

/-- The text behind its sign. -/
def unsigned : List Char → List Char
  | [] => []
  | c :: cs => if c = '-' then cs else c :: cs

/-- A sign exactly for what is negative, no zero in front of other digits, and the number comes back. -/
structure Canonical (i : Int) (text : List Char) : Prop where
  sign : text.head? = some '-' ↔ i < 0
  leading : (unsigned text).head? = some '0' → unsigned text = ['0']
  value : int? text = some i

theorem toList_toString (i : Int) :
    (toString i).toList = (if i < 0 then ['-'] else []) ++ Nat.toDigits 10 i.natAbs := by
  cases i with
  | ofNat n =>
    rw [toList_toString_ofNat, if_neg (Int.not_lt.mpr (Int.natCast_nonneg n) : ¬ Int.ofNat n < 0)]
    rfl
  | negSucc n =>
    rw [toList_toString_negSucc, if_pos (Int.negSucc_lt_zero n)]
    rfl

/-- The first digit does not change where one is added behind. -/
theorem head?_append_toDigits (n : Nat) (cs : List Char) :
    (Nat.toDigits 10 n ++ cs).head? = (Nat.toDigits 10 n).head? := by
  obtain ⟨c, ds, hdigits, -⟩ := toDigits_cons n
  rw [hdigits]
  rfl

theorem eq_zero_of_head_toDigits {n : Nat} (h : (Nat.toDigits 10 n).head? = some '0') : n = 0 := by
  induction n using Nat.strongRecOn with
  | ind n ih =>
    by_cases hlt : n < 10
    · rw [Nat.toDigits_of_lt_base hlt, List.head?_singleton] at h
      exact Nat.digitChar_eq_zero.mp (Option.some.inj h)
    · rw [Nat.toDigits_of_base_le (by decide) (by omega), head?_append_toDigits] at h
      have hzero := ih (n / 10) (by omega) h
      omega

theorem unsigned_toString (i : Int) : unsigned (toString i).toList = Nat.toDigits 10 i.natAbs := by
  obtain ⟨c, cs, hdigits, hdigit⟩ := toDigits_cons i.natAbs
  rw [toList_toString]
  split_ifs with hneg
  · rfl
  · rw [List.nil_append, hdigits, unsigned, if_neg (not_isSpace_of_isDigit hdigit).2.1]

theorem canonical_toString (i : Int) : Canonical i (toString i).toList := by
  refine ⟨?_, fun hzero => ?_, int?_toString i⟩
  · obtain ⟨c, cs, hdigits, hdigit⟩ := toDigits_cons i.natAbs
    rw [toList_toString, hdigits]
    split_ifs with hneg
    · exact iff_of_true rfl hneg
    · exact iff_of_false (fun heq => (not_isSpace_of_isDigit hdigit).2.1 (Option.some.inj heq)) hneg
  · rw [unsigned_toString] at hzero ⊢
    rw [eq_zero_of_head_toDigits hzero, Nat.toDigits_zero]

end Decimal
