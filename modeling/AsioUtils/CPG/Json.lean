import AsioUtils.CPG.MatchStruct
import Mathlib.Data.Rat.Defs

/-!
# JSON values

What the servers use of the vendored `nlohmann::json`: the types of a value, access to an object by key, conversions,
and the way a match's members are read from an object, one after the other.

* `Json` : a value; `Json.Fault` : how an access or a conversion ends without a result;
* `access`, `hasMember`, `getInt`, `getUnsignedLongLong`, `getString` : access and conversions;
* `Field`, `readFields` : assignments `match.x = j["x"]` in order; what was assigned before a fault stays.
-/

namespace AsioUtils.CPG

/-- A value. Of an object's pairs with one key the first counts: `emplace` leaves a key that is there alone. -/
inductive Json
  | null
  | boolean (b : Bool)
  | number_integer (i : Int)
  | number_unsigned (n : Nat)
  /-- a `double`, which is a rational number -/
  | number_float (q : ℚ)
  | string (s : String)
  | array (items : List Json)
  | object (fields : List (String × Json))

/-- `(int)` of an integer type -/
def castInt (i : Int) : Int := i.bmod 4294967296

theorem castInt_of_range {i : Int} (hmin : -2147483648 ≤ i) (hmax : i < 2147483648) : castInt i = i := by
  rw [castInt, Int.bmod_def]
  omega

namespace Json

inductive Fault
  /-- an exception -/
  | type_error (id : Nat) (what : String)
  /-- a failed `assert`, which ends the program -/
  | assertion
  /-- a conversion the language leaves undefined: whatever follows is possible -/
  | undefined
  deriving DecidableEq, Repr

def type_name : Json → String
  | null => "null"
  | object _ => "object"
  | array _ => "array"
  | string _ => "string"
  | boolean _ => "boolean"
  | _ => "number"

def is_null : Json → Bool
  | null => true
  | _ => false

/-- Signed or unsigned. -/
def is_number_integer : Json → Bool
  | number_integer _ | number_unsigned _ => true
  | _ => false

/-- `find`, on anything but an object `end()` -/
def find? : Json → String → Option Json
  | object fields, key => (fields.find? fun e => e.1 = key).map Prod.snd
  | _, _ => none

def hasMember (j : Json) (key : String) : Bool := (j.find? key).isSome

/-- `operator[]` of a constant value: an object without the key fails the assertion. -/
def access (j : Json) (key : String) : Except Fault Json :=
  match j with
  | object fields =>
    match (object fields).find? key with
    | some v => .ok v
    | none => .error .assertion
  | j => .error (.type_error 305 ("cannot use operator[] with " ++ j.type_name))

/-- A number as an arithmetic type: `cast` from the integer types; a `double` is cut towards zero, which is undefined
when the type does not hold the result. -/
def getArithmetic {α : Type} (cast : Int → α) (min max : Int) : Json → Except Fault α
  | number_unsigned n => .ok (cast n)
  | number_integer i => .ok (cast i)
  | number_float q =>
    if min ≤ q.num.tdiv q.den ∧ q.num.tdiv q.den ≤ max then .ok (cast (q.num.tdiv q.den)) else .error .undefined
  | boolean b => .ok (cast (if b then 1 else 0))
  | j => .error (.type_error 302 ("type must be number, but is " ++ j.type_name))

def getInt : Json → Except Fault Int := getArithmetic castInt (-2147483648) 2147483647

def getUnsignedLongLong : Json → Except Fault Nat := getArithmetic toUnsignedLongLong 0 18446744073709551615

def getString : Json → Except Fault String
  | string s => .ok s
  | j => .error (.type_error 302 ("type must be string, but is " ++ j.type_name))

theorem access_of_find? {j v : Json} {key : String} (h : j.find? key = some v) : j.access key = .ok v := by
  cases j with
  | object fields => simp only [access, h]
  | _ => cases h

theorem hasMember_of_find? {j v : Json} {key : String} (h : j.find? key = some v) : j.hasMember key = true := by
  rw [hasMember, h]
  rfl

end Json

/-! ## Members read one after the other -/

/-- `match.x = j["x"]`: the key, and the conversion with the assignment. -/
structure Field where
  key : String
  read : Json → Except Json.Fault (CPGMatchProfile → CPGMatchProfile)
  /-- behind `if (j.hasMember(key))` -/
  optional : Bool := false

namespace Field

def int (key : String) (set : Int → CPGMatchProfile → CPGMatchProfile) : Field where
  key := key
  read v := v.getInt.map set

def text (key : String) (set : String → CPGMatchProfile → CPGMatchProfile) : Field where
  key := key
  read v := v.getString.map set

/-- `if (j.hasMember("x")) match.x = j["x"]` -/
def optionalInt (key : String) (set : Int → CPGMatchProfile → CPGMatchProfile) : Field :=
  { int key set with optional := true }

/-- One assignment. -/
def assign (field : Field) (j : Json) (m : CPGMatchProfile) : Except Json.Fault CPGMatchProfile :=
  if field.optional && !j.hasMember field.key then .ok m
  else (j.access field.key).bind fun v => (field.read v).map fun set => set m

/-- A member that is there is assigned what it converts to. -/
theorem assign_of_find? {field : Field} {j v : Json} (hfind : j.find? field.key = some v) (m : CPGMatchProfile) :
    field.assign j m = (field.read v).map fun set => set m := by
  rw [assign, Json.hasMember_of_find? hfind, Json.access_of_find? hfind, Bool.not_true, Bool.and_false,
    if_neg Bool.false_ne_true]
  rfl

/-- A member that is there and converts is assigned. -/
theorem assign_ok {field : Field} {j v : Json} {set : CPGMatchProfile → CPGMatchProfile}
    (hfind : j.find? field.key = some v) (hread : field.read v = .ok set) (m : CPGMatchProfile) :
    field.assign j m = .ok (set m) := by
  rw [assign_of_find? hfind, hread]
  rfl

/-- A member that is there and does not convert is not assigned. -/
theorem assign_error {field : Field} {j v : Json} {fault : Json.Fault} (hfind : j.find? field.key = some v)
    (hread : field.read v = .error fault) (m : CPGMatchProfile) : field.assign j m = .error fault := by
  rw [assign_of_find? hfind, hread]
  rfl

/-- A member that has to be there and is not. -/
theorem assign_missing {field : Field} (hrequired : field.optional = false) {fields : List (String × Json)}
    (hfind : (Json.object fields).find? field.key = none) (m : CPGMatchProfile) :
    field.assign (.object fields) m = .error .assertion := by
  have haccess : (Json.object fields).access field.key = .error .assertion := by simp only [Json.access, hfind]
  rw [assign, hrequired, Bool.false_and, if_neg Bool.false_ne_true, haccess]
  rfl

end Field

/-- The assignments in order, up to the first fault. -/
def readFields (j : Json) : List Field → CPGMatchProfile → CPGMatchProfile × Option Json.Fault
  | [], m => (m, none)
  | field :: fields, m =>
    match field.assign j m with
    | .ok m => readFields j fields m
    | .error fault => (m, some fault)

theorem readFields_cons {j : Json} {field : Field} {m m' : CPGMatchProfile} (h : field.assign j m = .ok m')
    (fields : List Field) : readFields j (field :: fields) m = readFields j fields m' := by
  rw [readFields, h]

/-! ## What the assignments come to -/

/-- The object has the member, of a type that converts. -/
def Field.Reads (field : Field) (j : Json) : Prop := ∃ v set, j.find? field.key = some v ∧ field.read v = .ok set

/-- The object does not have the member, which fails an assertion. -/
def Field.Aborts (field : Field) (j : Json) : Prop := (∃ fields, j = .object fields) ∧ j.find? field.key = none

/-- The first member that is not read is missing. -/
def AbortsIn (j : Json) : List Field → Prop
  | [] => False
  | field :: fields => field.Aborts j ∨ field.Reads j ∧ AbortsIn j fields

theorem Field.not_aborts (field : Field) {j : Json} (h : field.Reads j) : ¬ field.Aborts j := by
  obtain ⟨v, set, hfind, -⟩ := h
  exact fun habort => absurd (habort.2.symm.trans hfind) (by simp)

theorem not_abortsIn {j : Json} {fields : List Field} (h : ∀ field ∈ fields, field.Reads j) : ¬ AbortsIn j fields := by
  induction fields with
  | nil => exact id
  | cons field fields ih =>
    obtain ⟨hfirst, hrest⟩ := List.forall_mem_cons.mp h
    rw [AbortsIn, not_or, not_and]
    exact ⟨field.not_aborts hfirst, fun _ => ih hrest⟩

section Outcomes

variable {field : Field} {j v : Json}

theorem Field.not_reads_of_error {fault : Json.Fault} (hfind : j.find? field.key = some v)
    (hread : field.read v = .error fault) : ¬ field.Reads j := by
  rintro ⟨v', set, hv', hset⟩
  obtain rfl := Option.some.inj (hfind.symm.trans hv')
  exact absurd (hread.symm.trans hset) (by simp)

theorem Field.not_reads_of_none (hfind : j.find? field.key = none) : ¬ field.Reads j := by
  rintro ⟨v, set, hv, -⟩
  exact absurd (hfind.symm.trans hv) (by simp)

/-- A conversion never fails an assertion. -/
def Field.Converts (field : Field) : Prop := ∀ v, field.read v ≠ .error .assertion

/-- A member that has to be there is read; or it is missing; or its conversion fails. -/
theorem Field.assign_cases (hrequired : field.optional = false) (hconverts : field.Converts) (j : Json)
    (m : CPGMatchProfile) :
    (field.Reads j ∧ ∃ v set, field.read v = .ok set ∧ field.assign j m = .ok (set m)) ∨
      (¬ field.Reads j ∧ field.Aborts j ∧ field.assign j m = .error .assertion) ∨
      (¬ field.Reads j ∧ ¬ field.Aborts j ∧ ∃ fault, fault ≠ .assertion ∧ field.assign j m = .error fault) := by
  cases hfind : j.find? field.key with
  | some v =>
    have hno : ¬ field.Aborts j := fun habort => absurd (habort.2.symm.trans hfind) (by simp)
    cases hread : field.read v with
    | ok set => exact .inl ⟨⟨v, set, hfind, hread⟩, v, set, hread, assign_ok hfind hread m⟩
    | error fault =>
      have hfault : fault ≠ .assertion := fun heq => hconverts v (heq ▸ hread)
      exact .inr (.inr ⟨not_reads_of_error hfind hread, hno, fault, hfault, assign_error hfind hread m⟩)
  | none =>
    have hnot := not_reads_of_none hfind
    cases j with
    | object fields => exact .inr (.inl ⟨hnot, ⟨⟨fields, rfl⟩, hfind⟩, assign_missing hrequired hfind m⟩)
    | _ =>
      refine .inr (.inr ⟨hnot, ?_, _, ?_, by rw [assign, hrequired]; rfl⟩)
      · rintro ⟨⟨fields, hfields⟩, -⟩
        cases hfields
      · simp

end Outcomes

/-- Members that all have to be there. -/
theorem readFields_cases {j : Json} {fields : List Field} (hrequired : ∀ field ∈ fields, field.optional = false)
    (hconverts : ∀ field ∈ fields, field.Converts) (m : CPGMatchProfile) :
    ((∀ field ∈ fields, field.Reads j) ∧ (readFields j fields m).2 = none) ∨
      ((¬ ∀ field ∈ fields, field.Reads j) ∧ AbortsIn j fields ∧ (readFields j fields m).2 = some .assertion) ∨
      ((¬ ∀ field ∈ fields, field.Reads j) ∧ ¬ AbortsIn j fields ∧
        ∃ fault, fault ≠ .assertion ∧ (readFields j fields m).2 = some fault) := by
  induction fields generalizing m with
  | nil => exact .inl ⟨by simp, rfl⟩
  | cons field fields ih =>
    obtain ⟨hfirst, hrest⟩ := List.forall_mem_cons.mp hrequired
    obtain ⟨hconvertsFirst, hconvertsRest⟩ := List.forall_mem_cons.mp hconverts
    rw [List.forall_mem_cons, AbortsIn]
    rcases field.assign_cases hfirst hconvertsFirst j m with ⟨hreads, v, set, -, hassign⟩ | ⟨hnot, habort, hassign⟩ |
      ⟨hnot, hno, fault, hfault, hassign⟩
    · rw [readFields_cons hassign, or_iff_right (field.not_aborts hreads), and_iff_right hreads, and_iff_right hreads]
      exact ih hrest hconvertsRest (set m)
    · refine .inr (.inl ⟨fun h => hnot h.1, .inl habort, ?_⟩)
      rw [readFields, hassign]
    · refine .inr (.inr ⟨fun h => hnot h.1, fun h => ?_, fault, hfault, ?_⟩)
      · exact h.elim hno fun h => hnot h.1
      · rw [readFields, hassign]

/-! ## The members of the two kinds -/

theorem Field.int_converts (key : String) (set : Int → CPGMatchProfile → CPGMatchProfile) :
    (Field.int key set).Converts := by
  intro v h
  change v.getInt.map set = _ at h
  cases v with
  | number_float q =>
    rw [Json.getInt, Json.getArithmetic] at h
    split_ifs at h <;> cases h
  | _ => cases h

theorem Field.text_converts (key : String) (set : String → CPGMatchProfile → CPGMatchProfile) :
    (Field.text key set).Converts := by
  intro v h
  change v.getString.map set = _ at h
  cases v <;> cases h

end AsioUtils.CPG
