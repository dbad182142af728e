import Mathlib.Data.List.TakeWhile
import AsioUtils.Lib.Decimal

/-!
# Reading SQL text

How a MySQL server reads the statements of this development: words, numbers, texts in single quotes, and the shapes
of an `INSERT` and an `UPDATE` made of them. A text is read as one `Char` for each of its bytes.

* `literal` : a quote ends the text, a doubled one stands for itself, a backslash escapes the next character;
* `unescape`, `Plain` : what a text without quotes stands for, and the texts that stand for themselves;
* `literal_of_unescape` : the literal of a text without quotes;
* `plain_of_literal` : if the literal of a text is read as that text, the text is plain;
* `items_intercalate`, `plain_of_items` : the same for lists of literals;
* `infix_append_cons_iff`, `infix_quotedText_iff` : in which part of a text a word lies.
-/

namespace SqlText

def quote : Char := Char.ofNat 39

def backslash : Char := Char.ofNat 92

theorem quote_ne_backslash : quote ≠ backslash := by decide

/-- What a backslash and the character after it stand for. -/
def escape (c : Char) : List Char :=
  if c = '0' then [Char.ofNat 0]
  else if c = 'b' then [Char.ofNat 8]
  else if c = 't' then [Char.ofNat 9]
  else if c = 'n' then [Char.ofNat 10]
  else if c = 'r' then [Char.ofNat 13]
  else if c = 'Z' then [Char.ofNat 26]
  else if c = '%' ∨ c = '_' then [backslash, c]
  else [c]

/-- From after the opening quote: the text, and what follows the closing quote. -/
def literal : List Char → Option (List Char × List Char)
  | [] => none
  | [c] => if c = quote then some ([], []) else none
  | c :: c' :: cs =>
    if c = quote then
      if c' = quote then (literal cs).map fun r => (quote :: r.1, r.2) else some ([], c' :: cs)
    else if c = backslash then (literal cs).map fun r => (escape c' ++ r.1, r.2)
    else (literal (c' :: cs)).map fun r => (c :: r.1, r.2)

/-- What a text without quotes stands for, `none` when its last backslash escapes what follows it. -/
def unescape : List Char → Option (List Char)
  | [] => some []
  | [c] => if c = backslash then none else some [c]
  | c :: c' :: cs => if c = backslash then (unescape cs).map (escape c' ++ ·) else (unescape (c' :: cs)).map (c :: ·)

/-- No quote, and backslashes only before `%` and `_`. -/
def plain : List Char → Bool
  | [] => true
  | [c] => c ≠ quote ∧ c ≠ backslash
  | c :: c' :: cs =>
    if c = quote then false else if c = backslash then (c' = '%' ∨ c' = '_') ∧ plain cs = true else plain (c' :: cs)

/-- The text stands for itself between quotes. -/
def Plain (s : String) : Prop := plain s.toList = true

instance (s : String) : Decidable (Plain s) := inferInstanceAs (Decidable (plain s.toList = true))

/-! ## Statements -/

def spaces (cs : List Char) : List Char := cs.dropWhile (· = ' ')

/-- What follows the keyword or sign `k`. -/
def keyword (k : String) (cs : List Char) : Option (List Char) := k.toList.isPrefixOf? (spaces cs)

def isWord (c : Char) : Bool := c.isAlphanum || c = '_'

/-- A word, and what follows it. -/
def word (cs : List Char) : Option (String × List Char) :=
  let cs := spaces cs
  if cs.takeWhile isWord = [] then none else some (String.ofList (cs.takeWhile isWord), cs.dropWhile isWord)

/-- A text in quotes, and what follows it. -/
def quoted (cs : List Char) : Option (String × List Char) :=
  match spaces cs with
  | [] => none
  | c :: cs => if c = quote then (literal cs).map fun r => (String.ofList r.1, r.2) else none

/-- `column = 'text'` -/
def assignment (cs : List Char) : Option ((String × String) × List Char) := do
  let (column, cs) ← word cs
  let cs ← keyword "=" cs
  let (text, cs) ← quoted cs
  return ((column, text), cs)

/-- At most `n` items with commas between them, and what follows the last. -/
def items {α : Type} (item : List Char → Option (α × List Char)) : Nat → List Char → Option (List α × List Char)
  | 0, _ => none
  | n + 1, cs => do
    let (a, cs) ← item cs
    match keyword "," cs with
    | none => return ([a], cs)
    | some cs =>
      let (as, cs) ← items item n cs
      return (a :: as, cs)

structure Insert where
  table : String
  columns : List String
  values : List String
  deriving DecidableEq, Repr

/-- A text that is one `INSERT INTO table (columns) VALUES (texts);`. -/
def parseInsert (text : String) : Option Insert := do
  let cs ← keyword "INSERT INTO" text.toList
  let (table, cs) ← word cs
  let cs ← keyword "(" cs
  let (columns, cs) ← items word cs.length cs
  let cs ← keyword ")" cs
  let cs ← keyword "VALUES" cs
  let cs ← keyword "(" cs
  let (values, cs) ← items quoted cs.length cs
  let cs ← keyword ")" cs
  let cs ← keyword ";" cs
  if spaces cs = [] then return ⟨table, columns, values⟩ else none

structure Update where
  table : String
  assignments : List (String × String)
  column : String
  value : Int
  deriving DecidableEq, Repr

/-- A text that is one `UPDATE table SET assignments WHERE column=number`. -/
def parseUpdate (text : String) : Option Update := do
  let cs ← keyword "UPDATE" text.toList
  let (table, cs) ← word cs
  let cs ← keyword "SET" cs
  let (assignments, cs) ← items assignment cs.length cs
  let cs ← keyword "WHERE" cs
  let (column, cs) ← word cs
  let cs ← keyword "=" cs
  let value ← Decimal.int? (spaces cs)
  return ⟨table, assignments, column, value⟩

/-! ## Literals -/

theorem escape_length (c : Char) : (escape c).length = if c = '%' ∨ c = '_' then 2 else 1 := by
  unfold escape
  split_ifs <;> simp_all

theorem escape_of_wildcard {c : Char} (h : c = '%' ∨ c = '_') : escape c = [backslash, c] := by
  rcases h with rfl | rfl <;> decide

/-- Texts only shrink. -/
theorem unescape_length {cs ds : List Char} (h : unescape cs = some ds) : ds.length ≤ cs.length := by
  induction cs using unescape.induct generalizing ds with
  | case1 => simp [unescape] at h; simp [← h]
  | case2 => simp [unescape] at h
  | case3 c hc =>
    simp only [unescape, if_neg hc, Option.some.injEq] at h
    simp [← h]
  | case4 c' cs ih =>
    simp only [unescape, if_pos, Option.map_eq_some_iff] at h
    obtain ⟨es, hes, rfl⟩ := h
    have := ih hes
    rw [List.length_append, escape_length, List.length_cons, List.length_cons]
    split_ifs <;> omega
  | case5 c c' cs hc ih =>
    simp only [unescape, if_neg hc, Option.map_eq_some_iff] at h
    obtain ⟨es, hes, rfl⟩ := h
    have := ih hes
    rw [List.length_cons, List.length_cons]
    omega

/-- A text that is never closed. -/
theorem literal_of_not_mem {cs : List Char} (h : quote ∉ cs) : literal cs = none := by
  induction cs using literal.induct with
  | case1 => rfl
  | case2 => exact absurd List.mem_cons_self h
  | case3 c hc => exact if_neg hc
  | case4 cs ih => exact absurd List.mem_cons_self h
  | case5 c' cs hc' => exact absurd List.mem_cons_self h
  | case6 c' cs hne ih =>
    rw [literal, if_neg hne, if_pos rfl, ih fun hin => h (by simp [hin])]
    rfl
  | case7 c c' cs hq hb ih =>
    rw [literal, if_neg hq, if_neg hb, ih fun hin => h (List.mem_cons_of_mem c hin)]
    rfl

/-! ### One character at a time -/

section Step

variable {c : Char} {cs : List Char}

theorem literal_doubled : literal (quote :: quote :: cs) = (literal cs).map fun r => (quote :: r.1, r.2) := by
  rw [literal, if_pos rfl, if_pos rfl]

theorem literal_closed (h : cs.head? ≠ some quote) : literal (quote :: cs) = some ([], cs) := by
  cases cs with
  | nil => rfl
  | cons c' cs =>
    have hc' : c' ≠ quote := fun heq => h (congrArg some heq)
    rw [literal, if_pos rfl, if_neg hc']

theorem literal_escaped : literal (backslash :: c :: cs) = (literal cs).map fun r => (escape c ++ r.1, r.2) := by
  rw [literal, if_neg quote_ne_backslash.symm, if_pos rfl]

theorem literal_other (hq : c ≠ quote) (hb : c ≠ backslash) :
    literal (c :: cs) = (literal cs).map fun r => (c :: r.1, r.2) := by
  cases cs with
  | nil => exact if_neg hq
  | cons c' cs => rw [literal, if_neg hq, if_neg hb]

end Step

/-- The literal of a text without quotes. -/
theorem literal_of_unescape {cs ds rest : List Char} (hq : quote ∉ cs) (h : unescape cs = some ds)
    (hrest : rest.head? ≠ some quote) : literal (cs ++ quote :: rest) = some (ds, rest) := by
  induction cs using unescape.induct generalizing ds with
  | case1 =>
    rw [unescape, Option.some.injEq] at h
    rw [← h]
    exact literal_closed hrest
  | case2 =>
    rw [unescape, if_pos rfl] at h
    cases h
  | case3 c hb =>
    rw [unescape, if_neg hb, Option.some.injEq] at h
    have hc : c ≠ quote := fun heq => hq (by simp [heq])
    rw [← h, List.singleton_append, literal_other hc hb, literal_closed hrest]
    rfl
  | case4 c' cs ih =>
    rw [unescape, if_pos rfl, Option.map_eq_some_iff] at h
    obtain ⟨es, hes, rfl⟩ := h
    have hcs : quote ∉ cs := fun hin => hq (by simp [hin])
    rw [List.cons_append, List.cons_append, literal_escaped, ih hcs hes]
    rfl
  | case5 c c' cs hb ih =>
    rw [unescape, if_neg hb, Option.map_eq_some_iff] at h
    obtain ⟨es, hes, rfl⟩ := h
    obtain ⟨hc, hcs⟩ := not_or.mp (mt List.mem_cons.mpr hq)
    rw [List.cons_append, literal_other (Ne.symm hc) hb, ih hcs hes]
    rfl

/-- A last backslash that escapes the closing quote: the text goes on behind it. -/
theorem literal_of_open {cs rest : List Char} (hq : quote ∉ cs) (h : unescape cs = none) :
    ∃ ds, literal (cs ++ quote :: rest) = (literal rest).map fun r => (ds ++ r.1, r.2) := by
  induction cs using unescape.induct with
  | case1 => cases h
  | case2 => exact ⟨escape quote, literal_escaped⟩
  | case3 c hb =>
    rw [unescape, if_neg hb] at h
    cases h
  | case4 c' cs ih =>
    rw [unescape, if_pos rfl, Option.map_eq_none_iff] at h
    have hcs : quote ∉ cs := fun hin => hq (by simp [hin])
    obtain ⟨ds, hds⟩ := ih hcs h
    refine ⟨escape c' ++ ds, ?_⟩
    rw [List.cons_append, List.cons_append, literal_escaped, hds, Option.map_map]
    simp only [Function.comp_def, List.append_assoc]
  | case5 c c' cs hb ih =>
    rw [unescape, if_neg hb, Option.map_eq_none_iff] at h
    obtain ⟨hc, hcs⟩ := not_or.mp (mt List.mem_cons.mpr hq)
    obtain ⟨ds, hds⟩ := ih hcs h
    refine ⟨c :: ds, ?_⟩
    rw [List.cons_append, literal_other (Ne.symm hc) hb, hds, Option.map_map]
    rfl

/-- A plain text is one without quotes that stands for itself. -/
theorem plain_iff {cs : List Char} : plain cs = true ↔ quote ∉ cs ∧ unescape cs = some cs := by
  induction cs using plain.induct with
  | case1 => simp [plain, unescape]
  | case2 c =>
    rw [plain, unescape]
    by_cases hb : c = backslash
    · simp [hb]
    · simp [hb, eq_comm (a := quote)]
  | case3 c' cs => simp [plain]
  | case4 c' cs hne ih =>
    rw [plain, if_neg hne, if_pos rfl, unescape, if_pos rfl, decide_eq_true_iff, ih]
    constructor
    · rintro ⟨hwild, hq, hun⟩
      refine ⟨?_, ?_⟩
      · have hc' : quote ≠ c' := by rcases hwild with rfl | rfl <;> decide
        simp [hq, hc', quote_ne_backslash]
      · rw [hun, Option.map_some, escape_of_wildcard hwild]
        rfl
    · rintro ⟨hq, hun⟩
      obtain ⟨es, hes, heq⟩ := Option.map_eq_some_iff.mp hun
      have hshort := unescape_length hes
      have hlen := congrArg List.length heq
      rw [List.length_append, escape_length, List.length_cons, List.length_cons] at hlen
      split_ifs at hlen with hwild
      · rw [escape_of_wildcard hwild] at heq
        obtain rfl : es = cs := by simpa using heq
        exact ⟨hwild, fun hin => hq (by simp [hin]), hes⟩
      · omega
  | case5 c c' cs hq hb ih =>
    rw [plain, if_neg hq, if_neg hb, unescape, if_neg hb, ih]
    simp [Ne.symm hq]

theorem plain_of_forall {cs : List Char} (h : ∀ c ∈ cs, c ≠ quote ∧ c ≠ backslash) : plain cs = true := by
  induction cs using plain.induct with
  | case1 => rfl
  | case2 c => simpa [plain] using h c
  | case3 c' cs => exact absurd rfl (h quote List.mem_cons_self).1
  | case4 c' cs hne ih => exact absurd rfl (h backslash List.mem_cons_self).2
  | case5 c c' cs hq hb ih =>
    rw [plain, if_neg hq, if_neg hb]
    exact ih fun d hd => h d (List.mem_cons_of_mem c hd)

theorem not_special {c : Char} (h : c = '-' ∨ c.isDigit = true) : c ≠ quote ∧ c ≠ backslash := by
  rcases h with rfl | h
  · decide
  · exact ⟨fun heq => absurd (heq ▸ h) (by decide), fun heq => absurd (heq ▸ h) (by decide)⟩

/-- Numbers are plain. -/
theorem plain_toString (i : Int) : Plain (toString i) := by
  obtain ⟨c, cs, htext, hc, hcs⟩ := Decimal.toString_cons i
  rw [Plain, htext]
  exact plain_of_forall (List.forall_mem_cons.mpr ⟨not_special hc, fun d hd => not_special (.inr (hcs d hd))⟩)

theorem head_toString (i : Int) : ∃ x tl, (toString i).toList = x :: tl ∧ x ≠ quote := by
  obtain ⟨c, cs, htext, hc, -⟩ := Decimal.toString_cons i
  exact ⟨c, cs, htext, (not_special hc).1⟩

/-- The last character is that of the rest. -/
theorem getLast?_append_some (p : List Char) {cs : List Char} {c : Char} (h : cs.getLast? = some c) :
    (p ++ cs).getLast? = some c := by
  rw [List.getLast?_append, h]
  rfl

/-- What was read of the rest. -/
theorem exists_of_map {cs ds r : List Char} (p : List Char)
    (h : (literal cs).map (fun q => (p ++ q.1, q.2)) = some (ds, r)) : ∃ zs, literal cs = some (zs, r) ∧ ds = p ++ zs := by
  obtain ⟨⟨zs, r'⟩, hzs, heq⟩ := Option.map_eq_some_iff.mp h
  obtain ⟨hds, hr⟩ := Prod.mk.inj heq
  exact ⟨zs, by rw [hzs, ← hr], hds.symm⟩

/-- What goes on behind the closing quote does so whatever stands before. -/
theorem goesOn_append {cs zs : List Char} {sep : Char} (read text : List Char)
    (h : zs.getLast? = some sep ∧ (cs.getLast? = some quote ∨ cs.getLast? = some backslash)) :
    (read ++ zs).getLast? = some sep ∧
      ((text ++ cs).getLast? = some quote ∨ (text ++ cs).getLast? = some backslash) :=
  ⟨getLast?_append_some read h.1, h.2.imp (getLast?_append_some text) (getLast?_append_some text)⟩

/-- **What the literal of a text is read as**, when a separator and another literal follow: something shorter, the text
itself, or something that goes on behind the closing quote, up to the next one. -/
theorem literal_cases {cs ds tl r : List Char} {sep x : Char} (hsq : sep ≠ quote) (hsb : sep ≠ backslash)
    (hx : x ≠ quote) (h : literal (cs ++ quote :: sep :: quote :: x :: tl) = some (ds, r)) :
    ds.length < cs.length ∨ (ds = cs ∧ plain cs = true) ∨
      (ds.getLast? = some sep ∧ (cs.getLast? = some quote ∨ cs.getLast? = some backslash)) := by
  have hnext : ∀ zs : List Char, literal (sep :: quote :: x :: tl) = some (zs, r) → zs = [sep] := by
    intro zs hzs
    rw [literal_other hsq hsb, literal_closed (by simpa using hx)] at hzs
    exact (Prod.mk.inj (Option.some.inj hzs)).1.symm
  induction cs using literal.induct generalizing ds with
  | case1 =>
    rw [List.nil_append, literal_closed (by simpa using hsq)] at h
    obtain ⟨rfl, -⟩ := Prod.mk.inj (Option.some.inj h)
    exact .inr (.inl ⟨rfl, rfl⟩)
  | case2 =>
    -- the last quote doubles the closing one
    obtain ⟨zs, hzs, rfl⟩ := exists_of_map [quote] (literal_doubled.symm.trans h)
    rw [hnext zs hzs]
    exact .inr (.inr ⟨rfl, .inl rfl⟩)
  | case3 c hq =>
    by_cases hb : c = backslash
    · subst hb
      obtain ⟨zs, hzs, rfl⟩ := exists_of_map (escape quote) (literal_escaped.symm.trans h)
      rw [hnext zs hzs]
      exact .inr (.inr ⟨by simp, .inr rfl⟩)
    · rw [List.singleton_append, literal_other hq hb, literal_closed (by simpa using hsq)] at h
      obtain ⟨rfl, -⟩ := Prod.mk.inj (Option.some.inj h)
      exact .inr (.inl ⟨rfl, by simp [plain, hq, hb]⟩)
  | case4 cs ih =>
    obtain ⟨zs, hzs, rfl⟩ := exists_of_map [quote] (literal_doubled.symm.trans h)
    rcases ih hzs with hlt | ⟨rfl, -⟩ | hon
    · exact .inl (by simpa using Nat.lt_succ_of_lt hlt)
    · exact .inl (by simp)
    · exact .inr (.inr (goesOn_append _ [quote, quote] hon))
  | case5 c' cs hc' =>
    rw [List.cons_append, literal_closed (by simpa using hc')] at h
    obtain ⟨rfl, -⟩ := Prod.mk.inj (Option.some.inj h)
    exact .inl (by simp)
  | case6 c' cs hne ih =>
    obtain ⟨zs, hzs, rfl⟩ := exists_of_map (escape c') (literal_escaped.symm.trans h)
    have hlen := escape_length c'
    rcases ih hzs with hlt | ⟨rfl, hplain⟩ | hon
    · left
      rw [List.length_append, hlen, List.length_cons, List.length_cons]
      split_ifs <;> omega
    · by_cases hwild : c' = '%' ∨ c' = '_'
      · right; left
        rw [escape_of_wildcard hwild, plain, if_neg hne, if_pos rfl]
        exact ⟨rfl, decide_eq_true ⟨hwild, hplain⟩⟩
      · left
        rw [List.length_append, hlen, if_neg hwild, List.length_cons, List.length_cons]
        omega
    · exact .inr (.inr (goesOn_append _ [backslash, c'] hon))
  | case7 c c' cs hq hb ih =>
    obtain ⟨zs, hzs, rfl⟩ := exists_of_map [c] ((literal_other hq hb).symm.trans h)
    rcases ih hzs with hlt | ⟨rfl, hplain⟩ | hon
    · exact .inl (Nat.succ_lt_succ hlt)
    · right; left
      rw [plain, if_neg hq, if_neg hb]
      exact ⟨rfl, hplain⟩
    · exact .inr (.inr (goesOn_append _ [c] hon))

/-- A text that its literal is read as is plain. -/
theorem plain_of_literal {cs tl r : List Char} {sep x : Char} (hsq : sep ≠ quote) (hsb : sep ≠ backslash)
    (hx : x ≠ quote) (h : literal (cs ++ quote :: sep :: quote :: x :: tl) = some (cs, r)) : plain cs = true := by
  rcases literal_cases hsq hsb hx h with hlt | ⟨-, hplain⟩ | ⟨hsep, hspecial⟩
  · exact absurd hlt (lt_irrefl _)
  · exact hplain
  · rw [hsep, Option.some.injEq, Option.some.injEq] at hspecial
    rcases hspecial with heq | heq
    · exact absurd heq hsq
    · exact absurd heq hsb

/-! ## Words and lists -/

/-- What may follow an item: neither a quote nor part of a word. -/
def Delimited (cs : List Char) : Prop := ∃ c tl, cs = c :: tl ∧ isWord c = false ∧ c ≠ quote

theorem delimited_cons {c : Char} {cs : List Char} (h : isWord c = false) (hq : c ≠ quote) : Delimited (c :: cs) :=
  ⟨c, cs, rfl, h, hq⟩

theorem Delimited.head? {cs : List Char} (h : Delimited cs) : cs.head? ≠ some quote := by
  obtain ⟨c, tl, rfl, -, hq⟩ := h
  simpa using hq

theorem spaces_of_head {c : Char} {cs : List Char} (h : c ≠ ' ') : spaces (c :: cs) = c :: cs :=
  List.dropWhile_cons_of_neg (by simpa using h)

theorem isPrefixOf?_cons (c x : Char) (p cs : List Char) :
    (c :: p).isPrefixOf? (x :: cs) = if c == x then p.isPrefixOf? cs else none := rfl

theorem isPrefixOf?_append (p cs : List Char) : p.isPrefixOf? (p ++ cs) = some cs := by
  induction p with
  | nil => rfl
  | cons c p ih => rw [List.cons_append, isPrefixOf?_cons, if_pos (beq_self_eq_true c), ih]

/-- A keyword is found where it stands. -/
theorem keyword_append {k : String} {c : Char} {tl : List Char} (hk : k.toList = c :: tl) (hc : c ≠ ' ') (cs : List Char) :
    keyword k (k.toList ++ cs) = some cs := by
  rw [keyword, hk, List.cons_append, spaces_of_head hc, ← List.cons_append]
  exact isPrefixOf?_append _ _

theorem keyword_space (k : String) (cs : List Char) : keyword k (' ' :: cs) = keyword k cs := rfl

/-- A word is read up to what delimits it. -/
theorem word_append {w cs : List Char} (hw : w ≠ []) (hall : ∀ c ∈ w, isWord c = true) (hcs : Delimited cs) :
    word (w ++ cs) = some (String.ofList w, cs) := by
  obtain ⟨d, tl, rfl, hd, -⟩ := hcs
  obtain ⟨c, w', rfl⟩ := List.exists_cons_of_ne_nil hw
  have hspace : c ≠ ' ' := by
    rintro rfl
    exact absurd (hall ' ' List.mem_cons_self) (by decide)
  have htake : ((c :: w') ++ d :: tl).takeWhile isWord = c :: w' := by
    rw [List.takeWhile_append_of_pos hall, List.takeWhile_cons_of_neg (by simp [hd]), List.append_nil]
  have hdrop : ((c :: w') ++ d :: tl).dropWhile isWord = d :: tl := by
    rw [List.dropWhile_append_of_pos hall, List.dropWhile_cons_of_neg (by simp [hd])]
  have hspaces : spaces ((c :: w') ++ d :: tl) = (c :: w') ++ d :: tl := spaces_of_head hspace
  unfold word
  dsimp only
  rw [hspaces, htake, hdrop, if_neg (by simp)]

/-- A text without quotes is read as what it stands for. -/
theorem quoted_append {cs ds rest : List Char} (hq : quote ∉ cs) (h : unescape cs = some ds) (hrest : Delimited rest) :
    quoted (quote :: cs ++ quote :: rest) = some (String.ofList ds, rest) := by
  rw [quoted, List.cons_append, spaces_of_head (by decide)]
  dsimp only
  rw [if_pos rfl, literal_of_unescape hq h hrest.head?]
  rfl

section Items

variable {α β : Type} {item : List Char → Option (α × List Char)}

theorem items_last {n : Nat} {cs rest : List Char} {a : α} (h : item cs = some (a, rest)) (hend : keyword "," rest = none) :
    items item (n + 1) cs = some ([a], rest) := by
  rw [items, h]
  simp only [Option.bind_eq_bind, Option.bind_some, hend]
  rfl

theorem items_more {n : Nat} {cs rest rest' : List Char} {a : α} (h : item cs = some (a, rest))
    (hcomma : keyword "," rest = some rest') :
    items item (n + 1) cs = (items item n rest').map fun r => (a :: r.1, r.2) := by
  rw [items, h]
  simp only [Option.bind_eq_bind, Option.bind_some, hcomma]
  cases items item n rest' <;> rfl

/-- Where the first item is read the same, the list is. -/
theorem items_congr {n : Nat} {cs cs' : List Char} (h : item cs = item cs') : items item n cs = items item n cs' := by
  cases n with
  | zero => rfl
  | succ n => rw [items, items, h]

/-- A separator: a comma, and spaces that the items skip. -/
structure Separates (item : List Char → Option (α × List Char)) (sep : List Char) : Prop where
  delimited : ∀ cs, Delimited (sep ++ cs)
  comma : ∀ cs, ∃ cs', keyword "," (sep ++ cs) = some cs' ∧ item cs' = item cs

/-- **A list of items** is read one by one, when each item is read as its value up to what delimits it. -/
theorem items_intercalate {text : β → List Char} {value : β → α} {sep rest : List Char} (hsep : Separates item sep)
    (hrest : Delimited rest) (hend : keyword "," rest = none) {bs : List β} (hne : bs ≠ [])
    (hitem : ∀ b ∈ bs, ∀ cs, Delimited cs → item (text b ++ cs) = some (value b, cs)) {n : Nat} (hn : bs.length ≤ n) :
    items item n (sep.intercalate (bs.map text) ++ rest) = some (bs.map value, rest) := by
  induction bs generalizing n with
  | nil => exact absurd rfl hne
  | cons b bs ih =>
    obtain ⟨n, rfl⟩ : ∃ k, n = k + 1 := ⟨n - 1, by rw [List.length_cons] at hn; omega⟩
    obtain ⟨hb, hbs⟩ := List.forall_mem_cons.mp hitem
    by_cases hnil : bs = []
    · subst hnil
      rw [List.map_singleton, List.intercalate_singleton]
      exact items_last (hb rest hrest) hend
    · have hmap : bs.map text ≠ [] := by simpa using hnil
      rw [List.map_cons, List.intercalate_cons_of_ne_nil hmap, List.append_assoc, List.append_assoc]
      obtain ⟨cs', hcomma, hsame⟩ := hsep.comma (sep.intercalate (bs.map text) ++ rest)
      rw [items_more (hb _ (hsep.delimited _)) hcomma, items_congr hsame, ih hnil hbs (Nat.le_of_succ_le_succ hn)]
      rfl

/-- There are at least as many characters as items. -/
theorem length_le_intercalate {text : β → List Char} {sep : List Char} {bs : List β} (h : ∀ b ∈ bs, text b ≠ []) :
    bs.length ≤ (sep.intercalate (bs.map text)).length := by
  induction bs with
  | nil => simp
  | cons b bs ih =>
    obtain ⟨hb, hbs⟩ := List.forall_mem_cons.mp h
    have hpos : 0 < (text b).length := List.length_pos_iff.mpr hb
    have hrest := ih hbs
    by_cases hnil : bs = []
    · subst hnil
      rw [List.map_singleton, List.intercalate_singleton]
      exact hpos
    · rw [List.map_cons, List.intercalate_cons_of_ne_nil (by simpa using hnil), List.length_append, List.length_append,
        List.length_cons]
      omega

end Items

theorem word_space (cs : List Char) : word (' ' :: cs) = word cs := rfl

theorem quoted_space (cs : List Char) : quoted (' ' :: cs) = quoted cs := rfl

theorem separates_comma {α : Type} (item : List Char → Option (α × List Char)) : Separates item [','] :=
  ⟨fun _ => delimited_cons (by decide) (by decide), fun cs => ⟨cs, keyword_append rfl (by decide) cs, rfl⟩⟩

/-- A literal, as the statements write it. -/
def quotedText (v : String) : List Char := quote :: v.toList ++ [quote]

theorem quoted_quotedText {v : String} (h : Plain v) {cs : List Char} (hcs : Delimited cs) :
    quoted (quotedText v ++ cs) = some (v, cs) := by
  obtain ⟨hq, hun⟩ := plain_iff.mp h
  rw [quotedText, List.append_assoc]
  rw [List.singleton_append, quoted_append hq hun hcs, String.ofList_toList]

/-- Every text is plain or followed by one that begins with no quote. -/
def Followed (vs : List String) : Prop := ∀ pre v post, vs = pre ++ v :: post →
  Plain v ∨ ∃ w post', post = w :: post' ∧ ∃ x tl, w.toList = x :: tl ∧ x ≠ quote

theorem Followed.tail {v : String} {vs : List String} (h : Followed (v :: vs)) : Followed vs := by
  intro pre u post heq
  exact h (v :: pre) u post (congrArg (v :: ·) heq)

/-- The first item of a list that was read. -/
theorem exists_of_items {α : Type} {item : List Char → Option (α × List Char)} {n : Nat} {cs r : List Char} {a : α}
    {as : List α} (h : items item n cs = some (a :: as, r)) : ∃ cs', item cs = some (a, cs') := by
  cases n with
  | zero => cases h
  | succ n =>
    cases hitem : item cs with
    | none =>
      rw [items, hitem] at h
      cases h
    | some q =>
      obtain ⟨a', cs'⟩ := q
      refine ⟨cs', ?_⟩
      cases hcomma : keyword "," cs' with
      | none =>
        rw [items_last hitem hcomma] at h
        rw [(List.cons.inj (Prod.mk.inj (Option.some.inj h)).1).1]
      | some cs'' =>
        rw [items_more hitem hcomma] at h
        obtain ⟨q, -, heq⟩ := Option.map_eq_some_iff.mp h
        rw [(List.cons.inj (Prod.mk.inj heq).1).1]

/-- The literal of a text followed by another one is read as that text only if it is plain. -/
theorem plain_of_quoted {v : String} {x : Char} {tl r : List Char} (hx : x ≠ quote)
    (h : quoted (quotedText v ++ ',' :: quote :: x :: tl) = some (v, r)) : Plain v := by
  rw [quotedText, List.append_assoc, List.cons_append, quoted, spaces_of_head (by decide)] at h
  dsimp only at h
  rw [if_pos rfl] at h
  obtain ⟨⟨ds, r'⟩, hlit, heq⟩ := Option.map_eq_some_iff.mp h
  have hds : ds = v.toList := by
    rw [← (Prod.mk.inj heq).1, String.toList_ofList]
  rw [hds] at hlit
  exact plain_of_literal (by decide) (by decide) hx hlit

/-- The first of a list of literals is read as its text only if it is plain. -/
theorem plain_of_items_head {v : String} {vs us : List String} {rest r : List Char} (hf : Followed (v :: vs)) {n : Nat}
    (h : items quoted n ([','].intercalate ((v :: vs).map quotedText) ++ rest) = some (v :: us, r)) : Plain v := by
  rcases hf [] v vs rfl with hv | ⟨w, post, rfl, x, tl, hw, hx⟩
  · exact hv
  · rw [List.map_cons, List.intercalate_cons_of_ne_nil (by simp), List.append_assoc, List.append_assoc] at h
    obtain ⟨cs', hfirst⟩ := exists_of_items h
    have hnext : ∃ tl', [','].intercalate ((w :: post).map quotedText) ++ rest = quote :: x :: tl' := by
      cases post with
      | nil => exact ⟨_, by rw [List.map_singleton, List.intercalate_singleton, quotedText, hw]; rfl⟩
      | cons u us =>
        exact ⟨_, by
          rw [List.map_cons, List.intercalate_cons_of_ne_nil (by simp), quotedText, hw, List.append_assoc,
            List.append_assoc]
          rfl⟩
    obtain ⟨tl', htl'⟩ := hnext
    rw [htl', List.singleton_append] at hfirst
    exact plain_of_quoted hx hfirst

/-- Behind a plain text the rest of the list is read. -/
theorem items_of_plain_cons {v w : String} {vs us : List String} {rest r : List Char} (hv : Plain v) {n : Nat}
    (h : items quoted n ([','].intercalate ((v :: w :: vs).map quotedText) ++ rest) = some (us, r)) :
    ∃ n' us', us = v :: us' ∧ items quoted n' ([','].intercalate ((w :: vs).map quotedText) ++ rest) = some (us', r) := by
  rw [List.map_cons, List.intercalate_cons_of_ne_nil (by simp), List.append_assoc, List.append_assoc] at h
  cases n with
  | zero => cases h
  | succ n =>
    have hread := quoted_quotedText hv ((separates_comma quoted).delimited
      ([','].intercalate ((w :: vs).map quotedText) ++ rest))
    rw [items_more hread (keyword_append rfl (by decide) _)] at h
    obtain ⟨⟨us', r'⟩, hus, heq⟩ := Option.map_eq_some_iff.mp h
    obtain ⟨rfl, rfl⟩ := Prod.mk.inj heq
    exact ⟨n, us', rfl, hus⟩

/-- **If a list of literals is read as their texts, the texts are plain.** -/
theorem plain_of_items {vs : List String} {rest r : List Char} (hf : Followed vs) {n : Nat}
    (h : items quoted n ([','].intercalate (vs.map quotedText) ++ rest) = some (vs, r)) : ∀ v ∈ vs, Plain v := by
  induction vs generalizing n r with
  | nil => simp
  | cons v vs ih =>
    have hplain : Plain v := plain_of_items_head hf h
    refine List.forall_mem_cons.mpr ⟨hplain, ?_⟩
    cases vs with
    | nil => simp
    | cons w vs =>
      obtain ⟨n', us', heq, hus⟩ := items_of_plain_cons hplain h
      rw [← (List.cons.inj heq).2] at hus
      exact ih hf.tail hus

/-- A word, as the statements write it. -/
structure IsWord (s : String) : Prop where
  ne_nil : s.toList ≠ []
  isWord : ∀ c ∈ s.toList, isWord c = true

theorem isWord_of_all {s : String} (h : (!s.toList.isEmpty && s.toList.all isWord) = true) : IsWord s := by
  rw [Bool.and_eq_true, Bool.not_eq_true', List.isEmpty_eq_false_iff] at h
  exact ⟨h.1, List.all_eq_true.mp h.2⟩

theorem IsWord.read {s : String} (hs : IsWord s) {cs : List Char} (hcs : Delimited cs) :
    word (s.toList ++ cs) = some (s, cs) := by
  rw [word_append hs.ne_nil hs.isWord hcs, String.ofList_toList]

/-- What a text without quotes stands for between quotes. -/
def denoted (v : String) : Option String := (unescape v.toList).map String.ofList

theorem denoted_of_plain {v : String} (h : Plain v) : denoted v = some v := by
  rw [denoted, (plain_iff.mp h).2, Option.map_some, String.ofList_toList]

theorem plain_of_denoted {v : String} (hq : quote ∉ v.toList) (h : denoted v = some v) : Plain v := by
  obtain ⟨cs, hcs, heq⟩ := Option.map_eq_some_iff.mp h
  refine plain_iff.mpr ⟨hq, ?_⟩
  rw [hcs, ← heq, String.toList_ofList]

/-- An assignment, as the statements write it. -/
def assignmentText (a : String × String) : List Char := a.1.toList ++ '=' :: quotedText a.2

/-- A column an assignment can name, and a text without quotes. -/
structure Assignable (a : String × String) : Prop where
  column : IsWord a.1
  quote : quote ∉ a.2.toList

theorem assignment_space (cs : List Char) : assignment (' ' :: cs) = assignment cs := rfl

theorem separates_comma_space : Separates assignment [',', ' '] :=
  ⟨fun _ => delimited_cons (by decide) (by decide), fun cs => ⟨' ' :: cs, keyword_append rfl (by decide) _, rfl⟩⟩

/-- From the column on. -/
theorem assignment_eq {a : String × String} (ha : Assignable a) (cs : List Char) : assignment (assignmentText a ++ cs) =
    (literal (a.2.toList ++ quote :: cs)).map fun r => ((a.1, String.ofList r.1), r.2) := by
  have hsign : Delimited ("=".toList ++ (quotedText a.2 ++ cs)) := delimited_cons (by decide) (by decide)
  have htext : assignmentText a ++ cs = a.1.toList ++ ("=".toList ++ (quotedText a.2 ++ cs)) := List.append_assoc _ _ _
  rw [assignment, htext, ha.column.read hsign]
  simp only [Option.bind_eq_bind, Option.bind_some]
  rw [keyword_append rfl (by decide), Option.bind_some, quotedText, List.append_assoc, List.cons_append, quoted,
    spaces_of_head (by decide)]
  dsimp only
  rw [if_pos rfl, List.singleton_append]
  cases literal (a.2.toList ++ quote :: cs) <;> rfl

theorem assignment_append {a : String × String} (ha : Assignable a) {text : String} (h : denoted a.2 = some text)
    {cs : List Char} (hcs : Delimited cs) : assignment (assignmentText a ++ cs) = some ((a.1, text), cs) := by
  obtain ⟨ds, hds, heq⟩ := Option.map_eq_some_iff.mp h
  rw [assignment_eq ha, literal_of_unescape ha.quote hds hcs.head?, Option.map_some, heq]

theorem keyword_none {k : String} {c x : Char} {tl cs : List Char} (hk : k.toList = c :: tl) (hspace : x ≠ ' ')
    (hx : c ≠ x) : keyword k (x :: cs) = none := by
  rw [keyword, spaces_of_head hspace, hk, isPrefixOf?_cons, if_neg (by simpa using hx)]

theorem not_sign {c : Char} (h : c = '-' ∨ c.isDigit = true) : c ≠ ' ' ∧ ',' ≠ c ∧ 'W' ≠ c := by
  rcases h with rfl | h
  · decide
  · exact ⟨fun heq => absurd (heq ▸ h) (by decide), fun heq => absurd (heq ▸ h) (by decide),
      fun heq => absurd (heq ▸ h) (by decide)⟩

/-- What follows a literal that goes on up to the quote of a number. -/
theorem literal_up_to_number {cs r ds : List Char} {key : String} {i : Int} (hkey : ∀ c ∈ key.toList, isWord c = true)
    (h : literal (',' :: ' ' :: (assignmentText (key, toString i) ++ cs)) = some (ds, r)) :
    keyword "," r = none ∧ keyword "WHERE" r = none := by
  have hword : ∀ c, isWord c = true → c ≠ quote ∧ c ≠ backslash := fun c hc =>
    ⟨fun heq => absurd (heq ▸ hc) (by decide), fun heq => absurd (heq ▸ hc) (by decide)⟩
  have hplain : plain (',' :: ' ' :: (key.toList ++ ['='])) = true := by
    refine plain_of_forall fun c hc => ?_
    simp only [List.mem_cons, List.mem_append, List.not_mem_nil, or_false] at hc
    rcases hc with rfl | rfl | hc | rfl
    · decide
    · decide
    · exact hword c (hkey c hc)
    · decide
  obtain ⟨hq, hun⟩ := plain_iff.mp hplain
  obtain ⟨x, tl, hi, hx, -⟩ := Decimal.toString_cons i
  have hhead : (x :: tl ++ quote :: cs).head? ≠ some quote := by
    rw [List.cons_append, List.head?_cons, ne_eq, Option.some.injEq]
    exact (not_special hx).1
  have htext : ',' :: ' ' :: (assignmentText (key, toString i) ++ cs) =
      (',' :: ' ' :: (key.toList ++ ['='])) ++ quote :: (x :: tl ++ quote :: cs) := by
    rw [assignmentText, quotedText]
    dsimp only
    rw [hi]
    simp only [List.cons_append, List.append_assoc, List.nil_append]
  rw [htext, literal_of_unescape hq hun hhead, Option.some.injEq, Prod.mk.injEq] at h
  obtain ⟨-, rfl⟩ := h
  obtain ⟨hspace, hcomma, hwhere⟩ := not_sign hx
  exact ⟨keyword_none rfl hspace hcomma, keyword_none rfl hspace hwhere⟩

/-- The first of a list. -/
theorem intercalate_cons (as : List (String × String)) (a : String × String) (rest : List Char) :
    ∃ tl, [',', ' '].intercalate ((a :: as).map assignmentText) ++ rest = assignmentText a ++ tl := by
  cases as with
  | nil => exact ⟨rest, by rw [List.map_singleton, List.intercalate_singleton]⟩
  | cons b as =>
    exact ⟨_, by rw [List.map_cons, List.intercalate_cons_of_ne_nil (by simp), List.append_assoc, List.append_assoc]⟩

/-- A text that is open takes in what follows, up to the next quote. -/
theorem assignment_of_open {a : String × String} (ha : Assignable a) (hopen : denoted a.2 = none) (cs : List Char) :
    ∃ ds, assignment (assignmentText a ++ cs) = (literal cs).map fun r => ((a.1, String.ofList (ds ++ r.1)), r.2) := by
  have hun : unescape a.2.toList = none := Option.map_eq_none_iff.mp hopen
  obtain ⟨ds, hds⟩ : ∃ ds, literal (a.2.toList ++ quote :: cs) = (literal cs).map fun r => (ds ++ r.1, r.2) :=
    literal_of_open ha.quote hun
  refine ⟨ds, ?_⟩
  rw [assignment_eq ha, hds, Option.map_map]
  rfl

/-- Behind an open text and the number after it neither a comma nor a `WHERE` is found. -/
theorem assignment_open_number {a b : String × String} (ha : Assignable a) (hopen : denoted a.2 = none)
    (hb : Assignable b) {i : Int} (hi : b.2 = toString i) {tl : List Char} {c : (String × String) × List Char}
    (h : assignment (assignmentText a ++ ([',', ' '] ++ (assignmentText b ++ tl))) = some c) :
    keyword "," c.2 = none ∧ keyword "WHERE" c.2 = none := by
  obtain ⟨ds, hds⟩ := assignment_of_open ha hopen ([',', ' '] ++ (assignmentText b ++ tl))
  obtain ⟨⟨es, r⟩, hes, rfl⟩ := Option.map_eq_some_iff.mp (hds.symm.trans h)
  have hnumber : b = (b.1, toString i) := by rw [← hi]
  rw [hnumber] at hes
  exact literal_up_to_number hb.column.isWord hes

/-- **A text that is open** and followed by numbers: no `WHERE` is found. -/
theorem items_of_open {as : List (String × String)} {rest : List Char} (hassign : ∀ a ∈ as, Assignable a)
    (hrest : quote ∉ rest) (hopen : ∃ a ∈ as, denoted a.2 = none)
    (hnumber : as.Pairwise fun a b => denoted a.2 = none → ∃ i : Int, b.2 = toString i) {n : Nat}
    {bs : List (String × String)} {r : List Char}
    (h : items assignment n ([',', ' '].intercalate (as.map assignmentText) ++ rest) = some (bs, r)) :
    keyword "WHERE" r = none := by
  induction as generalizing n bs with
  | nil =>
    obtain ⟨a, ha, -⟩ := hopen
    cases ha
  | cons a as ih =>
    obtain ⟨ha, has⟩ := List.forall_mem_cons.mp hassign
    obtain ⟨hnext, hnumber⟩ := List.pairwise_cons.mp hnumber
    cases n with
    | zero => cases h
    | succ n =>
      cases hden : denoted a.2 with
      | some text =>
        obtain ⟨b, hb, hnone⟩ := hopen
        have hb : b ∈ as := (List.mem_cons.mp hb).resolve_left fun heq => by rw [heq, hden] at hnone; cases hnone
        have hmap : as.map assignmentText ≠ [] := by simpa using List.ne_nil_of_mem hb
        rw [List.map_cons, List.intercalate_cons_of_ne_nil hmap, List.append_assoc, List.append_assoc] at h
        obtain ⟨cs', hcomma, hsame⟩ := separates_comma_space.comma ([',', ' '].intercalate (as.map assignmentText) ++ rest)
        rw [items_more (assignment_append ha hden (separates_comma_space.delimited _)) hcomma, items_congr hsame] at h
        obtain ⟨⟨cs, r'⟩, hcs, heq⟩ := Option.map_eq_some_iff.mp h
        obtain ⟨-, rfl⟩ := Prod.mk.inj heq
        exact ih has ⟨b, hb, hnone⟩ hnumber hcs
      | none =>
        cases as with
        | nil =>
          obtain ⟨ds, hds⟩ := assignment_of_open ha hden rest
          rw [List.map_singleton, List.intercalate_singleton, items, hds, literal_of_not_mem hrest] at h
          cases h
        | cons b as =>
          obtain ⟨i, hi⟩ := hnext b List.mem_cons_self hden
          obtain ⟨tl, htl⟩ := intercalate_cons as b rest
          rw [List.map_cons, List.intercalate_cons_of_ne_nil (by simp), List.append_assoc, List.append_assoc, htl] at h
          obtain ⟨c, hfirst⟩ : ∃ c, assignment (assignmentText a ++ ([',', ' '] ++ (assignmentText b ++ tl))) = c := ⟨_, rfl⟩
          cases c with
          | none =>
            rw [items, hfirst] at h
            cases h
          | some c =>
            obtain ⟨hcomma, hwhere⟩ := assignment_open_number ha hden (has b List.mem_cons_self) hi hfirst
            rw [items_last hfirst hcomma] at h
            obtain ⟨-, rfl⟩ := Prod.mk.inj (Option.some.inj h)
            exact hwhere

/-! ## Updates -/

section Updates

/-- `UPDATE table SET assignments WHERE column=value` -/
def updateChars (u : Update) : List Char :=
  "UPDATE".toList ++ ' ' :: (u.table.toList ++ ' ' :: ("SET".toList ++ ' ' ::
    ([',', ' '].intercalate (u.assignments.map assignmentText) ++ ' ' :: ("WHERE".toList ++ ' ' ::
      (u.column.toList ++ ("=".toList ++ (toString u.value).toList))))))

variable {u : Update} {text : String}

/-- What is left to read is the assignments and the clause. -/
theorem parseUpdate_eq (htable : IsWord u.table) (htext : text.toList = updateChars u) :
    ∃ n, u.assignments.length ≤ n ∧ parseUpdate text =
    (items assignment n ([',', ' '].intercalate (u.assignments.map assignmentText) ++ ' ' :: ("WHERE".toList ++ ' ' ::
      (u.column.toList ++ ("=".toList ++ (toString u.value).toList))))).bind fun r =>
        (keyword "WHERE" r.2).bind fun cs => (word cs).bind fun c => (keyword "=" c.2).bind fun cs =>
          (Decimal.int? (spaces cs)).bind fun value => some ⟨u.table, r.1, c.1, value⟩ := by
  have hlen : u.assignments.length ≤ ([',', ' '].intercalate (u.assignments.map assignmentText)).length :=
    length_le_intercalate fun a _ => by simp [assignmentText]
  -- its equation lemma would evaluate the keywords
  delta updateChars at htext
  rw [parseUpdate, htext, keyword_append rfl (by decide)]
  simp only [Option.bind_eq_bind, Option.bind_some, word_space]
  rw [htable.read (delimited_cons (by decide) (by decide))]
  simp only [Option.bind_some, keyword_space]
  rw [keyword_append rfl (by decide)]
  simp only [Option.bind_some]
  rw [items_congr (assignment_space _)]
  refine ⟨_, ?_, rfl⟩
  simp only [List.length_cons, List.length_append]
  omega

/-- Texts that are closed: the assignments are read as what they stand for. -/
theorem parseUpdate_of_denoted (htable : IsWord u.table) (hcolumn : IsWord u.column) (htext : text.toList = updateChars u)
    (hassign : ∀ a ∈ u.assignments, Assignable a) (hne : u.assignments ≠ []) {value : String × String → String}
    (hvalue : ∀ a ∈ u.assignments, denoted a.2 = some (value a)) :
    parseUpdate text = some { u with assignments := u.assignments.map fun a => (a.1, value a) } := by
  obtain ⟨n, hn, hread⟩ := parseUpdate_eq htable htext
  have hclause : Delimited (' ' :: ("WHERE".toList ++ ' ' :: (u.column.toList ++ ("=".toList ++ (toString u.value).toList)))) :=
    delimited_cons (by decide) (by decide)
  have hitems := items_intercalate separates_comma_space hclause rfl hne
    (fun a ha cs hcs => assignment_append (hassign a ha) (hvalue a ha) hcs) hn
  obtain ⟨x, tl, hi, hx, -⟩ := Decimal.toString_cons u.value
  have hint := Decimal.int?_toString u.value
  have hsign : Delimited ("=".toList ++ (toString u.value).toList) := delimited_cons (by decide) (by decide)
  rw [hread, hitems]
  simp only [Option.bind_some, keyword_space]
  rw [keyword_append rfl (by decide)]
  simp only [Option.bind_some, word_space]
  rw [hcolumn.read hsign]
  simp only [Option.bind_some]
  rw [keyword_append rfl (by decide), Option.bind_some]
  rw [hi] at hint ⊢
  rw [spaces_of_head (not_sign hx).1, hint]
  rfl

/-- A text that is open: the statement is refused. -/
theorem parseUpdate_of_open (htable : IsWord u.table) (hcolumn : IsWord u.column) (htext : text.toList = updateChars u)
    (hassign : ∀ a ∈ u.assignments, Assignable a) (hopen : ∃ a ∈ u.assignments, denoted a.2 = none)
    (hnumber : u.assignments.Pairwise fun a b => denoted a.2 = none → ∃ i : Int, b.2 = toString i) :
    parseUpdate text = none := by
  obtain ⟨n, -, hread⟩ := parseUpdate_eq htable htext
  obtain ⟨x, tl, hi, hx, htl⟩ := Decimal.toString_cons u.value
  have hclause : quote ∉ ' ' :: ("WHERE".toList ++ ' ' :: (u.column.toList ++ ("=".toList ++ (toString u.value).toList))) := by
    have hword : quote ∉ u.column.toList := fun hin => absurd (hcolumn.isWord quote hin) (by decide)
    have hvalue : quote ∉ (toString u.value).toList := by
      rw [hi, List.mem_cons, not_or]
      exact ⟨(not_special hx).1.symm, fun hin => (not_special (.inr (htl quote hin))).1 rfl⟩
    have hwhere : quote ∉ "WHERE".toList := by decide
    have hsign : quote ∉ "=".toList := by decide
    have hspace : quote ≠ ' ' := by decide
    simp only [List.mem_cons, List.mem_append, hspace, hwhere, hword, hsign, hvalue, or_self, not_false_eq_true]
  rw [hread]
  refine Option.bind_eq_none_iff.mpr fun r hr => ?_
  rw [items_of_open hassign hclause hopen hnumber hr]
  rfl

end Updates

/-! ## Words within a text -/

section Within

variable {γ : Type*} {w : List γ} {c : γ}

/-- A word without `c` at the front of a list with a `c` ends before it. -/
theorem prefix_of_not_mem (hc : c ∉ w) {l l' : List γ} (h : w <+: l ++ c :: l') : w <+: l := by
  by_cases hlen : w.length ≤ l.length
  · exact List.prefix_of_prefix_length_le h (List.prefix_append _ _) hlen
  · have hfull : l ++ [c] <+: w := by
      refine List.prefix_of_prefix_length_le ⟨l', by simp⟩ h ?_
      rw [List.length_append, List.length_singleton]
      omega
    exact absurd (hfull.subset (by simp)) hc

/-- A word without `c` lies on one side of a `c`. -/
theorem infix_append_cons_iff (hc : c ∉ w) {l l' : List γ} : w <:+: l ++ c :: l' ↔ w <:+: l ∨ w <:+: l' := by
  constructor
  · intro h
    induction l with
    | nil =>
      rcases List.infix_cons_iff.mp h with h | h
      · have hfront : w <+: [] ++ c :: l' := h
        exact .inl (prefix_of_not_mem hc hfront).isInfix
      · exact .inr h
    | cons a l ih =>
      rcases List.infix_cons_iff.mp h with h | h
      · have hfront : w <+: (a :: l) ++ c :: l' := h
        exact .inl (prefix_of_not_mem hc hfront).isInfix
      · exact (ih h).imp_left fun h => List.infix_cons h
  · rintro (h | h)
    · exact h.trans (List.prefix_append _ _).isInfix
    · exact h.trans ((List.suffix_cons c l').trans (List.suffix_append _ _)).isInfix

/-- A word without `c` lies behind a `c` at the front. -/
theorem infix_cons_iff_of_not_mem (hc : c ∉ w) (hw : w ≠ []) {l : List γ} : w <:+: c :: l ↔ w <:+: l := by
  have hnil : ¬ w <:+: [] := fun h => hw (List.infix_nil.mp h)
  rw [← List.nil_append (c :: l), infix_append_cons_iff hc, or_iff_right hnil]

/-- A word without `c` lies in one of the parts that a `c` separates. -/
theorem infix_intercalate_iff (hc : c ∉ w) (hw : w ≠ []) {ls : List (List γ)} :
    w <:+: [c].intercalate ls ↔ ∃ l ∈ ls, w <:+: l := by
  induction ls with
  | nil => simpa using hw
  | cons l ls ih =>
    by_cases hnil : ls = []
    · subst hnil
      rw [List.intercalate_singleton]
      simp
    · rw [List.intercalate_cons_of_ne_nil hnil, List.append_assoc, List.singleton_append, infix_append_cons_iff hc, ih]
      simp only [List.mem_cons, exists_eq_or_imp]

/-- A word without quotes lies in a quoted text if it lies in the text. -/
theorem infix_quotedText_iff {w : List Char} (hc : quote ∉ w) (hw : w ≠ []) {v : String} :
    w <:+: quotedText v ↔ w <:+: v.toList := by
  have hnil : ¬ w <:+: [] := fun h => hw (List.infix_nil.mp h)
  have hfront : quotedText v = quote :: (v.toList ++ quote :: []) := rfl
  rw [hfront, infix_cons_iff_of_not_mem hc hw, infix_append_cons_iff hc, or_iff_left hnil]

end Within

end SqlText
