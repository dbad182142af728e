import AsioUtils.Lib.Runs
import Mathlib.Algebra.Ring.Int.Defs
import Mathlib.Data.List.Basic
import Mathlib.Tactic.Common

/-!
# `LogFile`: a log that is spread over files

The file is closed and the next one is opened when more than `rollSize_` bytes were written to it, and when the day has
changed, which every `checkEveryN_`-th append looks at; but never twice in one second. A file is named by the local time of
that second and opened for appending. Local time may repeat itself, and a name that comes again is the file of before, of
whose bytes the new `AppendFile` knows nothing. `fwrite` may accept less than it is given, and the clock is read as often
as the source reads it.

* `AppendFile`, `LogFile` : one opening of a file, and the log with the openings before;
* `appendUnlocked`, `rollFile`, `flush` : the operations; `none` is a log without a file;
* `fileContent` : what was written to the file of a name, through all its openings;
* `files_hold_lines` : the openings hold the lines in order, and a file those of its openings, none of them in two files;
* `Bounded`, `files_bounded` : how far the file grows beyond its size, and into the next day, before the next opening.
-/

namespace AsioUtils.Net.Logging

/-! ## Data -/

/-- An opening of the file of this name: the second, and what was written to it since. `lines` are the calls of `append`:
when, and with what. -/
structure AppendFile (ν : Type) where
  filename : ν
  opened : Int
  content : List UInt8 := []
  writtenBytes_ : Int := 0
  lines : List (Int × List UInt8) := []

namespace AppendFile

variable {ν : Type}

/-- The loop of `append`: `writes` is what `fwrite` accepts, call by call, and everything behind that. -/
def writeRest : List Nat → List UInt8 → List UInt8
  | [], logline => logline
  | x :: writes, logline => if logline = [] ∨ x = 0 then [] else logline.take x ++ writeRest writes (logline.drop x)

/-- What `append` gets written: the first call may accept nothing. -/
def written : List Nat → List UInt8 → List UInt8
  | [], logline => logline
  | n :: writes, logline => logline.take n ++ writeRest writes (logline.drop n)

theorem writeRest_isPrefix (writes : List Nat) (logline : List UInt8) : writeRest writes logline <+: logline := by
  induction writes generalizing logline with
  | nil => exact List.prefix_refl _
  | cons x writes ih =>
    rw [writeRest]
    split_ifs
    · exact List.nil_prefix
    · conv_rhs => rw [← List.take_append_drop x logline]
      exact (List.prefix_append_right_inj _).mpr (ih _)

theorem writeRest_eq {writes : List Nat} (h : 0 ∉ writes) (logline : List UInt8) : writeRest writes logline = logline := by
  induction writes generalizing logline with
  | nil => rfl
  | cons x writes ih =>
    obtain ⟨hx, hwrites⟩ := not_or.mp (List.mem_cons.not.mp h)
    rw [writeRest, ih hwrites]
    split_ifs with hstop
    · exact (hstop.resolve_right (Ne.symm hx)).symm
    · exact List.take_append_drop x logline

/-- A line is cut short at most. -/
theorem written_isPrefix (writes : List Nat) (logline : List UInt8) : written writes logline <+: logline := by
  cases writes with
  | nil => exact List.prefix_refl _
  | cons n writes =>
    conv_rhs => rw [← List.take_append_drop n logline]
    exact (List.prefix_append_right_inj _).mpr (writeRest_isPrefix writes _)

/-- It is written whole unless a call of `fwrite` behind the first accepts nothing. -/
theorem written_eq {writes : List Nat} (h : 0 ∉ writes.tail) (logline : List UInt8) : written writes logline = logline := by
  cases writes with
  | nil => rfl
  | cons n writes => rw [written, writeRest_eq (show 0 ∉ writes from h), List.take_append_drop]

def append (f : AppendFile ν) (now : Int) (logline : List UInt8) (writes : List Nat) : AppendFile ν :=
  { f with
    content := f.content ++ written writes logline
    writtenBytes_ := f.writtenBytes_ + logline.length
    lines := f.lines ++ [(now, logline)] }

end AppendFile

def kRollPerSeconds_ : Int := 60 * 60 * 24

/-- `now / kRollPerSeconds_ * kRollPerSeconds_` -/
def period (now : Int) : Int := now.tdiv kRollPerSeconds_ * kRollPerSeconds_

/-- `closed` are the openings before `file_`, the oldest first; `clock` is the time that was read last. -/
structure LogFile (ν : Type) where
  rollSize_ : Int
  flushInterval_ : Int := 3
  checkEveryN_ : Int := 1024
  count_ : Int := 0
  startOfPeriod_ : Int := 0
  lastRoll_ : Int := 0
  lastFlush_ : Int := 0
  file_ : Option (AppendFile ν) := none
  closed : List (AppendFile ν) := []
  clock : Int := 0

namespace LogFile

variable {ν : Type}

section Operations

variable (getLogFileName : Int → ν) (l : LogFile ν)

def openings : List (AppendFile ν) := l.closed ++ l.file_.toList

def rollFile (now : Int) : LogFile ν :=
  if now > l.lastRoll_ then
    { l with
      lastRoll_ := now
      lastFlush_ := now
      startOfPeriod_ := period now
      closed := l.openings
      file_ := some { filename := getLogFileName now, opened := now }
      clock := now }
  else { l with clock := now }

/-- The constructor. -/
def create (rollSize flushInterval checkEveryN now : Int) : LogFile ν :=
  rollFile getLogFileName { rollSize_ := rollSize, flushInterval_ := flushInterval, checkEveryN_ := checkEveryN } now

/-- `appendUnlocked` behind `file_->append`. `now` is its own reading of the clock, `roll` that of `rollFile`. -/
def check (file : AppendFile ν) (now roll : Int) : LogFile ν :=
  if file.writtenBytes_ > l.rollSize_ then { l with file_ := some file }.rollFile getLogFileName roll
  else if l.count_ + 1 ≥ l.checkEveryN_ then
    if period now ≠ l.startOfPeriod_ then { l with file_ := some file, count_ := 0 }.rollFile getLogFileName roll
    else if now - l.lastFlush_ > l.flushInterval_ then
      { l with file_ := some file, count_ := 0, lastFlush_ := now, clock := now }
    else { l with file_ := some file, count_ := 0, clock := now }
  else { l with file_ := some file, count_ := l.count_ + 1, clock := now }

def appendUnlocked (now roll : Int) (logline : List UInt8) (writes : List Nat)  : Option (LogFile ν) :=
  l.file_.map fun file => l.check getLogFileName (file.append now logline writes) now roll

/-- `file_->flush()` -/
def flush : Option (LogFile ν) := l.file_.map fun _ => l

/-- What was written to the file of this name. -/
def fileContent [DecidableEq ν] (filename : ν) : List UInt8 :=
  (l.openings.filter fun f => f.filename = filename).flatMap AppendFile.content

inductive Event
  | append (now roll : Int) (logline : List UInt8) (writes : List Nat)
  | flush
  | rollFile (now : Int)

def step (s : Option (LogFile ν)) (e : Event) : Option (LogFile ν) :=
  s.bind fun l => match e with
    | .append now roll logline writes => l.appendUnlocked getLogFileName now roll logline writes
    | .flush => l.flush
    | .rollFile now => some (l.rollFile getLogFileName now)

end Operations

/-- What the calls got written, line by line. -/
def writtenLines (es : List Event) : List (List UInt8) :=
  es.filterMap fun e => match e with
    | .append _ _ logline writes => some (AppendFile.written writes logline)
    | _ => none

/-- The clock does not go back. -/
def Forward (s : Option (LogFile ν)) : Event → Prop
  | .append now roll _ _ => ∀ l ∈ s, l.clock ≤ now ∧ now ≤ roll
  | .flush => True
  | .rollFile now => ∀ l ∈ s, l.clock ≤ now

instance (s : Option (LogFile ν)) : (e : Event) → Decidable (Forward s e)
  | .append now roll _ _ => inferInstanceAs (Decidable (∀ l ∈ s, l.clock ≤ now ∧ now ≤ roll))
  | .flush => .isTrue trivial
  | .rollFile now => inferInstanceAs (Decidable (∀ l ∈ s, l.clock ≤ now))

/-! ## Steps -/

section Step

variable (getLogFileName : Int → ν) {l : LogFile ν}

/-- A roll opens another file or does nothing. -/
theorem rollFile_cases (now : Int) : (l.lastRoll_ < now ∧ (l.rollFile getLogFileName now) =
    { l with lastRoll_ := now, lastFlush_ := now, startOfPeriod_ := period now, closed := l.openings,
             file_ := some { filename := getLogFileName now, opened := now }, clock := now }) ∨
      (now ≤ l.lastRoll_ ∧ l.rollFile getLogFileName now = { l with clock := now }) := by
  unfold rollFile
  split_ifs with h
  · exact .inl ⟨h, rfl⟩
  · exact .inr ⟨by omega, rfl⟩

/-- What an append does with the file it has written to: it stays, with the count one higher or at `0`, or it is closed. -/
theorem check_cases (file : AppendFile ν) (now roll : Int) :
    (file.writtenBytes_ > l.rollSize_ ∧
      l.check getLogFileName file now roll = { l with file_ := some file }.rollFile getLogFileName roll) ∨
    (file.writtenBytes_ ≤ l.rollSize_ ∧
      ((l.count_ + 1 < l.checkEveryN_ ∧
          l.check getLogFileName file now roll = { l with file_ := some file, count_ := l.count_ + 1, clock := now }) ∨
        (period now ≠ l.startOfPeriod_ ∧
          l.check getLogFileName file now roll = { l with file_ := some file, count_ := 0 }.rollFile getLogFileName roll) ∨
        (period now = l.startOfPeriod_ ∧ ∃ lastFlush, l.check getLogFileName file now roll =
          { l with file_ := some file, count_ := 0, lastFlush_ := lastFlush, clock := now }))) := by
  unfold check
  split_ifs with hsize hcount hperiod hflush
  · exact .inl ⟨hsize, rfl⟩
  · exact .inr ⟨by omega, .inr (.inl ⟨hperiod, rfl⟩)⟩
  · exact .inr ⟨by omega, .inr (.inr ⟨not_not.mp hperiod, now, rfl⟩)⟩
  · exact .inr ⟨by omega, .inr (.inr ⟨not_not.mp hperiod, l.lastFlush_, rfl⟩)⟩
  · exact .inr ⟨by omega, .inl ⟨by omega, rfl⟩⟩

/-- What a log comes to by a group of lines for each opening: the file, and the bytes. -/
def Grouped (l : LogFile ν) (groups : List (ν × List (List UInt8))) : Prop :=
  l.openings.map (fun f => (f.filename, f.content)) = groups.map fun g => (g.1, g.2.flatten)

/-- There is a file, and the openings hold `lines` one after the other. -/
def Holds (l : LogFile ν) (lines : List (List UInt8)) : Prop :=
  l.file_.isSome = true ∧ ∃ groups, (groups.flatMap Prod.snd) = lines ∧ l.Grouped groups

theorem rollFile_holds {lines : List (List UInt8)} (h : l.Holds lines) (now : Int) :
    (l.rollFile getLogFileName now).Holds lines := by
  obtain ⟨hfile, groups, hlines, hgroups⟩ := h
  rcases l.rollFile_cases getLogFileName now with ⟨-, heq⟩ | ⟨-, heq⟩
  · rw [heq]
    refine ⟨rfl, groups ++ [(getLogFileName now, [])], by simpa using hlines, ?_⟩
    rw [Grouped] at hgroups
    show List.map _ (l.openings ++ [_]) = _
    rw [List.map_append, hgroups, List.map_append]
    rfl
  · rw [heq]
    exact ⟨hfile, groups, hlines, hgroups⟩

/-- The file that is open takes another line. -/
theorem holds_append {lines : List (List UInt8)} (h : l.Holds lines) {file : AppendFile ν} (hfile : l.file_ = some file)
    (now : Int) (logline : List UInt8) (writes : List Nat) :
    { l with file_ := some (file.append now logline writes) }.Holds (lines ++ [AppendFile.written writes logline]) := by
  obtain ⟨-, groups, rfl, hgroups⟩ := h
  have hall : l.openings.map (fun f => (f.filename, f.content)) =
      l.closed.map (fun f => (f.filename, f.content)) ++ [(file.filename, file.content)] := by simp [openings, hfile]
  rw [Grouped, hall] at hgroups
  rcases List.eq_nil_or_concat groups with rfl | ⟨earlier, last, rfl⟩
  · simp at hgroups
  · rw [List.concat_eq_append, List.map_append, List.map_singleton] at hgroups
    obtain ⟨hclosed, hlast⟩ := List.append_inj' hgroups rfl
    obtain ⟨hname, hcontent⟩ := Prod.mk.inj (List.singleton_inj.mp hlast)
    refine ⟨rfl, earlier ++ [(last.1, last.2 ++ [AppendFile.written writes logline])], by simp, ?_⟩
    simp [Grouped, openings, hclosed, AppendFile.append, hname, hcontent]

theorem step_holds {lines : List (List UInt8)} (h : l.Holds lines) (e : Event) :
    ∃ l', step getLogFileName (some l) e = some l' ∧ l'.Holds (lines ++ writtenLines [e]) := by
  obtain ⟨file, hfile⟩ := Option.isSome_iff_exists.mp h.1
  cases e with
  | append now roll logline writes =>
    refine ⟨l.check getLogFileName (file.append now logline writes) now roll, by simp [step, appendUnlocked, hfile], ?_⟩
    have hnew := holds_append h hfile now logline writes
    rcases l.check_cases getLogFileName (file.append now logline writes) now roll with
      ⟨-, heq⟩ | ⟨-, ⟨-, heq⟩ | ⟨-, heq⟩ | ⟨-, lastFlush, heq⟩⟩
    · rw [heq]
      exact rollFile_holds getLogFileName hnew roll
    · rw [heq]
      exact hnew
    · rw [heq]
      exact rollFile_holds getLogFileName (l := { l with file_ := some _, count_ := 0 }) hnew roll
    · rw [heq]
      exact hnew
  | flush => exact ⟨l, by simp [step, flush, hfile], by simpa [writtenLines] using h⟩
  | rollFile now => exact ⟨_, rfl, by simpa [writtenLines] using rollFile_holds getLogFileName h now⟩

end Step

section Lines

variable (getLogFileName : Int → ν)

theorem create_holds (rollSize flushInterval checkEveryN : Int) {now : Int} (hnow : 0 < now) :
    (create getLogFileName rollSize flushInterval checkEveryN now).Holds [] := by
  rw [create, rollFile, if_pos hnow]
  exact ⟨rfl, [(getLogFileName now, [])], rfl, rfl⟩

/-- What two runs write, one after the other. -/
theorem writtenLines_append (es fs : List Event) : writtenLines (es ++ fs) = writtenLines es ++ writtenLines fs :=
  List.filterMap_append

theorem run_holds {l : LogFile ν} {lines : List (List UInt8)} (h : l.Holds lines) (es : List Event) :
    ∃ l', Runs.run (step getLogFileName) (some l) es = some l' ∧ l'.Holds (lines ++ writtenLines es) := by
  induction es generalizing l lines with
  | nil => exact ⟨l, rfl, by simpa [writtenLines] using h⟩
  | cons e es ih =>
    obtain ⟨l₁, hstep, h₁⟩ := step_holds getLogFileName h e
    obtain ⟨l', hrun, h'⟩ := ih h₁
    refine ⟨l', by rw [Runs.run_cons, hstep, hrun], ?_⟩
    rwa [List.append_assoc, ← writtenLines_append] at h'

/-- A file holds the lines of its openings. -/
theorem Grouped.fileContent [DecidableEq ν] {l : LogFile ν} {groups : List (ν × List (List UInt8))} (h : l.Grouped groups)
    (filename : ν) :
    l.fileContent filename = ((groups.filter fun g => g.1 = filename).flatMap Prod.snd).flatten := by
  unfold Grouped at h
  unfold LogFile.fileContent
  generalize l.openings = openings at h
  induction openings generalizing groups with
  | nil =>
    obtain rfl : groups = [] := by simpa using h.symm
    rfl
  | cons f openings ih =>
    obtain ⟨g, groups, rfl⟩ := List.exists_cons_of_ne_nil (l := groups) (by rintro rfl; simp at h)
    obtain ⟨hfirst, hrest⟩ := List.cons.inj h
    obtain ⟨hname, hcontent⟩ := Prod.mk.inj hfirst
    rw [List.filter_cons, List.filter_cons, hname]
    split_ifs
    · rw [List.flatMap_cons, List.flatMap_cons, List.flatten_append, ih hrest, hcontent]
    · exact ih hrest

/-- **No line is lost, moved or torn**: over any appends, flushes and rolls, whatever the clock says, the openings of files
hold in their order what was written, line after line; a file holds the lines of its openings, so that every line is in one
file. -/
theorem files_hold_lines [DecidableEq ν] (rollSize flushInterval checkEveryN now : Int) (hnow : 0 < now)
    (es : List Event) :
    ∃ l, Runs.run (step getLogFileName) (some (create getLogFileName rollSize flushInterval checkEveryN now)) es = some l ∧
      ∃ groups : List (ν × List (List UInt8)), groups.flatMap Prod.snd = writtenLines es ∧
        l.openings.map AppendFile.filename = groups.map Prod.fst ∧
        ∀ filename, l.fileContent filename = ((groups.filter fun g => g.1 = filename).flatMap Prod.snd).flatten := by
  obtain ⟨l, hrun, -, groups, hlines, hgroups⟩ :=
    run_holds getLogFileName (create_holds getLogFileName rollSize flushInterval checkEveryN hnow) es
  refine ⟨l, hrun, groups, by simpa using hlines, ?_, hgroups.fileContent⟩
  have hnames := congrArg (List.map Prod.fst) hgroups
  simpa [List.map_map, Function.comp_def] using hnames

end Lines

/-! ## How large a file gets between two openings -/

def bytes (lines : List (Int × List UInt8)) : Int := (lines.map fun e => e.2.length).sum

/-- The lines of another day than that of the opening. -/
def late (f : AppendFile ν) : Nat := (f.lines.filter fun e => period e.1 ≠ period f.opened).length

/-- Behind every line the file is within its size, or it is still the second the file was opened in; `ended` : behind
the last line as well. -/
def Within (rollSize : Int) (f : AppendFile ν) (ended : Bool) : Prop :=
  ∀ pre e post, f.lines = pre ++ e :: post → (ended = true → post ≠ []) →
    bytes (pre ++ [e]) ≤ rollSize ∨ e.1 = f.opened

/-- The bounds of an opening: it goes over its size by its last line only, or within one second, and gets at most
`checkEveryN` lines of other days than its own. -/
structure Bounded (rollSize checkEveryN : Int) (f : AppendFile ν) : Prop where
  within : Within rollSize f true
  late : (late f : Int) ≤ max 1 checkEveryN

/-- What holds of the file that is open. -/
structure Open (l : LogFile ν) (f : AppendFile ν) : Prop where
  opened : f.opened = l.lastRoll_
  start : l.startOfPeriod_ = period l.lastRoll_
  clock : l.lastRoll_ ≤ l.clock
  times : ∀ e ∈ f.lines, f.opened ≤ e.1 ∧ e.1 ≤ l.clock
  written : f.writtenBytes_ = bytes f.lines
  within : Within l.rollSize_ f false
  late : (LogFile.late f : Int) ≤ l.count_
  count : 0 ≤ l.count_ ∧ l.count_ < max 1 l.checkEveryN_

/-- What holds of the log. -/
structure Inv (rollSize checkEveryN : Int) (l : LogFile ν) : Prop where
  size : l.rollSize_ = rollSize
  every : l.checkEveryN_ = checkEveryN
  file : ∃ f, l.file_ = some f ∧ l.Open f
  closed : ∀ f ∈ l.closed, Bounded rollSize checkEveryN f

theorem period_mono {t t' : Int} (h : t ≤ t') : period t ≤ period t' :=
  Int.mul_le_mul_of_nonneg_right (Int.tdiv_le_tdiv (by decide) h) (by decide)

section Bounds

variable {getLogFileName : Int → ν} {l : LogFile ν} {f : AppendFile ν} {rollSize checkEveryN : Int}

theorem within_append {ended : Bool} (h : Within rollSize f false) {now : Int} {logline : List UInt8} {writes : List Nat}
    (hlast : ended = false → bytes (f.append now logline writes).lines ≤ rollSize ∨ now = f.opened) :
    Within rollSize (f.append now logline writes) ended := by
  intro pre e post heq hpost
  change f.lines ++ [(now, logline)] = _ at heq
  rcases List.eq_nil_or_concat post with rfl | ⟨post, last, rfl⟩
  · obtain ⟨rfl, he⟩ := List.append_inj' heq rfl
    obtain rfl := List.singleton_inj.mp he
    exact hlast (by simpa using hpost)
  · rw [List.concat_eq_append, ← List.cons_append, ← List.append_assoc] at heq
    obtain ⟨hlines, -⟩ := List.append_inj' heq rfl
    exact h pre e post hlines (by simp)

theorem bytes_append (lines : List (Int × List UInt8)) (e : Int × List UInt8) :
    bytes (lines ++ [e]) = bytes lines + e.2.length := by
  simp [bytes]

theorem late_append (f : AppendFile ν) (now : Int) (logline : List UInt8) (writes : List Nat) :
    late (f.append now logline writes) = late f + if period now ≠ period f.opened then 1 else 0 := by
  unfold late AppendFile.append
  dsimp only
  rw [List.filter_append, List.length_append]
  split_ifs with h <;> simp [h]

theorem rollFile_inv (hsize : l.rollSize_ = rollSize) (hevery : l.checkEveryN_ = checkEveryN)
    (hclosed : ∀ f ∈ l.closed, Bounded rollSize checkEveryN f) (hfile : l.file_ = some f)
    (hf : Bounded rollSize checkEveryN f) (hcount : 0 ≤ l.count_ ∧ l.count_ < max 1 l.checkEveryN_) {now : Int}
    (hopen : now ≤ l.lastRoll_ → { l with clock := now }.Open f) :
    Inv rollSize checkEveryN (l.rollFile getLogFileName now) := by
  rcases l.rollFile_cases getLogFileName now with ⟨-, heq⟩ | ⟨hle, heq⟩
  · rw [heq]
    refine ⟨hsize, hevery, ⟨_, rfl, rfl, rfl, Int.le_refl _, by simp, rfl, fun pre e post h => by simp at h, hcount.1,
      hcount⟩, ?_⟩
    intro g hg
    rcases List.mem_append.mp hg with hg | hg
    · exact hclosed g hg
    · rw [hfile] at hg
      obtain rfl : g = f := by simpa using hg
      exact hf
  · rw [heq]
    exact ⟨hsize, hevery, ⟨f, hfile, hopen hle⟩, hclosed⟩

/-- An open file has the bounds of a closed one. -/
theorem Open.bounded (h : l.Open f) : Bounded l.rollSize_ l.checkEveryN_ f :=
  ⟨fun pre e post heq _ => h.within pre e post heq (by simp), by have := h.late; have := h.count.2; omega⟩

/-- The file that is open, with a line that it gets at `now`: a line of another day costs one of the count. -/
theorem append_late (h : l.Open f) (now : Int) (logline : List UInt8) (writes : List Nat) :
    (LogFile.late (f.append now logline writes) : Int) ≤ l.count_ + 1 := by
  have hlate := h.late
  rw [late_append]
  split_ifs <;> omega

theorem append_times (h : l.Open f) {now : Int} (hnow : l.clock ≤ now) (logline : List UInt8) (writes : List Nat) :
    ∀ e ∈ (f.append now logline writes).lines, f.opened ≤ e.1 ∧ e.1 ≤ now := by
  have hclock := h.clock
  have hopened := h.opened
  intro e he
  rcases List.mem_append.mp he with he | he
  · have := h.times e he
    omega
  · obtain rfl := List.mem_singleton.mp he
    exact ⟨by dsimp only; omega, Int.le_refl _⟩

theorem append_written (h : l.Open f) (now : Int) (logline : List UInt8) (writes : List Nat) :
    (f.append now logline writes).writtenBytes_ = bytes (f.append now logline writes).lines := by
  have hwritten := h.written
  rw [AppendFile.append, bytes_append]
  dsimp only
  omega

/-- As long as all its lines are of its own day, none is late. -/
theorem late_eq_zero {now : Int} (htimes : ∀ e ∈ f.lines, f.opened ≤ e.1 ∧ e.1 ≤ now)
    (hday : period now = period f.opened) : late f = 0 := by
  rw [late, List.length_eq_zero_iff, List.filter_eq_nil_iff]
  intro e he
  have hfrom := period_mono (htimes e he).1
  have hto := period_mono (htimes e he).2
  simp only [decide_eq_true_eq, not_not]
  omega

theorem check_inv (h : Inv rollSize checkEveryN l) (hopen : l.Open f) {now roll : Int}
    (hnow : l.clock ≤ now) (hroll : now ≤ roll) (logline : List UInt8) (writes : List Nat) :
    Inv rollSize checkEveryN (l.check getLogFileName (f.append now logline writes) now roll) := by
  have hopened := hopen.opened
  have hclock := hopen.clock
  have hcount := hopen.count
  have hlate := append_late hopen now logline writes
  have htimes := append_times hopen hnow logline writes
  have hwritten := append_written hopen now logline writes
  have hstart : l.startOfPeriod_ = period f.opened := by rw [hopen.start, hopened]
  set g := f.append now logline writes with hg
  have hgopened : g.opened = f.opened := rfl
  have hwithin : Within l.rollSize_ g true := within_append hopen.within (by simp)
  have hbounded : Bounded rollSize checkEveryN g := by
    rw [← h.size, ← h.every]
    exact ⟨hwithin, by omega⟩
  rcases l.check_cases getLogFileName g now roll with
    ⟨hsize, heq⟩ | ⟨hsize, ⟨hless, heq⟩ | ⟨hday, heq⟩ | ⟨hday, lastFlush, heq⟩⟩
  · rw [heq]
    refine rollFile_inv (l := { l with file_ := some g }) h.size h.every h.closed rfl hbounded hcount fun hle => ?_
    -- no roll in the second of the file: the line is of its day
    change roll ≤ l.lastRoll_ at hle
    have hsame : now = f.opened := by omega
    refine ⟨hopened, hopen.start, by dsimp only; omega, fun e he => ?_, hwritten,
      within_append hopen.within fun _ => .inr hsame, ?_, hcount⟩
    · have := htimes e he
      dsimp only
      omega
    · rw [hg, late_append, hsame]
      simpa using hopen.late
  · rw [heq]
    refine ⟨h.size, h.every, ⟨g, rfl, hopened, hopen.start, by dsimp only; omega, htimes, hwritten, ?_, hlate, ?_⟩,
      h.closed⟩
    · exact within_append hopen.within fun _ => .inl (by rw [← hg]; omega)
    · dsimp only
      omega
  · rw [heq]
    refine rollFile_inv (l := { l with file_ := some g, count_ := 0 }) h.size h.every h.closed rfl hbounded
      ⟨Int.le_refl 0, by dsimp only; omega⟩ fun hle => ?_
    -- on another day the roll is not refused
    change roll ≤ l.lastRoll_ at hle
    exact absurd (show period now = l.startOfPeriod_ by rw [hstart]; congr 1; omega) hday
  · rw [heq]
    refine ⟨h.size, h.every, ⟨g, rfl, hopened, hopen.start, by dsimp only; omega, htimes, hwritten, ?_, ?_,
      ⟨Int.le_refl 0, by dsimp only; omega⟩⟩, h.closed⟩
    · exact within_append hopen.within fun _ => .inl (by rw [← hg]; omega)
    · rw [late_eq_zero htimes (hday.trans hstart)]
      exact Int.le_refl 0

theorem step_inv {e : Event} (h : Inv rollSize checkEveryN l) (hforward : Forward (some l) e) :
    ∀ l' ∈ step getLogFileName (some l) e, Inv rollSize checkEveryN l' := by
  intro l' hl'
  obtain ⟨f, hfile, hopen⟩ := h.file
  cases e with
  | append now roll logline writes =>
    obtain ⟨hnow, hroll⟩ := hforward l rfl
    have hstep : step getLogFileName (some l) (.append now roll logline writes) =
        some (l.check getLogFileName (f.append now logline writes) now roll) := by
      simp [step, appendUnlocked, hfile]
    obtain rfl := Option.some.inj (hstep.symm.trans hl')
    exact check_inv h hopen hnow hroll logline writes
  | flush =>
    have hstep : step getLogFileName (some l) .flush = some l := by simp [step, flush, hfile]
    obtain rfl := Option.some.inj (hstep.symm.trans hl')
    exact h
  | rollFile now =>
    obtain rfl := Option.some.inj hl'
    have hnow := hforward l rfl
    have hbounded := hopen.bounded
    rw [h.size, h.every] at hbounded
    refine rollFile_inv h.size h.every h.closed hfile hbounded hopen.count fun hle => ?_
    have hclock := hopen.clock
    refine ⟨hopen.opened, hopen.start, by dsimp only; omega, fun e he => ?_, hopen.written, hopen.within, hopen.late,
      hopen.count⟩
    have := hopen.times e he
    dsimp only
    omega

end Bounds

section Run

variable (getLogFileName : Int → ν)

theorem create_inv (rollSize flushInterval checkEveryN : Int) {now : Int} (hnow : 0 < now) :
    Inv rollSize checkEveryN (create getLogFileName rollSize flushInterval checkEveryN now) := by
  rw [create, rollFile, if_pos hnow]
  refine ⟨rfl, rfl, ⟨_, rfl, rfl, rfl, Int.le_refl _, by simp, rfl, fun pre e post h => by simp at h, Int.le_refl 0, ?_⟩,
    by simp [openings]⟩
  dsimp only
  omega

/-- **How far files grow**: as long as the clock does not go back, what is appended from one opening of a file to the next
goes over `rollSize_` by its last line only or by what is appended in the second of the opening, and has at most
`checkEveryN_` lines of other days. -/
theorem files_bounded (rollSize flushInterval checkEveryN now : Int) (hnow : 0 < now) (es : List Event)
    (hforward : Runs.Along (step getLogFileName) Forward
      (some (create getLogFileName rollSize flushInterval checkEveryN now)) es) :
    ∀ l ∈ Runs.run (step getLogFileName) (some (create getLogFileName rollSize flushInterval checkEveryN now)) es,
      ∀ f ∈ l.openings, Bounded rollSize checkEveryN f := by
  have hinv : ∀ l ∈ Runs.run (step getLogFileName)
      (some (create getLogFileName rollSize flushInterval checkEveryN now)) es, Inv rollSize checkEveryN l := by
    refine Runs.inv_run_along (q := fun s => ∀ l ∈ s, Inv rollSize checkEveryN l) (fun s e hs hp => ?_) ?_ hforward
    · cases s with
      | none => exact fun l hl => absurd hl (Option.not_mem_none l)
      | some l => exact step_inv (hs l rfl) hp
    · intro l hl
      obtain rfl := Option.some.inj hl
      exact create_inv getLogFileName rollSize flushInterval checkEveryN hnow
  intro l hl f hf
  have h := hinv l hl
  obtain ⟨g, hfile, hopen⟩ := h.file
  rcases List.mem_append.mp hf with hf | hf
  · exact h.closed f hf
  · rw [hfile] at hf
    obtain rfl : f = g := by simpa using hf
    rw [← h.size, ← h.every]
    exact hopen.bounded

end Run

/-- Four lines in files of four bytes: two in the second of the opening, the others a day later. -/
def fourLines : List Event :=
  [.append 100 100 [1, 2, 3, 4, 5] [], .append 100 100 [6] [1], .append 90000 90001 [7] [], .flush,
    .append 90001 90002 [8, 9] []]

/-- A clock that shows the time of day: a day later the name comes again. -/
def timeOfDay (now : Int) : Int := now % kRollPerSeconds_

theorem files_hold_lines_four :
    ∃ l, Runs.run (step timeOfDay) (some (create timeOfDay 4 3 2 100)) fourLines = some l ∧
      ∃ groups : List (Int × List (List UInt8)), groups.flatMap Prod.snd = writtenLines fourLines ∧
        l.openings.map AppendFile.filename = groups.map Prod.fst ∧
        ∀ filename, l.fileContent filename = ((groups.filter fun g => g.1 = filename).flatMap Prod.snd).flatten :=
  files_hold_lines timeOfDay 4 3 2 100 (by decide) fourLines

theorem files_bounded_four : Runs.Along (step timeOfDay) Forward (some (create timeOfDay 4 3 2 100)) fourLines ∧
    ∀ l ∈ Runs.run (step timeOfDay) (some (create timeOfDay 4 3 2 100)) fourLines,
      ∀ f ∈ l.openings, Bounded 4 2 f := by
  have hforward : Runs.Along (step timeOfDay) Forward (some (create timeOfDay 4 3 2 100)) fourLines := by
    decide
  exact ⟨hforward, files_bounded timeOfDay 4 3 2 100 (by decide) fourLines hforward⟩

end LogFile

end AsioUtils.Net.Logging
