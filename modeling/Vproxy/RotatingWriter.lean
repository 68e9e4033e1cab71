-- The log writer that rotates its files (rotating_writer.go), over a file system that is a map
-- from names to contents. Whatever is written and closed, the files hold the end of the
-- history, cut between records.
import Vproxy.Generations
import Vproxy.Runs
import Vproxy.Strings

open go generations

namespace vproxy.rotating

/-! ## Files -/

abbrev Files := Str → Option (List UInt8)

def stat (fs : Files) (name : Str) : Option Nat := (fs name).map List.length

def remove (fs : Files) (name : Str) : Files := Function.update fs name none

/-- A rename of a file that is not there fails, and changes nothing. -/
def rename (fs : Files) (src dst : Str) : Files :=
  match fs src with
  | none => fs
  | some contents => Function.update (Function.update fs src none) dst (some contents)

/-! ## The writer -/

/-- The limits are never zero: `NewRotatingWriter` puts its defaults there. `file` is the name of
the open file. -/
structure RotatingWriter where
  filePath : Str
  maxSize : Nat
  maxBackups : Nat
  currentSize : Nat
  file : Option Str
  maxSize_pos : 0 < maxSize
  maxBackups_pos : 0 < maxBackups

structure Log where
  writer : RotatingWriter
  files : Files

/-- `fmt.Sprintf("%s.%d", filePath, i)`. -/
def backup (filePath : Str) (i : Nat) : Str := filePath ++ '.' :: itoa i

def openExistingOrNew (l : Log) : Log :=
  match stat l.files l.writer.filePath with
  | some size => ⟨{ l.writer with currentSize := size, file := l.writer.filePath }, l.files⟩
  | none =>
    ⟨{ l.writer with currentSize := 0, file := l.writer.filePath },
      Function.update l.files l.writer.filePath (some [])⟩

def newRotatingWriter (filePath : Str) (maxSize maxBackups : Int) (files : Files) : Log :=
  openExistingOrNew
    ⟨{  filePath
        maxSize := if maxSize ≤ 0 then 10 * 1024 * 1024 else maxSize.toNat
        maxBackups := if maxBackups ≤ 0 then 1 else maxBackups.toNat
        currentSize := 0
        file := none
        maxSize_pos := by split <;> omega
        maxBackups_pos := by split <;> omega }, files⟩

/-- The loop of `rotate`, from `i` down to 1. -/
def shiftBackups (filePath : Str) : Nat → Files → Files
  | 0, fs => fs
  | i + 1, fs =>
    let src := backup filePath (i + 1)
    let dst := backup filePath (i + 2)
    shiftBackups filePath i (if (stat fs src).isSome then rename fs src dst else fs)

def rotate (l : Log) : Log :=
  let w := { l.writer with file := none }
  let fs := remove l.files (backup w.filePath w.maxBackups)
  let fs := shiftBackups w.filePath (w.maxBackups - 1) fs
  openExistingOrNew ⟨w, rename fs w.filePath (backup w.filePath 1)⟩

/-- Gives the number of bytes written. -/
def write (l : Log) (p : List UInt8) : Log × Nat :=
  let l :=
    if l.writer.currentSize + p.length > l.writer.maxSize && l.writer.currentSize > 0 then rotate l
    else l
  let l := if l.writer.file.isNone then openExistingOrNew l else l
  let name := l.writer.file.getD l.writer.filePath
  (⟨{ l.writer with currentSize := l.writer.currentSize + p.length },
    Function.update l.files name (some ((l.files name).getD [] ++ p))⟩, p.length)

def close (l : Log) : Log := ⟨{ l.writer with file := none }, l.files⟩

inductive Call where
  | write (p : List UInt8)
  | close

def step (l : Log) : Call → Log
  | .write p => (write l p).1
  | .close => close l

/-- The records of the calls, in order. -/
def records (calls : List Call) : List (List UInt8) :=
  calls.filterMap fun
    | .write p => some p
    | .close => none

/-! ## Names -/

/-- The name of each generation: the file itself, and its backups. -/
def nameOf (filePath : Str) : Nat → Str
  | 0 => filePath
  | k + 1 => backup filePath (k + 1)

theorem itoa_injective {m n : Nat} (h : itoa m = itoa n) : m = n := by
  have hread := congrArg (Nat.ofDigitChars 10 · 0) h
  simpa [itoa, Nat.ofDigitChars_ten_toDigits] using hread

theorem nameOf_injective (filePath : Str) : Function.Injective (nameOf filePath) := by
  intro i j h
  cases i with
  | zero =>
    cases j with
    | zero => rfl
    | succ j => simp [nameOf, backup] at h
  | succ i =>
    cases j with
    | zero => simp [nameOf, backup] at h
    | succ j =>
      rw [nameOf, nameOf, backup, backup, List.append_cancel_left_eq, List.cons.injEq] at h
      exact itoa_injective h.2

/-- What the files hold, by generation. -/
def gens (filePath : Str) (fs : Files) : Gens UInt8 := fun k => fs (nameOf filePath k)

/-! ## The loop of rotate -/

section

variable {filePath : Str} {fs : Files}

/-- One turn of the loop, where the place to move to is free. -/
theorem rename_backup {i : Nat} (hfree : fs (nameOf filePath (i + 2)) = none) :
    (if (stat fs (backup filePath (i + 1))).isSome then
        rename fs (backup filePath (i + 1)) (backup filePath (i + 2)) else fs) =
      Function.update (Function.update fs (nameOf filePath (i + 1)) none) (nameOf filePath (i + 2))
        (fs (nameOf filePath (i + 1))) := by
  change fs (backup filePath (i + 2)) = none at hfree
  simp only [nameOf, stat, rename, Option.isSome_map]
  cases hsrc : fs (backup filePath (i + 1)) with
  | none =>
    rw [Function.update_eq_self_iff.mpr hsrc.symm, Function.update_eq_self_iff.mpr hfree.symm]
    rfl
  | some contents => rfl

/-- The loop moves each of the backups up to `i` one place on, and nothing else. -/
theorem shiftBackups_spec (i : Nat) (hfree : fs (nameOf filePath (i + 1)) = none) :
    (∀ k, 1 ≤ k → k ≤ i →
      shiftBackups filePath i fs (nameOf filePath (k + 1)) = fs (nameOf filePath k)) ∧
    shiftBackups filePath i fs (nameOf filePath 1) = none ∧
    ∀ name, (∀ k, 1 ≤ k → k ≤ i + 1 → name ≠ nameOf filePath k) →
      shiftBackups filePath i fs name = fs name := by
  induction i generalizing fs with
  | zero => exact ⟨fun k h1 h0 => by omega, hfree, fun _ _ => rfl⟩
  | succ i ih =>
    have hinj := nameOf_injective filePath
    simp only [shiftBackups, rename_backup hfree]
    generalize hturn : Function.update (Function.update fs (nameOf filePath (i + 1)) none)
      (nameOf filePath (i + 2)) (fs (nameOf filePath (i + 1))) = turned
    have hsrc : turned (nameOf filePath (i + 1)) = none := by
      rw [← hturn, Function.update_of_ne (hinj.ne (by omega)), Function.update_self]
    have hdst : turned (nameOf filePath (i + 2)) = fs (nameOf filePath (i + 1)) := by
      rw [← hturn, Function.update_self]
    have hrest : ∀ name, name ≠ nameOf filePath (i + 1) → name ≠ nameOf filePath (i + 2) →
        turned name = fs name := by
      intro name h1 h2
      rw [← hturn, Function.update_of_ne h2, Function.update_of_ne h1]
    obtain ⟨hmoved, hone, hframe⟩ := ih hsrc
    refine ⟨fun k h1 hk => ?_, hone, fun name hname => ?_⟩
    · rcases Nat.lt_or_ge i k with hlt | hle
      · obtain rfl : k = i + 1 := by omega
        rw [hframe _ fun j _ hj => hinj.ne (by omega), hdst]
      · rw [hmoved k h1 hle, hrest _ (hinj.ne (by omega)) (hinj.ne (by omega))]
    · rw [hframe name fun k h1 hk => hname k h1 (by omega)]
      exact hrest name (hname _ (by omega) (by omega)) (hname _ (by omega) (by omega))

end

/-! ## One call -/

/-- Every other file is left alone. -/
def Elsewhere (filePath : Str) (n : Nat) (fs fs' : Files) : Prop :=
  ∀ name, (∀ k ≤ n, name ≠ nameOf filePath k) → fs' name = fs name

/-- However it is opened, the file is there afterwards, and its size is known. -/
theorem openExistingOrNew_eq (l : Log) :
    openExistingOrNew l =
      ⟨{ l.writer with
          currentSize := ((l.files l.writer.filePath).getD []).length
          file := l.writer.filePath },
        Function.update l.files l.writer.filePath
          (some ((l.files l.writer.filePath).getD []))⟩ := by
  unfold openExistingOrNew stat
  cases hlog : l.files l.writer.filePath with
  | none => rfl
  | some contents =>
    have hself : Function.update l.files l.writer.filePath (some contents) = l.files :=
      Function.update_eq_self_iff.mpr hlog.symm
    simp [hself]

/-- The backups with the oldest removed and the others moved on. -/
def movedBackups (filePath : Str) (n : Nat) (fs : Files) : Files :=
  shiftBackups filePath (n - 1) (remove fs (backup filePath n))

theorem movedBackups_spec (filePath : Str) {n : Nat} (hn : 0 < n) (fs : Files) :
    movedBackups filePath n fs filePath = fs filePath ∧
    (∀ k, 1 ≤ k → k < n →
      movedBackups filePath n fs (nameOf filePath (k + 1)) = fs (nameOf filePath k)) ∧
    Elsewhere filePath n fs (movedBackups filePath n fs) := by
  obtain ⟨n, rfl⟩ : ∃ m, n = m + 1 := ⟨n - 1, by omega⟩
  have hinj := nameOf_injective filePath
  have hfree : remove fs (backup filePath (n + 1)) (nameOf filePath (n + 1)) = none :=
    Function.update_self ..
  have hkept : ∀ name, name ≠ nameOf filePath (n + 1) →
      remove fs (backup filePath (n + 1)) name = fs name := fun _ h => Function.update_of_ne h ..
  obtain ⟨hmoved, _, hframe⟩ := shiftBackups_spec n hfree
  refine ⟨?_, fun k h1 hk => ?_, fun name hname => ?_⟩
  · have hzero : ∀ k, 1 ≤ k → filePath ≠ nameOf filePath k :=
      fun k hk => hinj.ne (show 0 ≠ k by omega)
    exact (hframe filePath fun k h1 _ => hzero k h1).trans (hkept _ (hzero _ (by omega)))
  · exact (hmoved k h1 (by omega)).trans (hkept _ (hinj.ne (by omega)))
  · exact (hframe name fun k _ hk => hname k hk).trans (hkept _ (hname _ (Nat.le_refl _)))

theorem rotate_eq {l : Log} {contents : List UInt8}
    (hlog : l.files l.writer.filePath = some contents) :
    rotate l =
      ⟨{ l.writer with currentSize := 0, file := l.writer.filePath },
        Function.update (Function.update
            (movedBackups l.writer.filePath l.writer.maxBackups l.files)
            (nameOf l.writer.filePath 1) (some contents))
          l.writer.filePath (some [])⟩ := by
  obtain ⟨⟨filePath, maxSize, n, currentSize, file, hsize, hn⟩, fs⟩ := l
  have hne : filePath ≠ nameOf filePath 1 := (nameOf_injective filePath).ne Nat.zero_ne_one
  have hmoved : movedBackups filePath n fs filePath = some contents :=
    (movedBackups_spec filePath hn fs).1.trans hlog
  have hrename : rename (movedBackups filePath n fs) filePath (backup filePath 1) =
      Function.update (Function.update (movedBackups filePath n fs) filePath none)
        (nameOf filePath 1) (some contents) := by
    simp only [rename, hmoved]
    rfl
  have hgone : rename (movedBackups filePath n fs) filePath (backup filePath 1) filePath =
      none := by
    rw [hrename, Function.update_of_ne hne, Function.update_self]
  change openExistingOrNew ⟨_, rename (movedBackups filePath n fs) filePath _⟩ = _
  rw [openExistingOrNew_eq]
  simp only [hgone, hrename, Function.update_comm hne, Function.update_idem]
  rfl

theorem files_rotate {l : Log} {contents : List UInt8}
    (hlog : l.files l.writer.filePath = some contents) :
    (rotate l).files =
      Function.update (Function.update
          (movedBackups l.writer.filePath l.writer.maxBackups l.files)
          (nameOf l.writer.filePath 1) (some contents))
        (nameOf l.writer.filePath 0) (some []) := by
  rw [rotate_eq hlog]
  rfl

/-- A rotation makes every generation one older, the oldest is gone, and the new file is empty. -/
theorem gens_rotate {l : Log} {contents : List UInt8}
    (hlog : l.files l.writer.filePath = some contents) {k : Nat} (hk : k ≤ l.writer.maxBackups) :
    gens l.writer.filePath (rotate l).files k = shift (gens l.writer.filePath l.files) k := by
  have hinj := nameOf_injective l.writer.filePath
  rw [gens, files_rotate hlog]
  match k with
  | 0 => exact Function.update_self ..
  | 1 =>
    rw [Function.update_of_ne (hinj.ne Nat.one_ne_zero), Function.update_self]
    exact hlog.symm
  | k + 2 =>
    rw [Function.update_of_ne (hinj.ne (Nat.succ_ne_zero _)),
      Function.update_of_ne (hinj.ne (by omega))]
    exact (movedBackups_spec _ l.writer.maxBackups_pos l.files).2.1 (k + 1) (by omega) hk

theorem elsewhere_rotate {l : Log} {contents : List UInt8}
    (hlog : l.files l.writer.filePath = some contents) :
    Elsewhere l.writer.filePath l.writer.maxBackups l.files (rotate l).files := by
  intro name hname
  rw [files_rotate hlog, Function.update_of_ne (hname 0 (Nat.zero_le _)),
    Function.update_of_ne (hname 1 l.writer.maxBackups_pos)]
  exact (movedBackups_spec _ l.writer.maxBackups_pos l.files).2.2 name hname

/-! ## Every run -/

/-- How a writer was started. -/
structure Start where
  filePath : Str
  maxSize : Nat
  maxBackups : Nat
  files : Files

def longest (recs : List (List UInt8)) : Nat := (recs.map List.length).foldr max 0

theorem longest_append (recs : List (List UInt8)) (p : List UInt8) :
    longest (recs ++ [p]) = max (longest recs) p.length := by
  unfold longest
  induction recs with
  | nil => simp
  | cons q recs ih =>
    rw [List.cons_append, List.map_cons, List.foldr_cons, ih, List.map_cons, List.foldr_cons,
      Nat.max_assoc]

/-- No file that the writer has written to gets longer than this. -/
def Start.limit (s : Start) (recs : List (List UInt8)) : Nat :=
  max s.maxSize (max (longest recs) ((s.files s.filePath).getD []).length)

theorem Start.limit_append (s : Start) (recs : List (List UInt8)) (p : List UInt8) :
    s.limit (recs ++ [p]) = max (s.limit recs) p.length := by
  rw [limit, limit, longest_append]
  omega

/-- The writer still has its path and limits, and no other file is open. -/
structure Start.Keeps (s : Start) (w : RotatingWriter) : Prop where
  path : w.filePath = s.filePath
  size : w.maxSize = s.maxSize
  backups : w.maxBackups = s.maxBackups
  opened : ∀ name ∈ w.file, name = s.filePath

/-- A writer that has opened the file, with any size. -/
theorem Start.Keeps.open {s : Start} {w : RotatingWriter} (h : s.Keeps w) (size : Nat) :
    s.Keeps { w with currentSize := size, file := w.filePath } where
  path := h.path
  size := h.size
  backups := h.backups
  opened := by
    rintro name ⟨⟩
    exact h.path

/-- The files show the youngest generations of a log that holds everything: what was there, and
then the records, in groups. -/
structure Shows (s : Start) (recs : List (List UInt8)) (groups : List (List (List UInt8)))
    (g : Gens UInt8) (l : Log) : Prop where
  keeps : s.Keeps l.writer
  current : ∃ contents, g 0 = some contents ∧ l.writer.currentSize = contents.length
  shown : ∀ k ≤ s.maxBackups, gens s.filePath l.files k = g k
  elsewhere : Elsewhere s.filePath s.maxBackups s.files l.files
  grouped : Grouped (gens s.filePath s.files) groups g
  nonempty : groups ≠ []
  records : groups.reverse.flatten = recs
  whole : joined g (s.maxBackups + (groups.length - 1)) =
    joined (gens s.filePath s.files) s.maxBackups ++ recs.flatten
  bounded : ∀ k < groups.length, ∀ contents ∈ g k, contents.length ≤ s.limit recs

section

variable {s : Start} {recs : List (List UInt8)} {groups : List (List (List UInt8))}
  {g : Gens UInt8} {l : Log}

theorem Shows.log (h : Shows s recs groups g l) :
    ∃ contents, l.files l.writer.filePath = some contents ∧ g 0 = some contents ∧
      l.writer.currentSize = contents.length := by
  obtain ⟨contents, hg, hsize⟩ := h.current
  refine ⟨contents, ?_, hg, hsize⟩
  rw [h.keeps.path, ← hg]
  exact h.shown 0 (Nat.zero_le _)

theorem Shows.currentSize (h : Shows s recs groups g l) :
    l.writer.currentSize = ((g 0).getD []).length := by
  obtain ⟨contents, hg, hsize⟩ := h.current
  rw [hg, hsize, Option.getD_some]

theorem Shows.rotate (h : Shows s recs groups g l) :
    Shows s recs ([] :: groups) (shift g) (rotate l) := by
  obtain ⟨contents, hlog, _⟩ := h.log
  have hwriter : (rotating.rotate l).writer =
      { l.writer with currentSize := 0, file := l.writer.filePath } := by rw [rotate_eq hlog]
  have hlen : 0 < groups.length := List.length_pos_of_ne_nil h.nonempty
  refine ⟨?_, ?_, fun k hk => ?_, fun name hname => ?_, h.grouped.shift h.nonempty, nofun, ?_, ?_,
    ?_⟩
  · rw [hwriter]
    exact h.keeps.open 0
  · rw [hwriter]
    exact ⟨[], rfl, rfl⟩
  · have hmoved := gens_rotate hlog (k := k) (by rw [h.keeps.backups]; exact hk)
    rw [h.keeps.path] at hmoved
    rw [hmoved]
    cases k with
    | zero => rfl
    | succ k => exact h.shown k (by omega)
  · have hmoved := elsewhere_rotate hlog
    rw [h.keeps.path, h.keeps.backups] at hmoved
    exact (hmoved name hname).trans (h.elsewhere name hname)
  · simpa using h.records
  · have hadd : s.maxBackups + (([] :: groups).length - 1) =
        s.maxBackups + (groups.length - 1) + 1 := by
      rw [List.length_cons]
      omega
    rw [hadd, joined_shift]
    exact h.whole
  · intro k hk contents hc
    cases k with
    | zero =>
      obtain rfl := Option.some.inj hc
      exact Nat.zero_le _
    | succ k => exact h.bounded k (by simpa using hk) contents hc

theorem Shows.close (h : Shows s recs groups g l) : Shows s recs groups g (close l) :=
  { h with keeps := { h.keeps with opened := nofun } }

theorem Shows.reopen (h : Shows s recs groups g l) :
    Shows s recs groups g (openExistingOrNew l) := by
  obtain ⟨contents, hlog, hg, hsize⟩ := h.log
  rw [openExistingOrNew_eq, hlog, Option.getD_some, Function.update_eq_self_iff.mpr hlog.symm]
  exact { h with keeps := h.keeps.open _, current := ⟨contents, hg, rfl⟩ }

/-- The record is added to the open file, which does not get too long by it. -/
theorem Shows.append {group : List (List UInt8)} {older : List (List (List UInt8))}
    (h : Shows s recs (group :: older) g l) {p : List UInt8}
    (hfits : ((g 0).getD []).length + p.length ≤ s.maxSize ∨ ((g 0).getD []).length = 0) :
    Shows s (recs ++ [p]) ((group ++ [p]) :: older) (push g p)
      ⟨{ l.writer with currentSize := l.writer.currentSize + p.length },
        Function.update l.files s.filePath (some ((l.files s.filePath).getD [] ++ p))⟩ := by
  obtain ⟨contents, hlog, hg, hsize⟩ := h.log
  rw [h.keeps.path] at hlog
  rw [hg, Option.getD_some] at hfits
  have hpush : push g p 0 = some (contents ++ p) := by simp [push, hg]
  refine ⟨{ h.keeps with }, ⟨_, hpush, by simp [hsize]⟩, fun k hk => ?_, fun name hname => ?_,
    h.grouped.push p, List.cons_ne_nil _ _, ?_, ?_, fun k hk c hc => ?_⟩
  · cases k with
    | zero =>
      rw [hpush, ← Option.getD_some (a := contents) (b := []), ← hlog]
      exact Function.update_self ..
    | succ k =>
      have hne := (nameOf_injective s.filePath).ne (Nat.succ_ne_zero k)
      rw [gens, push, Function.update_of_ne (Nat.succ_ne_zero k)]
      exact (Function.update_of_ne hne ..).trans (h.shown (k + 1) hk)
  · exact (Function.update_of_ne (hname 0 (Nat.zero_le _)) ..).trans (h.elsewhere name hname)
  · simp [← h.records]
  · rw [joined_push, List.flatten_append, List.flatten_singleton, ← List.append_assoc]
    exact congrArg (· ++ p) h.whole
  · rw [s.limit_append]
    cases k with
    | zero =>
      obtain rfl := Option.some.inj (hpush.symm.trans hc)
      have hmax : s.maxSize ≤ s.limit recs := Nat.le_max_left ..
      rw [List.length_append]
      omega
    | succ k =>
      rw [push, Function.update_of_ne (Nat.succ_ne_zero k)] at hc
      have hold := h.bounded (k + 1) hk c hc
      omega

theorem Shows.write (h : Shows s recs groups g l) (p : List UInt8) :
    ∃ groups g, Shows s (recs ++ [p]) groups g (write l p).1 := by
  obtain ⟨groups, g, hrotated, hfits⟩ : ∃ groups g, Shows s recs groups g
      (if l.writer.currentSize + p.length > l.writer.maxSize && l.writer.currentSize > 0 then
        rotating.rotate l else l) ∧
      (((g 0).getD []).length + p.length ≤ s.maxSize ∨ ((g 0).getD []).length = 0) := by
    split
    · exact ⟨_, _, h.rotate, .inr rfl⟩
    · rename_i hstays
      refine ⟨_, _, h, ?_⟩
      rw [← h.currentSize, ← h.keeps.size]
      simp only [Bool.and_eq_true, decide_eq_true_eq] at hstays
      omega
  simp only [rotating.write]
  generalize (if l.writer.currentSize + p.length > l.writer.maxSize && l.writer.currentSize > 0
    then rotating.rotate l else l) = rotated at hrotated ⊢
  have hopened : Shows s recs groups g
      (if rotated.writer.file.isNone then openExistingOrNew rotated else rotated) := by
    split
    · exact hrotated.reopen
    · exact hrotated
  generalize (if rotated.writer.file.isNone then openExistingOrNew rotated else rotated) = opened
    at hopened ⊢
  have hname : opened.writer.file.getD opened.writer.filePath = s.filePath := by
    cases hfile : opened.writer.file with
    | none => exact hopened.keeps.path
    | some name => exact hopened.keeps.opened name hfile
  rw [hname]
  cases groups with
  | nil => exact absurd rfl hopened.nonempty
  | cons group older => exact ⟨_, _, hopened.append hfits⟩

theorem shows_start (filePath : Str) {maxSize maxBackups : Int} (hsize : 1 ≤ maxSize)
    (hbackups : 1 ≤ maxBackups) (files : Files) :
    Shows ⟨filePath, maxSize.toNat, maxBackups.toNat, files⟩ [] [[]]
      (push (gens filePath files) []) (newRotatingWriter filePath maxSize maxBackups files) := by
  have hopen : push (gens filePath files) [] 0 = some ((files filePath).getD []) := by
    simp [push, gens, nameOf]
  rw [newRotatingWriter, openExistingOrNew_eq]
  refine ⟨⟨rfl, if_neg (by omega), if_neg (by omega), ?_⟩, ⟨_, hopen, rfl⟩, fun k hk => ?_,
    fun name hname => ?_, grouped_start _, List.cons_ne_nil _ _, rfl, ?_, fun k hk c hc => ?_⟩
  · rintro name ⟨⟩
    rfl
  · cases k with
    | zero => exact (Function.update_self ..).trans hopen.symm
    | succ k =>
      have hne := (nameOf_injective filePath).ne (Nat.succ_ne_zero k)
      rw [push, Function.update_of_ne (Nat.succ_ne_zero k)]
      exact Function.update_of_ne hne ..
  · exact Function.update_of_ne (hname 0 (Nat.zero_le _)) ..
  · exact joined_push ..
  · obtain rfl : k = 0 := by simpa using hk
    obtain rfl := Option.some.inj (hopen.symm.trans hc)
    exact Nat.le_trans (Nat.le_max_right ..) (Nat.le_max_right ..)

theorem shows_step (h : Shows s recs groups g l) (c : Call) :
    ∃ groups g, Shows s (recs ++ records [c]) groups g (step l c) := by
  cases c with
  | write p => exact h.write p
  | close =>
    refine ⟨groups, g, ?_⟩
    rw [records, List.filterMap_cons, List.filterMap_nil, List.append_nil]
    exact h.close

theorem shows_run (filePath : Str) {maxSize maxBackups : Int} (hsize : 1 ≤ maxSize)
    (hbackups : 1 ≤ maxBackups) (files : Files) (calls : List Call) :
    ∃ groups g, Shows ⟨filePath, maxSize.toNat, maxBackups.toNat, files⟩ (records calls) groups g
      (runs.run step (newRotatingWriter filePath maxSize maxBackups files) calls) := by
  apply runs.run_history fun calls l => ∃ groups g,
    Shows ⟨filePath, maxSize.toNat, maxBackups.toNat, files⟩ (records calls) groups g l
  · rintro calls l c ⟨groups, g, h⟩
    have hstep := shows_step h c
    rwa [records, records, ← List.filterMap_append] at hstep
  · exact ⟨_, _, shows_start filePath hsize hbackups files⟩

/-! ## What the files hold -/

/-- What can be said of the files after some calls. -/
structure KeepsSuffix (s : Start) (recs : List (List UInt8)) (l : Log) : Prop where
  /-- The files together are the end of what was there and what was written. -/
  suffix : joined (gens s.filePath l.files) s.maxBackups <:+
    joined (gens s.filePath s.files) s.maxBackups ++ recs.flatten
  /-- The records come in groups, each whole in one file, which is not too long. Only the first
  group follows something that was there before. The older files are as they were. -/
  grouped : ∃ groups : List (List (List UInt8)), groups.reverse.flatten = recs ∧
    ∀ k ≤ s.maxBackups,
      (∀ group, groups[k]? = some group → ∃ contents,
        gens s.filePath l.files k = some contents ∧ contents.length ≤ s.limit recs ∧
        contents = (if k + 1 = groups.length then (s.files s.filePath).getD [] else []) ++
          group.flatten) ∧
      (groups.length ≤ k →
        gens s.filePath l.files k = gens s.filePath s.files (k + 1 - groups.length))
  /-- No other file changes, and so there is never another backup. -/
  elsewhere : Elsewhere s.filePath s.maxBackups s.files l.files
  currentSize : stat l.files s.filePath = some l.writer.currentSize

theorem Shows.keepsSuffix (h : Shows s recs groups g l) : KeepsSuffix s recs l where
  suffix := by
    rw [← h.whole, joined_congr h.shown]
    exact joined_suffix ..
  grouped := by
    refine ⟨groups, h.records, fun k hk => ⟨fun group hgroup => ?_, fun hlen => ?_⟩⟩
    · obtain ⟨hlt, _⟩ := List.getElem?_eq_some_iff.mp hgroup
      have hyoung := h.grouped.young k group hgroup
      exact ⟨_, (h.shown k hk).trans hyoung, h.bounded k hlt _ hyoung, rfl⟩
    · rw [h.shown k hk, h.grouped.old k hlen]
  elsewhere := h.elsewhere
  currentSize := by
    obtain ⟨contents, hlog, _, hsize⟩ := h.log
    rw [h.keeps.path] at hlog
    rw [stat, hlog, hsize]
    rfl

end

/-- Whatever is written and closed, the files hold the end of the history, cut between records,
and the size counter is right. -/
theorem rotation_keeps_a_suffix (filePath : Str) (maxSize maxBackups : Int) (hsize : 1 ≤ maxSize)
    (hbackups : 1 ≤ maxBackups) (files : Files) (calls : List Call) :
    KeepsSuffix ⟨filePath, maxSize.toNat, maxBackups.toNat, files⟩ (records calls)
      (runs.run step (newRotatingWriter filePath maxSize maxBackups files) calls) := by
  obtain ⟨groups, g, h⟩ := shows_run filePath hsize hbackups files calls
  exact h.keepsSuffix

/-- With one backup, the third record that needs a file for itself drops the first. -/
theorem third_record_drops_the_first :
    let l := runs.run step (newRotatingWriter "log" 4 1 fun _ => none)
      [.write [1, 2, 3], .write [4, 5, 6], .close, .write [7, 8, 9]]
    joined (gens "log" l.files) 1 = [4, 5, 6, 7, 8, 9] ∧
      KeepsSuffix ⟨"log", 4, 1, fun _ => none⟩ [[1, 2, 3], [4, 5, 6], [7, 8, 9]] l :=
  ⟨by decide, rotation_keeps_a_suffix "log" 4 1 (by decide) (by decide) (fun _ => none)
    [.write [1, 2, 3], .write [4, 5, 6], .close, .write [7, 8, 9]]⟩

end vproxy.rotating
