-- One write of the rotating log where any call to the file system may fail. A failed rotation
-- can lose data: a rename goes over a backup that could not be moved away, the oldest backup is
-- removed for nothing, and a log whose Stat fails is truncated.
import Vproxy.RotatingWriter

open go generations

namespace vproxy.rotating

/-! ## Calls that may fail -/

/-- Whether the Stat and the OpenFile of one `openExistingOrNew` go through. -/
structure Opening where
  stat : Bool
  openFile : Bool

/-- Whether each call of one write goes through. A call that does not leaves the files alone.
The log itself is number 0: `rename 0` is its rename to the first backup. -/
structure Outcomes where
  remove : Bool
  stat : Nat → Bool
  rename : Nat → Bool
  opening : Opening
  reopening : Opening

def Outcomes.allGood : Outcomes := ⟨true, fun _ => true, fun _ => true, ⟨true, true⟩, ⟨true, true⟩⟩

def stat.under (ok : Bool) (fs : Files) (name : Str) : Option Nat :=
  if ok then stat fs name else none

def remove.under (ok : Bool) (fs : Files) (name : Str) : Files :=
  if ok then remove fs name else fs

def rename.under (ok : Bool) (fs : Files) (src dst : Str) : Files :=
  if ok then rename fs src dst else fs

/-- Also gives whether the file is open. The size is set before the file is opened. -/
def openExistingOrNew.under (o : Opening) (l : Log) : Log × Bool :=
  match stat.under o.stat l.files l.writer.filePath with
  | some size =>
    if o.openFile then
      (⟨{ l.writer with currentSize := size, file := l.writer.filePath }, l.files⟩, true)
    else (⟨{ l.writer with currentSize := size }, l.files⟩, false)
  | none =>
    if o.openFile then
      (⟨{ l.writer with currentSize := 0, file := l.writer.filePath },
        Function.update l.files l.writer.filePath (some [])⟩, true)
    else (l, false)

def shiftBackups.under (o : Outcomes) (filePath : Str) : Nat → Files → Files
  | 0, fs => fs
  | i + 1, fs =>
    let src := backup filePath (i + 1)
    let dst := backup filePath (i + 2)
    shiftBackups.under o filePath i
      (if (stat.under (o.stat (i + 1)) fs src).isSome then
        rename.under (o.rename (i + 1)) fs src dst else fs)

def rotate.under (o : Outcomes) (l : Log) : Log × Bool :=
  let w := { l.writer with file := none }
  let fs := remove.under o.remove l.files (backup w.filePath w.maxBackups)
  let fs := shiftBackups.under o w.filePath (w.maxBackups - 1) fs
  openExistingOrNew.under o.opening
    ⟨w, rename.under (o.rename 0) fs w.filePath (backup w.filePath 1)⟩

/-- Whether the write rotates first. -/
def rotates (w : RotatingWriter) (p : List UInt8) : Bool :=
  w.currentSize + p.length > w.maxSize && w.currentSize > 0

/-- The state with the file open, if it could be opened. What `rotate` returns is only printed. -/
def write.opened (o : Outcomes) (l : Log) (p : List UInt8) : Log × Bool :=
  let l := if rotates l.writer p then (rotate.under o l).1 else l
  if l.writer.file.isNone then openExistingOrNew.under o.reopening l else (l, true)

/-- Gives the number of bytes written, or nothing where the file cannot be opened. -/
def write.under (o : Outcomes) (l : Log) (p : List UInt8) : Log × Option Nat :=
  match write.opened o l p with
  | (l, false) => (l, none)
  | (l, true) =>
    let name := l.writer.file.getD l.writer.filePath
    (⟨{ l.writer with currentSize := l.writer.currentSize + p.length },
      Function.update l.files name (some ((l.files name).getD [] ++ p))⟩, some p.length)

/-! ## Where every call goes through -/

theorem openExistingOrNew_allGood (l : Log) :
    openExistingOrNew.under ⟨true, true⟩ l = (openExistingOrNew l, true) := by
  simp only [openExistingOrNew.under, openExistingOrNew, stat.under, if_true]
  cases stat l.files l.writer.filePath with
  | none => rfl
  | some size => rfl

theorem shiftBackups_allGood (filePath : Str) (i : Nat) (fs : Files) :
    shiftBackups.under .allGood filePath i fs = shiftBackups filePath i fs := by
  induction i generalizing fs with
  | zero => rfl
  | succ i ih => exact ih _

theorem rotate_allGood (l : Log) : rotate.under .allGood l = (rotate l, true) := by
  simp only [rotate.under, shiftBackups_allGood]
  exact openExistingOrNew_allGood _

/-- The write of the other module is the one where every call goes through. -/
theorem write_allGood (l : Log) (p : List UInt8) :
    write.under .allGood l p = ((write l p).1, some (write l p).2) := by
  have hopened : write.opened .allGood l p =
      (let l := if rotates l.writer p then rotate l else l
        if l.writer.file.isNone then openExistingOrNew l else l, true) := by
    simp only [write.opened, rotate_allGood]
    generalize (if rotates l.writer p then rotate l else l) = rotated
    split
    · exact openExistingOrNew_allGood rotated
    · rfl
  rw [write.under, hopened]
  rfl

/-! ## The files after a rotation -/

section

variable {filePath : Str} {fs : Files}

/-- The file of this number can be moved on. -/
def Outcomes.moves (o : Outcomes) (g : Gens UInt8) (k : Nat) : Bool :=
  (k == 0 || o.stat k) && o.rename k && (g k).isSome

/-- The names that are no generation of the log. -/
def Other (filePath : Str) (name : Str) : Prop := ∀ k, name ≠ nameOf filePath k

theorem backup_maxBackups (w : RotatingWriter) :
    backup w.filePath w.maxBackups = nameOf w.filePath w.maxBackups := by
  obtain ⟨n, hn⟩ : ∃ n, w.maxBackups = n + 1 :=
    ⟨w.maxBackups - 1, by have := w.maxBackups_pos; omega⟩
  rw [hn, nameOf]

theorem gens_update (k : Nat) (contents : Option (List UInt8)) :
    gens filePath (Function.update fs (nameOf filePath k) contents) =
      Function.update (gens filePath fs) k contents := by
  funext j
  by_cases hj : j = k
  · subst hj
    simp [gens]
  · rw [Function.update_of_ne hj]
    exact Function.update_of_ne ((nameOf_injective filePath).ne hj) ..

theorem update_other {name : Str} (h : Other filePath name) (k : Nat)
    (contents : Option (List UInt8)) :
    Function.update fs (nameOf filePath k) contents name = fs name :=
  Function.update_of_ne (h k) ..

theorem gens_rename (k : Nat) (ok : Bool) :
    gens filePath (rename.under ok fs (nameOf filePath k) (nameOf filePath (k + 1))) =
      if ok && (gens filePath fs k).isSome then moveOn (gens filePath fs) k
      else gens filePath fs := by
  cases ok with
  | false => rfl
  | true =>
    simp only [rename.under, if_true, rename, Bool.true_and]
    cases hsrc : fs (nameOf filePath k) with
    | none => simp [gens, hsrc]
    | some contents => simp [gens_update, moveOn, gens, hsrc]

theorem rename_other {name : Str} (h : Other filePath name) (k : Nat) (ok : Bool) :
    rename.under ok fs (nameOf filePath k) (nameOf filePath (k + 1)) name = fs name := by
  cases ok with
  | false => rfl
  | true =>
    simp only [rename.under, if_true, rename]
    cases fs (nameOf filePath k) with
    | none => rfl
    | some contents => exact (update_other h (k + 1) _).trans (update_other h k _)

/-- One turn of the loop. -/
def turn (o : Outcomes) (filePath : Str) (k : Nat) (fs : Files) : Files :=
  if (stat.under (o.stat k) fs (nameOf filePath k)).isSome then
    rename.under (o.rename k) fs (nameOf filePath k) (nameOf filePath (k + 1))
  else fs

theorem gens_turn (o : Outcomes) (i : Nat) :
    gens filePath (turn o filePath (i + 1) fs) =
      if o.moves (gens filePath fs) (i + 1) then moveOn (gens filePath fs) (i + 1)
      else gens filePath fs := by
  have hstat : (stat.under (o.stat (i + 1)) fs (nameOf filePath (i + 1))).isSome =
      (o.stat (i + 1) && (gens filePath fs (i + 1)).isSome) := by
    cases ho : o.stat (i + 1) <;> simp [stat.under, stat, gens]
  have hmoves : o.moves (gens filePath fs) (i + 1) =
      (o.stat (i + 1) && (o.rename (i + 1) && (gens filePath fs (i + 1)).isSome)) := by
    simp [Outcomes.moves, Bool.and_assoc]
  rw [turn, hstat, hmoves]
  by_cases hthere : (o.stat (i + 1) && (gens filePath fs (i + 1)).isSome) = true
  · rw [if_pos hthere, gens_rename, (Bool.and_eq_true_iff.mp hthere).1, Bool.true_and]
  · rw [if_neg hthere, if_neg]
    grind

theorem turn_other {name : Str} (h : Other filePath name) (o : Outcomes) (k : Nat) :
    turn o filePath k fs name = fs name := by
  rw [turn]
  split
  · exact rename_other h k _
  · rfl

/-- The loop, and the rename of the log as its last turn. -/
def shifted (o : Outcomes) (filePath : Str) (i : Nat) (fs : Files) : Files :=
  rename.under (o.rename 0) (shiftBackups.under o filePath i fs) (nameOf filePath 0)
    (nameOf filePath 1)

theorem shifted_succ (o : Outcomes) (i : Nat) :
    shifted o filePath (i + 1) fs = shifted o filePath i (turn o filePath (i + 1) fs) := rfl

theorem moves_turn (o : Outcomes) (i : Nat) :
    below (i + 1) (o.moves (gens filePath (turn o filePath (i + 1) fs))) =
      below (i + 1) (o.moves (gens filePath fs)) := by
  funext k
  by_cases hk : k < i + 1
  · have hsame : gens filePath (turn o filePath (i + 1) fs) k = gens filePath fs k := by
      rw [gens_turn]
      split
      · rw [moveOn, Function.update_of_ne (by omega), Function.update_of_ne (by omega)]
      · rfl
    simp [below, Outcomes.moves, hsame]
  · simp [below, hk]

/-- Each file that can be moved is moved one place on, the oldest first. -/
theorem gens_shifted (o : Outcomes) (i : Nat) :
    gens filePath (shifted o filePath i fs) =
      moved (below (i + 1) (o.moves (gens filePath fs))) (gens filePath fs) := by
  induction i generalizing fs with
  | zero =>
    rw [← moved_moveOn, moved_none _ (by simp [below])]
    simp only [shifted, shiftBackups.under, gens_rename, Outcomes.moves, beq_self_eq_true,
      Bool.true_or, Bool.true_and]
  | succ i ih => rw [shifted_succ, ih, moves_turn, gens_turn, moved_moveOn]

theorem shifted_other {name : Str} (h : Other filePath name) (o : Outcomes) (i : Nat) :
    shifted o filePath i fs name = fs name := by
  induction i generalizing fs with
  | zero => exact rename_other h 0 _
  | succ i ih => rw [shifted_succ, ih, turn_other h]

end

/-! ## The files after the write -/

/-- A file that is opened without a Stat before it is empty afterwards. -/
def Opening.empties (o : Opening) (there : Bool) : Bool := o.openFile && !(o.stat && there)

theorem files_openExistingOrNew (o : Opening) (l : Log) :
    (openExistingOrNew.under o l).1.files =
      if o.empties (l.files l.writer.filePath).isSome then
        Function.update l.files l.writer.filePath (some [])
      else l.files := by
  unfold openExistingOrNew.under stat.under stat Opening.empties
  cases o.stat <;> cases o.openFile <;> cases l.files l.writer.filePath <;> rfl

theorem file_openExistingOrNew (o : Opening) (l : Log) :
    (openExistingOrNew.under o l).1.writer.file =
      if o.openFile then some l.writer.filePath else l.writer.file := by
  unfold openExistingOrNew.under stat.under stat
  cases o.stat <;> cases o.openFile <;> cases l.files l.writer.filePath <;> rfl

theorem filePath_openExistingOrNew (o : Opening) (l : Log) :
    (openExistingOrNew.under o l).1.writer.filePath = l.writer.filePath := by
  unfold openExistingOrNew.under stat.under stat
  cases o.stat <;> cases o.openFile <;> cases l.files l.writer.filePath <;> rfl

section

variable (o : Outcomes) (l : Log) (p : List UInt8)

/-- The write removes the oldest backup, if it is there. -/
def removes : Bool := rotates l.writer p && o.remove

/-- The write moves the file of this number one place on. -/
def moves (k : Nat) : Bool :=
  rotates l.writer p &&
    below l.writer.maxBackups (o.moves (gens l.writer.filePath l.files)) k

/-- The call that opens the file, or fails to: the second one only where the first failed. -/
def lastOpening : Option Opening :=
  if rotates l.writer p then some (if o.opening.openFile then o.opening else o.reopening)
  else if l.writer.file.isNone then some o.reopening
  else none

/-- A log that is still there is opened without its Stat, and so cut to nothing. -/
def truncates : Bool := (lastOpening o l p).any (·.empties true)

/-- The files after the renames, before the log is opened. -/
def write.renamed : Files :=
  if rotates l.writer p then
    shifted o l.writer.filePath (l.writer.maxBackups - 1)
      (remove.under o.remove l.files (backup l.writer.filePath l.writer.maxBackups))
  else l.files

theorem rotate_eq_opening :
    rotate.under o l = openExistingOrNew.under o.opening ⟨{ l.writer with file := none },
      shifted o l.writer.filePath (l.writer.maxBackups - 1)
        (remove.under o.remove l.files (backup l.writer.filePath l.writer.maxBackups))⟩ := rfl

theorem files_opened :
    (write.opened o l p).1.files =
      if (lastOpening o l p).any (·.empties (write.renamed o l p l.writer.filePath).isSome) then
        Function.update (write.renamed o l p) l.writer.filePath (some [])
      else write.renamed o l p := by
  unfold write.opened lastOpening write.renamed
  cases rotates l.writer p with
  | false =>
    cases hfile : l.writer.file with
    | none => simp [hfile, files_openExistingOrNew]
    | some name => simp [hfile]
  | true =>
    cases hopen : o.opening.openFile with
    | true =>
      simp [rotate_eq_opening, file_openExistingOrNew, files_openExistingOrNew, hopen]
    | false =>
      simp [rotate_eq_opening, file_openExistingOrNew, files_openExistingOrNew,
        filePath_openExistingOrNew, hopen, Opening.empties]

theorem gens_renamed :
    gens l.writer.filePath (write.renamed o l p) =
      moved (moves o l p)
        (if removes o l p then
          Function.update (gens l.writer.filePath l.files) l.writer.maxBackups none
        else gens l.writer.filePath l.files) := by
  obtain ⟨⟨filePath, maxSize, n, currentSize, file, hsize, hn⟩, fs⟩ := l
  obtain ⟨n, rfl⟩ : ∃ m, n = m + 1 := ⟨n - 1, by omega⟩
  unfold write.renamed removes
  cases hrotates : rotates ⟨filePath, maxSize, n + 1, currentSize, file, hsize, hn⟩ p with
  | false =>
    rw [moved_none _ fun k => by simp [moves, hrotates]]
    rfl
  | true =>
    have hremoved : gens filePath (remove.under o.remove fs (backup filePath (n + 1))) =
        if o.remove then Function.update (gens filePath fs) (n + 1) none
        else gens filePath fs := by
      cases o.remove with
      | false => rfl
      | true => exact gens_update (n + 1) none
    have hmoves : moves o ⟨⟨filePath, maxSize, n + 1, currentSize, file, hsize, hn⟩, fs⟩ p =
        below (n + 1) (o.moves
          (if o.remove then Function.update (gens filePath fs) (n + 1) none
          else gens filePath fs)) := by
      funext k
      by_cases hk : k < n + 1
      · cases o.remove <;>
          simp [moves, hrotates, below, hk, Outcomes.moves, Function.update_of_ne hk.ne]
      · simp [moves, hrotates, below, hk]
    rw [hmoves]
    simp only [if_true, Bool.true_and, Nat.add_sub_cancel, gens_shifted, hremoved]

theorem renamed_other {name : Str} (h : Other l.writer.filePath name) :
    write.renamed o l p name = l.files name := by
  unfold write.renamed
  split
  · rw [shifted_other h]
    cases o.remove with
    | false => rfl
    | true =>
      rw [backup_maxBackups]
      exact update_other h l.writer.maxBackups none
  · rfl

theorem opened_other {name : Str} (h : Other l.writer.filePath name) :
    (write.opened o l p).1.files name = l.files name := by
  rw [files_opened]
  split
  · exact (update_other h 0 _).trans (renamed_other o l p h)
  · exact renamed_other o l p h

/-! ## What survives -/

/-- The file of this number is still there after the write, maybe at the next number. -/
structure Survives (k : Nat) : Prop where
  stays : k = l.writer.maxBackups → removes o l p = false
  placed : ∃ j, place (moves o l p) k = some j ∧ (j = 0 → truncates o l p = false)

variable {o l p}

theorem there_of_removed {k : Nat} {contents : List UInt8} :
    (if removes o l p then
        Function.update (gens l.writer.filePath l.files) l.writer.maxBackups none
      else gens l.writer.filePath l.files) k = some contents ↔
      gens l.writer.filePath l.files k = some contents ∧
        (k = l.writer.maxBackups → removes o l p = false) := by
  cases removes o l p with
  | false => simp
  | true =>
    by_cases hk : k = l.writer.maxBackups
    · simp [hk]
    · simp [hk]

/-- What survives is found after the write. -/
theorem Survives.kept {k : Nat} {contents : List UInt8} (h : Survives o l p k)
    (hk : gens l.writer.filePath l.files k = some contents) :
    ∃ j, gens l.writer.filePath (write.opened o l p).1.files j = some contents := by
  obtain ⟨j, hplace, hcut⟩ := h.placed
  have hmoved : gens l.writer.filePath (write.renamed o l p) j = some contents := by
    rw [gens_renamed]
    exact moved_eq_some_iff.mpr ⟨k, there_of_removed.mpr ⟨hk, h.stays⟩, hplace⟩
  refine ⟨j, ?_⟩
  rw [files_opened]
  split
  · rename_i hempties
    cases j with
    | zero =>
      have hlog : write.renamed o l p l.writer.filePath = some contents := hmoved
      rw [hlog] at hempties
      exact absurd hempties (Bool.eq_false_iff.mp (hcut rfl))
    | succ j =>
      change gens l.writer.filePath (Function.update _ (nameOf l.writer.filePath 0) _) _ = _
      rw [gens_update, Function.update_of_ne (Nat.succ_ne_zero j)]
      exact hmoved
  · exact hmoved

/-- What is found after the write is empty, or has survived it. -/
theorem survives_of_found {j : Nat} {contents : List UInt8}
    (h : gens l.writer.filePath (write.opened o l p).1.files j = some contents) :
    contents = [] ∨ ∃ k, gens l.writer.filePath l.files k = some contents ∧ Survives o l p k := by
  have hmoved : ∀ hcut : j = 0 → truncates o l p = false,
      gens l.writer.filePath (write.renamed o l p) j = some contents →
      ∃ k, gens l.writer.filePath l.files k = some contents ∧ Survives o l p k := by
    intro hcut hj
    rw [gens_renamed] at hj
    obtain ⟨k, hk, hplace⟩ := moved_eq_some_iff.mp hj
    obtain ⟨hthere, hstays⟩ := there_of_removed.mp hk
    exact ⟨k, hthere, hstays, j, hplace, hcut⟩
  rw [files_opened] at h
  split at h
  · change gens l.writer.filePath (Function.update _ (nameOf l.writer.filePath 0) _) _ = _ at h
    rw [gens_update] at h
    cases j with
    | zero =>
      rw [Function.update_self] at h
      exact .inl (Option.some.inj h).symm
    | succ j =>
      rw [Function.update_of_ne (Nat.succ_ne_zero j)] at h
      exact .inr (hmoved (fun hj => nomatch hj) h)
  · rename_i hempties
    refine .inr (hmoved (fun hj => ?_) h)
    subst hj
    have hlog : write.renamed o l p l.writer.filePath = some contents := h
    rw [hlog] at hempties
    exact Bool.eq_false_iff.mpr hempties

/-- The record is added to one file, and the others are left alone. -/
theorem write_keeps {name : Str} {contents : List UInt8}
    (h : (write.opened o l p).1.files name = some contents) :
    ∃ contents', (write.under o l p).1.files name = some contents' ∧ contents <+: contents' := by
  unfold write.under
  split
  · rename_i opened hopened
    rw [hopened] at h
    exact ⟨contents, h, List.prefix_rfl⟩
  · rename_i opened hopened
    rw [hopened] at h
    by_cases hname : name = opened.writer.file.getD opened.writer.filePath
    · refine ⟨contents ++ p, ?_, List.prefix_append contents p⟩
      subst hname
      change opened.files _ = _ at h
      simp [h]
    · exact ⟨contents, (Function.update_of_ne hname ..).trans h, List.prefix_rfl⟩

/-- What a file holds before the record is added to it. -/
theorem opened_of_write {name : Str} {after : List UInt8}
    (h : (write.under o l p).1.files name = some after) :
    ∃ before, (before = [] ∨ (write.opened o l p).1.files name = some before) ∧
      (after = before ∨ after = before ++ p) := by
  unfold write.under at h
  split at h
  · rename_i opened hopened
    rw [hopened]
    exact ⟨after, .inr h, .inl rfl⟩
  · rename_i opened hopened
    rw [hopened]
    by_cases hname : name = opened.writer.file.getD opened.writer.filePath
    · subst hname
      have hadded := (Function.update_self ..).symm.trans h
      refine ⟨(opened.files _).getD [], ?_, .inr (Option.some.inj hadded).symm⟩
      cases hthere : opened.files (opened.writer.file.getD opened.writer.filePath) with
      | none => exact .inl rfl
      | some before => exact .inr rfl
    · exact ⟨after, .inr ((Function.update_of_ne hname ..).symm.trans h), .inl rfl⟩

/-- What is found after the write, the record apart, was in a file that survives it. -/
theorem origin_of_write {name : Str} {after : List UInt8}
    (h : (write.under o l p).1.files name = some after) :
    ∃ before, (after = before ∨ after = before ++ p) ∧
      (before = [] ∨ ∃ name', l.files name' = some before ∧
        ∀ k, name' = nameOf l.writer.filePath k → Survives o l p k) := by
  obtain ⟨before, hbefore, hadded⟩ := opened_of_write h
  refine ⟨before, hadded, ?_⟩
  rcases hbefore with hempty | hbefore
  · exact .inl hempty
  · by_cases hother : Other l.writer.filePath name
    · have hsame := (opened_other o l p hother).symm.trans hbefore
      exact .inr ⟨name, hsame, fun k hk => absurd hk (hother k)⟩
    · obtain ⟨j, rfl⟩ : ∃ j, name = nameOf l.writer.filePath j := by
        simpa [Other] using hother
      rcases survives_of_found hbefore with hempty | ⟨k, hk, hsurvives⟩
      · exact .inl hempty
      · refine .inr ⟨_, hk, fun i hi => ?_⟩
        rw [← nameOf_injective l.writer.filePath hi]
        exact hsurvives

end

/-! ## A failing rotation -/

/-- Every byte that was in a file is still in one. The oldest backup may be gone where the log
was renamed to the first one. -/
def Kept (o : Outcomes) (l : Log) (p : List UInt8) : Prop :=
  ∀ name contents, l.files name = some contents →
    (name = backup l.writer.filePath l.writer.maxBackups ∧ moves o l p 0 = true) ∨
    ∃ name' contents', (write.under o l p).1.files name' = some contents' ∧
      contents <:+: contents'

/-- The same files are there, with any contents. -/
def SameNames (fs fs' : Files) : Prop := ∀ name, (fs name).isSome = (fs' name).isSome

/-- The calls that go through do no harm beside those that fail. -/
structure Harmless (o : Outcomes) (l : Log) (p : List UInt8) : Prop where
  /-- No file is renamed onto a backup that could not be moved away. -/
  backups : ∀ i, i + 1 < l.writer.maxBackups → moves o l p i = true →
    l.files (backup l.writer.filePath (i + 1)) ≠ none → moves o l p (i + 1) = true
  /-- The oldest backup only goes where the log is renamed. -/
  oldest : moves o l p 0 = false →
    l.files (backup l.writer.filePath l.writer.maxBackups) ≠ none →
      removes o l p = false ∧ moves o l p (l.writer.maxBackups - 1) = false
  /-- A log that stays where it is is not truncated. -/
  log : moves o l p 0 = false → l.files l.writer.filePath ≠ none → truncates o l p = false

section

variable {o : Outcomes} {l : Log} {p : List UInt8}

theorem lt_of_moves {k : Nat} (h : moves o l p k = true) : k < l.writer.maxBackups := by
  simp only [moves, below, Bool.and_eq_true, decide_eq_true_eq] at h
  exact h.2.1

theorem Harmless.survives (h : Harmless o l p) {k : Nat}
    (hk : gens l.writer.filePath l.files k ≠ none) :
    (k = l.writer.maxBackups ∧ moves o l p 0 = true) ∨ Survives o l p k := by
  have hn := l.writer.maxBackups_pos
  cases k with
  | zero =>
    refine .inr ⟨by omega, ?_⟩
    cases hmoves : moves o l p 0 with
    | true => exact ⟨1, by simp [place, hmoves], by omega⟩
    | false => exact ⟨0, by simp [place, covered, hmoves], fun _ => h.log hmoves hk⟩
  | succ i =>
    cases hmoves : moves o l p (i + 1) with
    | true =>
      have hlt := lt_of_moves hmoves
      exact .inr ⟨by omega, i + 2, by simp [place, hmoves], by omega⟩
    | false =>
      have hover : i + 1 = l.writer.maxBackups ∨ moves o l p i = false := by
        rcases Nat.lt_trichotomy (i + 1) l.writer.maxBackups with hlt | heq | hgt
        · refine .inr (Bool.eq_false_iff.mpr fun hover => ?_)
          rw [h.backups i hlt hover hk] at hmoves
          cases hmoves
        · exact .inl heq
        · refine .inr (Bool.eq_false_iff.mpr fun hover => ?_)
          have := lt_of_moves hover
          omega
      by_cases hoff : i + 1 = l.writer.maxBackups
      · cases hlog : moves o l p 0 with
        | true => exact .inl ⟨hoff, rfl⟩
        | false =>
          obtain ⟨hremoves, hover⟩ := h.oldest hlog (hoff ▸ hk)
          rw [← hoff, Nat.add_sub_cancel] at hover
          exact .inr ⟨fun _ => hremoves, i + 1, by simp [place, covered, hmoves, hover], by omega⟩
      · have hfree := hover.resolve_left hoff
        exact .inr ⟨fun heq => absurd heq hoff, i + 1, by simp [place, covered, hmoves, hfree], by omega⟩

theorem harmless_of_survives
    (h : ∀ k, gens l.writer.filePath l.files k ≠ none →
      (k = l.writer.maxBackups ∧ moves o l p 0 = true) ∨ Survives o l p k) :
    Harmless o l p where
  backups i hlt hmoves hthere := by
    rcases h (i + 1) hthere with ⟨heq, _⟩ | hsurvives
    · omega
    · obtain ⟨j, hplace, _⟩ := hsurvives.placed
      by_contra hstays
      simp [place, covered, hmoves, hstays] at hplace
  oldest hlog hthere := by
    obtain ⟨n, hn⟩ : ∃ m, l.writer.maxBackups = m + 1 :=
      ⟨l.writer.maxBackups - 1, by have := l.writer.maxBackups_pos; omega⟩
    rw [hn] at hthere
    rcases h (n + 1) hthere with ⟨_, hmoves⟩ | hsurvives
    · rw [hlog] at hmoves
      cases hmoves
    · obtain ⟨j, hplace, _⟩ := hsurvives.placed
      have hlast : moves o l p (n + 1) = false := by
        refine Bool.eq_false_iff.mpr fun hmoves => ?_
        have := lt_of_moves hmoves
        omega
      refine ⟨hsurvives.stays hn.symm, ?_⟩
      rw [hn, Nat.add_sub_cancel]
      refine Bool.eq_false_iff.mpr fun hover => ?_
      simp [place, covered, hlast, hover] at hplace
  log hlog hthere := by
    rcases h 0 hthere with ⟨heq, _⟩ | hsurvives
    · have := l.writer.maxBackups_pos
      omega
    · obtain ⟨j, hplace, hcut⟩ := hsurvives.placed
      simp only [place, covered, hlog] at hplace
      exact hcut (Option.some.inj hplace).symm

/-- Which files move does not depend on what they hold. -/
theorem moves_congr {fs : Files} (h : SameNames fs l.files) :
    moves o ⟨l.writer, fs⟩ p = moves o l p := by
  funext k
  simp [moves, below, Outcomes.moves, gens, h (nameOf l.writer.filePath k)]

theorem survives_congr {fs : Files} (h : SameNames fs l.files) {k : Nat} :
    Survives o ⟨l.writer, fs⟩ p k ↔ Survives o l p k := by
  have hmoves : moves o ⟨l.writer, fs⟩ p = moves o l p := moves_congr h
  constructor
  · rintro ⟨hstays, hplaced⟩
    rw [hmoves] at hplaced
    exact ⟨hstays, hplaced⟩
  · rintro ⟨hstays, hplaced⟩
    rw [← hmoves] at hplaced
    exact ⟨hstays, hplaced⟩

theorem kept_of_survives
    (h : ∀ k, gens l.writer.filePath l.files k ≠ none →
      (k = l.writer.maxBackups ∧ moves o l p 0 = true) ∨ Survives o l p k) :
    Kept o l p := by
  intro name contents hname
  have hfound : ∀ name', (write.opened o l p).1.files name' = some contents →
      ∃ name' contents', (write.under o l p).1.files name' = some contents' ∧
        contents <:+: contents' := by
    intro name' h'
    obtain ⟨contents', hwritten, hfront⟩ := write_keeps h'
    exact ⟨name', contents', hwritten, hfront.isInfix⟩
  by_cases hother : Other l.writer.filePath name
  · exact .inr (hfound name ((opened_other o l p hother).trans hname))
  · obtain ⟨k, rfl⟩ : ∃ k, name = nameOf l.writer.filePath k := by
      simpa [Other] using hother
    have hthere : gens l.writer.filePath l.files k ≠ none := by
      rw [gens, hname]
      exact Option.some_ne_none contents
    rcases h k hthere with ⟨rfl, hmoves⟩ | hsurvives
    · exact .inl ⟨(backup_maxBackups l.writer).symm, hmoves⟩
    · obtain ⟨j, hj⟩ := hsurvives.kept hname
      exact .inr (hfound _ hj)

/-- The files of the log, where only one of them holds something. -/
def only (fs : Files) (name : Str) (contents : List UInt8) : Files :=
  Function.update (fun name => (fs name).map fun _ => []) name (some contents)

theorem only_self (fs : Files) (name : Str) (contents : List UInt8) :
    only fs name contents name = some contents :=
  Function.update_self ..

theorem sameNames_only {fs : Files} {name : Str} (h : fs name ≠ none) (contents : List UInt8) :
    SameNames (only fs name contents) fs := by
  intro name'
  by_cases hname : name' = name
  · subst hname
    simp [only, Option.isSome_iff_ne_none.mpr h]
  · simp [only, Function.update_of_ne hname]

theorem eq_nil_of_only {fs : Files} {name name' : Str} {contents found : List UInt8}
    (h : only fs name contents name' = some found) (hne : name' ≠ name) : found = [] := by
  rw [only, Function.update_of_ne hne, Option.map_eq_some_iff] at h
  obtain ⟨_, _, h⟩ := h
  exact h.symm

/-- Where the other files are empty, what does not survive leaves nothing but the record. -/
theorem length_le_of_lost {k : Nat} (hlost : ¬ Survives o l p k)
    (hnil : ∀ name contents, name ≠ nameOf l.writer.filePath k →
      l.files name = some contents → contents = [])
    {name : Str} {after : List UInt8} (h : (write.under o l p).1.files name = some after) :
    after.length ≤ p.length := by
  obtain ⟨before, hadded, horigin⟩ := origin_of_write h
  have hempty : before = [] := by
    rcases horigin with hempty | ⟨name', hbefore, hsurvives⟩
    · exact hempty
    · exact hnil name' before (fun hk => hlost (hsurvives k hk)) hbefore
  rcases hadded with rfl | rfl
  · simp [hempty]
  · simp [hempty]

theorem survives_of_kept {k : Nat} (hk : gens l.writer.filePath l.files k ≠ none)
    (h : Kept o ⟨l.writer, only l.files (nameOf l.writer.filePath k)
      (List.replicate (p.length + 1) 0)⟩ p) :
    (k = l.writer.maxBackups ∧ moves o l p 0 = true) ∨ Survives o l p k := by
  have hsame := sameNames_only hk (List.replicate (p.length + 1) 0)
  rw [← moves_congr hsame, ← survives_congr hsame]
  rcases h _ _ (only_self ..) with
    ⟨hname, hmoves⟩ | ⟨name', after, hafter, hpart⟩
  · rw [backup_maxBackups] at hname
    exact .inl ⟨nameOf_injective l.writer.filePath hname, hmoves⟩
  · by_contra hlost
    rw [not_or] at hlost
    have hshort := length_le_of_lost hlost.2 (fun name found hne hfound =>
      eq_nil_of_only hfound hne) hafter
    have hlength := hpart.length_le
    rw [List.length_replicate] at hlength
    omega

end

/-- A write keeps all data, whatever the files hold, iff its calls do no harm: nothing is renamed
onto a backup that stays, and a log that stays costs neither the oldest backup nor its own data. -/
theorem failing_rotation_keeps_data_iff (o : Outcomes) (l : Log) (p : List UInt8) :
    (∀ fs, SameNames fs l.files → Kept o ⟨l.writer, fs⟩ p) ↔ Harmless o l p := by
  constructor
  · intro h
    refine harmless_of_survives fun k hk => survives_of_kept hk ?_
    exact h _ (sameNames_only hk _)
  · intro h fs hsame
    refine kept_of_survives fun k hk => ?_
    have hthere : gens l.writer.filePath l.files k ≠ none := by
      rw [← Option.isSome_iff_ne_none] at hk ⊢
      exact (hsame _).symm.trans hk
    rw [moves_congr hsame, survives_congr hsame]
    exact h.survives hthere

/-- Where every call goes through, the rotation is harmless. -/
theorem harmless_allGood (l : Log) (p : List UInt8)
    (hlog : l.files l.writer.filePath ≠ none) : Harmless .allGood l p where
  backups i hlt hmoves hthere := by
    simp only [moves, below, Bool.and_eq_true] at hmoves
    simp [moves, below, hmoves.1, hlt, Outcomes.moves, Outcomes.allGood, gens, nameOf,
      Option.isSome_iff_ne_none.mpr hthere]
  oldest hstays _ := by
    have hrotates : rotates l.writer p = false := by
      simpa [moves, below, l.writer.maxBackups_pos, Outcomes.moves, Outcomes.allGood, gens,
        nameOf, hlog] using hstays
    simp [removes, moves, hrotates]
  log _ _ := by
    unfold truncates lastOpening
    split
    · rfl
    · split <;> rfl

/-- A log with two backups that is full. -/
def fullLog : Log where
  writer := ⟨"log", 1, 2, 1, some "log", by decide, by decide⟩
  files name :=
    if name = "log" then some [1]
    else if name = "log.1" then some [2]
    else if name = "log.2" then some [3]
    else none

/-- The first backup cannot be renamed. The log is renamed onto it, and its data is gone. -/
theorem first_backup_is_overwritten :
    let o := { Outcomes.allGood with rename := fun k => k != 1 }
    let after := (write.under o fullLog [4]).1.files
    after "log" = some [4] ∧ after "log.1" = some [1] ∧ after "log.2" = none ∧
      ¬ Kept o fullLog [4] := by
  intro o after
  have hgone : place (moves o fullLog [4]) 1 = none := by decide
  refine ⟨by decide, by decide, by decide, fun h => ?_⟩
  rcases h "log.1" [2] (by decide) with ⟨holdest, _⟩ | ⟨name, found, hfound, hpart⟩
  · exact absurd holdest (by decide)
  · have hmem : 2 ∈ found := hpart.subset (List.mem_singleton_self 2)
    obtain ⟨before, hadded, horigin⟩ := origin_of_write hfound
    have hnot : 2 ∉ before := by
      rcases horigin with rfl | ⟨name', hbefore, hsurvives⟩
      · decide
      · have hother : name' ≠ "log.1" := by
          intro hname
          obtain ⟨j, hplace, _⟩ := (hsurvives 1 hname).placed
          rw [hgone] at hplace
          cases hplace
        simp only [fullLog, hother, if_false] at hbefore
        split_ifs at hbefore <;> cases hbefore <;> decide
    rcases hadded with rfl | rfl
    · exact hnot hmem
    · exact absurd hmem (by simp [hnot])

end vproxy.rotating
