-- The socket tables of /proc/net (proc_linux.go, findSocketInodeByPort). The file is closed at the
-- first row with the port. If that row has inode 0 the scan goes on, but only with what is in the
-- buffer then: rows behind it are not found, and of a row at its end only a part is read.
import Vproxy.LineScanner
import Vproxy.Urls

open go go.url bufio

namespace vproxy.proc

/-! ## The files -/

/-- The files of /proc/net that are read. -/
inductive NetTable where
  | tcp
  | tcp6
  | udp
  | udp6
  deriving DecidableEq, Repr

/-- In the order of the code. -/
def procFiles : List NetTable := [.tcp, .tcp6, .udp, .udp6]

/-- The text of a port in `%04X`. -/
def hex4 (port : Nat) : Str :=
  [upperHex (port / 4096 % 16), upperHex (port / 256 % 16), upperHex (port / 16 % 16),
    upperHex (port % 16)]

/-- A row of a table as the kernel writes it: number, local address and port, seven other
fields, the inode, and what is behind it. -/
structure SockRow where
  sl : Str
  localAddr : Str
  localPort : UInt16
  others : Vector Str 7
  inode : Nat
  rest : List Str
  deriving DecidableEq

def SockRow.fields (r : SockRow) : List Str :=
  r.sl :: (r.localAddr ++ ':' :: hex4 r.localPort.toNat) ::
    (r.others.toList ++ itoa r.inode :: r.rest)

section

variable [Unicode]

/-- A row and its line in the file, with whatever blanks the kernel puts between the fields. -/
structure TableRow where
  row : SockRow
  line : Str
  fields_line : go.fields line = row.fields
  one_line : '\n' ∉ line ∧ '\r' ∉ line

def TableRow.text (r : TableRow) : Str := r.line ++ ['\n']

/-- A file with its header, and what the reads of it give one after another. -/
structure NetFile where
  header : Str
  rows : List TableRow
  reads : List Str
  header_line : '\n' ∉ header
  reads_text : reads.flatten = header ++ '\n' :: rows.flatMap TableRow.text

structure NetTables where
  file : NetTable → NetFile
  opens : NetTable → Bool

/-! ## The call -/

omit [Unicode] in
/-- The inode of a row with the port. -/
def rowInode (port : Nat) (fields : List Str) : Option Str :=
  if fields.length < 10 then none
  else if hasSuffix (fields.getD 1 []) (':' :: hex4 port) then some (fields.getD 9 [])
  else none

/-- The loop over the lines of one file. A row with the port closes the file. -/
def scanLines (port : Nat) : Nat → Bool → Scanner → Option Str
  | 0, _, _ => none
  | turns + 1, isFirst, s =>
    match s.scan with
    | none => none
    | some (line, s) =>
      if isFirst then scanLines port turns false s
      else
        match rowInode port (go.fields line) with
        | some inode =>
          if inode ≠ ("0" : Str) ∧ inode ≠ [] then some inode
          else scanLines port turns false s.close
        | none => scanLines port turns false s

/-- The scan of one file. Every line has a character, so these turns are enough. -/
def scanFile (port : Nat) (f : NetFile) : Option Str :=
  scanLines port (f.reads.flatten.length + 1) true (.new f.reads)

/-- `findSocketInodeByPort`, with the table of the row. -/
def findSocketInodeByPort (tables : NetTables) (port : Nat) : Option (NetTable × Str) :=
  procFiles.findSome? fun t =>
    if tables.opens t then (scanFile port (tables.file t)).map (Prod.mk t) else none

end

/-! ## One row -/

theorem hex4_injective {m n : Nat} (hm : m < 65536) (hn : n < 65536) (h : hex4 m = hex4 n) :
    m = n := by
  have hdigit : ∀ a < 16, ∀ b < 16, upperHex a = upperHex b → a = b := by decide
  simp only [hex4, List.cons.injEq, and_true] at h
  obtain ⟨h3, h2, h1, h0⟩ := h
  have e3 := hdigit _ (Nat.mod_lt _ (by decide)) _ (Nat.mod_lt _ (by decide)) h3
  have e2 := hdigit _ (Nat.mod_lt _ (by decide)) _ (Nat.mod_lt _ (by decide)) h2
  have e1 := hdigit _ (Nat.mod_lt _ (by decide)) _ (Nat.mod_lt _ (by decide)) h1
  have e0 := hdigit _ (Nat.mod_lt _ (by decide)) _ (Nat.mod_lt _ (by decide)) h0
  omega

/-- The test of the suffix is a test of the port. -/
theorem hasSuffix_local (port : UInt16) (r : SockRow) :
    hasSuffix (r.localAddr ++ ':' :: hex4 r.localPort.toNat) (':' :: hex4 port.toNat) = true ↔
      r.localPort = port := by
  rw [hasSuffix, List.isSuffixOf_iff_suffix]
  constructor
  · rintro ⟨front, hfront⟩
    obtain ⟨-, htail⟩ := List.append_inj' hfront rfl
    apply UInt16.toNat_inj.mp
    exact hex4_injective (UInt16.toNat_lt _) (UInt16.toNat_lt _) (List.cons.inj htail).2.symm
  · rintro rfl
    exact List.suffix_append _ _

theorem getElem?_one_fields (r : SockRow) :
    r.fields[1]? = some (r.localAddr ++ ':' :: hex4 r.localPort.toNat) := rfl

theorem getElem?_nine_fields (r : SockRow) : r.fields[9]? = some (itoa r.inode) := by
  simp [SockRow.fields]

section

variable [Unicode]

/-- The test of a row of which only a part is read: the port is seen, if the inode is. -/
theorem rowInode_part {r : TableRow} {a : Str} (h : a <+: r.line) (port : UInt16) :
    rowInode port.toNat (go.fields a) =
      if r.row.localPort = port then (go.fields a)[9]? else none := by
  unfold rowInode
  by_cases hshort : (go.fields a).length < 10
  · rw [if_pos hshort, List.getElem?_eq_none (by omega), ite_self]
  · have hone :
        (go.fields a)[1]? = some (r.row.localAddr ++ ':' :: hex4 r.row.localPort.toNat) := by
      obtain ⟨x, hx⟩ : ∃ x, (go.fields a)[1]? = some x := ⟨_, List.getElem?_eq_getElem (by omega)⟩
      obtain ⟨y, hy, -, hsame⟩ := getElem?_fields_front h hx
      rw [r.fields_line, getElem?_one_fields] at hy
      rw [hx, hsame (by omega), hy]
    have hnine : (go.fields a)[9]? = some ((go.fields a).getD 9 []) := by
      rw [List.getD_eq_getElem?_getD, List.getElem?_eq_getElem (by omega), Option.getD_some]
    rw [if_neg hshort, List.getD_eq_getElem?_getD, hone, Option.getD_some, hnine]
    by_cases hport : r.row.localPort = port
    · rw [if_pos ((hasSuffix_local port r.row).mpr hport), if_pos hport]
    · rw [if_neg (mt (hasSuffix_local port r.row).mp hport), if_neg hport]

/-- What is read of the inode is its begin. -/
theorem inode_part {r : TableRow} {a x : Str} (h : a <+: r.line)
    (hx : (go.fields a)[9]? = some x) : x ≠ [] ∧ x <+: itoa r.row.inode := by
  obtain ⟨y, hy, hpart, -⟩ := getElem?_fields_front h hx
  rw [r.fields_line, getElem?_nine_fields] at hy
  cases hy
  exact ⟨ne_nil_of_mem_fields (List.mem_of_getElem? hx), hpart⟩

/-! ## What a scan sees -/

omit [Unicode] in
/-- A socket with the port that is not in TIME_WAIT. -/
def SockRow.Live (port : UInt16) (r : SockRow) : Prop := r.localPort = port ∧ r.inode ≠ 0

omit [Unicode] in
instance (port : UInt16) (r : SockRow) : Decidable (r.Live port) :=
  inferInstanceAs (Decidable (_ ∧ _))

/-- What is read of the inode of the first live row, if `n` characters of the rows are seen. -/
def shown (port : UInt16) : Nat → List TableRow → Option Str
  | _, [] => none
  | n, r :: more =>
    if r.row.Live port then (go.fields (r.line.take n))[9]?
    else shown port (n - r.text.length) more

/-- How many characters of the rows a scanner in front of them gets to see. All of them, unless
a row with the port and without an inode closes the file: then those that are in the buffer. -/
def reach (port : UInt16) : Scanner → List TableRow → Nat
  | _, [] => 0
  | s, r :: more =>
    let s := s.advance r.text.length
    if r.row.localPort = port ∧ r.row.inode = 0 then r.text.length + s.buf.length
    else r.text.length + reach port s more

theorem length_text (r : TableRow) : r.text.length = r.line.length + 1 := by
  simp [TableRow.text]

theorem shown_zero (port : UInt16) (rows : List TableRow) : shown port 0 rows = none := by
  induction rows with
  | nil => rfl
  | cons r more ih =>
    rw [shown, Nat.zero_sub, ih]
    split <;> rfl

theorem shown_whole {port : UInt16} {r : TableRow} (hlive : r.row.Live port) {n : Nat}
    (hn : r.line.length ≤ n) (more : List TableRow) :
    shown port n (r :: more) = some (itoa r.row.inode) := by
  rw [shown, if_pos hlive, List.take_of_length_le hn, r.fields_line, getElem?_nine_fields]

theorem scanLines_empty (port turns : Nat) : scanLines port turns false ⟨[], []⟩ = none := by
  cases turns <;> rfl

omit [Unicode] in
theorem itoa_live {n : Nat} {x : Str} (hn : n ≠ 0) (hne : x ≠ []) (hpart : x <+: itoa n) :
    x ≠ ("0" : Str) := by
  obtain ⟨d, ds, hitoa, hd⟩ := itoa_head (Nat.pos_of_ne_zero hn)
  rintro rfl
  rw [hitoa] at hpart
  exact hd (List.cons_prefix_cons.mp hpart).1.symm

omit [Unicode] in
theorem itoa_dead {x : Str} (hne : x ≠ []) (hpart : x <+: itoa 0) : x = ("0" : Str) := by
  obtain ⟨c, x, rfl⟩ := List.exists_cons_of_ne_nil hne
  obtain ⟨rfl, hnil⟩ := List.cons_prefix_cons.mp hpart
  rw [List.prefix_nil.mp hnil]
  rfl

/-- One turn on a line of a row, whole or the begin of it. -/
theorem scanLines_turn {port : UInt16} {s next : Scanner} {r : TableRow} {a : Str}
    (hscan : s.scan = some (a, next)) (hpart : a <+: r.line) (turns : Nat) :
    scanLines port.toNat (turns + 1) false s =
      if r.row.localPort = port then
        match (go.fields a)[9]? with
        | some inode =>
          if r.row.inode ≠ 0 then some inode else scanLines port.toNat turns false next.close
        | none => scanLines port.toNat turns false next
      else scanLines port.toNat turns false next := by
  rw [scanLines, hscan]
  simp only [Bool.false_eq_true, if_false]
  rw [rowInode_part hpart port]
  by_cases hport : r.row.localPort = port
  · rw [if_pos hport, if_pos hport]
    cases hnine : (go.fields a)[9]? with
    | none => rfl
    | some x =>
      obtain ⟨hne, hx⟩ := inode_part hpart hnine
      by_cases hinode : r.row.inode = 0
      · rw [hinode] at hx
        simp only [itoa_dead hne hx, hinode]
        simp
      · exact (if_pos ⟨itoa_live hinode hne hx, hne⟩).trans (if_pos hinode).symm
  · rw [if_neg hport, if_neg hport]

theorem getElem?_line (r : TableRow) : (go.fields r.line)[9]? = some (itoa r.row.inode) := by
  rw [r.fields_line, getElem?_nine_fields]

theorem scanLines_live {port : UInt16} {s next : Scanner} {r : TableRow}
    (hscan : s.scan = some (r.line, next)) (hlive : r.row.Live port) (turns : Nat) :
    scanLines port.toNat (turns + 1) false s = some (itoa r.row.inode) := by
  rw [scanLines_turn hscan (List.prefix_refl _), if_pos hlive.1, getElem?_line]
  exact if_pos hlive.2

/-- A row that is not live is left behind. If it has the port, it closes the file. -/
theorem scanLines_dead {port : UInt16} {s next : Scanner} {r : TableRow}
    (hscan : s.scan = some (r.line, next)) (hlive : ¬ r.row.Live port) (turns : Nat) :
    scanLines port.toNat (turns + 1) false s =
      scanLines port.toNat turns false (if r.row.localPort = port then next.close else next) := by
  rw [scanLines_turn hscan (List.prefix_refl _), getElem?_line]
  by_cases hport : r.row.localPort = port
  · have hdead : ¬ r.row.inode ≠ 0 := fun hinode => hlive ⟨hport, hinode⟩
    rw [if_pos hport, if_pos hport]
    exact if_neg hdead
  · rw [if_neg hport, if_neg hport]

/-- The begin of a line, at the end of a file that was closed. -/
theorem scanLines_piece {port : UInt16} {r : TableRow} {buf : Str} (hpart : buf <+: r.line)
    (more : List TableRow) (turns : Nat) :
    scanLines port.toNat (turns + 1) false ⟨buf, []⟩ = shown port buf.length (r :: more) := by
  by_cases hbuf : buf = []
  · subst hbuf
    rw [scanLines_empty, List.length_nil, shown_zero]
  have hscan : (⟨buf, []⟩ : Scanner).scan = some (buf, ⟨[], []⟩) := by
    have hcr : '\r' ∉ buf := fun hmem => r.one_line.2 (hpart.subset hmem)
    rw [Scanner.scan_piece (fun hmem => r.one_line.1 (hpart.subset hmem)) hbuf,
      dropCR_of_not_mem hcr]
  rw [scanLines_turn hscan hpart]
  simp only [Scanner.close_closed, scanLines_empty]
  by_cases hlive : r.row.Live port
  · have htake : r.line.take buf.length = buf := (List.prefix_iff_eq_take.mp hpart).symm
    rw [shown, if_pos hlive, htake, if_pos hlive.1]
    cases (go.fields buf)[9]? with
    | none => rfl
    | some x => exact if_pos hlive.2
  · have hshort := hpart.length_le
    have hlen := length_text r
    rw [shown, if_neg hlive, Nat.sub_eq_zero_of_le (by omega), shown_zero]
    by_cases hport : r.row.localPort = port
    · have hdead : ¬ r.row.inode ≠ 0 := fun hinode => hlive ⟨hport, hinode⟩
      rw [if_pos hport]
      cases (go.fields buf)[9]? with
      | none => rfl
      | some x => exact if_neg hdead
    · rw [if_neg hport]

theorem scan_text {s : Scanner} {r : TableRow} {more : List TableRow}
    (h : s.text = (r :: more).flatMap TableRow.text) :
    s.scan = some (r.line, s.advance r.text.length) := by
  have htext : s.text = r.line ++ '\n' :: more.flatMap TableRow.text := by
    rw [h, List.flatMap_cons, TableRow.text, List.append_assoc, List.singleton_append]
  rw [Scanner.scan_line htext r.one_line.1, dropCR_of_not_mem r.one_line.2, length_text]

/-- The begin of a row and more rows is the row and the begin of those, or the begin of its
line. -/
theorem part_cases {buf : Str} {r : TableRow} {more : List TableRow}
    (h : buf <+: (r :: more).flatMap TableRow.text) :
    (∃ rest, buf = r.text ++ rest ∧ rest <+: more.flatMap TableRow.text) ∨ buf <+: r.line := by
  rw [List.flatMap_cons] at h
  rcases List.prefix_or_prefix_of_prefix h (List.prefix_append r.text _) with hpart | ⟨rest, rfl⟩
  · rcases List.prefix_concat_iff.mp hpart with hwhole | hline
    · refine .inl ⟨[], by rw [List.append_nil]; exact hwhole, List.nil_prefix⟩
    · exact .inr hline
  · exact .inl ⟨rest, rfl, (List.prefix_append_right_inj _).mp h⟩

/-- The scan of a file that was closed, with the begin of these rows in the buffer. -/
theorem scanLines_closed {port : UInt16} {rows : List TableRow} {buf : Str}
    (h : buf <+: rows.flatMap TableRow.text) {turns : Nat} (hturns : rows.length < turns) :
    scanLines port.toNat turns false ⟨buf, []⟩ = shown port buf.length rows := by
  induction rows generalizing buf turns with
  | nil =>
    rw [List.prefix_nil.mp h]
    exact scanLines_empty _ _
  | cons r more ih =>
    obtain ⟨turns, rfl⟩ : ∃ n, turns = n + 1 := ⟨turns - 1, by omega⟩
    have hmore : more.length < turns := by simpa using hturns
    have hlen := length_text r
    rcases part_cases h with ⟨rest, rfl, hrest⟩ | hpart
    · have hscan : (⟨r.text ++ rest, []⟩ : Scanner).scan = some (r.line, ⟨rest, []⟩) := by
        have htext : r.text ++ rest = r.line ++ '\n' :: rest := by simp [TableRow.text]
        rw [Scanner.scan_line (by rw [Scanner.text_closed, htext]) r.one_line.1,
          dropCR_of_not_mem r.one_line.2, Scanner.advance_closed, ← hlen, List.drop_left]
      by_cases hlive : r.row.Live port
      · rw [scanLines_live hscan hlive, shown_whole hlive (by rw [List.length_append]; omega)]
      · rw [scanLines_dead hscan hlive, Scanner.close_closed, ite_self, ih hrest hmore, shown,
          if_neg hlive, List.length_append, Nat.add_sub_cancel_left]
    · exact scanLines_piece hpart more turns

/-- The scan of a file that is open, in front of these rows. -/
theorem scanLines_open {port : UInt16} {rows : List TableRow} {s : Scanner}
    (h : s.text = rows.flatMap TableRow.text) {turns : Nat} (hturns : rows.length < turns) :
    scanLines port.toNat turns false s = shown port (reach port s rows) rows := by
  induction rows generalizing s turns with
  | nil =>
    obtain ⟨turns, rfl⟩ : ∃ n, turns = n + 1 := ⟨turns - 1, by omega⟩
    rw [scanLines, Scanner.scan_end h]
    rfl
  | cons r more ih =>
    obtain ⟨turns, rfl⟩ : ∃ n, turns = n + 1 := ⟨turns - 1, by omega⟩
    have hmore : more.length < turns := by simpa using hturns
    have hlen := length_text r
    have hnext : (s.advance r.text.length).text = more.flatMap TableRow.text := by
      rw [Scanner.text_advance, h, List.flatMap_cons, List.drop_left]
    rw [reach]
    by_cases hlive : r.row.Live port
    · have hopen : ¬ (r.row.localPort = port ∧ r.row.inode = 0) := fun hdead => hlive.2 hdead.2
      simp only [if_neg hopen]
      rw [scanLines_live (scan_text h) hlive, shown_whole hlive (by omega)]
    · rw [scanLines_dead (scan_text h) hlive, shown, if_neg hlive]
      by_cases hport : r.row.localPort = port
      · have hdead : r.row.inode = 0 := by
          by_contra hinode
          exact hlive ⟨hport, hinode⟩
        simp only [hport, hdead, and_self, if_true, Nat.add_sub_cancel_left]
        refine scanLines_closed ?_ hmore
        rw [← hnext]
        exact Scanner.buf_part _
      · simp only [hport, false_and, if_false, Nat.add_sub_cancel_left]
        exact ih hnext hmore

/-- What is read of the inode of the first live row of a file. -/
def NetFile.seen (f : NetFile) (port : UInt16) : Option Str :=
  shown port (reach port ((Scanner.new f.reads).advance (f.header.length + 1)) f.rows) f.rows

theorem length_rows_le (rows : List TableRow) :
    rows.length ≤ (rows.flatMap TableRow.text).length := by
  induction rows with
  | nil => exact Nat.le_refl 0
  | cons r more ih =>
    rw [List.flatMap_cons, List.length_append, length_text, List.length_cons]
    omega

theorem scanFile_eq (f : NetFile) (port : UInt16) : scanFile port.toNat f = f.seen port := by
  have htext : (Scanner.new f.reads).text = f.header ++ '\n' :: f.rows.flatMap TableRow.text :=
    f.reads_text
  have hrows := length_rows_le f.rows
  rw [scanFile, scanLines, Scanner.scan_line htext f.header_line, NetFile.seen]
  refine scanLines_open ?_ ?_
  · rw [Scanner.text_advance, htext, List.append_cons]
    exact List.drop_left' (by simp)
  · rw [f.reads_text, List.length_append, List.length_cons]
    omega

/-! ## The law -/

/-- The inode of the first live row of a file. -/
def NetFile.liveInode (f : NetFile) (port : UInt16) : Option Str :=
  (f.rows.find? (·.row.Live port)).map (itoa ·.row.inode)

/-- The inode of the first live row of a table that can be opened. -/
def liveIn (tables : NetTables) (port : UInt16) (t : NetTable) : Option Str :=
  if tables.opens t then (tables.file t).liveInode port else none

/-- What is read of it. -/
def seenIn (tables : NetTables) (port : UInt16) (t : NetTable) : Option Str :=
  if tables.opens t then (tables.file t).seen port else none

/-- The inode of the first live row, in the order of the tables and then of the rows. -/
def liveInode (tables : NetTables) (port : UInt16) : Option Str :=
  procFiles.findSome? (liveIn tables port)

theorem shown_of_no_live {port : UInt16} {rows : List TableRow}
    (h : rows.find? (·.row.Live port) = none) (n : Nat) : shown port n rows = none := by
  induction rows generalizing n with
  | nil => rfl
  | cons r more ih =>
    rw [List.find?_cons] at h
    split at h
    · cases h
    · rename_i hdead
      rw [shown, if_neg (by simpa using hdead)]
      exact ih h _

theorem seenIn_of_no_live {tables : NetTables} {port : UInt16} {t : NetTable}
    (h : liveIn tables port t = none) : seenIn tables port t = none := by
  unfold liveIn at h
  unfold seenIn
  split
  · rename_i hopens
    rw [if_pos hopens, NetFile.liveInode, Option.map_eq_none_iff] at h
    exact shown_of_no_live h _
  · rfl

theorem findSocketInodeByPort_eq (tables : NetTables) (port : UInt16) :
    findSocketInodeByPort tables port.toNat =
      procFiles.findSome? fun t => (seenIn tables port t).map (Prod.mk t) := by
  unfold findSocketInodeByPort seenIn
  congr 1
  funext t
  rw [scanFile_eq]
  split <;> rfl

omit [Unicode] in
theorem findSome?_map_snd {α β : Type} (f : α → Option β) (l : List α) :
    (l.findSome? fun a => (f a).map (Prod.mk a)).map Prod.snd = l.findSome? f := by
  induction l with
  | nil => rfl
  | cons a l ih =>
    rw [List.findSome?_cons, List.findSome?_cons]
    cases f a with
    | none => exact ih
    | some b => rfl

omit [Unicode] in
/-- Two searches, of which the first finds nothing where the second does not. -/
theorem findSome?_eq_iff {α β : Type} {f g : α → Option β} (hfg : ∀ a, g a = none → f a = none)
    (l : List α) :
    l.findSome? f = l.findSome? g ↔ ∀ before a after b, l = before ++ a :: after →
      (∀ a' ∈ before, g a' = none) → g a = some b →
      f a = some b ∨ f a = none ∧ after.findSome? f = some b := by
  have hnone : ∀ part : List α, (∀ a ∈ part, g a = none) → part.findSome? f = none := by
    intro part hpart
    exact List.findSome?_eq_none_iff.mpr fun a ha => hfg a (hpart a ha)
  constructor
  · rintro h before a after b rfl hbefore ha
    rw [List.findSome?_eq_some_iff.mpr ⟨before, a, after, rfl, ha, hbefore⟩, List.findSome?_append,
      hnone before hbefore, Option.none_or, List.findSome?_cons] at h
    cases hf : f a with
    | none => exact .inr ⟨rfl, by simpa [hf] using h⟩
    | some x => exact .inl (by simpa [hf] using h)
  · intro h
    cases hg : l.findSome? g with
    | none => exact hnone l (List.findSome?_eq_none_iff.mp hg)
    | some b =>
      obtain ⟨before, a, after, rfl, ha, hbefore⟩ := List.findSome?_eq_some_iff.mp hg
      rw [List.findSome?_append, hnone before hbefore, Option.none_or, List.findSome?_cons]
      rcases h before a after b rfl hbefore ha with hf | ⟨hf, hlater⟩
      · rw [hf]
      · rw [hf]
        exact hlater

/-- The live sockets are found exactly where, of the first one, the whole inode is read; or where
nothing of it is read and a later table happens to give the same inode. -/
theorem scan_finds_live_socket_iff (tables : NetTables) (port : UInt16) :
    (findSocketInodeByPort tables port.toNat).map Prod.snd = liveInode tables port ↔
      ∀ before t after inode, procFiles = before ++ t :: after →
        (∀ t' ∈ before, liveIn tables port t' = none) → liveIn tables port t = some inode →
        seenIn tables port t = some inode ∨
          seenIn tables port t = none ∧ after.findSome? (seenIn tables port) = some inode := by
  rw [findSocketInodeByPort_eq, findSome?_map_snd, liveInode]
  exact findSome?_eq_iff (fun _ => seenIn_of_no_live) procFiles

end

/-! ## A live socket behind a closed one -/

/-- A row with this local port, this state and this inode. -/
def kernelRow (port : UInt16) (st : Str) (inode : Nat) : SockRow :=
  ⟨"0:", "0100007F", port, #v["0100007F:D431", st, "00000000:0000", "00:00000000", "00000000",
    "1000", "0"], inode, []⟩

/-- The fields with blanks between them and behind them, 149 characters. -/
def kernelLine (r : SockRow) : Str :=
  let line := List.intercalate [' '] r.fields
  line ++ List.replicate (149 - line.length) ' '

/-- Port 8080 in TIME_WAIT, another socket, and port 8080 with inode 77. -/
def timeWait : TableRow where
  row := kernelRow 8080 "06" 0
  line := kernelLine (kernelRow 8080 "06" 0)
  fields_line := by decide +kernel
  one_line := by decide +kernel

def otherSocket : TableRow where
  row := kernelRow 22 "0A" 5
  line := kernelLine (kernelRow 22 "0A" 5)
  fields_line := by decide +kernel
  one_line := by decide +kernel

def liveSocket : TableRow where
  row := kernelRow 8080 "01" 77
  line := kernelLine (kernelRow 8080 "01" 77)
  fields_line := by decide +kernel
  one_line := by decide +kernel

def tcpHeader : Str :=
  List.intercalate [' ', ' '] [("sl" : Str), "local_address", "rem_address", "st", "tx_queue",
    "rx_queue", "tr", "tm->when", "retrnsmt", "uid", "timeout", "inode"]

/-- The first read gives the header and 26 rows. -/
def longTable : NetFile where
  header := tcpHeader
  rows := timeWait :: List.replicate 25 otherSocket ++ [liveSocket]
  reads := [tcpHeader ++ '\n' :: (timeWait :: List.replicate 25 otherSocket).flatMap TableRow.text,
    liveSocket.text]
  header_line := by decide +kernel
  reads_text := by simp

def emptyTable : NetFile := ⟨tcpHeader, [], [tcpHeader ++ ['\n']], by decide +kernel, rfl⟩

def longTables : NetTables where
  file
    | .tcp => longTable
    | _ => emptyTable
  opens _ := true

/-- The live socket is in the second read, and the scan fails. -/
theorem live_socket_behind_buffer :
    findSocketInodeByPort longTables 8080 = none ∧ liveInode longTables 8080 = some "77" ∧
      liveSocket ∈ (longTables.file .tcp).rows := by
  refine ⟨(findSocketInodeByPort_eq longTables 8080).trans (by decide +kernel), by decide +kernel,
    ?_⟩
  exact List.mem_append_right _ (List.mem_singleton.mpr rfl)

end vproxy.proc
