-- The words of a command line, as a POSIX shell splits it and takes the quotes away. A line that
-- the shell would act on in some other way (an expansion, a pattern, a comment, an operator, a
-- second command, an open quote) has no words here.
import Vproxy.Strings

namespace shell

/-! ## Characters -/

/-- What a character is to the shell. `expand` starts an expansion also in double quotes, `active`
means something outside of quotes, and `lead` at the begin of a word. -/
inductive Class where
  | blank
  | newline
  | backslash
  | single
  | double
  | expand
  | active
  | lead
  | plain
  deriving DecidableEq, Repr

def classify (c : Char) : Class :=
  if c = ' ' ∨ c = '\t' then .blank
  else if c = '\n' then .newline
  else if c = '\\' then .backslash
  else if c = '\'' then .single
  else if c = '"' then .double
  else if c = '$' ∨ c = '`' then .expand
  else if c ∈ ['|', '&', ';', '<', '>', '(', ')', '*', '?', '['] then .active
  else if c = '~' ∨ c = '#' then .lead
  else .plain

/-- The classes of one character. -/
theorem classify_one (c : Char) : (classify c = .newline ↔ c = '\n') ∧
    (classify c = .backslash ↔ c = '\\') ∧ (classify c = .single ↔ c = '\'') ∧
    (classify c = .double ↔ c = '"') := by
  unfold classify
  grind

theorem classify_newline {c : Char} : classify c = .newline ↔ c = '\n' := (classify_one c).1

theorem classify_backslash {c : Char} : classify c = .backslash ↔ c = '\\' :=
  (classify_one c).2.1

theorem classify_single {c : Char} : classify c = .single ↔ c = '\'' := (classify_one c).2.2.1

theorem classify_double {c : Char} : classify c = .double ↔ c = '"' := (classify_one c).2.2.2

/-! ## Words -/

/-- Where the shell is: between words or in a word, with what it has of it; in quotes; behind a
backslash. -/
inductive Mode where
  | gap
  | gapEsc
  | word (w : Str)
  | wordEsc (w : Str)
  | single (w : Str)
  | double (w : Str)
  | doubleEsc (w : Str)
  deriving DecidableEq

/-- The next character: the word that it ends, if any, and where the shell is behind it. -/
def next (m : Mode) (c : Char) : Option (List Str × Mode) :=
  match m with
  | .gap =>
    match classify c with
    | .blank => some ([], .gap)
    | .backslash => some ([], .gapEsc)
    | .single => some ([], .single [])
    | .double => some ([], .double [])
    | .plain => some ([], .word [c])
    | _ => none
  | .gapEsc =>
    match classify c with
    | .newline => some ([], .gap)
    | _ => some ([], .word [c])
  | .word w =>
    match classify c with
    | .blank => some ([w], .gap)
    | .backslash => some ([], .wordEsc w)
    | .single => some ([], .single w)
    | .double => some ([], .double w)
    | .plain | .lead => some ([], .word (w ++ [c]))
    | _ => none
  | .wordEsc w =>
    match classify c with
    | .newline => some ([], .word w)
    | _ => some ([], .word (w ++ [c]))
  | .single w =>
    match classify c with
    | .single => some ([], .word w)
    | _ => some ([], .single (w ++ [c]))
  | .double w =>
    match classify c with
    | .double => some ([], .word w)
    | .backslash => some ([], .doubleEsc w)
    | .expand => none
    | _ => some ([], .double (w ++ [c]))
  | .doubleEsc w =>
    match classify c with
    | .newline => some ([], .double w)
    | .expand | .double | .backslash => some ([], .double (w ++ [c]))
    | _ => some ([], .double (w ++ ['\\', c]))

/-- The characters that a step takes out of the text. -/
def dropped (m : Mode) (c : Char) : Str :=
  match m with
  | .gap | .word _ =>
    match classify c with
    | .blank | .single | .double => [c]
    | _ => []
  | .gapEsc | .wordEsc _ =>
    match classify c with
    | .newline => ['\\', c]
    | _ => ['\\']
  | .single _ =>
    match classify c with
    | .single => [c]
    | _ => []
  | .double _ =>
    match classify c with
    | .double => [c]
    | _ => []
  | .doubleEsc _ =>
    match classify c with
    | .newline => ['\\', c]
    | .expand | .double | .backslash => ['\\']
    | _ => []

/-- What a character does: the words that it ends, where the shell is behind it, and what is
dropped. -/
inductive Moves : Mode → Char → List Str → Mode → Str → Prop
  | blank {c : Char} (h : classify c = .blank) : Moves .gap c [] .gap [c]
  | slash {c : Char} (h : classify c = .backslash) : Moves .gap c [] .gapEsc []
  | openSingle {c : Char} (h : classify c = .single) : Moves .gap c [] (.single []) [c]
  | openDouble {c : Char} (h : classify c = .double) : Moves .gap c [] (.double []) [c]
  | begins {c : Char} (h : classify c = .plain) : Moves .gap c [] (.word [c]) []
  | goesOn {c : Char} (h : classify c = .newline) : Moves .gapEsc c [] .gap ['\\', c]
  | beginsQuoted {c : Char} (h : classify c ≠ .newline) : Moves .gapEsc c [] (.word [c]) ['\\']
  | ends {w : Str} {c : Char} (h : classify c = .blank) : Moves (.word w) c [w] .gap [c]
  | wordSlash {w : Str} {c : Char} (h : classify c = .backslash) :
    Moves (.word w) c [] (.wordEsc w) []
  | wordSingle {w : Str} {c : Char} (h : classify c = .single) :
    Moves (.word w) c [] (.single w) [c]
  | wordDouble {w : Str} {c : Char} (h : classify c = .double) :
    Moves (.word w) c [] (.double w) [c]
  | grows {w : Str} {c : Char} (h : classify c = .plain ∨ classify c = .lead) :
    Moves (.word w) c [] (.word (w ++ [c])) []
  | wordGoesOn {w : Str} {c : Char} (h : classify c = .newline) :
    Moves (.wordEsc w) c [] (.word w) ['\\', c]
  | growsQuoted {w : Str} {c : Char} (h : classify c ≠ .newline) :
    Moves (.wordEsc w) c [] (.word (w ++ [c])) ['\\']
  | closeSingle {w : Str} {c : Char} (h : classify c = .single) :
    Moves (.single w) c [] (.word w) [c]
  | growsSingle {w : Str} {c : Char} (h : classify c ≠ .single) :
    Moves (.single w) c [] (.single (w ++ [c])) []
  | closeDouble {w : Str} {c : Char} (h : classify c = .double) :
    Moves (.double w) c [] (.word w) [c]
  | doubleSlash {w : Str} {c : Char} (h : classify c = .backslash) :
    Moves (.double w) c [] (.doubleEsc w) []
  | growsDouble {w : Str} {c : Char} (hdouble : classify c ≠ .double)
      (hslash : classify c ≠ .backslash) (hexpand : classify c ≠ .expand) :
    Moves (.double w) c [] (.double (w ++ [c])) []
  | doubleGoesOn {w : Str} {c : Char} (h : classify c = .newline) :
    Moves (.doubleEsc w) c [] (.double w) ['\\', c]
  | taken {w : Str} {c : Char}
      (h : classify c = .expand ∨ classify c = .double ∨ classify c = .backslash) :
    Moves (.doubleEsc w) c [] (.double (w ++ [c])) ['\\']
  | stays {w : Str} {c : Char} (hnewline : classify c ≠ .newline) (hexpand : classify c ≠ .expand)
      (hdouble : classify c ≠ .double) (hslash : classify c ≠ .backslash) :
    Moves (.doubleEsc w) c [] (.double (w ++ ['\\', c])) []

theorem moves_of_next {m m' : Mode} {c : Char} {ended : List Str}
    (h : next m c = some (ended, m')) : ∃ dr, dropped m c = dr ∧ Moves m c ended m' dr := by
  refine ⟨_, rfl, ?_⟩
  cases m <;> cases hc : classify c <;> simp only [next, dropped, hc] at h ⊢ <;> cases h <;>
    constructor <;> simp [hc]

theorem Moves.next_eq {m m' : Mode} {c : Char} {ended : List Str} {dr : Str}
    (h : Moves m c ended m' dr) : next m c = some (ended, m') ∧ dropped m c = dr := by
  cases h <;> cases hc : classify c <;> simp_all [next, dropped]

def feed (m : Mode) : Str → Option (List Str × Mode)
  | [] => some ([], m)
  | c :: t => do
    let (ended, m) ← next m c
    let (more, m) ← feed m t
    some (ended ++ more, m)

/-- The last word. -/
def finish : Mode → Option (List Str)
  | .gap => some []
  | .word w => some [w]
  | _ => none

/-- The words of a text. -/
def words (text : Str) : Option (List Str) := do
  let (ended, m) ← feed .gap text
  let last ← finish m
  some (ended ++ last)

@[simp] theorem feed_nil (m : Mode) : feed m [] = some ([], m) := rfl

theorem feed_cons_eq_some {m m'' : Mode} {c : Char} {t : Str} {out : List Str} :
    feed m (c :: t) = some (out, m'') ↔ ∃ ended m' more, next m c = some (ended, m') ∧
      feed m' t = some (more, m'') ∧ out = ended ++ more := by
  rw [feed]
  simp only [Option.bind_eq_bind, Option.bind_eq_some_iff, Prod.exists, Option.some.injEq,
    Prod.mk.injEq]
  constructor
  · rintro ⟨ended, m', hnext, more, _, hfeed, rfl, rfl⟩
    exact ⟨ended, m', more, hnext, hfeed, rfl⟩
  · rintro ⟨ended, m', more, hnext, hfeed, rfl⟩
    exact ⟨ended, m', hnext, more, m'', hfeed, rfl, rfl⟩

theorem feed_append_eq_some {m m'' : Mode} {s t : Str} {out : List Str} :
    feed m (s ++ t) = some (out, m'') ↔ ∃ a m' b, feed m s = some (a, m') ∧
      feed m' t = some (b, m'') ∧ out = a ++ b := by
  induction s generalizing m out with
  | nil => simp
  | cons c s ih =>
    rw [List.cons_append, feed_cons_eq_some]
    simp only [ih, feed_cons_eq_some]
    constructor
    · rintro ⟨e, m₁, _, hnext, ⟨a, m', b, hs, ht, rfl⟩, rfl⟩
      exact ⟨e ++ a, m', b, ⟨e, m₁, a, hnext, hs, rfl⟩, ht, (List.append_assoc ..).symm⟩
    · rintro ⟨_, m', b, ⟨e, m₁, a, hnext, hs, rfl⟩, ht, rfl⟩
      exact ⟨e, m₁, a ++ b, hnext, ⟨a, m', b, hs, ht, rfl⟩, List.append_assoc ..⟩

theorem words_eq_some {text : Str} {out : List Str} :
    words text = some out ↔ ∃ a m last, feed .gap text = some (a, m) ∧ finish m = some last ∧
      out = a ++ last := by
  unfold words
  simp only [Option.bind_eq_bind, Option.bind_eq_some_iff, Prod.exists, Option.some.injEq]
  constructor
  · rintro ⟨a, m, hfeed, last, hlast, rfl⟩
    exact ⟨a, m, last, hfeed, hlast, rfl⟩
  · rintro ⟨a, m, last, hfeed, hlast, rfl⟩
    exact ⟨a, m, hfeed, last, hlast, rfl⟩

/-- Behind a text that leaves the shell between words, the line begins anew. -/
theorem words_behind {s t : Str} {a out : List Str} (h : feed .gap s = some (a, .gap)) :
    words (s ++ t) = some (a ++ out) ↔ words t = some out := by
  simp only [words_eq_some, feed_append_eq_some]
  constructor
  · rintro ⟨_, m, last, ⟨a', m', b, hs, ht, rfl⟩, hlast, hout⟩
    rw [h] at hs
    cases hs
    exact ⟨b, m, last, ht, hlast, List.append_cancel_left (hout.trans (List.append_assoc ..))⟩
  · rintro ⟨b, m, last, ht, hlast, rfl⟩
    exact ⟨a ++ b, m, last, ⟨a, .gap, b, h, ht, rfl⟩, hlast, (List.append_assoc ..).symm⟩

/-! ## What becomes of the characters -/

/-- What is there of the word that is not ended, with a backslash that waits for its character. -/
def pending : Mode → Str
  | .gap => []
  | .gapEsc => ['\\']
  | .word w | .single w | .double w => w
  | .wordEsc w | .doubleEsc w => w ++ ['\\']

theorem finish_flatten {m : Mode} {last : List Str} (h : finish m = some last) :
    last.flatten = pending m := by
  cases m <;> cases h <;> simp [pending]

def drops (m : Mode) : Str → Str
  | [] => []
  | c :: t =>
    match next m c with
    | some (_, m') => dropped m c ++ drops m' t
    | none => []

/-- A backslash that goes away where no quote comes of it. -/
def spent (c : Char) (dr : Str) : Nat := if classify c = .double then 0 else dr.count '\\'

def wasted (m : Mode) : Str → Nat
  | [] => 0
  | c :: t =>
    match next m c with
    | some (_, m') => spent c (dropped m c) + wasted m' t
    | none => 0

theorem feed_cons_inv {m m'' : Mode} {c : Char} {t : Str} {out : List Str}
    (h : feed m (c :: t) = some (out, m'')) :
    ∃ ended m' dr more, Moves m c ended m' dr ∧ feed m' t = some (more, m'') ∧
      out = ended ++ more ∧ drops m (c :: t) = dr ++ drops m' t ∧
      wasted m (c :: t) = spent c dr + wasted m' t := by
  obtain ⟨ended, m', more, hnext, hfeed, hout⟩ := feed_cons_eq_some.mp h
  obtain ⟨dr, hdr, hmove⟩ := moves_of_next hnext
  refine ⟨ended, m', dr, more, hmove, hfeed, hout, ?_, ?_⟩
  · rw [drops, hnext, hdr]
  · rw [wasted, hnext, hdr]

/-- A step that ends no word. -/
theorem Moves.feed_eq {m m' : Mode} {c : Char} {dr : Str} (h : Moves m c [] m' dr) (t : Str) :
    feed m (c :: t) = feed m' t := by
  rw [feed, h.next_eq.1]
  simp only [Option.bind_eq_bind, Option.bind_some]
  cases feed m' t <;> rfl

theorem Moves.wasted_eq {m m' : Mode} {c : Char} {ended : List Str} {dr : Str}
    (h : Moves m c ended m' dr) (t : Str) : wasted m (c :: t) = spent c dr + wasted m' t := by
  rw [wasted, h.next_eq.1, h.next_eq.2]

/-- Every character is in a word or dropped. -/
theorem Moves.count {m m' : Mode} {c : Char} {ended : List Str} {dr : Str}
    (h : Moves m c ended m' dr) (p : Char → Bool) :
    ended.flatten.countP p + (pending m').countP p + dr.countP p =
      (pending m).countP p + [c].countP p := by
  cases h with
  | slash h | wordSlash h | doubleSlash h =>
    obtain rfl := classify_backslash.mp h
    simp [pending]
  | _ =>
    simp only [pending, List.countP_append, List.flatten_nil, List.flatten_cons, List.countP_nil,
      List.countP_cons, List.append_nil] <;> omega

theorem count_feed (p : Char → Bool) {m m' : Mode} {t : Str} {out : List Str}
    (h : feed m t = some (out, m')) :
    out.flatten.countP p + (pending m').countP p + (drops m t).countP p =
      (pending m).countP p + t.countP p := by
  induction t generalizing m out with
  | nil =>
    cases h
    simp [drops]
  | cons c t ih =>
    obtain ⟨ended, m₁, dr, more, hmove, hfeed, rfl, hdrops, -⟩ := feed_cons_inv h
    have hstep := hmove.count p
    have hrest := ih hfeed
    have hcons : (c :: t).countP p = [c].countP p + t.countP p := by
      rw [← List.countP_append, List.singleton_append]
    rw [hdrops, List.flatten_append, List.countP_append, List.countP_append]
    omega

/-- The characters that are never dropped. -/
def ordinary (c : Char) : Bool :=
  match classify c with
  | .expand | .active | .lead | .plain => true
  | _ => false

/-- The ordinary characters of a text, in their order. -/
def ord (s : Str) : Str := s.filter ordinary

@[simp] theorem ord_nil : ord [] = [] := rfl

@[simp] theorem ord_append (s t : Str) : ord (s ++ t) = ord s ++ ord t := List.filter_append ..

theorem ord_cons (c : Char) (t : Str) :
    ord (c :: t) = if ordinary c then c :: ord t else ord t := List.filter_cons ..

theorem ord_of_class {c : Char} (h : classify c = .blank ∨ classify c = .newline ∨
    classify c = .backslash ∨ classify c = .single ∨ classify c = .double) (t : Str) :
    ord (c :: t) = ord t := by
  rcases h with h | h | h | h | h <;> simp [ord_cons, ordinary, h]

theorem Moves.ord_eq {m m' : Mode} {c : Char} {ended : List Str} {dr : Str}
    (h : Moves m c ended m' dr) :
    ord ended.flatten ++ ord (pending m') = ord (pending m) ++ ord [c] := by
  have hslash : ∀ t, ord ('\\' :: t) = ord t := ord_of_class (by decide)
  cases h with
  | blank h | ends h => simp [pending, ord_of_class (.inl h)]
  | slash h | wordSlash h | doubleSlash h =>
    simp [pending, hslash, ord_of_class (.inr (.inr (.inl h)))]
  | openSingle h | wordSingle h | closeSingle h =>
    simp [pending, ord_of_class (.inr (.inr (.inr (.inl h))))]
  | openDouble h | wordDouble h | closeDouble h =>
    simp [pending, ord_of_class (.inr (.inr (.inr (.inr h))))]
  | goesOn h | wordGoesOn h | doubleGoesOn h =>
    simp [pending, hslash, ord_of_class (.inr (.inl h))]
  | _ => simp [pending, hslash]

theorem ord_feed {m m' : Mode} {t : Str} {out : List Str} (h : feed m t = some (out, m')) :
    ord out.flatten ++ ord (pending m') = ord (pending m) ++ ord t := by
  induction t generalizing m out with
  | nil =>
    cases h
    simp
  | cons c t ih =>
    obtain ⟨ended, m₁, dr, more, hmove, hfeed, rfl, -, -⟩ := feed_cons_inv h
    have hstep := hmove.ord_eq
    have hrest := ih hfeed
    rw [List.flatten_append, ord_append, List.append_assoc, hrest, ← List.append_assoc, hstep,
      List.append_assoc, ← ord_append, List.singleton_append]

/-! ## The word that is begun -/

/-- What is there of the word, if one is begun. -/
def begun : Mode → Option Str
  | .gap | .gapEsc => none
  | .word w | .wordEsc w | .single w | .double w | .doubleEsc w => some w

theorem Moves.begun_eq {m m' : Mode} {c : Char} {ended : List Str} {dr w : Str}
    (h : Moves m c ended m' dr) (hw : begun m = some w) :
    ended = [w] ∨ ended = [] ∧ ∃ w', begun m' = some w' ∧ w <+: w' := by
  cases h <;> cases hw <;> simp [begun]

/-- A word that is begun is the next word of the line. -/
theorem begun_grows {m m' : Mode} {t : Str} {out last : List Str} {w : Str}
    (hw : begun m = some w) (h : feed m t = some (out, m')) (hlast : finish m' = some last) :
    ∃ y rest, out ++ last = y :: rest ∧ w <+: y := by
  induction t generalizing m out w with
  | nil =>
    cases h
    cases m' <;> cases hw <;> cases hlast
    exact ⟨w, [], rfl, List.prefix_refl w⟩
  | cons c t ih =>
    obtain ⟨ended, m₁, dr, more, hmove, hfeed, rfl, -, -⟩ := feed_cons_inv h
    rcases hmove.begun_eq hw with rfl | ⟨rfl, w', hw', hpart⟩
    · exact ⟨w, more ++ last, rfl, List.prefix_refl w⟩
    · obtain ⟨y, rest, hout, hy⟩ := ih hw' hfeed
      exact ⟨y, rest, hout, hpart.trans hy⟩

/-- A plain character is always taken into the word. -/
theorem Moves.plain {d : Char} (hd : classify d = .plain) {m m' : Mode} {ended : List Str}
    {dr : Str} (h : Moves m d ended m' dr) :
    ended = [] ∧ ∃ v, begun m' = some (v ++ [d]) ∧ ord v = ord (pending m) ∧
      (begun m).getD [] <+: v := by
  have hslash : ord ['\\'] = [] := by decide
  cases h with
  | begins | grows | growsSingle | growsDouble =>
    exact ⟨rfl, _, rfl, rfl, List.prefix_refl _⟩
  | beginsQuoted => exact ⟨rfl, [], rfl, hslash.symm, List.prefix_refl _⟩
  | growsQuoted =>
    refine ⟨rfl, _, rfl, ?_, List.prefix_refl _⟩
    rw [pending, ord_append, hslash, List.append_nil]
  | @stays w =>
    refine ⟨rfl, w ++ ['\\'], ?_, rfl, List.prefix_append _ _⟩
    rw [begun, List.append_assoc, List.singleton_append]
  | _ => simp_all

/-- Behind a blank the shell is between words, or the blank is in the word. -/
theorem Moves.after_blank {m m' : Mode} {c : Char} {ended : List Str} {dr : Str}
    (hc : classify c = .blank) (h : Moves m c ended m' dr) :
    m' = .gap ∨ ∃ w, begun m' = some w ∧ w ≠ [] := by
  cases h <;> simp_all [begun]

/-! ## Where a line can be cut -/

theorem ord_plain {d : Char} (hd : classify d = .plain) (s : Str) :
    ord (d :: s) = d :: ord s := by
  simp [ord_cons, ordinary, hd]

/-- A plain character is in the next word of the line, behind what is there of it. -/
theorem word_of_plain {m m' : Mode} {t : Str} {b last : List Str} {d : Char}
    (hd : classify d = .plain) (h : feed m (d :: t) = some (b, m'))
    (hlast : finish m' = some last) :
    ∃ v z rest, b ++ last = (v ++ d :: z) :: rest ∧ ord v = ord (pending m) ∧
      (begun m).getD [] <+: v := by
  obtain ⟨_, m₁, dr, more, hmove, hfeed, rfl, -, -⟩ := feed_cons_inv h
  obtain ⟨rfl, v, hbegun, hv, hpart⟩ := hmove.plain hd
  obtain ⟨y, rest, hy, z, rfl⟩ := begun_grows hbegun hfeed hlast
  refine ⟨v, z, rest, ?_, hv, hpart⟩
  rw [List.nil_append, hy, List.append_assoc, List.singleton_append]

/-- A line whose words are known, in front of a plain character that begins one of them: if the
ordinary characters before it are those of the words before it, these words have ended there. -/
theorem cut_at_plain {m m' : Mode} {t₁ t₂ : Str} {a b last before after : List Str} {d : Char}
    {x : Str} (hd : classify d = .plain) (h₁ : feed .gap t₁ = some (a, m))
    (hblank : m = .gap ∨ ∃ w, begun m = some w ∧ w ≠ [])
    (h₂ : feed m (d :: t₂) = some (b, m')) (hlast : finish m' = some last)
    (hall : a ++ (b ++ last) = before ++ (d :: x) :: after)
    (hord : ord t₁ = ord before.flatten) : a = before ∧ m = .gap := by
  have hledger : ord a.flatten ++ ord (pending m) = ord before.flatten := by
    rw [ord_feed h₁, pending, ord_nil, List.nil_append, hord]
  obtain ⟨v, z, rest, hword, hv, hpart⟩ := word_of_plain hd h₂ hlast
  rw [hword] at hall
  have hsame : a = before := by
    have hlength := congrArg List.length hledger
    rcases List.append_eq_append_iff.mp hall with ⟨cs, rfl, hcs⟩ | ⟨cs, rfl, hcs⟩
    · cases cs with
      | nil => exact (List.append_nil a).symm
      | cons y' cs =>
        -- the character would be in one of the words before its own
        obtain ⟨rfl, -⟩ := List.cons.inj hcs
        simp [hv, ord_plain hd] at hlength
    · cases cs with
      | nil => exact List.append_nil before
      | cons y' cs =>
        -- its word would have ended before it
        obtain ⟨rfl, -⟩ := List.cons.inj hcs
        simp [ord_plain hd] at hlength
  subst hsame
  have hnone : ord v = [] := by
    rw [hv]
    simpa using hledger
  obtain ⟨hfirst, -⟩ := List.cons.inj (List.append_cancel_left hall)
  have hempty : v = [] := by
    cases v with
    | nil => rfl
    | cons c v =>
      obtain ⟨rfl, -⟩ := List.cons.inj hfirst
      rw [ord_plain hd] at hnone
      cases hnone
  refine ⟨rfl, hblank.resolve_right ?_⟩
  rintro ⟨w, hw, hne⟩
  rw [hempty, hw, Option.getD_some] at hpart
  exact hne (List.prefix_nil.mp hpart)

/-! ## Lines that go on -/

/-- What stands between two parts of a command: a blank, an end of line that does not count, and
two blanks. -/
def continued : Str := [' ', '\\', '\n', ' ', ' ']

theorem feed_continued_word (w : Str) : feed (.word w) continued = some ([w], .gap) := rfl

theorem feed_continued_single (w : Str) :
    feed (.single w) continued = some ([], .single (w ++ continued)) := by
  have hfeed : feed (.single w) continued =
      some ([], .single (w ++ [' '] ++ ['\\'] ++ ['\n'] ++ [' '] ++ [' '])) := rfl
  rw [hfeed]
  simp [continued]

theorem feed_continued_double (w : Str) :
    feed (.double w) continued = some ([], .double (w ++ [' '] ++ [' '] ++ [' '])) := rfl

/-- The text ends with a quote. -/
def Closed (text : Str) : Prop :=
  ∃ front c, text = front ++ [c] ∧ (classify c = .single ∨ classify c = .double)

/-- Behind a quote the shell is in a word or in quotes. -/
theorem Moves.after_quote {m m' : Mode} {c : Char} {ended : List Str} {dr : Str}
    (hc : classify c = .single ∨ classify c = .double) (h : Moves m c ended m' dr) :
    (∃ w, m' = .word w) ∨ (∃ w, m' = .single w) ∨ ∃ w, m' = .double w := by
  cases h <;> simp_all

theorem feed_concat_inv {m m' : Mode} {t : Str} {c : Char} {out : List Str}
    (h : feed m (t ++ [c]) = some (out, m')) : ∃ m₁ ended dr, Moves m₁ c ended m' dr := by
  obtain ⟨a, m₁, b, -, hlast, -⟩ := feed_append_eq_some.mp h
  obtain ⟨ended, m₂, dr, more, hmove, hnil, -, -, -⟩ := feed_cons_inv hlast
  cases hnil
  exact ⟨m₁, ended, dr, hmove⟩

theorem feed_closed {m m' : Mode} {text : Str} {out : List Str} (hclosed : Closed text)
    (h : feed m text = some (out, m')) :
    (∃ w, m' = .word w) ∨ (∃ w, m' = .single w) ∨ ∃ w, m' = .double w := by
  obtain ⟨front, c, rfl, hc⟩ := hclosed
  obtain ⟨m₁, ended, dr, hmove⟩ := feed_concat_inv h
  exact hmove.after_quote hc

/-- Behind a text that ends with a quote, the line goes on exactly if the text has its words. -/
theorem feed_continued_iff {text : Str} {out : List Str} (hclosed : Closed text) :
    feed .gap (text ++ continued) = some (out, .gap) ↔ words text = some out := by
  rw [feed_append_eq_some, words_eq_some]
  constructor
  · rintro ⟨a, m, b, hfeed, hcontinued, rfl⟩
    rcases feed_closed hclosed hfeed with ⟨w, rfl⟩ | ⟨w, rfl⟩ | ⟨w, rfl⟩
    · rw [feed_continued_word] at hcontinued
      cases hcontinued
      exact ⟨a, .word w, [w], hfeed, rfl, rfl⟩
    · rw [feed_continued_single] at hcontinued
      cases hcontinued
    · rw [feed_continued_double] at hcontinued
      cases hcontinued
  · rintro ⟨a, m, last, hfeed, hlast, rfl⟩
    rcases feed_closed hclosed hfeed with ⟨w, rfl⟩ | ⟨w, rfl⟩ | ⟨w, rfl⟩
    · cases hlast
      exact ⟨a, .word w, [w], hfeed, feed_continued_word w, rfl⟩
    · cases hlast
    · cases hlast

/-- A part of a command and the words that it should have: the same ordinary characters, and a
quote at the end. -/
structure Part where
  text : Str
  words : List Str
  same : ord text = ord words.flatten
  closed : Closed text

/-- The part and its first word begin with the same plain character. -/
def Part.Led (p : Part) : Prop :=
  ∃ d t x rest, classify d = .plain ∧ p.text = d :: t ∧ p.words = (d :: x) :: rest

theorem ord_continued : ord continued = [] := by decide

theorem feed_last_blank {m m' : Mode} {t : Str} {out : List Str}
    (h : feed m (t ++ continued) = some (out, m')) :
    m' = .gap ∨ ∃ w, begun m' = some w ∧ w ≠ [] := by
  have hsplit : t ++ continued = (t ++ [' ', '\\', '\n', ' ']) ++ [' '] := by simp [continued]
  rw [hsplit] at h
  obtain ⟨m₁, ended, dr, hmove⟩ := feed_concat_inv h
  exact hmove.after_blank (by decide)

/-- A part, and a line behind it that begins with a plain character. -/
theorem words_continued (p : Part) {d : Char} {t x : Str} {rest : List Str}
    (hd : classify d = .plain) :
    words (p.text ++ continued ++ d :: t) = some (p.words ++ (d :: x) :: rest) ↔
      words p.text = some p.words ∧ words (d :: t) = some ((d :: x) :: rest) := by
  rw [← feed_continued_iff p.closed]
  constructor
  · intro h
    obtain ⟨out, m', last, hfeed, hlast, hout⟩ := words_eq_some.mp h
    obtain ⟨a, m, b, h₁, h₂, rfl⟩ := feed_append_eq_some.mp hfeed
    rw [List.append_assoc] at hout
    obtain ⟨rfl, rfl⟩ := cut_at_plain hd h₁ (feed_last_blank h₁) h₂ hlast hout.symm (by
      rw [ord_append, ord_continued, List.append_nil, p.same])
    refine ⟨h₁, words_eq_some.mpr ⟨b, m', last, h₂, hlast, ?_⟩⟩
    exact List.append_cancel_left hout
  · rintro ⟨h₁, h₂⟩
    exact (words_behind h₁).mpr h₂

/-- A command in parts has its words exactly if every part has. -/
theorem words_joined (p : Part) (more : List Part) (hled : ∀ q ∈ more, q.Led) :
    words (continued.intercalate ((p :: more).map Part.text)) =
        some ((p :: more).flatMap Part.words) ↔
      ∀ q ∈ p :: more, words q.text = some q.words := by
  induction more generalizing p with
  | nil => simp
  | cons q more ih =>
    obtain ⟨d, t, x, rest, hd, htext, hwords⟩ := hled q List.mem_cons_self
    have hrest := ih q fun r hr => hled r (List.mem_cons_of_mem q hr)
    obtain ⟨t', ht'⟩ : ∃ t', continued.intercalate ((q :: more).map Part.text) = d :: t' := by
      cases more with
      | nil => exact ⟨t, by simp [htext]⟩
      | cons r more => simp [htext, List.intercalate_cons_cons]
    obtain ⟨rest', hrest'⟩ : ∃ rest', (q :: more).flatMap Part.words = (d :: x) :: rest' := by
      simp [hwords]
    rw [ht', hrest'] at hrest
    rw [List.map_cons, List.map_cons, List.intercalate_cons_cons, ← List.map_cons, ht',
      List.flatMap_cons, hrest', words_continued p hd, hrest]
    simp only [List.forall_mem_cons]

/-- A command in parts has the ordinary characters of its words. -/
theorem ord_joined (ps : List Part) :
    ord (continued.intercalate (ps.map Part.text)) = ord (ps.flatMap Part.words).flatten := by
  induction ps with
  | nil => rfl
  | cons p ps ih =>
    cases ps with
    | nil => simpa using p.same
    | cons q ps =>
      have hwords : (p :: q :: ps).flatMap Part.words = p.words ++ (q :: ps).flatMap Part.words :=
        List.flatMap_cons
      rw [List.map_cons, List.map_cons, List.intercalate_cons_cons, ← List.map_cons, ord_append,
        ord_append, ih, ord_continued, p.same, hwords, List.flatten_append, ord_append,
        List.append_nil]

theorem ord_words {text : Str} {out : List Str} (h : words text = some out) :
    ord out.flatten = ord text := by
  obtain ⟨a, m, last, hfeed, hlast, rfl⟩ := words_eq_some.mp h
  have hledger := ord_feed hfeed
  rw [← finish_flatten hlast] at hledger
  simpa [pending] using hledger

/-! ## Quotes and the backslashes in front of them -/

def inSingle : Mode → Bool
  | .single _ => true
  | _ => false

section moves

variable {m m' : Mode} {c : Char} {ended : List Str} {dr : Str} (h : Moves m c ended m' dr)
include h

/-- A step drops its own character and the backslash in front of it, nothing else. -/
theorem Moves.mem_dropped {x : Char} (hx : x ∈ dr) : x = c ∨ x = '\\' := by
  cases h <;> simp_all [or_comm]

theorem Moves.inSingle_eq (hm : inSingle m = false) (hdr : '\'' ∉ dr) : inSingle m' = false := by
  cases h <;> simp_all [inSingle, classify_single]

/-- Every double quote goes away itself or takes the backslash in front of it away. -/
theorem Moves.quotes (hm : inSingle m = false) :
    [c].count '"' + spent c dr = dr.count '"' + dr.count '\\' := by
  by_cases hc : classify c = .double
  · obtain rfl := classify_double.mp hc
    cases h <;> simp_all [spent, inSingle]
  · have hne : c ≠ '"' := fun h => hc (classify_double.mpr h)
    have hnone : dr.count '"' = 0 := by
      rw [List.count_eq_zero]
      intro hmem
      rcases h.mem_dropped hmem with hsame | hslash
      · exact hne hsame.symm
      · exact absurd hslash (by decide)
    rw [hnone, spent, if_neg hc, List.count_singleton]
    simp [hne]

/-- An end of line goes away with the backslash in front of it. -/
theorem Moves.newlines : dr.count '\n' ≤ spent c dr := by
  by_cases hc : classify c = .newline
  · obtain rfl := classify_newline.mp hc
    cases h <;> simp_all [spent]
  · have hnone : dr.count '\n' = 0 := by
      rw [List.count_eq_zero]
      intro hmem
      rcases h.mem_dropped hmem with hsame | hslash
      · exact hc (classify_newline.mpr hsame.symm)
      · exact absurd hslash (by decide)
    rw [hnone]
    exact Nat.zero_le _

end moves

theorem quotes_feed {m m' : Mode} {t : Str} {out : List Str} (hm : inSingle m = false)
    (h : feed m t = some (out, m')) (hsingle : (drops m t).count '\'' = 0) :
    t.count '"' + wasted m t = (drops m t).count '"' + (drops m t).count '\\' := by
  induction t generalizing m out with
  | nil => rfl
  | cons c t ih =>
    obtain ⟨ended, m₁, dr, more, hmove, hfeed, rfl, hdrops, hwasted⟩ := feed_cons_inv h
    rw [hdrops, List.count_append] at hsingle
    have hstep := hmove.quotes hm
    have hquiet := hmove.inSingle_eq hm (List.count_eq_zero.mp (by omega))
    have hrest := ih hquiet hfeed (by omega)
    rw [hdrops, hwasted, List.count_append, List.count_append,
      ← List.singleton_append, List.count_append]
    omega

theorem newlines_feed {m m' : Mode} {t : Str} {out : List Str} (h : feed m t = some (out, m')) :
    (drops m t).count '\n' ≤ wasted m t := by
  induction t generalizing m out with
  | nil => exact Nat.le_refl 0
  | cons c t ih =>
    obtain ⟨ended, m₁, dr, more, hmove, hfeed, rfl, hdrops, hwasted⟩ := feed_cons_inv h
    have hstep := hmove.newlines
    have hrest := ih hfeed
    rw [hdrops, hwasted, List.count_append]
    omega

/-- The characters of a text are those of its words and those that are dropped. -/
theorem count_words (x : Char) {text : Str} {out : List Str} (h : words text = some out) :
    out.flatten.count x + (drops .gap text).count x = text.count x := by
  obtain ⟨a, m, last, hfeed, hlast, rfl⟩ := words_eq_some.mp h
  have hledger := count_feed (· == x) hfeed
  rw [List.flatten_append, finish_flatten hlast, List.count_append]
  simpa [pending, List.count] using hledger

/-! ## Texts in double quotes -/

/-- A text with a backslash in front of each double quote. -/
def escaped (v : Str) : Str := v.flatMap fun c => if c = '"' then ['\\', '"'] else [c]

theorem escaped_cons (c : Char) (v : Str) :
    escaped (c :: v) = (if c = '"' then ['\\', '"'] else [c]) ++ escaped v := List.flatMap_cons

theorem escaped_quote (v : Str) : escaped ('"' :: v) = '\\' :: '"' :: escaped v := rfl

theorem escaped_append (v v' : Str) : escaped (v ++ v') = escaped v ++ escaped v' :=
  List.flatMap_append

theorem escaped_eq_self {v : Str} (h : '"' ∉ v) : escaped v = v := by
  induction v with
  | nil => rfl
  | cons c v ih =>
    rw [List.mem_cons, not_or] at h
    rw [escaped_cons, if_neg (Ne.symm h.1), ih h.2, List.singleton_append]

theorem count_escaped (x : Char) (v : Str) :
    (escaped v).count x = v.count x + if x = '\\' then v.count '"' else 0 := by
  induction v with
  | nil => simp [escaped]
  | cons c v ih =>
    rw [escaped_cons, List.count_append, ih]
    by_cases hc : c = '"'
    · subst hc
      by_cases hx : x = '\\'
      · subst hx
        simp
        omega
      · have hne : '\\' ≠ x := Ne.symm hx
        simp only [if_true, if_neg hx, List.count_cons, List.count_nil, beq_iff_eq, if_neg hne]
        omega
    · simp only [if_neg hc, List.count_cons, List.count_nil, beq_iff_eq, Nat.add_zero]
      omega

/-- A backslash in double quotes stays in front of this text. -/
def keeps : Str → Bool
  | [] => false
  | d :: _ =>
    match classify d with
    | .newline | .backslash | .double | .expand => false
    | _ => true

/-- A text that nothing happens to in double quotes, once its double quotes have backslashes. -/
def inert : Str → Bool
  | [] => true
  | c :: v =>
    (match classify c with
      | .expand => false
      | .backslash => keeps v
      | _ => true) && inert v

theorem keeps_iff {d : Char} {rest : Str} : keeps (d :: rest) = true ↔ classify d ≠ .newline ∧
    classify d ≠ .expand ∧ classify d ≠ .double ∧ classify d ≠ .backslash := by
  cases hd : classify d <;> simp [keeps, hd]

theorem escaped_keeps {d : Char} {rest : Str} (h : keeps (d :: rest) = true) :
    escaped (d :: rest) = d :: escaped rest := by
  have hne : d ≠ '"' := fun hd => (keeps_iff.mp h).2.2.1 (classify_double.mpr hd)
  rw [escaped_cons, if_neg hne, List.singleton_append]

/-- A backslash that stays is a character of the word. -/
theorem feed_behind_backslash {v : Str} (h : keeps v = true) (w t : Str) :
    feed (.doubleEsc w) (escaped v ++ t) = feed (.double (w ++ ['\\'])) (escaped v ++ t) ∧
      wasted (.doubleEsc w) (escaped v ++ t) =
        wasted (.double (w ++ ['\\'])) (escaped v ++ t) := by
  cases v with
  | nil => cases h
  | cons d rest =>
    obtain ⟨hnewline, hexpand, hdouble, hslash⟩ := keeps_iff.mp h
    have hstays : Moves (.doubleEsc w) d [] (.double (w ++ ['\\', d])) [] :=
      .stays hnewline hexpand hdouble hslash
    have hgrows := Moves.growsDouble (w := w ++ ['\\']) hdouble hslash hexpand
    rw [List.append_assoc] at hgrows
    rw [escaped_keeps h, List.cons_append]
    constructor
    · exact (hstays.feed_eq _).trans (hgrows.feed_eq _).symm
    · exact (hstays.wasted_eq _).trans (hgrows.wasted_eq _).symm

theorem moves_slash (w : Str) : Moves (.double w) '\\' [] (.doubleEsc w) [] := .doubleSlash rfl

theorem moves_quote (w : Str) : Moves (.doubleEsc w) '"' [] (.double (w ++ ['"'])) ['\\'] :=
  .taken (.inr (.inl rfl))

theorem inert_cons {c : Char} {v : Str} : inert (c :: v) = true ↔
    classify c ≠ .expand ∧ (classify c = .backslash → keeps v = true) ∧ inert v = true := by
  cases hc : classify c <;> simp [inert, hc]

theorem feed_escaped {v : Str} (h : inert v = true) (w : Str) :
    feed (.double w) (escaped v) = some ([], .double (w ++ v)) := by
  induction v generalizing w with
  | nil => simp [escaped]
  | cons c v ih =>
    obtain ⟨hexpand, hbackslash, hv⟩ := inert_cons.mp h
    by_cases hc : c = '"'
    · subst hc
      rw [escaped_quote, (moves_slash w).feed_eq, (moves_quote w).feed_eq, ih hv,
        List.append_assoc]
      rfl
    · rw [escaped_cons, if_neg hc, List.singleton_append]
      by_cases hslash : c = '\\'
      · subst hslash
        have hbehind := (feed_behind_backslash (hbackslash rfl) w []).1
        rw [List.append_nil] at hbehind
        rw [(moves_slash w).feed_eq, hbehind, ih hv, List.append_assoc]
        rfl
      · have hgrows : Moves (.double w) c [] (.double (w ++ [c])) [] :=
          .growsDouble (mt classify_double.mp hc) (mt classify_backslash.mp hslash) hexpand
        rw [hgrows.feed_eq, ih hv, List.append_assoc]
        rfl

/-- Behind a backslash that is not wasted there is a quote, or the backslash stays. -/
theorem Moves.unspent {m' : Mode} {w : Str} {c : Char} {ended : List Str} {dr : Str}
    (h : Moves (.doubleEsc w) c ended m' dr) (hspent : spent c dr = 0) :
    classify c = .double ∨ keeps [c] = true := by
  cases h with
  | doubleGoesOn h => simp [spent, h] at hspent
  | taken h =>
    rcases h with h | h | h
    · simp [spent, h] at hspent
    · exact .inl h
    · simp [spent, h] at hspent
  | stays hnewline hexpand hdouble hslash =>
    exact .inr (keeps_iff.mpr ⟨hnewline, hexpand, hdouble, hslash⟩)

theorem keeps_of_wasted {w v : Str} {a last : List Str} {m : Mode}
    (h : feed (.doubleEsc w) (escaped v ++ ['"']) = some (a, m)) (hlast : finish m = some last)
    (hwasted : wasted (.doubleEsc w) (escaped v ++ ['"']) = 0) : keeps v = true := by
  cases v with
  | nil =>
    cases h
    cases hlast
  | cons d rest =>
    by_cases hd : d = '"'
    · -- the backslash would take away the one in front of the quote
      subst hd
      rw [escaped_quote, List.cons_append] at h hwasted
      obtain ⟨ended, m₁, dr, more, hmove, -, -, -, hsum⟩ := feed_cons_inv h
      rcases hmove.unspent (by omega) with hclass | hkeeps
      · cases hclass
      · cases hkeeps
    · rw [escaped_cons, if_neg hd, List.singleton_append, List.cons_append] at h hwasted
      obtain ⟨ended, m₁, dr, more, hmove, -, -, -, hsum⟩ := feed_cons_inv h
      rcases hmove.unspent (by omega) with hclass | hkeeps
      · exact absurd (classify_double.mp hclass) hd
      · exact hkeeps

/-- Where no backslash is wasted and the quotes are closed, nothing happens to the text. -/
theorem inert_of_wasted {w v : Str} {a last : List Str} {m : Mode}
    (h : feed (.double w) (escaped v ++ ['"']) = some (a, m)) (hlast : finish m = some last)
    (hwasted : wasted (.double w) (escaped v ++ ['"']) = 0) : inert v = true := by
  induction v generalizing w a with
  | nil => rfl
  | cons c v ih =>
    by_cases hc : c = '"'
    · subst hc
      rw [escaped_quote, List.cons_append, List.cons_append] at h hwasted
      rw [(moves_slash w).feed_eq, (moves_quote w).feed_eq] at h
      rw [(moves_slash w).wasted_eq, (moves_quote w).wasted_eq] at hwasted
      exact inert_cons.mpr ⟨nofun, nofun, ih h (by omega)⟩
    · rw [escaped_cons, if_neg hc, List.singleton_append, List.cons_append] at h hwasted
      obtain ⟨ended, m₁, dr, more, hmove, hrest, -, -, hsum⟩ := feed_cons_inv h
      rw [hsum] at hwasted
      cases hmove with
      | closeDouble hclass => exact absurd (classify_double.mp hclass) hc
      | doubleSlash hclass =>
        have hkeeps := keeps_of_wasted hrest hlast (by omega)
        obtain ⟨hfeed, hsame⟩ := feed_behind_backslash hkeeps w ['"']
        rw [hfeed] at hrest
        rw [hsame] at hwasted
        refine inert_cons.mpr ⟨?_, fun _ => hkeeps, ih hrest (by omega)⟩
        rw [hclass]
        nofun
      | growsDouble _ hslash hexpand =>
        exact inert_cons.mpr ⟨hexpand, fun h => absurd h hslash, ih hrest (by omega)⟩

def doubleQuoted (t : Str) : Str := '"' :: (t ++ ['"'])

theorem count_doubleQuoted (x : Char) (t : Str) :
    (doubleQuoted t).count x = t.count x + if x = '"' then 2 else 0 := by
  by_cases hx : x = '"'
  · subst hx
    simp [doubleQuoted]
  · simp [doubleQuoted, hx, Ne.symm hx]

/-- A text in double quotes, with backslashes in front of the quotes in its second half only. -/
theorem words_doubleQuoted_iff (k v : Str) :
    words (doubleQuoted (k ++ escaped v)) = some [k ++ v] ↔ '"' ∉ k ∧ inert (k ++ v) = true := by
  constructor
  · intro h
    have hcount : ∀ x, (k ++ v).count x + (drops .gap (doubleQuoted (k ++ escaped v))).count x =
        (doubleQuoted (k ++ escaped v)).count x := by
      intro x
      have hledger := count_words x h
      rwa [List.flatten_singleton] at hledger
    simp only [count_doubleQuoted, List.count_append, count_escaped] at hcount
    have hdouble := hcount '"'
    have hsingle := hcount '\''
    have hslash := hcount '\\'
    simp only [reduceIte, Char.reduceEq] at hdouble hsingle hslash
    obtain ⟨a, m, last, hfeed, hlast, -⟩ := words_eq_some.mp h
    have hquotes := quotes_feed rfl hfeed (by omega)
    rw [count_doubleQuoted, List.count_append, count_escaped] at hquotes
    simp only [reduceIte, Char.reduceEq] at hquotes
    have hk : '"' ∉ k := List.count_eq_zero.mp (by omega)
    have hself : k ++ escaped v = escaped (k ++ v) := by rw [escaped_append, escaped_eq_self hk]
    rw [hself] at hfeed hquotes hdouble hslash
    obtain ⟨_, _, more, hopen, hrest, -⟩ := feed_cons_eq_some.mp hfeed
    cases hopen
    refine ⟨hk, inert_of_wasted hrest hlast ?_⟩
    have hwasted : wasted .gap (doubleQuoted (escaped (k ++ v))) =
        0 + wasted (.double []) (escaped (k ++ v) ++ ['"']) := rfl
    omega
  · rintro ⟨hk, hinert⟩
    have hself : k ++ escaped v = escaped (k ++ v) := by rw [escaped_append, escaped_eq_self hk]
    have hfeed := feed_escaped hinert []
    rw [List.nil_append] at hfeed
    rw [hself, words_eq_some]
    refine ⟨[], .word (k ++ v), [k ++ v], ?_, rfl, rfl⟩
    refine feed_cons_eq_some.mpr ⟨[], .double [], [], rfl, ?_, rfl⟩
    exact feed_append_eq_some.mpr ⟨[], .double (k ++ v), [], hfeed, rfl, rfl⟩

theorem words_doubleQuoted_self_iff (u : Str) :
    words (doubleQuoted u) = some [u] ↔ '"' ∉ u ∧ inert u = true := by
  simpa [escaped] using words_doubleQuoted_iff u []

theorem ord_escaped (v : Str) : ord (escaped v) = ord v := by
  induction v with
  | nil => rfl
  | cons c v ih =>
    rw [escaped_cons, ord_append, ih]
    by_cases hc : c = '"'
    · subst hc
      rfl
    · rw [if_neg hc, ← ord_append, List.singleton_append]

theorem ord_doubleQuoted (t : Str) : ord (doubleQuoted t) = ord t := by
  have hquote : ord ['"'] = [] := by decide
  change ord (['"'] ++ (t ++ ['"'])) = ord t
  rw [ord_append, ord_append, hquote, List.nil_append, List.append_nil]

theorem closed_doubleQuoted (s t : Str) : Closed (s ++ doubleQuoted t) :=
  ⟨s ++ '"' :: t, '"', by simp [doubleQuoted], .inr (by decide)⟩

/-! ## Texts in single quotes -/

/-- A text in which each single quote closes the quotes, stands behind a backslash and opens the
quotes again. -/
def requoted (b : Str) : Str :=
  b.flatMap fun c => if c = '\'' then ['\'', '\\', '\'', '\''] else [c]

theorem requoted_cons (c : Char) (b : Str) :
    requoted (c :: b) = (if c = '\'' then ['\'', '\\', '\'', '\''] else [c]) ++ requoted b :=
  List.flatMap_cons

theorem feed_requoted (b w : Str) :
    feed (.single w) (requoted b) = some ([], .single (w ++ b)) := by
  induction b generalizing w with
  | nil => simp [requoted]
  | cons c b ih =>
    have hrest := ih (w ++ [c])
    rw [List.append_assoc, List.singleton_append] at hrest
    rw [requoted_cons]
    refine feed_append_eq_some.mpr ⟨[], .single (w ++ [c]), [], ?_, hrest, rfl⟩
    by_cases hc : c = '\''
    · subst hc
      rfl
    · rw [if_neg hc]
      exact (Moves.growsSingle (mt classify_single.mp hc)).feed_eq []

def singleQuoted (t : Str) : Str := '\'' :: (t ++ ['\''])

/-- Any text comes through single quotes. -/
theorem words_singleQuoted (b : Str) : words (singleQuoted (requoted b)) = some [b] := by
  rw [words_eq_some]
  refine ⟨[], .word b, [b], ?_, rfl, rfl⟩
  refine feed_cons_eq_some.mpr ⟨[], .single [], [], rfl, ?_, rfl⟩
  exact feed_append_eq_some.mpr ⟨[], .single b, [], feed_requoted b [], rfl, rfl⟩

theorem ord_requoted (b : Str) : ord (requoted b) = ord b := by
  induction b with
  | nil => rfl
  | cons c b ih =>
    rw [requoted_cons, ord_append, ih]
    by_cases hc : c = '\''
    · subst hc
      rfl
    · rw [if_neg hc, ← ord_append, List.singleton_append]

theorem ord_singleQuoted (t : Str) : ord (singleQuoted t) = ord t := by
  have hquote : ord ['\''] = [] := by decide
  change ord (['\''] ++ (t ++ ['\''])) = ord t
  rw [ord_append, ord_append, hquote, List.nil_append, List.append_nil]

theorem closed_singleQuoted (s t : Str) : Closed (s ++ singleQuoted t) :=
  ⟨s ++ '\'' :: t, '\'', by simp [singleQuoted], .inl (by decide)⟩

/-! ## Texts without quotes -/

/-- A text that is a word as it stands. -/
def bare : Str → Bool
  | [] => false
  | c :: t => classify c = .plain && t.all fun d => classify d = .plain ∨ classify d = .lead

theorem feed_word_bare {t : Str} (h : ∀ d ∈ t, classify d = .plain ∨ classify d = .lead) (w : Str) :
    feed (.word w) t = some ([], .word (w ++ t)) := by
  induction t generalizing w with
  | nil => simp
  | cons c t ih =>
    have hrest := ih (fun d hd => h d (List.mem_cons_of_mem c hd)) (w ++ [c])
    rw [(Moves.grows (h c List.mem_cons_self)).feed_eq, hrest, List.append_assoc]
    rfl

theorem feed_bare {t : Str} (h : bare t = true) : feed .gap t = some ([], .word t) := by
  cases t with
  | nil => cases h
  | cons c t =>
    obtain ⟨hc, ht⟩ : classify c = .plain ∧ ∀ d ∈ t, classify d = .plain ∨ classify d = .lead := by
      simpa [bare] using h
    rw [(Moves.begins hc).feed_eq]
    exact feed_word_bare ht [c]

def unquoted : Mode → Bool
  | .gap | .gapEsc | .word _ | .wordEsc _ => true
  | _ => false

theorem Moves.unquoted_eq {m m' : Mode} {c : Char} {ended : List Str} {dr : Str}
    (h : Moves m c ended m' dr) (hm : unquoted m = true) (hdouble : '"' ≠ c)
    (hsingle : '\'' ∉ dr) : unquoted m' = true := by
  cases h <;> simp_all [unquoted, classify_single, classify_double]

theorem unquoted_feed {m m' : Mode} {t : Str} {out : List Str} (hm : unquoted m = true)
    (hdouble : '"' ∉ t) (hsingle : '\'' ∉ drops m t) (h : feed m t = some (out, m')) :
    unquoted m' = true := by
  induction t generalizing m out with
  | nil =>
    cases h
    exact hm
  | cons c t ih =>
    obtain ⟨ended, m₁, dr, more, hmove, hfeed, rfl, hdrops, -⟩ := feed_cons_inv h
    rw [hdrops, List.mem_append, not_or] at hsingle
    rw [List.mem_cons, not_or] at hdouble
    exact ih (hmove.unquoted_eq hm hdouble.1 hsingle.1) hdouble.2 hsingle.2 hfeed

theorem drops_append {m m' : Mode} {s : Str} {out : List Str} (h : feed m s = some (out, m'))
    (t : Str) : drops m (s ++ t) = drops m s ++ drops m' t := by
  induction s generalizing m out with
  | nil =>
    cases h
    rfl
  | cons c s ih =>
    obtain ⟨ended, m₁, more, hnext, hfeed, rfl⟩ := feed_cons_eq_some.mp h
    simp only [List.cons_append, drops, hnext, ih hfeed, List.append_assoc]

/-- Outside of quotes the character behind a backslash takes it away. -/
theorem stop_of_undropped {m m' : Mode} {t : Str} {out : List Str}
    (hm : m = .gapEsc ∨ ∃ w, m = .wordEsc w) (h : feed m t = some (out, m'))
    (hdrops : drops m t = []) : m' = m := by
  cases t with
  | nil =>
    cases h
    rfl
  | cons c t =>
    obtain ⟨ended, m₁, dr, more, hmove, -, -, hsplit, -⟩ := feed_cons_inv h
    rw [hdrops] at hsplit
    rcases hm with rfl | ⟨w, rfl⟩ <;> cases hmove <;> cases hsplit

theorem plain_of_undropped {m' : Mode} {t : Str} {out : List Str} {w : Str}
    (hend : ∀ w', m' ≠ .wordEsc w') (h : feed (.word w) t = some (out, m'))
    (hdrops : drops (.word w) t = []) : ∀ d ∈ t, classify d = .plain ∨ classify d = .lead := by
  induction t generalizing w out with
  | nil => simp
  | cons c t ih =>
    obtain ⟨ended, m₁, dr, more, hmove, hfeed, -, hsplit, -⟩ := feed_cons_inv h
    rw [hdrops] at hsplit
    cases hmove with
    | wordSlash => exact absurd (stop_of_undropped (.inr ⟨w, rfl⟩) hfeed hsplit.symm) (hend w)
    | grows hc => exact List.forall_mem_cons.mpr ⟨hc, ih hfeed hsplit.symm⟩
    | _ => cases hsplit

/-- A text that the shell takes whole is a word as it stands. -/
theorem bare_of_undropped {m' : Mode} {t : Str} {out : List Str} (hgap : m' ≠ .gapEsc)
    (hend : ∀ w', m' ≠ .wordEsc w') (h : feed .gap t = some (out, m'))
    (hdrops : drops .gap t = []) : t = [] ∨ bare t = true := by
  cases t with
  | nil => exact .inl rfl
  | cons c t =>
    obtain ⟨ended, m₁, dr, more, hmove, hfeed, -, hsplit, -⟩ := feed_cons_inv h
    rw [hdrops] at hsplit
    refine .inr ?_
    cases hmove with
    | slash => exact absurd (stop_of_undropped (.inl rfl) hfeed hsplit.symm) hgap
    | begins hc => simpa [bare, hc] using plain_of_undropped hend hfeed hsplit.symm
    | _ => cases hsplit

def inDouble : Mode → Bool
  | .double _ | .doubleEsc _ => true
  | _ => false

theorem inDouble_feed {m m' : Mode} {t : Str} {out : List Str} (hm : inDouble m = true)
    (hdouble : '"' ∉ t) (h : feed m t = some (out, m')) : out = [] ∧ inDouble m' = true := by
  induction t generalizing m out with
  | nil =>
    cases h
    exact ⟨rfl, hm⟩
  | cons c t ih =>
    obtain ⟨ended, m₁, dr, more, hmove, hfeed, rfl, -, -⟩ := feed_cons_inv h
    rw [List.mem_cons, not_or] at hdouble
    have hstep : ended = [] ∧ inDouble m₁ = true := by
      cases hmove <;> simp_all [inDouble, classify_double]
    obtain ⟨rfl, hm₁⟩ := hstep
    exact ih hm₁ hdouble.2 hfeed

/-- A text without double quotes is one word in them. -/
theorem length_words_doubleQuoted {u : Str} {out : List Str} (hdouble : '"' ∉ u)
    (h : words (doubleQuoted u) = some out) : out.length = 1 := by
  obtain ⟨a, m, last, hfeed, hlast, rfl⟩ := words_eq_some.mp h
  obtain ⟨_, _, more, hopen, hrest, rfl⟩ := feed_cons_eq_some.mp hfeed
  cases hopen
  obtain ⟨b, m₁, c, hu, hclose, rfl⟩ := feed_append_eq_some.mp hrest
  obtain ⟨rfl, hm₁⟩ := inDouble_feed rfl hdouble hu
  cases m₁ <;> cases hm₁ <;> cases hclose <;> cases hlast
  rfl

/-- Outside of quotes a line that goes on is dropped, but for a blank behind a backslash. -/
theorem drops_continued {m : Mode} (hm : unquoted m = true) :
    drops m continued = continued ∧ m ≠ .gapEsc ∧ (∀ w, m ≠ .wordEsc w) ∨
      (drops m continued).count '\\' = 2 := by
  cases m with
  | gap => exact .inl ⟨rfl, by simp, by simp⟩
  | word w => exact .inl ⟨rfl, by simp, by simp⟩
  | gapEsc => exact .inr rfl
  | wordEsc w => exact .inr rfl
  | single w => cases hm
  | double w => cases hm
  | doubleEsc w => cases hm

section separated

variable {t u : Str} (h : words (t ++ continued ++ doubleQuoted u) = some [t, u])
include h

/-- If a text and a second one in double quotes are two words, what is between them and the quotes
are dropped. -/
theorem drops_separated :
    (drops .gap (t ++ continued ++ doubleQuoted u)).Perm (continued ++ doubleQuoted []) := by
  rw [List.perm_iff_count]
  intro x
  have hledger := count_words x h
  simp only [List.flatten_cons, List.flatten_nil, List.append_nil, List.count_append,
    count_doubleQuoted, List.count_nil] at hledger ⊢
  omega

theorem no_quotes_separated : '"' ∉ t ∧ '"' ∉ u := by
  obtain ⟨a, m, last, hfeed, -, -⟩ := words_eq_some.mp h
  have hdrops := (drops_separated h).count_eq
  have hsingle : _ = 0 := hdrops '\''
  have hdouble : _ = 2 := hdrops '"'
  have hslash : _ = 1 := hdrops '\\'
  have hnewline : _ = 1 := hdrops '\n'
  have hquotes := quotes_feed rfl hfeed hsingle
  have hwasted := newlines_feed hfeed
  rw [List.count_append, List.count_append, count_doubleQuoted, if_pos rfl] at hquotes
  rw [← List.count_eq_zero, ← List.count_eq_zero]
  omega

theorem bare_of_separated : t = [] ∨ bare t = true := by
  obtain ⟨ht, -⟩ := no_quotes_separated h
  have hdrops := drops_separated h
  obtain ⟨a, m, last, hfeed, -, -⟩ := words_eq_some.mp h
  rw [List.append_assoc] at hfeed hdrops
  obtain ⟨a₁, m₁, b₁, h₁, hrest, -⟩ := feed_append_eq_some.mp hfeed
  obtain ⟨a₂, m₂, b₂, h₂, h₃, -⟩ := feed_append_eq_some.mp hrest
  rw [drops_append h₁, drops_append h₂] at hdrops
  have hsingle : _ = 0 := hdrops.count_eq '\''
  have hdouble : _ = 2 := hdrops.count_eq '"'
  have hslash : _ = 1 := hdrops.count_eq '\\'
  have hlength : _ = 7 := hdrops.length_eq
  simp only [List.count_append, List.length_append] at hsingle hdouble hslash hlength
  have hunquoted := unquoted_feed rfl ht (List.count_eq_zero.mp (by omega)) h₁
  rcases drops_continued hunquoted with ⟨hcontinued, hgap, hend⟩ | htwo
  · refine bare_of_undropped hgap hend h₁ (List.eq_nil_of_length_eq_zero ?_)
    -- the two quotes that are dropped are those around the second text
    have hnone : a₁.flatten.count '"' + (pending m₁).count '"' + (drops .gap t).count '"' =
        0 + t.count '"' := count_feed (· == '"') h₁
    rw [List.count_eq_zero.mpr ht] at hnone
    have hquotes := List.count_le_length (a := '"') (l := drops m₂ (doubleQuoted u))
    rw [hcontinued] at hdouble hlength
    have hfive : continued.length = 5 ∧ continued.count '"' = 0 := ⟨rfl, rfl⟩
    omega
  · omega

end separated

/-- A word without quotes, and behind it a text in double quotes. -/
theorem words_separated_iff (t u : Str) :
    words (t ++ continued ++ doubleQuoted u) = some [t, u] ↔
      bare t = true ∧ '"' ∉ u ∧ inert u = true := by
  have hbehind : bare t = true → feed .gap (t ++ continued) = some ([t], .gap) := fun ht =>
    feed_append_eq_some.mpr ⟨[], .word t, [t], feed_bare ht, feed_continued_word t, rfl⟩
  rw [← words_doubleQuoted_self_iff]
  constructor
  · intro h
    rcases bare_of_separated h with rfl | ht
    · have hone : words (doubleQuoted u) = some [[], u] :=
        (words_behind (s := continued) (a := []) rfl).mp h
      cases length_words_doubleQuoted (no_quotes_separated h).2 hone
    · exact ⟨ht, (words_behind (hbehind ht)).mp h⟩
  · rintro ⟨ht, hu⟩
    exact (words_behind (hbehind ht)).mpr hu

end shell
