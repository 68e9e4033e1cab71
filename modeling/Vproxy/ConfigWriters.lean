-- Who rewrites the configuration file: a wrapped command that is not in the rules yet (main.go),
-- and the web page (web.go). Each opens the file, which empties it, and then writes. One after the
-- other they keep the file whole. At the same time updates are lost, and the file may be left with
-- the end of a longer text, which no process loads.
import Vproxy.ConfigFile
import Vproxy.SharedFile

open go go.net go.json runs sharedfile

namespace vproxy.configfile

/-- The same file is picked, whatever is written to it. -/
theorem finalPath_update (files : Files) (p : Place) {content : Option (List UInt8)}
    (h : (files (p.finalPath files)).isSome → content.isSome) :
    p.finalPath (Function.update files (p.finalPath files) content) = p.finalPath files := by
  by_cases hglobal : p.path = ("vproxy.json" : Str) ∧ p.global ≠ [] ∧ (files p.global).isSome
  · have hpath : p.finalPath files = p.global := if_pos hglobal
    rw [hpath] at h ⊢
    refine if_pos ⟨hglobal.1, hglobal.2.1, ?_⟩
    rw [Function.update_self]
    exact h hglobal.2.2
  · have hpath : p.finalPath files = p.path := if_neg hglobal
    rw [hpath]
    by_cases hsame : p.global = p.path
    · unfold Place.finalPath
      rw [hsame, ite_self]
    · unfold Place.finalPath
      rw [Function.update_of_ne hsame]
      exact if_neg hglobal

variable [FloatText]

/-! ## The writers -/

/-- What rewrites the file: a command that is run through vproxy, or a configuration that is posted
to the web page. -/
inductive Writer where
  | wrap (proc : Str)
  | post (body : List UInt8)

/-- What is saved, from the configuration that `LoadConfig` gives. -/
def Writer.save : Writer → Option FileConfig → Option FileConfig
  | .wrap proc, cfg => cfg.bind (·.ensureProcess proc)
  | .post body, _ => configCodec.decode (utf8.decode body)

def plan : Plan Writer FileConfig where
  save := Writer.save
  blind
    | .wrap _, _, h, _ => by cases h
    | .post _, _, h, _ => h

/-- The file as `WriteFile` leaves it and `LoadConfig` reads it. -/
def format : Format UInt8 FileConfig where
  text := marshalIndent
  read data := (readConfig data).map FileConfig.withDefaults
  stored cfg := cfg.kept.withDefaults
  last := 0x7d
  text_last cfg := by
    obtain ⟨middle, hmiddle⟩ := marshalIndent_braces cfg
    exact ⟨0x7b :: middle, hmiddle⟩
  read_text cfg := by rw [readConfig_marshalIndent, Option.map_some]
  read_torn cfg front := by
    obtain ⟨before, hbefore⟩ := utf8.decode_concat front (by decide : (0x7d : UInt8).toNat < 128)
    rw [readConfig_append, hbefore, List.all_append, Bool.and_comm]
    rfl
  read_nil := by
    have hnil : readConfig [] = none := by
      rw [readConfig, trimBOM, utf8.decode]
      · rfl
      · nofun
    rw [hnil, Option.map_none]

/-! ## Runs -/

/-- The file and the writers after these events, from the file that `LoadConfig` picks. -/
def saves {ι : Type} [DecidableEq ι] (files : Files) (p : Place)
    (events : List (sharedfile.Event ι Writer)) : State ι UInt8 Writer FileConfig :=
  run (State.next format plan) (.start (files (p.finalPath files))) events

/-- `LoadConfig` after these events. -/
def loadedAfter {ι : Type} [DecidableEq ι] (files : Files) (p : Place)
    (events : List (sharedfile.Event ι Writer)) : Option (FileConfig × Str) :=
  loadConfig (Function.update files (p.finalPath files) (saves files p events).content) p

/-- The configuration after these writers, one after the other. -/
def inTurn (cfg : Option FileConfig) (ws : List Writer) : Option FileConfig :=
  ws.foldl (sharedfile.apply format plan) cfg

theorem loadConfig_eq (files : Files) (p : Place) :
    loadConfig files p =
      ((files (p.finalPath files)).bind format.read).map fun cfg => (cfg, p.finalPath files) := by
  unfold loadConfig
  cases files (p.finalPath files) with
  | none => rfl
  | some data =>
    change (readConfig data).bind _ = ((readConfig data).map _).map _
    cases readConfig data with
    | none => rfl
    | some cfg => rfl

theorem fst_loadConfig (files : Files) (p : Place) :
    (loadConfig files p).map Prod.fst = (files (p.finalPath files)).bind format.read := by
  rw [loadConfig_eq, Option.map_map]
  exact Option.map_id'

section

variable {ι : Type} [DecidableEq ι]

theorem inv_saves (files : Files) (p : Place) (events : List (sharedfile.Event ι Writer)) :
    Inv format plan (files (p.finalPath files)) (saves files p events) :=
  inv_run _ events

theorem loadedAfter_eq (files : Files) (p : Place) (events : List (sharedfile.Event ι Writer)) :
    loadedAfter files p events =
      ((saves files p events).load format).map fun cfg => (cfg, p.finalPath files) := by
  have hsome := (inv_saves files p events).content_isSome
  unfold loadedAfter
  rw [loadConfig_eq, finalPath_update files p hsome, Function.update_self]
  rfl

/-- As long as each writer is done before the next one begins, the file holds what all of them have
saved, and a restart loads it. -/
theorem saves_in_turn_are_loaded (files : Files) (p : Place) (acts : List (ι × Writer)) :
    loadedAfter files p (acts.flatMap turn) =
      (inTurn ((loadConfig files p).map Prod.fst) (acts.map Prod.snd)).map
        fun cfg => (cfg, p.finalPath files) := by
  rw [loadedAfter_eq, saves, load_run_turns fun _ => rfl, fst_loadConfig]
  rfl

/-- Whatever the order of the steps: what is loaded is what some of the writers, with the last one
among them, make of the file one after the other. The updates of the others are lost. Nothing is
loaded while the file is empty, or when the last text does not cover what was written since. -/
theorem overlapping_saves (files : Files) (p : Place) (events : List (sharedfile.Event ι Writer)) :
    ((loadedAfter files p events).isSome ↔
      (saves files p events).since = none ∧ (loadConfig files p).isSome ∨
      ∃ before cfg, (saves files p events).since = some (before ++ [cfg]) ∧
        ∀ d ∈ before, (marshalIndent d).length ≤ (marshalIndent cfg).length) ∧
    ∀ cfg path, loadedAfter files p events = some (cfg, path) →
      ∃ ws, ws.Sublist (saves files p events).written ∧
        ((saves files p events).written ≠ [] →
          ws.getLast? = (saves files p events).written.getLast?) ∧
        inTurn ((loadConfig files p).map Prod.fst) ws = some cfg := by
  have hinv := inv_saves files p events
  rw [loadedAfter_eq, fst_loadConfig, loadConfig_eq]
  constructor
  · rw [Option.isSome_map, Option.isSome_map]
    exact hinv.loads_iff
  · intro cfg path hload
    obtain ⟨v, hv, heq⟩ := Option.map_eq_some_iff.mp hload
    cases heq
    exact hinv.load_eq hv

end

end vproxy.configfile
