-- The sessions of the transparent UDP proxy. One loop receives the datagrams and opens a session
-- for each new pair of addresses, and a goroutine for each session relays the answers and clears
-- up. Their steps interleave in every way, and each session keeps its own upstream.
import Vproxy.Runs
import Vproxy.Handles
import Mathlib.Logic.Function.Basic

open runs handles

namespace vproxy

/-! ## The loop and the goroutines -/

/-- Where a relay goroutine is. Its deferred calls run from the last to the first: `Delete`,
`spoof.Close`, `up.Close`. -/
inductive RelayPhase where
  | reading
  | returning
  | deleted
  | spoofClosed
  | done
  deriving DecidableEq, Repr

structure Relay (Key : Type) where
  key : Key
  up : Nat
  spoof : Nat
  phase : RelayPhase

/-- Where `serveTransparentUDP` is, with its variables. -/
inductive LoopPhase (Key : Type) where
  | receiving
  | hijacking (spoof : Nat)
  | loading (key : Key)
  | dialing (key : Key)
  | spoofDialing (key : Key) (up : Nat)
  | refusing (up : Nat)
  | storing (key : Key) (up spoof : Nat)
  | spawning (key : Key) (up spoof : Nat)
  | writing (up : Nat)
  | returned

/-- The sockets have numbers in the order in which they were opened. -/
structure UdpState (Key : Type) where
  udpSessions : Key → Option Nat
  next : Nat
  closed : List Nat
  loop : LoopPhase Key
  relays : List (Relay Key)

/-- What the loop makes of a receive: it ends with an error, or the datagram is dropped, or it
is a DNS query that a spoofing socket answers, or it belongs to a session. -/
inductive Receive (Key : Type) where
  | failed
  | dropped
  | hijacked
  | session (key : Key)

/-- A step of the loop or of a goroutine. The flag says whether its dial or read succeeds. -/
inductive UdpStep (Key : Type) where
  | receive (r : Receive Key)
  | loop (ok : Bool)
  | relay (i : Nat) (ok : Bool)

section

variable {Key : Type} [DecidableEq Key]

def UdpState.initial : UdpState Key := ⟨fun _ => none, 0, [], .receiving, []⟩

def UdpState.receive (s : UdpState Key) (r : Receive Key) : UdpState Key :=
  match s.loop with
  | .receiving =>
    match r with
    | .failed => { s with loop := .returned }
    | .dropped => s
    | .hijacked => { s with loop := .hijacking s.next, next := s.next + 1 }
    | .session key => { s with loop := .loading key }
  | _ => s

/-- The next call of the loop. -/
def UdpState.loopStep (s : UdpState Key) (ok : Bool) : UdpState Key :=
  match s.loop with
  | .receiving => s
  | .hijacking spoof => { s with loop := .receiving, closed := spoof :: s.closed }
  | .loading key =>
    match s.udpSessions key with
    | some up => { s with loop := .writing up }
    | none => { s with loop := .dialing key }
  | .dialing key =>
    if ok then { s with loop := .spoofDialing key s.next, next := s.next + 1 }
    else { s with loop := .receiving }
  | .spoofDialing key up =>
    if ok then { s with loop := .storing key up s.next, next := s.next + 1 }
    else { s with loop := .refusing up }
  | .refusing up => { s with loop := .receiving, closed := up :: s.closed }
  | .storing key up spoof =>
    { s with
      loop := .spawning key up spoof
      udpSessions := Function.update s.udpSessions key (some up) }
  | .spawning key up spoof =>
    { s with loop := .writing up, relays := s.relays ++ [⟨key, up, spoof, .reading⟩] }
  | .writing _ => { s with loop := .receiving }
  | .returned => s

/-- The goroutine `i` goes on to this phase. -/
def UdpState.setPhase (s : UdpState Key) (i : Nat) (phase : RelayPhase) : UdpState Key :=
  { s with relays := s.relays.modify i fun r => { r with phase } }

/-- The next call of the goroutine `i`. -/
def UdpState.relayStep (s : UdpState Key) (i : Nat) (ok : Bool) : UdpState Key :=
  match s.relays[i]? with
  | none => s
  | some r =>
    match r.phase with
    | .reading => if ok then s else s.setPhase i .returning
    | .returning =>
      { s.setPhase i .deleted with udpSessions := Function.update s.udpSessions r.key none }
    | .deleted => { s.setPhase i .spoofClosed with closed := r.spoof :: s.closed }
    | .spoofClosed => { s.setPhase i .done with closed := r.up :: s.closed }
    | .done => s

def UdpState.step (s : UdpState Key) : UdpStep Key → UdpState Key
  | .receive r => s.receive r
  | .loop ok => s.loopStep ok
  | .relay i ok => s.relayStep i ok

end

/-! ## Who holds what -/

section

variable {Key : Type}

def Relay.Live (r : Relay Key) : Prop := r.phase ≠ .done

/-- The sockets that the goroutine has yet to close. -/
def Relay.holds (r : Relay Key) : List Nat :=
  match r.phase with
  | .reading | .returning | .deleted => [r.up, r.spoof]
  | .spoofClosed => [r.up]
  | .done => []

/-- The session of a goroutine that has not deleted it. -/
def Relay.session (r : Relay Key) : List (Key × Nat) :=
  match r.phase with
  | .reading | .returning => [(r.key, r.up)]
  | _ => []

/-- The sockets that the loop has opened and not yet closed or handed over. -/
def LoopPhase.holds : LoopPhase Key → List Nat
  | .hijacking spoof => [spoof]
  | .spoofDialing _ up => [up]
  | .refusing up => [up]
  | .storing _ up spoof => [up, spoof]
  | .spawning _ up spoof => [up, spoof]
  | _ => []

/-- The session that the loop has stored and not yet handed over. -/
def LoopPhase.session : LoopPhase Key → List (Key × Nat)
  | .spawning key up _ => [(key, up)]
  | _ => []

/-- The key that the loop has found without a session. -/
def LoopPhase.missed : LoopPhase Key → Option Key
  | .dialing key => some key
  | .spoofDialing key _ => some key
  | .storing key _ _ => some key
  | _ => none

def UdpState.places (s : UdpState Key) : List Nat :=
  s.loop.holds ++ (s.relays.flatMap Relay.holds ++ s.closed)

def UdpState.sessions (s : UdpState Key) : List (Key × Nat) :=
  s.loop.session ++ s.relays.flatMap Relay.session

/-- Each socket is in one place, the map has the sessions that are not deleted, and a key stays
without a session from the lookup to the store. -/
structure UdpState.Inv (s : UdpState Key) : Prop where
  accounted : Accounted s.next s.places
  entries : ∀ key up, s.udpSessions key = some up ↔ (key, up) ∈ s.sessions
  missed : ∀ key ∈ s.loop.missed, s.udpSessions key = none

/-! ## The loop keeps the invariant -/

variable {s : UdpState Key}

theorem mem_session {r : Relay Key} {key : Key} {up : Nat} (h : (key, up) ∈ r.session) :
    key = r.key ∧ up = r.up := by
  obtain ⟨k, u, spoof, phase⟩ := r
  cases phase <;> simp_all [Relay.session]

theorem mem_holds_of_session {r : Relay Key} {key : Key} {up : Nat} (h : (key, up) ∈ r.session) :
    up ∈ r.holds := by
  obtain ⟨k, u, spoof, phase⟩ := r
  cases phase <;> simp_all [Relay.session, Relay.holds]

theorem mem_loop_holds_of_session {l : LoopPhase Key} {key : Key} {up : Nat}
    (h : (key, up) ∈ l.session) : up ∈ l.holds := by
  cases l <;> simp_all [LoopPhase.session, LoopPhase.holds]

theorem UdpState.Inv.receive (h : s.Inv) (r : Receive Key) : (s.receive r).Inv := by
  have haccounted := h.accounted
  have hentries := h.entries
  unfold UdpState.places at haccounted
  unfold UdpState.sessions at hentries
  unfold UdpState.receive
  cases hloop : s.loop with
  | receiving =>
    rw [hloop] at haccounted hentries
    cases r with
    | failed => exact ⟨haccounted, hentries, nofun⟩
    | dropped => exact h
    | hijacked => exact ⟨haccounted.new (.refl _), hentries, nofun⟩
    | session key => exact ⟨haccounted, hentries, nofun⟩
  | _ => exact h

/-- The loop stores a session under a key that has none. -/
theorem UdpState.Inv.stores [DecidableEq Key] (h : s.Inv) {key : Key} {up spoof : Nat}
    (hloop : s.loop = .storing key up spoof) (k : Key) (u : Nat) :
    Function.update s.udpSessions key (some up) k = some u ↔
      (k, u) ∈ (LoopPhase.spawning key up spoof).session ++ s.relays.flatMap Relay.session := by
  have hentries := h.entries
  have hmissed := h.missed
  unfold UdpState.sessions at hentries
  rw [hloop] at hentries hmissed
  have hfree : (key, u) ∉ s.relays.flatMap Relay.session := by
    intro hmem
    have hstored := (hentries key u).mpr (List.mem_append_right _ hmem)
    rw [hmissed key rfl] at hstored
    cases hstored
  by_cases hk : k = key
  · subst hk
    simp [LoopPhase.session, hfree, eq_comm]
  · simpa [LoopPhase.session, Function.update_of_ne hk, hk] using hentries k u

theorem UdpState.Inv.loopStep [DecidableEq Key] (h : s.Inv) (ok : Bool) : (s.loopStep ok).Inv := by
  have haccounted := h.accounted
  have hentries := h.entries
  have hmissed := h.missed
  unfold UdpState.places at haccounted
  unfold UdpState.sessions at hentries
  unfold UdpState.loopStep
  cases hloop : s.loop with
  | receiving => exact h
  | returned => exact h
  | hijacking spoof =>
    rw [hloop] at haccounted hentries
    exact ⟨haccounted.move List.perm_middle, hentries, nofun⟩
  | refusing up =>
    rw [hloop] at haccounted hentries
    exact ⟨haccounted.move List.perm_middle, hentries, nofun⟩
  | writing up =>
    rw [hloop] at haccounted hentries
    exact ⟨haccounted, hentries, nofun⟩
  | loading key =>
    rw [hloop] at haccounted hentries
    dsimp only
    cases hload : s.udpSessions key with
    | some up => exact ⟨haccounted, hentries, nofun⟩
    | none =>
      refine ⟨haccounted, hentries, ?_⟩
      rintro _ ⟨⟩
      exact hload
  | dialing key =>
    rw [hloop] at haccounted hentries hmissed
    cases ok with
    | true => exact ⟨haccounted.new (.refl _), hentries, hmissed⟩
    | false => exact ⟨haccounted, hentries, nofun⟩
  | spoofDialing key up =>
    rw [hloop] at haccounted hentries hmissed
    cases ok with
    | true => exact ⟨haccounted.new (.swap _ _ _), hentries, hmissed⟩
    | false => exact ⟨haccounted, hentries, nofun⟩
  | storing key up spoof =>
    rw [hloop] at haccounted
    exact ⟨haccounted, h.stores hloop, nofun⟩
  | spawning key up spoof =>
    rw [hloop] at haccounted hentries
    refine ⟨haccounted.move ?_, ?_, nofun⟩
    · simp only [UdpState.places, List.flatMap_append, List.append_assoc]
      exact List.perm_append_comm_assoc (s.relays.flatMap Relay.holds) [up, spoof] s.closed
    · intro k u
      rw [hentries k u]
      simp [UdpState.sessions, LoopPhase.session, Relay.session, or_comm]

/-! ## The goroutines keep the invariant -/

/-- The sockets of one goroutine, then all others. -/
theorem UdpState.places_perm {front rest : List (Relay Key)} {r : Relay Key}
    (h : s.relays = front ++ r :: rest) :
    s.places.Perm
      (r.holds ++ (s.loop.holds ++ ((front ++ rest).flatMap Relay.holds ++ s.closed))) := by
  unfold UdpState.places
  rw [h]
  refine .trans (((flatMap_perm_front front rest r).append_right s.closed).append_left _) ?_
  rw [List.append_assoc]
  exact List.perm_append_comm_assoc _ _ _

/-- The session of a goroutine is the only one with its key. -/
theorem UdpState.Inv.session_unique (h : s.Inv) {front rest : List (Relay Key)} {r : Relay Key}
    (hrelays : s.relays = front ++ r :: rest) (hr : (r.key, r.up) ∈ r.session) (up : Nat) :
    (r.key, up) ∉ s.loop.session ++ (front ++ rest).flatMap Relay.session := by
  intro hother
  have hown : s.udpSessions r.key = some r.up := by
    rw [h.entries, UdpState.sessions, hrelays]
    simp [hr]
  have hsame : s.udpSessions r.key = some up := by
    rw [h.entries, UdpState.sessions, hrelays]
    simp only [List.flatMap_append, List.flatMap_cons, List.mem_append] at hother ⊢
    tauto
  obtain rfl : r.up = up := Option.some.inj (hown.symm.trans hsame)
  -- Then its upstream is in two places.
  have hnodup := (h.accounted.move (s.places_perm hrelays).symm).nodup
  refine List.disjoint_of_nodup_append hnodup (mem_holds_of_session hr) ?_
  rw [← List.append_assoc]
  apply List.mem_append_left
  rcases List.mem_append.mp hother with hloop | hrelay
  · exact List.mem_append_left _ (mem_loop_holds_of_session hloop)
  · obtain ⟨r', hr', hmem⟩ := List.mem_flatMap.mp hrelay
    exact List.mem_append_right _ (List.mem_flatMap.mpr ⟨r', hr', mem_holds_of_session hmem⟩)

section

variable {t : UdpState Key} {front rest : List (Relay Key)} {r r' : Relay Key}
  (h : s.Inv) (hs : s.relays = front ++ r :: rest) (ht : t.relays = front ++ r' :: rest)
  (hloop : t.loop = s.loop) (hnext : t.next = s.next)
  (hholds : (r'.holds ++ t.closed).Perm (r.holds ++ s.closed))

include h hs ht hloop hnext hholds

/-- A goroutine goes on, and what it gives up is closed. -/
theorem UdpState.Inv.accounted_moves : Accounted t.next t.places := by
  rw [hnext]
  refine h.accounted.move ?_
  refine (t.places_perm ht).trans (.trans ?_ (s.places_perm hs).symm)
  rw [hloop, List.perm_iff_count]
  intro n
  have hcount := hholds.count_eq n
  simp only [List.count_append] at hcount ⊢
  omega

theorem UdpState.Inv.relay_moves (hsession : r'.session = r.session)
    (hmap : t.udpSessions = s.udpSessions) : t.Inv := by
  have hsame : t.sessions = s.sessions := by
    unfold UdpState.sessions
    rw [hs, ht, hloop, List.flatMap_append, List.flatMap_cons, hsession, List.flatMap_append,
      List.flatMap_cons]
  refine ⟨h.accounted_moves hs ht hloop hnext hholds, ?_, ?_⟩
  · rw [hmap, hsame]
    exact h.entries
  · rw [hmap, hloop]
    exact h.missed

/-- A goroutine deletes its own session. -/
theorem UdpState.Inv.relay_deletes [DecidableEq Key] (hbefore : (r.key, r.up) ∈ r.session)
    (hafter : r'.session = []) (hmap : t.udpSessions = Function.update s.udpSessions r.key none) :
    t.Inv := by
  have hunique := h.session_unique hs hbefore
  refine ⟨h.accounted_moves hs ht hloop hnext hholds, ?_, ?_⟩
  · intro key up
    have hsessions : t.sessions = s.loop.session ++ (front ++ rest).flatMap Relay.session := by
      unfold UdpState.sessions
      rw [ht, hloop, List.flatMap_append, List.flatMap_cons, hafter, List.nil_append,
        List.flatMap_append]
    rw [hmap, hsessions]
    by_cases hkey : key = r.key
    · subst hkey
      simpa [Function.update_self] using hunique up
    · have hnot : (key, up) ∉ r.session := fun hmem => hkey (mem_session hmem).1
      rw [Function.update_of_ne hkey, h.entries, UdpState.sessions, hs]
      simp [hnot]
  · intro key hkey
    rw [hloop] at hkey
    rw [hmap]
    by_cases hk : key = r.key
    · rw [hk, Function.update_self]
    · rw [Function.update_of_ne hk]
      exact h.missed key hkey

end

theorem UdpState.Inv.relayStep [DecidableEq Key] (h : s.Inv) (i : Nat) (ok : Bool) :
    (s.relayStep i ok).Inv := by
  unfold UdpState.relayStep
  cases hi : s.relays[i]? with
  | none => exact h
  | some r =>
    obtain ⟨key, up, spoof, phase⟩ := r
    have hset := fun phase => modify_split hi fun r : Relay Key => { r with phase }
    cases phase with
    | done => exact h
    | reading =>
      obtain ⟨front, rest, hs, ht⟩ := hset .returning
      cases ok with
      | true => exact h
      | false => exact h.relay_moves hs ht rfl rfl (.refl _) rfl rfl
    | returning =>
      obtain ⟨front, rest, hs, ht⟩ := hset .deleted
      exact h.relay_deletes hs ht rfl rfl (.refl _) (List.mem_singleton.mpr rfl) rfl rfl
    | deleted =>
      obtain ⟨front, rest, hs, ht⟩ := hset .spoofClosed
      exact h.relay_moves hs ht rfl rfl (.refl _) rfl rfl
    | spoofClosed =>
      obtain ⟨front, rest, hs, ht⟩ := hset .done
      exact h.relay_moves hs ht rfl rfl (.refl _) rfl rfl

/-! ## The law of the sessions -/

/-- Sessions and upstreams belong to each other. -/
structure UdpState.OneToOne (s : UdpState Key) : Prop where
  /-- The upstream of a session is open. Exactly one live goroutine has it, the one for its key,
  or the loop does, which is about to start that goroutine. -/
  owned : ∀ key up, s.udpSessions key = some up → up ∉ s.closed ∧
    ((∃ i r, s.relays[i]? = some r ∧ r.Live ∧ r.key = key ∧ r.up = up ∧
      ∀ (j : Nat) r', s.relays[j]? = some r' → r'.Live → r'.up = up → j = i) ∨
    (∃ spoof, s.loop = .spawning key up spoof) ∧ ∀ r ∈ s.relays, r.Live → r.up ≠ up)
  /-- A goroutine that is about to delete an entry finds its own. -/
  deletes_own : ∀ r ∈ s.relays, r.phase = .returning → s.udpSessions r.key = some r.up
  /-- No socket is lost. -/
  accounted : ∀ sock < s.next, sock ∈ s.closed ∨
    (∃ r ∈ s.relays, r.Live ∧ (sock = r.up ∨ sock = r.spoof)) ∨ sock ∈ s.loop.holds

theorem Relay.Live.up_mem {r : Relay Key} (h : r.Live) : r.up ∈ r.holds := by
  obtain ⟨key, up, spoof, phase⟩ := r
  cases phase <;> simp_all [Relay.Live, Relay.holds]

theorem Relay.live_of_holds {r : Relay Key} {sock : Nat} (h : sock ∈ r.holds) :
    r.Live ∧ (sock = r.up ∨ sock = r.spoof) := by
  obtain ⟨key, up, spoof, phase⟩ := r
  cases phase <;> simp_all [Relay.Live, Relay.holds]

theorem UdpState.inv_initial : (UdpState.initial : UdpState Key).Inv :=
  ⟨.refl _, fun _ _ => ⟨nofun, nofun⟩, nofun⟩

theorem UdpState.Inv.step [DecidableEq Key] (h : s.Inv) (a : UdpStep Key) : (s.step a).Inv := by
  cases a with
  | receive r => exact h.receive r
  | loop ok => exact h.loopStep ok
  | relay i ok => exact h.relayStep i ok

theorem LoopPhase.spawning_of_session {l : LoopPhase Key} {key : Key} {up : Nat}
    (h : (key, up) ∈ l.session) : ∃ spoof, l = .spawning key up spoof := by
  cases l <;> simp_all [LoopPhase.session]

theorem UdpState.Inv.oneToOne (h : s.Inv) : s.OneToOne where
  owned key up hstored := by
    have hnodup := h.accounted.nodup
    unfold UdpState.places at hnodup
    have hopen := List.disjoint_of_nodup_append hnodup.of_append_right
    have hloopOpen := List.disjoint_of_nodup_append hnodup
    rcases List.mem_append.mp ((h.entries key up).mp hstored) with hloop | hrelay
    · have hup := mem_loop_holds_of_session hloop
      refine ⟨fun hclosed => hloopOpen hup (List.mem_append_right _ hclosed), .inr ⟨?_, ?_⟩⟩
      · exact LoopPhase.spawning_of_session hloop
      · rintro r hr hlive rfl
        refine hloopOpen hup (List.mem_append_left _ ?_)
        exact List.mem_flatMap.mpr ⟨r, hr, hlive.up_mem⟩
    · obtain ⟨r, hr, hsession⟩ := List.mem_flatMap.mp hrelay
      have hup := mem_holds_of_session hsession
      obtain ⟨rfl, rfl⟩ := mem_session hsession
      refine ⟨hopen (List.mem_flatMap.mpr ⟨r, hr, hup⟩), .inl ?_⟩
      obtain ⟨i, hi⟩ := List.mem_iff_getElem?.mp hr
      refine ⟨i, r, hi, (Relay.live_of_holds hup).1, rfl, rfl, ?_⟩
      intro j r' hj hlive hsame
      exact holder_unique hnodup.of_append_right.of_append_left hj hi (hsame ▸ hlive.up_mem) hup
  deletes_own r hr hphase := by
    rw [h.entries]
    refine List.mem_append_right _ (List.mem_flatMap.mpr ⟨r, hr, ?_⟩)
    simp [Relay.session, hphase]
  accounted sock hsock := by
    have hplace := h.accounted.mem_iff.mpr hsock
    unfold UdpState.places at hplace
    rcases List.mem_append.mp hplace with hloop | hplace
    · exact .inr (.inr hloop)
    rcases List.mem_append.mp hplace with hrelay | hclosed
    · obtain ⟨r, hr, hholds⟩ := List.mem_flatMap.mp hrelay
      exact .inr (.inl ⟨r, hr, Relay.live_of_holds hholds⟩)
    · exact .inl hclosed

/-- Whatever the loop and the goroutines do, and in whatever order, sessions and upstreams belong
to each other. -/
theorem sessions_keep_their_upstreams [DecidableEq Key] (steps : List (UdpStep Key)) :
    (run UdpState.step UdpState.initial steps).OneToOne :=
  (run_invariant_of_step UdpState.Inv (fun _ a h => h.step a) UdpState.inv_initial steps).oneToOne

end

/-- A session comes back under its key while the old goroutine still clears up. -/
example :
    let s := run UdpState.step (UdpState.initial : UdpState Nat)
      [.receive (.session 7), .loop true, .loop true, .loop true, .loop true, .loop true,
        .loop true, .relay 0 false, .relay 0 true, .receive (.session 7), .loop true, .loop true,
        .loop true, .loop true, .relay 0 true]
    s.udpSessions 7 = some 2 ∧ s.closed = [1] ∧ s.next = 4 := by
  decide

end vproxy
