-- The handlers ask for the process of a client only when some rule or upstream could look
-- at it (needsProcessMetadata). Where they do not ask, nothing that a dial does depends on
-- the process.
import Vproxy.BlockPolicy
import Vproxy.RouterReference

open go go.net go.url go.regexp

namespace vproxy

/-! ## What is seen of a dial -/

def Event.isMatch : Event → Bool
  | .matched _ => true
  | _ => false

/-- What a dial does, without the contexts that it matched. -/
def Dialed.seen (d : Dialed) : List Event × Bool := (d.events.filter (fun e => !e.isMatch), d.conn)

section

variable [Regexp]

theorem matched_not_mem_dialAction (ph : ProxyHandler) (w : World) (t : Transport) (target : Str)
    (a : RuleAction) : ∀ e ∈ (ph.dialAction w t target a).events, e.isMatch = false := by
  intro e he
  have hattempts : e ∈ (dialAttempts t ph.sm w target ph.retryCount 0).events →
      e.isMatch = false := by
    intro h
    obtain ⟨server, rfl⟩ := mem_dialAttempts h
    rfl
  cases a with
  | direct =>
    cases t <;>
    · obtain rfl := List.mem_singleton.mp he
      rfl
  | block =>
    obtain rfl := List.mem_singleton.mp he
    rfl
  | proxy => exact hattempts he
  | intercept => exact hattempts he
  | map => exact hattempts he

variable [Unicode]

/-! ## Without metadata -/

/-- A client is a local relay only beside an upstream on this machine. -/
theorem hasLocalUpstream_of_isLocalRelay {ph : ProxyHandler} {byPort : Int → Option (Str × Int)}
    {process : Str} {pid : Int} (h : ph.isLocalRelay byPort process pid = true) :
    ph.hasLocalUpstream = true := by
  unfold ProxyHandler.isLocalRelay at h
  rw [Bool.and_eq_true, List.any_eq_true] at h
  obtain ⟨-, server, hserver, hany⟩ := h
  unfold ProxyHandler.hasLocalUpstream
  rw [List.any_eq_true]
  refine ⟨server, hserver, ?_⟩
  cases hu : parse server with
  | none =>
    rw [hu] at hany
    cases hany
  | some u =>
    rw [hu, Option.any_some] at hany
    simp only [Bool.and_eq_true] at hany
    exact hany.1.1.1

variable {ph : ProxyHandler} (h : ph.needsProcessMetadata = false)
include h

theorem isLocalRelay_of_needs (byPort : Int → Option (Str × Int)) (process : Str) (pid : Int) :
    ph.isLocalRelay byPort process pid = false := by
  rw [← Bool.not_eq_true]
  intro hrelay
  have hlocal := (Bool.or_eq_false_iff.mp h).2
  rw [hasLocalUpstream_of_isLocalRelay hrelay] at hlocal
  cases hlocal

theorem matchContext_of_needs (ctx : MatchContext) :
    ph.rm.matchContext ctx = ph.rm.matchContext { ctx with process := [], pid := 0 } :=
  matchContext_process (Bool.or_eq_false_iff.mp h).1 ctx

theorem seen_dial (w : World) (t : Transport) (target process : Str) (pid : Int) :
    (ph.dial w t target process pid).seen =
      let d := ph.dialAction w t target (ph.rm.matchContext (dialContext target [] 0)).1
      (d.events, d.conn) := by
  have hctx : ph.rm.matchContext (dialContext target process pid) =
      ph.rm.matchContext (dialContext target [] 0) :=
    matchContext_of_needs h (dialContext target process pid)
  have hkeep := matched_not_mem_dialAction ph w t target
    (ph.rm.matchContext (dialContext target [] 0)).1
  unfold ProxyHandler.dial Dialed.seen
  rw [if_neg (by simp [isLocalRelay_of_needs h])]
  dsimp only
  rw [hctx, List.filter_cons_of_neg (by simp [Event.isMatch])]
  congr 1
  apply List.filter_eq_self.mpr
  intro e he
  rw [hkeep e he]
  rfl

/-- Where no process is asked for, matches, relay tests and dials are the same for every
process. -/
theorem skipped_inspection_changes_nothing (w : World) (target process : Str) (pid : Int) :
    (∀ host port url, ph.rm.matchContext ⟨host, port, process, pid, url⟩ =
        ph.rm.matchContext ⟨host, port, [], 0, url⟩) ∧
      ph.isLocalRelay w.byPort process pid = ph.isLocalRelay w.byPort [] 0 ∧
      (ph.dialTarget w target process pid).seen = (ph.dialTarget w target [] 0).seen ∧
      (ph.dialTargetUDP w target process pid).seen = (ph.dialTargetUDP w target [] 0).seen := by
  refine ⟨?_, ?_, ?_, ?_⟩
  · intro host port url
    exact matchContext_of_needs h ⟨host, port, process, pid, url⟩
  · rw [isLocalRelay_of_needs h, isLocalRelay_of_needs h]
  · exact (seen_dial h w .tcp target process pid).trans (seen_dial h w .tcp target [] 0).symm
  · exact (seen_dial h w .udp target process pid).trans (seen_dial h w .udp target [] 0).symm

end

/-- A handler with a rule for a domain, a remote LAN and a distant upstream. -/
def plainHandler : ProxyHandler :=
  newProxyHandler (newServerManager ["socks5://10.1.1.1:1080"] [] 30).sm
    (managed ["a.com,BLOCK", "DEFAULT,PROXY"] [.setRemoteLANs ["192.168.50.0/24"]]) 0 8118 0 0

theorem curl_is_blocked_like_any_other :
    plainHandler.needsProcessMetadata = false ∧
      (plainHandler.dialTarget quietWorld "a.com:443" "curl" 7).seen =
        (plainHandler.dialTarget quietWorld "a.com:443" [] 0).seen := by
  have hneeds : plainHandler.needsProcessMetadata = false := by decide
  exact ⟨hneeds, (skipped_inspection_changes_nothing hneeds quietWorld "a.com:443" "curl" 7).2.2.1⟩

end vproxy
