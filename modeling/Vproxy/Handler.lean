-- The configuration and the handler that is set up from it (config.go, app.go), and the
-- two ways in which a running handler takes a new configuration.
import Vproxy.Rewrite
import Vproxy.Router
import Vproxy.ServerManager

open go go.regexp

namespace vproxy

/-! ## Configurations -/

/-- `Config`, as JSON gives it. A field that may be missing is an option. -/
structure Config where
  upstreams : List Str
  rules : List Str
  testInterval : Int
  webPort : Int
  socksPort : Option Int
  httpPort : Option Int
  directDNS : Option Bool
  dialTimeoutMs : Option Int
  dialRetryCount : Option Int
  bypassNodes : List Str
  remoteLANs : List Str
  rewrites : List Str
deriving DecidableEq

/-- The last part of `LoadConfig`: defaults for what is missing. -/
def Config.withDefaults (cfg : Config) : Config :=
  { cfg with
    testInterval := if cfg.testInterval = 0 then 30 else cfg.testInterval
    webPort := if cfg.webPort = 0 then 8899 else cfg.webPort
    directDNS := some (cfg.directDNS.getD true)
    dialTimeoutMs := some (cfg.dialTimeoutMs.getD 5000)
    dialRetryCount := some (cfg.dialRetryCount.getD 3) }

/-- A configuration with these rewrites and remote LANs and no rules. -/
def bareConfig (rewrites remoteLANs : List Str) : Config where
  upstreams := []
  rules := []
  testInterval := 0
  webPort := 0
  socksPort := none
  httpPort := none
  directDNS := none
  dialTimeoutMs := none
  dialRetryCount := none
  bypassNodes := []
  remoteLANs := remoteLANs
  rewrites := rewrites

/-- The ports that the command line gave, before the configuration is looked at. -/
structure App where
  localSocks : Int
  localHTTP : Int
  localTrans : Int

variable [Regexp]

/-! ## The handler -/

structure ProxyHandler where
  sm : ServerManager
  rm : RuleManager
  socksPort : Int
  httpPort : Int
  transPort : Int
  webPort : Int
  dialTimeoutMs : Int
  dialRetryCount : Int
  bypassNodes : List Str
  rewriteEngine : Option RewriteEngine

def newProxyHandler (sm : ServerManager) (rm : RuleManager)
    (socksPort httpPort transPort webPort : Int) : ProxyHandler where
  sm := sm
  rm := rm
  socksPort := socksPort
  httpPort := httpPort
  transPort := transPort
  webPort := webPort
  dialTimeoutMs := 5000
  dialRetryCount := 3
  bypassNodes := []
  rewriteEngine := none

variable [Unicode]

/-- `setupServices`. Rewrites that do not compile leave the handler without an engine. -/
def setupServices (a : App) (cfg : Config) : ProxyHandler :=
  let socks := if a.localSocks = 0 then cfg.socksPort.getD 0 else a.localSocks
  let http := if a.localHTTP = 8118 then cfg.httpPort.getD 8118 else a.localHTTP
  let selfPorts := [socks, http, a.localTrans, cfg.webPort].filter (0 < ·)
  let sm := (newServerManager cfg.upstreams selfPorts cfg.testInterval).sm
  let rm := newRuleManager cfg.rules
  let rm := if cfg.remoteLANs ≠ [] then rm.setRemoteLANs cfg.remoteLANs else rm
  let rm := match cfg.directDNS with
    | some direct => rm.setDirectDNS direct
    | none => rm
  let ph := newProxyHandler sm rm socks http a.localTrans cfg.webPort
  { ph with
    bypassNodes := cfg.bypassNodes
    dialTimeoutMs := cfg.dialTimeoutMs.getD ph.dialTimeoutMs
    dialRetryCount := cfg.dialRetryCount.getD ph.dialRetryCount
    rewriteEngine :=
      if cfg.rewrites ≠ [] then newRewriteEngine cfg.rewrites else ph.rewriteEngine }

/-! ## Reloads -/

def ProxyHandler.updateServers (ph : ProxyHandler) (upstreams : List Str) : ProxyHandler :=
  { ph with sm := { ph.sm with servers := upstreams } }

/-- `UpdateRules`: a new rule manager from the rules alone. -/
def ProxyHandler.updateRules (ph : ProxyHandler) (rules : List Str) (directDNS : Bool) :
    ProxyHandler :=
  { ph with rm := (newRuleManager rules).setDirectDNS directDNS }

/-- What `watchConfig` does with a file that `LoadConfig` accepts. -/
def ProxyHandler.watchConfig (ph : ProxyHandler) (cfg : Config) : ProxyHandler :=
  let cfg := cfg.withDefaults
  let ph := ph.updateServers cfg.upstreams
  let ph := ph.updateRules cfg.rules (cfg.directDNS.getD true)
  { ph with
    bypassNodes := cfg.bypassNodes
    rewriteEngine :=
      if cfg.rewrites ≠ [] then (newRewriteEngine cfg.rewrites).or ph.rewriteEngine else none }

/-- What a POST to `handleConfig` does with a body that decodes. -/
def ProxyHandler.handleConfig (ph : ProxyHandler) (newCfg : Config) : ProxyHandler :=
  let ph := ph.updateRules newCfg.rules (newCfg.directDNS.getD true)
  ph.updateServers newCfg.upstreams

inductive Reload where
  | watch
  | post
deriving DecidableEq

def ProxyHandler.reload (ph : ProxyHandler) (kind : Reload) (cfg : Config) : ProxyHandler :=
  match kind with
  | .watch => ph.watchConfig cfg
  | .post => ph.handleConfig cfg

/-- The answer of the rewrite engine; a handler without one rewrites nothing. -/
def ProxyHandler.matchRewrite (ph : ProxyHandler) (reqURL host : Str) : Option RewriteResult :=
  ph.rewriteEngine.bind (fun re => re.matchRequest reqURL host)

end vproxy
