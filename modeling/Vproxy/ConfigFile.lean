-- The configuration file (config.go): every field as encoding/json writes and reads it, the file
-- that LoadConfig picks, and the defaults for what is missing. What the web page or a wrapped
-- command has saved is loaded again, up to the defaults and to empty values that are left out.
import Vproxy.JsonFields
import Vproxy.Utf8
import Vproxy.WrappedCommand

open go go.net go.json floats

namespace vproxy.configfile

/-! ## The fields -/

/-- `OtelConfig`. -/
structure OtelConfig where
  enabled : Bool
  endpoint : Str
  protocol : Str
  insecure : Bool
  serviceName : Str
  sampleRate : FiniteF64
  skipProbe : Bool

/-- `Config`, with every field of the file. A slice or a pointer may be `nil`. -/
structure FileConfig where
  upstreams : Option (List Str)
  rules : Option (List Str)
  testInterval : Int64
  webPort : Int64
  socksPort : Option Int64
  httpPort : Option Int64
  enableEbpf : Option Bool
  directDNS : Option Bool
  dialTimeoutMs : Option Int64
  dialRetryCount : Option Int64
  bypassNodes : Option (List Str)
  remoteLANs : Option (List Str)
  rewrites : Option (List Str)
  otel : Option OtelConfig

/-- The configuration that the services are set up from. -/
def FileConfig.toConfig (cfg : FileConfig) : Config where
  upstreams := cfg.upstreams.getD []
  rules := cfg.rules.getD []
  testInterval := cfg.testInterval.toInt
  webPort := cfg.webPort.toInt
  socksPort := cfg.socksPort.map Int64.toInt
  httpPort := cfg.httpPort.map Int64.toInt
  directDNS := cfg.directDNS
  dialTimeoutMs := cfg.dialTimeoutMs.map Int64.toInt
  dialRetryCount := cfg.dialRetryCount.map Int64.toInt
  bypassNodes := cfg.bypassNodes.getD []
  remoteLANs := cfg.remoteLANs.getD []
  rewrites := cfg.rewrites.getD []

/-- The last part of `LoadConfig`. -/
def FileConfig.withDefaults (cfg : FileConfig) : FileConfig :=
  { cfg with
    testInterval := if cfg.testInterval = 0 then 30 else cfg.testInterval
    webPort := if cfg.webPort = 0 then 8899 else cfg.webPort
    directDNS := some (cfg.directDNS.getD true)
    dialTimeoutMs := some (cfg.dialTimeoutMs.getD 5000)
    dialRetryCount := some (cfg.dialRetryCount.getD 3) }

theorem toConfig_withDefaults (cfg : FileConfig) :
    cfg.withDefaults.toConfig = cfg.toConfig.withDefaults := by
  have hzero : ∀ n d : Int64, (if n = 0 then d else n).toInt =
      if n.toInt = 0 then d.toInt else n.toInt := by
    intro n d
    have hiff : n = 0 ↔ n.toInt = 0 := Int64.toInt_inj.symm
    simp only [hiff]
    exact apply_ite Int64.toInt _ _ _
  have hsome : ∀ (p : Option Int64) (d : Int64),
      (some (p.getD d)).map Int64.toInt = some ((p.map Int64.toInt).getD d.toInt) := by
    intro p d
    cases p with
    | none => rfl
    | some n => rfl
  unfold FileConfig.toConfig FileConfig.withDefaults Config.withDefaults
  simp only [hzero, hsome]
  rfl

/-- `ensureProcessInConfig`: the configuration that is saved, where one is. -/
def FileConfig.ensureProcess (cfg : FileConfig) (proc : Str) : Option FileConfig :=
  if (cfg.rules.getD []).any (contains · proc) then none
  else some { cfg with rules := some (processEntry proc :: cfg.rules.getD []) }

theorem toConfig_ensureProcess (cfg : FileConfig) (proc : Str) :
    (cfg.ensureProcess proc).map FileConfig.toConfig =
      (ensureProcessInConfig cfg.toConfig proc).2 := by
  unfold FileConfig.ensureProcess ensureProcessInConfig
  split
  · rename_i h
    exact (if_pos h ▸ rfl)
  · rename_i h
    exact (if_neg h ▸ rfl)

/-! ## Writing and reading -/

def omitStr : Codec Str :=
  omitempty str List.isEmpty id fun
    | [] => rfl
    | _ :: _ => rfl

def omitBool : Codec Bool :=
  omitempty bool (!·) id fun
    | false => rfl
    | true => rfl

def omitInt : Codec Int64 :=
  omitempty int (· == 0) id (by
    intro n
    split
    · rename_i h
      exact eq_of_beq h
    · rfl)

/-- An empty slice that is left out becomes `nil`. -/
def keptItems : Option (List Str) → Option (List Str)
  | some [] => none
  | l => l

def omitStrs : Codec (Option (List Str)) :=
  omitempty strs (fun l => (l.getD []).isEmpty) keptItems fun
    | none => rfl
    | some [] => rfl
    | some (_ :: _) => rfl

def intPointer : Codec (Option Int64) :=
  pointer int (fun _ => ⟨_, rfl, nofun⟩) id fun _ => Option.map_id'.symm

def boolPointer : Codec (Option Bool) :=
  pointer bool (fun _ => ⟨_, rfl, nofun⟩) id fun _ => Option.map_id'.symm

section

variable [FloatText]

/-- A number -0 that is left out becomes 0. -/
def keptFloat (x : FiniteF64) : FiniteF64 := if x.val.eq F64.zero then .zero else x

def omitFloat : Codec FiniteF64 := omitempty float64 (·.val.eq F64.zero) keptFloat fun _ => rfl

def otelFields : List (StructField OtelConfig) :=
  [ .of "enabled" bool (·.enabled) ({ · with enabled := · }),
    .of "endpoint" omitStr (·.endpoint) ({ · with endpoint := · }),
    .of "protocol" omitStr (·.protocol) ({ · with protocol := · }),
    .of "insecure" omitBool (·.insecure) ({ · with insecure := · }),
    .of "service_name" omitStr (·.serviceName) ({ · with serviceName := · }),
    .of "sample_rate" omitFloat (·.sampleRate) ({ · with sampleRate := · }),
    .of "skip_probe" omitBool (·.skipProbe) ({ · with skipProbe := · }) ]

def OtelConfig.zero : OtelConfig := ⟨false, [], [], false, [], .zero, false⟩

def OtelConfig.kept (cfg : OtelConfig) : OtelConfig :=
  { cfg with sampleRate := keptFloat cfg.sampleRate }

theorem otelFields_kept (cfg : OtelConfig) :
    otelFields.foldlM (StructField.copy cfg) .zero = some cfg.kept := by
  unfold otelFields
  iterate 7 rw [foldlM_copy_of]
  all_goals rfl

theorem distinct_otelFields : Distinct otelFields := by
  have hnames : otelFields.map StructField.name = ["enabled", "endpoint", "protocol", "insecure",
    "service_name", "sample_rate", "skip_probe"] := rfl
  rw [Distinct, hnames]
  decide +kernel

/-- The type of the member `otel`. -/
def otelCodec : Codec OtelConfig :=
  record otelFields .zero OtelConfig.kept distinct_otelFields otelFields_kept

def otelPointer : Codec (Option OtelConfig) :=
  pointer otelCodec (fun _ => ⟨_, rfl, nofun⟩) (Option.map OtelConfig.kept) fun _ => rfl

def fields : List (StructField FileConfig) :=
  [ .of "upstreams" strs (·.upstreams) ({ · with upstreams := · }),
    .of "rules" strs (·.rules) ({ · with rules := · }),
    .of "test_interval" int (·.testInterval) ({ · with testInterval := · }),
    .of "web_port" omitInt (·.webPort) ({ · with webPort := · }),
    .of "socks_port" intPointer (·.socksPort) ({ · with socksPort := · }),
    .of "http_port" intPointer (·.httpPort) ({ · with httpPort := · }),
    .of "enable_ebpf" boolPointer (·.enableEbpf) ({ · with enableEbpf := · }),
    .of "direct_dns" boolPointer (·.directDNS) ({ · with directDNS := · }),
    .of "dial_timeout_ms" intPointer (·.dialTimeoutMs) ({ · with dialTimeoutMs := · }),
    .of "dial_retry_count" intPointer (·.dialRetryCount) ({ · with dialRetryCount := · }),
    .of "bypass_nodes" omitStrs (·.bypassNodes) ({ · with bypassNodes := · }),
    .of "remote_lans" omitStrs (·.remoteLANs) ({ · with remoteLANs := · }),
    .of "rewrites" omitStrs (·.rewrites) ({ · with rewrites := · }),
    .of "otel" otelPointer (·.otel) ({ · with otel := · }) ]

def FileConfig.zero : FileConfig :=
  ⟨none, none, 0, 0, none, none, none, none, none, none, none, none, none, none⟩

/-- What is left of a configuration that was saved. -/
def FileConfig.kept (cfg : FileConfig) : FileConfig :=
  { cfg with
    bypassNodes := keptItems cfg.bypassNodes
    remoteLANs := keptItems cfg.remoteLANs
    rewrites := keptItems cfg.rewrites
    otel := cfg.otel.map OtelConfig.kept }

theorem fields_kept (cfg : FileConfig) :
    fields.foldlM (StructField.copy cfg) .zero = some cfg.kept := by
  unfold fields
  iterate 14 rw [foldlM_copy_of]
  all_goals rfl

theorem distinct_fields : Distinct fields := by
  have hnames : fields.map StructField.name = ["upstreams", "rules", "test_interval", "web_port",
    "socks_port", "http_port", "enable_ebpf", "direct_dns", "dial_timeout_ms", "dial_retry_count",
    "bypass_nodes", "remote_lans", "rewrites", "otel"] := rfl
  rw [Distinct, hnames]
  decide +kernel

def configCodec : Codec FileConfig :=
  record fields .zero FileConfig.kept distinct_fields fields_kept

/-! ## The file -/

/-- `MarshalIndent`, as the bytes that are written. -/
def marshalIndent (cfg : FileConfig) : List UInt8 :=
  utf8.encode ((Value.obj (writeMembers fields cfg)).render indented 0)

/-- The byte order mark is taken off. -/
def trimBOM : List UInt8 → List UInt8
  | 0xef :: 0xbb :: 0xbf :: data => data
  | data => data

/-- Reading the data of a file, before the defaults. -/
def readConfig (data : List UInt8) : Option FileConfig :=
  configCodec.unmarshal (utf8.decode (trimBOM data))

/-- The files of the machine. -/
abbrev Files := Str → Option (List UInt8)

/-- Where a configuration is looked for: the path of the command line, and the global one, which is
empty where there is none. -/
structure Place where
  path : Str
  global : Str

def Place.finalPath (p : Place) (files : Files) : Str :=
  if p.path = ("vproxy.json" : Str) ∧ p.global ≠ [] ∧ (files p.global).isSome then p.global
  else p.path

def loadConfig (files : Files) (p : Place) : Option (FileConfig × Str) := do
  let data ← files (p.finalPath files)
  let cfg ← readConfig data
  some (cfg.withDefaults, p.finalPath files)

/-! ## Saving and loading -/

theorem marshalIndent_braces (cfg : FileConfig) :
    ∃ middle, marshalIndent cfg = 0x7b :: (middle ++ [0x7d]) := by
  obtain ⟨middle, hmiddle⟩ := render_obj_braces indented 0 (writeMembers fields cfg)
  refine ⟨utf8.encode middle, ?_⟩
  have hopen : utf8.encode ['\x7b'] = [0x7b] := by decide
  have hclose : utf8.encode ['\x7d'] = [0x7d] := by decide
  rw [marshalIndent, hmiddle, ← List.singleton_append, utf8.encode_append, utf8.encode_append,
    hopen, hclose, List.singleton_append]

/-- A saved configuration is read again, if only white space stands behind it. -/
theorem readConfig_append (cfg : FileConfig) (rest : List UInt8) :
    readConfig (marshalIndent cfg ++ rest) =
      if (utf8.decode rest).all isSpace then some cfg.kept else none := by
  have htrim : trimBOM (marshalIndent cfg ++ rest) = marshalIndent cfg ++ rest := by
    obtain ⟨middle, hmiddle⟩ := marshalIndent_braces cfg
    rw [hmiddle]
    rfl
  have hdepth : configCodec.depth ≤ maxNestingDepth := by
    have htwo : configCodec.depth = 2 := rfl
    rw [htwo]
    decide
  rw [readConfig, htrim, marshalIndent, utf8.decode_append]
  exact configCodec.unmarshal_append rfl hdepth indented (utf8.decode rest)

theorem readConfig_marshalIndent (cfg : FileConfig) :
    readConfig (marshalIndent cfg) = some cfg.kept := by
  have h := readConfig_append cfg []
  rwa [List.append_nil, utf8.decode] at h

end

end vproxy.configfile
