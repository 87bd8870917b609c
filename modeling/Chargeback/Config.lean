import Chargeback.Reconciler.Policy
import Chargeback.Upload.Schedule

/-!
# Configuration

The settings of the controller. They are read from a JSON text or from the
environment; whatever is left out has a default. In the environment all values
are texts and are converted, and the names of the variables do not depend on
case.

## Main definitions

* `Config`: the settings.
* `Config.ofJson?`: the settings that a JSON value gives.
* `Config.ofEnvironment?`: the settings that variables give.
* `Config.watchedKinds`: the kinds of resources that are watched.
-/

namespace Chargeback

/-- The settings of the controller. -/
structure Config where
  clusterName : String := "unknown"
  /-- The namespace that holds groups and subscribers. -/
  namespaceName : String := "default"
  apiPort : Nat := 8080
  bufferCapacity : Nat := 1000
  uploadBatchSize : Nat := 50
  uploadIntervalSecs : Nat := 10
  uploadMaxBackoffSecs : Nat := 300
  requestTimeoutSecs : Nat := 30
  watchPods : Bool := true
  watchNodes : Bool := true
  watchVolumes : Bool := true
  watchClaims : Bool := true
  watchServices : Bool := true
  watchReplicaSets : Bool := true
  watchDaemonSets : Bool := true
  watchDeployments : Bool := true
  watchStatefulSets : Bool := true
  watchJobs : Bool := true
  watchNamespaces : Bool := false
  updatePolicy : UpdatePolicy := .ignore
  deletePolicy : DeletePolicy := .purge
  labelGroups : Bool := true
  cpuMemoryRatio : Float := 0.3
  costConfigMap : String := "cost-rates"
  cloudType : String := "aws"

namespace Config

/-- A source of settings: how a value of each type is read from it, or its
default taken. -/
structure Source where
  text : String → String → Option String
  bool : String → Bool → Option Bool
  /-- Natural numbers below a bound. -/
  natural : Nat → String → Nat → Option Nat
  float : String → Float → Option Float
  word : {α : Type} → List (String × α) → String → α → Option α

/-- The names of the settings, in their order. -/
def fieldNames : List String :=
  ["cluster_name", "namespace", "api_port", "buffer_capacity", "upload_batch_size",
    "upload_interval_secs", "upload_max_backoff_secs", "request_timeout_secs", "watch_pods",
    "watch_nodes", "watch_volumes", "watch_claims", "watch_services", "watch_replica_sets",
    "watch_daemon_sets", "watch_deployments", "watch_stateful_sets", "watch_jobs",
    "watch_namespaces", "update_policy", "delete_policy", "label_groups", "cpu_memory_ratio",
    "cost_config_map", "cloud_type"]

/-- Read all settings from a source, with the values of `d` for what it leaves
out. -/
def read? (s : Source) (d : Config) : Option Config := do
  some
    { clusterName := ← s.text "cluster_name" d.clusterName
      namespaceName := ← s.text "namespace" d.namespaceName
      apiPort := ← s.natural UInt16.size "api_port" d.apiPort
      bufferCapacity := ← s.natural UInt64.size "buffer_capacity" d.bufferCapacity
      uploadBatchSize := ← s.natural UInt64.size "upload_batch_size" d.uploadBatchSize
      uploadIntervalSecs := ← s.natural UInt64.size "upload_interval_secs" d.uploadIntervalSecs
      uploadMaxBackoffSecs :=
        ← s.natural UInt64.size "upload_max_backoff_secs" d.uploadMaxBackoffSecs
      requestTimeoutSecs := ← s.natural UInt64.size "request_timeout_secs" d.requestTimeoutSecs
      watchPods := ← s.bool "watch_pods" d.watchPods
      watchNodes := ← s.bool "watch_nodes" d.watchNodes
      watchVolumes := ← s.bool "watch_volumes" d.watchVolumes
      watchClaims := ← s.bool "watch_claims" d.watchClaims
      watchServices := ← s.bool "watch_services" d.watchServices
      watchReplicaSets := ← s.bool "watch_replica_sets" d.watchReplicaSets
      watchDaemonSets := ← s.bool "watch_daemon_sets" d.watchDaemonSets
      watchDeployments := ← s.bool "watch_deployments" d.watchDeployments
      watchStatefulSets := ← s.bool "watch_stateful_sets" d.watchStatefulSets
      watchJobs := ← s.bool "watch_jobs" d.watchJobs
      watchNamespaces := ← s.bool "watch_namespaces" d.watchNamespaces
      updatePolicy := ← s.word UpdatePolicy.words "update_policy" d.updatePolicy
      deletePolicy := ← s.word DeletePolicy.words "delete_policy" d.deletePolicy
      labelGroups := ← s.bool "label_groups" d.labelGroups
      cpuMemoryRatio := ← s.float "cpu_memory_ratio" d.cpuMemoryRatio
      costConfigMap := ← s.text "cost_config_map" d.costConfigMap
      cloudType := ← s.text "cloud_type" d.cloudType }

/-! ## JSON -/

/-- Settings from the fields of a JSON record, which are never converted. -/
def recordSource (r : Json.Record) : Source where
  text := fun name d => r.withDefault? name d Json.text?
  bool := fun name d => r.withDefault? name d Json.bool?
  natural := fun bound name d => r.withDefault? name d (Json.naturalBelow? bound)
  float := fun name d => r.withDefault? name d Json.float?
  word := fun words name d => r.withDefault? name d (Json.word? words)

/-- The settings that a JSON value gives. -/
def ofJson? (j : Json) : Option Config := do
  read? (recordSource (← Json.record? fieldNames j)) {}

/-! ## The environment -/

/-- The words that stand for one in a text, in lower case. -/
def trueWords : List String := ["true", "on", "yes"]

/-- The words that stand for zero in a text, in lower case. -/
def falseWords : List String := ["false", "off", "no"]

/-- The truth value of a text: one or zero, or one of the words for them. -/
def boolOfText? (raw : String) : Option Bool :=
  let s := raw.toLower
  if s = "1" || trueWords.contains s then some true
  else if s = "0" || falseWords.contains s then some false
  else none

/-- The natural number below a bound that a text stands for: a word for one or
zero, or digits with an optional plus. -/
def naturalOfText? (bound : Nat) (raw : String) : Option Nat :=
  let s := raw.toLower
  if trueWords.contains s then some 1
  else if falseWords.contains s then some 0
  else
    let ds := match raw.toList with
      | '+' :: rest => rest
      | s => s
    if ds.isEmpty || !ds.all Char.isDigit then none
    else (some (Decimal.value ds)).filter (· < bound)

/-- The double that a text stands for: a word for one or zero, or a numeral. -/
def floatOfText? (raw : String) : Option Float :=
  let s := raw.toLower
  if trueWords.contains s then some 1.0
  else if falseWords.contains s then some 0.0
  else Decimal.readFloat? raw.toList

/-- Convert a variable if it is set. -/
def convert {α : Type} (vars : KeyMap String) (name : String) (default : α)
    (read : String → Option α) : Option α :=
  match vars.get? name with
  | some raw => read raw
  | none => some default

/-- Settings from variables, by the names of the settings. -/
def variableSource (vars : KeyMap String) : Source where
  text := fun name d => convert vars name d some
  bool := fun name d => convert vars name d boolOfText?
  natural := fun bound name d => convert vars name d (naturalOfText? bound)
  float := fun name d => convert vars name d floatOfText?
  word := fun words name d => convert vars name d fun raw => Entries.lookup raw.toLower words

/-- What the name of a variable starts with, in lower case, when it holds a
setting. -/
def variablePrefix : List Char := "controller_".toList

/-- The setting that a variable of the environment holds. -/
def settingOf? (name : String) : Option String :=
  let s := name.toLower.toList
  if variablePrefix.isPrefixOf s then some (String.ofList (s.drop variablePrefix.length)) else none

/-- The settings that the variables of the environment give. The name of the
cluster may also stand in a variable of its own. -/
def ofEnvironment? (env : KeyMap String) : Option Config :=
  let vars := KeyMap.ofList (env.entries.filterMap fun e => (settingOf? e.1).map (·, e.2))
  read? (variableSource vars) { clusterName := (env.get? "CLUSTER_NAME").getD "unknown" }

/-! ## Derived settings -/

/-- The settings of the upload loop; a batch holds one payload at least. -/
def uploader (c : Config) : UploadSettings where
  batchSize := max c.uploadBatchSize 1
  interval := 1000 * c.uploadIntervalSecs
  maxBackoff := 1000 * c.uploadMaxBackoffSecs
  requestTimeout := 1000 * c.requestTimeoutSecs

/-- The settings of event handling. -/
def reconciler (c : Config) : ReconcilerSettings where
  updatePolicy := c.updatePolicy
  deletePolicy := c.deletePolicy
  labelGroups := c.labelGroups

/-- The kinds of resources that are watched. -/
def watchedKinds (c : Config) : List ResourceKind :=
  [(c.watchPods, .pod), (c.watchNodes, .node), (c.watchVolumes, .persistentVolume),
    (c.watchClaims, .persistentVolumeClaim), (c.watchServices, .service),
    (c.watchReplicaSets, .replicaSet), (c.watchDaemonSets, .daemonSet),
    (c.watchDeployments, .deployment), (c.watchStatefulSets, .statefulSet),
    (c.watchJobs, .job), (c.watchNamespaces, .namespaceScope)].filterMap
      fun e => if e.1 then some e.2 else none

end Config

end Chargeback
