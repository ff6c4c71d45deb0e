import StorageFeatures.Cli.Scan

/-!
# Commands

The program has four commands. A command line is read in two levels: what is said before the name
of the command and what is said after it. The parameters of the log can be given at both.
-/

namespace StorageFeatures.Cli

def programName : String := "storage-capability"

def programVersion : String := "0.2.0"

/-- What the program is for. -/
def purpose : String := "Derives per-StorageClass capability objects from CSI plugin capabilities"

/-- How the inventory is printed. -/
inductive Format where
  | table
  | yaml
  deriving DecidableEq, Repr

/-- The settings of a controller. -/
structure ControllerSettings where
  workers : Nat
  config : ControllerConfig
  /-- The period of the resync of the informers, in seconds. -/
  resyncSeconds : Nat
  /-- Where health and metrics are served. -/
  metricsAddress : Option Http.SocketAddress

/-- The settings of a sidecar. -/
structure SidecarSettings where
  /-- The address of the plugin, which is not checked yet. -/
  address : String
  timeoutSeconds : Nat
  resyncSeconds : Nat
  driverName : Option String
  metricsAddress : Option Http.SocketAddress

inductive Command where
  | controller (settings : ControllerSettings)
  | sidecar (settings : SidecarSettings)
  | definitions
  | inspect (format : Format)

/-! ### Parameters -/

namespace Parameter

def logLevel : Parameter where
  long := "log-level"
  env := some "LOG_LEVEL"
  default := some "info"
  help := "Log level (trace, debug, info, warn, error)"

def logJson : Parameter where
  long := "log-json"
  env := some "LOG_JSON"
  help := "Output logs as JSON"
  isFlag := true
  check := oneOf ["true", "false"]

/-- The parameters of every level. -/
def common : List Parameter := [logLevel, logJson]

/-- A parameter whose values are whole numbers. -/
def word (long env default help : String) : Parameter where
  long := long
  env := some env
  default := some default
  help := help
  check := readable readWord

def workers : Parameter :=
  word "workers" "WORKERS" "2" "Number of parallel reconcile workers"

def minKubeVersion : Parameter where
  long := "min-kube-version"
  env := some "MIN_KUBE_VERSION"
  default := some "v1.20.0"
  help := "Minimum supported Kubernetes version"
  check := readable readVersion

def informerResync : Parameter :=
  word "resync-period-secs" "RESYNC_PERIOD" "30" "Informer resync period in seconds"

def cacheSyncTimeout : Parameter :=
  word "cache-sync-timeout-secs" "CACHE_SYNC_TIMEOUT" "0"
    "Give up waiting for the caches after this many seconds (0 waits forever)"

/-- Where health and metrics are served. -/
def metrics (default : Option String) (help : String) : Parameter where
  long := "metrics-addr"
  env := some "METRICS_ADDR"
  default := default
  help := help
  check := readable readSocketAddress

def controllerMetrics : Parameter :=
  metrics (some "0.0.0.0:8080") "Health and metrics server bind address"

def retryBaseDelay : Parameter :=
  word "retry-base-delay-ms" "RETRY_BASE_DELAY_MS" "5"
    "First retry delay for a failed key, in milliseconds"

def retryMaxDelay : Parameter :=
  word "retry-max-delay-secs" "RETRY_MAX_DELAY" "1000"
    "Upper bound for the retry delay, in seconds"

def csiAddress : Parameter where
  long := "csi-address"
  env := some "CSI_ADDRESS"
  default := some "/run/csi/socket"
  help := "CSI endpoint (unix socket path, unix://, or http(s)://host:port)"

def csiTimeout : Parameter :=
  word "timeout-secs" "CSI_TIMEOUT" "60" "Deadline for each CSI call, in seconds"

def probeInterval : Parameter :=
  word "resync-period-secs" "RESYNC_PERIOD" "60" "Interval between probes, in seconds"

def driverName : Parameter where
  long := "driver-name"
  env := some "DRIVER_NAME"
  help := "Expected plugin name; ticks are skipped when the plugin reports another"

def sidecarMetrics : Parameter :=
  metrics none "Health and metrics server bind address (disabled when unset)"

def output : Parameter where
  long := "output"
  letter := some 'o'
  default := some "table"
  help := "Output format"
  choices := ["table", "yaml"]
  check := oneOf ["table", "yaml"]

end Parameter

/-! ### Levels -/

/-- The commands by name. -/
inductive CommandName where
  | controller
  | sidecar
  | definitions
  | inspect
  deriving DecidableEq, Repr

namespace CommandName

def all : List CommandName := [controller, sidecar, definitions, inspect]

def name : CommandName → String
  | controller => "controller"
  | sidecar => "sidecar"
  | definitions => "crds"
  | inspect => "inspect"

def about : CommandName → String
  | controller => "Run the StorageClassCapability controller"
  | sidecar => "Run the ProvisionerCapability sidecar next to a CSI plugin"
  | definitions => "Print the CustomResourceDefinitions as YAML"
  | inspect => "List StorageClasses and capability objects in the cluster"

/-- The parameters of a command alone. -/
def parameters : CommandName → List Parameter
  | controller => [.workers, .minKubeVersion, .informerResync, .cacheSyncTimeout,
      .controllerMetrics, .retryBaseDelay, .retryMaxDelay]
  | sidecar => [.csiAddress, .csiTimeout, .probeInterval, .driverName, .sidecarMetrics]
  | definitions => []
  | inspect => [.output]

def ofName? (s : String) : Option CommandName := all.find? fun c => c.name = s

/-- What may follow the name of the command. -/
def level (c : CommandName) : Level := { parameters := c.parameters ++ Parameter.common }

end CommandName

/-- The command that prints the help of others. -/
def helpCommand : String := "help"

/-- What may be said before a command. -/
def topLevel : Level where
  parameters := Parameter.common
  commands := CommandName.all.map CommandName.name ++ [helpCommand]
  hasVersion := true

/-! ### Settings -/

/-- The value of a parameter, else its default. -/
def valueOf (values : NameMap String) (p : Parameter) : Option String :=
  (values.get? p.long).or p.default

/-- A value that has been checked, as what it stands for. -/
def readValue (read : String → Except String α) (values : NameMap String) (p : Parameter) :
    Option α :=
  (valueOf values p).bind fun s => (read s).toOption

/-- A whole number that has been checked. -/
def wordOf (values : NameMap String) (p : Parameter) : Nat := (readValue readWord values p).getD 0

def ControllerSettings.ofValues (values : NameMap String) : ControllerSettings where
  workers := wordOf values .workers
  config :=
    { minVersion := (readValue readVersion values .minKubeVersion).getD .minimal
      syncTimeout :=
        match wordOf values .cacheSyncTimeout with
        | 0 => none
        | seconds => some (seconds * 1000)
      backoff := ⟨wordOf values .retryBaseDelay, wordOf values .retryMaxDelay * 1000⟩ }
  resyncSeconds := wordOf values .informerResync
  metricsAddress := readValue readSocketAddress values .controllerMetrics

def SidecarSettings.ofValues (values : NameMap String) : SidecarSettings where
  address := (valueOf values .csiAddress).getD ""
  timeoutSeconds := wordOf values .csiTimeout
  resyncSeconds := wordOf values .probeInterval
  driverName := valueOf values .driverName
  metricsAddress := readValue readSocketAddress values .sidecarMetrics

/-- The command with its settings. -/
def CommandName.withValues (values : NameMap String) : CommandName → Command
  | controller => .controller (.ofValues values)
  | sidecar => .sidecar (.ofValues values)
  | definitions => .definitions
  | inspect => .inspect (if valueOf values .output = some "yaml" then .yaml else .table)

/-! ### Command lines -/

/-- Whose help is asked for. -/
inductive HelpTopic where
  | program
  | command (name : CommandName)
  /-- The command that prints the help of others. -/
  | help
  deriving DecidableEq, Repr

/-- What a command line asks for. -/
inductive Request where
  | run (command : Command)
  | help (topic : HelpTopic)
  | version
  /-- Nothing: the program explains itself. -/
  | nothing

/-- What a stop comes to at a level. -/
def Stop.toRequest (topic : HelpTopic) : Stop → Except UsageFault Request
  | usage fault => .error fault
  | help => .ok (.help topic)
  | version => .ok .version

/-- Reads the names after the command that prints help. -/
def helpRequest : List String → Except UsageFault Request
  | [] => .ok (.help .program)
  | name :: rest =>
    let topic := if name = helpCommand then some .help
      else (CommandName.ofName? name).map HelpTopic.command
    match topic, rest with
    | none, _ => .error (.unknownCommand name)
    | some topic, [] => .ok (.help topic)
    | some _, next :: _ => .error (.unknownCommand next)

/-- Reads what follows the name of a command. -/
def commandRequest (environment : String → Option String) (c : CommandName) (rest : List String) :
    Except UsageFault Request :=
  let scanned : Except Stop Scan := do
    let (s, _) ← c.level.scan {} rest
    c.level.complete environment s
  match scanned with
  | .ok s => .ok (.run (c.withValues s.values))
  | .error stop => stop.toRequest (.command c)

/-- Reads a command line. -/
def Request.ofArguments (environment : String → Option String) (arguments : List String) :
    Except UsageFault Request :=
  match topLevel.scan {} arguments with
  | .error stop => stop.toRequest .program
  | .ok (s, none) =>
    match topLevel.complete environment s with
    | .error stop => stop.toRequest .program
    | .ok s => if s.values.isEmpty then .ok .nothing else .error .noCommand
  | .ok (s, some (name, rest)) =>
    match CommandName.ofName? name with
    | none => helpRequest rest
    | some c => do
      let request ← commandRequest environment c rest
      match topLevel.complete environment s with
      | .error stop => stop.toRequest .program
      | .ok _ => return request

end StorageFeatures.Cli
