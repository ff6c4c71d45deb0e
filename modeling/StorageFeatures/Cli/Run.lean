import StorageFeatures.Address
import StorageFeatures.Api.Call
import StorageFeatures.Cli.Help
import StorageFeatures.Definition

/-!
# Running a command

What the program prints and how it ends. A controller or sidecar that gets past its first steps
works until it is told to stop, so it does not end by itself.
-/

namespace StorageFeatures.Cli

/-- How the program ends. -/
structure Ending where
  code : Nat
  stdout : String := ""
  stderr : String := ""
  deriving DecidableEq, Repr

namespace Ending

def success (stdout : String) : Ending := { code := 0, stdout }

/-- A command fails. -/
def failure (message : String) : Ending :=
  { code := 1, stderr := "Error: " ++ message ++ "\n" }

/-- The program breaks off. -/
def crash (message : String) : Ending := { code := 101, stderr := message ++ "\n" }

/-- The command line cannot be used. -/
def misuse (fault : UsageFault) : Ending where
  code := 2
  stderr := "error: " ++ fault.message programName ++
    "\n\nFor more information, try '--help'.\n"

end Ending

/-- What the program finds around it. -/
structure Surroundings where
  /-- What the clock shows, in milliseconds. -/
  now : Nat := 0
  /-- The variables of the environment. -/
  environment : String → Option String
  /-- The way to the API server, if one is configured. -/
  server : Option (Api.Transport Id)

/-- A command that needs an API server that is not configured. -/
def noServer : Ending := .failure "failed to create Kubernetes client"

/-- How a run of the controller ends the program. -/
def endOfRun (unsynced : List Kind) : Exit → Ending
  | .completed | .versionTooOld .. => .success ""
  | .broken => .crash "overflow when adding duration to instant"
  | .cachesNotSynced =>
    .failure ("watch caches did not sync: " ++ ", ".intercalate (unsynced.map Kind.name))
  | .failed fault => .failure fault.message

/-- A controller stays if the version of the cluster is fine and the end of its wait for the caches
can be told. -/
def runController (s : ControllerSettings) (now : Nat) (server : Option (Api.Transport Id)) :
    Option Ending :=
  match server with
  | none => some noServer
  | some send => (s.config.obstacle now (Api.serverVersion send).run).map (endOfRun [])

/-- A sidecar stays if the address of its plugin is well-formed; it waits for the plugin. -/
def runSidecar (s : SidecarSettings) : Option Ending :=
  match Address.read s.address with
  | .error fault => some (.failure fault.message)
  | .ok _ => none

def runInspect (format : Format) (server : Option (Api.Transport Id)) : Ending :=
  match server with
  | none => noServer
  | some send =>
    match (Api.collect send).run.run with
    | .error fault => .failure fault.message
    | .ok inventory =>
      .success (match format with
        | .table => inventory.table
        | .yaml => Yaml.document inventory.toJson)

/-- Runs a command; `none` if it does not end by itself. -/
def Command.run (now : Nat) (server : Option (Api.Transport Id)) : Command → Option Ending
  | controller s => runController s now server
  | sidecar s => runSidecar s
  | definitions => some (.success Definition.yaml)
  | inspect format => some (runInspect format server)

/-- Runs the program; `none` if it does not end by itself. -/
def run (around : Surroundings) (arguments : List String) : Option Ending :=
  match Request.ofArguments around.environment arguments with
  | .error fault => some (.misuse fault)
  | .ok .version => some (.success (programName ++ " " ++ programVersion ++ "\n"))
  | .ok (.help topic) => some (.success (topic.page around.environment))
  | .ok .nothing => some { code := 2, stderr := HelpTopic.program.page around.environment }
  | .ok (.run command) => command.run around.now around.server

/-- Without a server, nothing but a sidecar stays. -/
theorem run_sidecar_of_eq_none {c : Command} {now : Nat} (h : c.run now none = none) :
    ∃ s, c = .sidecar s := by
  cases c with
  | sidecar s => exact ⟨s, rfl⟩
  | controller s => simp [Command.run, runController] at h
  | definitions => simp [Command.run] at h
  | inspect f => simp [Command.run] at h

end StorageFeatures.Cli
