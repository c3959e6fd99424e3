import MovieCatalog.Service.Basic
import MovieCatalog.Settings.CommandLine

/-!
# Starting the program

The program starts with its arguments and its environment. It either ends at once, with a status and
a text, or it listens at an address with a service that is configured.
-/

namespace MovieCatalog

/-- How the program starts. -/
inductive Startup where
  /-- The version is shown. -/
  | version
  /-- Help is shown. -/
  | help
  /-- The arguments or the environment are at fault. -/
  | misused (fault : UsageFault)
  /-- There is no URL to send searches to. -/
  | misconfigured (fault : Url.Fault)
  /-- The address does not belong to this machine. -/
  | foreign (address : Net.SocketAddress)
  /-- The program listens. -/
  | listening (settings : Settings) (service : Service)

namespace Net

/-- The address stands for this machine: it is zero or a loopback address. -/
def SocketAddress.isLocal : SocketAddress → Bool
  | v4 a _ => a.bits = 0 ∨ a.octet 3 = 127
  | v6 a _ _ => a.groups = List.replicate 8 0 ∨ a.groups = List.replicate 7 0 ++ [1]

end Net

namespace Startup

/-- How the program starts with given settings. -/
def ofSettings (settings : Settings) : Startup :=
  match Service.configure settings.engineUrl settings.index with
  | .error fault => misconfigured fault
  | .ok service =>
    if settings.bind.isLocal then listening settings service else foreign settings.bind

/-- How the program starts with given arguments in a given environment. -/
def ofArguments (arguments : List String) (environment : List (String × String)) : Startup :=
  match Settings.read arguments environment with
  | .ok settings => ofSettings settings
  | .error .helpWanted => help
  | .error .versionWanted => version
  | .error fault => misused fault

/-- The status with which the program ends; none if it goes on. -/
def exitCode? : Startup → Option UInt32
  | version | help => some 0
  | misused _ => some 2
  | misconfigured _ | foreign _ => some 1
  | listening .. => none

/-- What is shown on standard output. -/
def output : Startup → String
  | version => serviceName ++ " " ++ serviceVersion ++ "\n"
  | _ => ""

/-- The report of an error with its causes. -/
def report (error : String) (causes : List String) : String :=
  let listed :=
    match causes with
    | [cause] => ["    " ++ cause]
    | causes => causes.mapIdx fun i cause =>
      "    " ++ String.ofList (Numeral.ofNat i) ++ ": " ++ cause
  "Error: " ++ error ++ "\n\nCaused by:\n" ++ String.join (listed.map (· ++ "\n"))

/-- What is shown on standard error. -/
def errorOutput : Startup → String
  | misconfigured fault =>
    report "Failed to configure Elasticsearch client"
      [(EngineFailure.invalidUrl fault).message, fault.message]
  | foreign address =>
    report ("Failed to bind " ++ String.ofList address.text)
      ["Cannot assign requested address (os error 99)"]
  | _ => ""

end Startup

end MovieCatalog
