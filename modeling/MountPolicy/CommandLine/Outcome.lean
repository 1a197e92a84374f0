import MountPolicy.CommandLine.Command
import MountPolicy.FileTree
import MountPolicy.Policy

/-! What a command answers: an exit code, a text for the standard output, and a
failure with its causes. -/
namespace MountPolicy.CommandLine

open Logged

/-- What commands ask of the system that they run on. -/
structure Host where
  devices : DeviceDirectory
  users : UserDirectory
  configFile : Text → ConfigFile

/-- A failure, and what it was caused by, the nearest cause first. -/
structure Failure where
  message : Text
  causes : List Text := []

namespace Failure

def indented (margin : Text) (t : Text) : Text :=
  t.flatMap fun c => if c = '\n' then c :: margin else [c]

/-- One cause is indented; several are numbered. -/
def causeLines : List Text → List Text
  | [cause] => ["    ".toList ++ indented "    ".toList cause]
  | causes => causes.zipIdx.map fun (cause, i) =>
    "    ".toList ++ Text.ofNat i ++ ": ".toList ++ indented "       ".toList cause

def text (failure : Failure) : Text :=
  if failure.causes = [] then failure.message
  else
    List.intercalate ['\n']
      (failure.message :: [] :: "Caused by:".toList :: causeLines failure.causes)

end Failure

structure Outcome where
  exitCode : UInt32 := 0
  output : Text := []
  failure : Option Failure := none

namespace Outcome

def ofFailure (failure : Failure) : Outcome := { exitCode := 1, failure := some failure }

def ofLine (line : Text) : Outcome := { output := line ++ ['\n'] }

def usage : List String :=
  ["Usage: effective --device <PATH> [SWITCHES]",
   "       calculate --device <PATH> --uid <UID> [--options <OPTIONS>] [SWITCHES]",
   "",
   "  --symlink <PATH>         a link to the device; may be repeated",
   "  --property <KEY=VALUE>   a property of the device; may be repeated",
   "  --udev                   take links and properties from the device database",
   "  --fstype <TYPE>          the filesystem type",
   "  --config-dir <PATH>      the directory of mount_options.conf"]

def ofStop : Stop → Outcome
  | .help => { output := usage.flatMap fun line => line.toList ++ ['\n'] }
  | .misuse => { exitCode := 2 }

end Outcome

def defaultConfigPath : Text := "/etc/udisks2".toList

def DeviceArguments.configDirectory (arguments : DeviceArguments) (host : Host) : ConfigDirectory :=
  let path := arguments.configPath.getD defaultConfigPath
  ⟨path, host.configFile path⟩

def recordFailure (path : Text) (fault : RecordFault) : Failure :=
  { message := "reading udev record of ".toList ++ path, causes := fault.causes }

/-- The device of a command: from its record if that is asked for, and with the
links and properties of the arguments on top. -/
def DeviceArguments.load (arguments : DeviceArguments) (host : Host) : Except Failure Device := do
  let device ←
    if arguments.fromRecord then
      ((host.devices.record arguments.path).map DeviceRecord.device).mapError
        (recordFailure arguments.path)
    else .ok { path := arguments.path }
  let linked := arguments.links.foldl Device.withLink device
  return arguments.properties.foldl (fun d (name, value) => d.withProperty name value) linked

namespace Command

def runWith (command : Command) (policy : Policy) (device : Device) : Logged Outcome :=
  match command with
  | .effective arguments => do
    return .ofLine (← policy.effective device arguments.typeName).json
  | .calculate arguments caller options => do
    match ← policy.mountString device caller arguments.typeName options with
    | .ok text => return .ofLine text
    | .error error => return .ofFailure ⟨error.message, []⟩

def run (command : Command) (host : Host) : Logged Outcome := do
  match ← Store.builtin with
  | .error error =>
    return .ofFailure ⟨"built-in mount options are unusable".toList, [error.message]⟩
  | .ok builtin =>
    match command.device.load host with
    | .error failure => return .ofFailure failure
    | .ok device =>
      command.runWith ⟨builtin, command.device.configDirectory host, host.users⟩ device

end Command

def answer (host : Host) (arguments : List Text) : Logged Outcome :=
  match Command.ofArguments arguments with
  | .error stop => return .ofStop stop
  | .ok command => command.run host

end MountPolicy.CommandLine
