import MountPolicy.CommandLine.Outcome

/-! The program: arguments in, the answer of the command out. What a command asks of the
system is read from its files beforehand: the configuration file, the tables of accounts
and groups, and the device database. Notices go to the standard error, except those that
are only for finding faults. -/
namespace MountPolicy.CommandLine

def systemWords : List (UInt32 × String) :=
  [(5, "Input/output error"), (13, "Permission denied"), (20, "Not a directory"),
   (21, "Is a directory"), (36, "File name too long"), (40, "Too many levels of symbolic links")]

/-- An error by its number. Some calls give the number with its sign turned. -/
def detailOfCode (code : UInt32) (details : String) : Text :=
  let number := if code < 0x80000000 then code else 0 - code
  ((systemWords.lookup number).getD details).toList ++ " (os error ".toList
    ++ Text.ofId number ++ [')']

def systemDetail : IO.Error → Text
  | .alreadyExists _ code details | .interrupted _ code details
  | .noFileOrDirectory _ code details | .invalidArgument _ code details
  | .permissionDenied _ code details | .resourceExhausted _ code details
  | .inappropriateType _ code details | .noSuchThing _ code details
  | .otherError code details | .resourceBusy code details | .resourceVanished code details
  | .unsupportedOperation code details | .hardwareFault code details
  | .unsatisfiedConstraints code details | .illegalOperation code details
  | .protocolError code details | .timeExpired code details => detailOfCode code details
  | error => (toString error).toList

def readFile (path : Text) : IO ConfigFile := do
  try
    return .content (← IO.FS.readBinFile (String.ofList path))
  catch
    | .noFileOrDirectory .. => return .missing
    | .inappropriateType _ 21 _ => return .directory
    | error => return .unreadable (systemDetail error)

def readTable (path : String) : IO ByteArray := do
  match ← readFile path.toList with
  | .content bytes => return bytes
  | _ => return .empty

def readAccounts : IO AccountTables := do
  return .ofBytes (← readTable "/etc/passwd") (← readTable "/etc/group")

/-- The numbers of the block device with a node at the place. The system lists block devices
by the names of their nodes, with exclamation marks for slashes. -/
def readDeviceNumbers (place : Text) : IO (Option Text) := do
  let some name := DeviceRecord.linkDirectory.isPrefixOf? place | return none
  let entry := name.map fun c => if c = '/' then '!' else c
  match (← readFile ("/sys/class/block/".toList ++ entry ++ "/dev".toList)).text? with
  | .ok numbers => return numbers.map Text.trim
  | .error _ => return none

/-- The place that a path leads to, or why it leads nowhere, which only opening it tells. -/
def resolvePath (path : Text) : IO (Except RecordFault Text) := do
  try
    return .ok (toString (← IO.FS.realPath (String.ofList path))).toList
  catch _ =>
    match (← readFile path).text? with
    | .ok _ => return .error (.device (.notFound path))
    | .error fault => return .error (.system fault)

def findDevice (path : Text) : IO (Except RecordFault DeviceFile) := do
  match ← resolvePath path with
  | .error fault => return .error fault
  | .ok place =>
    let some numbers ← readDeviceNumbers place | return .ok ⟨place, none⟩
    match (← readFile ("/run/udev/data/b".toList ++ numbers)).text? with
    | .ok content => return .ok ⟨place, some content⟩
    | .error fault => return .error (.system fault)

/-- What the command that the arguments give may ask of the system. -/
def readHost (arguments : List Text) : IO Host := do
  let device := (Command.ofArguments arguments).toOption.map Command.device
  let directory := (device.bind DeviceArguments.configPath).getD defaultConfigPath
  let path := ((device.filter DeviceArguments.fromRecord).map DeviceArguments.path).getD []
  let file ← readFile (ConfigDirectory.filePath ⟨directory, .missing⟩)
  let accounts ← readAccounts
  let found ← findDevice path
  return ⟨⟨fun _ => found⟩, accounts.directory, fun _ => file⟩

def reportNotice (notice : Notice) : IO Unit := do
  if notice.level ≠ .debug then
    IO.eprintln (String.ofList (notice.level.name ++ ' ' :: notice.message))

def printOutcome (outcome : Outcome) : IO Unit := do
  IO.print (String.ofList outcome.output)
  if let some failure := outcome.failure then
    IO.eprintln (String.ofList ("Error: ".toList ++ failure.text))
  else if outcome.exitCode ≠ 0 then
    IO.eprintln (String.intercalate "\n" Outcome.usage)

end MountPolicy.CommandLine

open MountPolicy CommandLine

def main (args : List String) : IO UInt32 := do
  let arguments := args.map String.toList
  let result := answer (← readHost arguments) arguments
  result.notices.forM reportNotice
  printOutcome result.value
  return result.value.exitCode
