import MountPolicy.TypeOptions

/-! Block devices as configuration sees them: a node, the links to it, and the
properties that the device database has for it.

A device reports options about itself in properties whose names begin with the hint
marker; the rest of such a name is a configuration key. The device database has one
text per device. A line of it is a tag, a colon and a payload; the tag `E` sets a
property, the tag `S` adds a link below the device directory, and other tags have no
meaning here. -/
namespace MountPolicy

abbrev Properties := SortedMap Text Text

namespace Properties

def isTrue (properties : Properties) (name : Text) : Bool :=
  (properties.get? name).any fun value =>
    value == ['1'] || Text.lowercase value == "true".toList

end Properties

/-- `properties` is absent when the device is gone and they cannot be read. -/
structure Device where
  path : Text
  links : List Text := []
  properties : Option Properties := some .empty

namespace Device

def withLink (device : Device) (link : Text) : Device :=
  { device with links := device.links ++ [link] }

def withProperty (device : Device) (name value : Text) : Device :=
  { device with properties := some ((device.properties.getD .empty).insert name value) }

def readProperties (device : Device) : Except MountError Properties :=
  match device.properties with
  | some properties => .ok properties
  | none => .error (.deviceUnavailable device.path)

/-- Marks a filesystem that is mounted where all users can see it. -/
def sharedProperty : Text := "UDISKS_FILESYSTEM_SHARED".toList

end Device

open Logged

def hintMarker : Text := "UDISKS_MOUNT_OPTIONS_".toList

def hintKey? (name : Text) : Option Text := (hintMarker.isPrefixOf? name).map Text.lowercase

/-- Options from the hint properties, in order of their names. -/
def TypeOptions.ofProperties (properties : Properties) : Logged TypeOptions :=
  properties.entries.foldlM (fun options (name, value) =>
    match hintKey? name with
    | some key => TypeOptions.applyEntry options key value
    | none => return options) .empty

def Device.hints (device : Device) : Logged (Except MountError TypeOptions) :=
  match device.readProperties with
  | .error error => return .error error
  | .ok properties => do return .ok (← TypeOptions.ofProperties properties)

structure DeviceRecord where
  node : Text
  links : List Text := []
  properties : Properties := .empty

namespace DeviceRecord

inductive Line where
  | property (name value : Text)
  | link (path : Text)
  | other
deriving DecidableEq

def linkDirectory : Text := "/dev/".toList

/-- Reads a line. It needs a colon, and an equals sign too if it is a property. -/
def Line.ofText? (line : Text) : Option Line := do
  let (tag, payload) ← Text.splitFirst? ':' line
  if tag = ['E'] then
    let (name, value) ← Text.splitFirst? '=' payload
    return .property name value
  else if tag = ['S'] then return .link (linkDirectory ++ payload)
  else return .other

def addLine (record : DeviceRecord) : Line → DeviceRecord
  | .property name value =>
    { record with properties := record.properties.insert name value }
  | .link path => { record with links := record.links ++ [path] }
  | .other => record

def readLines : List Text → Except Text (List Line)
  | [] => .ok []
  | text :: rest =>
    match Line.ofText? text with
    | none => .error text
    | some line => (readLines rest).map (line :: ·)

/-- Reads the record of the device at a node. Empty lines have no meaning. -/
def ofText (node content : Text) : Except Text DeviceRecord :=
  (readLines ((Text.lines content).filter (· ≠ []))).map fun lines =>
    lines.foldl addLine { node }

def device (record : DeviceRecord) : Device :=
  { path := record.node, links := record.links, properties := some record.properties }

end DeviceRecord

end MountPolicy
