import MountPolicy.EffectiveSet
import MountPolicy.Rules

/-! The policy of one system, and its answers to requests: the option set in
force for a device, and the option string for mounting it.

The administrator's configuration file is read anew for every request. A file that is
missing, or has no section, overrides nothing; neither does one that cannot be used, but
that is reported. -/
namespace MountPolicy

open Logged

inductive ConfigFile where
  | missing
  | directory
  | unreadable (detail : Text)
  | content (bytes : ByteArray)

structure ConfigDirectory where
  path : Text
  file : ConfigFile

namespace ConfigFile

def text? : ConfigFile → Except FileFault (Option Text)
  | missing => .ok none
  | directory => .error .directory
  | unreadable detail => .error (.other detail)
  | content bytes =>
    match String.fromUTF8? bytes with
    | some text => .ok (some text.toList)
    | none => .error .notUtf8

end ConfigFile

namespace ConfigDirectory

def fileName : Text := "mount_options.conf".toList

def filePath (directory : ConfigDirectory) : Text :=
  if directory.path.getLast? = some '/' then directory.path ++ fileName
  else directory.path ++ '/' :: fileName

/-- The overrides in the file, none if the file is missing or has no section. -/
def load (directory : ConfigDirectory) : Logged (Except MountError (Option Store)) :=
  match directory.file.text? with
  | .error fault => return .error (.file fault)
  | .ok none => do
    report (.noConfigFile directory.filePath)
    return .ok none
  | .ok (some text) => do
    match ← Store.ofText text with
    | .ok store => return .ok (some store)
    | .error .noSections => return .ok none
    | .error error => return .error error

/-- The overrides for a request, which a file that cannot be used does not stop. -/
def overrides (directory : ConfigDirectory) : Logged (Option Store) := do
  match ← directory.load with
  | .ok store => return store
  | .error error =>
    report (.configFileRefused directory.filePath error)
    return none

end ConfigDirectory

/-- The configuration that is built in, the administrator's, and the users that
both are applied to. -/
structure Policy where
  builtin : Store
  config : ConfigDirectory
  users : UserDirectory

namespace Policy

def layered (policy : Policy) (device : Device) (hints : Option TypeOptions)
    (typeName : Option Text) : Logged OptionSet := do
  let overrides ← policy.config.overrides
  let layers := .builtin policy.builtin :: overrides.toList.map .global ++ hints.toList.map .hints
  effectiveSet layers (some device) typeName

/-- The set in force for a device. Hints that cannot be read are left out. -/
def effective (policy : Policy) (device : Device) (typeName : Option Text) :
    Logged OptionSet := do
  match ← device.hints with
  | .ok hints => policy.layered device (some hints) typeName
  | .error error =>
    report (.hintsUnreadable error)
    policy.layered device none typeName

def mountStringWith (policy : Policy) (device : Device) (properties : Properties)
    (caller : UInt32) (typeName callerOptions : Option Text) :
    Logged (Except MountError Text) := do
  let hints ← TypeOptions.ofProperties properties
  let set ← policy.layered device (some hints) typeName
  let rules : Rules := ⟨set, policy.users⟩
  let sharedMount := properties.isTrue Device.sharedProperty
  match ← rules.requestedOptions caller sharedMount callerOptions with
  | .error fault => return .error (.malformedOptions fault)
  | .ok options =>
    match ← rules.mountString caller options with
    | .error error => return .error error
    | .ok text =>
      report (.mounted device.path caller text)
      return .ok text

/-- The option string for mounting a device, with every option of the request
allowed for the caller. -/
def mountString (policy : Policy) (device : Device) (caller : UInt32)
    (typeName callerOptions : Option Text) : Logged (Except MountError Text) :=
  match device.readProperties with
  | .error error => return .error error
  | .ok properties => policy.mountStringWith device properties caller typeName callerOptions

end Policy

end MountPolicy
