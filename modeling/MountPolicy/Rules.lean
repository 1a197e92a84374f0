import MountPolicy.User

/-! The rules of a request: the options it consists of, which of them a caller may
use, and the option string that the mount is made with.

A request has the defaults in force, filled in for the caller, and after them the options
that the caller asks for. The rules of permission are tried in order and the first that
applies decides: a value that the lists fix, an id that has to be the caller's own, a name
that is free, and the marker of options that stay in user space. In the option string the
fixed options come first. An option that is not allowed stops the request. -/
namespace MountPolicy

namespace Mode

def isOctal (c : Char) : Bool := '0' ≤ c && c ≤ '7'

/-- The permissions of group and others on a mount that all users share: the
owner's without writing, but reading at least. -/
def relaxed (owner : Char) : Char :=
  Char.ofNat ('0'.toNat + max (owner.toNat - '0'.toNat - 2) 4)

/-- Gives group and others what a shared mount needs. The last three digits are
those of owner, group and others; a text that is no mode has no shared form. -/
def shared? (mode : Text) : Option Text :=
  if mode.all isOctal then
    match mode.reverse with
    | _ :: _ :: owner :: rest =>
      some (rest.reverse ++ [owner, relaxed owner, relaxed owner])
    | _ => none
  else none

def sharedDirectory : Text := "0555".toList

end Mode

open Logged

/-- Options whose names begin so have no meaning to the kernel. -/
def userspaceMarker : Text := "x-".toList

structure Rules where
  set : OptionSet
  users : UserDirectory

namespace Rules

def ownId? (option : MountOption) (field : Field) : Logged (Option UInt32) :=
  match option.content? with
  | none => do
    report (.selfCheckWithoutValue option.name field)
    return none
  | some value => return Text.toId? value

def pinned (set : OptionSet) (option : MountOption) : Bool :=
  option.content?.any fun value => set.contains .allow (option.name ++ '=' :: value)

/-- Whether the list allows the option with any value, or the option's name says
that it stays in user space. -/
def free (set : OptionSet) (option : MountOption) : Bool :=
  set.contains .allow (option.name ++ ['=']) || set.contains .allow option.name
    || userspaceMarker.isPrefixOf option.name

def allows (rules : Rules) (caller : UInt32) (option : MountOption) : Logged Bool :=
  let set := rules.set
  if pinned set option then return true
  else if set.contains .allowUidSelf option.name then do
    return (← ownId? option .allowUidSelf) == some caller
  else if set.contains .allowGidSelf option.name then do
    match ← ownId? option .allowGidSelf with
    | none => return false
    | some gid => rules.users.isMember caller gid
  else return free set option

/-- One default as the caller gets it. A value that the lists fix stays. A user
or group id becomes the caller's, a group id is left out if the caller is
unknown, and on a shared mount modes let everybody read. -/
def expandDefault (rules : Rules) (caller : UInt32) (sharedMount : Bool) (spec : Text) :
    Logged (Option MountOption) :=
  let option := MountOption.ofSpec spec
  match option.value with
  | none => return some option
  | some value =>
    if value ≠ [] ∧ rules.set.contains .allow spec then return some option
    else if option.name = "uid".toList then return some (.assign option.name (Text.ofId caller))
    else if option.name = "gid".toList then do
      return (← rules.users.userInfo caller).map fun user =>
        .assign option.name (Text.ofId user.primaryGid)
    else if option.name = "mode".toList ∧ sharedMount then
      match Mode.shared? value with
      | some mode => return some (.assign option.name mode)
      | none => do
        report (.unexpectedMode value)
        return some option
    else if option.name = "dmode".toList ∧ sharedMount then
      return some (.assign option.name Mode.sharedDirectory)
    else return some option

def defaultOptions (rules : Rules) (caller : UInt32) (sharedMount : Bool) :
    Logged (List MountOption) := do
  let options ← (rules.set.elements .defaults).mapM (rules.expandDefault caller sharedMount)
  return options.filterMap id

def requestedOptions (rules : Rules) (caller : UInt32) (sharedMount : Bool)
    (callerOptions : Option Text) :
    Logged (Except OptionString.Malformed (List MountOption)) := do
  let defaults ← rules.defaultOptions caller sharedMount
  match callerOptions with
  | none => return .ok defaults
  | some text => return (OptionString.read text).map (defaults ++ ·)

end Rules

/-- Part of every mount, whatever the configuration says. -/
def safetyOptions : List MountOption :=
  [.assign "uhelper".toList "udisks2".toList, .flag "nodev".toList, .flag "nosuid".toList]

/-- Whether the option's text could be read as more than one option. The kernel
ends an option at an escaped comma too. -/
def hidesComma (option : MountOption) : Bool :=
  option.name.contains ',' || option.value.any fun value => Text.occurs ['\\', ','] value

namespace Rules

def refusal? (rules : Rules) (caller : UInt32) (option : MountOption) :
    Logged (Option Refusal) :=
  if hidesComma option then return some .malformed
  else do return if ← rules.allows caller option then none else some .notAllowed

def firstRefused? (rules : Rules) (caller : UInt32) :
    List MountOption → Logged (Option (MountOption × Refusal))
  | [] => return none
  | option :: rest => do
    match ← rules.refusal? caller option with
    | some reason => return some (option, reason)
    | none => rules.firstRefused? caller rest

def mountString (rules : Rules) (caller : UInt32) (options : List MountOption) :
    Logged (Except MountError Text) := do
  match ← rules.firstRefused? caller options with
  | some (option, reason) => return .error (.optionNotPermitted option.text reason)
  | none => return .ok (OptionString.write (safetyOptions ++ options))

end Rules

end MountPolicy
