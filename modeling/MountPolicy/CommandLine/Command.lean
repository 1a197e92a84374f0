import MountPolicy.Text

/-! Commands and the arguments that they are read from. Arguments are read from
left to right; the first that cannot be used, or that asks for help, ends the
reading. A switch that takes a value has it attached after an equals sign or as
the next argument, which then must not look like a switch itself. -/
namespace MountPolicy.CommandLine

structure DeviceArguments where
  path : Text
  links : List Text
  properties : List (Text × Text)
  fromRecord : Bool
  typeName : Option Text
  configPath : Option Text
deriving DecidableEq

inductive Command where
  | effective (device : DeviceArguments)
  | calculate (device : DeviceArguments) (caller : UInt32) (options : Option Text)
deriving DecidableEq

def Command.device : Command → DeviceArguments
  | .effective device => device
  | .calculate device _ _ => device

/-- Why there is no command: the arguments ask for help, or they are unusable. -/
inductive Stop where
  | help
  | misuse
deriving DecidableEq

inductive Switch where
  | device
  | symlink
  | property
  | udev
  | fstype
  | configDir
  | uid
  | options
deriving DecidableEq

namespace Switch

def common : List (Text × Switch) :=
  [("device".toList, device), ("symlink".toList, symlink), ("property".toList, property),
   ("udev".toList, udev), ("fstype".toList, fstype), ("config-dir".toList, configDir)]

def forCalculate : List (Text × Switch) := [("uid".toList, uid), ("options".toList, options)]

end Switch

/-- What the arguments have given so far. -/
structure Draft where
  path : Option Text := none
  links : List Text := []
  properties : List (Text × Text) := []
  fromRecord : Bool := false
  typeName : Option Text := none
  configPath : Option Text := none
  caller : Option UInt32 := none
  options : Option Text := none
deriving DecidableEq

/-- A user id may have a sign, as long as its value is in range. -/
def callerId? : Text → Option UInt32
  | '+' :: digits => Text.toId? digits
  | '-' :: digits => (Text.toId? digits).filter (· == 0)
  | digits => Text.toId? digits

def once {α : Type} (earlier : Option α) (value : α) : Option (Option α) :=
  match earlier with
  | none => some (some value)
  | some _ => none

def nonEmpty? (t : Text) : Option Text := if t = [] then none else some t

namespace Draft

def set? (draft : Draft) (value : Text) : Switch → Option Draft
  | .device => do return { draft with path := ← once draft.path (← nonEmpty? value) }
  | .symlink => some { draft with links := draft.links ++ [value] }
  | .property => do
    return { draft with properties := draft.properties ++ [← Text.splitFirst? '=' value] }
  | .udev => none
  | .fstype => do return { draft with typeName := ← once draft.typeName value }
  | .configDir => do
    return { draft with configPath := ← once draft.configPath (← nonEmpty? value) }
  | .uid => do return { draft with caller := ← once draft.caller (← callerId? value) }
  | .options => do return { draft with options := ← once draft.options value }

def useRecord? (draft : Draft) : Option Draft :=
  if draft.fromRecord then none else some { draft with fromRecord := true }

def deviceArguments? (draft : Draft) : Option DeviceArguments := do
  return {
    path := ← draft.path
    links := draft.links
    properties := draft.properties
    fromRecord := draft.fromRecord
    typeName := draft.typeName
    configPath := draft.configPath }

end Draft

inductive Argument where
  | terminator
  | long (name : Text) (attached : Option Text)
  | short (letters : Text)
  | positional
deriving DecidableEq

def Argument.ofText : Text → Argument
  | ['-', '-'] => .terminator
  | '-' :: '-' :: body =>
    match Text.splitFirst? '=' body with
    | some (name, value) => .long name (some value)
    | none => .long body none
  | '-' :: c :: letters => .short (c :: letters)
  | _ => .positional

def helpName : Text := "help".toList

def orMisuse {α : Type} (x : Option α) : Except Stop α :=
  match x with
  | some value => .ok value
  | none => .error .misuse

def readArguments (switches : List (Text × Switch)) : Draft → List Text → Except Stop Draft
  | draft, [] => .ok draft
  | draft, argument :: rest =>
    match Argument.ofText argument with
    | .terminator => if rest = [] then .ok draft else .error .misuse
    | .positional => .error .misuse
    | .short letters => .error (if letters.head? = some 'h' then .help else .misuse)
    | .long name attached =>
      if name = helpName then .error (if attached = none then .help else .misuse)
      else
        match switches.lookup name, attached, rest with
        | none, _, _ => .error .misuse
        | some .udev, some _, _ => .error .misuse
        | some .udev, none, rest =>
          match draft.useRecord? with
          | some draft => readArguments switches draft rest
          | none => .error .misuse
        | some switch, some value, rest =>
          match draft.set? value switch with
          | some draft => readArguments switches draft rest
          | none => .error .misuse
        | some _, none, [] => .error .misuse
        | some switch, none, value :: rest =>
          if Argument.ofText value ≠ .positional then .error .misuse
          else
            match draft.set? value switch with
            | some draft => readArguments switches draft rest
            | none => .error .misuse

def effectiveName : Text := "effective".toList

def calculateName : Text := "calculate".toList

/-- The command that asks for help names at most one command. -/
def readHelp : List Text → Stop
  | [] => .help
  | [name] => if [effectiveName, calculateName, helpName].contains name then .help else .misuse
  | _ => .misuse

def Command.ofArguments : List Text → Except Stop Command
  | [] => .error .misuse
  | name :: rest =>
    if name = effectiveName then do
      let draft ← readArguments Switch.common {} rest
      return .effective (← orMisuse draft.deviceArguments?)
    else if name = calculateName then do
      let draft ← readArguments (Switch.common ++ Switch.forCalculate) {} rest
      return .calculate (← orMisuse draft.deviceArguments?) (← orMisuse draft.caller) draft.options
    else if name = helpName then .error (readHelp rest)
    else
      match Argument.ofText name with
      | .long name none => .error (if name = helpName then .help else .misuse)
      | .short ('h' :: _) => .error .help
      | _ => .error .misuse

end MountPolicy.CommandLine
