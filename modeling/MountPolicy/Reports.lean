import MountPolicy.KeyFile
import MountPolicy.OptionSet
import MountPolicy.OptionString

/-! Why a request, a configuration text or a file is refused, what is reported
while a request is answered, and answers together with what was reported on the way.
Each cause has one wording. Main statement: what is reported has no influence on the
answer, so the answer of a sequence is computed from the answers of its parts. -/
namespace MountPolicy

namespace OptionString

def Malformed.message (fault : Malformed) : Text :=
  "Malformed mount options string '".toList ++ fault.whole ++ "' at position ".toList
    ++ Text.ofNat fault.offset

end OptionString

namespace KeyFile

def Fault.message (fault : Fault) : Text :=
  "line ".toList ++ Text.ofNat fault.line ++
    match fault.cause with
    | .unclosedHeader =>
      ": Found opening bracket for section name but no closing bracket".toList
    | .emptyKey => ":0: Key cannot be empty".toList

end KeyFile

/-- A configuration text that cannot be used at all. The last two causes are for
the built-in policy, which must say something about every device and type. -/
inductive ConfigFault where
  | unreadable (fault : KeyFile.Fault)
  | policyWithoutSections
  | policyWithoutDefaults
deriving DecidableEq

def ConfigFault.message : ConfigFault → Text
  | .unreadable fault => fault.message
  | .policyWithoutSections => "No sections found.".toList
  | .policyWithoutDefaults => "No global `defaults` section found.".toList

inductive FileFault where
  | directory
  | notUtf8
  | other (detail : Text)
deriving DecidableEq

def FileFault.message : FileFault → Text
  | .directory => "Is a directory (os error 21)".toList
  | .notUtf8 => "stream did not contain valid UTF-8".toList
  | .other detail => detail

/-- Why an option is kept out of the mount string: its text could be read as
several options, or no list allows it for the caller. -/
inductive Refusal where
  | malformed
  | notAllowed
deriving DecidableEq

inductive MountError where
  | config (fault : ConfigFault)
  | noSections
  | deviceUnavailable (path : Text)
  | malformedOptions (fault : OptionString.Malformed)
  | optionNotPermitted (option : Text) (reason : Refusal)
  | file (fault : FileFault)
deriving DecidableEq

namespace MountError

def message : MountError → Text
  | .config fault => "Failed to parse mount options: ".toList ++ fault.message
  | .noSections => "Failed to parse mount options: No sections found.".toList
  | .deviceUnavailable path => "'device' is not a valid block device: ".toList ++ path
  | .malformedOptions fault => fault.message
  | .optionNotPermitted option .malformed =>
    "Malformed mount option `".toList ++ option ++ "'".toList
  | .optionNotPermitted option .notAllowed =>
    "Mount option `".toList ++ option ++ "' is not allowed".toList
  | .file fault => "I/O error: ".toList ++ fault.message

end MountError

inductive Level where
  | error
  | warn
  | info
  | debug
deriving DecidableEq

def Level.name : Level → Text
  | .error => "ERROR".toList
  | .warn => "WARN".toList
  | .info => "INFO".toList
  | .debug => "DEBUG".toList

inductive Notice where
  | unknownKey (key : Text)
  | malformedValue (key : Text) (fault : OptionString.Malformed)
  /-- A list that was set by an earlier key of the same section. -/
  | repeatedKey (key : Text)
  | orphanKeys (count : Nat)
  | missingValue (key sectionName : Text)
  | builtinRefused (fault : ConfigFault)
  | noConfigFile (path : Text)
  | configFileRefused (path : Text) (error : MountError)
  | hintsUnreadable (error : MountError)
  | overridden (defaults : List Text)
  | selfCheckWithoutValue (name : Text) (field : Field)
  | unknownCaller (uid : UInt32)
  | unexpectedMode (value : Text)
  | mounted (device : Text) (uid : UInt32) (options : Text)
  | noAccount (uid : UInt32)
  | userNameNotUtf8 (uid : UInt32)
  | nulInUserName (name : Text)
  | groupsNotFound (name : Text) (bound : Nat)
deriving DecidableEq

namespace Notice

def level : Notice → Level
  | .builtinRefused _ => .error
  | .overridden _ => .info
  | .unknownKey _ | .noConfigFile _ | .mounted .. => .debug
  | _ => .warn

def message : Notice → Text
  | .unknownKey key => "Ignoring garbage mount options key: ".toList ++ key
  | .malformedValue key fault =>
    fault.message ++ ", ignoring key '".toList ++ key ++ "'".toList
  | .repeatedKey key =>
    "Duplicate mount options key '".toList ++ key ++ "' detected".toList
  | .orphanKeys count =>
    "Ignoring ".toList ++ Text.ofNat count
      ++ " mount options key(s) outside of any section".toList
  | .missingValue key sectionName =>
    "Cannot retrieve value for mount options key '".toList ++ key ++ "' in section [".toList
      ++ sectionName ++ "]".toList
  | .builtinRefused .policyWithoutDefaults =>
    "Failed to parse built-in mount options: ".toList
      ++ ConfigFault.policyWithoutDefaults.message
  | .builtinRefused fault =>
    "Failed to parse built-in mount options: ".toList ++ (MountError.config fault).message
  | .noConfigFile path =>
    "No mount options config file at ".toList ++ Text.quotedName path
  | .configFileRefused path error =>
    "Error reading global mount options config file ".toList ++ Text.quotedName path
      ++ ": ".toList ++ error.message
  | .hintsUnreadable error =>
    "Error getting udev mount options: ".toList ++ error.message
  | .overridden defaults =>
    "Using overridden mount options: ".toList ++ Text.commaSeparated defaults
  | .selfCheckWithoutValue name field =>
    "Mount option '".toList ++ name ++ "' is listed within ".toList ++ field.key
      ++ " but has no value".toList
  | .unknownCaller uid => "Error looking up user with uid ".toList ++ Text.ofId uid
  | .unexpectedMode value =>
    "Cannot relax unexpected mode value '".toList ++ value ++ "' for shared mount".toList
  | .mounted device uid options =>
    "Mount options for ".toList ++ device ++ " (uid ".toList ++ Text.ofId uid ++ "): ".toList
      ++ options
  | .noAccount uid => "Failed to resolve passwd entry for UID ".toList ++ Text.ofId uid
  | .userNameNotUtf8 uid =>
    "User name for UID ".toList ++ Text.ofId uid ++ " is not valid UTF-8".toList
  | .nulInUserName name =>
    "User name ".toList ++ Text.quotedName name ++ " contains a NUL byte".toList
  | .groupsNotFound name bound =>
    "Error getting supplementary groups for user ".toList ++ name ++ ": more than ".toList
      ++ Text.ofNat bound ++ " groups or lookup failure".toList

end Notice

structure Logged (α : Type) where
  value : α
  notices : List Notice

namespace Logged

variable {α β : Type}

instance : Monad Logged where
  pure a := ⟨a, []⟩
  bind x f := ⟨(f x.value).value, x.notices ++ (f x.value).notices⟩

@[simp] theorem value_pure (a : α) : (pure a : Logged α).value = a := rfl

@[simp] theorem notices_pure (a : α) : (pure a : Logged α).notices = [] := rfl

@[simp] theorem value_bind (x : Logged α) (f : α → Logged β) :
    (x >>= f).value = (f x.value).value := rfl

@[simp] theorem notices_bind (x : Logged α) (f : α → Logged β) :
    (x >>= f).notices = x.notices ++ (f x.value).notices := rfl

@[simp] theorem value_map (f : α → β) (x : Logged α) : (f <$> x).value = f x.value := rfl

@[simp] theorem notices_map (f : α → β) (x : Logged α) : (f <$> x).notices = x.notices :=
  List.append_nil _

theorem ext {x y : Logged α} (value : x.value = y.value) (notices : x.notices = y.notices) :
    x = y := by
  cases x; cases y
  simp_all

instance : LawfulMonad Logged := LawfulMonad.mk' Logged
  (fun x => ext rfl (List.append_nil _))
  (fun _ _ => ext rfl rfl)
  (fun _ _ _ => ext rfl (List.append_assoc ..))

def report (notice : Notice) : Logged Unit := ⟨(), [notice]⟩

@[simp] theorem notices_report (notice : Notice) : (report notice).notices = [notice] := rfl

theorem value_foldlM (step : β → α → Logged β) (start : β) (items : List α) :
    (items.foldlM step start).value = items.foldl (fun acc x => (step acc x).value) start := by
  induction items generalizing start with
  | nil => rfl
  | cons x rest ih => simp [ih]

end Logged

end MountPolicy
