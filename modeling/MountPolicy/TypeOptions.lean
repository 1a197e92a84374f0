import MountPolicy.Reports
import MountPolicy.Tables

/-! Option sets by filesystem type, and the keys that change them.

A configuration key says which list, for which type. A field's own name stands for
every type, `<type>_<field>` for one type, and the marker `defaults` in the type's
place stands for every type again. A key that names no list and a value that is no
option string change nothing; otherwise the last value for a list stands. -/
namespace MountPolicy

/-- Stands for every filesystem type in a key and for every device as a section name. -/
def anyMarker : Text := "defaults".toList

inductive TypeScope where
  | any
  | filesystem (name : Text)
deriving DecidableEq

namespace TypeScope

def ofName (name : Text) : TypeScope := .filesystem (Text.lowercase name)

def text : TypeScope → Text
  | .any => anyMarker
  | .filesystem name => name

instance : KeyOrder TypeScope where
  before
    | .any, .filesystem _ => true
    | .filesystem a, .filesystem b => KeyOrder.before a b
    | _, .any => false
  irrefl
    | .any => rfl
    | .filesystem a => KeyOrder.irrefl a
  trans
    | .any, .filesystem _, .filesystem _ => fun _ _ => rfl
    | .filesystem a, .filesystem b, .filesystem c => KeyOrder.trans a b c
    | .any, .any, _ => by simp
    | .filesystem _, .any, _ => by simp
    | _, .filesystem _, .any => by simp
  total
    | .any, .any => .inr (.inl rfl)
    | .any, .filesystem _ => .inl rfl
    | .filesystem _, .any => .inr (.inr rfl)
    | .filesystem a, .filesystem b => (KeyOrder.total a b).imp id (Or.imp (congrArg _) id)

end TypeScope

structure ConfigKey where
  scope : TypeScope
  field : Field
deriving DecidableEq

namespace ConfigKey

/-- The fields with the longest names first, so `vfat_allow_uid_self` is never
taken for a shorter field of a longer type. -/
def fieldsByLength : List Field := [.allowUidSelf, .allowGidSelf, .allow, .defaults]

def withField? (key : Text) (field : Field) : Option ConfigKey :=
  match ('_' :: field.key).isSuffixOf? key with
  | none => none
  | some type =>
    if type = [] then none
    else if type = anyMarker then some ⟨.any, field⟩
    else some ⟨.ofName type, field⟩

def ofText? (key : Text) : Option ConfigKey :=
  match Field.all.find? fun field => field.key = key with
  | some field => some ⟨.any, field⟩
  | none => fieldsByLength.findSome? (withField? key)

end ConfigKey

abbrev TypeOptions := SortedMap TypeScope OptionSet

namespace TypeOptions

def setFor (options : TypeOptions) (scope : TypeScope) : OptionSet :=
  (options.get? scope).getD .empty

/-- Lays each set of `upper` over the set for the same type. -/
def overriddenBy (options upper : TypeOptions) : TypeOptions :=
  upper.entries.foldl
    (fun result (scope, set) =>
      result.insert scope ((TypeOptions.setFor result scope).overriddenBy set))
    options

theorem setFor_empty (scope : TypeScope) : TypeOptions.setFor .empty scope = .empty := rfl

theorem setFor_insert (options : TypeOptions) (scope other : TypeScope) (set : OptionSet) :
    TypeOptions.setFor (options.insert scope set) other =
      if other = scope then set else TypeOptions.setFor options other := by
  simp only [setFor, SortedMap.get?_insert]
  split <;> rfl

open Logged

/-- Sets the list that `key` names to the options in `value`, each as it is
written. The key is in lower case. -/
def applyEntry (options : TypeOptions) (key value : Text) : Logged TypeOptions :=
  match ConfigKey.ofText? key with
  | none => do
    report (.unknownKey key)
    return options
  | some ⟨scope, field⟩ =>
    match OptionString.read value with
    | .error fault => do
      report (.malformedValue key fault)
      return options
    | .ok values => do
      let set := options.setFor scope
      if (set.get? field).isSome then report (.repeatedKey key)
      return options.insert scope (set.insert field (values.map MountOption.text))

end TypeOptions

end MountPolicy
