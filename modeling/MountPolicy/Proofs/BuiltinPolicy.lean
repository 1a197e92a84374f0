import Mathlib.Data.List.Basic
import MountPolicy.Proofs.ConfiguredLists
import MountPolicy.Proofs.Permission

/-! The built-in policy where nothing overrides it: no file that sets a list, and no
hint. Main statement: every option of a granted request is listed in a line of the
built-in text, stays in user space, or is the caller's own id. -/
namespace MountPolicy

/-- The items of the first line that begins with the key and an equals sign. -/
def lineItems (lines : List Text) (key : Text) : List Text :=
  ((lines.findSome? (key ++ ['=']).isPrefixOf?).map (List.splitOn ',')).getD []

def builtinItems (key : Text) : List Text := lineItems (builtinLines.map String.toList) key

def TypeScope.key : TypeScope → Field → Text
  | .any, field => field.key
  | .filesystem name, field => name ++ '_' :: field.key

/-- Names that no list may set free. -/
def withheldNames : List Text := ["dev".toList, "suid".toList, "uid".toList, "gid".toList]

def ownIdNames : List (Field × Text) :=
  [(.allowUidSelf, "uid".toList), (.allowGidSelf, "gid".toList)]

/-- The lists for a type are those of its lines. Free names come without a value, and
ids of the caller only for single types. -/
structure Closed (lines : List Text) (scope : TypeScope) (set : OptionSet) : Prop where
  free : ∀ name ∈ set.elements .allow,
    name ∈ lineItems lines (scope.key .allow) ∧ name ∉ withheldNames ∧ '=' ∉ name
  own : ∀ list ∈ ownIdNames, ∀ name ∈ set.elements list.1,
    name ∈ lineItems lines (scope.key list.1) ∧ name = list.2 ∧ scope ≠ .any

def isClosed (lines : List Text) (scope : TypeScope) (set : OptionSet) : Bool :=
  ((set.elements .allow).all fun name => (lineItems lines (scope.key .allow)).contains name
    && !withheldNames.contains name && !name.contains '=') &&
  ownIdNames.all fun list => (set.elements list.1).all fun name =>
    (lineItems lines (scope.key list.1)).contains name && name == list.2 && scope != .any

theorem closed_of_isClosed {lines : List Text} {scope : TypeScope} {set : OptionSet}
    (closed : isClosed lines scope set) : Closed lines scope set := by
  simp only [isClosed, Bool.and_eq_true, List.all_eq_true] at closed
  obtain ⟨free, own⟩ := closed
  constructor
  · intro name mem
    simpa [and_assoc] using free name mem
  · intro list isOwn name mem
    simpa [and_assoc] using own list isOwn name mem

def policyOfLines (lines : List Text) : Except MountError Store :=
  (Store.ofPolicyText (lines.flatMap (· ++ ['\n']))).value

theorem Store.value_builtin {lines : List Text} (same : builtinLines.map String.toList = lines) :
    Store.builtin.value = policyOfLines lines := by
  have text : builtinText = lines.flatMap (· ++ ['\n']) := by
    rw [← same, List.flatMap_map]
    rfl
  unfold policyOfLines
  rw [← text]
  rfl

theorem map_toList_cons {line : String} {text : Text} {lines : List String}
    {texts : List Text} (first : line.toList = text) (rest : lines.map String.toList = texts) :
    (line :: lines).map String.toList = text :: texts := by
  rw [List.map_cons, first, rest]

set_option maxRecDepth 4000 in
/-- The lines character by character. A literal is the string of its characters, so nothing
has to be decoded when something is computed from these. -/
def spelledLines : { lines : List Text // builtinLines.map String.toList = lines } := by
  apply Subtype.mk
  simp only [builtinLines]
  repeat apply map_toList_cons String.toList_ofList
  rfl

theorem Store.value_builtin_spelled : Store.builtin.value = policyOfLines spelledLines :=
  value_builtin spelledLines.2

def closedPolicy (lines : List Text) : Bool :=
  match policyOfLines lines with
  | .ok ⟨[⟨.any, options⟩]⟩ => options.entries.all fun entry => isClosed lines entry.1 entry.2
  | _ => false

theorem closedPolicy_spelledLines : closedPolicy spelledLines = true := by
  decide +kernel

theorem Store.exists_builtin_options : ∃ options, Store.builtin.value = .ok ⟨[⟨.any, options⟩]⟩ ∧
    ∀ scope, Closed (builtinLines.map String.toList) scope (TypeOptions.setFor options scope) := by
  have found := closedPolicy_spelledLines
  unfold closedPolicy at found
  split at found
  · rename_i options computed
    refine ⟨options, value_builtin_spelled.trans computed, ?_⟩
    intro scope
    rw [spelledLines.2]
    unfold TypeOptions.setFor
    cases listed : SortedMap.get? options scope with
    | none => exact ⟨by simp [OptionSet.elements], by simp [OptionSet.elements]⟩
    | some set =>
      have mem := SortedMap.mem_of_get? listed
      exact closed_of_isClosed (List.all_eq_true.mp found _ mem)
  · simp at found

theorem TypeOptions.value_ofProperties_of_unmarked {properties : Properties}
    (unmarked : ∀ property ∈ properties.entries, ¬ hintMarker <+: property.1) :
    (TypeOptions.ofProperties properties).value = .empty := by
  have nothing : properties.hints = [] := by
    apply List.filter_eq_nil_iff.mpr
    intro property mem
    rw [List.isPrefixOf_iff_prefix]
    exact unmarked property mem
  rw [value_ofProperties_eq_ofEntries, nothing]
  rfl

theorem OptionSet.empty_overriddenBy (set : OptionSet) :
    OptionSet.empty.overriddenBy set = set := by
  apply OptionSet.ext
  intro field
  rw [get?_overriddenBy, get?_empty, Option.or_none]

theorem Policy.mem_effective_of_silent {policy : Policy} {options : TypeOptions}
    (built : policy.builtin = ⟨[⟨.any, options⟩]⟩)
    (file : policy.config.Silent) {device : Device} (hints : device.Silent)
    {typeName : Option Text} {field : Field} {x : Text} :
    x ∈ (policy.effective device typeName).value.elements field ↔
      (∃ type ∈ typeName, x ∈ (TypeOptions.setFor options (.ofName type)).elements field) ∨
        x ∈ (TypeOptions.setFor options .any).elements field := by
  have silent : ∀ layer ∈ (policy.config.overrides.value.toList.map Layer.global) ++
      (device.properties.map fun properties =>
        (TypeOptions.ofProperties properties).value).toList.map Layer.hints,
      ∀ block ∈ layer.blocks (some device), TypeOptions.Silent block := by
    intro layer inside block here
    simp only [List.mem_append, List.mem_map, Option.mem_toList] at inside
    rcases inside with ⟨store, found, rfl⟩ | ⟨own, found, rfl⟩
    · exact (file store found).of_mem_storeBlocks here
    · obtain ⟨properties, known, rfl⟩ := Option.map_eq_some_iff.mp found
      obtain rfl := List.mem_singleton.mp here
      rw [TypeOptions.value_ofProperties_of_unmarked (hints properties known)]
      exact .empty
  rw [value_effective, value_layered, layers, List.cons_append, ← List.singleton_append,
    effective_append_silent silent, built]
  unfold Resolution.effective
  rw [OptionSet.mem_elements_extendedBy, forType_resolution, forAny_resolution]
  have only :
      [Layer.builtin ⟨[⟨.any, options⟩]⟩].flatMap (Layer.blocks (some device)) = [options] := rfl
  simp only [only, List.foldl_cons, List.foldl_nil, OptionSet.empty_overriddenBy]
  cases typeName with
  | none => simp [Resolution.typeSet, OptionSet.elements]
  | some type => simp [Resolution.typeSet]

/-- What the built-in text lets a caller have: options that stay in user space, those
in the allow lines for every type and for the type, and the caller's own ids where the
lines for the type say so. -/
inductive BuiltinGrant (users : UserDirectory) (caller : UInt32) (typeName : Option Text) :
    MountOption → Prop
  | userspace {o} : userspaceMarker <+: o.name → BuiltinGrant users caller typeName o
  | anyType {o} : o.name ∈ builtinItems (TypeScope.any.key .allow) →
      BuiltinGrant users caller typeName o
  | ofType {o type} : typeName = some type →
      o.name ∈ builtinItems ((TypeScope.ofName type).key .allow) →
      BuiltinGrant users caller typeName o
  | uid {type value} : typeName = some type →
      "uid".toList ∈ builtinItems ((TypeScope.ofName type).key .allowUidSelf) →
      IsUid caller value → BuiltinGrant users caller typeName (.assign "uid".toList value)
  | gid {type value} : typeName = some type →
      "gid".toList ∈ builtinItems ((TypeScope.ofName type).key .allowGidSelf) →
      users.IsGid caller value → BuiltinGrant users caller typeName (.assign "gid".toList value)

/-- No device files, no set-user-id programs, and no id but the caller's own. -/
structure Confined (users : UserDirectory) (caller : UInt32) (o : MountOption) : Prop where
  dev : o.name ≠ "dev".toList
  suid : o.name ≠ "suid".toList
  uid : o.name = "uid".toList → ∃ value, o.value = some value ∧ IsUid caller value
  gid : o.name = "gid".toList → ∃ value, o.value = some value ∧ users.IsGid caller value

theorem Confined.ownUid {users : UserDirectory} {caller : UInt32} {value : Text}
    (own : IsUid caller value) : Confined users caller (.assign "uid".toList value) where
  dev := show "uid".toList ≠ "dev".toList by decide
  suid := show "uid".toList ≠ "suid".toList by decide
  uid _ := ⟨value, rfl, own⟩
  gid same := absurd same (show "uid".toList ≠ "gid".toList by decide)

theorem Confined.ownGid {users : UserDirectory} {caller : UInt32} {value : Text}
    (own : users.IsGid caller value) : Confined users caller (.assign "gid".toList value) where
  dev := show "gid".toList ≠ "dev".toList by decide
  suid := show "gid".toList ≠ "suid".toList by decide
  uid same := absurd same (show "gid".toList ≠ "uid".toList by decide)
  gid _ := ⟨value, rfl, own⟩

theorem Confined.of_not_withheld {users : UserDirectory} {caller : UInt32} {o : MountOption}
    (other : o.name ∉ withheldNames) : Confined users caller o := by
  simp only [withheldNames, List.mem_cons, List.not_mem_nil, or_false, not_or] at other
  obtain ⟨dev, suid, uid, gid⟩ := other
  exact ⟨dev, suid, fun same => absurd same uid, fun same => absurd same gid⟩

theorem not_withheld_of_userspace {name : Text} (marked : userspaceMarker <+: name) :
    name ∉ withheldNames := by
  intro withheld
  have unmarked : ∀ other ∈ withheldNames, ¬ userspaceMarker <+: other := by decide
  exact unmarked name withheld marked

section Closed

variable {policy : Policy} {options : TypeOptions} {device : Device} {caller : UInt32}
  {typeName : Option Text} {o : MountOption}
  (closed : ∀ scope,
    Closed (builtinLines.map String.toList) scope (TypeOptions.setFor options scope))
  (built : policy.builtin = ⟨[⟨.any, options⟩]⟩)
  (file : policy.config.Silent) (hints : device.Silent)
include closed built file hints

theorem Policy.free_of_silent {x : Text}
    (mem : x ∈ (policy.effective device typeName).value.elements .allow) :
    '=' ∉ x ∧ x ∉ withheldNames ∧
      (x ∈ builtinItems (TypeScope.any.key .allow) ∨
        ∃ type, typeName = some type ∧ x ∈ builtinItems ((TypeScope.ofName type).key .allow)) := by
  rcases (mem_effective_of_silent built file hints).mp mem with ⟨type, asked, own⟩ | any
  · obtain ⟨listed, free, sign⟩ := (closed _).free x own
    exact ⟨sign, free, .inr ⟨type, asked, listed⟩⟩
  · obtain ⟨listed, free, sign⟩ := (closed _).free x any
    exact ⟨sign, free, .inl listed⟩

theorem Policy.ownId_of_silent {field : Field} {name x : Text} (own : (field, name) ∈ ownIdNames)
    (mem : x ∈ (policy.effective device typeName).value.elements field) :
    x = name ∧ ∃ type, typeName = some type ∧
      x ∈ builtinItems ((TypeScope.ofName type).key field) := by
  rcases (mem_effective_of_silent built file hints).mp mem with ⟨type, asked, there⟩ | any
  · obtain ⟨listed, same, -⟩ := (closed _).own _ own x there
    exact ⟨same, type, asked, listed⟩
  · exact absurd rfl ((closed _).own _ own x any).2.2

theorem Policy.unfixed_of_silent {value : Text} (present : o.value = some value) :
    ¬ (policy.rules device typeName).set.contains .allow o.text := by
  intro fixed
  -- What the lists set free has no equals sign, so they fix no value.
  have sign := (free_of_silent closed built file hints (OptionSet.contains_iff.mp fixed)).1
  rw [MountOption.text_of_value present] at sign
  simp at sign

theorem Policy.builtinGrant_of_free (free : Rules.free (policy.rules device typeName).set o) :
    BuiltinGrant policy.users caller typeName o ∧ Confined policy.users caller o := by
  simp only [Rules.free, Bool.or_eq_true, List.isPrefixOf_iff_prefix] at free
  rcases free with (empty | named) | marked
  · have sign := (free_of_silent closed built file hints (OptionSet.contains_iff.mp empty)).1
    simp at sign
  · obtain ⟨-, other, listed | ⟨type, asked, listed⟩⟩ :=
      free_of_silent closed built file hints (OptionSet.contains_iff.mp named)
    · exact ⟨.anyType listed, .of_not_withheld other⟩
    · exact ⟨.ofType asked listed, .of_not_withheld other⟩
  · exact ⟨.userspace marked, .of_not_withheld (not_withheld_of_userspace marked)⟩

theorem Policy.builtinGrant_of_allows
    (allowed : ((policy.rules device typeName).allows caller o).value = true) :
    BuiltinGrant policy.users caller typeName o ∧ Confined policy.users caller o := by
  by_cases uid : (policy.rules device typeName).set.contains .allowUidSelf o.name
  · obtain ⟨value, present, -, fixed | own⟩ := (Rules.allows_uidSelf_iff uid).mp allowed
    · exact absurd fixed (unfixed_of_silent closed built file hints present)
    · have known : (Field.allowUidSelf, "uid".toList) ∈ ownIdNames := by decide
      obtain ⟨name, type, asked, listed⟩ :=
        ownId_of_silent closed built file hints known (OptionSet.contains_iff.mp uid)
      rw [name] at listed
      rw [MountOption.eq_assign name present]
      exact ⟨.uid asked listed own, .ownUid own⟩
  · by_cases gid : (policy.rules device typeName).set.contains .allowGidSelf o.name
    · obtain ⟨value, present, -, fixed | own⟩ := (Rules.allows_gidSelf_iff uid gid).mp allowed
      · exact absurd fixed (unfixed_of_silent closed built file hints present)
      · have known : (Field.allowGidSelf, "gid".toList) ∈ ownIdNames := by decide
        obtain ⟨name, type, asked, listed⟩ :=
          ownId_of_silent closed built file hints known (OptionSet.contains_iff.mp gid)
        rw [name] at listed
        rw [MountOption.eq_assign name present]
        exact ⟨.gid asked listed own, .ownGid own⟩
    · rcases (Rules.allows_unchecked_iff uid gid).mp allowed with fixed | free
      · obtain ⟨value, present, -, fixed⟩ := Rules.pinned_iff.mp fixed
        exact absurd fixed (unfixed_of_silent closed built file hints present)
      · exact builtinGrant_of_free closed built file hints free

end Closed

/-- Under the built-in policy alone, every option of a granted request is one that the
built-in text grants, whatever the caller, the type and the option string. -/
theorem Policy.builtinGrant_of_mountString {policy : Policy} {device : Device} {caller : UInt32}
    {typeName callerOptions : Option Text} {text : Text}
    (built : Store.builtin.value = .ok policy.builtin)
    (file : policy.config.Silent) (hints : device.Silent)
    (granted : (policy.mountString device caller typeName callerOptions).value = .ok text) :
    ∃ options, policy.requested device caller typeName callerOptions = .ok options ∧
      ∀ o ∈ options,
        BuiltinGrant policy.users caller typeName o ∧ Confined policy.users caller o := by
  obtain ⟨options, made, accepted, -⟩ := value_mountString_eq_ok_iff.mp granted
  obtain ⟨found, computed, closed⟩ := Store.exists_builtin_options
  have one : policy.builtin = ⟨[⟨.any, found⟩]⟩ := Except.ok.inj (built.symm.trans computed)
  refine ⟨options, made, ?_⟩
  intro o mem
  exact builtinGrant_of_allows closed one file hints (accepted o mem).2

def onlyBuiltin (store : Store) : Policy :=
  ⟨store, ⟨[], .missing⟩, .ofEntries [⟨1000, "alice".toList, 100, some [27]⟩]⟩

def plainDevice : Device := ⟨"/dev/sda1".toList, [], some .empty⟩

def vfatRequest (store : Store) : Except MountError Text :=
  ((onlyBuiltin store).mountString plainDevice 1000 (some "VFAT".toList)
    (some "uid=01000,gid=27,ro,x-a".toList)).value

theorem Policy.builtinGrant_of_mountString_vfat :
    ∃ store text, Store.builtin.value = .ok store ∧ vfatRequest store = .ok text ∧
      ∃ options, (onlyBuiltin store).requested plainDevice 1000
          (some "VFAT".toList) (some "uid=01000,gid=27,ro,x-a".toList) = .ok options ∧
        ∀ o ∈ options, BuiltinGrant (onlyBuiltin store).users 1000 (some "VFAT".toList) o ∧
          Confined (onlyBuiltin store).users 1000 o := by
  have found : ((policyOfLines spelledLines).toOption.any fun store =>
      (vfatRequest store).toOption.isSome) := by
    decide +kernel
  have computed := Store.value_builtin_spelled
  cases read : policyOfLines spelledLines with
  | error error => simp [read, Except.toOption] at found
  | ok store =>
    rw [read] at computed
    cases granted : vfatRequest store with
    | error error => simp [read, granted, Except.toOption] at found
    | ok text =>
      have file : (onlyBuiltin store).config.Silent := by
        intro other found
        simp [onlyBuiltin, ConfigDirectory.value_overrides, ConfigFile.text?] at found
      have hints : plainDevice.Silent := by
        intro properties known property mem
        rw [← Option.some.inj known] at mem
        simp [SortedMap.empty] at mem
      exact ⟨store, text, computed, granted,
        builtinGrant_of_mountString computed file hints granted⟩

end MountPolicy
