import MountPolicy.Policy

/-! The answers of each step of a request, apart from what is reported on the way.
Main statement: the option string for mounting a device is the one that the rules in
force give for the defaults and the caller's options, or the first refusal. -/
namespace MountPolicy

namespace Logged

variable {α β : Type}

theorem value_mapM (f : α → Logged β) (items : List α) :
    (items.mapM f).value = items.map fun x => (f x).value := by
  induction items with
  | nil => simp
  | cons x rest ih => simp [List.mapM_cons, ih]

end Logged

namespace TypeOptions

theorem value_applyEntry (options : TypeOptions) (key value : Text) :
    (options.applyEntry key value).value =
      match ConfigKey.ofText? key, OptionString.read value with
      | some ⟨scope, field⟩, .ok values =>
        options.insert scope
          ((TypeOptions.setFor options scope).insert field (values.map MountOption.text))
      | _, _ => options := by
  unfold applyEntry
  rcases ConfigKey.ofText? key with _ | ⟨scope, field⟩
  · rfl
  · cases OptionString.read value with
    | error fault => rfl
    | ok values =>
      dsimp only
      split <;> rfl

theorem value_ofProperties (properties : Properties) :
    (ofProperties properties).value =
      properties.entries.foldl (fun options property =>
        match hintKey? property.1 with
        | some key => (TypeOptions.applyEntry options key property.2).value
        | none => options) .empty := by
  unfold ofProperties
  rw [Logged.value_foldlM]
  congr 1
  funext options property
  dsimp only
  cases hintKey? property.1 <;> rfl

theorem value_ofSection (s : KeyFile.Section) :
    (ofSection s).value =
      s.entries.foldl (fun options entry =>
        match entry.2 with
        | some value => (TypeOptions.applyEntry options (Text.lowercase entry.1) value).value
        | none => options) .empty := by
  unfold ofSection
  rw [Logged.value_foldlM]
  congr 1
  funext options entry
  obtain ⟨key, value⟩ := entry
  cases value <;> rfl

end TypeOptions

namespace Store

theorem value_addSection (store : Store) (s : KeyFile.Section) :
    (store.addSection s).value =
      if s.name = KeyFile.orphanName then store
      else store.insert (DeviceScope.ofSection s.name) (TypeOptions.ofSection s).value := by
  unfold addSection
  split
  · split <;> rfl
  · rfl

theorem value_ofSections (sections : List KeyFile.Section) :
    (ofSections sections).value =
      sections.foldl (fun store s => (store.addSection s).value) .empty := by
  unfold ofSections
  rw [Logged.value_foldlM]

theorem value_ofText (text : Text) :
    (ofText text).value =
      match KeyFile.read text with
      | .error fault => .error (.config (.unreadable fault))
      | .ok sections =>
        if (ofSections sections).value.isEmpty then .error .noSections
        else .ok (ofSections sections).value := by
  unfold ofText
  cases KeyFile.read text <;> rfl

theorem sections_of_ofText {text : Text} {store : Store} (done : (ofText text).value = .ok store) :
    ∃ sections, KeyFile.read text = .ok sections ∧ store = (ofSections sections).value := by
  rw [value_ofText] at done
  cases read : KeyFile.read text with
  | error fault => simp [read] at done
  | ok sections =>
    simp only [read] at done
    split at done
    · simp at done
    · exact ⟨sections, rfl, (Except.ok.inj done).symm⟩

theorem ofText_of_ofPolicyText {text : Text} {store : Store}
    (done : (ofPolicyText text).value = .ok store) : (ofText text).value = .ok store := by
  unfold ofPolicyText at done
  rw [Logged.value_bind] at done
  cases read : (ofText text).value with
  | error error => cases error <;> simp [read] at done
  | ok found =>
    simp only [read] at done
    split at done
    · simpa using done
    · simp at done

end Store

theorem ConfigDirectory.value_overrides (directory : ConfigDirectory) :
    directory.overrides.value =
      match directory.file.text? with
      | .ok (some text) => (Store.ofText text).value.toOption
      | _ => none := by
  unfold overrides load
  rcases directory.file.text? with fault | _ | text
  · rfl
  · rfl
  · dsimp only
    rw [Logged.value_bind, Logged.value_bind]
    rcases (Store.ofText text).value with error | store
    · cases error <;> rfl
    · rfl

theorem ConfigDirectory.ofText_of_overrides {directory : ConfigDirectory} {store : Store}
    (found : directory.overrides.value = some store) :
    ∃ text, (Store.ofText text).value = .ok store := by
  rw [value_overrides] at found
  split at found
  · rename_i text _
    refine ⟨text, ?_⟩
    cases read : (Store.ofText text).value with
    | error error => simp [read, Except.toOption] at found
    | ok other => simpa [read, Except.toOption] using found
  · simp at found

def Policy.layers (policy : Policy) (hints : Option TypeOptions) : List Layer :=
  .builtin policy.builtin :: policy.config.overrides.value.toList.map .global
    ++ hints.toList.map .hints

theorem value_effectiveSet (layers : List Layer) (device : Option Device)
    (typeName : Option Text) :
    (effectiveSet layers device typeName).value =
      (resolution layers device (typeName.map TypeScope.ofName)).effective := by
  unfold effectiveSet
  dsimp only
  split <;> rfl

private theorem foldl_apply {device : Option Device} {type : Option TypeScope}
    {set : Resolution → OptionSet} {f : TypeOptions → OptionSet}
    (step : ∀ state layer, set (Resolution.apply device type state layer) =
      (layer.blocks device).foldl (fun set block => set.overriddenBy (f block)) (set state))
    (layers : List Layer) (state : Resolution) :
    set (layers.foldl (Resolution.apply device type) state) =
      (layers.flatMap (Layer.blocks device)).foldl
        (fun set block => set.overriddenBy (f block)) (set state) := by
  induction layers generalizing state with
  | nil => rfl
  | cons layer rest ih => rw [List.foldl_cons, ih, step, List.flatMap_cons, List.foldl_append]

theorem forType_resolution (layers : List Layer) (device : Option Device)
    (type : Option TypeScope) :
    (resolution layers device type).forType =
      (layers.flatMap (Layer.blocks device)).foldl
        (fun set block => set.overriddenBy (Resolution.typeSet type block)) .empty :=
  foldl_apply (fun state layer => by rw [Resolution.apply_eq]) layers {}

theorem forAny_resolution (layers : List Layer) (device : Option Device)
    (type : Option TypeScope) :
    (resolution layers device type).forAny =
      (layers.flatMap (Layer.blocks device)).foldl
        (fun set block => set.overriddenBy (TypeOptions.setFor block .any)) .empty :=
  foldl_apply (fun state layer => by rw [Resolution.apply_eq]) layers {}

namespace Policy

theorem value_layered (policy : Policy) (device : Device) (hints : Option TypeOptions)
    (typeName : Option Text) :
    (policy.layered device hints typeName).value =
      (resolution (policy.layers hints) (some device)
        (typeName.map TypeScope.ofName)).effective := by
  unfold layered
  rw [Logged.value_bind, value_effectiveSet]
  rfl

theorem value_effective (policy : Policy) (device : Device) (typeName : Option Text) :
    (policy.effective device typeName).value =
      (policy.layered device
        (device.properties.map fun properties => (TypeOptions.ofProperties properties).value)
        typeName).value := by
  unfold effective Device.hints Device.readProperties
  cases device.properties <;> rfl

/-- What a request on the device is judged by. -/
def rules (policy : Policy) (device : Device) (typeName : Option Text) : Rules :=
  ⟨(policy.effective device typeName).value, policy.users⟩

/-- The options that a request is judged on: the defaults in force, filled in for the
caller, and the caller's own. -/
def requested (policy : Policy) (device : Device) (caller : UInt32)
    (typeName callerOptions : Option Text) : Except MountError (List MountOption) :=
  match device.readProperties with
  | .error error => .error error
  | .ok properties =>
    ((policy.rules device typeName).requestedOptions caller
      (properties.isTrue Device.sharedProperty) callerOptions).value.mapError .malformedOptions

theorem value_mountString (policy : Policy) (device : Device) (caller : UInt32)
    (typeName callerOptions : Option Text) :
    (policy.mountString device caller typeName callerOptions).value =
      match policy.requested device caller typeName callerOptions with
      | .error error => .error error
      | .ok options => ((policy.rules device typeName).mountString caller options).value := by
  unfold mountString requested rules
  rw [value_effective]
  unfold Device.readProperties
  cases device.properties with
  | none => rfl
  | some properties =>
    dsimp only
    unfold mountStringWith
    simp only [Logged.value_bind, Option.map_some]
    rcases (Rules.requestedOptions _ _ _ _).value with fault | options
    · rfl
    · change _ = (Rules.mountString _ caller options).value
      dsimp only
      rw [Logged.value_bind]
      rcases (Rules.mountString _ _ options).value with error | text
      · rfl
      · rfl

end Policy

namespace UserDirectory

theorem value_isMember_iff {users : UserDirectory} {uid gid : UInt32} :
    (users.isMember uid gid).value = true ↔
      ∃ user, (users.userInfo uid).value = some user ∧
        (user.primaryGid = gid ∨
          ∃ groups, (users.groups user.name user.primaryGid).value = some groups ∧
            gid ∈ groups) := by
  unfold isMember
  rw [Logged.value_bind]
  cases (users.userInfo uid).value with
  | none => simp
  | some user =>
    dsimp only
    split
    · rename_i primary
      simp [primary]
    · rename_i other
      cases found : (users.groups user.name user.primaryGid).value <;> simp [found, other]

end UserDirectory

namespace Rules

/-- The id that an option's value gives, if it has to be the caller's own. -/
def statedId? (option : MountOption) : Option UInt32 := option.content?.bind Text.toId?

theorem value_ownId? (option : MountOption) (field : Field) :
    (ownId? option field).value = statedId? option := by
  unfold ownId? statedId?
  cases option.content? <;> rfl

theorem value_allows (rules : Rules) (caller : UInt32) (option : MountOption) :
    (rules.allows caller option).value =
      if pinned rules.set option then true
      else if rules.set.contains .allowUidSelf option.name then statedId? option == some caller
      else if rules.set.contains .allowGidSelf option.name then
        (statedId? option).any fun gid => (rules.users.isMember caller gid).value
      else free rules.set option := by
  unfold allows
  dsimp only
  split
  · rfl
  · split
    · rw [Logged.value_bind, value_ownId?]
      rfl
    · split
      · rw [Logged.value_bind, value_ownId?]
        cases statedId? option <;> rfl
      · rfl

theorem value_refusal? (rules : Rules) (caller : UInt32) (option : MountOption) :
    (rules.refusal? caller option).value =
      if hidesComma option then some .malformed
      else if (rules.allows caller option).value then none else some .notAllowed := by
  unfold refusal?
  split
  · rfl
  · rw [Logged.value_bind]
    rfl

theorem value_refusal?_eq_none_iff {rules : Rules} {caller : UInt32} {option : MountOption} :
    (rules.refusal? caller option).value = none ↔
      hidesComma option = false ∧ (rules.allows caller option).value = true := by
  rw [value_refusal?]
  cases hidesComma option <;> cases (rules.allows caller option).value <;> simp

theorem value_firstRefused? (rules : Rules) (caller : UInt32) (options : List MountOption) :
    (rules.firstRefused? caller options).value =
      options.findSome? fun o =>
        (rules.refusal? caller o).value.map fun reason => (o, reason) := by
  induction options with
  | nil => rfl
  | cons option rest ih =>
    rw [firstRefused?, Logged.value_bind, List.findSome?_cons, ← ih]
    cases (rules.refusal? caller option).value <;> rfl

theorem value_firstRefused?_eq_none_iff {rules : Rules} {caller : UInt32}
    {options : List MountOption} :
    (rules.firstRefused? caller options).value = none ↔
      ∀ o ∈ options, hidesComma o = false ∧ (rules.allows caller o).value = true := by
  simp only [value_firstRefused?, List.findSome?_eq_none_iff, Option.map_eq_none_iff,
    value_refusal?_eq_none_iff]

theorem value_mountString (rules : Rules) (caller : UInt32) (options : List MountOption) :
    (rules.mountString caller options).value =
      match (rules.firstRefused? caller options).value with
      | some (option, reason) => .error (.optionNotPermitted option.text reason)
      | none => .ok (OptionString.write (safetyOptions ++ options)) := by
  unfold mountString
  rw [Logged.value_bind]
  cases (rules.firstRefused? caller options).value <;> rfl

theorem value_mountString_eq_ok_iff {rules : Rules} {caller : UInt32}
    {options : List MountOption} {text : Text} :
    (rules.mountString caller options).value = .ok text ↔
      (∀ o ∈ options, hidesComma o = false ∧ (rules.allows caller o).value = true) ∧
        text = OptionString.write (safetyOptions ++ options) := by
  rw [value_mountString, ← value_firstRefused?_eq_none_iff]
  cases (rules.firstRefused? caller options).value with
  | none => simp [eq_comm]
  | some refused => simp

theorem value_defaultOptions (rules : Rules) (caller : UInt32) (sharedMount : Bool) :
    (rules.defaultOptions caller sharedMount).value =
      (rules.set.elements .defaults).filterMap fun spec =>
        (rules.expandDefault caller sharedMount spec).value := by
  unfold defaultOptions
  rw [Logged.value_bind, Logged.value_mapM, Logged.value_pure, List.filterMap_map]
  rfl

def callersOwn : Option Text → Except OptionString.Malformed (List MountOption)
  | none => .ok []
  | some text => OptionString.read text

theorem value_requestedOptions (rules : Rules) (caller : UInt32) (sharedMount : Bool)
    (callerOptions : Option Text) :
    (rules.requestedOptions caller sharedMount callerOptions).value =
      (callersOwn callerOptions).map
        ((rules.defaultOptions caller sharedMount).value ++ ·) := by
  unfold requestedOptions
  rw [Logged.value_bind]
  cases callerOptions with
  | none => simp [callersOwn, Except.map]
  | some text => rfl

end Rules

namespace Policy

theorem value_mountString_eq_ok_iff {policy : Policy} {device : Device} {caller : UInt32}
    {typeName callerOptions : Option Text} {text : Text} :
    (policy.mountString device caller typeName callerOptions).value = .ok text ↔
      ∃ options, policy.requested device caller typeName callerOptions = .ok options ∧
        (∀ o ∈ options, hidesComma o = false ∧
          ((policy.rules device typeName).allows caller o).value = true) ∧
        text = OptionString.write (safetyOptions ++ options) := by
  rw [value_mountString]
  cases policy.requested device caller typeName callerOptions with
  | error error => simp
  | ok options => simp [Rules.value_mountString_eq_ok_iff]

private theorem mapError_eq_ok_iff {ε ε' α : Type} {result : Except ε α} {f : ε → ε'} {a : α} :
    result.mapError f = .ok a ↔ result = .ok a := by
  cases result with
  | error error => exact ⟨nofun, nofun⟩
  | ok b =>
    constructor
    · intro same
      exact congrArg _ (Except.ok.inj same)
    · intro same
      exact congrArg _ (Except.ok.inj same)

theorem requested_eq_ok_iff {policy : Policy} {device : Device} {caller : UInt32}
    {typeName callerOptions : Option Text} {options : List MountOption} :
    policy.requested device caller typeName callerOptions = .ok options ↔
      ∃ properties own, device.properties = some properties ∧
        Rules.callersOwn callerOptions = .ok own ∧
        options = ((policy.rules device typeName).defaultOptions caller
          (properties.isTrue Device.sharedProperty)).value ++ own := by
  unfold requested Device.readProperties
  cases device.properties with
  | none => simp
  | some properties =>
    simp only [Rules.value_requestedOptions, mapError_eq_ok_iff]
    cases Rules.callersOwn callerOptions <;> simp [Except.map, eq_comm]

end Policy

end MountPolicy
