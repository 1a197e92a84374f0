import MountPolicy.Proofs.AllowedDefaults
import MountPolicy.Proofs.BuiltinPolicy
import MountPolicy.Proofs.RequestedOptions

/-! The defaults of the built-in policy. A default suits everybody if its name stands in
the list by which its filled-in form is judged. Main statement: where nothing overrides
the built-in policy, a request without options of the caller's own is granted to every
caller, known or not, for every type, on a shared mount or another. -/
namespace MountPolicy

def judgingField (name : Text) : Field :=
  if name = "uid".toList then .allowUidSelf
  else if name = "gid".toList then .allowGidSelf
  else .allow

theorem judgingField_eq_allow_iff {name : Text} :
    judgingField name = .allow ↔ name ≠ "uid".toList ∧ name ≠ "gid".toList := by
  unfold judgingField
  split
  · rename_i uid
    exact ⟨nofun, fun others => absurd uid others.1⟩
  · rename_i uid
    split
    · rename_i gid
      exact ⟨nofun, fun others => absurd gid others.2⟩
    · rename_i gid
      exact ⟨fun _ => ⟨uid, gid⟩, fun _ => rfl⟩

/-- As a default, the option passes for whoever it is filled in for. -/
structure SuitsEverybody (set : OptionSet) (o : MountOption) : Prop where
  plain : hidesComma o = false
  listed : o.name ∈ set.elements (judgingField o.name)
  valued : judgingField o.name = .allow ∨ o.value.isSome

instance (set : OptionSet) (o : MountOption) : Decidable (SuitsEverybody set o) :=
  decidable_of_iff (hidesComma o = false ∧ set.contains (judgingField o.name) o.name ∧
      (judgingField o.name = .allow ∨ o.value.isSome))
    ⟨fun ⟨plain, listed, valued⟩ => ⟨plain, OptionSet.contains_iff.mp listed, valued⟩,
      fun suits => ⟨suits.plain, OptionSet.contains_iff.mpr suits.listed, suits.valued⟩⟩

theorem SuitsEverybody.mono {set other : OptionSet} {o : MountOption}
    (suits : SuitsEverybody set o)
    (wider : ∀ field, set.elements field ⊆ other.elements field) : SuitsEverybody other o :=
  ⟨suits.plain, wider _ suits.listed, suits.valued⟩

/-- A set of which every default passes, and that asks for ids only where ids are filled in. -/
structure SelfSufficient (set : OptionSet) : Prop where
  uidOnly : ∀ name ∈ set.elements .allowUidSelf, name = "uid".toList
  gidOnly : ∀ name ∈ set.elements .allowGidSelf, name = "gid".toList
  suits : ∀ spec ∈ set.elements .defaults, SuitsEverybody set (.ofSpec spec)

namespace Rules

variable {rules : Rules} {caller : UInt32}

section SelfSufficient

variable (sufficient : SelfSufficient rules.set)
include sufficient

theorem allows_listed {o : MountOption} (free : judgingField o.name = .allow)
    (listed : o.name ∈ rules.set.elements (judgingField o.name)) :
    (rules.allows caller o).value = true := by
  obtain ⟨uid, gid⟩ := judgingField_eq_allow_iff.mp free
  have noUid : o.name ∉ rules.set.elements .allowUidSelf := mt (sufficient.uidOnly o.name) uid
  have noGid : o.name ∉ rules.set.elements .allowGidSelf := mt (sufficient.gidOnly o.name) gid
  rw [free] at listed
  exact (Permitted.free noUid noGid (.inr (.inl listed))).allows

theorem accepts_default {sharedMount : Bool} {o : MountOption}
    (mem : o ∈ (rules.defaultOptions caller sharedMount).value) :
    hidesComma o = false ∧ (rules.allows caller o).value = true := by
  rw [value_defaultOptions] at mem
  obtain ⟨spec, inForce, made⟩ := List.mem_filterMap.mp mem
  have suits := sufficient.suits spec inForce
  cases expansion_of_expandDefault made with
  | flag absent =>
    have free : judgingField (MountOption.ofSpec spec).name = .allow := by
      simpa [absent] using suits.valued
    exact ⟨suits.plain, allows_listed sufficient free suits.listed⟩
  | fixed present full listed => exact ⟨suits.plain, allows_fixed present full listed⟩
  | ownUid uid =>
    have listed := suits.listed
    rw [uid] at listed
    exact ⟨hidesComma_filled (by simp [filledNames]) Text.isDigit_of_mem_ofId,
      allows_ownUid listed⟩
  | ownGid gid known =>
    have listed := suits.listed
    rw [gid] at listed
    have noUid : "gid".toList ∉ rules.set.elements .allowUidSelf :=
      mt (sufficient.uidOnly _) (by decide)
    exact ⟨hidesComma_filled (by simp [filledNames]) Text.isDigit_of_mem_ofId,
      allows_primaryGid known noUid listed⟩
  | @mode name number named mode digits =>
    have listed := suits.listed
    rw [named] at listed
    have free : ∀ other ∈ ["mode".toList, "dmode".toList], judgingField other = .allow := by
      decide
    have filled : name ∈ filledNames := List.mem_cons_of_mem _ (List.mem_cons_of_mem _ mode)
    exact ⟨hidesComma_filled filled digits, allows_listed sufficient (free name mode) listed⟩
  | kept present uid gid =>
    have free := judgingField_eq_allow_iff.mpr ⟨uid, gid⟩
    exact ⟨suits.plain, allows_listed sufficient free suits.listed⟩

end SelfSufficient
end Rules

def suitingPolicy (lines : List Text) : Bool :=
  match policyOfLines lines with
  | .ok ⟨[⟨.any, options⟩]⟩ => options.entries.all fun entry =>
    let set := entry.2.extendedBy (TypeOptions.setFor options .any)
    (entry.2.elements .defaults).all fun spec => SuitsEverybody set (.ofSpec spec)
  | _ => false

theorem suitingPolicy_spelledLines : suitingPolicy spelledLines = true := by
  decide +kernel

theorem Store.suits_of_builtin {options : TypeOptions}
    (built : Store.builtin.value = .ok ⟨[⟨.any, options⟩]⟩) (scope : TypeScope) :
    ∀ spec ∈ (TypeOptions.setFor options scope).elements .defaults,
      SuitsEverybody ((TypeOptions.setFor options scope).extendedBy
        (TypeOptions.setFor options .any)) (.ofSpec spec) := by
  have found := suitingPolicy_spelledLines
  unfold suitingPolicy at found
  rw [← value_builtin_spelled, built] at found
  intro spec mem
  unfold TypeOptions.setFor at mem ⊢
  cases listed : SortedMap.get? options scope with
  | none => simp [listed, OptionSet.elements] at mem
  | some set =>
    have all := List.all_eq_true.mp found _ (SortedMap.mem_of_get? listed)
    rw [listed] at mem
    exact of_decide_eq_true (List.all_eq_true.mp all spec mem)

theorem Policy.selfSufficient_of_silent {policy : Policy}
    (built : Store.builtin.value = .ok policy.builtin) (file : policy.config.Silent)
    {device : Device} (hints : device.Silent) (typeName : Option Text) :
    SelfSufficient (policy.rules device typeName).set := by
  obtain ⟨options, computed, closed⟩ := Store.exists_builtin_options
  have one : policy.builtin = ⟨[⟨.any, options⟩]⟩ := Except.ok.inj (built.symm.trans computed)
  refine ⟨?uidOnly, ?gidOnly, ?suits⟩
  case uidOnly =>
    intro name mem
    have known : (Field.allowUidSelf, "uid".toList) ∈ ownIdNames := by decide
    exact (ownId_of_silent closed one file hints known mem).1
  case gidOnly =>
    intro name mem
    have known : (Field.allowGidSelf, "gid".toList) ∈ ownIdNames := by decide
    exact (ownId_of_silent closed one file hints known mem).1
  case suits =>
    intro spec mem
    obtain ⟨scope, own, kept⟩ : ∃ scope,
        spec ∈ (TypeOptions.setFor options scope).elements .defaults ∧
          ∀ field, (TypeOptions.setFor options scope).elements field ⊆
            (policy.effective device typeName).value.elements field := by
      rcases (mem_effective_of_silent one file hints).mp mem with ⟨type, asked, own⟩ | any
      · refine ⟨.ofName type, own, ?_⟩
        intro field x listed
        exact (mem_effective_of_silent one file hints).mpr (.inl ⟨type, asked, listed⟩)
      · refine ⟨.any, any, ?_⟩
        intro field x listed
        exact (mem_effective_of_silent one file hints).mpr (.inr listed)
    apply (Store.suits_of_builtin computed scope spec own).mono
    intro field x listed
    rcases OptionSet.mem_elements_extendedBy.mp listed with here | any
    · exact kept field here
    · exact (mem_effective_of_silent one file hints).mpr (.inr any)

/-- Under the built-in policy alone, everybody's request that asks for nothing of its own
is granted: no default is refused to a caller, whatever the user directory knows. -/
theorem Policy.builtinDefaults_granted : ∃ store, Store.builtin.value = .ok store ∧
    ∀ (config : ConfigDirectory) (users : UserDirectory) (device : Device)
      (properties : Properties) (caller : UInt32) (typeName callerOptions : Option Text),
      config.Silent → device.Silent → device.properties = some properties →
      (∀ text ∈ callerOptions, OptionString.read text = .ok []) →
      ∃ text, ((Policy.mk store config users).mountString device caller typeName
        callerOptions).value = .ok text := by
  obtain ⟨options, built, -⟩ := Store.exists_builtin_options
  refine ⟨_, built, ?_⟩
  intro config users device properties caller typeName callerOptions file hints there nothing
  let policy : Policy := ⟨⟨[⟨.any, options⟩]⟩, config, users⟩
  have sufficient : SelfSufficient (policy.rules device typeName).set :=
    policy.selfSufficient_of_silent built file hints typeName
  have read : Rules.callersOwn callerOptions = .ok [] := by
    cases callerOptions with
    | none => rfl
    | some text => exact nothing text rfl
  refine ⟨_, value_mountString_eq_ok_iff.mpr
    ⟨_, requested_eq_ok_iff.mpr ⟨properties, [], there, read, rfl⟩, ?_, rfl⟩⟩
  intro o mem
  rw [List.append_nil] at mem
  exact Rules.accepts_default sufficient mem

def sharedDevice : Device :=
  ⟨"/dev/sr0".toList, [], some (.ofList [(Device.sharedProperty, ['1'])])⟩

/-- Nobody knows the caller, so the group's id is left out, and modes are relaxed. -/
theorem Policy.builtinDefaults_granted_iso9660 : ∃ store text, Store.builtin.value = .ok store ∧
    ((Policy.mk store ⟨[], .missing⟩ .superuserOnly).mountString sharedDevice 4242
      (some "ISO9660".toList) (some ",,".toList)).value = .ok text := by
  obtain ⟨store, built, granted⟩ := builtinDefaults_granted
  have file : ConfigDirectory.Silent ⟨[], .missing⟩ := by
    intro other found
    simp [ConfigDirectory.value_overrides, ConfigFile.text?] at found
  have hints : sharedDevice.Silent := by
    intro properties known property mem
    rw [← Option.some.inj known] at mem
    obtain rfl : property = (Device.sharedProperty, ['1']) := List.mem_singleton.mp mem
    decide
  have nothing : ∀ text ∈ some ",,".toList, OptionString.read text = .ok [] := by
    rintro text ⟨⟩
    rfl
  obtain ⟨text, answer⟩ := granted ⟨[], .missing⟩ .superuserOnly sharedDevice _ 4242
    (some "ISO9660".toList) (some ",,".toList) file hints rfl nothing
  exact ⟨store, text, built, answer⟩

end MountPolicy
