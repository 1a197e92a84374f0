import MountPolicy.Proofs.FilledDefaults
import MountPolicy.Proofs.Permission

/-! The rules judge what the defaults became for a caller. Main statement: a value that is
fixed stays allowed, and so does an id of the caller that was filled in, where the lists
ask for the caller's own; nothing but the primary group is looked up for it. -/
namespace MountPolicy.Rules

variable {rules : Rules} {caller : UInt32}

theorem allows_fixed {spec value : Text} (present : (MountOption.ofSpec spec).value = some value)
    (full : value ≠ []) (listed : rules.set.contains .allow spec) :
    (rules.allows caller (.ofSpec spec)).value = true := by
  have fixed : pinned rules.set (.ofSpec spec) := by
    rw [pinned_iff, MountOption.text_ofSpec]
    exact ⟨value, present, full, listed⟩
  rw [value_allows, if_pos fixed]

theorem allows_ownUid {name : Text} (listed : name ∈ rules.set.elements .allowUidSelf) :
    (rules.allows caller (.assign name (Text.ofId caller))).value = true := by
  have own : (Text.ofId caller).Denotes caller.toNat :=
    Text.denotes_iff.mpr ⟨Text.isNumeral_ofNat _, Text.decimalValue_ofNat _⟩
  exact (Permitted.ownUid listed rfl own).allows

theorem allows_primaryGid {name : Text} {user : UserInfo}
    (known : (rules.users.userInfo caller).value = some user)
    (noUid : name ∉ rules.set.elements .allowUidSelf)
    (listed : name ∈ rules.set.elements .allowGidSelf) :
    (rules.allows caller (.assign name (Text.ofId user.primaryGid))).value = true := by
  have own : rules.users.IsGid caller (Text.ofId user.primaryGid) :=
    ⟨user.primaryGid, Text.isNumeral_ofNat _, Text.decimalValue_ofNat _, user, known, .inl rfl⟩
  exact (Permitted.of_isGid noUid listed rfl own).allows

theorem isFixed_iff_pinned {set : OptionSet} {spec : Text} :
    IsFixed set spec ↔ pinned set (.ofSpec spec) := by
  rw [pinned_iff, MountOption.text_ofSpec]
  constructor
  · intro fixed
    obtain ⟨listed, name, value, assigns, full⟩ := fixed
    exact ⟨value, assigns.value_ofSpec, full, OptionSet.contains_iff.mpr listed⟩
  · rintro ⟨value, present, full, listed⟩
    have sign : '=' ∈ spec := by
      apply Classical.not_not.mp
      intro absent
      rw [MountOption.ofSpec_of_not_mem absent] at present
      exact absurd present nofun
    obtain ⟨name, content, assigns⟩ := MountOption.exists_assigns sign
    obtain rfl := Option.some.inj (present.symm.trans assigns.value_ofSpec)
    exact ⟨OptionSet.contains_iff.mp listed, name, _, assigns, full⟩

/-- What the rules say to an option that came from the default. The look-up of other groups
may be replaced by any other, such as one that fails. -/
structure AllowedFrom (rules : Rules) (caller : UInt32) (spec : Text) (o : MountOption) :
    Prop where
  fixed : IsFixed rules.set spec → (rules.allows caller o).value = true
  ownUid : ∀ value, Assigns spec "uid".toList value → ¬ IsFixed rules.set spec →
    "uid".toList ∈ rules.set.elements .allowUidSelf → (rules.allows caller o).value = true
  ownGid : ∀ value, Assigns spec "gid".toList value → ¬ IsFixed rules.set spec →
    "gid".toList ∈ rules.set.elements .allowGidSelf →
    "gid".toList ∉ rules.set.elements .allowUidSelf →
    ∀ groups, (Rules.allows ⟨rules.set, ⟨rules.users.userInfo, groups⟩⟩ caller o).value = true

theorem FilledIn.allowedFrom {sharedMount : Bool} {spec : Text} {o : MountOption}
    (filled : FilledIn rules caller sharedMount spec (some o)) :
    AllowedFrom rules caller spec o := by
  refine ⟨?fixed, ?ownUid, ?ownGid⟩
  case fixed =>
    intro fixed
    obtain ⟨-, name, value, assigns, -⟩ := id fixed
    obtain rfl := Option.some.inj (filled.unique (.fixed assigns fixed))
    obtain ⟨full, listed⟩ := assigns.isFixed_iff.mp fixed
    rw [← MountOption.ofSpec_of_assigns assigns]
    exact allows_fixed assigns.value_ofSpec full listed
  case ownUid =>
    intro value assigns free listed
    obtain rfl := Option.some.inj (filled.unique (.ownUid assigns free))
    exact allows_ownUid listed
  case ownGid =>
    intro value assigns free listed noUid groups
    cases known : (rules.users.userInfo caller).value with
    | none => exact absurd (filled.unique (.leftOut assigns free known)) nofun
    | some user =>
      obtain rfl := Option.some.inj (filled.unique (.ownGid assigns free known))
      exact allows_primaryGid known noUid listed

/-- What is filled in is what the rules ask for. -/
theorem allows_defaultOptions (rules : Rules) (caller : UInt32) (sharedMount : Bool) :
    (∀ spec, IsFixed rules.set spec ↔ pinned rules.set (.ofSpec spec)) ∧
    (∀ o ∈ (rules.defaultOptions caller sharedMount).value,
      (∃ spec ∈ rules.set.elements .defaults,
        FilledIn rules caller sharedMount spec (some o)) ∧
      ∀ spec, FilledIn rules caller sharedMount spec (some o) →
        AllowedFrom rules caller spec o) ∧
    ∀ id, Text.toId? (Text.ofId id) = some id := by
  refine ⟨fun spec => isFixed_iff_pinned, ?options, Text.toId?_ofId⟩
  case options =>
    intro o mem
    exact ⟨exists_filledIn_of_mem mem, fun spec filled => filled.allowedFrom⟩

theorem allows_defaultOptions_alice :
    (aliceRules.users.groups "alice".toList 100).value = none ∧
      (aliceRules.allows 1000 (.assign "gid".toList "100".toList)).value = true := by
  have mem : .assign "gid".toList "100".toList ∈ (aliceRules.defaultOptions 1000 false).value := by
    decide +kernel
  have filled : FilledIn aliceRules 1000 false "gid=$GID".toList
      (some (.assign "gid".toList "100".toList)) :=
    filledIn_iff.mpr (by decide +kernel)
  have assigns : Assigns "gid=$GID".toList "gid".toList "$GID".toList := ⟨rfl, by decide⟩
  have free : ¬ IsFixed aliceRules.set "gid=$GID".toList := mt assigns.isFixed_iff.mp (by decide)
  obtain ⟨-, options, -⟩ := allows_defaultOptions aliceRules 1000 false
  have allowed := (options _ mem).2 _ filled
  exact ⟨rfl, allowed.ownGid _ assigns free (by decide) (by decide) aliceRules.users.groups⟩

end MountPolicy.Rules
