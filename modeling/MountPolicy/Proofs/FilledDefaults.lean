import Mathlib.Data.List.Forall2
import Mathlib.Data.List.ReduceOption
import MountPolicy.Proofs.Answers
import MountPolicy.Proofs.SharedModes

/-! Defaults as a caller gets them, told by their texts. An entry keeps its place, and its
text too unless it asks for an id or the mount is shared. Main statement: the options are
the entries one by one, with the caller's ids where no value is fixed, and a shared mount
changes nothing but modes. So no id of another user comes in but one that is fixed. -/
namespace MountPolicy

/-- A default that gives the option a value. The first equals sign ends the name. -/
structure Assigns (spec name value : Text) : Prop where
  whole : spec = name ++ '=' :: value
  cut : '=' ∉ name

/-- A default whose value stands as it is for everybody: not empty, and allowed so. -/
def IsFixed (set : OptionSet) (spec : Text) : Prop :=
  spec ∈ set.elements .allow ∧ ∃ name value, Assigns spec name value ∧ value ≠ []

namespace MountOption

theorem ofSpec_of_not_mem {spec : Text} (absent : '=' ∉ spec) : ofSpec spec = .flag spec := by
  unfold ofSpec
  rw [Text.splitFirst?_eq_none.mpr absent]

theorem ofSpec_of_assigns {spec name value : Text} (assigns : Assigns spec name value) :
    ofSpec spec = .assign name value := by
  obtain ⟨rfl, cut⟩ := assigns
  unfold ofSpec
  rw [Text.splitFirst?_append cut]

theorem exists_assigns {spec : Text} (sign : '=' ∈ spec) :
    ∃ name value, Assigns spec name value := by
  cases cut : Text.splitFirst? '=' spec with
  | none => exact absurd sign (Text.splitFirst?_eq_none.mp cut)
  | some parts =>
    have found : Text.splitFirst? '=' spec = some (parts.1, parts.2) := cut
    obtain ⟨whole, absent⟩ := Text.eq_of_splitFirst? found
    exact ⟨parts.1, parts.2, whole, absent⟩

end MountOption

theorem Assigns.text_assign {spec name value : Text} (assigns : Assigns spec name value) :
    (MountOption.assign name value).text = spec := assigns.whole.symm

theorem Assigns.name_ofSpec {spec name value : Text} (assigns : Assigns spec name value) :
    (MountOption.ofSpec spec).name = name :=
  congrArg MountOption.name (MountOption.ofSpec_of_assigns assigns)

theorem Assigns.value_ofSpec {spec name value : Text} (assigns : Assigns spec name value) :
    (MountOption.ofSpec spec).value = some value :=
  congrArg MountOption.value (MountOption.ofSpec_of_assigns assigns)

theorem Assigns.isFixed_iff {set : OptionSet} {spec name value : Text}
    (assigns : Assigns spec name value) :
    IsFixed set spec ↔ value ≠ [] ∧ set.contains .allow spec := by
  unfold OptionSet.contains
  rw [List.contains_iff_mem]
  constructor
  · rintro ⟨listed, other, content, same, full⟩
    have equal := (MountOption.ofSpec_of_assigns assigns).symm.trans
      (MountOption.ofSpec_of_assigns same)
    obtain ⟨rfl, rfl⟩ : name = other ∧ value = content := by
      simpa [MountOption.assign] using equal
    exact ⟨full, listed⟩
  · rintro ⟨full, listed⟩
    exact ⟨listed, name, value, assigns, full⟩

namespace Rules

theorem value_expandDefault (rules : Rules) (caller : UInt32) (sharedMount : Bool) (spec : Text) :
    (rules.expandDefault caller sharedMount spec).value =
      let option := MountOption.ofSpec spec
      match option.value with
      | none => some option
      | some value =>
        if value ≠ [] ∧ rules.set.contains .allow spec then some option
        else if option.name = "uid".toList then
          some (.assign option.name (Text.ofId caller))
        else if option.name = "gid".toList then
          (rules.users.userInfo caller).value.map fun user =>
            .assign option.name (Text.ofId user.primaryGid)
        else if option.name = "mode".toList ∧ sharedMount then
          some (((Mode.shared? value).map (MountOption.assign option.name)).getD option)
        else if option.name = "dmode".toList ∧ sharedMount then
          some (.assign option.name Mode.sharedDirectory)
        else some option := by
  unfold expandDefault
  dsimp only
  cases (MountOption.ofSpec spec).value with
  | none => rfl
  | some value =>
    dsimp only
    split
    · rfl
    · split
      · rfl
      · split
        · rw [Logged.value_bind]
          rfl
        · split
          · cases Mode.shared? value <;> rfl
          · split <;> rfl

/-- What becomes of a default, by its text. It is left out only if it asks for the group of
a caller whom nobody knows. -/
inductive FilledIn (rules : Rules) (caller : UInt32) (sharedMount : Bool) (spec : Text) :
    Option MountOption → Prop
  | flag : '=' ∉ spec → FilledIn rules caller sharedMount spec (some (.flag spec))
  | fixed {name value : Text} : Assigns spec name value → IsFixed rules.set spec →
      FilledIn rules caller sharedMount spec (some (.assign name value))
  | ownUid {value : Text} : Assigns spec "uid".toList value → ¬ IsFixed rules.set spec →
      FilledIn rules caller sharedMount spec (some (.assign "uid".toList (Text.ofId caller)))
  | ownGid {value : Text} {user : UserInfo} : Assigns spec "gid".toList value →
      ¬ IsFixed rules.set spec → (rules.users.userInfo caller).value = some user →
      FilledIn rules caller sharedMount spec
        (some (.assign "gid".toList (Text.ofId user.primaryGid)))
  | leftOut {value : Text} : Assigns spec "gid".toList value → ¬ IsFixed rules.set spec →
      (rules.users.userInfo caller).value = none → FilledIn rules caller sharedMount spec none
  | mode {value result : Text} : Assigns spec "mode".toList value → ¬ IsFixed rules.set spec →
      sharedMount = true → Mode.Relaxes value result →
      FilledIn rules caller sharedMount spec (some (.assign "mode".toList result))
  | dmode {value : Text} : Assigns spec "dmode".toList value → ¬ IsFixed rules.set spec →
      sharedMount = true →
      FilledIn rules caller sharedMount spec (some (.assign "dmode".toList "0555".toList))
  | kept {name value : Text} : Assigns spec name value → ¬ IsFixed rules.set spec →
      name ≠ "uid".toList → name ≠ "gid".toList →
      (sharedMount = true →
        name ≠ "dmode".toList ∧ (name = "mode".toList → ¬ Mode.IsMode value)) →
      FilledIn rules caller sharedMount spec (some (.assign name value))

variable {rules : Rules} {caller : UInt32} {sharedMount : Bool} {spec : Text}
  {outcome : Option MountOption}

theorem FilledIn.value_expandDefault (filled : FilledIn rules caller sharedMount spec outcome) :
    (rules.expandDefault caller sharedMount spec).value = outcome := by
  rw [Rules.value_expandDefault]
  cases filled with
  | flag absent =>
    rw [MountOption.ofSpec_of_not_mem absent]
    rfl
  | fixed assigns fixed =>
    rw [MountOption.ofSpec_of_assigns assigns]
    exact if_pos (assigns.isFixed_iff.mp fixed)
  | ownUid assigns free =>
    rw [MountOption.ofSpec_of_assigns assigns]
    exact (if_neg (mt assigns.isFixed_iff.mpr free)).trans (if_pos rfl)
  | ownGid assigns free known =>
    rw [MountOption.ofSpec_of_assigns assigns, known]
    exact if_neg (mt assigns.isFixed_iff.mpr free)
  | leftOut assigns free unknown =>
    rw [MountOption.ofSpec_of_assigns assigns, unknown]
    exact if_neg (mt assigns.isFixed_iff.mpr free)
  | mode assigns free joint relaxes =>
    rw [MountOption.ofSpec_of_assigns assigns]
    refine (if_neg (mt assigns.isFixed_iff.mpr free)).trans ?_
    simp [MountOption.assign, joint, relaxes.shared?]
  | dmode assigns free joint =>
    rw [MountOption.ofSpec_of_assigns assigns]
    refine (if_neg (mt assigns.isFixed_iff.mpr free)).trans ?_
    simp [MountOption.assign, joint, Mode.sharedDirectory]
  | @kept name value assigns free uid gid modes =>
    rw [MountOption.ofSpec_of_assigns assigns]
    refine (if_neg (mt assigns.isFixed_iff.mpr free)).trans ?_
    refine (if_neg uid).trans ((if_neg gid).trans ?_)
    by_cases mode : name = "mode".toList ∧ sharedMount = true
    · refine (if_pos mode).trans ?_
      rw [Mode.shared?_eq_none ((modes mode.2).2 mode.1)]
      rfl
    · exact (if_neg mode).trans (if_neg fun dmode => (modes dmode.2).1 dmode.1)

theorem exists_filledIn (rules : Rules) (caller : UInt32) (sharedMount : Bool) (spec : Text) :
    ∃ outcome, FilledIn rules caller sharedMount spec outcome := by
  by_cases flag : '=' ∉ spec
  · exact ⟨_, .flag flag⟩
  have sign := Classical.not_not.mp flag
  obtain ⟨name, value, assigns⟩ := MountOption.exists_assigns sign
  by_cases fixed : IsFixed rules.set spec
  · exact ⟨_, .fixed assigns fixed⟩
  by_cases uid : name = "uid".toList
  · subst uid
    exact ⟨_, .ownUid assigns fixed⟩
  by_cases gid : name = "gid".toList
  · subst gid
    cases known : (rules.users.userInfo caller).value with
    | none => exact ⟨_, .leftOut assigns fixed known⟩
    | some user => exact ⟨_, .ownGid assigns fixed known⟩
  cases sharedMount with
  | false => exact ⟨_, .kept assigns fixed uid gid nofun⟩
  | true =>
    by_cases dmode : name = "dmode".toList
    · subst dmode
      exact ⟨_, .dmode assigns fixed rfl⟩
    by_cases mode : name = "mode".toList ∧ Mode.IsMode value
    · obtain ⟨rfl, valid⟩ := mode
      obtain ⟨result, relaxes⟩ := valid.exists_relaxes
      exact ⟨_, .mode assigns fixed rfl relaxes⟩
    · exact ⟨_, .kept assigns fixed uid gid fun _ => ⟨dmode, not_and.mp mode⟩⟩

theorem filledIn_iff :
    FilledIn rules caller sharedMount spec outcome ↔
      (rules.expandDefault caller sharedMount spec).value = outcome := by
  constructor
  · exact FilledIn.value_expandDefault
  · rintro rfl
    obtain ⟨outcome, filled⟩ := exists_filledIn rules caller sharedMount spec
    rwa [filled.value_expandDefault]

theorem FilledIn.unique {other : Option MountOption}
    (filled : FilledIn rules caller sharedMount spec outcome)
    (again : FilledIn rules caller sharedMount spec other) : outcome = other :=
  filled.value_expandDefault.symm.trans again.value_expandDefault

theorem forall₂_filledIn (rules : Rules) (caller : UInt32) (sharedMount : Bool) :
    ∃ outcomes, List.Forall₂ (FilledIn rules caller sharedMount)
        (rules.set.elements .defaults) outcomes ∧
      (rules.defaultOptions caller sharedMount).value = outcomes.reduceOption := by
  refine ⟨(rules.set.elements .defaults).map fun spec =>
    (rules.expandDefault caller sharedMount spec).value, ?_, ?_⟩
  · apply List.forall₂_map_right_iff.mpr
    apply List.forall₂_same.mpr
    intro spec _
    exact filledIn_iff.mpr rfl
  · rw [value_defaultOptions, List.reduceOption, List.filterMap_map]
    rfl

theorem exists_filledIn_of_mem {o : MountOption}
    (mem : o ∈ (rules.defaultOptions caller sharedMount).value) :
    ∃ spec ∈ rules.set.elements .defaults, FilledIn rules caller sharedMount spec (some o) := by
  rw [value_defaultOptions] at mem
  obtain ⟨spec, inForce, made⟩ := List.mem_filterMap.mp mem
  exact ⟨spec, inForce, filledIn_iff.mpr made⟩

/-- What a shared mount makes of an option of a default. A value that is fixed stays. -/
inductive OnSharedMount (set : OptionSet) : MountOption → MountOption → Prop
  | same {o : MountOption} :
      (∀ value, o.value = some value → ¬ IsFixed set o.text →
        o.name ≠ "dmode".toList ∧ (o.name = "mode".toList → ¬ Mode.IsMode value)) →
      OnSharedMount set o o
  | mode {value result : Text} : ¬ IsFixed set (MountOption.assign "mode".toList value).text →
      Mode.Relaxes value result →
      OnSharedMount set (.assign "mode".toList value) (.assign "mode".toList result)
  | dmode {value : Text} : ¬ IsFixed set (MountOption.assign "dmode".toList value).text →
      OnSharedMount set (.assign "dmode".toList value) (.assign "dmode".toList "0555".toList)

theorem OnSharedMount.name_eq {set : OptionSet} {o other : MountOption}
    (changed : OnSharedMount set o other) : o.name = other.name := by
  cases changed <;> rfl

theorem OnSharedMount.of_name {set : OptionSet} {name value : Text} (mode : name ≠ "mode".toList)
    (dmode : name ≠ "dmode".toList) : OnSharedMount set (.assign name value) (.assign name value) :=
  .same fun _ _ _ => ⟨dmode, fun same => absurd same mode⟩

theorem OnSharedMount.of_isFixed {set : OptionSet} {o : MountOption} (fixed : IsFixed set o.text) :
    OnSharedMount set o o :=
  .same fun _ _ free => absurd fixed free

/-- A shared mount leaves out the same entries and keeps the names of the others. -/
theorem FilledIn.exists_onSharedMount (filled : FilledIn rules caller false spec outcome) :
    ∃ other, FilledIn rules caller true spec other ∧
      Option.Rel (OnSharedMount rules.set) outcome other := by
  cases filled with
  | flag absent => exact ⟨_, .flag absent, .some (.same nofun)⟩
  | fixed assigns fixed =>
    exact ⟨_, .fixed assigns fixed, .some (.of_isFixed (assigns.text_assign.symm ▸ fixed))⟩
  | ownUid assigns free =>
    exact ⟨_, .ownUid assigns free, .some (.of_name (by decide) (by decide))⟩
  | ownGid assigns free known =>
    exact ⟨_, .ownGid assigns free known, .some (.of_name (by decide) (by decide))⟩
  | leftOut assigns free unknown => exact ⟨_, .leftOut assigns free unknown, .none⟩
  | mode _ _ joint => exact Bool.noConfusion joint
  | dmode _ _ joint => exact Bool.noConfusion joint
  | @kept name value assigns free uid gid _ =>
    -- Only here does the other run look at the name again, to find the two kinds of modes.
    have unfixed : ¬ IsFixed rules.set (MountOption.assign name value).text :=
      assigns.text_assign.symm ▸ free
    by_cases dmode : name = "dmode".toList
    · subst dmode
      exact ⟨_, .dmode assigns free rfl, .some (.dmode unfixed)⟩
    by_cases mode : name = "mode".toList ∧ Mode.IsMode value
    · obtain ⟨rfl, valid⟩ := mode
      obtain ⟨result, relaxes⟩ := valid.exists_relaxes
      exact ⟨_, .mode assigns free rfl relaxes, .some (.mode unfixed relaxes)⟩
    · have others := not_and.mp mode
      refine ⟨_, .kept assigns free uid gid fun _ => ⟨dmode, others⟩, .some (.same ?_)⟩
      intro content present _
      obtain rfl := Option.some.inj present
      exact ⟨dmode, others⟩

theorem forall₂_onSharedMount (rules : Rules) (caller : UInt32) :
    List.Forall₂ (OnSharedMount rules.set) (rules.defaultOptions caller false).value
      (rules.defaultOptions caller true).value := by
  have each : ∀ spec again, spec = again → Option.Rel (OnSharedMount rules.set)
      (rules.expandDefault caller false spec).value
      (rules.expandDefault caller true again).value := by
    rintro spec _ rfl
    obtain ⟨outcome, alone⟩ := exists_filledIn rules caller false spec
    obtain ⟨other, joint, changed⟩ := alone.exists_onSharedMount
    rwa [alone.value_expandDefault, joint.value_expandDefault]
  rw [value_defaultOptions, value_defaultOptions]
  exact List.rel_filterMap (@each) (List.forall₂_same.mpr fun _ _ => rfl)

/-- An id among the options of the defaults is one that is fixed, or the caller's own. -/
structure OwnIds (rules : Rules) (caller : UInt32) (o : MountOption) : Prop where
  uid : ∀ value, o = .assign "uid".toList value →
    IsFixed rules.set o.text ∨ value = Text.ofId caller
  gid : ∀ value, o = .assign "gid".toList value → IsFixed rules.set o.text ∨
    ∃ user, (rules.users.userInfo caller).value = some user ∧ value = Text.ofId user.primaryGid

theorem OwnIds.of_name {name value : Text} (uid : name ≠ "uid".toList)
    (gid : name ≠ "gid".toList) : OwnIds rules caller (.assign name value) where
  uid _ same := absurd (congrArg MountOption.name same) uid
  gid _ same := absurd (congrArg MountOption.name same) gid

theorem FilledIn.ownIds {o : MountOption}
    (filled : FilledIn rules caller sharedMount spec (some o)) : OwnIds rules caller o := by
  cases filled with
  | flag absent => exact ⟨nofun, nofun⟩
  | fixed assigns fixed =>
    have stays := assigns.text_assign.symm ▸ fixed
    exact ⟨fun _ _ => .inl stays, fun _ _ => .inl stays⟩
  | ownUid assigns free =>
    constructor
    · intro value same
      have content := congrArg MountOption.value same
      exact .inr (Option.some.inj content).symm
    · intro value same
      have differ : "uid".toList ≠ "gid".toList := by decide
      exact absurd (congrArg MountOption.name same) differ
  | @ownGid _ user assigns free known =>
    constructor
    · intro value same
      have differ : "gid".toList ≠ "uid".toList := by decide
      exact absurd (congrArg MountOption.name same) differ
    · intro value same
      have content := congrArg MountOption.value same
      exact .inr ⟨user, known, (Option.some.inj content).symm⟩
  | mode | dmode => exact .of_name (by decide) (by decide)
  | kept assigns free uid gid modes => exact .of_name uid gid

/-- The options of the defaults, entry by entry. Nothing is lost but the group of an unknown
caller, a shared mount changes modes that are not fixed and nothing else, and there is no
user or group id that is neither fixed nor the caller's. -/
theorem defaultOptions_filledIn (rules : Rules) (caller : UInt32) :
    (∀ sharedMount, ∃ outcomes,
      List.Forall₂ (FilledIn rules caller sharedMount) (rules.set.elements .defaults) outcomes ∧
        (rules.defaultOptions caller sharedMount).value = outcomes.reduceOption) ∧
    List.Forall₂ (OnSharedMount rules.set) (rules.defaultOptions caller false).value
      (rules.defaultOptions caller true).value ∧
    (rules.defaultOptions caller true).value.map MountOption.name =
      (rules.defaultOptions caller false).value.map MountOption.name ∧
    ∀ sharedMount, ∀ o ∈ (rules.defaultOptions caller sharedMount).value,
      OwnIds rules caller o := by
  have changed := forall₂_onSharedMount rules caller
  refine ⟨forall₂_filledIn rules caller, changed, ?names, ?ids⟩
  case names =>
    have names : List.Forall₂ (· = ·)
        ((rules.defaultOptions caller true).value.map MountOption.name)
        ((rules.defaultOptions caller false).value.map MountOption.name) := by
      apply List.forall₂_map_left_iff.mpr
      apply List.forall₂_map_right_iff.mpr
      exact changed.flip.imp fun _ _ change => change.name_eq.symm
    rwa [List.forall₂_eq_eq_eq] at names
  case ids =>
    intro sharedMount o mem
    obtain ⟨spec, -, filled⟩ := exists_filledIn_of_mem mem
    exact filled.ownIds

def aliceRules : Rules where
  set := {
    defaults := some ["uid=0".toList, "uid=$UID".toList, "gid=$GID".toList, "mode=0777".toList]
    allow := some ["uid=0".toList]
    allowGidSelf := some ["gid".toList] }
  users := .ofEntries [⟨1000, "alice".toList, 100, none⟩]

theorem defaultOptions_filledIn_alice :
    .assign "uid".toList "0".toList ∈ (aliceRules.defaultOptions 1000 true).value ∧
      OwnIds aliceRules 1000 (.assign "uid".toList "0".toList) := by
  have mem : .assign "uid".toList "0".toList ∈ (aliceRules.defaultOptions 1000 true).value := by
    decide +kernel
  obtain ⟨-, -, -, ids⟩ := defaultOptions_filledIn aliceRules 1000
  exact ⟨mem, ids true _ mem⟩

example : (Rules.defaultOptions
    ⟨{ defaults := some ["gid=".toList, "mode=0777".toList] }, .superuserOnly⟩ 7 true).value =
      [.assign "mode".toList "0755".toList] := by
  decide +kernel

end Rules
end MountPolicy
