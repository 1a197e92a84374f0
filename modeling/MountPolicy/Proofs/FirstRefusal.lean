import MountPolicy.Proofs.OptionItems
import MountPolicy.Proofs.Permission

/-! The refusal that stops a request. An option is refused for a comma that it hides or else
because the rules do not allow it, whatever the other options are, and the first refused one
is named. Main statement: a mount string has all options of the request or there is none,
and a set that allows more takes no mount string back. -/
namespace MountPolicy

/-- A comma in the name, or one right after a backslash in the value. -/
def MountOption.HidesComma (o : MountOption) : Prop :=
  ',' ∈ o.name ∨ ∃ before after, o.value = some (before ++ '\\' :: ',' :: after)

theorem hidesComma_iff {o : MountOption} : hidesComma o = true ↔ o.HidesComma := by
  simp only [hidesComma, MountOption.HidesComma, Bool.or_eq_true, List.contains_eq_mem,
    decide_eq_true_eq, Option.any_eq_true, Text.occurs_iff]
  refine or_congr_right ⟨?_, ?_⟩
  · rintro ⟨value, present, before, after, rfl⟩
    exact ⟨before, after, by simpa using present⟩
  · rintro ⟨before, after, present⟩
    exact ⟨_, present, before, after, by simp⟩

namespace Rules

structure Accepts (rules : Rules) (caller : UInt32) (o : MountOption) : Prop where
  plain : ¬ o.HidesComma
  allowed : (rules.allows caller o).value = true

/-- Why an option cannot stand in a mount string. A hidden comma is the reason even where
a list allows the option. -/
inductive Refuses (rules : Rules) (caller : UInt32) (o : MountOption) : Refusal → Prop where
  | malformed : o.HidesComma → Refuses rules caller o .malformed
  | notAllowed : ¬ o.HidesComma → (rules.allows caller o).value = false →
      Refuses rules caller o .notAllowed

variable {rules : Rules} {caller : UInt32} {o : MountOption}

theorem value_refusal?_eq_some_iff {reason : Refusal} :
    (rules.refusal? caller o).value = some reason ↔ rules.Refuses caller o reason := by
  rw [value_refusal?]
  by_cases hidden : o.HidesComma
  · rw [if_pos (hidesComma_iff.mpr hidden)]
    constructor
    · intro same
      exact Option.some.inj same ▸ .malformed hidden
    · rintro (_ | ⟨plain, -⟩)
      · rfl
      · exact absurd hidden plain
  · rw [if_neg (mt hidesComma_iff.mp hidden)]
    cases allowed : (rules.allows caller o).value with
    | true =>
      constructor
      · nofun
      · rintro (there | ⟨-, refused⟩)
        · exact absurd there hidden
        · exact absurd (allowed.symm.trans refused) nofun
    | false =>
      constructor
      · intro same
        exact Option.some.inj same ▸ .notAllowed hidden allowed
      · rintro (there | -)
        · exact absurd there hidden
        · rfl

theorem value_refusal?_eq_none_iff_accepts :
    (rules.refusal? caller o).value = none ↔ rules.Accepts caller o := by
  rw [value_refusal?_eq_none_iff, Bool.eq_false_iff, Ne, hidesComma_iff]
  exact ⟨fun ⟨plain, allowed⟩ => ⟨plain, allowed⟩, fun ⟨plain, allowed⟩ => ⟨plain, allowed⟩⟩

theorem Accepts.mono {wider : OptionSet} (more : wider.Widens rules.set)
    (accepted : rules.Accepts caller o) : Accepts ⟨wider, rules.users⟩ caller o where
  plain := accepted.plain
  allowed := (permitted_of_allows accepted.allowed).mono more |>.allows

theorem value_firstRefused?_eq_some_iff {options : List MountOption} {reason : Refusal} :
    (rules.firstRefused? caller options).value = some (o, reason) ↔
      ∃ before after, options = before ++ o :: after ∧
        (∀ earlier ∈ before, rules.Accepts caller earlier) ∧ rules.Refuses caller o reason := by
  rw [value_firstRefused?, List.findSome?_eq_some_iff]
  simp only [Option.map_eq_none_iff, value_refusal?_eq_none_iff_accepts, Option.map_eq_some_iff,
    value_refusal?_eq_some_iff]
  constructor
  · rintro ⟨before, found, after, cut, ⟨cause, refused, same⟩, accepted⟩
    obtain ⟨rfl, rfl⟩ := Prod.mk.inj same
    exact ⟨before, after, cut, accepted, refused⟩
  · rintro ⟨before, after, cut, accepted, refused⟩
    exact ⟨before, o, after, cut, ⟨reason, refused, rfl⟩, accepted⟩

theorem write_safetyOptions_append (options : List MountOption) :
    OptionString.write (safetyOptions ++ options) =
      if options = [] then "uhelper=udisks2,nodev,nosuid".toList
      else "uhelper=udisks2,nodev,nosuid".toList ++ ',' :: OptionString.write options := by
  have fixed : OptionString.write safetyOptions = "uhelper=udisks2,nodev,nosuid".toList := rfl
  rw [OptionString.write_append (by simp [safetyOptions]), fixed]
  split
  · exact List.append_nil _
  · rfl

theorem value_mountString_eq_ok_iff_accepts {options : List MountOption} {text : Text} :
    (rules.mountString caller options).value = .ok text ↔
      (∀ o ∈ options, rules.Accepts caller o) ∧
        text = OptionString.write (safetyOptions ++ options) := by
  rw [value_mountString_eq_ok_iff]
  simp only [← value_refusal?_eq_none_iff, value_refusal?_eq_none_iff_accepts]

theorem value_mountString_eq_error_iff {options : List MountOption} {error : MountError} :
    (rules.mountString caller options).value = .error error ↔
      ∃ o reason, (rules.firstRefused? caller options).value = some (o, reason) ∧
        error = .optionNotPermitted o.text reason := by
  rw [value_mountString]
  cases (rules.firstRefused? caller options).value with
  | none => simp
  | some refused =>
    obtain ⟨o, reason⟩ := refused
    constructor
    · intro same
      exact ⟨o, reason, rfl, (Except.error.inj same).symm⟩
    · rintro ⟨first, cause, same, rfl⟩
      obtain ⟨rfl, rfl⟩ := Prod.mk.inj (Option.some.inj same)
      rfl

/-- A mount string has all options of the request, in their order and as often as they were
asked for, if each of them is accepted; otherwise there is none, and the first option that
is not accepted is named with its reason. Under a set that allows more a mount string is
the same. -/
theorem mountString_allOrNothing (rules : Rules) (caller : UInt32) (options : List MountOption) :
    let answer := (rules.mountString caller options).value
    (∀ text, answer = .ok text ↔ (∀ o ∈ options, rules.Accepts caller o) ∧
        text = if options = [] then "uhelper=udisks2,nodev,nosuid".toList
          else "uhelper=udisks2,nodev,nosuid".toList ++ ',' :: OptionString.write options) ∧
      (∀ error, answer = .error error ↔ ∃ o reason,
        (∃ before after, options = before ++ o :: after ∧
          (∀ earlier ∈ before, rules.Accepts caller earlier) ∧ rules.Refuses caller o reason) ∧
        error = .optionNotPermitted o.text reason) ∧
      ∀ wider : OptionSet, wider.Widens rules.set → ∀ text, answer = .ok text →
        (Rules.mountString ⟨wider, rules.users⟩ caller options).value = .ok text := by
  intro answer
  refine ⟨?granted, ?refused, ?widened⟩
  case granted =>
    intro text
    rw [← write_safetyOptions_append]
    exact value_mountString_eq_ok_iff_accepts
  case refused =>
    intro error
    rw [value_mountString_eq_error_iff]
    simp only [value_firstRefused?_eq_some_iff]
  case widened =>
    intro wider more text granted
    obtain ⟨accepted, rfl⟩ := value_mountString_eq_ok_iff_accepts.mp granted
    exact value_mountString_eq_ok_iff_accepts.mpr ⟨fun o mem => (accepted o mem).mono more, rfl⟩

def listedCommaRules : Rules :=
  ⟨{ allow := some ["ro".toList, "\"a,b\"".toList] }, .superuserOnly⟩

theorem mountString_allOrNothing_listedComma :
    let wider : OptionSet :=
      { allow := some ["suid".toList, "\"a,b\"".toList, "ro".toList], allowUidSelf := some [] }
    (listedCommaRules.mountString 1000
        [.flag "ro".toList, .flag "\"a,b\"".toList, .flag "suid".toList]).value =
      .error (.optionNotPermitted "\"a,b\"".toList .malformed) ∧
    (Rules.mountString ⟨wider, .superuserOnly⟩ 1000
        [.flag "ro".toList, .assign "ro".toList [], .flag "ro".toList]).value =
      .ok "uhelper=udisks2,nodev,nosuid,ro,ro=,ro".toList := by
  intro wider
  have more : wider.Widens listedCommaRules.set :=
    { allow := by decide
      uidSelf := fun x => Iff.rfl
      gidSelf := fun x => Iff.rfl }
  have flag : listedCommaRules.Accepts 1000 (.flag "ro".toList) :=
    value_refusal?_eq_none_iff_accepts.mp (by decide)
  have assigned : listedCommaRules.Accepts 1000 (.assign "ro".toList []) :=
    value_refusal?_eq_none_iff_accepts.mp (by decide)
  constructor
  · obtain ⟨-, refused, -⟩ := mountString_allOrNothing listedCommaRules 1000
      [.flag "ro".toList, .flag "\"a,b\"".toList, .flag "suid".toList]
    have hidden : (MountOption.flag "\"a,b\"".toList).HidesComma := .inl (by decide)
    refine (refused _).mpr ⟨_, _, ⟨[.flag "ro".toList], _, rfl, ?_, .malformed hidden⟩, rfl⟩
    intro earlier mem
    obtain rfl := List.mem_singleton.mp mem
    exact flag
  · obtain ⟨granted, -, widened⟩ := mountString_allOrNothing listedCommaRules 1000
      [.flag "ro".toList, .assign "ro".toList [], .flag "ro".toList]
    refine widened wider more _ ((granted _).mpr ⟨?_, rfl⟩)
    simp only [List.forall_mem_cons, List.not_mem_nil, false_imp_iff, implies_true, and_true]
    exact ⟨flag, assigned, flag⟩

end Rules
end MountPolicy
