import MountPolicy.Proofs.Failures
import MountPolicy.Proofs.JoinedStrings
import MountPolicy.Proofs.MountString

/-! Requests with joined option strings. The defaults are judged first in each of them, and
the options of the second string behind those of the first. Main statement: a request with
two strings joined is answered as the requests with one of them are, the first refusal
standing, so the caller's options are judged one by one. -/
namespace MountPolicy

namespace Rules

variable (rules : Rules) (caller : UInt32)

theorem value_firstRefused?_append (first second : List MountOption) :
    (rules.firstRefused? caller (first ++ second)).value =
      (rules.firstRefused? caller first).value.or (rules.firstRefused? caller second).value := by
  simp only [value_firstRefused?, List.findSome?_append]

theorem value_mountString_append (defaults first second : List MountOption) :
    (rules.mountString caller (defaults ++ (first ++ second))).value =
      match (rules.mountString caller (defaults ++ first)).value with
      | .error error => .error error
      | .ok text =>
        (rules.mountString caller (defaults ++ second)).value.map fun _ =>
          text ++ if second = [] then [] else ',' :: OptionString.write second := by
  have written : OptionString.write (safetyOptions ++ (defaults ++ (first ++ second))) =
      OptionString.write (safetyOptions ++ (defaults ++ first)) ++
        if second = [] then [] else ',' :: OptionString.write second := by
    rw [← List.append_assoc defaults, ← List.append_assoc safetyOptions,
      OptionString.write_append (by simp [safetyOptions])]
  simp only [value_mountString, value_firstRefused?_append]
  -- The defaults are judged first in all three runs: one that is refused answers each.
  rcases (rules.firstRefused? caller defaults).value with _ | refused
  · rcases (rules.firstRefused? caller first).value with _ | refused
    · rcases (rules.firstRefused? caller second).value with _ | refused
      · exact congrArg Except.ok written
      · rfl
    · rfl
  · rfl

theorem granted_append_iff (defaults own : List MountOption) :
    (∃ text, (rules.mountString caller (defaults ++ own)).value = .ok text) ↔
      (∃ text, (rules.mountString caller defaults).value = .ok text) ∧
        ∀ o ∈ own, ∃ text, (rules.mountString caller (defaults ++ [o])).value = .ok text := by
  simp only [value_mountString_eq_ok_iff, exists_and_left, exists_eq, and_true,
    List.forall_mem_append, List.forall_mem_singleton]
  constructor
  · rintro ⟨given, asked⟩
    exact ⟨given, fun o mem => ⟨given, asked o mem⟩⟩
  · rintro ⟨given, asked⟩
    exact ⟨given, fun o mem => (asked o mem).2⟩

end Rules

namespace Policy

section Request

variable (policy : Policy) {device : Device} (caller : UInt32) (typeName : Option Text)

theorem exists_defaults {properties : Properties} (there : device.properties = some properties) :
    ∃ defaults, ∀ callerOptions own, Rules.callersOwn callerOptions = .ok own →
      (policy.mountString device caller typeName callerOptions).value =
        ((policy.rules device typeName).mountString caller (defaults ++ own)).value := by
  refine ⟨((policy.rules device typeName).defaultOptions caller
    (properties.isTrue Device.sharedProperty)).value, ?_⟩
  intro callerOptions own read
  rw [value_mountString, requested_eq_ok_iff.mpr ⟨properties, own, there, read, rfl⟩]

variable {a b : Text} {first second : List MountOption}

theorem value_mountString_append_comma (readFirst : OptionString.read a = .ok first)
    (readSecond : OptionString.read b = .ok second) (plain : a.getLast? ≠ some '\\') :
    (policy.mountString device caller typeName (some (a ++ ',' :: b))).value =
      match (policy.mountString device caller typeName (some a)).value with
      | .error error => .error error
      | .ok text =>
        (policy.mountString device caller typeName (some b)).value.map fun _ =>
          text ++ if second = [] then [] else ',' :: OptionString.write second := by
  cases there : device.properties with
  | none =>
    rw [policy.mountString_of_gone caller typeName there,
      policy.mountString_of_gone caller typeName there (some a)]
    rfl
  | some properties =>
    obtain ⟨defaults, judged⟩ := policy.exists_defaults caller typeName there
    have readBoth := OptionString.read_append_comma readFirst readSecond plain
    rw [judged (some a) first readFirst, judged (some b) second readSecond,
      judged (some (a ++ ',' :: b)) (first ++ second) readBoth]
    exact Rules.value_mountString_append _ caller defaults first second

theorem granted_iff_each_granted (readFirst : OptionString.read a = .ok first) :
    (∃ text, (policy.mountString device caller typeName (some a)).value = .ok text) ↔
      (∃ text, (policy.mountString device caller typeName none).value = .ok text) ∧
        ∀ o ∈ first, ∃ text,
          (policy.mountString device caller typeName (some o.text)).value = .ok text := by
  cases there : device.properties with
  | none => simp [policy.mountString_of_gone caller typeName there]
  | some properties =>
    obtain ⟨defaults, judged⟩ := policy.exists_defaults caller typeName there
    have each : ∀ o ∈ first, (policy.mountString device caller typeName (some o.text)).value =
        ((policy.rules device typeName).mountString caller (defaults ++ [o])).value := by
      intro o mem
      obtain ⟨item, same⟩ := OptionString.isItem_of_read readFirst mem
      apply judged
      rw [Rules.callersOwn, item.read, same]
    rw [judged (some a) first readFirst, judged none [] rfl, List.append_nil,
      Rules.granted_append_iff]
    exact and_congr_right fun _ => forall₂_congr fun o mem => by rw [each o mem]

end Request

/-- Each of a caller's options is judged apart from the others. Two strings joined are
granted if both are, with the options of the second behind the answer to the first, and
else the first refusal stands; and one string is granted if the defaults are and each of
its options is on its own. -/
theorem mountString_joined (policy : Policy) (device : Device) (caller : UInt32)
    (typeName : Option Text) {a b : Text} {first second : List MountOption}
    (readFirst : OptionString.read a = .ok first) (readSecond : OptionString.read b = .ok second)
    (plain : a.getLast? ≠ some '\\') :
    let answer callerOptions := (policy.mountString device caller typeName callerOptions).value
    ((∃ text, answer (some (a ++ ',' :: b)) = .ok text) ↔
        (∃ text, answer (some a) = .ok text) ∧ ∃ text, answer (some b) = .ok text) ∧
      (∀ text, answer (some (a ++ ',' :: b)) = .ok text →
        ∃ front, answer (some a) = .ok front ∧
          text = front ++ if second = [] then [] else ',' :: OptionString.write second) ∧
      (∀ error, answer (some a) = .error error →
        answer (some (a ++ ',' :: b)) = .error error) ∧
      (∀ front error, answer (some a) = .ok front → answer (some b) = .error error →
        answer (some (a ++ ',' :: b)) = .error error) ∧
      ((∃ text, answer (some a) = .ok text) ↔
        (∃ text, answer none = .ok text) ∧
          ∀ o ∈ first, ∃ text, answer (some o.text) = .ok text) := by
  intro answer
  have joined : answer (some (a ++ ',' :: b)) = match answer (some a) with
      | .error error => .error error
      | .ok front => (answer (some b)).map fun _ =>
          front ++ if second = [] then [] else ',' :: OptionString.write second :=
    policy.value_mountString_append_comma caller typeName readFirst readSecond plain
  refine ⟨?granted, ?written, ?firstRefused, ?secondRefused, ?each⟩
  case granted =>
    rw [joined]
    cases answer (some a) with
    | error error => simp
    | ok front => cases answer (some b) <;> simp [Except.map]
  case written =>
    intro text done
    rw [joined] at done
    cases found : answer (some a) with
    | error error => simp [found] at done
    | ok front =>
      refine ⟨front, rfl, ?_⟩
      cases later : answer (some b) with
      | error error => simp [found, later, Except.map] at done
      | ok other => simpa [found, later, Except.map, eq_comm] using done
  case firstRefused =>
    intro error refused
    rw [joined, refused]
  case secondRefused =>
    intro front error done refused
    rw [joined, done, refused]
    rfl
  case each => exact policy.granted_iff_each_granted caller typeName readFirst

set_option maxRecDepth 2000 in
/-- The quoted comma separates nothing, and the empty item behind it is skipped. -/
theorem mountString_joined_quotedComma :
    (∃ front, (samplePolicy.mountString sampleDevice 1000 none
          (some "x-a=\"b,c\",".toList)).value = .ok front ∧
        "uhelper=udisks2,nodev,nosuid,uid=1000,ro,x-a=\"b,c\",gid=0027".toList =
          front ++ ",gid=0027".toList) ∧
      (samplePolicy.mountString sampleDevice 1000 none
          (some "x-a=\"b,c\",,suid".toList)).value =
        .error (.optionNotPermitted "suid".toList .notAllowed) := by
  have quoted : OptionString.read "x-a=\"b,c\",".toList =
      .ok [.assign "x-a".toList "\"b,c\"".toList] := rfl
  have group : OptionString.read "gid=0027".toList =
      .ok [.assign "gid".toList "0027".toList] := rfl
  have suid : OptionString.read "suid".toList = .ok [.flag "suid".toList] := rfl
  have plain : "x-a=\"b,c\",".toList.getLast? ≠ some '\\' := by decide
  constructor
  · obtain ⟨-, written, -⟩ :=
      mountString_joined samplePolicy sampleDevice 1000 none quoted group plain
    exact written _ rfl
  · obtain ⟨-, -, -, secondRefused, -⟩ :=
      mountString_joined samplePolicy sampleDevice 1000 none quoted suid plain
    exact secondRefused "uhelper=udisks2,nodev,nosuid,uid=1000,ro,x-a=\"b,c\"".toList _ rfl rfl

end Policy
end MountPolicy
