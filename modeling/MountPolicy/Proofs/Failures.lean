import MountPolicy.Proofs.ConfigFile
import MountPolicy.Proofs.SectionBlocks
import MountPolicy.Proofs.Segments

/-! How a request can fail. The device is looked at first, then the caller's string, and
only then the options are judged. Main statement: each of the three has its error, under
one condition, and a configuration file that cannot be used has the effect of a missing one. -/
namespace MountPolicy

theorem OptionString.whole_of_read {text : Text} {fault : Malformed}
    (refused : read text = .error fault) : fault.whole = text := by
  rw [read_eq_outcome, outcome] at refused
  split at refused
  · exact congrArg Malformed.whole (Except.error.inj refused).symm
  · simp at refused

namespace Rules

theorem callersOwn_eq_error_iff {callerOptions : Option Text} {fault : OptionString.Malformed} :
    callersOwn callerOptions = .error fault ↔
      ∃ text, callerOptions = some text ∧ OptionString.read text = .error fault := by
  cases callerOptions <;> simp [callersOwn]

theorem optionNotPermitted_of_mountString {rules : Rules} {caller : UInt32}
    {options : List MountOption} {error : MountError}
    (refused : (rules.mountString caller options).value = .error error) :
    ∃ option reason, error = .optionNotPermitted option reason := by
  rw [value_mountString] at refused
  split at refused
  · rename_i option reason _
    exact ⟨option.text, reason, (Except.error.inj refused).symm⟩
  · simp at refused

end Rules

/-- A configuration file without a section that can be read: there is no file, it has no
text, or its text is broken or has nothing but keys in front of the first section. -/
inductive ConfigFile.Unusable : ConfigFile → Prop where
  | missing : Unusable .missing
  | directory : Unusable .directory
  | unreadable (detail : Text) : Unusable (.unreadable detail)
  | notUtf8 {bytes : ByteArray} (invalid : String.fromUTF8? bytes = none) :
      Unusable (.content bytes)
  | broken {bytes : ByteArray} {text : String} {fault : KeyFile.Fault}
      (decoded : String.fromUTF8? bytes = some text)
      (refused : KeyFile.read text.toList = .error fault) : Unusable (.content bytes)
  | noSection {bytes : ByteArray} {text : String} (decoded : String.fromUTF8? bytes = some text)
      (orphan : ∀ line ∈ KeyFile.shownLines text.toList, ∀ name,
        KeyFile.headerName? line = some name → name = KeyFile.orphanName) :
      Unusable (.content bytes)

theorem KeyFile.eq_nil_of_orphan {text : Text} {found : List Section} (done : read text = .ok found)
    (orphan : ∀ line ∈ shownLines text, ∀ name, headerName? line = some name → name = orphanName) :
    found.filter (fun s => s.name != orphanName) = [] := by
  let wanted (name : Text) : Bool := name != orphanName
  have unowned : wanted orphanName = false := rfl
  have foreign : ∀ line ∈ shownLines text, ∀ name, headerName? line = some name →
      wanted name = false := by
    intro line mem name header
    simp [wanted, orphan line mem name header]
  have own : found.filter (fun s => wanted s.name) = _ := filter_sections done unowned
  rw [linesOf_eq_nil foreign] at own
  exact own

theorem ConfigFile.Unusable.blocksFor_eq_nil {file : ConfigFile} (unusable : file.Unusable)
    (device : Device) : file.blocksFor device = [] := by
  cases unusable with
  | missing => rfl
  | directory => rfl
  | unreadable detail => rfl
  | notUtf8 invalid => simp [blocksFor, text?, invalid]
  | broken decoded refused =>
    simp [blocksFor, text?, decoded, Store.value_ofText, refused, Except.toOption]
  | noSection decoded orphan =>
    rename_i bytes text
    have found : (content bytes).text? = .ok (some text.toList) := by simp [text?, decoded]
    -- Even with no section a line can be broken.
    cases read : KeyFile.read text.toList with
    | error fault =>
      simp [blocksFor, found, Store.value_ofText, read, Except.toOption]
    | ok sections =>
      rw [blocksFor_of_read found read, ← Store.ofSections_filter_orphan,
        KeyFile.eq_nil_of_orphan read orphan]
      rfl

namespace Policy

section Request

variable (policy : Policy) {device : Device} (caller : UInt32) (typeName : Option Text)
  {callerOptions : Option Text}

theorem mountString_of_gone (gone : device.properties = none) (callerOptions : Option Text) :
    policy.mountString device caller typeName callerOptions =
      pure (.error (.deviceUnavailable device.path)) := by
  unfold mountString Device.readProperties
  rw [gone]

theorem value_mountString_of_malformed {properties : Properties} {fault : OptionString.Malformed}
    (there : device.properties = some properties)
    (refused : Rules.callersOwn callerOptions = .error fault) :
    (policy.mountString device caller typeName callerOptions).value =
      .error (.malformedOptions fault) := by
  rw [value_mountString, requested, Device.readProperties, there]
  dsimp only
  rw [Rules.value_requestedOptions, refused]
  rfl

theorem value_mountString_of_read {properties : Properties} {own : List MountOption}
    (there : device.properties = some properties)
    (read : Rules.callersOwn callerOptions = .ok own) :
    ∃ options, ((policy.rules device typeName).requestedOptions caller
        (properties.isTrue Device.sharedProperty) callerOptions).value = .ok options ∧
      (policy.mountString device caller typeName callerOptions).value =
        ((policy.rules device typeName).mountString caller options).value := by
  have asked : ((policy.rules device typeName).requestedOptions caller
      (properties.isTrue Device.sharedProperty) callerOptions).value =
        .ok (((policy.rules device typeName).defaultOptions caller
          (properties.isTrue Device.sharedProperty)).value ++ own) := by
    rw [Rules.value_requestedOptions, read]
    rfl
  refine ⟨_, asked, ?_⟩
  rw [value_mountString, requested, Device.readProperties, there]
  dsimp only
  rw [asked]
  rfl

theorem value_effective_of_gone (gone : device.properties = none) :
    (policy.effective device typeName).value =
      (effectiveSet (.builtin policy.builtin :: policy.config.overrides.value.toList.map .global)
        (some device) typeName).value := by
  rw [value_effective, gone, value_effectiveSet, Option.map_none, value_layered, layers]
  simp

theorem value_mountString_cases (callerOptions : Option Text) :
    let answer := (policy.mountString device caller typeName callerOptions).value
    (device.properties = none ∧ answer = .error (.deviceUnavailable device.path)) ∨
      (∃ fault, device.properties ≠ none ∧ Rules.callersOwn callerOptions = .error fault ∧
        answer = .error (.malformedOptions fault)) ∨
      ∃ own options, device.properties ≠ none ∧ Rules.callersOwn callerOptions = .ok own ∧
        answer = ((policy.rules device typeName).mountString caller options).value := by
  intro answer
  cases there : device.properties with
  | none =>
    have gone := policy.mountString_of_gone caller typeName there callerOptions
    exact .inl ⟨rfl, congrArg Logged.value gone⟩
  | some properties =>
    cases read : Rules.callersOwn callerOptions with
    | error fault =>
      have refused := policy.value_mountString_of_malformed caller typeName there read
      exact .inr (.inl ⟨fault, nofun, rfl, refused⟩)
    | ok own =>
      obtain ⟨options, -, judged⟩ := policy.value_mountString_of_read caller typeName there read
      exact .inr (.inr ⟨own, options, nofun, rfl, judged⟩)

theorem value_mountString_eq_unavailable_iff {path : Text} :
    (policy.mountString device caller typeName callerOptions).value =
        .error (.deviceUnavailable path) ↔
      device.properties = none ∧ path = device.path := by
  constructor
  · intro failed
    obtain ⟨gone, same⟩ | ⟨fault, -, -, same⟩ | ⟨own, options, -, -, same⟩ :=
      policy.value_mountString_cases caller typeName callerOptions
    · obtain rfl := MountError.deviceUnavailable.inj (Except.error.inj (failed.symm.trans same))
      exact ⟨gone, rfl⟩
    · cases failed.symm.trans same
    · obtain ⟨option, reason, other⟩ :=
        Rules.optionNotPermitted_of_mountString (same.symm.trans failed)
      cases other
  · rintro ⟨gone, rfl⟩
    rw [policy.mountString_of_gone caller typeName gone]
    rfl

theorem value_mountString_eq_malformed_iff {fault : OptionString.Malformed} :
    (policy.mountString device caller typeName callerOptions).value =
        .error (.malformedOptions fault) ↔
      device.properties ≠ none ∧ Rules.callersOwn callerOptions = .error fault := by
  constructor
  · intro failed
    obtain ⟨-, same⟩ | ⟨other, there, refused, same⟩ | ⟨own, options, -, -, same⟩ :=
      policy.value_mountString_cases caller typeName callerOptions
    · cases failed.symm.trans same
    · obtain rfl := MountError.malformedOptions.inj (Except.error.inj (failed.symm.trans same))
      exact ⟨there, refused⟩
    · obtain ⟨option, reason, other⟩ :=
        Rules.optionNotPermitted_of_mountString (same.symm.trans failed)
      cases other
  · rintro ⟨there, refused⟩
    obtain ⟨properties, found⟩ := Option.ne_none_iff_exists'.mp there
    exact policy.value_mountString_of_malformed caller typeName found refused

theorem error_of_mountString {error : MountError}
    (failed : (policy.mountString device caller typeName callerOptions).value = .error error) :
    error = .deviceUnavailable device.path ∨ (∃ fault, error = .malformedOptions fault) ∨
      ∃ option reason, error = .optionNotPermitted option reason := by
  obtain ⟨-, same⟩ | ⟨fault, -, -, same⟩ | ⟨own, options, -, -, same⟩ :=
    policy.value_mountString_cases caller typeName callerOptions
  · exact .inl (Except.error.inj (failed.symm.trans same))
  · exact .inr (.inl ⟨fault, Except.error.inj (failed.symm.trans same)⟩)
  · exact .inr (.inr (Rules.optionNotPermitted_of_mountString (same.symm.trans failed)))

theorem answers_of_unusable {file : ConfigFile} (unusable : file.Unusable)
    (callerOptions : Option Text) :
    ((policy.withFile file).effective device typeName).value =
        ((policy.withFile .missing).effective device typeName).value ∧
      ((policy.withFile file).mountString device caller typeName callerOptions).value =
        ((policy.withFile .missing).mountString device caller typeName callerOptions).value := by
  have nothing : ConfigFile.missing.blocksFor device = [] := rfl
  have same : file.blocksFor device = ConfigFile.missing.blocksFor device :=
    (unusable.blocksFor_eq_nil device).trans nothing.symm
  obtain ⟨sets, strings⟩ := policy.answers_withFile_congr same typeName
  exact ⟨sets, strings caller callerOptions⟩

end Request

/-- A request fails if the device is gone, else if the caller's string is malformed, and
else if an option is refused. The configuration file is no cause of its own: one that
cannot be used is as good as none. -/
theorem mountString_failures (policy : Policy) (device : Device) (caller : UInt32)
    (typeName callerOptions : Option Text) :
    let answer := policy.mountString device caller typeName callerOptions
    let rules : Rules := ⟨(policy.effective device typeName).value, policy.users⟩
    (∀ path, answer.value = .error (.deviceUnavailable path) ↔
        device.properties = none ∧ path = device.path) ∧
      (∀ fault, answer.value = .error (.malformedOptions fault) ↔
        device.properties ≠ none ∧ ∃ text, callerOptions = some text ∧
          OptionString.read text = .error fault ∧ fault.whole = text) ∧
      (∀ properties own, device.properties = some properties →
        Rules.callersOwn callerOptions = .ok own →
        ∃ options, (rules.requestedOptions caller (properties.isTrue Device.sharedProperty)
            callerOptions).value = .ok options ∧
          answer.value = (rules.mountString caller options).value) ∧
      (∀ error, answer.value = .error error →
        error = .deviceUnavailable device.path ∨ (∃ fault, error = .malformedOptions fault) ∨
          ∃ option reason, error = .optionNotPermitted option reason) ∧
      (∀ file : ConfigFile, file.Unusable →
        ((policy.withFile file).effective device typeName).value =
            ((policy.withFile .missing).effective device typeName).value ∧
          ((policy.withFile file).mountString device caller typeName callerOptions).value =
            ((policy.withFile .missing).mountString device caller typeName
              callerOptions).value) ∧
      (device.properties = none →
        answer = pure (.error (.deviceUnavailable device.path)) ∧
          (policy.effective device typeName).value =
            (effectiveSet (.builtin policy.builtin ::
              policy.config.overrides.value.toList.map .global) (some device)
                typeName).value) := by
  intro answer rules
  refine ⟨?unavailable, ?malformed, ?judged, ?errors, ?files, ?gone⟩
  case unavailable =>
    intro path
    exact policy.value_mountString_eq_unavailable_iff caller typeName
  case malformed =>
    intro fault
    rw [policy.value_mountString_eq_malformed_iff, Rules.callersOwn_eq_error_iff]
    refine and_congr_right fun _ => exists_congr fun text => and_congr_right fun _ => ?_
    exact ⟨fun refused => ⟨refused, OptionString.whole_of_read refused⟩, And.left⟩
  case judged =>
    intro properties own there read
    exact policy.value_mountString_of_read caller typeName there read
  case errors =>
    intro error failed
    exact policy.error_of_mountString caller typeName failed
  case files =>
    intro file unusable
    exact policy.answers_of_unusable caller typeName unusable callerOptions
  case gone =>
    intro gone
    exact ⟨policy.mountString_of_gone caller typeName gone callerOptions,
      policy.value_effective_of_gone typeName gone⟩

end Policy

/-- A policy with a default that is refused, and a file whose second line is broken. -/
def brokenPolicy : Policy where
  builtin := ⟨[⟨.any, .ofList [(.any, { defaults := some ["suid".toList] })]⟩]⟩
  config := ⟨"/etc".toList, .ofString "[defaults]\n[broken\nallow=suid\n"⟩
  users := .superuserOnly

theorem Policy.mountString_failures_broken :
    (brokenPolicy.mountString ⟨"/dev/sdb1".toList, [], none⟩ 0 none (some "=".toList)).value =
        .error (.deviceUnavailable "/dev/sdb1".toList) ∧
      (brokenPolicy.mountString ⟨"/dev/sdb1".toList, [], some .empty⟩ 0 none
          (some "ro,=".toList)).value =
        .error (.malformedOptions ⟨"ro,=".toList, 3⟩) ∧
      (brokenPolicy.mountString ⟨"/dev/sdb1".toList, [], some .empty⟩ 0 none none).value =
        .error (.optionNotPermitted "suid".toList .notAllowed) ∧
      (brokenPolicy.effective ⟨"/dev/sdb1".toList, [], some .empty⟩ none).value =
        ((brokenPolicy.withFile .missing).effective
          ⟨"/dev/sdb1".toList, [], some .empty⟩ none).value := by
  let gone : Device := ⟨"/dev/sdb1".toList, [], none⟩
  let device : Device := ⟨"/dev/sdb1".toList, [], some .empty⟩
  have broken : brokenPolicy.config.file.Unusable :=
    .broken (ConfigFile.fromUTF8?_toUTF8 _) (by rfl)
  obtain ⟨unavailable, -⟩ := mountString_failures brokenPolicy gone 0 none (some "=".toList)
  obtain ⟨-, malformed, -, -, files, -⟩ :=
    mountString_failures brokenPolicy device 0 none (some "ro,=".toList)
  obtain ⟨-, -, judged, -⟩ := mountString_failures brokenPolicy device 0 none none
  obtain ⟨options, asked, answer⟩ := judged .empty [] rfl rfl
  have default : options = [.flag "suid".toList] := by
    have given : ((brokenPolicy.rules device none).requestedOptions 0
        (Properties.isTrue .empty Device.sharedProperty) none).value =
          .ok [.flag "suid".toList] := by decide +kernel
    exact Except.ok.inj (asked.symm.trans given)
  have refused : ((brokenPolicy.rules device none).mountString 0 [.flag "suid".toList]).value =
      .error (.optionNotPermitted "suid".toList .notAllowed) := by decide +kernel
  refine ⟨(unavailable _).mpr ⟨rfl, rfl⟩, (malformed _).mpr ?_, ?_, (files _ broken).1⟩
  · exact ⟨nofun, "ro,=".toList, rfl, by rfl, rfl⟩
  · rw [answer, default]
    exact refused

end MountPolicy
