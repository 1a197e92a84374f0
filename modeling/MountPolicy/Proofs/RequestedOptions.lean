import MountPolicy.Proofs.ConfiguredLists
import MountPolicy.Proofs.FilledDefaults

/-! The options of a request. A default keeps its text, or a number takes the place
of its value; the caller's own options are as they were read. Main statement: each
of them is written as an item of an option string. -/
namespace MountPolicy

theorem Text.isDigit_of_mem_ofId {id : UInt32} : ∀ c ∈ ofId id, c.isDigit := by
  have numeral := isNumeral_ofNat id.toNat
  simp only [isNumeral, Bool.and_eq_true, List.all_eq_true] at numeral
  exact numeral.2

theorem MountOption.sign_not_mem_name_ofSpec (spec : Text) : '=' ∉ (ofSpec spec).name := by
  unfold ofSpec
  split
  · rename_i name value cut
    exact (Text.eq_of_splitFirst? cut).2
  · rename_i absent
    exact Text.splitFirst?_eq_none.mp absent

namespace Rules

def filledNames : List Text := ["uid".toList, "gid".toList, "mode".toList, "dmode".toList]

/-- How a default becomes an option of a request. A number that takes the place of the
value is the caller's id, or a mode. -/
inductive Expansion (rules : Rules) (caller : UInt32) (spec : Text) : MountOption → Prop
  | flag : (MountOption.ofSpec spec).value = none →
      Expansion rules caller spec (MountOption.ofSpec spec)
  | fixed {value : Text} : (MountOption.ofSpec spec).value = some value → value ≠ [] →
      rules.set.contains .allow spec → Expansion rules caller spec (MountOption.ofSpec spec)
  | ownUid : (MountOption.ofSpec spec).name = "uid".toList →
      Expansion rules caller spec (.assign "uid".toList (Text.ofId caller))
  | ownGid {user : UserInfo} : (MountOption.ofSpec spec).name = "gid".toList →
      (rules.users.userInfo caller).value = some user →
      Expansion rules caller spec (.assign "gid".toList (Text.ofId user.primaryGid))
  | mode {name number : Text} : (MountOption.ofSpec spec).name = name →
      name ∈ ["mode".toList, "dmode".toList] → (∀ c ∈ number, c.isDigit) →
      Expansion rules caller spec (.assign name number)
  | kept {value : Text} : (MountOption.ofSpec spec).value = some value →
      (MountOption.ofSpec spec).name ≠ "uid".toList →
      (MountOption.ofSpec spec).name ≠ "gid".toList →
      Expansion rules caller spec (MountOption.ofSpec spec)

theorem expansion_of_expandDefault {rules : Rules} {caller : UInt32} {sharedMount : Bool}
    {spec : Text} {o : MountOption}
    (made : (rules.expandDefault caller sharedMount spec).value = some o) :
    Expansion rules caller spec o := by
  cases filledIn_iff.mpr made with
  | flag absent =>
    have written := MountOption.ofSpec_of_not_mem absent
    exact written ▸ .flag (congrArg MountOption.value written)
  | fixed assigns fixed =>
    obtain ⟨full, listed⟩ := assigns.isFixed_iff.mp fixed
    exact MountOption.ofSpec_of_assigns assigns ▸ .fixed assigns.value_ofSpec full listed
  | ownUid assigns free => exact .ownUid assigns.name_ofSpec
  | ownGid assigns free known => exact .ownGid assigns.name_ofSpec known
  | mode assigns free joint relaxes =>
    exact .mode assigns.name_ofSpec (by decide) relaxes.isDigit
  | dmode assigns free joint =>
    exact .mode assigns.name_ofSpec (by decide) Mode.isDigit_sharedDirectory
  | kept assigns free uid gid modes =>
    exact MountOption.ofSpec_of_assigns assigns ▸ .kept assigns.value_ofSpec
      (assigns.name_ofSpec.symm ▸ uid) (assigns.name_ofSpec.symm ▸ gid)

theorem eq_of_value_expandDefault {rules : Rules} {caller : UInt32} {sharedMount : Bool}
    {spec : Text} {o : MountOption}
    (made : (rules.expandDefault caller sharedMount spec).value = some o) :
    o = MountOption.ofSpec spec ∨ ∃ name ∈ filledNames, ∃ number,
      o = MountOption.assign name number ∧ ∀ c ∈ number, c.isDigit := by
  cases expansion_of_expandDefault made with
  | flag | fixed | kept => exact .inl rfl
  | ownUid => exact .inr ⟨_, by simp [filledNames], _, rfl, Text.isDigit_of_mem_ofId⟩
  | ownGid => exact .inr ⟨_, by simp [filledNames], _, rfl, Text.isDigit_of_mem_ofId⟩
  | @mode name number _ named digits =>
    have filled : name ∈ filledNames := List.mem_cons_of_mem _ (List.mem_cons_of_mem _ named)
    exact .inr ⟨name, filled, number, rfl, digits⟩

end Rules

private theorem not_mem_of_isDigit {c : Char} {number : Text} (digits : ∀ d ∈ number, d.isDigit)
    (other : c.isDigit = false) : c ∉ number := by
  intro mem
  rw [digits c mem] at other
  exact Bool.noConfusion other

theorem isItem_filled {name number : Text} (filled : name ∈ Rules.filledNames)
    (digits : ∀ c ∈ number, c.isDigit) :
    OptionString.IsItem (MountOption.assign name number).text := by
  have plain : name ≠ [] ∧ '=' ∉ name ∧ ',' ∉ name ∧ '"' ∉ name := by
    revert name
    decide
  have comma := not_mem_of_isDigit digits (c := ',') (by decide)
  have quote := not_mem_of_isDigit digits (c := '"') (by decide)
  refine OptionString.isItem_assign plain.1 plain.2.1 ?_ ?_
  · simp [plain.2.2.1, comma]
  · simp [plain.2.2.2, quote]

theorem hidesComma_filled {name number : Text} (filled : name ∈ Rules.filledNames)
    (digits : ∀ c ∈ number, c.isDigit) : hidesComma (.assign name number) = false := by
  have plain : ',' ∉ name := by
    revert name
    decide
  have comma := not_mem_of_isDigit digits (c := ',') (by decide)
  have escaped : Text.occurs ['\\', ','] number = false := by
    rw [Bool.eq_false_iff]
    intro occurs
    obtain ⟨before, after, rfl⟩ := Text.occurs_iff.mp occurs
    exact comma (by simp)
  simp [hidesComma, MountOption.assign, plain, escaped]

theorem sign_not_mem_filled {name : Text} (filled : name ∈ Rules.filledNames) : '=' ∉ name := by
  revert name
  decide

/-- An option of a request: written as one item, and split at the equals sign where
the reader of option strings splits it or else at the first one. -/
structure Requestable (o : MountOption) : Prop where
  item : OptionString.IsItem o.text
  split : OptionString.optionOfPiece o.text = o ∨ '=' ∉ o.name

theorem Policy.requestable_of_requested {policy : Policy} {builtinText : Text}
    (built : (Store.ofPolicyText builtinText).value = .ok policy.builtin) {device : Device}
    {caller : UInt32} {typeName callerOptions : Option Text} {options : List MountOption}
    (made : policy.requested device caller typeName callerOptions = .ok options)
    {o : MountOption} (mem : o ∈ options) : Requestable o := by
  obtain ⟨properties, own, -, read, rfl⟩ := requested_eq_ok_iff.mp made
  rcases List.mem_append.mp mem with default | asked
  · rw [Rules.value_defaultOptions] at default
    obtain ⟨spec, inForce, made⟩ := List.mem_filterMap.mp default
    rcases Rules.eq_of_value_expandDefault made with rfl | ⟨name, filled, number, rfl, digits⟩
    · refine ⟨?_, .inr (MountOption.sign_not_mem_name_ofSpec spec)⟩
      rw [MountOption.text_ofSpec]
      exact isItem_of_mem_elements built inForce
    · exact ⟨isItem_filled filled digits, .inr (sign_not_mem_filled filled)⟩
  · cases callerOptions with
    | none =>
      obtain rfl := Except.ok.inj read
      simp at asked
    | some text =>
      obtain ⟨item, same⟩ := OptionString.isItem_of_read read asked
      exact ⟨item, .inl same⟩

end MountPolicy
