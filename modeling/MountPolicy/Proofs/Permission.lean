import MountPolicy.Proofs.Answers

/-! The rules by which a single option is allowed, told apart by the option's name:
one that has to be the caller's user id, one that has to be one of the caller's group
ids, and any other. A value that the lists fix is allowed in each case. Main statement:
an option is allowed exactly if it is permitted, and that depends on nothing but what
the lists contain and on the caller's own entries in the user directory. -/
namespace MountPolicy

def IsUid (caller : UInt32) (value : Text) : Prop :=
  Text.isNumeral value ∧ Text.decimalValue value = caller.toNat

/-- The id in decimal of a group that the user is known to be in: the primary one, or
one that the groups of the user's name were found to have. -/
def UserDirectory.IsGid (users : UserDirectory) (caller : UInt32) (value : Text) : Prop :=
  ∃ gid : UInt32, Text.isNumeral value ∧ Text.decimalValue value = gid.toNat ∧
    ∃ user, (users.userInfo caller).value = some user ∧
      (user.primaryGid = gid ∨
        ∃ groups, (users.groups user.name user.primaryGid).value = some groups ∧ gid ∈ groups)

theorem MountOption.content?_eq_some_iff {o : MountOption} {value : Text} :
    o.content? = some value ↔ o.value = some value ∧ value ≠ [] := by
  unfold content?
  rw [Option.filter_eq_some_iff]
  simp

theorem MountOption.text_of_value {o : MountOption} {value : Text}
    (present : o.value = some value) : o.text = o.name ++ '=' :: value := by
  unfold text
  rw [present]

theorem MountOption.eq_assign {o : MountOption} {name value : Text} (named : o.name = name)
    (present : o.value = some value) : o = .assign name value := by
  obtain ⟨first, second⟩ := o
  obtain rfl : first = name := named
  obtain rfl : second = some value := present
  rfl

theorem OptionSet.contains_iff {set : OptionSet} {field : Field} {x : Text} :
    set.contains field x ↔ x ∈ set.elements field := by
  simp [contains]

structure OptionSet.Widens (wider set : OptionSet) : Prop where
  allow : ∀ x ∈ set.elements .allow, x ∈ wider.elements .allow
  uidSelf : ∀ x, x ∈ wider.elements .allowUidSelf ↔ x ∈ set.elements .allowUidSelf
  gidSelf : ∀ x, x ∈ wider.elements .allowGidSelf ↔ x ∈ set.elements .allowGidSelf

namespace Rules

theorem pinned_iff {set : OptionSet} {o : MountOption} :
    pinned set o ↔ ∃ value, o.value = some value ∧ value ≠ [] ∧ set.contains .allow o.text := by
  unfold pinned
  rw [Option.any_eq_true]
  constructor
  · rintro ⟨value, content, listed⟩
    obtain ⟨present, full⟩ := MountOption.content?_eq_some_iff.mp content
    exact ⟨value, present, full, by rwa [MountOption.text_of_value present]⟩
  · rintro ⟨value, present, full, listed⟩
    refine ⟨value, MountOption.content?_eq_some_iff.mpr ⟨present, full⟩, ?_⟩
    rwa [← MountOption.text_of_value present]

theorem statedId?_eq_some_iff {o : MountOption} {id : UInt32} :
    statedId? o = some id ↔ ∃ value, o.value = some value ∧ value ≠ [] ∧
      Text.isNumeral value ∧ Text.decimalValue value = id.toNat := by
  unfold statedId?
  simp only [Option.bind_eq_some_iff, MountOption.content?_eq_some_iff, Text.toId?_eq_some,
    and_assoc]

variable {rules : Rules} {caller : UInt32} {o : MountOption}

theorem allows_uidSelf_iff (listed : rules.set.contains .allowUidSelf o.name) :
    (rules.allows caller o).value = true ↔ ∃ value, o.value = some value ∧ value ≠ [] ∧
      (rules.set.contains .allow o.text ∨ IsUid caller value) := by
  rw [value_allows, if_pos listed]
  constructor
  · intro allowed
    split at allowed
    · rename_i fixed
      obtain ⟨value, present, full, listed⟩ := pinned_iff.mp fixed
      exact ⟨value, present, full, .inl listed⟩
    · obtain ⟨value, present, full, own⟩ := statedId?_eq_some_iff.mp (beq_iff_eq.mp allowed)
      exact ⟨value, present, full, .inr own⟩
  · rintro ⟨value, present, full, listed | own⟩
    · rw [if_pos (pinned_iff.mpr ⟨value, present, full, listed⟩)]
    · rw [statedId?_eq_some_iff.mpr ⟨value, present, full, own⟩]
      simp

theorem allows_gidSelf_iff (unlisted : ¬ rules.set.contains .allowUidSelf o.name)
    (listed : rules.set.contains .allowGidSelf o.name) :
    (rules.allows caller o).value = true ↔ ∃ value, o.value = some value ∧ value ≠ [] ∧
      (rules.set.contains .allow o.text ∨ rules.users.IsGid caller value) := by
  rw [value_allows, if_neg unlisted, if_pos listed]
  constructor
  · intro allowed
    split at allowed
    · rename_i fixed
      obtain ⟨value, present, full, listed⟩ := pinned_iff.mp fixed
      exact ⟨value, present, full, .inl listed⟩
    · obtain ⟨gid, stated, member⟩ := (Option.any_eq_true _ _).mp allowed
      obtain ⟨value, present, full, digits, same⟩ := statedId?_eq_some_iff.mp stated
      exact ⟨value, present, full,
        .inr ⟨gid, digits, same, UserDirectory.value_isMember_iff.mp member⟩⟩
  · rintro ⟨value, present, full, listed | ⟨gid, digits, same, member⟩⟩
    · rw [if_pos (pinned_iff.mpr ⟨value, present, full, listed⟩)]
    · rw [statedId?_eq_some_iff.mpr ⟨value, present, full, digits, same⟩]
      simp [UserDirectory.value_isMember_iff.mpr member]

theorem allows_unchecked_iff (noUid : ¬ rules.set.contains .allowUidSelf o.name)
    (noGid : ¬ rules.set.contains .allowGidSelf o.name) :
    (rules.allows caller o).value = true ↔ pinned rules.set o ∨ free rules.set o := by
  rw [value_allows, if_neg noUid, if_neg noGid]
  cases pinned rules.set o <;> simp

end Rules

/-- ASCII digits, at least one, that stand for the number; zeros may lead. -/
structure Text.Denotes (t : Text) (n : Nat) : Prop where
  present : t ≠ []
  digits : ∀ c ∈ t, '0' ≤ c ∧ c ≤ '9'
  value : Nat.ofDigitChars 10 t 0 = n

theorem Text.denotes_iff {t : Text} {n : Nat} :
    t.Denotes n ↔ isNumeral t ∧ decimalValue t = n := by
  have digit (c : Char) : c.isDigit ↔ '0' ≤ c ∧ c ≤ '9' := by
    simp [Char.isDigit, Char.le_def]
  constructor
  · rintro ⟨present, digits, value⟩
    simpa [isNumeral, decimalValue, present, digit, value] using digits
  · rintro ⟨numeral, value⟩
    simp only [isNumeral, Bool.and_eq_true, Bool.not_eq_true', List.isEmpty_eq_false_iff,
      List.all_eq_true] at numeral
    exact ⟨numeral.1, fun c mem => (digit c).mp (numeral.2 c mem), value⟩

namespace Rules

/-- What permits an option to a caller: a value that is fixed for everybody, an id of
the caller's own where the lists ask for one, and a free name where they do not. -/
inductive Permitted (rules : Rules) (caller : UInt32) (o : MountOption) : Prop where
  | fixed {value : Text} : o.value = some value → value ≠ [] →
      o.name ++ '=' :: value ∈ rules.set.elements .allow → Permitted rules caller o
  | ownUid {value : Text} : o.name ∈ rules.set.elements .allowUidSelf →
      o.value = some value → value.Denotes caller.toNat → Permitted rules caller o
  | ownGid {value : Text} {gid : Nat} {user : UserInfo} :
      o.name ∉ rules.set.elements .allowUidSelf → o.name ∈ rules.set.elements .allowGidSelf →
      o.value = some value → value.Denotes gid → gid < UInt32.size →
      (rules.users.userInfo caller).value = some user →
      (user.primaryGid.toNat = gid ∨
        ∃ groups, (rules.users.groups user.name user.primaryGid).value = some groups ∧
          ∃ group ∈ groups, group.toNat = gid) →
      Permitted rules caller o
  | free : o.name ∉ rules.set.elements .allowUidSelf →
      o.name ∉ rules.set.elements .allowGidSelf →
      (o.name ++ ['='] ∈ rules.set.elements .allow ∨ o.name ∈ rules.set.elements .allow ∨
        "x-".toList <+: o.name) →
      Permitted rules caller o

variable {rules : Rules} {caller : UInt32} {o : MountOption}

private theorem mem_allow_of_text {value : Text} (present : o.value = some value)
    (listed : rules.set.contains .allow o.text) :
    o.name ++ '=' :: value ∈ rules.set.elements .allow := by
  rwa [MountOption.text_of_value present, OptionSet.contains_iff] at listed

theorem free_iff {set : OptionSet} :
    free set o ↔ o.name ++ ['='] ∈ set.elements .allow ∨ o.name ∈ set.elements .allow ∨
      "x-".toList <+: o.name := by
  simp [free, OptionSet.contains_iff, userspaceMarker, or_assoc]

theorem Permitted.of_isGid {value : Text} (noUid : o.name ∉ rules.set.elements .allowUidSelf)
    (listed : o.name ∈ rules.set.elements .allowGidSelf) (present : o.value = some value)
    (own : rules.users.IsGid caller value) : Permitted rules caller o := by
  obtain ⟨gid, numeral, same, user, found, member⟩ := own
  refine .ownGid noUid listed present (Text.denotes_iff.mpr ⟨numeral, same⟩)
    (UInt32.toNat_lt_size gid) found ?_
  rcases member with primary | ⟨groups, known, mem⟩
  · exact .inl (congrArg UInt32.toNat primary)
  · exact .inr ⟨groups, known, gid, mem, rfl⟩

theorem permitted_of_allows (allowed : (rules.allows caller o).value = true) :
    Permitted rules caller o := by
  by_cases uid : rules.set.contains .allowUidSelf o.name
  · obtain ⟨value, present, full, fixed | own⟩ := (allows_uidSelf_iff uid).mp allowed
    · exact .fixed present full (mem_allow_of_text present fixed)
    · exact .ownUid (OptionSet.contains_iff.mp uid) present (Text.denotes_iff.mpr own)
  · have noUid := mt OptionSet.contains_iff.mpr uid
    by_cases gid : rules.set.contains .allowGidSelf o.name
    · obtain ⟨value, present, full, fixed | own⟩ := (allows_gidSelf_iff uid gid).mp allowed
      · exact .fixed present full (mem_allow_of_text present fixed)
      · exact .of_isGid noUid (OptionSet.contains_iff.mp gid) present own
    · rcases (allows_unchecked_iff uid gid).mp allowed with fixed | free
      · obtain ⟨value, present, full, listed⟩ := pinned_iff.mp fixed
        exact .fixed present full (mem_allow_of_text present listed)
      · exact .free noUid (mt OptionSet.contains_iff.mpr gid) (free_iff.mp free)

theorem Permitted.allows (permitted : Permitted rules caller o) :
    (rules.allows caller o).value = true := by
  cases permitted with
  | fixed present full listed =>
    have pinned : pinned rules.set o := pinned_iff.mpr
      ⟨_, present, full, by rwa [MountOption.text_of_value present, OptionSet.contains_iff]⟩
    rw [value_allows, if_pos pinned]
  | ownUid uid present own =>
    exact (allows_uidSelf_iff (OptionSet.contains_iff.mpr uid)).mpr
      ⟨_, present, own.present, .inr (Text.denotes_iff.mp own)⟩
  | @ownGid value gid user noUid listed present own bound found member =>
    obtain ⟨numeral, same⟩ := Text.denotes_iff.mp own
    have isGid : rules.users.IsGid caller value := by
      rcases member with primary | ⟨groups, known, group, mem, equal⟩
      · exact ⟨user.primaryGid, numeral, same.trans primary.symm, user, found, .inl rfl⟩
      · exact ⟨group, numeral, same.trans equal.symm, user, found, .inr ⟨groups, known, mem⟩⟩
    exact (allows_gidSelf_iff (mt OptionSet.contains_iff.mp noUid)
      (OptionSet.contains_iff.mpr listed)).mpr ⟨value, present, own.present, .inr isGid⟩
  | free noUid noGid marked =>
    exact (allows_unchecked_iff (mt OptionSet.contains_iff.mp noUid)
      (mt OptionSet.contains_iff.mp noGid)).mpr (.inr (free_iff.mpr marked))

theorem allows_iff : (rules.allows caller o).value = true ↔ Permitted rules caller o :=
  ⟨permitted_of_allows, Permitted.allows⟩

theorem Permitted.mono {wider : OptionSet} (more : wider.Widens rules.set)
    (permitted : Permitted rules caller o) : Permitted ⟨wider, rules.users⟩ caller o := by
  cases permitted with
  | fixed present full listed => exact .fixed present full (more.allow _ listed)
  | ownUid uid present own => exact .ownUid ((more.uidSelf _).mpr uid) present own
  | ownGid noUid gid present own bound found member =>
    exact .ownGid (mt (more.uidSelf _).mp noUid) ((more.gidSelf _).mpr gid) present own bound found
      member
  | free noUid noGid marked =>
    refine .free (mt (more.uidSelf _).mp noUid) (mt (more.gidSelf _).mp noGid) ?_
    exact marked.imp (more.allow _) (Or.imp_left (more.allow _))

theorem Permitted.of_same_members {set : OptionSet}
    (same : ∀ field, field ≠ .defaults →
      ∀ x, x ∈ set.elements field ↔ x ∈ rules.set.elements field)
    (permitted : Permitted rules caller o) : Permitted ⟨set, rules.users⟩ caller o := by
  have more : set.Widens rules.set :=
    { allow := fun x => (same .allow (by decide) x).mpr
      uidSelf := same .allowUidSelf (by decide)
      gidSelf := same .allowGidSelf (by decide) }
  exact permitted.mono more

theorem Permitted.mem_allow_of_big {value : Text} {n : Nat} (present : o.value = some value)
    (number : value.Denotes n) (big : UInt32.size ≤ n)
    (listed : o.name ∈ rules.set.elements .allowUidSelf ∨
      o.name ∈ rules.set.elements .allowGidSelf)
    (permitted : Permitted rules caller o) :
    o.name ++ '=' :: value ∈ rules.set.elements .allow := by
  cases permitted with
  | fixed there full fixed =>
    obtain rfl := Option.some.inj (present.symm.trans there)
    exact fixed
  | ownUid uid there own =>
    obtain rfl := Option.some.inj (present.symm.trans there)
    have id : caller.toNat = n := own.value.symm.trans number.value
    have bound := UInt32.toNat_lt_size caller
    omega
  | ownGid noUid gid there own bound found member =>
    obtain rfl := Option.some.inj (present.symm.trans there)
    have id := own.value.symm.trans number.value
    omega
  | free noUid noGid marked => exact absurd listed (not_or.mpr ⟨noUid, noGid⟩)

/-- An option is allowed exactly if it is permitted. So the answer depends only on what
the three lists contain, and where a name needs an own id, a number of more than 32 bits
counts only as a fixed value. -/
theorem allows_iff_permitted (rules : Rules) (caller : UInt32) (o : MountOption) :
    ((rules.allows caller o).value = true ↔ Permitted rules caller o) ∧
    (∀ set : OptionSet,
      (∀ field, field ≠ .defaults →
        ∀ x, x ∈ set.elements field ↔ x ∈ rules.set.elements field) →
      (Rules.allows ⟨set, rules.users⟩ caller o).value = (rules.allows caller o).value) ∧
    (∀ value n, o.value = some value → value.Denotes n → UInt32.size ≤ n →
      (o.name ∈ rules.set.elements .allowUidSelf ∨ o.name ∈ rules.set.elements .allowGidSelf) →
      ((rules.allows caller o).value = true ↔
        o.name ++ '=' :: value ∈ rules.set.elements .allow)) := by
  refine ⟨allows_iff, ?_, ?_⟩
  · intro set same
    rw [Bool.eq_iff_iff, allows_iff, allows_iff]
    constructor
    · exact Permitted.of_same_members fun field other x => (same field other x).symm
    · exact Permitted.of_same_members same
  · intro value n present number big listed
    rw [allows_iff]
    constructor
    · exact Permitted.mem_allow_of_big present number big listed
    · exact .fixed present number.present

example : (Rules.allows ⟨{ allowUidSelf := some ["uid".toList] }, .superuserOnly⟩ 1000
    (.assign "uid".toList "4294968296".toList)).value = false := by
  decide

/-- An option that stays in user space is allowed to everybody, whatever its value, unless a
list asks for an own id under its name. Then it is judged like every other such option. -/
theorem allows_userspace_iff (rules : Rules) (caller : UInt32) (o : MountOption)
    (marked : "x-".toList <+: o.name) :
    (rules.allows caller o).value = true ↔
      (o.name ∉ rules.set.elements .allowUidSelf ∧ o.name ∉ rules.set.elements .allowGidSelf) ∨
      ∃ value, o.value = some value ∧ value ≠ [] ∧
        (o.name ++ '=' :: value ∈ rules.set.elements .allow ∨
          (o.name ∈ rules.set.elements .allowUidSelf ∧ IsUid caller value) ∨
          (o.name ∉ rules.set.elements .allowUidSelf ∧
            o.name ∈ rules.set.elements .allowGidSelf ∧ rules.users.IsGid caller value)) := by
  rw [allows_iff]
  constructor
  · intro permitted
    by_cases uid : o.name ∈ rules.set.elements .allowUidSelf
    · obtain ⟨value, present, full, reason⟩ :=
        (allows_uidSelf_iff (OptionSet.contains_iff.mpr uid)).mp permitted.allows
      have fixed : rules.set.contains .allow o.text → _ := mem_allow_of_text present
      exact .inr ⟨value, present, full, reason.imp fixed fun own => .inl ⟨uid, own⟩⟩
    · by_cases gid : o.name ∈ rules.set.elements .allowGidSelf
      · obtain ⟨value, present, full, reason⟩ := (allows_gidSelf_iff
          (mt OptionSet.contains_iff.mp uid) (OptionSet.contains_iff.mpr gid)).mp permitted.allows
        have fixed : rules.set.contains .allow o.text → _ := mem_allow_of_text present
        exact .inr ⟨value, present, full, reason.imp fixed fun own => .inr ⟨uid, gid, own⟩⟩
      · exact .inl ⟨uid, gid⟩
  · rintro (⟨noUid, noGid⟩ | ⟨value, present, full, fixed | ⟨uid, own⟩ | ⟨noUid, gid, own⟩⟩)
    · exact .free noUid noGid (.inr (.inr marked))
    · exact .fixed present full fixed
    · exact .ownUid uid present (Text.denotes_iff.mpr own)
    · exact .of_isGid noUid gid present own

def ownerRules : Rules :=
  ⟨{ allowUidSelf := some ["uid".toList, "x-owner".toList] }, .superuserOnly⟩

theorem allows_userspace_iff_owner :
    (ownerRules.allows 4242 (.assign "x-gvfs-name".toList "Camera".toList)).value = true ∧
      (ownerRules.allows 4242 (.assign "x-owner".toList "04242".toList)).value = true := by
  have camera : "x-".toList <+: "x-gvfs-name".toList := by decide
  have owner : "x-".toList <+: "x-owner".toList := by decide
  have listed : "x-owner".toList ∈ ownerRules.set.elements .allowUidSelf := by decide
  have own : IsUid 4242 "04242".toList := ⟨by decide, by decide⟩
  refine ⟨(allows_userspace_iff ownerRules 4242 _ camera).mpr (.inl (by decide)), ?_⟩
  apply (allows_userspace_iff ownerRules 4242 _ owner).mpr
  exact .inr ⟨"04242".toList, rfl, by decide, .inr (.inl ⟨listed, own⟩)⟩

/-- A flag of user space that a list asks an id for is refused, since it has none. -/
theorem refused_userspace :
    "x-".toList <+: (MountOption.flag "x-owner".toList).name ∧
      (ownerRules.allows 1000 (.flag "x-owner".toList)).value = false := by
  decide

end Rules
end MountPolicy
