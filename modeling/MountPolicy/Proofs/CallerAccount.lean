import MountPolicy.Proofs.FilledDefaults

/-! What a request reads in the user directory: the caller's entry, and the groups of the
name and the primary group in it. Where a system keeps the directory in tables, these are one
line of the accounts and the groups that list its name. Each step of a request is answered
alike under directories that agree on these. Main statement: so is the request, whatever the
directories say about other users and groups. -/
namespace MountPolicy

namespace AccountTables

variable {tables : AccountTables} {name : Text} {uid gid primary : UInt32}

theorem mem_groupsOf_iff : gid ∈ tables.groupsOf name primary ↔
    gid = primary ∨ ∃ group ∈ tables.groups, group.gid = gid ∧ name ∈ group.members := by
  simp only [groupsOf, List.mem_cons, List.mem_map, List.mem_filter, Bool.and_eq_true, bne_iff_ne,
    List.contains_iff_mem]
  constructor
  · rintro (same | ⟨group, ⟨listed, -, named⟩, found⟩)
    · exact .inl same
    · exact .inr ⟨group, listed, found, named⟩
  · rintro (same | ⟨group, listed, found, named⟩)
    · exact .inl same
    · by_cases own : gid = primary
      · exact .inl own
      · exact .inr ⟨group, ⟨listed, found ▸ own, named⟩, found⟩

theorem value_userInfo_directory : (tables.directory.userInfo uid).value =
    (tables.accounts.find? fun account => account.uid == uid).bind fun account =>
      account.name.map fun name => ⟨account.gid, name⟩ := by
  change (tables.userInfo uid).value = _
  unfold userInfo
  rcases tables.accounts.find? _ with _ | ⟨_ | name, own, gid⟩
  · rfl
  · rfl
  · rfl

theorem value_groups_directory_eq_some_iff {groups : List UInt32} :
    (tables.directory.groups name primary).value = some groups ↔
      '\x00' ∉ name ∧ groups.length ≤ groupBound ∧ groups = tables.groupsOf name primary := by
  change (tables.groupsFor name primary).value = _ ↔ _
  unfold groupsFor
  split
  · rename_i nul
    simp [nul]
  · rename_i plain
    split
    · rename_i many
      simp only [Logged.value_bind, Logged.value_pure, reduceCtorEq, false_iff, not_and]
      rintro - few rfl
      omega
    · rename_i few
      simp only [Logged.value_pure, Option.some.injEq]
      constructor
      · rintro rfl
        exact ⟨plain, Nat.not_lt.mp few, rfl⟩
      · rintro ⟨-, -, rfl⟩
        rfl

/-- The tables put a user in the primary group, and in the groups that list the user's name
unless there are too many of them. -/
theorem value_isMember_directory_iff : (tables.directory.isMember uid gid).value = true ↔
    ∃ account name,
      tables.accounts.find? (fun account => account.uid == uid) = some account ∧
      account.name = some name ∧
      (account.gid = gid ∨
        '\x00' ∉ name ∧ (tables.groupsOf name account.gid).length ≤ groupBound ∧
          ∃ group ∈ tables.groups, group.gid = gid ∧ name ∈ group.members) := by
  rw [UserDirectory.value_isMember_iff, value_userInfo_directory]
  constructor
  · rintro ⟨user, found, member⟩
    obtain ⟨account, first, entry⟩ := Option.bind_eq_some_iff.mp found
    obtain ⟨name, named, rfl⟩ := Option.map_eq_some_iff.mp entry
    refine ⟨account, name, first, named, ?_⟩
    rcases member with own | ⟨groups, listed, mem⟩
    · exact .inl own
    · obtain ⟨plain, few, rfl⟩ := value_groups_directory_eq_some_iff.mp listed
      rcases mem_groupsOf_iff.mp mem with own | other
      · exact .inl own.symm
      · exact .inr ⟨plain, few, other⟩
  · rintro ⟨account, name, first, named, member⟩
    refine ⟨⟨account.gid, name⟩, by rw [first, Option.bind_some, named]; rfl, ?_⟩
    rcases member with own | ⟨plain, few, other⟩
    · exact .inl own
    · exact .inr ⟨_, value_groups_directory_eq_some_iff.mpr ⟨plain, few, rfl⟩,
        mem_groupsOf_iff.mpr (.inr other)⟩

end AccountTables

/-- The directories have the same entry for the user, and the same groups for the name and
the primary group in that entry. -/
structure UserDirectory.SameAccount (first second : UserDirectory) (uid : UInt32) : Prop where
  entry : (first.userInfo uid).value = (second.userInfo uid).value
  groups : ∀ user, (first.userInfo uid).value = some user →
    (first.groups user.name user.primaryGid).value =
      (second.groups user.name user.primaryGid).value

variable {first second : UserDirectory} {caller : UInt32} {set : OptionSet}

theorem UserDirectory.SameAccount.value_isMember (same : first.SameAccount second caller)
    (gid : UInt32) : (first.isMember caller gid).value = (second.isMember caller gid).value := by
  rw [Bool.eq_iff_iff, value_isMember_iff, value_isMember_iff, ← same.entry]
  refine exists_congr fun user => and_congr_right fun found => ?_
  rw [same.groups user found]

namespace Rules

theorem value_allows_congr (same : first.SameAccount second caller) (o : MountOption) :
    (allows ⟨set, first⟩ caller o).value = (allows ⟨set, second⟩ caller o).value := by
  simp only [value_allows, same.value_isMember]

theorem value_mountString_congr (same : first.SameAccount second caller)
    (options : List MountOption) :
    (mountString ⟨set, first⟩ caller options).value =
      (mountString ⟨set, second⟩ caller options).value := by
  simp only [value_mountString, value_firstRefused?, value_refusal?, value_allows_congr same]

theorem value_defaultOptions_congr (same : first.SameAccount second caller)
    (sharedMount : Bool) :
    (defaultOptions ⟨set, first⟩ caller sharedMount).value =
      (defaultOptions ⟨set, second⟩ caller sharedMount).value := by
  simp only [value_defaultOptions, value_expandDefault, same.entry]

theorem value_requestedOptions_congr (same : first.SameAccount second caller)
    (sharedMount : Bool) (callerOptions : Option Text) :
    (requestedOptions ⟨set, first⟩ caller sharedMount callerOptions).value =
      (requestedOptions ⟨set, second⟩ caller sharedMount callerOptions).value := by
  simp only [value_requestedOptions, value_defaultOptions_congr same]

end Rules

/-- A request is answered by the caller's own account. Directories that agree on it give the
same string or the same error. -/
theorem Policy.mountString_sameAccount (builtin : Store) (config : ConfigDirectory)
    (device : Device) (typeName callerOptions : Option Text)
    (same : first.SameAccount second caller) :
    (mountString ⟨builtin, config, first⟩ device caller typeName callerOptions).value =
      (mountString ⟨builtin, config, second⟩ device caller typeName callerOptions).value := by
  have sets : (effective ⟨builtin, config, first⟩ device typeName).value =
      (effective ⟨builtin, config, second⟩ device typeName).value := by
    simp only [value_effective, value_layered]
    rfl
  have asked : requested ⟨builtin, config, first⟩ device caller typeName callerOptions =
      requested ⟨builtin, config, second⟩ device caller typeName callerOptions := by
    unfold requested rules
    simp only [sets, Rules.value_requestedOptions_congr same]
  rw [value_mountString, value_mountString, asked]
  unfold rules
  simp only [sets, Rules.value_mountString_congr same]

def ownIdStore : Store :=
  ⟨[⟨.any, .ofList [(.any, {
    defaults := some ["uid=".toList]
    allowUidSelf := some ["uid".toList]
    allowGidSelf := some ["gid".toList] })]⟩]⟩

def aliceAlone : UserDirectory := .ofEntries [⟨1000, "alice".toList, 100, some [27]⟩]

/-- Others come before the caller, one of them with the caller's group for a primary one. -/
def aliceAmongOthers : UserDirectory := .ofEntries
  [⟨0, "root".toList, 0, none⟩, ⟨1001, "bob".toList, 27, some [0, 100]⟩,
   ⟨1000, "alice".toList, 100, some [27]⟩]

theorem Policy.mountString_sameAccount_amongOthers :
    (aliceAlone.userInfo 1001).value ≠ (aliceAmongOthers.userInfo 1001).value ∧
      (mountString ⟨ownIdStore, ⟨[], .missing⟩, aliceAmongOthers⟩ ⟨"/dev/sda1".toList, [],
          some .empty⟩ 1000 none (some "gid=27".toList)).value =
        .ok "uhelper=udisks2,nodev,nosuid,uid=1000,gid=27".toList := by
  have same : aliceAlone.SameAccount aliceAmongOthers 1000 := by
    refine ⟨rfl, ?_⟩
    intro user found
    obtain rfl := Option.some.inj found
    rfl
  constructor
  · decide
  · rw [← mountString_sameAccount ownIdStore _ _ none _ same]
    rfl

end MountPolicy
