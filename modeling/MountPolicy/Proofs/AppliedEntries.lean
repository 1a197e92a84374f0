import Mathlib.Data.List.Induction
import Mathlib.Data.List.Infix
import MountPolicy.Proofs.Bytes
import MountPolicy.Proofs.Precedence

/-! Entries that are applied one after the other. An entry gives a list if its key names the
list and its value is an option string; any other entry leaves everything as it is. Main
statement: the last entry that gives a list decides, and of the properties of a device the
one with the greatest name in byte order. -/
namespace MountPolicy

namespace ConfigKey

def set? (key : ConfigKey) (entry : Text × Text) : Option (List Text) :=
  if ofText? entry.1 = some key then
    (OptionString.read entry.2).toOption.map (·.map MountOption.text)
  else none

def hinted? (key : ConfigKey) (property : Text × Text) : Option (List Text) :=
  (hintKey? property.1).bind fun text => key.set? (text, property.2)

/-- The property gives a list for the key, and none with a greater name does. -/
def DecidedBy (key : ConfigKey) (properties : Properties) (property : Text × Text) : Prop :=
  property ∈ properties.entries ∧ (key.hinted? property).isSome ∧
    ∀ other ∈ properties.entries, (key.hinted? other).isSome →
      other.1.bytes ≤ property.1.bytes

end ConfigKey

/-- Whether the key of an entry names a list and its value is an option string. -/
def IsSetting (entry : Text × Text) : Prop :=
  (ConfigKey.ofText? entry.1).isSome ∧ (OptionString.read entry.2).isOk

instance (entry : Text × Text) : Decidable (IsSetting entry) :=
  inferInstanceAs (Decidable (_ ∧ _))

theorem OptionSet.anyPresent_insert (set : OptionSet) (field : Field) (values : List Text) :
    (set.insert field values).anyPresent := by
  rw [anyPresent_iff]
  exact ⟨field, by simp [get?_insert]⟩

namespace TypeOptions

def ofEntries (entries : List (Text × Text)) : TypeOptions :=
  entries.foldl (fun options entry => (TypeOptions.applyEntry options entry.1 entry.2).value)
    .empty

variable (options : TypeOptions) (entry : Text × Text)

theorem value_applyEntry_of_not_isSetting (unset : ¬ IsSetting entry) :
    (options.applyEntry entry.1 entry.2).value = options := by
  rw [value_applyEntry]
  split
  · rename_i named done
    exact absurd ⟨by rw [named]; rfl, by rw [done]; rfl⟩ unset
  · rfl

theorem stated?_applyEntry (key : ConfigKey) :
    stated? key.scope key.field (options.applyEntry entry.1 entry.2).value =
      (key.set? entry).or (stated? key.scope key.field options) := by
  rw [value_applyEntry]
  by_cases named : ConfigKey.ofText? entry.1 = some key
  · rw [ConfigKey.set?, if_pos named, named]
    cases OptionString.read entry.2 with
    | error fault => rfl
    | ok values => simp [stated?, SortedMap.get?_insert, OptionSet.get?_insert, Except.toOption]
  · rw [ConfigKey.set?, if_neg named, Option.none_or]
    split
    · rename_i scope field values decoded _
      have other : key.scope = scope → key.field ≠ field := by
        rintro rfl rfl
        exact named decoded
      by_cases same : key.scope = scope
      · have below := get?_setFor options key.scope key.field
        simp [stated?, SortedMap.get?_insert, OptionSet.get?_insert, ← same, other same, below]
      · simp [stated?, SortedMap.get?_insert, same]
    · rfl

theorem stated?_ofEntries (entries : List (Text × Text)) (key : ConfigKey) :
    stated? key.scope key.field (ofEntries entries) =
      (entries.filterMap key.set?).getLast? := by
  induction entries using List.reverseRecOn with
  | nil => rfl
  | append_singleton entries entry ih =>
    rw [ofEntries, List.foldl_concat, stated?_applyEntry, ← ofEntries, ih, List.filterMap_append,
      List.getLast?_append]
    cases given : key.set? entry <;> simp [given]

theorem ofEntries_filter_isSetting (entries : List (Text × Text)) :
    ofEntries (entries.filter (IsSetting ·)) = ofEntries entries := by
  unfold ofEntries
  rw [List.foldl_filter]
  apply List.foldl_ext
  intro options entry _
  by_cases setting : IsSetting entry
  · rw [if_pos (decide_eq_true setting)]
  · rw [if_neg (by simpa using setting), value_applyEntry_of_not_isSetting options entry setting]

theorem isSome_get?_ofEntries_iff (entries : List (Text × Text)) (scope : TypeScope) :
    ((ofEntries entries).get? scope).isSome ↔
      ∃ field, (stated? scope field (ofEntries entries)).isSome := by
  have present : ∀ scope set, (ofEntries entries).get? scope = some set → set.anyPresent := by
    refine List.foldlRecOn (motive := fun options : TypeOptions =>
      ∀ scope set, options.get? scope = some set → set.anyPresent) entries _ nofun ?_
    intro options kept entry _ scope set found
    rw [value_applyEntry] at found
    split at found
    · rw [SortedMap.get?_insert] at found
      split at found
      · obtain rfl := Option.some.inj found
        exact OptionSet.anyPresent_insert _ _ _
      · exact kept scope set found
    · exact kept scope set found
  unfold stated?
  cases found : (ofEntries entries).get? scope with
  | none => simp
  | some set => simpa using OptionSet.anyPresent_iff.mp (present scope set found)

theorem isSome_get?_ofEntries_iff_set? (entries : List (Text × Text))
    (scope : TypeScope) :
    ((ofEntries entries).get? scope).isSome ↔
      ∃ field, ∃ entry ∈ entries, (ConfigKey.set? ⟨scope, field⟩ entry).isSome := by
  rw [isSome_get?_ofEntries_iff]
  refine exists_congr fun field => ?_
  rw [stated?_ofEntries entries ⟨scope, field⟩, List.getLast?_filterMap,
    List.findSome?_isSome_iff]
  simp only [List.mem_reverse]

theorem ofEntries_eq_of_stated? {entries others : List (Text × Text)}
    (same : ∀ key : ConfigKey, stated? key.scope key.field (ofEntries entries) =
      stated? key.scope key.field (ofEntries others)) : ofEntries entries = ofEntries others := by
  apply SortedMap.ext_get?
  intro scope
  have lists : ∀ field, stated? scope field (ofEntries entries) =
      stated? scope field (ofEntries others) := fun field => same ⟨scope, field⟩
  have there := isSome_get?_ofEntries_iff entries scope
  rw [exists_congr fun field => by rw [lists field], ← isSome_get?_ofEntries_iff] at there
  cases found : (ofEntries entries).get? scope with
  | none =>
    rw [found] at there
    exact (Option.not_isSome_iff_eq_none.mp (mt there.mpr (by simp))).symm
  | some set =>
    rw [found] at there
    obtain ⟨other, otherFound⟩ := Option.isSome_iff_exists.mp (there.mp rfl)
    rw [otherFound]
    congr 1
    apply OptionSet.ext
    intro field
    have list := lists field
    unfold stated? at list
    rwa [found, otherFound] at list

end TypeOptions

def KeyFile.Section.valued (s : Section) : List (Text × Text) :=
  s.entries.filterMap fun entry => entry.2.map fun value => (Text.lowercase entry.1, value)

theorem TypeOptions.value_ofSection_eq_ofEntries (s : KeyFile.Section) :
    (TypeOptions.ofSection s).value = TypeOptions.ofEntries s.valued := by
  rw [value_ofSection, ofEntries, KeyFile.Section.valued, List.foldl_filterMap]
  apply List.foldl_ext
  intro options entry _
  cases entry.2 <;> rfl

section Hints

variable (properties : Properties)

def Properties.hints : List (Text × Text) :=
  properties.entries.filter fun property => hintMarker.isPrefixOf property.1

def entryOfHint (property : Text × Text) : Text × Text :=
  (Text.lowercase (property.1.drop hintMarker.length), property.2)

theorem hintKey?_of_marked {name : Text} (marked : hintMarker <+: name) :
    hintKey? name = some (Text.lowercase (name.drop hintMarker.length)) := by
  obtain ⟨rest, rfl⟩ := marked
  have cut : hintMarker.isPrefixOf? (hintMarker ++ rest) = some rest :=
    List.isPrefixOf?_eq_some_iff_append_eq.mpr rfl
  rw [hintKey?, cut, List.drop_left]
  rfl

theorem hintKey?_eq_none {name : Text} (unmarked : ¬ hintMarker <+: name) :
    hintKey? name = none := by
  unfold hintKey?
  rw [Option.map_eq_none_iff, Option.eq_none_iff_forall_ne_some]
  intro key found
  exact unmarked ⟨key, List.isPrefixOf?_eq_some_iff_append_eq.mp found⟩

theorem TypeOptions.value_ofProperties_eq_ofEntries :
    (TypeOptions.ofProperties properties).value =
      TypeOptions.ofEntries (properties.hints.map entryOfHint) := by
  rw [value_ofProperties, ofEntries, Properties.hints, List.foldl_map, List.foldl_filter]
  apply List.foldl_ext
  intro options property _
  by_cases marked : hintMarker <+: property.1
  · rw [hintKey?_of_marked marked, if_pos (List.isPrefixOf_iff_prefix.mpr marked)]
    rfl
  · rw [hintKey?_eq_none marked, if_neg (mt List.isPrefixOf_iff_prefix.mp marked)]

theorem Properties.pairwise_bytes :
    properties.entries.Pairwise fun a b => a.1.bytes < b.1.bytes :=
  properties.increasing.imp fun before => Text.bytes_lt_bytes_iff.mpr (of_decide_eq_true before)

theorem TypeOptions.stated?_ofProperties (key : ConfigKey) :
    stated? key.scope key.field (TypeOptions.ofProperties properties).value =
      (properties.entries.filterMap key.hinted?).getLast? := by
  rw [value_ofProperties_eq_ofEntries, stated?_ofEntries, List.filterMap_map, Properties.hints,
    List.filterMap_filter]
  congr 2
  funext property
  by_cases marked : hintMarker <+: property.1
  · rw [if_pos (List.isPrefixOf_iff_prefix.mpr marked), ConfigKey.hinted?,
      hintKey?_of_marked marked]
    rfl
  · rw [if_neg (mt List.isPrefixOf_iff_prefix.mp marked), ConfigKey.hinted?,
      hintKey?_eq_none marked]
    rfl

theorem Properties.getLast?_filterMap_eq_some_iff {f : Text × Text → Option (List Text)}
    {list : List Text} :
    (properties.entries.filterMap f).getLast? = some list ↔
      ∃ property ∈ properties.entries, f property = some list ∧
        ∀ other ∈ properties.entries, (f other).isSome → other.1.bytes ≤ property.1.bytes := by
  rw [getLast?_filterMap_iff]
  have sorted := properties.pairwise_bytes
  constructor
  · rintro ⟨before, property, after, cut, image, silent⟩
    refine ⟨property, by simp [cut], image, ?_⟩
    intro other mem given
    rw [cut] at mem sorted
    rcases List.mem_append.mp mem with front | behind
    · exact List.le_of_lt ((List.pairwise_append.mp sorted).2.2 other front property (by simp))
    · rcases List.mem_cons.mp behind with rfl | behind
      · exact List.le_refl _
      · simp [silent other behind] at given
  · rintro ⟨property, mem, image, greatest⟩
    obtain ⟨before, after, cut⟩ := List.append_of_mem mem
    refine ⟨before, property, after, cut, image, ?_⟩
    intro other behind
    rw [cut] at sorted greatest
    have above := (List.pairwise_cons.mp (List.pairwise_append.mp sorted).2.1).1 other behind
    rw [← Option.not_isSome_iff_eq_none]
    intro given
    exact List.not_lt.mpr (greatest other (by simp [behind]) given) above

theorem TypeOptions.stated?_ofProperties_eq_some_iff (key : ConfigKey) (list : List Text) :
    stated? key.scope key.field (TypeOptions.ofProperties properties).value = some list ↔
      ∃ property, key.DecidedBy properties property ∧ key.hinted? property = some list := by
  rw [stated?_ofProperties, properties.getLast?_filterMap_eq_some_iff]
  constructor
  · rintro ⟨property, mem, image, greatest⟩
    exact ⟨property, ⟨mem, by rw [image]; rfl, greatest⟩, image⟩
  · rintro ⟨property, ⟨mem, -, greatest⟩, image⟩
    exact ⟨property, mem, image, greatest⟩

theorem TypeOptions.ofProperties_eq_of_decidedBy {others : Properties}
    (same : ∀ (key : ConfigKey) property,
      key.DecidedBy properties property ↔ key.DecidedBy others property) :
    (TypeOptions.ofProperties properties).value = (TypeOptions.ofProperties others).value := by
  have lists : ∀ key : ConfigKey,
      stated? key.scope key.field (TypeOptions.ofProperties properties).value =
        stated? key.scope key.field (TypeOptions.ofProperties others).value := by
    intro key
    apply Option.ext
    intro list
    rw [stated?_ofProperties_eq_some_iff, stated?_ofProperties_eq_some_iff]
    exact exists_congr fun property => and_congr_left fun _ => same key property
  rw [value_ofProperties_eq_ofEntries, value_ofProperties_eq_ofEntries] at lists ⊢
  exact ofEntries_eq_of_stated? lists

theorem Properties.mem_hints_iff {property : Text × Text} :
    property ∈ properties.hints ↔
      properties.get? property.1 = some property.2 ∧ hintMarker <+: property.1 := by
  rw [hints, List.mem_filter, List.isPrefixOf_iff_prefix]
  exact and_congr_left fun _ => ⟨SortedMap.get?_of_mem, SortedMap.mem_of_get?⟩

end Hints

/-- The last setting of a list stands, and entries that are no settings leave nothing
behind, not even a type without lists. A device's hints are such entries in byte order of
their names, so one property decides each list and the others have no influence. -/
theorem TypeOptions.lastSetting_decides :
    (∀ entries : List (Text × Text),
      (∀ key : ConfigKey, stated? key.scope key.field (ofEntries entries) =
          (entries.filterMap key.set?).getLast?) ∧
        (∀ scope, ((ofEntries entries).get? scope).isSome ↔
          ∃ field, ∃ entry ∈ entries, (ConfigKey.set? ⟨scope, field⟩ entry).isSome) ∧
        ofEntries (entries.filter (IsSetting ·)) = ofEntries entries) ∧
      ∀ properties : Properties,
        (∀ property, property ∈ properties.hints ↔
            properties.get? property.1 = some property.2 ∧ hintMarker <+: property.1) ∧
          (properties.hints.Pairwise fun a b => a.1.bytes < b.1.bytes) ∧
          (ofProperties properties).value = ofEntries (properties.hints.map entryOfHint) ∧
          (∀ (key : ConfigKey) (list : List Text),
            stated? key.scope key.field (ofProperties properties).value = some list ↔
              ∃ property, key.DecidedBy properties property ∧ key.hinted? property = some list) ∧
          ∀ others : Properties,
            (∀ (key : ConfigKey) property,
              key.DecidedBy properties property ↔ key.DecidedBy others property) →
            (ofProperties properties).value = (ofProperties others).value := by
  refine ⟨?entries, ?properties⟩
  case entries =>
    intro entries
    exact ⟨stated?_ofEntries entries, isSome_get?_ofEntries_iff_set? entries,
      ofEntries_filter_isSetting entries⟩
  case properties =>
    intro properties
    refine ⟨fun property => properties.mem_hints_iff, ?_, value_ofProperties_eq_ofEntries _,
      stated?_ofProperties_eq_some_iff _, fun others => ofProperties_eq_of_decidedBy _⟩
    exact properties.pairwise_bytes.filter _

def plainProperties : Properties :=
  SortedMap.ofList [("UDISKS_MOUNT_OPTIONS_ALLOW".toList, "ro".toList),
    ("UDISKS_MOUNT_OPTIONS_DEFAULTS_ALLOW".toList, "rw".toList)]

/-- A third spelling of the same key, with an open quote in its value. -/
def openQuote : Text × Text := ("UDISKS_MOUNT_OPTIONS_allow".toList, ['"'])

def clutteredProperties : Properties := plainProperties.insert openQuote.1 openQuote.2

theorem TypeOptions.lastSetting_decides_openQuote :
    (∀ (key : ConfigKey) property,
        key.DecidedBy plainProperties property ↔ key.DecidedBy clutteredProperties property) ∧
      (ofProperties plainProperties).value = (ofProperties clutteredProperties).value ∧
      stated? .any .allow (ofProperties clutteredProperties).value = some ["rw".toList] := by
  obtain ⟨-, hinted⟩ := lastSetting_decides
  have silent : ∀ key : ConfigKey, key.hinted? openQuote = none := by
    intro key
    have named : hintKey? openQuote.1 = some "allow".toList := rfl
    have unread : (OptionString.read openQuote.2).toOption = none := rfl
    rw [ConfigKey.hinted?, named, Option.bind_some, ConfigKey.set?, unread]
    simp
  have entries : clutteredProperties.entries = plainProperties.entries ++ [openQuote] := by
    decide +kernel
  have same : ∀ (key : ConfigKey) property,
      key.DecidedBy plainProperties property ↔ key.DecidedBy clutteredProperties property := by
    intro key property
    unfold ConfigKey.DecidedBy
    rw [entries]
    by_cases quote : property = openQuote
    · simp [quote, silent]
    · simp [quote, silent, or_imp, forall_and]
  refine ⟨same, (hinted plainProperties).2.2.2.2 clutteredProperties same, ?_⟩
  rw [← (hinted plainProperties).2.2.2.2 clutteredProperties same]
  decide +kernel

end MountPolicy
