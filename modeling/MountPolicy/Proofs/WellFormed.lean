import Mathlib
import MountPolicy.Proofs.ConfiguredLists
import MountPolicy.Proofs.DefaultNames
import MountPolicy.Proofs.InsertedBlocks
import MountPolicy.Proofs.KeyGrammar

/-! What is stored of a configuration. Main statement: the blocks of a store are for
different devices, a type is stored by its name in lower case and only with a list, and
every list reads back as it was read. So a request for a type that is empty or named like
the marker of every type gets what a request without a type gets. -/
namespace MountPolicy

/-- The name of a filesystem type as it is stored. -/
structure IsTypeName (name : Text) : Prop where
  present : name ≠ []
  specific : name ≠ anyMarker
  lower : ∀ c ∈ name, c.isUpper = false

structure IsEntry (scope : TypeScope) (set : OptionSet) : Prop where
  typed : ∀ name, scope = .filesystem name → IsTypeName name
  stated : set.anyPresent

/-- A text that is read as one option, and written as it was. -/
def OptionString.IsOption (t : Text) : Prop := ∃ o, read t = .ok [o] ∧ o.text = t

structure OptionString.Canonical (values : List Text) : Prop where
  joined : ∃ options, read (Text.commaSeparated values) = .ok options ∧
    options.map MountOption.text = values
  each : ∀ x ∈ values, IsOption x

structure TypeOptions.WellFormed (options : TypeOptions) : Prop where
  entries : ∀ entry ∈ options.entries, IsEntry entry.1 entry.2
  canonical : TypeOptions.Lists OptionString.Canonical options

structure Store.WellFormed (store : Store) : Prop where
  distinct : (store.blocks.map Block.scope).Nodup
  reserved : ∀ name, .named name ∈ store.blocks.map Block.scope →
    name ≠ KeyFile.orphanName ∧ name ≠ anyMarker
  options : ∀ block ∈ store.blocks, TypeOptions.WellFormed block.options

theorem OptionString.canonical_of_read {t : Text} {options : List MountOption}
    (done : read t = .ok options) : Canonical (options.map MountOption.text) where
  joined := ⟨options, read_write_iff.mpr
    ⟨fun _ mem => isItem_of_read done mem, unescaped_of_read done⟩, rfl⟩
  each := by
    intro x mem
    obtain ⟨o, inside, rfl⟩ := List.mem_map.mp mem
    obtain ⟨item, same⟩ := isItem_of_read done inside
    exact ⟨o, by rw [item.read, same], rfl⟩

namespace ConfigKey

theorem isTypeName_of_ofText? {key name : Text} {field : Field}
    (lower : ∀ c ∈ key, c.isUpper = false)
    (found : ofText? key = some ⟨.filesystem name, field⟩) : IsTypeName name := by
  obtain ⟨type, rfl, present, specific, rfl⟩ := ofText?_eq_filesystem_iff.mp found
  have typeLower : ∀ c ∈ type, c.isUpper = false := by
    intro c mem
    exact lower c (List.mem_append_left _ mem)
  -- The key is in lower case already, so a marker in capitals cannot come up only now.
  rw [Text.lowercase_of_lower typeLower]
  exact ⟨present, specific, typeLower⟩

end ConfigKey

theorem OptionSet.anyPresent_overriddenBy {set upper : OptionSet} (stated : upper.anyPresent) :
    (set.overriddenBy upper).anyPresent := by
  rw [anyPresent_iff] at stated ⊢
  obtain ⟨field, present⟩ := stated
  refine ⟨field, ?_⟩
  rw [get?_overriddenBy, Option.isSome_or, present, Bool.true_or]

namespace TypeOptions.WellFormed

variable {options : TypeOptions}

theorem empty : TypeOptions.WellFormed .empty := ⟨nofun, Lists.empty⟩

theorem insert (wellFormed : TypeOptions.WellFormed options) {scope : TypeScope}
    {set : OptionSet} (new : IsEntry scope set) (lists : set.Lists OptionString.Canonical) :
    TypeOptions.WellFormed (options.insert scope set) where
  entries := by
    intro entry mem
    rcases mem_insertEntry mem with rfl | old
    · exact new
    · exact wellFormed.entries entry old
  canonical := wellFormed.canonical.insert scope lists

theorem applyEntry (wellFormed : TypeOptions.WellFormed options) {key : Text}
    (lower : ∀ c ∈ key, c.isUpper = false) (value : Text) :
    TypeOptions.WellFormed (options.applyEntry key value).value := by
  rw [value_applyEntry]
  split
  · rename_i scope field values named done
    apply wellFormed.insert
    · constructor
      · rintro name rfl
        exact ConfigKey.isTypeName_of_ofText? lower named
      · exact OptionSet.anyPresent_insert _ field _
    · exact (wellFormed.canonical scope).insert field (OptionString.canonical_of_read done)
  · exact wellFormed

theorem ofEntries {entries : List (Text × Text)}
    (lower : ∀ entry ∈ entries, ∀ c ∈ entry.1, c.isUpper = false) :
    TypeOptions.WellFormed (TypeOptions.ofEntries entries) := by
  refine List.foldlRecOn (motive := TypeOptions.WellFormed) entries _ empty ?_
  intro options wellFormed entry mem
  exact wellFormed.applyEntry (lower entry mem) entry.2

theorem ofProperties (properties : Properties) :
    TypeOptions.WellFormed (TypeOptions.ofProperties properties).value := by
  rw [value_ofProperties_eq_ofEntries]
  apply ofEntries
  intro entry mem
  obtain ⟨property, -, rfl⟩ := List.mem_map.mp mem
  exact Text.lower_lowercase _

theorem ofSection (s : KeyFile.Section) :
    TypeOptions.WellFormed (TypeOptions.ofSection s).value := by
  rw [value_ofSection_eq_ofEntries]
  apply ofEntries
  intro entry mem
  obtain ⟨given, -, found⟩ := List.mem_filterMap.mp mem
  obtain ⟨value, -, rfl⟩ := Option.map_eq_some_iff.mp found
  exact Text.lower_lowercase given.1

theorem overriddenBy (wellFormed : TypeOptions.WellFormed options) {upper : TypeOptions}
    (above : TypeOptions.WellFormed upper) :
    TypeOptions.WellFormed (options.overriddenBy upper) := by
  refine List.foldlRecOn (motive := TypeOptions.WellFormed) upper.entries _ wellFormed ?_
  intro result kept entry mem
  have own : TypeOptions.setFor upper entry.1 = entry.2 := by
    simp [setFor, SortedMap.get?_of_mem mem]
  obtain ⟨typed, stated⟩ := above.entries entry mem
  apply kept.insert
  · exact ⟨typed, OptionSet.anyPresent_overriddenBy stated⟩
  · exact (kept.canonical entry.1).overriddenBy (own ▸ above.canonical entry.1)

theorem setFor_eq_empty (wellFormed : TypeOptions.WellFormed options) {name : Text}
    (unnamed : ¬ IsTypeName name) :
    TypeOptions.setFor options (.filesystem name) = .empty := by
  unfold setFor
  cases found : options.get? (.filesystem name) with
  | none => rfl
  | some set =>
    have entry := wellFormed.entries _ (SortedMap.mem_of_get? found)
    exact absurd (entry.typed name rfl) unnamed

end TypeOptions.WellFormed

namespace Store

namespace WellFormed

theorem insert {store : Store} (wellFormed : store.WellFormed) {scope : DeviceScope}
    (reserved : ∀ name, scope = .named name → name ≠ KeyFile.orphanName ∧ name ≠ anyMarker)
    {options : TypeOptions} (new : TypeOptions.WellFormed options) :
    (store.insert scope options).WellFormed where
  distinct := by
    rw [scopes_insert]
    split
    · exact wellFormed.distinct
    · rename_i fresh
      exact List.nodup_append_comm.mp (List.nodup_cons.mpr ⟨fresh, wellFormed.distinct⟩)
  reserved := by
    intro name mem
    rw [scopes_insert] at mem
    split at mem
    · exact wellFormed.reserved name mem
    · rcases List.mem_append.mp mem with old | here
      · exact wellFormed.reserved name old
      · exact reserved name (List.mem_singleton.mp here).symm
  options := by
    intro block mem
    rcases mem_upsert mem with old | ⟨before, there, rfl⟩
    · exact wellFormed.options block old
    · rcases there with rfl | there
      · exact TypeOptions.WellFormed.empty.overriddenBy new
      · exact (wellFormed.options before there).overriddenBy new

theorem addSection {store : Store} (wellFormed : store.WellFormed) (s : KeyFile.Section) :
    (store.addSection s).value.WellFormed := by
  rw [value_addSection]
  split
  · exact wellFormed
  · rename_i owned
    refine wellFormed.insert ?_ (TypeOptions.WellFormed.ofSection s)
    intro name same
    unfold DeviceScope.ofSection at same
    split at same
    · cases same
    · rename_i specific
      obtain rfl := DeviceScope.named.inj same
      exact ⟨owned, specific⟩

theorem ofText {text : Text} {store : Store} (done : (Store.ofText text).value = .ok store) :
    store.WellFormed := by
  obtain ⟨sections, -, rfl⟩ := sections_of_ofText done
  rw [value_ofSections]
  refine List.foldlRecOn (motive := Store.WellFormed) sections _ ⟨.nil, nofun, nofun⟩ ?_
  intro store wellFormed s mem
  exact wellFormed.addSection s

end WellFormed
end Store

section Elements

variable {P : Text → Prop}

theorem OptionSet.lists_of_elements {set : OptionSet}
    (each : ∀ field, ∀ x ∈ set.elements field, P x) : set.Lists fun values => ∀ x ∈ values, P x := by
  intro field values found x mem
  apply each field
  simpa [elements, found] using mem

theorem OptionSet.Lists.extendedBy {set extra : OptionSet}
    (lists : set.Lists fun values => ∀ x ∈ values, P x)
    (added : extra.Lists fun values => ∀ x ∈ values, P x) :
    (set.extendedBy extra).Lists fun values => ∀ x ∈ values, P x := by
  apply lists_of_elements
  intro field x mem
  rcases mem_elements_extendedBy.mp mem with own | new
  · exact lists.mem own
  · exact added.mem new

theorem OptionSet.Lists.effectiveSet {layers : List Layer}
    (lists : ∀ layer ∈ layers, ∀ options ∈ layer.sources,
      TypeOptions.Lists (fun values => ∀ x ∈ values, P x) options)
    (device : Option Device) (typeName : Option Text) :
    (MountPolicy.effectiveSet layers device typeName).value.Lists
      fun values => ∀ x ∈ values, P x := by
  rw [value_effectiveSet]
  apply lists_of_elements
  intro field x mem
  refine OptionSet.Lists.effective ?_ mem
  intro layer there options here
  exact lists layer there options (Layer.mem_sources here)

end Elements

theorem resolution_eq_of_unstored {layers : List Layer} {scope : TypeScope}
    (unstored : ∀ layer ∈ layers, ∀ options ∈ layer.sources,
      TypeOptions.setFor options scope = .empty) (device : Option Device) :
    resolution layers device (some scope) = resolution layers device none := by
  apply List.foldl_ext
  intro state layer there
  have same : ∀ block ∈ layer.blocks device,
      Resolution.typeSet (some scope) block = Resolution.typeSet none block := by
    intro block here
    exact unstored layer there block (Layer.mem_sources here)
  have forType : ∀ set : OptionSet, (layer.blocks device).foldl
      (fun set block => set.overriddenBy (Resolution.typeSet (some scope) block)) set =
      (layer.blocks device).foldl
        (fun set block => set.overriddenBy (Resolution.typeSet none block)) set := by
    intro set
    apply List.foldl_ext
    intro set block here
    rw [same block here]
  have touched : (layer.blocks device).any (Resolution.touches (some scope)) =
      (layer.blocks device).any (Resolution.touches none) := by
    rw [Bool.eq_iff_iff, List.any_eq_true, List.any_eq_true]
    refine exists_congr fun block => and_congr_right fun here => ?_
    rw [Resolution.touches, same block here]
    rfl
  rw [Resolution.apply_eq, Resolution.apply_eq, forType, touched]

theorem not_isTypeName_of_unspecific {name : Text}
    (unspecific : name = [] ∨ Text.lowercase name = anyMarker) :
    ¬ IsTypeName (Text.lowercase name) := by
  rintro ⟨present, specific, -⟩
  rcases unspecific with rfl | marker
  · exact present rfl
  · exact specific marker

/-- Everything that is read from configuration is well formed. Of that, what holds of each
element alone is kept when lists are laid over each other or joined, and in the set in
force. A request for a type that is empty or the marker of every type is answered, and
reported, like one for no type. -/
theorem configuration_wellFormed :
    (∀ text store, (Store.ofText text).value = .ok store → store.WellFormed) ∧
      (∀ properties, TypeOptions.WellFormed (TypeOptions.ofProperties properties).value) ∧
      (∀ set other : OptionSet,
        (set.Lists fun values => ∀ x ∈ values, OptionString.IsOption x) →
        (other.Lists fun values => ∀ x ∈ values, OptionString.IsOption x) →
        ((set.overriddenBy other).Lists fun values => ∀ x ∈ values, OptionString.IsOption x) ∧
          (set.extendedBy other).Lists fun values => ∀ x ∈ values, OptionString.IsOption x) ∧
      (∀ (layers : List Layer) (device : Option Device) (typeName : Option Text),
        (∀ layer ∈ layers, ∀ options ∈ layer.sources,
          TypeOptions.Lists (fun values => ∀ x ∈ values, OptionString.IsOption x) options) →
        (effectiveSet layers device typeName).value.Lists
          fun values => ∀ x ∈ values, OptionString.IsOption x) ∧
      ∀ (layers : List Layer) (device : Option Device) (name : Text),
        (∀ layer ∈ layers, ∀ options ∈ layer.sources, TypeOptions.WellFormed options) →
        name = [] ∨ Text.lowercase name = anyMarker →
        effectiveSet layers device (some name) = effectiveSet layers device none := by
  refine ⟨?stores, ?hints, ?merged, ?inForce, ?unspecific⟩
  case stores =>
    intro text store done
    exact .ofText done
  case hints =>
    intro properties
    exact .ofProperties properties
  case merged =>
    intro set other lists others
    exact ⟨lists.overriddenBy others, lists.extendedBy others⟩
  case inForce =>
    intro layers device typeName lists
    exact .effectiveSet lists device typeName
  case unspecific =>
    intro layers device name wellFormed unspecific
    have unstored : ∀ layer ∈ layers, ∀ options ∈ layer.sources,
        TypeOptions.setFor options (TypeScope.ofName name) = .empty := by
      intro layer there options stored
      apply (wellFormed layer there options stored).setFor_eq_empty
      exact not_isTypeName_of_unspecific unspecific
    unfold effectiveSet
    dsimp only
    rw [Option.map_some, resolution_eq_of_unstored unstored]
    rfl

def mixedCaseText : Text :=
  "[defaults]\nVFAT_Allow=\"a,b\",,x-c\\\n[DEFAULTS]\ndefaults=ro\n[default]\nallow=rw\n".toList

theorem configuration_wellFormed_mixedCase :
    ∃ store, (Store.ofText mixedCaseText).value = .ok store ∧ store.WellFormed ∧
      store.blocks.map Block.scope = [.any, .named "DEFAULTS".toList] ∧
      effectiveSet [.global store] none (some "Defaults".toList) =
        effectiveSet [.global store] none none := by
  obtain ⟨stores, -, -, -, unspecific⟩ := configuration_wellFormed
  obtain ⟨store, done, scopes⟩ : ∃ store, (Store.ofText mixedCaseText).value = .ok store ∧
      store.blocks.map Block.scope = [.any, .named "DEFAULTS".toList] := ⟨_, rfl, rfl⟩
  have wellFormed := stores mixedCaseText store done
  refine ⟨store, done, wellFormed, scopes, ?_⟩
  apply unspecific
  · intro layer there options stored
    obtain rfl := List.mem_singleton.mp there
    obtain ⟨block, inside, rfl⟩ := List.mem_map.mp stored
    exact wellFormed.options block inside
  · exact .inr rfl

end MountPolicy
