import MountPolicy.Proofs.AppliedEntries
import MountPolicy.Proofs.OptionItems

/-! What holds of every list that configuration gives. A list enters as the options
of one value, is replaced as a whole by a higher layer, and is extended only at the
end, when the lists for every type join those for the type. Main statement: every
element of a list in force is an item of an option string. -/
namespace MountPolicy

def OptionSet.Lists (Q : List Text → Prop) (set : OptionSet) : Prop :=
  ∀ field values, set.get? field = some values → Q values

def TypeOptions.Lists (Q : List Text → Prop) (options : TypeOptions) : Prop :=
  ∀ scope, (TypeOptions.setFor options scope).Lists Q

def Store.Lists (Q : List Text → Prop) (store : Store) : Prop :=
  ∀ block ∈ store.blocks, TypeOptions.Lists Q block.options

variable {Q : List Text → Prop} {P : Text → Prop}

theorem mem_upsert {α : Type} {fits : α → Bool} {fresh x : α} {change : α → α} {items : List α}
    (mem : x ∈ upsert fits fresh change items) :
    x ∈ items ∨ ∃ y, (y = fresh ∨ y ∈ items) ∧ x = change y := by
  induction items with
  | nil => exact .inr ⟨fresh, .inl rfl, List.mem_singleton.mp mem⟩
  | cons first rest ih =>
    simp only [upsert] at mem
    split at mem
    · rcases List.mem_cons.mp mem with rfl | there
      · exact .inr ⟨first, .inr List.mem_cons_self, rfl⟩
      · exact .inl (List.mem_cons_of_mem _ there)
    · rcases List.mem_cons.mp mem with rfl | there
      · exact .inl List.mem_cons_self
      · rcases ih there with old | ⟨y, isFresh | inside, changed⟩
        · exact .inl (List.mem_cons_of_mem _ old)
        · exact .inr ⟨y, .inl isFresh, changed⟩
        · exact .inr ⟨y, .inr (List.mem_cons_of_mem _ inside), changed⟩

namespace OptionSet

theorem Lists.empty : OptionSet.empty.Lists Q := by
  intro field values found
  simp at found

theorem Lists.insert {set : OptionSet} (lists : set.Lists Q) (field : Field) {values : List Text}
    (new : Q values) : (set.insert field values).Lists Q := by
  intro other found h
  rw [get?_insert] at h
  split at h
  · exact Option.some.inj h ▸ new
  · exact lists other found h

theorem Lists.overriddenBy {set upper : OptionSet} (lists : set.Lists Q) (above : upper.Lists Q) :
    (set.overriddenBy upper).Lists Q := by
  intro field values found
  rw [get?_overriddenBy, Option.or_eq_some_iff] at found
  rcases found with upper | ⟨-, lower⟩
  · exact above field values upper
  · exact lists field values lower

theorem mem_elements_extendedBy {set extra : OptionSet} {field : Field} {x : Text} :
    x ∈ (set.extendedBy extra).elements field ↔
      x ∈ set.elements field ∨ x ∈ extra.elements field := by
  rw [elements_extendedBy_eq_union, mem_union]

theorem Lists.mem {set : OptionSet} (lists : set.Lists fun values => ∀ x ∈ values, P x)
    {field : Field} {x : Text} (mem : x ∈ set.elements field) : P x := by
  unfold elements at mem
  cases found : set.get? field with
  | none => simp [found] at mem
  | some values => exact lists field values found x (by simpa [found] using mem)

end OptionSet

namespace TypeOptions

theorem Lists.empty : TypeOptions.Lists Q .empty := by
  intro scope
  rw [setFor_empty]
  exact .empty

theorem Lists.insert {options : TypeOptions} (lists : TypeOptions.Lists Q options)
    (scope : TypeScope) {set : OptionSet} (new : set.Lists Q) :
    TypeOptions.Lists Q (options.insert scope set) := by
  intro other
  rw [setFor_insert]
  split
  · exact new
  · exact lists other

theorem Lists.overriddenBy {options upper : TypeOptions} (lists : TypeOptions.Lists Q options)
    (above : TypeOptions.Lists Q upper) : TypeOptions.Lists Q (options.overriddenBy upper) := by
  refine List.foldlRecOn (motive := TypeOptions.Lists Q) upper.entries _ lists ?_
  intro result kept entry mem
  have set : TypeOptions.setFor upper entry.1 = entry.2 := by
    simp [setFor, SortedMap.get?_of_mem mem]
  exact kept.insert entry.1 ((kept entry.1).overriddenBy (set ▸ above entry.1))

end TypeOptions

section Reading

/-! A property that holds of the texts of every option string's options holds of
every list that configuration gives. -/
variable (reading : ∀ value options, OptionString.read value = .ok options →
  Q (options.map MountOption.text))
include reading

namespace TypeOptions

theorem Lists.applyEntry {options : TypeOptions} (lists : TypeOptions.Lists Q options)
    (key value : Text) : TypeOptions.Lists Q (options.applyEntry key value).value := by
  rw [value_applyEntry]
  split
  · rename_i scope field values _ done
    exact lists.insert scope ((lists scope).insert field (reading value values done))
  · exact lists

theorem Lists.ofEntries (entries : List (Text × Text)) :
    TypeOptions.Lists Q (TypeOptions.ofEntries entries) := by
  refine List.foldlRecOn (motive := TypeOptions.Lists Q) entries _ .empty ?_
  intro options lists entry _
  exact lists.applyEntry reading entry.1 entry.2

theorem Lists.ofProperties (properties : Properties) :
    TypeOptions.Lists Q (TypeOptions.ofProperties properties).value := by
  rw [value_ofProperties_eq_ofEntries]
  exact Lists.ofEntries reading _

theorem Lists.ofSection (s : KeyFile.Section) :
    TypeOptions.Lists Q (TypeOptions.ofSection s).value := by
  rw [value_ofSection_eq_ofEntries]
  exact Lists.ofEntries reading _

end TypeOptions

namespace Store

omit reading in
theorem Lists.insert {store : Store} (lists : store.Lists Q) (scope : DeviceScope)
    {options : TypeOptions} (new : TypeOptions.Lists Q options) :
    (store.insert scope options).Lists Q := by
  intro block mem
  rcases mem_upsert mem with old | ⟨before, there, rfl⟩
  · exact lists block old
  · rcases there with rfl | there
    · exact TypeOptions.Lists.empty.overriddenBy new
    · exact (lists before there).overriddenBy new

theorem Lists.ofText {text : Text} {store : Store} (done : (Store.ofText text).value = .ok store) :
    store.Lists Q := by
  obtain ⟨sections, -, rfl⟩ := sections_of_ofText done
  rw [value_ofSections]
  refine List.foldlRecOn (motive := Store.Lists Q) sections _ (by simp [Lists, Store.empty]) ?_
  intro store lists s mem
  rw [value_addSection]
  split
  · exact lists
  · exact lists.insert _ (TypeOptions.Lists.ofSection reading s)

end Store

end Reading

theorem TypeOptions.Lists.typeSet {options : TypeOptions} (lists : TypeOptions.Lists Q options)
    (type : Option TypeScope) : (Resolution.typeSet type options).Lists Q := by
  cases type with
  | none => exact .empty
  | some scope => exact lists scope

theorem OptionSet.Lists.foldl_overriddenBy {blocks : List TypeOptions} {f : TypeOptions → OptionSet}
    (lists : ∀ block ∈ blocks, (f block).Lists Q) :
    (blocks.foldl (fun set block => set.overriddenBy (f block)) OptionSet.empty).Lists Q := by
  refine List.foldlRecOn (motive := OptionSet.Lists Q) blocks _ .empty ?_
  intro set kept block mem
  exact kept.overriddenBy (lists block mem)

theorem Store.Lists.of_mem_storeBlocks {store : Store} (lists : store.Lists Q)
    {device : Option Device} {block : TypeOptions} (mem : block ∈ Layer.storeBlocks store device) :
    TypeOptions.Lists Q block := by
  obtain ⟨whole, inside, rfl⟩ := Layer.exists_block_of_mem_storeBlocks mem
  exact lists whole inside

theorem OptionSet.Lists.effective {layers : List Layer} {device : Option Device}
    {type : Option TypeScope}
    (lists : ∀ layer ∈ layers, ∀ block ∈ layer.blocks device,
      TypeOptions.Lists (fun values => ∀ x ∈ values, P x) block)
    {field : Field} {x : Text}
    (mem : x ∈ (resolution layers device type).effective.elements field) : P x := by
  have blocks : ∀ block ∈ layers.flatMap (Layer.blocks device),
      TypeOptions.Lists (fun values => ∀ x ∈ values, P x) block := by
    intro block inside
    obtain ⟨layer, there, here⟩ := List.mem_flatMap.mp inside
    exact lists layer there block here
  rcases mem_elements_extendedBy.mp mem with own | any
  · rw [forType_resolution] at own
    exact Lists.mem (.foldl_overriddenBy fun block inside => (blocks block inside).typeSet type) own
  · rw [forAny_resolution] at any
    exact Lists.mem (.foldl_overriddenBy fun block inside => blocks block inside .any) any

/-- Options that set no list, not even to an empty one. -/
def TypeOptions.Silent (options : TypeOptions) : Prop := TypeOptions.Lists (fun _ => False) options

def Store.Silent (store : Store) : Prop := store.Lists fun _ => False

def ConfigDirectory.Silent (directory : ConfigDirectory) : Prop :=
  ∀ store, directory.overrides.value = some store → store.Silent

/-- A device that has no property with a name that begins as hints do. -/
def Device.Silent (device : Device) : Prop :=
  ∀ properties, device.properties = some properties →
    ∀ property ∈ properties.entries, ¬ hintMarker <+: property.1

theorem OptionSet.overriddenBy_of_silent {set upper : OptionSet}
    (silent : upper.Lists fun _ => False) : set.overriddenBy upper = set := by
  apply OptionSet.ext
  intro field
  rw [get?_overriddenBy]
  cases found : upper.get? field with
  | none => rfl
  | some values => exact (silent field values found).elim

theorem OptionSet.foldl_overriddenBy_of_silent {blocks : List TypeOptions}
    {f : TypeOptions → OptionSet} (silent : ∀ block ∈ blocks, (f block).Lists fun _ => False)
    (set : OptionSet) : blocks.foldl (fun set block => set.overriddenBy (f block)) set = set := by
  induction blocks with
  | nil => rfl
  | cons block rest ih =>
    rw [List.foldl_cons, overriddenBy_of_silent (silent block List.mem_cons_self)]
    exact ih fun other mem => silent other (List.mem_cons_of_mem _ mem)

theorem effective_append_silent {lower upper : List Layer} {device : Option Device}
    {type : Option TypeScope}
    (silent : ∀ layer ∈ upper, ∀ block ∈ layer.blocks device, block.Silent) :
    (resolution (lower ++ upper) device type).effective =
      (resolution lower device type).effective := by
  have blocks : ∀ block ∈ upper.flatMap (Layer.blocks device), TypeOptions.Silent block := by
    intro block inside
    obtain ⟨layer, there, here⟩ := List.mem_flatMap.mp inside
    exact silent layer there block here
  have forType : (resolution (lower ++ upper) device type).forType =
      (resolution lower device type).forType := by
    rw [forType_resolution, forType_resolution, List.flatMap_append, List.foldl_append]
    exact OptionSet.foldl_overriddenBy_of_silent
      (fun block mem => TypeOptions.Lists.typeSet (blocks block mem) type) _
  have forAny : (resolution (lower ++ upper) device type).forAny =
      (resolution lower device type).forAny := by
    rw [forAny_resolution, forAny_resolution, List.flatMap_append, List.foldl_append]
    exact OptionSet.foldl_overriddenBy_of_silent (fun block mem => blocks block mem .any) _
  unfold Resolution.effective
  rw [forType, forAny]

/-- Every element of a list in force is an item of an option string. -/
theorem Policy.isItem_of_mem_elements {policy : Policy} {builtinText : Text}
    (built : (Store.ofPolicyText builtinText).value = .ok policy.builtin) {device : Device}
    {typeName : Option Text} {field : Field} {x : Text}
    (mem : x ∈ (policy.effective device typeName).value.elements field) :
    OptionString.IsItem x := by
  have reading : ∀ value options, OptionString.read value = .ok options →
      ∀ x ∈ options.map MountOption.text, OptionString.IsItem x := by
    intro value options done x mem
    obtain ⟨o, inside, rfl⟩ := List.mem_map.mp mem
    exact (OptionString.isItem_of_read done inside).1
  rw [value_effective, value_layered] at mem
  refine OptionSet.Lists.effective ?_ mem
  intro layer inside block here
  simp only [Policy.layers, List.mem_append, List.mem_cons, List.mem_map,
    Option.mem_toList] at inside
  rcases inside with (rfl | ⟨store, found, rfl⟩) | ⟨hints, found, rfl⟩
  · exact (Store.Lists.ofText reading (Store.ofText_of_ofPolicyText built)).of_mem_storeBlocks here
  · obtain ⟨text, read⟩ := ConfigDirectory.ofText_of_overrides found
    exact (Store.Lists.ofText reading read).of_mem_storeBlocks here
  · obtain ⟨properties, -, rfl⟩ := Option.map_eq_some_iff.mp found
    obtain rfl := List.mem_singleton.mp here
    exact TypeOptions.Lists.ofProperties reading properties

end MountPolicy
