import Mathlib.Data.List.Nodup
import MountPolicy.Proofs.Precedence

/-! The names in a list of defaults. At the end the defaults for every type join those for
the type, and whole texts are compared there, so a name that stands in both with different
values is kept twice. Main statement: the defaults for the type come first and unchanged,
each is the first of its name, and no other name is repeated. -/
namespace MountPolicy

def specName (spec : Text) : Text := (MountOption.ofSpec spec).name

def DistinctNames (specs : List Text) : Prop := (specs.map specName).Nodup

instance (specs : List Text) : Decidable (DistinctNames specs) :=
  inferInstanceAs (Decidable (List.Nodup _))

namespace DistinctNames

variable {specs : List Text}

theorem eq_of_specName (distinct : DistinctNames specs) {x y : Text} (first : x ∈ specs)
    (second : y ∈ specs) (same : specName x = specName y) : x = y :=
  List.inj_on_of_nodup_map distinct first second same

theorem pairwise (distinct : DistinctNames specs) :
    specs.Pairwise fun x y => specName x ≠ specName y := List.pairwise_map.mp distinct

theorem find? (distinct : DistinctNames specs) {x : Text} (mem : x ∈ specs) :
    specs.find? (specName · = specName x) = some x := by
  cases found : specs.find? (specName · = specName x) with
  | none =>
    have absent := List.find?_eq_none.mp found x mem
    simp at absent
  | some y =>
    have same : specName y = specName x := by simpa using List.find?_some found
    rw [distinct.eq_of_specName (List.mem_of_find?_eq_some found) mem same]

theorem eraseDups_eq (distinct : DistinctNames specs) : specs.eraseDups = specs := by
  induction specs with
  | nil => rfl
  | cons x rest ih =>
    obtain ⟨others, later⟩ := List.pairwise_cons.mp distinct.pairwise
    have kept : rest.filter (fun y => !y == x) = rest := by
      apply List.filter_eq_self.mpr
      intro y mem
      have differ : y ≠ x := fun same => others y mem (same ▸ rfl)
      simpa using differ
    rw [List.eraseDups_cons, kept, ih (List.pairwise_map.mpr later)]

end DistinctNames

def Layer.sources : Layer → List TypeOptions
  | builtin store | «global» store => store.blocks.map Block.options
  | hints options => [options]

/-- No list of defaults of the layer has a name twice. -/
def Layer.DistinctDefaults (layer : Layer) : Prop :=
  ∀ options ∈ layer.sources, ∀ entry ∈ options.entries,
    DistinctNames (entry.2.elements .defaults)

instance (layer : Layer) : Decidable layer.DistinctDefaults :=
  inferInstanceAs (Decidable (∀ options ∈ layer.sources, ∀ entry ∈ options.entries, _))

theorem Layer.mem_sources {layer : Layer} {device : Option Device} {options : TypeOptions}
    (mem : options ∈ layer.blocks device) : options ∈ layer.sources := by
  have stored (store : Store) (there : options ∈ storeBlocks store device) :
      options ∈ store.blocks.map Block.options :=
    List.mem_map.mpr (exists_block_of_mem_storeBlocks there)
  cases layer with
  | builtin store => exact stored store mem
  | «global» store => exact stored store mem
  | hints options => exact mem

theorem Layer.DistinctDefaults.setFor {layer : Layer} (distinct : layer.DistinctDefaults)
    {options : TypeOptions} (mem : options ∈ layer.sources) (scope : TypeScope) :
    DistinctNames ((TypeOptions.setFor options scope).elements .defaults) := by
  unfold TypeOptions.setFor
  cases found : options.get? scope with
  | none => exact List.nodup_nil
  | some set => exact distinct options mem (scope, set) (SortedMap.mem_of_get? found)

theorem DistinctNames.foldl_overriddenBy {blocks : List TypeOptions} {f : TypeOptions → OptionSet}
    {field : Field} (each : ∀ block ∈ blocks, DistinctNames ((f block).elements field)) :
    DistinctNames ((blocks.foldl (fun set block => set.overriddenBy (f block))
      OptionSet.empty).elements field) := by
  unfold OptionSet.elements
  rw [OptionSet.get?_foldl_overriddenBy, OptionSet.get?_empty, Option.or_none]
  cases last : (blocks.filterMap fun block => (f block).get? field).getLast? with
  | none => exact List.nodup_nil
  | some values =>
    obtain ⟨block, mem, stated⟩ := List.mem_filterMap.mp (List.mem_of_getLast? last)
    have own : (f block).elements field = values := by simp [OptionSet.elements, stated]
    exact own ▸ each block mem

section Resolution

variable {layers : List Layer} {device : Option Device} {type : Option TypeScope}
  (distinct : ∀ layer ∈ layers, layer.DistinctDefaults)
include distinct

theorem distinctNames_setFor {options : TypeOptions}
    (mem : options ∈ layers.flatMap (Layer.blocks device)) (scope : TypeScope) :
    DistinctNames ((TypeOptions.setFor options scope).elements .defaults) := by
  obtain ⟨layer, inside, here⟩ := List.mem_flatMap.mp mem
  exact (distinct layer inside).setFor (Layer.mem_sources here) scope

theorem distinctNames_forType :
    DistinctNames ((resolution layers device type).forType.elements .defaults) := by
  rw [forType_resolution]
  apply DistinctNames.foldl_overriddenBy
  intro options mem
  cases type with
  | none => exact List.nodup_nil
  | some scope => exact distinctNames_setFor distinct mem scope

theorem distinctNames_forAny :
    DistinctNames ((resolution layers device type).forAny.elements .defaults) := by
  rw [forAny_resolution]
  apply DistinctNames.foldl_overriddenBy
  intro options mem
  exact distinctNames_setFor distinct mem .any

end Resolution

/-- Defaults in force by name. Those for the type stand first, as they are, and each is the
first of its name. Behind them stand those for every type whose texts are new. Two
options have one name only if the first is for the type and the second a different text for
every type. -/
theorem defaults_effectiveSet (layers : List Layer) (device : Option Device)
    (typeName : Option Text) (distinct : ∀ layer ∈ layers, layer.DistinctDefaults) :
    let state := resolution layers device (typeName.map TypeScope.ofName)
    let own := state.forType.elements .defaults
    let any := state.forAny.elements .defaults
    let specs := (effectiveSet layers device typeName).value.elements .defaults
    specs = own ++ any.filter (· ∉ own) ∧
      (∀ x ∈ own, specs.find? (specName · = specName x) = some x) ∧
      specs.Pairwise (fun x y => specName x = specName y → x ∈ own ∧ y ∈ any ∧ y ∉ own) ∧
      (DistinctNames specs ↔ ∀ x ∈ own, ∀ y ∈ any, specName x = specName y → x = y) := by
  intro state own any specs
  have ownDistinct : DistinctNames own := distinctNames_forType distinct
  have anyDistinct : DistinctNames any := distinctNames_forAny distinct
  have newDistinct : DistinctNames (any.filter (· ∉ own)) :=
    anyDistinct.sublist (List.filter_sublist.map specName)
  have whole : specs = own ++ any.filter (· ∉ own) := by
    have merged : specs = own ++ (any.filter (· ∉ own)).eraseDups := by
      change OptionSet.elements (effectiveSet layers device typeName).value .defaults = _
      rw [value_effectiveSet]
      exact OptionSet.elements_extendedBy state.forType state.forAny .defaults
    rw [merged, newDistinct.eraseDups_eq]
  have new {y : Text} : y ∈ any.filter (· ∉ own) ↔ y ∈ any ∧ y ∉ own := by simp
  refine ⟨whole, ?first, ?repeated, ?unique⟩
  case first =>
    intro x mem
    rw [whole, List.find?_append, ownDistinct.find? mem, Option.some_or]
  case repeated =>
    rw [whole]
    refine List.pairwise_append.mpr ⟨?_, ?_, ?_⟩
    · exact ownDistinct.pairwise.imp fun differ same => absurd same differ
    · exact newDistinct.pairwise.imp fun differ same => absurd same differ
    · intro x inOwn y inNew _
      exact ⟨inOwn, new.mp inNew⟩
  case unique =>
    unfold DistinctNames
    rw [whole, List.map_append, List.nodup_append]
    constructor
    · rintro ⟨-, -, apart⟩ x inOwn y inAny same
      by_cases known : y ∈ own
      · exact ownDistinct.eq_of_specName inOwn known same
      · have added : specName y ∈ (any.filter (· ∉ own)).map specName :=
          List.mem_map_of_mem (new.mpr ⟨inAny, known⟩)
        exact absurd same (apart _ (List.mem_map_of_mem inOwn) _ added)
    · intro agree
      refine ⟨ownDistinct, newDistinct, ?_⟩
      -- A new text whose name is already there would have to be the same text.
      intro a inOwn b inNew same
      obtain ⟨x, ownMem, rfl⟩ := List.mem_map.mp inOwn
      obtain ⟨y, newMem, rfl⟩ := List.mem_map.mp inNew
      obtain ⟨anyMem, absent⟩ := new.mp newMem
      exact absent (agree x ownMem y anyMem same ▸ ownMem)

def umaskText : String := "[defaults]\ndefaults=umask=022\nvfat_defaults=umask=077\n"

def umaskStore : Store :=
  ⟨[⟨.any, .ofList [(.any, { defaults := some ["umask=022".toList] }),
    (.filesystem "vfat".toList, { defaults := some ["umask=077".toList] })]⟩]⟩

theorem defaults_effectiveSet_umask :
    (∀ layer ∈ [Layer.global umaskStore], layer.DistinctDefaults) ∧
      ((effectiveSet [.global umaskStore] none (some "vfat".toList)).value.elements
        .defaults).find? (specName · = "umask".toList) = some "umask=077".toList := by
  have distinct : ∀ layer ∈ [Layer.global umaskStore], layer.DistinctDefaults := by decide +kernel
  have own : "umask=077".toList ∈ (resolution [.global umaskStore] none
      (some (TypeScope.ofName "vfat".toList))).forType.elements .defaults := by decide +kernel
  obtain ⟨-, first, -, -⟩ :=
    defaults_effectiveSet [.global umaskStore] none (some "vfat".toList) distinct
  exact ⟨distinct, first _ own⟩

theorem repeatedName_effectiveSet :
    (Store.ofText umaskText.toList).value = .ok umaskStore ∧
      (∀ layer ∈ [Layer.global umaskStore], layer.DistinctDefaults) ∧
      (effectiveSet [.global umaskStore] none (some "vfat".toList)).value.elements .defaults =
        ["umask=077".toList, "umask=022".toList] ∧
      ¬ DistinctNames ((effectiveSet [.global umaskStore] none
        (some "vfat".toList)).value.elements .defaults) := by
  decide +kernel

end MountPolicy
