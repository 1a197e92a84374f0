import MountPolicy.Proofs.Answers
import MountPolicy.Proofs.SectionLines

/-! The blocks of a store by device scope. A section of a text changes the block for its
own scope and no other. Main statement: the blocks for some scopes come from the lines of
the sections that are named for them. -/
namespace MountPolicy

theorem DeviceScope.ofSection_injective {a b : Text}
    (same : DeviceScope.ofSection a = DeviceScope.ofSection b) : a = b := by
  unfold DeviceScope.ofSection at same
  split at same <;> split at same <;> simp_all

namespace Store

def restrict (store : Store) (wanted : DeviceScope → Bool) : Store :=
  ⟨store.blocks.filter fun block => wanted block.scope⟩

theorem restrict_insert (store : Store) (wanted : DeviceScope → Bool) (scope : DeviceScope)
    (options : TypeOptions) :
    (store.insert scope options).restrict wanted =
      if wanted scope then (store.restrict wanted).insert scope options
      else store.restrict wanted := by
  let change (block : Block) : Block :=
    { block with options := TypeOptions.overriddenBy block.options options }
  have fitting : ∀ block : Block, block.scope == scope → wanted block.scope = wanted scope := by
    intro block fits
    rw [beq_iff_eq.mp fits]
  have keeps : ∀ block, wanted (change block).scope = wanted block.scope := fun _ => rfl
  have blocks :
      (upsert (fun block => block.scope == scope) ⟨scope, .empty⟩ change store.blocks).filter
          (fun block => wanted block.scope) =
        if wanted scope then
          upsert (fun block => block.scope == scope) ⟨scope, .empty⟩ change
            (store.blocks.filter fun block => wanted block.scope)
        else store.blocks.filter fun block => wanted block.scope :=
    filter_upsert fitting keeps store.blocks
  unfold restrict insert
  rw [blocks]
  split <;> rfl

theorem restrict_addSection (store : Store) (wanted : DeviceScope → Bool)
    (s : KeyFile.Section) :
    (store.addSection s).value.restrict wanted =
      if wanted (.ofSection s.name) then ((store.restrict wanted).addSection s).value
      else store.restrict wanted := by
  simp only [value_addSection]
  split
  · split <;> rfl
  · exact restrict_insert ..

theorem restrict_ofSections (wanted : DeviceScope → Bool) (sections : List KeyFile.Section) :
    (ofSections sections).value.restrict wanted =
      (ofSections (sections.filter fun s => wanted (.ofSection s.name))).value := by
  have general (store : Store) :
      (sections.foldl (fun store s => (store.addSection s).value) store).restrict wanted =
        (sections.filter fun s => wanted (.ofSection s.name)).foldl
          (fun store s => (store.addSection s).value) (store.restrict wanted) := by
    induction sections generalizing store with
    | nil => rfl
    | cons s rest ih =>
      rw [List.foldl_cons, ih, restrict_addSection, List.filter_cons]
      split <;> rfl
  rw [value_ofSections, value_ofSections]
  exact general .empty

theorem ofSections_filter_orphan (sections : List KeyFile.Section) :
    (ofSections (sections.filter fun s => s.name != KeyFile.orphanName)).value =
      (ofSections sections).value := by
  have general (store : Store) :
      (sections.filter fun s => s.name != KeyFile.orphanName).foldl
          (fun store s => (store.addSection s).value) store =
        sections.foldl (fun store s => (store.addSection s).value) store := by
    induction sections generalizing store with
    | nil => rfl
    | cons s rest ih =>
      by_cases orphan : s.name = KeyFile.orphanName
      · have skipped : (store.addSection s).value = store := by
          rw [value_addSection, if_pos orphan]
        simp [orphan, skipped, ih]
      · simp [orphan, ih]
  rw [value_ofSections, value_ofSections]
  exact general .empty

/-- The blocks for the wanted scopes are those of the lines of the sections with these
scopes. Keys in front of the first header, and sections of their name, give none. -/
theorem restrict_of_read {text : Text} {sections : List KeyFile.Section}
    (done : KeyFile.read text = .ok sections) (wanted : DeviceScope → Bool) :
    (ofSections sections).value.restrict wanted =
      (ofSections (KeyFile.sections ((KeyFile.linesOf
        (fun name => name != KeyFile.orphanName && wanted (.ofSection name)) false
        (KeyFile.shownLines text)).map KeyFile.Line.ofShown))).value := by
  rw [restrict_ofSections, ← ofSections_filter_orphan, List.filter_filter]
  congr 2
  let own (name : Text) : Bool := name != KeyFile.orphanName && wanted (.ofSection name)
  have foreign : own KeyFile.orphanName = false := rfl
  exact KeyFile.filter_sections done foreign

theorem block?_restrict (store : Store) {wanted : DeviceScope → Bool} {scope : DeviceScope}
    (own : wanted scope) : (store.restrict wanted).block? scope = store.block? scope := by
  unfold restrict block?
  rw [List.find?_filter]
  congr 2
  funext block
  by_cases same : block.scope = scope <;> simp [same, own]

theorem matching?_restrict (store : Store) {wanted : DeviceScope → Bool} {path : Text}
    {links : List Text} (own : ∀ scope, scope.names path links → wanted scope) :
    (store.restrict wanted).matching? path links = store.matching? path links := by
  unfold restrict matching?
  rw [List.find?_filter]
  congr 2
  funext block
  cases named : block.scope.names path links with
  | false => simp
  | true => simp [own block.scope named]

end Store
end MountPolicy
