import MountPolicy.Device
import MountPolicy.Store

/-! The option set that is in force for a filesystem type on a device. The layers
of configuration override each other list by list, the lowest first, once for the type
and once for every type; at the end the lists for every type extend those for the type. -/
namespace MountPolicy

inductive Layer where
  | builtin (store : Store)
  | global (store : Store)
  | hints (options : TypeOptions)

namespace Layer

def isOverride : Layer → Bool
  | builtin _ => false
  | global _ | hints _ => true

/-- Options of a store for a device, the lowest first: those for every device and
those of the first block that names the device. -/
def storeBlocks (store : Store) (device : Option Device) : List TypeOptions :=
  store.anyDevice?.toList ++ (device.bind fun d => store.matching? d.path d.links).toList

def blocks (device : Option Device) : Layer → List TypeOptions
  | builtin store | global store => storeBlocks store device
  | hints options => [options]

theorem exists_block_of_mem_storeBlocks {store : Store} {device : Option Device}
    {options : TypeOptions} (mem : options ∈ storeBlocks store device) :
    ∃ block ∈ store.blocks, block.options = options := by
  have found {test : Block → Bool}
      (there : (store.blocks.find? test).map Block.options = some options) :
      ∃ block ∈ store.blocks, block.options = options := by
    obtain ⟨block, isFound, same⟩ := Option.map_eq_some_iff.mp there
    exact ⟨block, List.mem_of_find?_eq_some isFound, same⟩
  rcases List.mem_append.mp mem with general | special
  · exact found (Option.mem_toList.mp general)
  · obtain ⟨d, -, there⟩ := Option.bind_eq_some_iff.mp (Option.mem_toList.mp special)
    exact found there

end Layer

open Logged

/-- The sets for the requested type and for every type, and whether a layer
above the built-in one has set any of their lists. -/
structure Resolution where
  forType : OptionSet := .empty
  forAny : OptionSet := .empty
  overridden : Bool := false
deriving DecidableEq

namespace Resolution

def typeSet (type : Option TypeScope) (options : TypeOptions) : OptionSet :=
  match type with
  | none => .empty
  | some scope => options.setFor scope

/-- Lays a block over the sets, and says whether it has a list for them. -/
def applyBlock (type : Option TypeScope) (state : Resolution) (block : TypeOptions) :
    Resolution × Bool :=
  let (forAny, anyChanged) := state.forAny.override (block.get? .any)
  let (forType, typeChanged) := state.forType.override (type.bind block.get?)
  ({ state with forType, forAny }, anyChanged || typeChanged)

def applyNext (type : Option TypeScope) (done : Resolution × Bool) (block : TypeOptions) :
    Resolution × Bool :=
  let (state, changed) := applyBlock type done.1 block
  (state, done.2 || changed)

def apply (device : Option Device) (type : Option TypeScope) (state : Resolution)
    (layer : Layer) : Resolution :=
  let (next, changed) := (layer.blocks device).foldl (applyNext type) (state, false)
  { next with overridden := next.overridden || (changed && layer.isOverride) }

def effective (state : Resolution) : OptionSet := state.forType.extendedBy state.forAny

def touches (type : Option TypeScope) (options : TypeOptions) : Bool :=
  (TypeOptions.setFor options .any).anyPresent || (typeSet type options).anyPresent

theorem applyBlock_eq (type : Option TypeScope) (state : Resolution) (block : TypeOptions) :
    applyBlock type state block =
      ({ state with
          forType := state.forType.overriddenBy (typeSet type block)
          forAny := state.forAny.overriddenBy (TypeOptions.setFor block .any) },
        touches type block) := by
  have own : (type.bind block.get?).getD .empty = typeSet type block := by
    cases type <;> rfl
  rw [applyBlock, OptionSet.override_eq, OptionSet.override_eq, own]
  rfl

theorem foldl_applyNext (type : Option TypeScope) (blocks : List TypeOptions)
    (done : Resolution × Bool) :
    blocks.foldl (applyNext type) done =
      ({ done.1 with
          forType :=
            blocks.foldl (fun set block => set.overriddenBy (typeSet type block)) done.1.forType
          forAny :=
            blocks.foldl (fun set block => set.overriddenBy (TypeOptions.setFor block .any))
              done.1.forAny },
        done.2 || blocks.any (touches type)) := by
  induction blocks generalizing done with
  | nil => exact Prod.ext rfl (Bool.or_false _).symm
  | cons block rest ih =>
    rw [List.foldl_cons, ih, applyNext, applyBlock_eq, List.any_cons, ← Bool.or_assoc]
    rfl

theorem apply_eq (device : Option Device) (type : Option TypeScope) (state : Resolution)
    (layer : Layer) :
    let blocks := layer.blocks device
    apply device type state layer =
      { forType := blocks.foldl (fun set block => set.overriddenBy (typeSet type block))
          state.forType
        forAny := blocks.foldl (fun set block => set.overriddenBy (TypeOptions.setFor block .any))
          state.forAny
        overridden := state.overridden || (layer.isOverride && blocks.any (touches type)) } := by
  intro blocks
  rw [apply, foldl_applyNext, Bool.and_comm, Bool.false_or]

end Resolution

def resolution (layers : List Layer) (device : Option Device) (type : Option TypeScope) :
    Resolution :=
  layers.foldl (Resolution.apply device type) {}

/-- The set in force. Defaults that are not the built-in ones are reported. -/
def effectiveSet (layers : List Layer) (device : Option Device) (typeName : Option Text) :
    Logged OptionSet := do
  let state := resolution layers device (typeName.map TypeScope.ofName)
  let set := state.effective
  if state.overridden && !(set.elements .defaults).isEmpty then
    report (.overridden (set.elements .defaults))
  return set

end MountPolicy
