import MountPolicy.Proofs.Precedence

/-! Whether the built-in options are overridden. A layer above the built-in one overrides them
with any list that it has for the device and the type or for every type, even an empty one or
the list that was there. Main statement: it is known at the end whether a layer did, and the
defaults in force are reported then, once, unless there are none. -/
namespace MountPolicy

/-- The layer is above the built-in one, and options of it for the device have a list for
the type of that name or for every type. -/
def Layer.Overrides (device : Option Device) (typeName : Option Text) (layer : Layer) : Prop :=
  (∀ store, layer ≠ .builtin store) ∧
    ∃ options ∈ layer.applicable device, ∃ field,
      (TypeOptions.stated? .any field options).isSome ∨
      ∃ name, typeName = some name ∧
        (TypeOptions.stated? (.filesystem (name.map Char.toLower)) field options).isSome

namespace Resolution

theorem anyPresent_setFor_iff {options : TypeOptions} {scope : TypeScope} :
    (TypeOptions.setFor options scope).anyPresent ↔
      ∃ field, (TypeOptions.stated? scope field options).isSome := by
  simp only [OptionSet.anyPresent_iff, TypeOptions.get?_setFor]

theorem touches_iff {typeName : Option Text} {options : TypeOptions} :
    touches (typeName.map TypeScope.ofName) options ↔ ∃ field,
      (TypeOptions.stated? .any field options).isSome ∨
      ∃ name, typeName = some name ∧
        (TypeOptions.stated? (.filesystem (name.map Char.toLower)) field options).isSome := by
  rw [touches, Bool.or_eq_true, anyPresent_setFor_iff, exists_or]
  refine or_congr_right ?_
  cases typeName with
  | none => simp [typeSet, OptionSet.anyPresent_iff]
  | some name =>
    rw [Option.map_some, typeSet, anyPresent_setFor_iff]
    simp [TypeScope.ofName, Text.lowercase]

theorem isOverride_iff {layer : Layer} :
    layer.isOverride ↔ ∀ store, layer ≠ .builtin store := by
  cases layer <;> simp [Layer.isOverride]

variable (device : Option Device) (typeName : Option Text)

theorem overridden_apply (state : Resolution) (layer : Layer) :
    (state.apply device (typeName.map TypeScope.ofName) layer).overridden = true ↔
      state.overridden = true ∨ layer.Overrides device typeName := by
  rw [apply_eq, Layer.Overrides, ← isOverride_iff, ← Layer.blocks_eq_applicable]
  simp only [Bool.or_eq_true, Bool.and_eq_true, List.any_eq_true, touches_iff]

theorem overridden_foldl_apply (layers : List Layer) (state : Resolution) :
    (layers.foldl (apply device (typeName.map TypeScope.ofName)) state).overridden = true ↔
      state.overridden = true ∨ ∃ layer ∈ layers, layer.Overrides device typeName := by
  induction layers generalizing state with
  | nil => simp
  | cons layer rest ih =>
    rw [List.foldl_cons, ih, overridden_apply, or_assoc]
    simp only [List.mem_cons, exists_eq_or_imp]

end Resolution

theorem notices_effectiveSet (layers : List Layer) (device : Option Device)
    (typeName : Option Text) :
    let defaults := (effectiveSet layers device typeName).value.elements .defaults
    (effectiveSet layers device typeName).notices =
      if (resolution layers device (typeName.map TypeScope.ofName)).overridden ∧ defaults ≠ [] then
        [.overridden defaults]
      else [] := by
  rw [value_effectiveSet]
  unfold effectiveSet
  dsimp only
  cases (resolution layers device (typeName.map TypeScope.ofName)).overridden with
  | false => rfl
  | true =>
    cases (resolution layers device (typeName.map TypeScope.ofName)).effective.elements .defaults
    · rfl
    · rfl

/-- The built-in options count as overridden exactly if a layer above them has a list for the
device that is asked for, wherever that layer stands; a built-in layer changes nothing about
it, and no layer takes it back. Then, and only then, the defaults in force are reported. -/
theorem overridden_effectiveSet (layers : List Layer) (device : Option Device)
    (typeName : Option Text) :
    let apply := Resolution.apply device (typeName.map TypeScope.ofName)
    let last := layers.foldl apply {}
    let answer := effectiveSet layers device typeName
    let defaults := answer.value.elements .defaults
    (last.overridden ↔ ∃ layer ∈ layers, layer.Overrides device typeName) ∧
      (∀ state store, (apply state (.builtin store)).overridden = state.overridden) ∧
      (∀ state layer, (apply state layer).overridden ↔
        state.overridden ∨ layer.Overrides device typeName) ∧
      answer.notices.map Notice.message =
        if last.overridden ∧ defaults ≠ [] then
          ["Using overridden mount options: ".toList ++ Text.commaSeparated defaults]
        else [] := by
  intro apply last answer defaults
  refine ⟨?flag, ?builtin, ?step, ?notice⟩
  case flag =>
    have whole := Resolution.overridden_foldl_apply device typeName layers {}
    simpa using whole
  case builtin =>
    intro state store
    have closed := Resolution.apply_eq device (typeName.map TypeScope.ofName) state (.builtin store)
    exact (congrArg Resolution.overridden closed).trans (Bool.or_false _)
  case step => exact Resolution.overridden_apply device typeName
  case notice =>
    have notices : answer.notices = _ := notices_effectiveSet layers device typeName
    rw [notices, apply_ite (List.map Notice.message)]
    rfl

/-- An empty list overrides too, but without defaults there is nothing to report. -/
example :
    let hints := Layer.hints (.ofList [(.any, { allow := some [] })])
    (resolution [hints, .builtin .empty] none none).overridden = true ∧
      (effectiveSet [hints, .builtin .empty] none none).notices = [] := by
  decide

end MountPolicy
