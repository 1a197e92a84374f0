import MountPolicy.Proofs.Answers

/-! Which configuration wins. The blocks that apply to a device stand one after the
other, those of the lowest layer first. Main statement: each list of the set in force is
the one that the last of these blocks states for the type, followed by what the last
statement for every type adds to it. A list that is stated empty counts as a statement,
so it takes back what was said below. -/
namespace MountPolicy

def Block.Names (device : Device) (block : Block) : Prop :=
  ∃ name, block.scope = .named name ∧ (name = device.path ∨ name ∈ device.links)

theorem DeviceScope.names_iff {path : Text} {links : List Text} {scope : DeviceScope} :
    scope.names path links ↔ ∃ name, scope = .named name ∧ (name = path ∨ name ∈ links) := by
  cases scope with
  | any => simp [names]
  | named name => simp [names]

theorem Block.names_iff {device : Device} {block : Block} :
    block.scope.names device.path device.links ↔ block.Names device :=
  DeviceScope.names_iff

instance (device : Device) (block : Block) : Decidable (block.Names device) :=
  decidable_of_iff _ Block.names_iff

def Store.first (store : Store) (fits : Block → Prop) [DecidablePred fits] : List TypeOptions :=
  ((store.blocks.filter (fits ·)).take 1).map Block.options

/-- What the layer has for the device, the lower options first. -/
def Layer.applicable (device : Option Device) : Layer → List TypeOptions
  | .builtin store | .global store =>
    store.first (·.scope = .any) ++ device.toList.flatMap fun d => store.first (Block.Names d)
  | .hints options => [options]

/-- The list that the options state for a type, which may be empty. -/
def TypeOptions.stated? (scope : TypeScope) (field : Field) (options : TypeOptions) :
    Option (List Text) :=
  (options.get? scope).bind (·.get? field)

def lastStated? (scope : TypeScope) (field : Field) (blocks : List TypeOptions) :
    Option (List Text) :=
  (blocks.filterMap (TypeOptions.stated? scope field)).getLast?

theorem Store.first_eq_find? {store : Store} {fits : Block → Prop} [DecidablePred fits] :
    store.first fits = ((store.blocks.find? (fits ·)).map Block.options).toList := by
  rw [first, List.take_one, List.head?_filter]
  cases store.blocks.find? (fits ·) <;> rfl

theorem Layer.blocks_eq_applicable (device : Option Device) (layer : Layer) :
    layer.blocks device = layer.applicable device := by
  have general (store : Store) :
      store.anyDevice?.toList = store.first (·.scope = .any) := by
    rw [Store.first_eq_find?]
    rfl
  have special (store : Store) (d : Device) :
      (store.matching? d.path d.links).toList = store.first (Block.Names d) := by
    have same : (fun block : Block => block.scope.names d.path d.links) =
        fun block => decide (block.Names d) := by
      funext block
      rw [Bool.eq_iff_iff, Block.names_iff, decide_eq_true_iff]
    rw [Store.first_eq_find?, Store.matching?, same]
  have stored (store : Store) : storeBlocks store device =
      store.first (·.scope = .any) ++ device.toList.flatMap fun d => store.first (Block.Names d) := by
    rw [storeBlocks, general]
    cases device with
    | none => rfl
    | some d => simp [special]
  cases layer with
  | builtin store => exact stored store
  | «global» store => exact stored store
  | hints options => rfl

theorem TypeOptions.get?_setFor (options : TypeOptions) (scope : TypeScope) (field : Field) :
    (TypeOptions.setFor options scope).get? field = stated? scope field options := by
  unfold setFor stated?
  cases options.get? scope with
  | none => exact OptionSet.get?_empty field
  | some set => rfl

theorem TypeOptions.get?_overriddenBy (options upper : TypeOptions) (scope : TypeScope) :
    (options.overriddenBy upper).get? scope =
      match upper.get? scope with
      | some set => some ((TypeOptions.setFor options scope).overriddenBy set)
      | none => options.get? scope := by
  have general (entries : List (TypeScope × OptionSet)) (sorted : Increasing entries)
      (options : TypeOptions) :
      (entries.foldl (fun result entry =>
          result.insert entry.1 ((TypeOptions.setFor result entry.1).overriddenBy entry.2))
            options).get? scope =
        match entries.lookup scope with
        | some set => some ((TypeOptions.setFor options scope).overriddenBy set)
        | none => options.get? scope := by
    induction entries generalizing options with
    | nil => rfl
    | cons entry rest ih =>
      obtain ⟨other, set⟩ := entry
      obtain ⟨above, later⟩ := List.pairwise_cons.mp sorted
      rw [List.foldl_cons, ih later, SortedMap.get?_insert, setFor_insert]
      by_cases same : scope = other
      · subst same
        have absent : rest.lookup scope = none := lookup_eq_none_of_before above
        simp [absent]
      · have skipped : (scope == other) = false := beq_eq_false_iff_ne.mpr same
        simp [List.lookup_cons, skipped, same]
  exact general upper.entries upper.increasing options

theorem TypeOptions.stated?_overriddenBy (options upper : TypeOptions) (scope : TypeScope)
    (field : Field) :
    stated? scope field (options.overriddenBy upper) =
      (stated? scope field upper).or (stated? scope field options) := by
  rw [stated?, get?_overriddenBy, ← get?_setFor options, stated?]
  cases upper.get? scope with
  | none => exact (get?_setFor options scope field).symm
  | some set => exact OptionSet.get?_overriddenBy _ set field

theorem OptionSet.get?_foldl_overriddenBy (f : TypeOptions → OptionSet)
    (blocks : List TypeOptions) (start : OptionSet) (field : Field) :
    (blocks.foldl (fun set block => set.overriddenBy (f block)) start).get? field =
      (blocks.filterMap fun block => (f block).get? field).getLast?.or (start.get? field) := by
  induction blocks generalizing start with
  | nil => rfl
  | cons block rest ih =>
    rw [List.foldl_cons, ih, get?_overriddenBy, List.filterMap_cons]
    cases (f block).get? field with
    | none => rfl
    | some values =>
      rw [List.getLast?_cons]
      cases (rest.filterMap fun block => (f block).get? field).getLast? <;> rfl

theorem OptionSet.unionList_eq (present incoming : Option (List Text)) :
    unionList present incoming =
      if present = none ∧ (incoming = none ∨ incoming = some []) then none
      else some (present.getD [] ++
        ((incoming.getD []).filter (· ∉ present.getD [])).eraseDups) := by
  rcases incoming with _ | _ | ⟨x, rest⟩
  · cases present <;> simp [unionList]
  · cases present <;> simp [unionList]
  · simp [unionList, union_eq_append]

/-- Every list in force in closed form: the last statement for the type, then what it
lacks of the last statement for every type. -/
theorem get?_effectiveSet (layers : List Layer) (device : Option Device)
    (typeName : Option Text) (field : Field) :
    let blocks := layers.flatMap (Layer.applicable device)
    let any := lastStated? .any field blocks
    let own := typeName.bind fun name =>
      lastStated? (.filesystem (name.map Char.toLower)) field blocks
    (effectiveSet layers device typeName).value.get? field =
      if own = none ∧ (any = none ∨ any = some []) then none
      else some (own.getD [] ++ ((any.getD []).filter (· ∉ own.getD [])).eraseDups) := by
  intro blocks any own
  have applied : layers.flatMap (Layer.blocks device) = blocks := by
    have same : Layer.blocks device = Layer.applicable device :=
      funext (Layer.blocks_eq_applicable device)
    rw [same]
  have forAny :
      (resolution layers device (typeName.map TypeScope.ofName)).forAny.get? field = any := by
    rw [forAny_resolution, applied, OptionSet.get?_foldl_overriddenBy]
    simp only [TypeOptions.get?_setFor, OptionSet.get?_empty, Option.or_none]
    rfl
  have forType :
      (resolution layers device (typeName.map TypeScope.ofName)).forType.get? field = own := by
    rw [forType_resolution, applied, OptionSet.get?_foldl_overriddenBy]
    cases typeName with
    | none => simp [Resolution.typeSet, own]
    | some name =>
      simp only [Option.map_some, Resolution.typeSet, TypeOptions.get?_setFor,
        OptionSet.get?_empty, Option.or_none]
      rfl
  rw [value_effectiveSet, Resolution.effective, OptionSet.get?_extendedBy, forAny, forType,
    OptionSet.unionList_eq]

/-- An empty list takes back what a lower layer states, for its own type only. -/
example :
    let lower := SortedMap.ofList [(TypeScope.any, { allow := some ["ro".toList] }),
      (.filesystem "vfat".toList, { allow := some ["utf8".toList] })]
    let upper := SortedMap.ofList [(.any, { allow := some [] })]
    (effectiveSet [.hints lower, .hints upper] none (some "VFAT".toList)).value =
      { allow := some ["utf8".toList] } := by
  decide

end MountPolicy
