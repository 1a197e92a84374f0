import Mathlib.Data.List.Basic
import Mathlib.Data.List.Induction
import Mathlib.Tactic.Tauto
import MountPolicy.Proofs.Precedence
import MountPolicy.Proofs.SectionBlocks

/-! Stores as what was inserted into them. A scope gets its block with the first insertion
for it and keeps that place. Main statement: the blocks are in order of first insertion, each
of their lists is the one that the last insertion for the scope states, and a device is
matched by the first block with one of its names. -/
namespace MountPolicy

namespace DeviceScope

theorem names_congr {path : Text} {links others : List Text}
    (same : ∀ name, name ∈ links ↔ name ∈ others) : names path links = names path others := by
  funext scope
  rw [Bool.eq_iff_iff, names_iff, names_iff]
  exact exists_congr fun name => and_congr_right fun _ => or_congr_right (same name)

end DeviceScope

namespace TypeOptions

theorem stated?_foldl_overriddenBy (type : TypeScope) (field : Field) (upper : List TypeOptions)
    (options : TypeOptions) :
    stated? type field (upper.foldl TypeOptions.overriddenBy options) =
      (lastStated? type field upper).or (stated? type field options) := by
  induction upper using List.reverseRecOn with
  | nil => rfl
  | append_singleton upper last ih =>
    rw [List.foldl_concat, stated?_overriddenBy, ih, lastStated?, lastStated?,
      List.filterMap_append, List.getLast?_append]
    cases stated : stated? type field last <;> simp [stated]

theorem isSome_get?_foldl_overriddenBy_iff (type : TypeScope) (upper : List TypeOptions)
    (options : TypeOptions) :
    ((upper.foldl TypeOptions.overriddenBy options).get? type).isSome ↔
      (∃ block ∈ upper, (block.get? type).isSome) ∨ (options.get? type).isSome := by
  induction upper using List.reverseRecOn with
  | nil => simp
  | append_singleton upper last ih =>
    rw [List.foldl_concat, get?_overriddenBy]
    cases found : last.get? type with
    | none => simp [ih, found, or_and_right, exists_or]
    | some set => simp [found, or_and_right, exists_or]

end TypeOptions

namespace Store

def ofInsertions (insertions : List (DeviceScope × TypeOptions)) : Store :=
  insertions.foldl (fun store insertion => store.insert insertion.1 insertion.2) .empty

/-- What was inserted for the scope, in order. -/
def insertedFor (scope : DeviceScope) (insertions : List (DeviceScope × TypeOptions)) :
    List TypeOptions :=
  (insertions.filter (·.1 = scope)).map Prod.snd

theorem scopes_insert (store : Store) (scope : DeviceScope) (options : TypeOptions) :
    (store.insert scope options).blocks.map Block.scope =
      if scope ∈ store.blocks.map Block.scope then store.blocks.map Block.scope
      else store.blocks.map Block.scope ++ [scope] := by
  apply map_upsert Block.scope ⟨scope, .empty⟩
  intro block
  rfl

theorem block?_insert (store : Store) (scope other : DeviceScope) (options : TypeOptions) :
    (store.insert scope options).block? other =
      if other = scope then
        some (TypeOptions.overriddenBy ((store.block? scope).getD .empty) options)
      else store.block? other := by
  split
  · rename_i same
    subst same
    let fits (block : Block) : Bool := block.scope == other
    let change (block : Block) : Block :=
      { block with options := TypeOptions.overriddenBy block.options options }
    have isFresh : fits ⟨other, .empty⟩ := beq_self_eq_true other
    have keeps : ∀ block, fits block → fits (change block) := fun _ own => own
    change ((upsert fits ⟨other, .empty⟩ change store.blocks).find? fits).map Block.options =
      some (TypeOptions.overriddenBy
        (((store.blocks.find? fits).map Block.options).getD .empty) options)
    rw [find?_upsert isFresh keeps]
    cases store.blocks.find? fits <;> rfl
  · rename_i differ
    -- The store cut down to the other scope has nothing of the insertion.
    let wanted (s : DeviceScope) : Bool := s == other
    have own : wanted other := beq_self_eq_true other
    have foreign : ¬ wanted scope := fun same => differ (beq_iff_eq.mp same).symm
    rw [← block?_restrict _ own, restrict_insert, if_neg foreign, block?_restrict _ own]

theorem isSome_block?_iff (store : Store) {scope : DeviceScope} :
    (store.block? scope).isSome ↔ scope ∈ store.blocks.map Block.scope := by
  simp [block?, List.find?_isSome]

section Insertions

variable (insertions : List (DeviceScope × TypeOptions))

theorem ofInsertions_concat (insertion : DeviceScope × TypeOptions) :
    ofInsertions (insertions ++ [insertion]) =
      (ofInsertions insertions).insert insertion.1 insertion.2 :=
  List.foldl_concat ..

theorem insertedFor_concat (scope : DeviceScope) (insertion : DeviceScope × TypeOptions) :
    insertedFor scope (insertions ++ [insertion]) =
      insertedFor scope insertions ++ if insertion.1 = scope then [insertion.2] else [] := by
  rw [insertedFor, List.filter_append, List.map_append, ← insertedFor]
  by_cases own : insertion.1 = scope <;> simp [own]

theorem insertedFor_eq_nil_iff {scope : DeviceScope} :
    insertedFor scope insertions = [] ↔ scope ∉ insertions.map Prod.fst := by
  simp only [insertedFor, List.map_eq_nil_iff, List.filter_eq_nil_iff, decide_eq_true_eq,
    List.mem_map, not_exists, not_and]

theorem block?_ofInsertions (scope : DeviceScope) :
    (ofInsertions insertions).block? scope =
      if insertedFor scope insertions = [] then none
      else some ((insertedFor scope insertions).foldl TypeOptions.overriddenBy .empty) := by
  induction insertions using List.reverseRecOn with
  | nil => rfl
  | append_singleton insertions insertion ih =>
    rw [ofInsertions_concat, block?_insert, insertedFor_concat]
    by_cases own : insertion.1 = scope
    · have below : ((ofInsertions insertions).block? scope).getD .empty =
          (insertedFor scope insertions).foldl TypeOptions.overriddenBy .empty := by
        rw [ih]
        split
        · rename_i nothing
          rw [nothing]
          rfl
        · rfl
      rw [if_pos own.symm, if_pos own, own, below, List.foldl_concat, if_neg (by simp)]
    · rw [if_neg (Ne.symm own), if_neg own, List.append_nil, ih]

theorem isSome_block?_ofInsertions_iff {scope : DeviceScope} :
    ((ofInsertions insertions).block? scope).isSome ↔ scope ∈ insertions.map Prod.fst := by
  rw [block?_ofInsertions, ← not_iff_not, ← insertedFor_eq_nil_iff]
  split <;> simp_all

theorem mem_scopes_ofInsertions_iff {scope : DeviceScope} :
    scope ∈ (ofInsertions insertions).blocks.map Block.scope ↔
      scope ∈ insertions.map Prod.fst := by
  rw [← isSome_block?_iff, isSome_block?_ofInsertions_iff]

theorem pairwise_scopes_ofInsertions :
    ((ofInsertions insertions).blocks.map Block.scope).Pairwise fun a b =>
      (insertions.map Prod.fst).idxOf a < (insertions.map Prod.fst).idxOf b := by
  induction insertions using List.reverseRecOn with
  | nil => exact List.Pairwise.nil
  | append_singleton insertions insertion ih =>
    -- A scope that is known keeps its first insertion, so only a new one has to be placed.
    have given : ∀ scope ∈ (ofInsertions insertions).blocks.map Block.scope,
        ((insertions ++ [insertion]).map Prod.fst).idxOf scope =
          (insertions.map Prod.fst).idxOf scope := by
      intro scope mem
      rw [List.map_append, List.idxOf_append_of_mem
        ((mem_scopes_ofInsertions_iff insertions).mp mem)]
    have kept : ((ofInsertions insertions).blocks.map Block.scope).Pairwise fun a b =>
        ((insertions ++ [insertion]).map Prod.fst).idxOf a <
          ((insertions ++ [insertion]).map Prod.fst).idxOf b := by
      refine ih.imp_of_mem ?_
      intro a b here there before
      rwa [given a here, given b there]
    rw [ofInsertions_concat, scopes_insert]
    split
    · exact kept
    · rename_i new
      refine List.pairwise_append.mpr ⟨kept, List.pairwise_singleton _ _, ?_⟩
      intro scope mem last isLast
      obtain rfl := List.mem_singleton.mp isLast
      have absent : insertion.1 ∉ insertions.map Prod.fst :=
        mt (mem_scopes_ofInsertions_iff insertions).mpr new
      rw [given scope mem, List.map_append, List.idxOf_append, if_neg absent]
      have inside := List.idxOf_lt_length_of_mem ((mem_scopes_ofInsertions_iff insertions).mp mem)
      omega

theorem nodup_scopes_ofInsertions :
    ((ofInsertions insertions).blocks.map Block.scope).Nodup := by
  refine (pairwise_scopes_ofInsertions insertions).imp ?_
  rintro a _ before rfl
  exact Nat.lt_irrefl _ before

theorem isSome_get?_block?_ofInsertions_iff (scope : DeviceScope) (type : TypeScope) :
    (((ofInsertions insertions).block? scope).bind (·.get? type)).isSome ↔
      ∃ options ∈ insertedFor scope insertions, (options.get? type).isSome := by
  rw [block?_ofInsertions]
  split
  · rename_i nothing
    simp [nothing]
  · rw [Option.bind_some, TypeOptions.isSome_get?_foldl_overriddenBy_iff, SortedMap.get?_empty]
    simp

theorem stated?_block?_ofInsertions (scope : DeviceScope) (type : TypeScope) (field : Field) :
    ((ofInsertions insertions).block? scope).bind (TypeOptions.stated? type field) =
      lastStated? type field (insertedFor scope insertions) := by
  rw [block?_ofInsertions]
  split
  · rename_i nothing
    rw [nothing]
    rfl
  · rw [Option.bind_some, TypeOptions.stated?_foldl_overriddenBy]
    exact Option.or_none

end Insertions

section Cut

variable {store : Store} {earlier later : List Block} {block : Block}

theorem block?_of_cut (cut : store.blocks = earlier ++ block :: later)
    (new : block.scope ∉ earlier.map Block.scope) :
    store.block? block.scope = some block.options := by
  have found : store.blocks.find? (fun other => other.scope = block.scope) = some block := by
    refine List.find?_eq_some_iff_append.mpr ⟨by simp, earlier, later, cut, ?_⟩
    intro other mem
    have differ : other.scope ≠ block.scope := fun same =>
      new (List.mem_map.mpr ⟨other, mem, same⟩)
    simpa using differ
  rw [block?, found, Option.map_some]

theorem matching?_of_cut {path : Text} {links : List Text}
    (cut : store.blocks = earlier ++ block :: later) (own : block.scope.names path links)
    (others : ∀ other ∈ earlier, ¬ other.scope.names path links) :
    store.matching? path links = some block.options := by
  have found : store.blocks.find? (fun other => other.scope.names path links) = some block := by
    refine List.find?_eq_some_iff_append.mpr ⟨own, earlier, later, cut, ?_⟩
    intro other mem
    simpa using others other mem
  rw [matching?, found, Option.map_some]

end Cut

theorem matching?_eq_some_iff {store : Store} {path : Text} {links : List Text}
    {options : TypeOptions} :
    store.matching? path links = some options ↔
      ∃ earlier name later,
        store.blocks.map Block.scope = earlier ++ .named name :: later ∧
          (name = path ∨ name ∈ links) ∧
          (∀ other, .named other ∈ earlier → ¬ (other = path ∨ other ∈ links)) ∧
          store.block? (.named name) = some options := by
  constructor
  · intro found
    obtain ⟨block, first, rfl⟩ := Option.map_eq_some_iff.mp found
    obtain ⟨own, earlier, later, cut, others⟩ := List.find?_eq_some_iff_append.mp first
    obtain ⟨name, scope, fits⟩ := DeviceScope.names_iff.mp own
    have unfit : ∀ other, .named other ∈ earlier.map Block.scope →
        ¬ (other = path ∨ other ∈ links) := by
      intro other mem fitsToo
      obtain ⟨front, there, named⟩ := List.mem_map.mp mem
      have silent := others front there
      simp [DeviceScope.names_iff.mpr ⟨other, named, fitsToo⟩] at silent
    refine ⟨earlier.map Block.scope, name, later.map Block.scope, ?_, fits, unfit, ?_⟩
    · rw [cut, List.map_append, List.map_cons, scope]
    · rw [← scope]
      apply block?_of_cut cut
      intro known
      exact unfit name (scope ▸ known) fits
  · rintro ⟨front, name, back, scopes, fits, unfit, there⟩
    obtain ⟨earlier, rest, cut, rfl, behind⟩ := List.map_eq_append_iff.mp scopes
    obtain ⟨block, later, rfl, scope, -⟩ := List.map_eq_cons_iff.mp behind
    have new : block.scope ∉ earlier.map Block.scope := by
      intro known
      exact unfit name (scope ▸ known) fits
    rw [← scope, block?_of_cut cut new] at there
    rw [matching?_of_cut cut (DeviceScope.names_iff.mpr ⟨name, scope, fits⟩), there]
    intro other mem own
    obtain ⟨otherName, otherScope, otherFits⟩ := DeviceScope.names_iff.mp own
    exact unfit otherName (List.mem_map.mpr ⟨other, mem, otherScope⟩) otherFits

/-- A store is a map in which the last insertion of each list stands, with the scopes in
the order in which they first came. A device gets the first block that is named like it,
whatever the order of its links. -/
theorem ofInsertions_lastInsertion (insertions : List (DeviceScope × TypeOptions)) :
    let store := ofInsertions insertions
    let scopes := store.blocks.map Block.scope
    let given := insertions.map Prod.fst
    (scopes.Nodup ∧ scopes.Pairwise fun a b => given.idxOf a < given.idxOf b) ∧
      (∀ scope, (store.block? scope).isSome ↔ scope ∈ given) ∧
      (∀ scope type, ((store.block? scope).bind (·.get? type)).isSome ↔
        ∃ options, (scope, options) ∈ insertions ∧ (options.get? type).isSome) ∧
      (∀ scope type field,
        (store.block? scope).bind (TypeOptions.stated? type field) =
          lastStated? type field (insertedFor scope insertions)) ∧
      (∀ path links options, store.matching? path links = some options ↔
        ∃ earlier name later, scopes = earlier ++ .named name :: later ∧
          (name = path ∨ name ∈ links) ∧
          (∀ other, .named other ∈ earlier → ¬ (other = path ∨ other ∈ links)) ∧
          store.block? (.named name) = some options) ∧
      ∀ path links others, (∀ name, name ∈ links ↔ name ∈ others) →
        store.matching? path links = store.matching? path others := by
  intro store scopes given
  refine ⟨?order, ?blocks, ?types, ?lists, ?matched, ?links⟩
  case order => exact ⟨nodup_scopes_ofInsertions _, pairwise_scopes_ofInsertions _⟩
  case blocks =>
    intro scope
    exact isSome_block?_ofInsertions_iff _
  case types =>
    intro scope type
    rw [isSome_get?_block?_ofInsertions_iff]
    simp [insertedFor]
  case lists =>
    intro scope type field
    exact stated?_block?_ofInsertions _ scope type field
  case matched =>
    intro path links options
    exact matching?_eq_some_iff
  case links =>
    intro path links others same
    unfold matching?
    rw [DeviceScope.names_congr same]

/-- Two names of one device, one of them inserted for twice. -/
def twiceInserted : List (DeviceScope × TypeOptions) :=
  [(.named "/dev/disk/stick".toList,
      SortedMap.ofList [(.any, { defaults := some ["ro".toList], allow := some [] })]),
    (.any, .empty),
    (.named "/dev/sdb1".toList, SortedMap.ofList [(.any, { defaults := some ["rw".toList] })]),
    (.named "/dev/disk/stick".toList,
      SortedMap.ofList [(.any, { defaults := some ["sync".toList] })])]

theorem ofInsertions_lastInsertion_twiceInserted :
    let store := ofInsertions twiceInserted
    let links := ["/dev/disk/usb".toList, "/dev/disk/stick".toList]
    let others := ["/dev/disk/stick".toList, "/dev/disk/usb".toList, "/dev/disk/stick".toList]
    (∀ name, name ∈ links ↔ name ∈ others) ∧
      store.matching? "/dev/sdb1".toList links = store.matching? "/dev/sdb1".toList others ∧
      store.matching? "/dev/sdb1".toList links = store.block? (.named "/dev/disk/stick".toList) ∧
      (store.block? (.named "/dev/disk/stick".toList)).bind
        (TypeOptions.stated? .any .defaults) = some ["sync".toList] := by
  intro store links others
  obtain ⟨-, -, -, lists, -, matched⟩ := ofInsertions_lastInsertion twiceInserted
  have same : ∀ name, name ∈ links ↔ name ∈ others := by
    intro name
    simp only [links, others, List.mem_cons, List.not_mem_nil, or_false]
    tauto
  refine ⟨same, matched _ links others same, ?_, ?_⟩
  · decide +kernel
  · rw [lists]
    decide +kernel

end Store

end MountPolicy
