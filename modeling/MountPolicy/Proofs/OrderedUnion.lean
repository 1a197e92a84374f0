import Mathlib.Data.List.Basic
import Mathlib.Data.List.Induction
import MountPolicy.OptionSet

/-! Option sets joined list by list. What a list lacks is appended at its end, so its own
order stays and the order of the other one decides about the rest. Main statement: the
join is an ordered union, associative and idempotent, and it holds the same options
whichever set comes first; a list is absent only where no side has anything to say. -/
namespace MountPolicy.OptionSet

/-- The elements of `incoming` that are not `present`, each at its first place only. -/
def firstNew (present incoming : List Text) : List Text :=
  (incoming.zipIdx.filter fun (x, place) =>
    !(present ++ incoming.take place).contains x).map Prod.fst

theorem firstNew_concat (present incoming : List Text) (x : Text) :
    firstNew present (incoming ++ [x]) =
      if x ∈ present ++ incoming then firstNew present incoming
      else firstNew present incoming ++ [x] := by
  have earlier : incoming.zipIdx.filter (fun (y, place) =>
        !(present ++ (incoming ++ [x]).take place).contains y) =
      incoming.zipIdx.filter fun (y, place) =>
        !(present ++ incoming.take place).contains y := by
    apply List.filter_congr
    intro pair mem
    have inside : pair.2 ≤ incoming.length := by
      have bound := List.snd_lt_add_of_mem_zipIdx mem
      omega
    simp only [List.take_append_of_le_length inside]
  have whole : (incoming ++ [x]).take incoming.length = incoming := List.take_left
  unfold firstNew
  rw [List.zipIdx_append, List.filter_append, earlier, List.map_append, List.zipIdx_singleton,
    List.filter_cons, List.filter_nil]
  simp only [Nat.zero_add, whole, Bool.not_eq_true', List.contains_eq_mem,
    decide_eq_false_iff_not]
  by_cases known : x ∈ present ++ incoming
  · rw [if_pos known, if_neg (not_not_intro known), List.map_nil, List.append_nil]
  · rw [if_neg known, if_pos known]
    rfl

theorem union_append (a b c : List Text) : union a (b ++ c) = union (union a b) c := by
  unfold union
  rw [List.foldl_append]

theorem union_singleton (present : List Text) (x : Text) :
    union present [x] = if x ∈ present then present else present ++ [x] := rfl

theorem union_eq_append_firstNew (present incoming : List Text) :
    union present incoming = present ++ firstNew present incoming := by
  induction incoming using List.reverseRecOn with
  | nil => simp [union, firstNew]
  | append_singleton rest x ih =>
    have known : x ∈ union present rest ↔ x ∈ present ++ rest := by
      rw [mem_union, List.mem_append]
    rw [union_append, union_singleton, firstNew_concat, ih]
    rw [ih] at known
    by_cases there : x ∈ present ++ rest
    · rw [if_pos there, if_pos (known.mpr there)]
    · rw [if_neg there, if_neg (mt known.mp there), List.append_assoc]

theorem mem_of_mem_firstNew {present incoming : List Text} {x : Text}
    (mem : x ∈ firstNew present incoming) : x ∈ incoming := by
  unfold firstNew at mem
  obtain ⟨⟨y, place⟩, found, rfl⟩ := List.mem_map.mp mem
  exact List.fst_mem_of_mem_zipIdx (List.mem_of_mem_filter found)

theorem nodup_firstNew (present incoming : List Text) : (firstNew present incoming).Nodup := by
  induction incoming using List.reverseRecOn with
  | nil => exact List.nodup_nil
  | append_singleton rest x ih =>
    rw [firstNew_concat]
    split
    · exact ih
    · rename_i new
      have absent : x ∉ firstNew present rest := fun old =>
        new (List.mem_append_right present (mem_of_mem_firstNew old))
      simpa [List.nodup_append] using ⟨ih, fun y mem same => absent (same ▸ mem)⟩

theorem union_of_subset {a b : List Text} (known : b ⊆ a) : union a b = a := by
  induction b with
  | nil => rfl
  | cons x rest ih =>
    obtain ⟨here, later⟩ := List.cons_subset.mp known
    have skipped : union a (x :: rest) = union a rest := by simp [union, here]
    rw [skipped, ih later]

theorem union_assoc (a b c : List Text) : union (union a b) c = union a (union b c) := by
  induction c generalizing b with
  | nil => rfl
  | cons x rest ih =>
    have split (l : List Text) : union l (x :: rest) = union (union l [x]) rest :=
      union_append l [x] rest
    rw [split, split, ← ih]
    -- What `b` has is skipped on both sides, and what it lacks is its next element.
    by_cases known : x ∈ b
    · have outer : x ∈ union a b := mem_union.mpr (.inr known)
      rw [union_singleton, union_singleton, if_pos known, if_pos outer]
    · rw [union_singleton b, if_neg known, union_append]

theorem unionList_of_ne_nil (present : Option (List Text)) {incoming : List Text}
    (full : incoming ≠ []) :
    unionList present (some incoming) = some (union (present.getD []) incoming) := by
  cases incoming with
  | nil => exact absurd rfl full
  | cons first rest => rfl

theorem unionList_eq_none_iff {present incoming : Option (List Text)} :
    unionList present incoming = none ↔
      present = none ∧ (incoming = none ∨ incoming = some []) := by
  rcases incoming with _ | _ | ⟨first, rest⟩ <;> simp [unionList]

theorem unionList_assoc (a b c : Option (List Text)) :
    unionList (unionList a b) c = unionList a (unionList b c) := by
  rcases c with _ | _ | ⟨first, rest⟩
  · rfl
  · rfl
  · have full : union (b.getD []) (first :: rest) ≠ [] :=
      List.ne_nil_of_mem (mem_union.mpr (.inr List.mem_cons_self))
    rw [unionList_of_ne_nil b (List.cons_ne_nil _ _), unionList_of_ne_nil a full,
      unionList_of_ne_nil _ (List.cons_ne_nil _ _), getD_unionList, union_assoc]

theorem unionList_self (a b : Option (List Text)) :
    unionList (unionList a b) b = unionList a b := by
  rcases b with _ | _ | ⟨first, rest⟩
  · rfl
  · rfl
  · have known : first :: rest ⊆ union (a.getD []) (first :: rest) :=
      fun x mem => mem_union.mpr (.inr mem)
    rw [unionList_of_ne_nil a (List.cons_ne_nil _ _),
      unionList_of_ne_nil _ (List.cons_ne_nil _ _), Option.getD_some, union_of_subset known]

/-- Extending keeps every list in front and appends what is new, once and in order. It may
be done twice, or in any grouping, without a difference, and the order of the two sets
changes no membership. -/
theorem extendedBy_orderedUnion (a b c : OptionSet) :
    (∀ field,
      (a.extendedBy b).elements field =
          a.elements field ++ firstNew (a.elements field) (b.elements field) ∧
        (firstNew (a.elements field) (b.elements field)).Nodup ∧
        ((a.extendedBy b).get? field = none ↔
          a.get? field = none ∧ (b.get? field = none ∨ b.get? field = some [])) ∧
        ∀ x, x ∈ (a.extendedBy b).elements field ↔ x ∈ (b.extendedBy a).elements field) ∧
    (a.extendedBy b).extendedBy b = a.extendedBy b ∧
    (a.extendedBy b).extendedBy c = a.extendedBy (b.extendedBy c) := by
  refine ⟨?lists, ?twice, ?grouped⟩
  case lists =>
    intro field
    rw [elements_extendedBy_eq_union, elements_extendedBy_eq_union]
    refine ⟨union_eq_append_firstNew _ _, nodup_firstNew _ _, ?_, ?_⟩
    · rw [get?_extendedBy]
      exact unionList_eq_none_iff
    · intro x
      rw [mem_union, mem_union]
      exact or_comm
  case twice =>
    apply ext
    intro field
    simp only [get?_extendedBy]
    exact unionList_self _ _
  case grouped =>
    apply ext
    intro field
    simp only [get?_extendedBy]
    exact unionList_assoc _ _ _

/-- A list that is empty says nothing when it is added, though it counts where it is. -/
example : (OptionSet.extendedBy {} { allow := some [] }).get? .allow = none ∧
    (OptionSet.extendedBy { allow := some [] } {}).get? .allow = some [] := by
  decide

end MountPolicy.OptionSet
