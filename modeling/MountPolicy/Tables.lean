import MountPolicy.Text

/-! Lists and maps that grow by key. A list in order of first appearance
has the first element that fits changed, or a new one appended. A list in which a later
entry replaces an earlier one is read by its last entry that fits. A finite map is kept in
strictly increasing order of its keys, so a map is visited in key order and two maps with
the same look-ups are the same map. Main statements: look-up after an insertion, and
equality from equal look-ups. -/
namespace MountPolicy

section Upsert

variable {α : Type}

/-- Changes the first element with `fits`, or appends `change fresh` if there is none. -/
def upsert (fits : α → Bool) (fresh : α) (change : α → α) : List α → List α
  | [] => [change fresh]
  | x :: rest => if fits x then change x :: rest else x :: upsert fits fresh change rest

theorem find?_upsert {fits : α → Bool} {change : α → α} {fresh : α} (isFresh : fits fresh)
    (keeps : ∀ x, fits x → fits (change x)) (items : List α) :
    (upsert fits fresh change items).find? fits =
      some (change ((items.find? fits).getD fresh)) := by
  induction items with
  | nil => simp [upsert, keeps fresh isFresh]
  | cons x rest ih =>
    simp only [upsert]
    by_cases here : fits x
    · simp [here, keeps x here]
    · simp [here, ih]

theorem filter_upsert {fits keep : α → Bool} {change : α → α} {fresh : α}
    (fitting : ∀ x, fits x → keep x = keep fresh) (same : ∀ x, keep (change x) = keep x)
    (items : List α) :
    (upsert fits fresh change items).filter keep =
      if keep fresh then upsert fits fresh change (items.filter keep) else items.filter keep := by
  induction items with
  | nil => cases kept : keep fresh <;> simp [upsert, same, kept]
  | cons x rest ih =>
    simp only [upsert]
    by_cases here : fits x
    · have whole : keep x = keep fresh := fitting x here
      cases kept : keep fresh <;> simp [here, same, whole, kept, upsert]
    · simp only [here, Bool.false_eq_true, if_false, List.filter_cons, ih]
      cases keep x <;> cases keep fresh <;> simp [upsert, here]

theorem map_upsert {κ : Type} [DecidableEq κ] (key : α → κ) {change : α → α} (fresh : α)
    (same : ∀ x, key (change x) = key x) (items : List α) :
    (upsert (fun x => key x == key fresh) fresh change items).map key =
      if key fresh ∈ items.map key then items.map key else items.map key ++ [key fresh] := by
  induction items with
  | nil => simp [upsert, same]
  | cons x rest ih =>
    simp only [upsert]
    by_cases here : key x = key fresh
    · simp [here, same]
    · have differ : key fresh ≠ key x := Ne.symm here
      by_cases later : key fresh ∈ rest.map key <;> simp_all

end Upsert

section LastImage

variable {α β : Type} {f : α → Option β}

theorem getLast?_filterMap_iff {items : List α} {y : β} :
    (items.filterMap f).getLast? = some y ↔
      ∃ before x after, items = before ++ x :: after ∧ f x = some y ∧ ∀ z ∈ after, f z = none := by
  rw [List.getLast?_filterMap, List.findSome?_eq_some_iff]
  constructor
  · rintro ⟨after, x, before, reversed, image, silent⟩
    refine ⟨before.reverse, x, after.reverse, ?_, image, ?_⟩
    · simpa using congrArg List.reverse reversed
    · intro z mem
      exact silent z (List.mem_reverse.mp mem)
  · rintro ⟨before, x, after, rfl, image, silent⟩
    refine ⟨after.reverse, x, before.reverse, by simp, image, ?_⟩
    intro z mem
    exact silent z (List.mem_reverse.mp mem)

theorem findSome?_eq_bind_find? {p : α → Bool} {items : List α}
    (others : ∀ x ∈ items, p x = false → f x = none) (own : ∀ x ∈ items, p x → (f x).isSome) :
    items.findSome? f = (items.find? p).bind f := by
  induction items with
  | nil => rfl
  | cons x rest ih =>
    have later := ih (fun y mem => others y (List.mem_cons_of_mem _ mem))
      (fun y mem => own y (List.mem_cons_of_mem _ mem))
    cases fits : p x with
    | false => simp [fits, others x List.mem_cons_self fits, later]
    | true =>
      obtain ⟨y, image⟩ := Option.isSome_iff_exists.mp (own x List.mem_cons_self fits)
      simp [fits, image]

theorem getLast?_filterMap_eq_bind {p : α → Bool} {items : List α}
    (others : ∀ x ∈ items, p x = false → f x = none) (own : ∀ x ∈ items, p x → (f x).isSome) :
    (items.filterMap f).getLast? = (items.filter p).getLast?.bind f := by
  rw [List.getLast?_filterMap, List.getLast?_filter]
  exact findSome?_eq_bind_find? (fun x mem => others x (List.mem_reverse.mp mem))
    (fun x mem => own x (List.mem_reverse.mp mem))

end LastImage

/-- A decidable strict total order on the keys of a map. -/
class KeyOrder (κ : Type) where
  before : κ → κ → Bool
  irrefl : ∀ a, before a a = false
  trans : ∀ a b c, before a b = true → before b c = true → before a c = true
  total : ∀ a b, before a b = true ∨ a = b ∨ before b a = true

/-- Texts in order of code points, which is also the order of their UTF-8 bytes. -/
instance : KeyOrder Text where
  before a b := decide (a < b)
  irrefl a := decide_eq_false (List.lt_irrefl a)
  trans a b c := by simpa using List.lt_trans
  total a b := by
    simp only [decide_eq_true_eq]
    by_cases less : a < b
    · exact .inl less
    · by_cases greater : b < a
      · exact .inr (.inr greater)
      · exact .inr (.inl (List.le_antisymm (List.not_lt.mp greater) (List.not_lt.mp less)))

variable {κ α : Type} [KeyOrder κ] [DecidableEq κ]

def Increasing (entries : List (κ × α)) : Prop :=
  entries.Pairwise fun a b => KeyOrder.before a.1 b.1 = true

structure SortedMap (κ α : Type) [KeyOrder κ] where
  entries : List (κ × α)
  increasing : Increasing entries

def insertEntry (key : κ) (value : α) : List (κ × α) → List (κ × α)
  | [] => [(key, value)]
  | entry :: rest =>
    if entry.1 = key then (key, value) :: rest
    else if KeyOrder.before key entry.1 then (key, value) :: entry :: rest
    else entry :: insertEntry key value rest

theorem mem_insertEntry {key : κ} {value : α} {entry : κ × α} {entries : List (κ × α)}
    (mem : entry ∈ insertEntry key value entries) : entry = (key, value) ∨ entry ∈ entries := by
  induction entries with
  | nil => simpa [insertEntry] using mem
  | cons head rest ih =>
    simp only [insertEntry] at mem
    split at mem
    · rcases List.mem_cons.mp mem with here | there
      · exact .inl here
      · exact .inr (List.mem_cons_of_mem _ there)
    · split at mem
      · simpa using mem
      · rcases List.mem_cons.mp mem with here | there
        · exact .inr (by simp [here])
        · exact (ih there).imp id (List.mem_cons_of_mem _)

theorem Increasing.insertEntry {entries : List (κ × α)} (sorted : Increasing entries)
    (key : κ) (value : α) : Increasing (insertEntry key value entries) := by
  induction entries with
  | nil => simp [MountPolicy.insertEntry, Increasing]
  | cons head rest ih =>
    obtain ⟨first, others⟩ := List.pairwise_cons.mp sorted
    simp only [MountPolicy.insertEntry]
    split
    · rename_i same
      exact List.pairwise_cons.mpr ⟨fun e mem => same ▸ first e mem, others⟩
    · rename_i differ
      split
      · rename_i less
        refine List.pairwise_cons.mpr ⟨fun e mem => ?_, sorted⟩
        rcases List.mem_cons.mp mem with rfl | mem
        · exact less
        · exact KeyOrder.trans _ _ _ less (first e mem)
      · rename_i notLess
        refine List.pairwise_cons.mpr ⟨fun e mem => ?_, ih others⟩
        rcases mem_insertEntry mem with rfl | mem
        · rcases KeyOrder.total head.1 key with h | h | h
          · exact h
          · exact absurd h differ
          · exact absurd h notLess
        · exact first e mem

omit [KeyOrder κ] in
private theorem lookup_entry (entry : κ × α) (rest : List (κ × α)) (key : κ) :
    (entry :: rest).lookup key = if key = entry.1 then some entry.2 else rest.lookup key := by
  obtain ⟨first, value⟩ := entry
  by_cases same : key = first
  · simp [same]
  · have differ : (key == first) = false := beq_eq_false_iff_ne.mpr same
    simp only [List.lookup_cons, differ, same, if_false]

omit [DecidableEq κ] in
theorem KeyOrder.ne_of_before {a b : κ} (less : KeyOrder.before a b = true) : a ≠ b := by
  rintro rfl
  simp [KeyOrder.irrefl] at less

theorem lookup_eq_none_of_before {entries : List (κ × α)} {key : κ}
    (less : ∀ entry ∈ entries, KeyOrder.before key entry.1 = true) :
    entries.lookup key = none := by
  induction entries with
  | nil => rfl
  | cons head rest ih =>
    have differ : key ≠ head.1 := KeyOrder.ne_of_before (less head List.mem_cons_self)
    rw [lookup_entry, if_neg differ]
    exact ih fun entry mem => less entry (List.mem_cons_of_mem _ mem)

private theorem lookup_below {head : κ × α} {rest : List (κ × α)} {key : κ}
    (sorted : Increasing (head :: rest)) (less : KeyOrder.before key head.1 = true) :
    (head :: rest).lookup key = none := by
  refine lookup_eq_none_of_before fun entry mem => ?_
  rcases List.mem_cons.mp mem with rfl | mem
  · exact less
  · exact KeyOrder.trans _ _ _ less ((List.pairwise_cons.mp sorted).1 entry mem)

theorem Increasing.eq_of_lookup {left right : List (κ × α)} (sortedLeft : Increasing left)
    (sortedRight : Increasing right) (same : ∀ key, left.lookup key = right.lookup key) :
    left = right := by
  induction left generalizing right with
  | nil =>
    cases right with
    | nil => rfl
    | cons head rest =>
      have absent := same head.1
      simp [lookup_entry] at absent
  | cons first rest ih =>
    cases right with
    | nil =>
      have absent := same first.1
      simp [lookup_entry] at absent
    | cons second others =>
      obtain ⟨aboveFirst, sortedRest⟩ := List.pairwise_cons.mp sortedLeft
      obtain ⟨aboveSecond, sortedOthers⟩ := List.pairwise_cons.mp sortedRight
      rcases KeyOrder.total first.1 second.1 with less | equal | greater
      · have absent := same first.1
        rw [lookup_below sortedRight less, lookup_entry, if_pos rfl] at absent
        exact absurd absent (by simp)
      · have here := same first.1
        rw [lookup_entry, lookup_entry, if_pos rfl, if_pos equal, Option.some.injEq] at here
        obtain rfl : first = second := Prod.ext equal here
        rw [ih sortedRest sortedOthers fun key => ?_]
        by_cases isFirst : key = first.1
        · subst isFirst
          rw [lookup_eq_none_of_before aboveFirst, lookup_eq_none_of_before aboveSecond]
        · have there := same key
          rwa [lookup_entry, lookup_entry, if_neg isFirst, if_neg isFirst] at there
      · have absent := same second.1
        rw [lookup_below sortedLeft greater, lookup_entry, if_pos rfl] at absent
        exact absurd absent (by simp)

theorem Increasing.lookup_of_mem {entries : List (κ × α)} (sorted : Increasing entries)
    {entry : κ × α} (mem : entry ∈ entries) : entries.lookup entry.1 = some entry.2 := by
  induction entries with
  | nil => simp at mem
  | cons head rest ih =>
    obtain ⟨above, others⟩ := List.pairwise_cons.mp sorted
    rcases List.mem_cons.mp mem with rfl | there
    · rw [lookup_entry, if_pos rfl]
    · have differ : entry.1 ≠ head.1 := fun h => KeyOrder.ne_of_before (above entry there) h.symm
      rw [lookup_entry, if_neg differ]
      exact ih others there

namespace SortedMap

instance [DecidableEq α] : DecidableEq (SortedMap κ α) := fun a b =>
  decidable_of_iff (a.entries = b.entries) (by cases a; cases b; simp)

def empty : SortedMap κ α := ⟨[], List.Pairwise.nil⟩

def insert (m : SortedMap κ α) (key : κ) (value : α) : SortedMap κ α :=
  ⟨insertEntry key value m.entries, m.increasing.insertEntry key value⟩

def get? (m : SortedMap κ α) (key : κ) : Option α := m.entries.lookup key

def contains (m : SortedMap κ α) (key : κ) : Bool := (m.get? key).isSome

/-- Later entries of a key replace earlier ones. -/
def ofList (entries : List (κ × α)) : SortedMap κ α :=
  entries.foldl (fun m (key, value) => m.insert key value) empty

@[simp] theorem get?_empty (key : κ) : (empty : SortedMap κ α).get? key = none := rfl

private theorem lookup_insertEntry (entries : List (κ × α)) (key other : κ) (value : α) :
    (insertEntry key value entries).lookup other =
      if other = key then some value else entries.lookup other := by
  induction entries with
  | nil => simp [insertEntry, lookup_entry]
  | cons head rest ih =>
    simp only [insertEntry]
    split
    · rename_i here
      subst here
      by_cases same : other = head.1 <;> simp [lookup_entry, same]
    · rename_i differ
      split
      · simp only [lookup_entry]
      · by_cases same : other = key
        · subst same
          simp [lookup_entry, ih, Ne.symm differ]
        · simp [lookup_entry, ih, same]

theorem get?_insert (m : SortedMap κ α) (key other : κ) (value : α) :
    (m.insert key value).get? other = if other = key then some value else m.get? other :=
  lookup_insertEntry m.entries key other value

theorem ext_get? {a b : SortedMap κ α} (same : ∀ key, a.get? key = b.get? key) : a = b := by
  have entries := a.increasing.eq_of_lookup b.increasing same
  cases a
  cases b
  simpa using entries

theorem get?_of_mem {m : SortedMap κ α} {entry : κ × α} (mem : entry ∈ m.entries) :
    m.get? entry.1 = some entry.2 :=
  m.increasing.lookup_of_mem mem

theorem mem_of_get? {m : SortedMap κ α} {key : κ} {value : α} (found : m.get? key = some value) :
    (key, value) ∈ m.entries := by
  obtain ⟨before, after, whole, -⟩ := List.lookup_eq_some_iff.mp found
  rw [whole]
  simp

end SortedMap

end MountPolicy
