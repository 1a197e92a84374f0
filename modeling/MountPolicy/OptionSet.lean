import MountPolicy.Text.Quoted

/-! The four lists that configuration gives for a filesystem type, and the two
ways to lay one set of lists over another. A list that is absent is left alone,
while a list that is present and empty takes the place of what was there. -/
namespace MountPolicy

inductive Field where
  | defaults
  | allow
  | allowUidSelf
  | allowGidSelf
deriving DecidableEq

namespace Field

def all : List Field := [.defaults, .allow, .allowUidSelf, .allowGidSelf]

def key : Field → Text
  | .defaults => "defaults".toList
  | .allow => "allow".toList
  | .allowUidSelf => "allow_uid_self".toList
  | .allowGidSelf => "allow_gid_self".toList

theorem mem_all (field : Field) : field ∈ all := by cases field <;> decide

theorem key_injective {a b : Field} : a.key = b.key → a = b := by
  cases a <;> cases b <;> decide

end Field

/-- The options mounted by default and the options a caller may ask for: freely,
or only with the caller's own user id or with one of the caller's group ids. -/
structure OptionSet where
  defaults : Option (List Text) := none
  allow : Option (List Text) := none
  allowUidSelf : Option (List Text) := none
  allowGidSelf : Option (List Text) := none
deriving DecidableEq

namespace OptionSet

def empty : OptionSet := {}

def get? (set : OptionSet) : Field → Option (List Text)
  | .defaults => set.defaults
  | .allow => set.allow
  | .allowUidSelf => set.allowUidSelf
  | .allowGidSelf => set.allowGidSelf

def ofFields (f : Field → Option (List Text)) : OptionSet :=
  ⟨f .defaults, f .allow, f .allowUidSelf, f .allowGidSelf⟩

def insert (set : OptionSet) (field : Field) (values : List Text) : OptionSet :=
  ofFields fun other => if other = field then some values else set.get? other

def elements (set : OptionSet) (field : Field) : List Text := (set.get? field).getD []

def contains (set : OptionSet) (field : Field) (value : Text) : Bool :=
  (set.elements field).contains value

/-- Whether any list is present, even an empty one. -/
def anyPresent (set : OptionSet) : Bool := Field.all.any fun field => (set.get? field).isSome

/-- Appends those elements of `incoming`, in order, that are not there yet. -/
def union (present incoming : List Text) : List Text :=
  incoming.foldl (fun list x => if x ∈ list then list else list ++ [x]) present

def unionList (present incoming : Option (List Text)) : Option (List Text) :=
  match incoming with
  | none => present
  | some [] => present
  | some incoming => some (union (present.getD []) incoming)

def extendedBy (set extra : OptionSet) : OptionSet :=
  ofFields fun field => unionList (set.get? field) (extra.get? field)

/-- Takes every list that is present in `upper`, and the others from `set`. -/
def overriddenBy (set upper : OptionSet) : OptionSet :=
  ofFields fun field => (upper.get? field).or (set.get? field)

def overrideField (upper : OptionSet) (merged : OptionSet × Bool) (field : Field) :
    OptionSet × Bool :=
  match upper.get? field with
  | none => merged
  | some values => (merged.1.insert field values, true)

/-- Replaces the lists that are present in `upper`, one after the other, and says whether
there was any. -/
def override (set : OptionSet) : Option OptionSet → OptionSet × Bool
  | none => (set, false)
  | some upper => Field.all.foldl (overrideField upper) (set, false)

@[simp] theorem get?_ofFields (f : Field → Option (List Text)) (field : Field) :
    (ofFields f).get? field = f field := by cases field <;> rfl

@[ext] theorem ext {a b : OptionSet} (h : ∀ field, a.get? field = b.get? field) : a = b := by
  cases a; cases b
  simp only [mk.injEq]
  exact ⟨h .defaults, h .allow, h .allowUidSelf, h .allowGidSelf⟩

@[simp] theorem get?_empty (field : Field) : empty.get? field = none := by cases field <;> rfl

theorem get?_insert (set : OptionSet) (field other : Field) (values : List Text) :
    (set.insert field values).get? other =
      if other = field then some values else set.get? other := by
  simp [insert]

theorem get?_extendedBy (set extra : OptionSet) (field : Field) :
    (set.extendedBy extra).get? field = unionList (set.get? field) (extra.get? field) := by
  simp [extendedBy]

theorem get?_overriddenBy (set upper : OptionSet) (field : Field) :
    (set.overriddenBy upper).get? field = (upper.get? field).or (set.get? field) := by
  simp [overriddenBy]

theorem overriddenBy_empty (set : OptionSet) : set.overriddenBy .empty = set := by
  apply ext
  intro field
  rw [get?_overriddenBy, get?_empty, Option.none_or]

theorem foldl_overrideField (upper : OptionSet) (fields : List Field)
    (merged : OptionSet × Bool) :
    let last := fields.foldl (overrideField upper) merged
    last.2 = (merged.2 || fields.any fun field => (upper.get? field).isSome) ∧
      ∀ field, last.1.get? field =
        if field ∈ fields then (upper.get? field).or (merged.1.get? field)
        else merged.1.get? field := by
  induction fields generalizing merged with
  | nil => simp
  | cons first rest ih =>
    obtain ⟨changed, lists⟩ := ih (overrideField upper merged first)
    rw [List.foldl_cons, List.any_cons]
    refine ⟨?_, fun field => ?_⟩
    · rw [changed, overrideField]
      cases upper.get? first <;> simp
    · rw [lists field, overrideField]
      by_cases same : field = first
      · subst same
        cases found : upper.get? field <;> simp [get?_insert]
      · cases upper.get? first <;> simp [get?_insert, same]

theorem override_eq (set : OptionSet) (upper : Option OptionSet) :
    set.override upper =
      (set.overriddenBy (upper.getD .empty), (upper.getD .empty).anyPresent) := by
  cases upper with
  | none =>
    rw [Option.getD_none, overriddenBy_empty]
    rfl
  | some upper =>
    obtain ⟨changed, lists⟩ := foldl_overrideField upper Field.all (set, false)
    refine Prod.ext (ext fun field => ?_) changed
    rw [Option.getD_some, get?_overriddenBy]
    exact (lists field).trans (if_pos field.mem_all)

theorem union_eq_append (present incoming : List Text) :
    union present incoming = present ++ (incoming.filter (· ∉ present)).eraseDups := by
  induction incoming generalizing present with
  | nil => simp [union]
  | cons x rest ih =>
    have step : union present (x :: rest) =
        union (if x ∈ present then present else present ++ [x]) rest := rfl
    rw [step]
    by_cases there : x ∈ present
    · rw [if_pos there, ih, List.filter_cons_of_neg (by simpa using there)]
    · have others : (rest.filter (· ∉ present)).filter (fun y => !y == x) =
          rest.filter (· ∉ present ++ [x]) := by
        rw [List.filter_filter]
        apply List.filter_congr
        intro y _
        by_cases same : y = x <;> simp [same]
      rw [if_neg there, ih, List.filter_cons_of_pos (by simpa using there),
        List.eraseDups_cons, others]
      simp

theorem mem_union {present incoming : List Text} {x : Text} :
    x ∈ union present incoming ↔ x ∈ present ∨ x ∈ incoming := by
  rw [union_eq_append, List.mem_append, List.mem_eraseDups, List.mem_filter]
  by_cases there : x ∈ present <;> simp [there]

theorem getD_unionList (present incoming : Option (List Text)) :
    (unionList present incoming).getD [] = union (present.getD []) (incoming.getD []) := by
  rcases incoming with _ | _ | ⟨first, rest⟩ <;> rfl

theorem elements_extendedBy_eq_union (set extra : OptionSet) (field : Field) :
    (set.extendedBy extra).elements field = union (set.elements field) (extra.elements field) := by
  unfold elements
  rw [get?_extendedBy, getD_unionList]

theorem elements_extendedBy (set extra : OptionSet) (field : Field) :
    (set.extendedBy extra).elements field =
      set.elements field ++
        ((extra.elements field).filter (· ∉ set.elements field)).eraseDups := by
  rw [elements_extendedBy_eq_union, union_eq_append]

theorem anyPresent_iff {set : OptionSet} : set.anyPresent ↔ ∃ field, (set.get? field).isSome := by
  simp only [anyPresent, List.any_eq_true]
  exact ⟨fun ⟨field, _, h⟩ => ⟨field, h⟩, fun ⟨field, h⟩ => ⟨field, field.mem_all, h⟩⟩

/-! Compact JSON: an object with one array per list that is present, in the order of the
fields. -/

def jsonArray (values : List Text) : Text :=
  '[' :: Text.commaSeparated (values.map Text.jsonString) ++ [']']

def jsonMember? (set : OptionSet) (field : Field) : Option Text :=
  (set.get? field).map fun values => Text.jsonString field.key ++ ':' :: jsonArray values

def json (set : OptionSet) : Text :=
  '\x7b' :: Text.commaSeparated (Field.all.filterMap set.jsonMember?) ++ ['\x7d']

end OptionSet

end MountPolicy
