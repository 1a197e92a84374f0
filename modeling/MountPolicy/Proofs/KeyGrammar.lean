import Mathlib
import MountPolicy.TypeOptions

/-! How configuration keys are spelled. A key is a field's name, alone or behind a type
and an underscore. Types may hold underscores and names of fields themselves, but no field's
name ends in an underscore and the name of another. Main statement: a key has such parts in
one way at most, and reading it gives the list that they name. -/
namespace MountPolicy

/-- The parts of a key: a field's name alone, or with a type in front. -/
inductive KeyParts where
  | bare (field : Field)
  | typed (type : Text) (named : type ≠ []) (field : Field)

namespace KeyParts

def text : KeyParts → Text
  | bare field => field.key
  | typed type _ field => type ++ '_' :: field.key

def target : KeyParts → ConfigKey
  | bare field => ⟨.any, field⟩
  | typed type _ field => ⟨if type = anyMarker then .any else .ofName type, field⟩

end KeyParts

namespace Field

theorem eq_of_suffix_key {a b : Field} (suffix : '_' :: a.key <:+ '_' :: b.key) : a = b := by
  cases a <;> cases b <;> revert suffix <;> decide

theorem not_suffix_key (a b : Field) : ¬ '_' :: a.key <:+ b.key := by
  cases a <;> cases b <;> decide

/-- Of two fields behind one text, one name with its underscore would end in the other. -/
theorem eq_of_append_key {front other : Text} {a b : Field}
    (same : front ++ '_' :: a.key = other ++ '_' :: b.key) : front = other ∧ a = b := by
  have first : '_' :: a.key <:+ front ++ '_' :: a.key := List.suffix_append front _
  have second : '_' :: b.key <:+ front ++ '_' :: a.key := same ▸ List.suffix_append other _
  obtain rfl : a = b := by
    rcases List.suffix_or_suffix_of_suffix first second with inside | inside
    · exact eq_of_suffix_key inside
    · exact (eq_of_suffix_key inside).symm
  exact ⟨List.append_cancel_right same, rfl⟩

end Field

theorem KeyParts.text_injective {parts other : KeyParts} (same : parts.text = other.text) :
    parts = other := by
  cases parts with
  | bare field =>
    cases other with
    | bare otherField => rw [Field.key_injective same]
    | typed type named otherField =>
      have suffix : '_' :: otherField.key <:+ field.key := ⟨type, same.symm⟩
      exact absurd suffix (Field.not_suffix_key otherField field)
  | typed type named field =>
    cases other with
    | bare otherField =>
      have suffix : '_' :: field.key <:+ otherField.key := ⟨type, same⟩
      exact absurd suffix (Field.not_suffix_key field otherField)
    | typed otherType otherNamed otherField =>
      obtain ⟨rfl, rfl⟩ := Field.eq_of_append_key same
      rfl

namespace ConfigKey

/-- Reads a key like `ofText?`, with the fields behind a type tried in the given order. -/
def ofTextTrying? (order : List Field) (key : Text) : Option ConfigKey :=
  match Field.all.find? fun field => field.key = key with
  | some field => some ⟨.any, field⟩
  | none => order.findSome? (withField? key)

theorem withField?_eq_some_iff {key : Text} {field : Field} {target : ConfigKey} :
    withField? key field = some target ↔
      ∃ type named, (KeyParts.typed type named field).text = key ∧
        (KeyParts.typed type named field).target = target := by
  constructor
  · intro found
    unfold withField? at found
    split at found
    · cases found
    · rename_i type cut
      have whole : type ++ '_' :: field.key = key := List.isSuffixOf?_eq_some_iff_append_eq.mp cut
      split at found
      · cases found
      · rename_i named
        refine ⟨type, named, whole, ?_⟩
        rw [KeyParts.target]
        split at found
        · rename_i marker
          rw [if_pos marker]
          exact Option.some.inj found
        · rename_i specific
          rw [if_neg specific]
          exact Option.some.inj found
  · rintro ⟨type, named, rfl, rfl⟩
    have cut : ('_' :: field.key).isSuffixOf? (type ++ '_' :: field.key) = some type :=
      List.isSuffixOf?_eq_some_iff_append_eq.mpr rfl
    rw [KeyParts.text, KeyParts.target, withField?, cut]
    simp only [if_neg named]
    split <;> rfl

theorem ofTextTrying?_eq_some_iff {order : List Field} (every : ∀ field, field ∈ order)
    {key : Text} {target : ConfigKey} :
    ofTextTrying? order key = some target ↔
      ∃ parts : KeyParts, parts.text = key ∧ parts.target = target := by
  unfold ofTextTrying?
  split
  · rename_i field found
    have own : field.key = key := by simpa using List.find?_some found
    constructor
    · intro read
      exact ⟨.bare field, own, Option.some.inj read⟩
    · rintro ⟨parts, whole, rfl⟩
      obtain rfl : parts = .bare field := KeyParts.text_injective (whole.trans own.symm)
      rfl
  · rename_i absent
    constructor
    · intro read
      obtain ⟨field, -, found⟩ := List.exists_of_findSome?_eq_some read
      obtain ⟨type, named, parts⟩ := withField?_eq_some_iff.mp found
      exact ⟨.typed type named field, parts⟩
    · rintro ⟨parts, whole, rfl⟩
      cases parts with
      | bare field =>
        have differ := List.find?_eq_none.mp absent field field.mem_all
        exact absurd (decide_eq_true whole) differ
      | typed type named field =>
        have found := withField?_eq_some_iff.mpr ⟨type, named, whole, rfl⟩
        -- A second field that fits would give the key other parts.
        obtain ⟨target, read⟩ := Option.isSome_iff_exists.mp
          (List.findSome?_isSome_iff.mpr ⟨field, every field, Option.isSome_of_eq_some found⟩)
        obtain ⟨other, -, otherFound⟩ := List.exists_of_findSome?_eq_some read
        obtain ⟨otherType, otherNamed, otherWhole, rfl⟩ := withField?_eq_some_iff.mp otherFound
        rw [read, KeyParts.text_injective (otherWhole.trans whole.symm)]

theorem ofText?_eq_some_iff {key : Text} {target : ConfigKey} :
    ofText? key = some target ↔
      ∃ parts : KeyParts, parts.text = key ∧ parts.target = target :=
  have every : ∀ field, field ∈ fieldsByLength := by
    intro field
    cases field <;> decide
  ofTextTrying?_eq_some_iff every

theorem ofText?_eq_any_iff {key : Text} {field : Field} :
    ofText? key = some ⟨.any, field⟩ ↔
      key = field.key ∨ key = anyMarker ++ '_' :: field.key := by
  rw [ofText?_eq_some_iff]
  constructor
  · rintro ⟨parts, rfl, same⟩
    cases parts with
    | bare own =>
      obtain rfl : own = field := congrArg ConfigKey.field same
      exact .inl rfl
    | typed type named own =>
      obtain rfl : own = field := congrArg ConfigKey.field same
      by_cases marker : type = anyMarker
      · exact .inr (congrArg (· ++ '_' :: own.key) marker)
      · simp [KeyParts.target, marker, TypeScope.ofName] at same
  · rintro (rfl | rfl)
    · exact ⟨.bare field, rfl, rfl⟩
    · exact ⟨.typed anyMarker (by decide) field, rfl, rfl⟩

theorem ofText?_eq_filesystem_iff {key name : Text} {field : Field} :
    ofText? key = some ⟨.filesystem name, field⟩ ↔
      ∃ type, key = type ++ '_' :: field.key ∧ type ≠ [] ∧ type ≠ anyMarker ∧
        name = Text.lowercase type := by
  rw [ofText?_eq_some_iff]
  constructor
  · rintro ⟨parts, rfl, same⟩
    cases parts with
    | bare own => cases same
    | typed type named own =>
      by_cases marker : type = anyMarker
      · simp [KeyParts.target, marker] at same
      · simp only [KeyParts.target, if_neg marker, ConfigKey.mk.injEq, TypeScope.ofName,
          TypeScope.filesystem.injEq] at same
        obtain ⟨rfl, rfl⟩ := same
        exact ⟨type, rfl, named, marker, rfl⟩
  · rintro ⟨type, rfl, named, specific, rfl⟩
    refine ⟨.typed type named field, rfl, ?_⟩
    rw [KeyParts.target, if_neg specific]
    rfl

end ConfigKey

theorem Text.lower_lowercase (t : Text) : ∀ c ∈ lowercase t, c.isUpper = false := by
  intro c mem
  obtain ⟨d, -, rfl⟩ := List.mem_map.mp mem
  exact Char.isUpper_toLower_eq_false d

theorem Text.lowercase_of_lower {t : Text} (lower : ∀ c ∈ t, c.isUpper = false) :
    lowercase t = t := by
  have same : ∀ c ∈ t, c.toLower = id c := by
    intro c mem
    exact Char.toLower_eq_of_not_isUpper (by simp [lower c mem])
  exact (List.map_congr_left same).trans (List.map_id t)

namespace ConfigKey

theorem ofText?_shown {key : Text} (lower : ∀ c ∈ key, c.isUpper = false) {scope : TypeScope}
    {field : Field} (read : ofText? key = some ⟨scope, field⟩) :
    ofText? (scope.text ++ '_' :: field.key) = some ⟨scope, field⟩ := by
  cases scope with
  | any => exact ofText?_eq_any_iff.mpr (.inr rfl)
  | filesystem name =>
    obtain ⟨type, rfl, -, -, rfl⟩ := ofText?_eq_filesystem_iff.mp read
    have typeLower : ∀ c ∈ type, c.isUpper = false := by
      intro c mem
      exact lower c (List.mem_append_left _ mem)
    rw [TypeScope.text, Text.lowercase_of_lower typeLower]
    rwa [Text.lowercase_of_lower typeLower] at read

/-- Reading a key accepts the spellings of the grammar and no other. A key has one pair of
parts, so the order in which the fields are tried has no influence, and for a key in lower
case the shown form of what it names is read as the same. -/
theorem ofText?_grammar (key : Text) :
    (∀ field : Field, ofText? key = some ⟨.any, field⟩ ↔
        key = field.key ∨ key = anyMarker ++ '_' :: field.key) ∧
      (∀ name field, ofText? key = some ⟨.filesystem name, field⟩ ↔
        ∃ type, key = type ++ '_' :: field.key ∧ type ≠ [] ∧ type ≠ anyMarker ∧
          name = Text.lowercase type) ∧
      (ofText? key = none ↔ ∀ field : Field, key ≠ field.key ∧
        ∀ type, type ≠ [] → key ≠ type ++ '_' :: field.key) ∧
      (∀ parts other : KeyParts, parts.text = key → other.text = key → parts = other) ∧
      (∀ order : List Field, (∀ field, field ∈ order) → ofTextTrying? order key = ofText? key) ∧
      ((∀ c ∈ key, c.isUpper = false) → ∀ scope field, ofText? key = some ⟨scope, field⟩ →
        ofText? (scope.text ++ '_' :: field.key) = some ⟨scope, field⟩) := by
  refine ⟨?any, ?filesystem, ?refused, ?unique, ?order, ?shown⟩
  case any =>
    intro field
    exact ofText?_eq_any_iff
  case filesystem =>
    intro name field
    exact ofText?_eq_filesystem_iff
  case refused =>
    rw [Option.eq_none_iff_forall_ne_some]
    constructor
    · intro unread field
      have apart (parts : KeyParts) : key ≠ parts.text := by
        intro whole
        exact unread parts.target (ofText?_eq_some_iff.mpr ⟨parts, whole.symm, rfl⟩)
      exact ⟨apart (.bare field), fun type named => apart (.typed type named field)⟩
    · intro apart target read
      obtain ⟨parts, rfl, -⟩ := ofText?_eq_some_iff.mp read
      cases parts with
      | bare field => exact (apart field).1 rfl
      | typed type named field => exact (apart field).2 type named rfl
  case unique =>
    intro parts other whole otherWhole
    exact KeyParts.text_injective (whole.trans otherWhole.symm)
  case order =>
    intro order every
    apply Option.ext
    intro target
    rw [ofTextTrying?_eq_some_iff every, ofText?_eq_some_iff]
  case shown =>
    intro lower scope field read
    exact ofText?_shown lower read

/-- A type that is itself spelled like a key, and a field's name within a field's name. -/
def nestedKey : Text := "defaults_allow_allow_uid_self".toList

theorem ofText?_grammar_nestedKey :
    ofText? nestedKey = some ⟨.filesystem "defaults_allow".toList, .allowUidSelf⟩ ∧
      ofTextTrying? [.allow, .defaults, .allowGidSelf, .allowUidSelf] nestedKey =
        ofText? nestedKey ∧
      (∀ c ∈ nestedKey, c.isUpper = false) ∧
      ofText? ((TypeScope.filesystem "defaults_allow".toList).text ++ '_' :: Field.allowUidSelf.key) =
        some ⟨.filesystem "defaults_allow".toList, .allowUidSelf⟩ := by
  obtain ⟨-, filesystem, -, -, order, shown⟩ := ofText?_grammar nestedKey
  have read : ofText? nestedKey = some ⟨.filesystem "defaults_allow".toList, .allowUidSelf⟩ :=
    (filesystem _ _).mpr ⟨"defaults_allow".toList, rfl, by decide, by decide, rfl⟩
  have every : ∀ field, field ∈ [Field.allow, .defaults, .allowGidSelf, .allowUidSelf] := by
    intro field
    cases field <;> decide
  have same : nestedKey = Text.lowercase nestedKey := by decide +kernel
  have lower : ∀ c ∈ nestedKey, c.isUpper = false := same ▸ Text.lower_lowercase nestedKey
  exact ⟨read, order _ every, lower, shown lower _ _ read⟩

end ConfigKey
end MountPolicy
