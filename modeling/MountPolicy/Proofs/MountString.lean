import Mathlib.Data.List.TakeWhile
import MountPolicy.Proofs.Permission
import MountPolicy.Proofs.RequestedOptions

/-! The mount string as the kernel cuts it, at every comma outside double quotes.
Main statements: the items are the fixed options and the options of the request, each
of which was allowed; an item that is named like a user or group id is pinned or the
caller's own; and reading the string again gives the same options exactly if no name
leaves a quote open and no option but the last ends with a backslash. -/
namespace MountPolicy

open OptionString

private theorem escaped_comma_of_assign {name value : Text} (comma : ',' ∉ name)
    (inside : ['\\', ','] <:+: name ++ '=' :: value) : ['\\', ','] <:+: value := by
  induction name with
  | nil =>
    rcases List.infix_cons_iff.mp inside with front | later
    · simp at front
    · exact later
  | cons c rest ih =>
    simp only [List.mem_cons, not_or] at comma
    rcases List.infix_cons_iff.mp inside with front | later
    · cases rest with
      | nil => simp at front
      | cons d rest => simp_all
    · exact ih comma.2 later

theorem not_escaped_comma_of_hidesComma {o : MountOption} (plain : hidesComma o = false) :
    ¬ ['\\', ','] <:+: o.text := by
  obtain ⟨name, value⟩ := o
  simp only [hidesComma, Bool.or_eq_false_iff, List.contains_eq_mem,
    decide_eq_false_iff_not] at plain
  cases value with
  | none =>
    intro inside
    exact plain.1 (inside.subset (by simp))
  | some value =>
    intro inside
    have later := escaped_comma_of_assign plain.1 inside
    obtain ⟨before, after, whole⟩ := later
    have occurs : Text.occurs ['\\', ','] value := Text.occurs_iff.mpr ⟨before, after, whole.symm⟩
    simp [occurs] at plain

theorem Requestable.bareItems {o : MountOption} (requestable : Requestable o)
    (plain : hidesComma o = false) : OptionString.bareItems false o.text = [o.text] := by
  have same : pieces false false o.text = OptionString.bareItems false o.text :=
    pieces_eq_bareItems (not_escaped_comma_of_hidesComma plain) (by simp)
  rw [← same]
  exact requestable.item.whole

theorem safetyOptions_items :
    ∀ o ∈ safetyOptions, IsItem o.text ∧ OptionString.bareItems false o.text = [o.text] ∧
      optionOfPiece o.text = o ∧ balanced o.name ∧ o.text.getLast? ≠ some '\\' := by
  decide

variable {policy : Policy} {builtinText : Text} {device : Device} {caller : UInt32}
  {typeName callerOptions : Option Text} {options : List MountOption}

theorem Policy.requested_of_granted
    (built : (Store.ofPolicyText builtinText).value = .ok policy.builtin) {text : Text}
    (granted : (policy.mountString device caller typeName callerOptions).value = .ok text) :
    ∃ options, policy.requested device caller typeName callerOptions = .ok options ∧
      (∀ o ∈ options, Requestable o ∧ hidesComma o = false ∧
        ((policy.rules device typeName).allows caller o).value = true) ∧
      text = write (safetyOptions ++ options) := by
  obtain ⟨options, made, accepted, rfl⟩ := value_mountString_eq_ok_iff.mp granted
  exact ⟨options, made, fun o mem => ⟨requestable_of_requested built made mem, accepted o mem⟩, rfl⟩

theorem bareItems_write_safetyOptions
    (accepted : ∀ o ∈ options, Requestable o ∧ hidesComma o = false) :
    bareItems false (write (safetyOptions ++ options)) =
      safetyOptions.map MountOption.text ++ options.map MountOption.text := by
  have single : ∀ o ∈ safetyOptions ++ options,
      bareItems false o.text = [o.text] ∧ balanced o.text := by
    intro o mem
    rcases List.mem_append.mp mem with fixed | asked
    · obtain ⟨item, whole, -⟩ := safetyOptions_items o fixed
      exact ⟨whole, item.closed⟩
    · obtain ⟨requestable, plain⟩ := accepted o asked
      exact ⟨requestable.bareItems plain, requestable.item.closed⟩
  rw [← List.map_append]
  apply bareItems_commaSeparated
  · simp [safetyOptions]
  · intro t mem
    obtain ⟨o, inside, rfl⟩ := List.mem_map.mp mem
    exact (single o inside).1
  · intro t mem
    obtain ⟨o, inside, rfl⟩ := List.mem_map.mp mem
    exact (single o inside).2

/-- No item of a mount string escaped the rules. Cut at the commas outside double
quotes, it gives the fixed options and then, one to one and in order, the options of
the request, each of them allowed for the caller. -/
theorem bareItems_mountString
    (built : (Store.ofPolicyText builtinText).value = .ok policy.builtin) {text : Text}
    (granted : (policy.mountString device caller typeName callerOptions).value = .ok text) :
    ∃ options, policy.requested device caller typeName callerOptions = .ok options ∧
      bareItems false text =
        ["uhelper=udisks2".toList, "nodev".toList, "nosuid".toList]
          ++ options.map MountOption.text ∧
      ∀ o ∈ options, o.text ≠ [] ∧
        ((policy.rules device typeName).allows caller o).value = true := by
  obtain ⟨options, made, accepted, rfl⟩ := Policy.requested_of_granted built granted
  refine ⟨options, made, ?_, ?_⟩
  · rw [bareItems_write_safetyOptions fun o mem => ⟨(accepted o mem).1, (accepted o mem).2.1⟩]
    rfl
  · intro o mem
    exact ⟨(accepted o mem).1.item.present, (accepted o mem).2.2⟩

def sampleText : Text :=
  "[defaults]\ndefaults=uid=,ro\nallow=ro\nallow_uid_self=uid\nallow_gid_self=gid\n".toList

def samplePolicy : Policy where
  builtin := (Store.ofPolicyText sampleText).value.toOption.getD .empty
  config := ⟨[], .missing⟩
  users := .ofEntries [⟨1000, "alice".toList, 100, some [27]⟩]

def sampleDevice : Device := ⟨"/dev/sda1".toList, [], some .empty⟩

theorem samplePolicy_built : (Store.ofPolicyText sampleText).value = .ok samplePolicy.builtin := rfl

set_option maxRecDepth 2000 in
theorem samplePolicy_granted :
    (samplePolicy.mountString sampleDevice 1000 none (some "gid=0027,x-a=\"b,c\"".toList)).value =
      .ok "uhelper=udisks2,nodev,nosuid,uid=1000,ro,gid=0027,x-a=\"b,c\"".toList := rfl

theorem bareItems_mountString_quotedComma :
    let text := "uhelper=udisks2,nodev,nosuid,uid=1000,ro,gid=0027,x-a=\"b,c\"".toList
    ∃ options, samplePolicy.requested sampleDevice 1000 none
        (some "gid=0027,x-a=\"b,c\"".toList) = .ok options ∧
      bareItems false text = ["uhelper=udisks2".toList, "nodev".toList, "nosuid".toList]
        ++ options.map MountOption.text ∧
      ∀ o ∈ options, o.text ≠ [] ∧
        ((samplePolicy.rules sampleDevice none).allows 1000 o).value = true :=
  bareItems_mountString samplePolicy_built samplePolicy_granted

private theorem takeWhile_assign {name value : Text} (sign : '=' ∉ name) :
    (name ++ '=' :: value).takeWhile (· ≠ '=') = name := by
  rw [List.takeWhile_append_of_pos]
  · simp
  · intro c mem
    simpa using fun same : c = '=' => sign (same ▸ mem)

theorem Requestable.name_eq {o : MountOption} (requestable : Requestable o)
    (closed : balanced (o.text.takeWhile (· ≠ '='))) :
    o.name = o.text.takeWhile (· ≠ '=') := by
  cases cut : Text.splitFirst? '=' o.text with
  | none =>
    have absent := Text.splitFirst?_eq_none.mp cut
    have flag : o.text = o.name := by
      cases present : o.value with
      | none => simp [MountOption.text, present]
      | some value => simp [MountOption.text_of_value present] at absent
    rw [← flag, eq_comm, List.takeWhile_eq_self_iff]
    intro c mem
    simpa using fun same : c = '=' => absent (same ▸ mem)
  | some parts =>
    -- The option was cut at the first equals sign, or where the reader cuts it: with no
    -- quote open in front of the first one, that is the same place.
    have found : Text.splitFirst? '=' o.text = some (parts.1, parts.2) := cut
    obtain ⟨whole, sign⟩ := Text.eq_of_splitFirst? found
    have front : o.text.takeWhile (· ≠ '=') = parts.1 := by rw [whole, takeWhile_assign sign]
    rw [front] at closed ⊢
    rcases requestable.split with same | free
    · have split : splitName? false o.text = some (parts.1, parts.2) :=
        splitName?_eq_some_iff.mpr
          ⟨whole, splitName?_eq_none_of_not_mem sign, endsQuoted_of_balanced closed⟩
      rw [← same, optionOfPiece, split]
      rfl
    · cases present : o.value with
      | none =>
        have flag : o.text = o.name := by simp [MountOption.text, present]
        rw [← flag, whole] at free
        simp at free
      | some value => rw [← front, MountOption.text_of_value present, takeWhile_assign free]

/-- An item that is named like an id of the caller has a value, and the value is fixed
by the lists or the caller's own id: no quote, backslash or number of digits forges one. -/
theorem ownIds_of_mountString
    (built : (Store.ofPolicyText builtinText).value = .ok policy.builtin) {text : Text}
    (granted : (policy.mountString device caller typeName callerOptions).value = .ok text)
    {item : Text} (mem : item ∈ (bareItems false text).drop 3) :
    let set := (policy.effective device typeName).value
    let name := item.takeWhile (· ≠ '=')
    (name ∈ set.elements .allowUidSelf →
      ∃ value, item = name ++ '=' :: value ∧ value ≠ [] ∧
        (item ∈ set.elements .allow ∨ IsUid caller value)) ∧
    (name ∈ set.elements .allowGidSelf → name ∉ set.elements .allowUidSelf →
      ∃ value, item = name ++ '=' :: value ∧ value ≠ [] ∧
        (item ∈ set.elements .allow ∨ policy.users.IsGid caller value)) := by
  obtain ⟨options, made, accepted, rfl⟩ := Policy.requested_of_granted built granted
  rw [bareItems_write_safetyOptions
    fun o inside => ⟨(accepted o inside).1, (accepted o inside).2.1⟩] at mem
  obtain ⟨o, asked, rfl⟩ : ∃ o ∈ options, o.text = item := by
    simpa [safetyOptions] using mem
  obtain ⟨requestable, -, allowed⟩ := accepted o asked
  -- The text in front of the equals sign is in a list, so it leaves no quote open.
  have listed {field : Field} (there : o.text.takeWhile (· ≠ '=') ∈
      (policy.effective device typeName).value.elements field) :
      o.name = o.text.takeWhile (· ≠ '=') :=
    requestable.name_eq (Policy.isItem_of_mem_elements built there).closed
  intro set name
  constructor
  · intro uid
    have same : o.name = name := listed uid
    rw [← same] at uid ⊢
    obtain ⟨value, present, full, reason⟩ :=
      (Rules.allows_uidSelf_iff (OptionSet.contains_iff.mpr uid)).mp allowed
    exact ⟨value, MountOption.text_of_value present, full,
      reason.imp_left OptionSet.contains_iff.mp⟩
  · intro gid noUid
    have same : o.name = name := listed gid
    rw [← same] at gid noUid ⊢
    obtain ⟨value, present, full, reason⟩ :=
      (Rules.allows_gidSelf_iff (mt OptionSet.contains_iff.mp noUid)
        (OptionSet.contains_iff.mpr gid)).mp allowed
    exact ⟨value, MountOption.text_of_value present, full,
      reason.imp_left OptionSet.contains_iff.mp⟩

theorem ownIds_of_mountString_leadingZeros :
    ∃ value, "gid=0027".toList = "gid".toList ++ '=' :: value ∧ value ≠ [] ∧
      ("gid=0027".toList ∈ (samplePolicy.effective sampleDevice none).value.elements .allow ∨
        samplePolicy.users.IsGid 1000 value) := by
  have mem : "gid=0027".toList ∈ (bareItems false
      "uhelper=udisks2,nodev,nosuid,uid=1000,ro,gid=0027,x-a=\"b,c\"".toList).drop 3 := by
    decide +kernel
  exact (ownIds_of_mountString samplePolicy_built samplePolicy_granted mem).2
    (by decide +kernel) (by decide +kernel)

theorem Requestable.reread_iff {o : MountOption} (requestable : Requestable o) :
    optionOfPiece o.text = o ↔ balanced o.name := by
  rw [optionOfPiece_text_iff requestable.item.closed]
  constructor
  · exact fun both => both.2
  · intro closed
    rcases requestable.split with same | sign
    · exact (optionOfPiece_text_iff requestable.item.closed).mp same
    · exact ⟨splitName?_eq_none_of_not_mem sign, closed⟩

private theorem mem_dropLast_safetyOptions {o : MountOption} :
    o ∈ (safetyOptions ++ options).dropLast → o ∈ safetyOptions ∨ o ∈ options.dropLast := by
  cases options with
  | nil =>
    intro mem
    rw [List.append_nil] at mem
    exact .inl (List.dropLast_subset _ mem)
  | cons first rest =>
    intro mem
    rw [List.dropLast_append_cons] at mem
    exact List.mem_append.mp mem

private theorem mem_dropLast_append {o : MountOption} (mem : o ∈ options.dropLast) :
    o ∈ (safetyOptions ++ options).dropLast := by
  cases options with
  | nil => simp at mem
  | cons first rest =>
    rw [List.dropLast_append_cons]
    exact List.mem_append_right _ mem

/-- A mount string can always be read again, and it gives the fixed options and those
of the request exactly if no name leaves a quote open, as one that was cut off at a
quoted equals sign does, and no option but the last ends with a backslash. -/
theorem read_mountString
    (built : (Store.ofPolicyText builtinText).value = .ok policy.builtin) {text : Text}
    (granted : (policy.mountString device caller typeName callerOptions).value = .ok text) :
    ∃ options, policy.requested device caller typeName callerOptions = .ok options ∧
      (∃ found, read text = .ok found) ∧
      (read text = .ok (safetyOptions ++ options) ↔
        (∀ o ∈ options, balanced o.name) ∧
          ∀ o ∈ options.dropLast, o.text.getLast? ≠ some '\\') := by
  obtain ⟨options, made, accepted, rfl⟩ := Policy.requested_of_granted built granted
  have items : ∀ o ∈ safetyOptions ++ options, IsItem o.text := by
    intro o mem
    rcases List.mem_append.mp mem with fixed | asked
    · exact (safetyOptions_items o fixed).1
    · exact (accepted o asked).1.item
  refine ⟨options, made, ?_, ?_⟩
  · apply exists_read_commaSeparated
    · simp [safetyOptions]
    · intro t mem
      obtain ⟨o, inside, rfl⟩ := List.mem_map.mp mem
      exact items o inside
  · rw [read_write_iff]
    constructor
    · rintro ⟨same, unescaped⟩
      constructor
      · intro o mem
        exact (accepted o mem).1.reread_iff.mp (same o (List.mem_append_right _ mem)).2
      · intro o mem
        exact unescaped o (mem_dropLast_append mem)
    · rintro ⟨closed, unescaped⟩
      constructor
      · intro o mem
        refine ⟨items o mem, ?_⟩
        rcases List.mem_append.mp mem with fixed | asked
        · exact (safetyOptions_items o fixed).2.2.1
        · exact (accepted o asked).1.reread_iff.mpr (closed o asked)
      · intro o mem
        rcases mem_dropLast_safetyOptions mem with fixed | asked
        · exact (safetyOptions_items o fixed).2.2.2.2
        · exact unescaped o asked

theorem read_mountString_quotedComma :
    let text := "uhelper=udisks2,nodev,nosuid,uid=1000,ro,gid=0027,x-a=\"b,c\"".toList
    ∃ options, samplePolicy.requested sampleDevice 1000 none
        (some "gid=0027,x-a=\"b,c\"".toList) = .ok options ∧
      (∃ found, read text = .ok found) ∧
      (read text = .ok (safetyOptions ++ options) ↔
        (∀ o ∈ options, balanced o.name) ∧
          ∀ o ∈ options.dropLast, o.text.getLast? ≠ some '\\') :=
  read_mountString samplePolicy_built samplePolicy_granted

/-- A default with a quoted equals sign, and one that ends with a backslash. -/
def misreadText : Text := "[defaults]\ndefaults=\"a=b\",x-a\\\nallow=\"a=b\"\n".toList

def misreadPolicy : Policy :=
  ⟨(Store.ofPolicyText misreadText).value.toOption.getD .empty, ⟨[], .missing⟩, .superuserOnly⟩

/-- What is read from the mount string is not what was judged: the quoted default was
judged as a name and a value, and the backslash takes the next option into its own. -/
theorem misread_mountString :
    let text := "uhelper=udisks2,nodev,nosuid,\"a=b\",x-a\\,x-b".toList
    (Store.ofPolicyText misreadText).value = .ok misreadPolicy.builtin ∧
      (misreadPolicy.mountString sampleDevice 0 none (some "x-b".toList)).value = .ok text ∧
      misreadPolicy.requested sampleDevice 0 none (some "x-b".toList) =
        .ok [.assign "\"a".toList "b\"".toList, .flag "x-a\\".toList, .flag "x-b".toList] ∧
      read text =
        .ok (safetyOptions ++ [.flag "\"a=b\"".toList, .flag "x-a\\,x-b".toList]) :=
  ⟨rfl, rfl, rfl, rfl⟩

end MountPolicy
