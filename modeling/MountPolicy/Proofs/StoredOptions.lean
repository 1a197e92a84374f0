import MountPolicy.Proofs.RequestedOptions
import MountPolicy.Proofs.Segments

/-! Options that are stored as texts. The reader of option strings looks for an equals sign
outside quotes, while a stored text is cut at its first one. Main statement: an option that
was read comes back from its text exactly if no equals sign is quoted in its name, and then
a default that is not filled in is the option that a caller gets from the same text. -/
namespace MountPolicy

open OptionString

namespace MountOption

theorem ofSpec_text_iff {o : MountOption} : ofSpec o.text = o ↔ '=' ∉ o.name := by
  constructor
  · intro same
    rw [← same]
    exact sign_not_mem_name_ofSpec o.text
  · intro absent
    obtain ⟨name, value⟩ := o
    cases value with
    | none => exact ofSpec_of_not_mem absent
    | some value => exact ofSpec_of_assigns ⟨rfl, absent⟩

theorem exists_text_eq (o : MountOption) : ∃ rest, o.text = o.name ++ rest := by
  unfold text
  cases o.value with
  | none => exact ⟨[], (List.append_nil o.name).symm⟩
  | some value => exact ⟨'=' :: value, rfl⟩

theorem assigns_text {o : MountOption} {front back : Text} (named : Assigns o.name front back) :
    ∃ rest, Assigns o.text front rest := by
  obtain ⟨rest, whole⟩ := exists_text_eq o
  refine ⟨back ++ rest, ?_, named.cut⟩
  rw [whole, named.whole, List.append_assoc, List.cons_append]

end MountOption

theorem OptionString.odd_count_of_assigns {t : Text} {options : List MountOption}
    (done : read t = .ok options) {o : MountOption} (mem : o ∈ options) {front back : Text}
    (named : Assigns o.name front back) : Odd (front.count '"') := by
  obtain ⟨item, same⟩ := isItem_of_read done mem
  obtain ⟨uncut, -⟩ := (optionOfPiece_text_iff item.closed).mp same
  apply Nat.not_even_iff_odd.mp
  intro closed
  have cut : splitName? false o.name = some (front, back) := splitName?_eq_some_iff.mpr
    ⟨named.whole, splitName?_eq_none_of_not_mem named.cut, endsQuoted_eq_false_iff.mpr closed⟩
  rw [uncut] at cut
  exact absurd cut nofun

theorem Rules.value_expandDefault_text {o : MountOption} (unquoted : '=' ∉ o.name)
    (plain : o.name ∉ filledNames) (rules : Rules) (caller : UInt32) (sharedMount : Bool) :
    (rules.expandDefault caller sharedMount o.text).value = some o := by
  simp only [filledNames, List.mem_cons, List.not_mem_nil, or_false, not_or] at plain
  obtain ⟨uid, gid, mode, dmode⟩ := plain
  obtain ⟨name, value⟩ := o
  apply FilledIn.value_expandDefault
  cases value with
  | none => exact .flag unquoted
  | some value =>
    have assigns : Assigns (MountOption.assign name value).text name value := ⟨rfl, unquoted⟩
    by_cases fixed : IsFixed rules.set (MountOption.assign name value).text
    · exact .fixed assigns fixed
    · exact .kept assigns fixed uid gid fun _ => ⟨dmode, fun same => absurd same mode⟩

/-- An option that was read comes back from its text if its name has no equals sign. Then it
is the same as a default, too. Otherwise the text is cut inside a quote, and what is left of
the name has the quote open. -/
theorem ofSpec_text_of_read {t : Text} {options : List MountOption}
    (done : read t = .ok options) {o : MountOption} (mem : o ∈ options) :
    (MountOption.ofSpec o.text = o ↔ '=' ∉ o.name) ∧
    ('=' ∉ o.name → o.name ∉ Rules.filledNames →
      ∀ (rules : Rules) (caller : UInt32) (sharedMount : Bool),
        (rules.expandDefault caller sharedMount o.text).value = some o) ∧
    ('=' ∈ o.name → ∃ front rest, MountOption.ofSpec o.text = .assign front rest ∧
      o.text = front ++ '=' :: rest ∧ front ++ ['='] <+: o.name ∧ Odd (front.count '"')) := by
  refine ⟨MountOption.ofSpec_text_iff, Rules.value_expandDefault_text, ?quoted⟩
  case quoted =>
    intro sign
    obtain ⟨front, back, named⟩ := MountOption.exists_assigns sign
    obtain ⟨rest, assigns⟩ := MountOption.assigns_text named
    refine ⟨front, rest, MountOption.ofSpec_of_assigns assigns, assigns.whole, ?_,
      odd_count_of_assigns done mem named⟩
    exact ⟨back, by rw [named.whole, List.append_assoc, List.singleton_append]⟩

theorem ofSpec_text_of_read_quotedValue :
    read "ro,x-a=\"b=c,d\"".toList = .ok [.flag "ro".toList, .assign "x-a".toList "\"b=c,d\"".toList] ∧
      MountOption.ofSpec "x-a=\"b=c,d\"".toList = .assign "x-a".toList "\"b=c,d\"".toList := by
  have done : read "ro,x-a=\"b=c,d\"".toList =
      .ok [.flag "ro".toList, .assign "x-a".toList "\"b=c,d\"".toList] := rfl
  have mem : MountOption.assign "x-a".toList "\"b=c,d\"".toList ∈
      [.flag "ro".toList, .assign "x-a".toList "\"b=c,d\"".toList] :=
    List.mem_cons_of_mem _ List.mem_cons_self
  exact ⟨done, (ofSpec_text_of_read done mem).1.mpr (by decide)⟩

/-- A flag in quotes is read with a comma in its name, and refused for it. As a stored text
it is cut at the sign in the quotes, and no name has a comma any more. -/
theorem misread_quotedFlag :
    let flag := MountOption.flag "\"a=b,c\"".toList
    let stored := MountOption.assign "\"a".toList "b,c\"".toList
    read "\"a=b,c\"".toList = .ok [flag] ∧ MountOption.ofSpec flag.text = stored ∧
      hidesComma flag = true ∧ hidesComma stored = false := by
  decide

end MountPolicy
