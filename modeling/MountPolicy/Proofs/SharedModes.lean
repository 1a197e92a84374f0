import MountPolicy.Rules

/-! Modes on a mount that all users share, as texts and as octal numbers. The last
three digits of a mode are those of owner, group and others, with a bit for each permission.
Main statement: a text has a shared form if it is an octal numeral of three digits or more.
The form has the owner's digit less writing, four at least, in place of the last two digits,
and differs in nothing else. So group and others may read and never write, and a shared form
is its own shared form. -/
namespace MountPolicy.Mode

structure IsMode (mode : Text) : Prop where
  long : 3 ≤ mode.length
  octal : ∀ c ∈ mode, isOctal c

/-- The mode with what its owner may do, less writing, in place of what others may. -/
def Relaxes (mode result : Text) : Prop :=
  IsMode mode ∧ ∃ front owner group others, mode = front ++ [owner, group, others] ∧
    result = front ++ [owner, relaxed owner, relaxed owner]

theorem shared?_append {front : Text} {owner group others : Char}
    (octal : ∀ c ∈ front ++ [owner, group, others], isOctal c) :
    shared? (front ++ [owner, group, others]) =
      some (front ++ [owner, relaxed owner, relaxed owner]) := by
  unfold shared?
  rw [if_pos (List.all_eq_true.mpr octal)]
  simp

theorem IsMode.exists_relaxes {mode : Text} (valid : IsMode mode) :
    ∃ result, Relaxes mode result := by
  have long := valid.long
  rw [← List.length_reverse] at long
  rcases digits : mode.reverse with _ | ⟨others, _ | ⟨group, _ | ⟨owner, front⟩⟩⟩
  · simp [digits] at long
  · simp [digits] at long
  · simp [digits] at long
  · have whole : mode = front.reverse ++ [owner, group, others] := by
      simpa using congrArg List.reverse digits
    exact ⟨_, valid, front.reverse, owner, group, others, whole, rfl⟩

theorem Relaxes.shared? {mode result : Text} (relaxes : Relaxes mode result) :
    shared? mode = some result := by
  obtain ⟨valid, front, owner, group, others, rfl, rfl⟩ := relaxes
  exact shared?_append valid.octal

theorem shared?_eq_none {mode : Text} (invalid : ¬ IsMode mode) : shared? mode = none := by
  unfold Mode.shared?
  split
  · rename_i octal
    split
    · rename_i others group owner rest digits
      have long : mode.length = rest.length + 3 := by
        rw [← List.length_reverse, digits]
        rfl
      exact absurd ⟨by omega, List.all_eq_true.mp octal⟩ invalid
    · rfl
  · rfl

theorem isDigit_of_isOctal {c : Char} (octal : isOctal c) : c.isDigit := by
  simp only [isOctal, Bool.and_eq_true, decide_eq_true_eq] at octal
  simp only [Char.isDigit, Bool.and_eq_true, decide_eq_true_eq]
  exact ⟨octal.1, Nat.le_trans octal.2 (by decide)⟩

theorem isDigit_relaxed {owner : Char} (octal : isOctal owner) : (relaxed owner).isDigit := by
  simp only [isOctal, Bool.and_eq_true, decide_eq_true_eq] at octal
  have bound : owner.toNat ≤ 55 := octal.2
  have zero : '0'.toNat = 48 := rfl
  have digit : '0'.toNat + max (owner.toNat - '0'.toNat - 2) 4 = 52 ∨
      '0'.toNat + max (owner.toNat - '0'.toNat - 2) 4 = 53 := by omega
  unfold relaxed
  rcases digit with four | five
  · rw [four]; decide
  · rw [five]; decide

theorem Relaxes.isDigit {mode result : Text} (relaxes : Relaxes mode result) :
    ∀ c ∈ result, c.isDigit := by
  obtain ⟨valid, front, owner, group, others, rfl, rfl⟩ := relaxes
  have octal := valid.octal
  simp only [List.mem_append, List.mem_cons, List.not_mem_nil, or_false] at octal ⊢
  have ownerOctal : isOctal owner := octal owner (.inr (.inl rfl))
  rintro c (inFront | rfl | rfl | rfl)
  · exact isDigit_of_isOctal (octal c (.inl inFront))
  · exact isDigit_of_isOctal ownerOctal
  · exact isDigit_relaxed ownerOctal
  · exact isDigit_relaxed ownerOctal

theorem isDigit_sharedDirectory : ∀ c ∈ sharedDirectory, c.isDigit := by
  have digits : sharedDirectory.all Char.isDigit := rfl
  exact fun c mem => List.all_eq_true.mp digits c mem

inductive Party where
  | owner
  | group
  | others
deriving DecidableEq

inductive Permission where
  | read
  | write
  | execute
deriving DecidableEq

def Party.place : Party → Nat
  | owner => 2
  | group => 1
  | others => 0

def Permission.bit : Permission → Nat
  | read => 2
  | write => 1
  | execute => 0

def digitValue (c : Char) : Nat := c.toNat - '0'.toNat

def octalValue (mode : Text) : Nat := Nat.ofDigitChars 8 mode 0

def Grants (mode : Text) (party : Party) (permission : Permission) : Prop :=
  (octalValue mode).testBit (3 * party.place + permission.bit)

instance (mode : Text) (party : Party) (permission : Permission) :
    Decidable (Grants mode party permission) :=
  inferInstanceAs (Decidable (_ = true))

theorem octalValue_concat (front : Text) (c : Char) :
    octalValue (front ++ [c]) = 8 * octalValue front + digitValue c := by
  unfold octalValue
  rw [Nat.ofDigitChars_append, Nat.ofDigitChars_cons, Nat.ofDigitChars_nil]
  rfl

theorem octalValue_append (front : Text) (owner group others : Char) :
    octalValue (front ++ [owner, group, others]) =
      64 * (8 * octalValue front + digitValue owner)
        + (8 * digitValue group + digitValue others) := by
  have digits : front ++ [owner, group, others] = front ++ [owner] ++ [group] ++ [others] := by
    simp
  rw [digits, octalValue_concat, octalValue_concat, octalValue_concat]
  omega

theorem isOctal_iff_toNat {c : Char} : isOctal c ↔ 48 ≤ c.toNat ∧ c.toNat ≤ 55 := by
  simp only [isOctal, Bool.and_eq_true, decide_eq_true_eq]
  exact Iff.rfl

theorem digitValue_digitChar {n : Nat} (small : n < 8) : digitValue (Nat.digitChar n) = n := by
  have zero : '0'.toNat = 48 := rfl
  unfold digitValue
  rw [Nat.toNat_digitChar_of_lt_ten (by omega)]
  omega

theorem isOctal_iff_digitChar {c : Char} : isOctal c ↔ ∃ n < 8, c = Nat.digitChar n := by
  rw [isOctal_iff_toNat]
  constructor
  · rintro ⟨above, below⟩
    refine ⟨c.toNat - 48, by omega, Char.toNat_inj.mp ?_⟩
    rw [Nat.toNat_digitChar_of_lt_ten (by omega)]
    omega
  · rintro ⟨n, small, rfl⟩
    rw [Nat.toNat_digitChar_of_lt_ten (by omega)]
    omega

theorem max_sub_two_eq {n : Nat} (small : n < 8) : max (n - 2) 4 = 4 ∨ max (n - 2) 4 = 5 := by
  omega

theorem relaxed_digitChar {n : Nat} (small : n < 8) :
    relaxed (Nat.digitChar n) = Nat.digitChar (max (n - 2) 4) := by
  have value : (Nat.digitChar n).toNat - '0'.toNat = n := digitValue_digitChar small
  unfold relaxed
  rw [value]
  rcases max_sub_two_eq small with four | five
  · rw [four]
    rfl
  · rw [five]
    rfl

theorem isOctal_relaxed {owner : Char} (octal : isOctal owner) : isOctal (relaxed owner) := by
  obtain ⟨n, small, rfl⟩ := isOctal_iff_digitChar.mp octal
  rw [relaxed_digitChar small]
  exact isOctal_iff_digitChar.mpr ⟨max (n - 2) 4, by omega, rfl⟩

theorem relaxes_of_shared? {mode result : Text} (found : shared? mode = some result) :
    Relaxes mode result := by
  by_cases valid : IsMode mode
  · obtain ⟨other, relaxes⟩ := valid.exists_relaxes
    have same : some other = some result := relaxes.shared?.symm.trans found
    rwa [← Option.some.inj same]
  · rw [shared?_eq_none valid] at found
    cases found

theorem isSome_shared?_iff {mode : Text} : (shared? mode).isSome ↔ IsMode mode := by
  rw [Option.isSome_iff_exists]
  constructor
  · rintro ⟨result, found⟩
    exact (relaxes_of_shared? found).1
  · intro valid
    obtain ⟨result, relaxes⟩ := valid.exists_relaxes
    exact ⟨result, relaxes.shared?⟩

theorem IsMode.relaxed {front : Text} {owner group others : Char}
    (valid : IsMode (front ++ [owner, group, others])) :
    IsMode (front ++ [owner, Mode.relaxed owner, Mode.relaxed owner]) := by
  have octal := valid.octal
  simp only [List.forall_mem_append, List.forall_mem_cons] at octal
  obtain ⟨inFront, ofOwner, -⟩ := octal
  have ofOthers := isOctal_relaxed ofOwner
  refine ⟨by simp, ?_⟩
  simp only [List.forall_mem_append, List.forall_mem_cons]
  exact ⟨inFront, ofOwner, ofOthers, ofOthers, by simp⟩

theorem Relaxes.relaxes_self {mode result : Text} (relaxes : Relaxes mode result) :
    Relaxes result result := by
  obtain ⟨valid, front, owner, group, others, rfl, rfl⟩ := relaxes
  exact ⟨valid.relaxed, front, owner, relaxed owner, relaxed owner, rfl, rfl⟩

theorem octalValue_of_relaxes (front : Text) {n : Nat} {group others : Char} (small : n < 8)
    (groupOctal : isOctal group) (othersOctal : isOctal others) :
    octalValue (front ++ [Nat.digitChar n, relaxed (Nat.digitChar n), relaxed (Nat.digitChar n)]) =
      64 * (octalValue (front ++ [Nat.digitChar n, group, others]) / 64) + 9 * max (n - 2) 4 := by
  obtain ⟨g, groupSmall, rfl⟩ := isOctal_iff_digitChar.mp groupOctal
  obtain ⟨o, othersSmall, rfl⟩ := isOctal_iff_digitChar.mp othersOctal
  have relaxedSmall : max (n - 2) 4 < 8 := by omega
  rw [relaxed_digitChar small, octalValue_append, octalValue_append]
  simp only [digitValue_digitChar, small, groupSmall, othersSmall, relaxedSmall]
  omega

theorem grants_of_octalValue_eq {mode : Text} {front digit : Nat}
    (twice : octalValue mode = 64 * front + 9 * digit) (choice : digit = 4 ∨ digit = 5)
    {party : Party} (foreign : party ≠ .owner) :
    Grants mode party .read ∧ ¬ Grants mode party .write := by
  simp only [Grants, twice, Nat.testBit_eq_decide_div_mod_eq, decide_eq_true_eq]
  cases party with
  | owner => exact absurd rfl foreign
  | group =>
    simp only [Party.place, Permission.bit]
    omega
  | others =>
    simp only [Party.place, Permission.bit]
    omega

/-- An octal numeral of three digits or more, and no other text, has a shared form: the same
numeral up to the owner's digit, then twice that digit less writing, four at least. Group
and others may read and never write, and nothing changes when the form is taken again. -/
theorem shared?_relaxation (mode : Text) :
    ((shared? mode).isSome ↔ 3 ≤ mode.length ∧ ∀ c ∈ mode, isOctal c) ∧
    ∀ result, shared? mode = some result →
      ∃ owner < 8, mode[mode.length - 3]? = some (Nat.digitChar owner) ∧
        result.length = mode.length ∧
        result.take (mode.length - 2) = mode.take (mode.length - 2) ∧
        result.drop (mode.length - 2) = List.replicate 2 (Nat.digitChar (max (owner - 2) 4)) ∧
        octalValue result = 64 * (octalValue mode / 64) + 9 * max (owner - 2) 4 ∧
        (∀ party, party ≠ .owner →
          Grants result party .read ∧ ¬ Grants result party .write) ∧
        shared? result = some result := by
  constructor
  · rw [isSome_shared?_iff]
    exact ⟨fun valid => ⟨valid.long, valid.octal⟩, fun ⟨long, octal⟩ => ⟨long, octal⟩⟩
  · intro result found
    have relaxes := relaxes_of_shared? found
    have again := relaxes.relaxes_self.shared?
    obtain ⟨valid, front, ownerDigit, group, others, rfl, rfl⟩ := relaxes
    have octal := valid.octal
    simp only [List.forall_mem_append, List.forall_mem_cons] at octal
    obtain ⟨-, ownerOctal, groupOctal, othersOctal, -⟩ := octal
    obtain ⟨owner, small, rfl⟩ := isOctal_iff_digitChar.mp ownerOctal
    have value := octalValue_of_relaxes front small groupOctal othersOctal
    have cut (last : Text) :
        (front ++ Nat.digitChar owner :: last).take (front.length + 1) =
            front ++ [Nat.digitChar owner] ∧
          (front ++ Nat.digitChar owner :: last).drop (front.length + 1) = last := by
      rw [List.append_cons]
      exact ⟨List.take_left' (by simp), List.drop_left' (by simp)⟩
    have length : (front ++ [Nat.digitChar owner, group, others]).length = front.length + 3 := by
      simp
    rw [length]
    refine ⟨owner, small, by simp, by simp, ?_, ?_, value, ?_, again⟩
    · exact (cut _).1.trans (cut _).1.symm
    · rw [← relaxed_digitChar small]
      exact (cut _).2
    · intro party foreign
      exact grants_of_octalValue_eq value (max_sub_two_eq small) foreign

/-- A digit in front of the owner's stays, and no permission of the owner is lost. -/
theorem shared?_relaxation_sticky :
    shared? "1720".toList = some "1755".toList ∧
      Grants "1720".toList .group .write ∧ ¬ Grants "1755".toList .group .write ∧
      octalValue "1755".toList = 64 * (octalValue "1720".toList / 64) + 9 * 5 := by
  have found : shared? "1720".toList = some "1755".toList := by decide
  obtain ⟨owner, small, digit, -, -, -, value, grants, -⟩ :=
    (shared?_relaxation "1720".toList).2 _ found
  have seven : owner = 7 := by
    have same : Nat.digitChar 7 = Nat.digitChar owner := Option.some.inj digit
    rw [← digitValue_digitChar small, ← same]
    rfl
  rw [seven] at value
  exact ⟨found, by decide, (grants .group (by decide)).2, value⟩

end MountPolicy.Mode
