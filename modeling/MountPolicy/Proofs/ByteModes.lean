import MountPolicy.Proofs.Bytes
import MountPolicy.Proofs.SharedModes

/-! Shared modes by the bytes of the mode, with every subtraction checked. Main statement:
all bytes are octal digits exactly if all characters are, and then the owner's digit stands
three bytes before the end, so the bytes give the shared form and nothing fails. -/
namespace MountPolicy.Mode

open Text

def minus (m n : Nat) : Except AccessFault Nat :=
  if n ≤ m then .ok (m - n) else .error .noNumber

def byteOf (n : Nat) : Except AccessFault UInt8 :=
  if n < UInt8.size then .ok (UInt8.ofNat n) else .error .noNumber

def isOctalByte (byte : UInt8) : Bool := '0'.toUInt8 ≤ byte && byte ≤ '7'.toUInt8

/-- The shared form of a text that is long enough and has octal digits only. -/
def sharedDigits (mode : Text) : Except AccessFault Text := do
  let ownerAt ← minus (bytes mode).length 3
  let owner ← minus (← byteAt mode ownerAt).toNat '0'.toNat
  let others ← byteOf ('0'.toNat + max (owner - 2) 4)
  let front ← slice mode 0 (ownerAt + 1)
  return front ++ [Char.ofUInt8 others, Char.ofUInt8 others]

def sharedByBytes (mode : Text) : Except AccessFault (Option Text) :=
  if (bytes mode).length < 3 ∨ ¬ (bytes mode).all isOctalByte then .ok none
  else (sharedDigits mode).map some

theorem toNat_digitChar_lt {n : Nat} (small : n < 8) : (Nat.digitChar n).toNat < 128 := by
  rw [Nat.toNat_digitChar_of_lt_ten (by omega)]
  omega

theorem toNat_toUInt8_digitChar {n : Nat} (small : n < 8) :
    (Nat.digitChar n).toUInt8.toNat = 48 + n := by
  rw [toNat_toUInt8 (toNat_digitChar_lt small), Nat.toNat_digitChar_of_lt_ten (by omega)]

theorem isOctalByte_iff_digitChar {byte : UInt8} :
    isOctalByte byte ↔ ∃ n < 8, byte = (Nat.digitChar n).toUInt8 := by
  have zero : '0'.toUInt8.toNat = 48 := rfl
  have seven : '7'.toUInt8.toNat = 55 := rfl
  simp only [isOctalByte, Bool.and_eq_true, decide_eq_true_eq, UInt8.le_iff_toNat_le]
  constructor
  · rintro ⟨above, below⟩
    have small : byte.toNat - 48 < 8 := by omega
    refine ⟨byte.toNat - 48, small, UInt8.toNat_inj.mp ?_⟩
    rw [toNat_toUInt8_digitChar small]
    omega
  · rintro ⟨n, small, rfl⟩
    rw [toNat_toUInt8_digitChar small]
    omega

theorem isOctalByte_iff_of_shows {byte : UInt8} {c : Char} (shows : Shows byte c) :
    isOctalByte byte ↔ isOctal c := by
  rw [isOctalByte_iff_digitChar, isOctal_iff_digitChar]
  exact exists_congr fun n => and_congr_right fun small => shows _ (toNat_digitChar_lt small)

theorem all_isOctalByte_iff {mode : Text} :
    (bytes mode).all isOctalByte ↔ ∀ c ∈ mode, isOctal c := by
  rw [List.all_eq_true, bytes_eq]
  constructor
  · intro digits c mem
    obtain ⟨byte, others, whole⟩ :=
      List.exists_cons_of_ne_nil (String.utf8EncodeChar_ne_nil (c := c))
    have first : byte ∈ String.utf8EncodeChar c := by simp [whole]
    exact (isOctalByte_iff_of_shows (shows_of_mem first)).mp
      (digits byte (List.mem_flatMap.mpr ⟨c, mem, first⟩))
  · intro digits byte mem
    obtain ⟨c, inside, ofChar⟩ := List.mem_flatMap.mp mem
    exact (isOctalByte_iff_of_shows (shows_of_mem ofChar)).mpr (digits c inside)

theorem byteSize_of_isOctal {mode : Text} (octal : ∀ c ∈ mode, isOctal c) :
    byteSize mode = mode.length := by
  refine byteSize_of_ascii fun c mem => ?_
  obtain ⟨n, small, rfl⟩ := isOctal_iff_digitChar.mp (octal c mem)
  exact toNat_digitChar_lt small

theorem isMode_iff_bytes {mode : Text} :
    IsMode mode ↔ ¬ ((bytes mode).length < 3 ∨ ¬ (bytes mode).all isOctalByte) := by
  rw [not_or, not_not, Nat.not_lt, all_isOctalByte_iff, length_bytes]
  constructor
  · rintro ⟨long, octal⟩
    exact ⟨by rwa [byteSize_of_isOctal octal], octal⟩
  · rintro ⟨long, octal⟩
    exact ⟨by rwa [byteSize_of_isOctal octal] at long, octal⟩

theorem byteOf_relaxed {n : Nat} (small : n < 8) :
    ∃ byte, byteOf ('0'.toNat + max (n - 2) 4) = .ok byte ∧
      Char.ofUInt8 byte = relaxed (Nat.digitChar n) := by
  rw [relaxed_digitChar small]
  rcases max_sub_two_eq small with four | five
  · rw [four]
    exact ⟨_, rfl, rfl⟩
  · rw [five]
    exact ⟨_, rfl, rfl⟩

theorem sharedDigits_eq {mode result : Text} (relaxes : Relaxes mode result) :
    sharedDigits mode = .ok result := by
  obtain ⟨valid, front, owner, group, others, rfl, rfl⟩ := relaxes
  have octal := valid.octal
  simp only [List.forall_mem_append, List.forall_mem_cons] at octal
  obtain ⟨inFront, ownerOctal, groupOctal, othersOctal, -⟩ := octal
  obtain ⟨n, small, rfl⟩ := isOctal_iff_digitChar.mp ownerOctal
  have last : byteSize [Nat.digitChar n, group, others] = 3 :=
    byteSize_of_isOctal (by simp [ownerOctal, groupOctal, othersOctal])
  have ownerAt : minus (bytes (front ++ [Nat.digitChar n, group, others])).length 3 =
      .ok (byteSize front) := by
    rw [length_bytes, byteSize_append, last, minus, if_pos (by omega), Nat.add_sub_cancel]
  have ownerByte := byteAt_ascii front [group, others] (toNat_digitChar_lt small)
  have ownerDigit : minus (Nat.digitChar n).toUInt8.toNat '0'.toNat = .ok n := by
    have zero : '0'.toNat = 48 := rfl
    rw [toNat_toUInt8_digitChar small, zero, minus, if_pos (by omega), Nat.add_sub_cancel_left]
  obtain ⟨byte, fits, shown⟩ := byteOf_relaxed small
  have single : byteSize [Nat.digitChar n] = 1 :=
    byteSize_of_isOctal (by simp [ownerOctal])
  have upToOwner : slice (front ++ [Nat.digitChar n, group, others]) 0 (byteSize front + 1) =
      .ok (front ++ [Nat.digitChar n]) := by
    refine slice_eq [] (front ++ [Nat.digitChar n]) [group, others] (by simp) rfl ?_
    rw [List.nil_append, byteSize_append, single]
  rw [sharedDigits, ownerAt, AccessFault.ok_bind, ownerByte, AccessFault.ok_bind, ownerDigit,
    AccessFault.ok_bind, fits, AccessFault.ok_bind, upToOwner, AccessFault.ok_bind, shown,
    List.append_assoc]
  rfl

theorem sharedByBytes_eq (mode : Text) : sharedByBytes mode = .ok (shared? mode) := by
  unfold sharedByBytes
  by_cases valid : IsMode mode
  · obtain ⟨result, relaxes⟩ := valid.exists_relaxes
    rw [if_neg (isMode_iff_bytes.mp valid), sharedDigits_eq relaxes, relaxes.shared?]
    rfl
  · rw [if_pos (not_not.mp (mt isMode_iff_bytes.mpr valid)), shared?_eq_none valid]

end MountPolicy.Mode
