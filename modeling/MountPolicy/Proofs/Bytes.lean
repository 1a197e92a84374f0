import Mathlib.Data.String.Basic
import MountPolicy.Tables

/-! Texts by their bytes. Reading a byte or taking a part out fails where the
text has none, and a part has to begin and end where characters do. Main statements: texts
in order of their code points are in order of their UTF-8 bytes, so a map with texts for
keys is visited in byte order; a byte below 128 stands in no character but its own, so
wherever such a byte is read a character begins, and the text can be cut there. -/
namespace MountPolicy

namespace Text

/-- The UTF-8 form of the text. -/
def bytes (t : Text) : List UInt8 := (String.ofList t).toUTF8.data.toList

theorem bytes_eq (t : Text) : bytes t = t.flatMap String.utf8EncodeChar := by
  rw [bytes, String.toUTF8_eq_toByteArray, String.toByteArray_ofList, List.utf8Encode,
    List.data_toByteArray]

private theorem ofNat_cons_lt_iff {m n : Nat} (small : m < 256) (bound : n < 256)
    {s t : List UInt8} :
    UInt8.ofNat m :: s < UInt8.ofNat n :: t ↔ m < n ∨ m = n ∧ s < t := by
  have first : (UInt8.ofNat m).toNat = m := by rw [UInt8.toNat_ofNat', Nat.mod_eq_of_lt small]
  have second : (UInt8.ofNat n).toNat = n := by rw [UInt8.toNat_ofNat', Nat.mod_eq_of_lt bound]
  rw [List.cons_lt_cons_iff, UInt8.lt_iff_toNat_lt, ← UInt8.toNat_inj, first, second]

theorem utf8EncodeChar_append_lt {c d : Char} (less : c < d) (s t : List UInt8) :
    String.utf8EncodeChar c ++ s < String.utf8EncodeChar d ++ t := by
  have below : c.val.toNat < d.val.toNat := UInt32.lt_iff_toNat_lt.mp (Char.lt_def.mp less)
  have bound : d.val.toNat < 0x110000 := by
    rcases d.valid with low | ⟨-, high⟩
    · exact Nat.lt_trans low (by decide)
    · exact high
  unfold String.utf8EncodeChar
  dsimp only
  generalize c.val.toNat = v at below ⊢
  generalize d.val.toNat = w at below bound ⊢
  -- The groups of six bits are digits of the code point: each quotient is cut out of the last.
  have groups (n : Nat) (small : n < 0x110000) :
      n / 64 / 64 = n / 4096 ∧ n / 4096 / 64 = n / 262144 ∧ n / 262144 / 8 = 0 :=
    ⟨Nat.div_div_eq_div_mul n 64 64, Nat.div_div_eq_div_mul n 4096 64, by omega⟩
  have groupsBelow := groups v (Nat.lt_trans below bound)
  have groupsAbove := groups w bound
  repeat' split
  all_goals
    simp (disch := omega) only [List.cons_append, ofNat_cons_lt_iff]
    omega

theorem bytes_lt_of_lt {a b : Text} (less : a < b) : bytes a < bytes b := by
  rw [bytes_eq, bytes_eq]
  induction a generalizing b with
  | nil =>
    cases b with
    | nil => exact absurd less (List.lt_irrefl [])
    | cons d rest =>
      obtain ⟨byte, others, whole⟩ := List.exists_cons_of_ne_nil
        (List.append_ne_nil_of_left_ne_nil (String.utf8EncodeChar_ne_nil (c := d))
          (rest.flatMap String.utf8EncodeChar))
      rw [List.flatMap_cons, whole]
      exact List.nil_lt_cons byte others
  | cons c front ih =>
    cases b with
    | nil => exact absurd less (List.not_lt_nil _)
    | cons d rest =>
      rw [List.flatMap_cons, List.flatMap_cons]
      rcases List.cons_lt_cons_iff.mp less with differ | ⟨rfl, later⟩
      · exact utf8EncodeChar_append_lt differ _ _
      · exact List.append_left_lt (ih later)

theorem bytes_lt_bytes_iff {a b : Text} : bytes a < bytes b ↔ a < b := by
  constructor
  · intro less
    rcases KeyOrder.total a b with before | rfl | after
    · exact of_decide_eq_true before
    · exact absurd less (List.lt_irrefl _)
    · exact absurd less (List.lt_asymm (bytes_lt_of_lt (of_decide_eq_true after)))
  · exact bytes_lt_of_lt

end Text

/-- What was asked for and cannot be given. -/
inductive AccessFault where
  | noByte
  /-- A part that ends before it begins, or that begins or ends inside a character or
  outside the text. -/
  | noPart
  /-- A number below zero, or a byte above the largest. -/
  | noNumber
deriving DecidableEq

namespace AccessFault

variable {α β : Type} {f : α → Except AccessFault β}

theorem ok_bind (a : α) : (Except.ok a : Except AccessFault α) >>= f = f a := rfl

theorem exists_of_bind_eq_ok {x : Except AccessFault α} {b : β} (done : x >>= f = .ok b) :
    ∃ a, x = .ok a ∧ f a = .ok b := by
  cases x with
  | error fault => cases done
  | ok a => exact ⟨a, rfl, done⟩

end AccessFault

namespace Text

/-- Whether a character begins at byte `i`, or the text ends there. -/
def IsBoundary (t : Text) (i : Nat) : Prop := (String.Pos.Raw.mk i).IsValid (String.ofList t)

instance (t : Text) (i : Nat) : Decidable (IsBoundary t i) :=
  inferInstanceAs (Decidable (String.Pos.Raw.IsValid _ _))

def byteAt (t : Text) (i : Nat) : Except AccessFault UInt8 :=
  match (bytes t)[i]? with
  | some byte => .ok byte
  | none => .error .noByte

def slice (t : Text) (i j : Nat) : Except AccessFault Text :=
  if i ≤ j ∧ IsBoundary t i ∧ IsBoundary t j then
    .ok (String.Pos.Raw.extract (String.ofList t) ⟨i⟩ ⟨j⟩).toList
  else .error .noPart

theorem byteSize_singleton (c : Char) : byteSize [c] = c.utf8Size := byteSize_cons c []

theorem byteSize_pos {t : Text} (present : t ≠ []) : 0 < byteSize t := by
  obtain ⟨c, rest, rfl⟩ := List.exists_cons_of_ne_nil present
  have room := c.utf8Size_pos
  rw [byteSize_cons]
  omega

theorem bytes_append (s t : Text) : bytes (s ++ t) = bytes s ++ bytes t := by
  simp only [bytes_eq, List.flatMap_append]

theorem length_bytes (t : Text) : (bytes t).length = byteSize t := by
  rw [bytes_eq]
  induction t with
  | nil => rfl
  | cons c rest ih =>
    rw [List.flatMap_cons, List.length_append, String.length_utf8EncodeChar, byteSize_cons, ih]

theorem lt_of_byteAt {t : Text} {i : Nat} {byte : UInt8} (read : byteAt t i = .ok byte) :
    i < byteSize t := by
  rw [← length_bytes]
  unfold byteAt at read
  split at read
  · rename_i found
    exact (List.getElem?_eq_some_iff.mp found).1
  · cases read

theorem isBoundary_iff {t : Text} {i : Nat} :
    IsBoundary t i ↔ ∃ front rest, t = front ++ rest ∧ byteSize front = i := by
  unfold IsBoundary
  rw [String.Pos.Raw.isValid_ofList]
  constructor
  · rintro ⟨n, size⟩
    exact ⟨t.take n, t.drop n, (List.take_append_drop n t).symm, size.symm⟩
  · rintro ⟨front, rest, rfl, size⟩
    exact ⟨front.length, by rw [List.take_left, ← size, byteSize]⟩

theorem isBoundary_append (front rest : Text) : IsBoundary (front ++ rest) (byteSize front) :=
  isBoundary_iff.mpr ⟨front, rest, rfl, rfl⟩

theorem exists_cons_of_isBoundary {t : Text} {i : Nat} (boundary : IsBoundary t i)
    (inside : i < byteSize t) : ∃ front c rest, t = front ++ c :: rest ∧ byteSize front = i := by
  obtain ⟨front, rest, rfl, start⟩ := isBoundary_iff.mp boundary
  cases rest with
  | nil =>
    rw [List.append_nil, start] at inside
    exact absurd inside (Nat.lt_irrefl i)
  | cons c rest => exact ⟨front, c, rest, rfl, start⟩

theorem slice_eq {t : Text} {i j : Nat} (front part rest : Text) (whole : t = front ++ part ++ rest)
    (start : byteSize front = i) (stop : byteSize (front ++ part) = j) :
    slice t i j = .ok part := by
  subst whole start stop
  have ordered : byteSize front ≤ byteSize (front ++ part) := by
    rw [byteSize_append]
    exact Nat.le_add_right _ _
  have first := isBoundary_append front (part ++ rest)
  rw [← List.append_assoc] at first
  have cut := String.extract_of_valid front part rest
  rw [← String.utf8ByteSize_ofList, ← String.utf8ByteSize_ofList, ← byteSize, ← byteSize,
    ← byteSize_append] at cut
  rw [slice, if_pos ⟨ordered, first, isBoundary_append (front ++ part) rest⟩, cut,
    String.toList_ofList]

/-- The byte tells which ASCII character it belongs to, or that it belongs to none. -/
def Shows (byte : UInt8) (c : Char) : Prop :=
  ∀ d : Char, d.toNat < 128 → (byte = d.toUInt8 ↔ c = d)

theorem Shows.beq {byte : UInt8} {c d : Char} (shows : Shows byte c) (ascii : d.toNat < 128) :
    (byte == d.toUInt8) = (c == d) := by
  rw [Bool.eq_iff_iff, beq_iff_eq, beq_iff_eq]
  exact shows d ascii

theorem utf8EncodeChar_of_ascii {c : Char} (ascii : c.toNat < 128) :
    String.utf8EncodeChar c = [c.toUInt8] := by
  have small : c.val.toNat ≤ 127 := Nat.le_of_lt_succ ascii
  exact String.utf8EncodeChar_eq_singleton
    (Char.utf8Size_eq_one_iff.mpr (UInt32.le_iff_toNat_le.mpr small))

theorem byteSize_of_ascii {t : Text} (ascii : ∀ c ∈ t, c.toNat < 128) :
    byteSize t = t.length := by
  induction t with
  | nil => rfl
  | cons c rest ih =>
    obtain ⟨first, later⟩ := List.forall_mem_cons.mp ascii
    rw [byteSize_cons, ih later, ← String.length_utf8EncodeChar, utf8EncodeChar_of_ascii first,
      List.length_singleton, List.length_cons, Nat.add_comm]

theorem le_of_mem_utf8EncodeChar {c : Char} (long : 128 ≤ c.toNat) {byte : UInt8}
    (mem : byte ∈ String.utf8EncodeChar c) : 128 ≤ byte.toNat := by
  have notOne : ¬ c.val.toNat ≤ 127 := Nat.not_le.mpr long
  unfold String.utf8EncodeChar at mem
  dsimp only at mem
  rw [if_neg notOne] at mem
  generalize c.val.toNat = v at mem
  split at mem
  · simp only [List.mem_cons, List.not_mem_nil, or_false] at mem
    rcases mem with rfl | rfl <;> rw [UInt8.toNat_ofNat'] <;> omega
  · split at mem
    · simp only [List.mem_cons, List.not_mem_nil, or_false] at mem
      rcases mem with rfl | rfl | rfl <;> rw [UInt8.toNat_ofNat'] <;> omega
    · simp only [List.mem_cons, List.not_mem_nil, or_false] at mem
      rcases mem with rfl | rfl | rfl | rfl <;> rw [UInt8.toNat_ofNat'] <;> omega

theorem toNat_toUInt8 {d : Char} (ascii : d.toNat < 128) : d.toUInt8.toNat = d.toNat := by
  have small : d.val.toNat < 128 := ascii
  rw [Char.toUInt8, UInt32.toNat_toUInt8]
  exact Nat.mod_eq_of_lt (by omega)

theorem shows_of_mem {c : Char} {byte : UInt8} (mem : byte ∈ String.utf8EncodeChar c) :
    Shows byte c := by
  intro d ascii
  by_cases short : c.toNat < 128
  · rw [utf8EncodeChar_of_ascii short, List.mem_singleton] at mem
    rw [mem, ← UInt8.toNat_inj, toNat_toUInt8 short, toNat_toUInt8 ascii, Char.toNat_inj]
  · have above := le_of_mem_utf8EncodeChar (Nat.not_lt.mp short) mem
    constructor
    · rintro rfl
      rw [toNat_toUInt8 ascii] at above
      omega
    · rintro rfl
      exact absurd ascii short

theorem exists_byteAt (front : Text) (c : Char) (rest : Text) {k : Nat} (inside : k < c.utf8Size) :
    ∃ byte, byteAt (front ++ c :: rest) (byteSize front + k) = .ok byte ∧ Shows byte c := by
  rw [← String.length_utf8EncodeChar] at inside
  have found : (bytes (front ++ c :: rest))[byteSize front + k]? =
      some (String.utf8EncodeChar c)[k] := by
    rw [bytes_append, ← length_bytes, List.getElem?_append_right (Nat.le_add_right _ _),
      Nat.add_sub_cancel_left, bytes_eq, List.flatMap_cons, List.getElem?_append_left inside,
      List.getElem?_eq_getElem inside]
  refine ⟨(String.utf8EncodeChar c)[k], ?_, shows_of_mem (List.getElem_mem inside)⟩
  rw [byteAt, found]

theorem byteAt_ascii (front : Text) {c : Char} (rest : Text) (ascii : c.toNat < 128) :
    byteAt (front ++ c :: rest) (byteSize front) = .ok c.toUInt8 := by
  obtain ⟨byte, read, shows⟩ := exists_byteAt front c rest c.utf8Size_pos
  rwa [Nat.add_zero, (shows c ascii).mpr rfl] at read

end Text

end MountPolicy
