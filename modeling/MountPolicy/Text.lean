/-! Texts as lists of Unicode scalar values, with the cuts that option
strings, configuration files and device records have in common, their lines, the
white space around them, and numbers below 2^32 in decimal. -/
namespace MountPolicy

abbrev Text := List Char

namespace Text

/-- ASCII letters in lower case; every other character stays as it is. -/
def lowercase (t : Text) : Text := t.map Char.toLower

def byteSize (t : Text) : Nat := (String.ofList t).utf8ByteSize

def splitFirst? (c : Char) : Text → Option (Text × Text)
  | [] => none
  | d :: rest =>
    if d = c then some ([], rest)
    else (splitFirst? c rest).map fun (before, after) => (d :: before, after)

def beforeLast? (c : Char) : Text → Option Text
  | [] => none
  | d :: rest =>
    match beforeLast? c rest with
    | some before => some (d :: before)
    | none => if d = c then some [] else none

def occurs (part : Text) : Text → Bool
  | [] => part.isEmpty
  | c :: rest => part.isPrefixOf (c :: rest) || occurs part rest

def commaSeparated (items : List Text) : Text := List.intercalate [','] items

@[simp] theorem byteSize_nil : byteSize [] = 0 := rfl

theorem byteSize_cons (c : Char) (t : Text) : byteSize (c :: t) = c.utf8Size + byteSize t := by
  rw [byteSize, String.ofList_cons, String.utf8ByteSize_append, String.utf8ByteSize_singleton,
    byteSize]

theorem byteSize_append (s t : Text) : byteSize (s ++ t) = byteSize s + byteSize t := by
  rw [byteSize, String.ofList_append, String.utf8ByteSize_append, byteSize, byteSize]

theorem occurs_iff {part t : Text} :
    occurs part t ↔ ∃ before after, t = before ++ part ++ after := by
  induction t with
  | nil => simp [occurs, List.isEmpty_iff, and_comm]
  | cons c rest ih =>
    simp only [occurs, Bool.or_eq_true, List.isPrefixOf_iff_prefix, ih]
    constructor
    · rintro (⟨after, whole⟩ | ⟨before, after, whole⟩)
      · exact ⟨[], after, by simp [whole]⟩
      · exact ⟨c :: before, after, by simp [whole]⟩
    · rintro ⟨before, after, whole⟩
      cases before with
      | nil => exact .inl ⟨after, by simpa using whole.symm⟩
      | cons d before =>
        simp only [List.cons_append, List.cons.injEq] at whole
        exact .inr ⟨before, after, by simp [whole.2]⟩

theorem splitFirst?_eq_none {c : Char} {t : Text} : splitFirst? c t = none ↔ c ∉ t := by
  induction t with
  | nil => simp [splitFirst?]
  | cons d rest ih =>
    by_cases same : d = c
    · simp [splitFirst?, same]
    · simp [splitFirst?, same, ih, Ne.symm same]

theorem eq_of_splitFirst? {c : Char} {t before after : Text}
    (h : splitFirst? c t = some (before, after)) : t = before ++ c :: after ∧ c ∉ before := by
  induction t generalizing before with
  | nil => simp [splitFirst?] at h
  | cons d rest ih =>
    by_cases same : d = c
    · simp only [splitFirst?, same, if_true, Option.some.injEq, Prod.mk.injEq] at h
      obtain ⟨rfl, rfl⟩ := h
      simp [same]
    · simp only [splitFirst?, same, if_false, Option.map_eq_some_iff, Prod.exists] at h
      obtain ⟨front, back, found, pair⟩ := h
      simp only [Prod.mk.injEq] at pair
      obtain ⟨rfl, rfl⟩ := pair
      obtain ⟨whole, absent⟩ := ih found
      simp [whole, absent, Ne.symm same]

theorem splitFirst?_append {c : Char} {before after : Text} (absent : c ∉ before) :
    splitFirst? c (before ++ c :: after) = some (before, after) := by
  induction before with
  | nil => simp [splitFirst?]
  | cons d rest ih =>
    simp only [List.mem_cons, not_or] at absent
    simp [splitFirst?, Ne.symm absent.1, ih absent.2]

/-! A line ends at a line feed, and one carriage return right before that line feed
belongs to the line's end; a carriage return at the end of the text ends nothing and stays. -/

def withoutReturn (line : Text) : Text :=
  match ['\r'].isSuffixOf? line with
  | some rest => rest
  | none => line

/-- All pieces but the last were ended by a line feed; an empty last piece is no line. -/
def linesOfPieces : List Text → List Text
  | [] => []
  | [last] => if last = [] then [] else [last]
  | line :: rest => withoutReturn line :: linesOfPieces rest

def lines (t : Text) : List Text := linesOfPieces (t.splitOn '\n')

/-- First and last code points of the ranges with the property White_Space. -/
def blankRanges : List (Nat × Nat) :=
  [(0x09, 0x0D), (0x20, 0x20), (0x85, 0x85), (0xA0, 0xA0), (0x1680, 0x1680),
   (0x2000, 0x200A), (0x2028, 0x2029), (0x202F, 0x202F), (0x205F, 0x205F), (0x3000, 0x3000)]

def isBlank (c : Char) : Bool :=
  blankRanges.any fun (first, last) => first ≤ c.toNat && c.toNat ≤ last

def trimStart (t : Text) : Text := t.dropWhile isBlank

def trimEnd (t : Text) : Text := (t.reverse.dropWhile isBlank).reverse

def trim (t : Text) : Text := trimEnd (trimStart t)

/-! A numeral is a non-empty run of ASCII digits, of any length and with any number of
leading zeros; it is read as an unbounded natural number first, so no numeral wraps around. -/

def ofNat (n : Nat) : Text := Nat.toDigits 10 n

def ofId (id : UInt32) : Text := ofNat id.toNat

def isNumeral (t : Text) : Bool := !t.isEmpty && t.all Char.isDigit

def decimalValue (t : Text) : Nat := Nat.ofDigitChars 10 t 0

def toId? (t : Text) : Option UInt32 :=
  if isNumeral t && decide (decimalValue t < UInt32.size)
  then some (UInt32.ofNat (decimalValue t))
  else none

theorem isNumeral_ofNat (n : Nat) : isNumeral (ofNat n) := by
  simp only [isNumeral, ofNat, Bool.and_eq_true, Bool.not_eq_true', List.isEmpty_eq_false_iff,
    List.all_eq_true]
  exact ⟨Nat.toDigits_ne_nil, fun c mem => Nat.isDigit_of_mem_toDigits (by decide) (by decide) mem⟩

theorem decimalValue_ofNat (n : Nat) : decimalValue (ofNat n) = n :=
  Nat.ofDigitChars_ten_toDigits

theorem toId?_ofId (id : UInt32) : toId? (ofId id) = some id := by
  simp [toId?, ofId, isNumeral_ofNat, decimalValue_ofNat, UInt32.toNat_lt_size]

theorem toId?_eq_some {t : Text} {id : UInt32} :
    toId? t = some id ↔ isNumeral t ∧ decimalValue t = id.toNat := by
  unfold toId?
  constructor
  · intro h
    split at h
    · rename_i bounded
      simp only [Bool.and_eq_true, decide_eq_true_eq] at bounded
      simp only [Option.some.injEq] at h
      exact ⟨bounded.1, by rw [← h, UInt32.toNat_ofNat_of_lt' bounded.2]⟩
    · simp at h
  · rintro ⟨digits, same⟩
    simp [digits, same, UInt32.toNat_lt_size]

end Text

end MountPolicy
