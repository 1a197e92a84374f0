import MountPolicy.Proofs.Segments

/-! Option strings that are joined by a comma. Where the first one ends outside quotes and
not with a backslash, the comma separates, and reading starts afresh behind it. Main
statement: two strings joined are read one after the other, and what is refused of the
second is refused at its place in the whole.

Options that are written are joined too. Joining may change what a neighbour means: a
backslash at the end of one option protects the comma that follows it, and an open quote
takes in what stands behind. What was read is written without its empty items and comes back
from there, and a list comes back exactly if each option is readable on its own and none but
the last ends with a backslash. -/
namespace MountPolicy.OptionString

/-- An option whose text is one segment, cut at the end of the option's name. -/
structure Readable (o : MountOption) : Prop where
  named : o.name ≠ []
  nameClosed : Even (o.name.count '"')
  nameUncut : ∀ i, ¬ IsSign o.name i
  closed : Even (o.text.count '"')
  start : o.text.head? ≠ some ','
  whole : ∀ i, ¬ IsSeparator o.text i

theorem isSeparator_zero_iff {t : Text} : IsSeparator t 0 ↔ t.head? = some ',' := by
  simp [IsSeparator, List.head?_eq_getElem?]

theorem readable_iff {o : MountOption} :
    Readable o ↔ IsItem o.text ∧ optionOfPiece o.text = o := by
  constructor
  · intro readable
    have closed : balanced o.text := even_count_iff.mp readable.closed
    have same : optionOfPiece o.text = o := (optionOfPiece_text_iff closed).mpr
      ⟨splitName?_eq_none_iff.mpr readable.nameUncut, even_count_iff.mp readable.nameClosed⟩
    refine ⟨⟨pieces_eq_singleton_iff.mpr readable.whole, closed, ?_⟩, same⟩
    rw [same]
    exact readable.named
  · rintro ⟨item, same⟩
    obtain ⟨uncut, nameClosed⟩ := (optionOfPiece_text_iff item.closed).mp same
    have whole := pieces_eq_singleton_iff.mp item.whole
    exact {
      named := same ▸ item.named
      nameClosed := even_count_iff.mpr nameClosed
      nameUncut := splitName?_eq_none_iff.mp uncut
      closed := even_count_iff.mpr item.closed
      start := fun comma => whole 0 (isSeparator_zero_iff.mpr comma)
      whole := whole }

/-- Writing what was read drops the empty items and loses nothing else, and a list of
options is read back exactly if it could have been read. -/
theorem read_write_iff_readable (t : Text) (options : List MountOption) :
    (read t = .ok options →
      write options = Text.commaSeparated ((segments t).map Segment.text) ∧
        read (write options) = .ok options) ∧
    (read (write options) = .ok options ↔
      (∀ o ∈ options, Readable o) ∧
        ∀ o ∈ options.dropLast, o.text.getLast? ≠ some '\\') := by
  constructor
  · intro done
    have texts : options.map MountOption.text = (segments t).map Segment.text := by
      rw [map_text_of_read done, map_text_segments]
    exact ⟨congrArg Text.commaSeparated texts,
      read_write_iff.mpr ⟨fun o mem => isItem_of_read done mem, unescaped_of_read done⟩⟩
  · simp only [read_write_iff, readable_iff]

private theorem modifyHead_append {f : Text → Text} {front : List Text} (present : front ≠ [])
    (rest : List Text) : (front ++ rest).modifyHead f = front.modifyHead f ++ rest := by
  cases front with
  | nil => exact absurd rfl present
  | cons first others => rfl

theorem pieces_append_comma {quoted escaped : Bool} {a : Text}
    (closed : endsQuoted quoted a = false) (plain : endsEscaped escaped a = false) (b : Text) :
    pieces quoted escaped (a ++ ',' :: b) =
      pieces quoted escaped a ++ pieces false false b := by
  induction a generalizing quoted escaped with
  | nil =>
    obtain rfl : quoted = false := closed
    obtain rfl : escaped = false := plain
    rfl
  | cons c rest ih =>
    rw [List.cons_append, pieces, pieces]
    split
    · rename_i comma
      obtain ⟨rfl, rfl, -⟩ := comma
      rw [@ih false false closed plain, List.cons_append]
    · rw [ih closed plain, modifyHead_append (pieces_ne_nil _ _ _)]

theorem balanced_of_read {t : Text} {options : List MountOption} (done : read t = .ok options) :
    balanced t := by
  rw [← even_count_iff, ← Nat.not_odd_iff_even]
  intro odd
  obtain ⟨fault, refused⟩ := exists_error_iff.mpr (.inl odd)
  cases refused.symm.trans done

def extent (texts : List Text) : Nat := (texts.map fun t => Text.byteSize t + 1).sum

theorem extent_eq {texts : List Text} (present : texts ≠ []) :
    extent texts = Text.byteSize (Text.commaSeparated texts) + 1 := by
  induction texts with
  | nil => exact absurd rfl present
  | cons t rest ih =>
    cases rest with
    | nil => simp [extent, Text.commaSeparated]
    | cons second others =>
      have later := ih (List.cons_ne_nil second others)
      have comma : ','.utf8Size = 1 := rfl
      rw [commaSeparated_cons_cons, Text.byteSize_append, Text.byteSize_cons, comma]
      unfold extent at later ⊢
      rw [List.map_cons, List.sum_cons, later]
      omega

theorem readPieces_append {front : List Text} {options : List MountOption}
    (given : (front.filter (· ≠ [])).map option? = options.map some) (whole : Text)
    (offset : Nat) (rest : List Text) :
    readPieces whole offset (front ++ rest) =
      (readPieces whole (offset + extent front) rest).map (options ++ ·) := by
  induction front generalizing offset options with
  | nil =>
    obtain rfl : options = [] := by simpa using given
    cases found : readPieces whole offset rest <;> simp [extent, found, Except.map]
  | cons piece front ih =>
    have behind : offset + extent (piece :: front) =
        offset + Text.byteSize piece + 1 + extent front := by
      simp [extent, Nat.add_assoc]
    rw [List.cons_append, readPieces, behind]
    by_cases empty : piece = []
    · subst empty
      rw [if_pos rfl]
      exact ih given (offset + 1)
    · rw [List.filter_cons_of_pos (by simpa using empty), List.map_cons] at given
      obtain ⟨o, others, rfl, first, later⟩ := List.map_eq_cons_iff.mp given.symm
      rw [if_neg empty, ← first]
      dsimp only
      rw [ih later.symm]
      cases readPieces whole (offset + Text.byteSize piece + 1 + extent front) rest <;> rfl

theorem readPieces_shift (whole other : Text) (shift offset : Nat) (cut : List Text) :
    readPieces other (shift + offset) cut =
      (readPieces whole offset cut).mapError fun fault => ⟨other, shift + fault.offset⟩ := by
  induction cut generalizing offset with
  | nil => rfl
  | cons piece rest ih =>
    rw [readPieces, readPieces]
    split
    · exact ih (offset + 1)
    · split
      · rfl
      · rw [Nat.add_assoc shift, Nat.add_assoc shift, ih]
        cases readPieces whole (offset + Text.byteSize piece + 1) rest <;> rfl

variable {a : Text} {first : List MountOption}

theorem read_append_comma_eq (readFirst : read a = .ok first) (plain : a.getLast? ≠ some '\\')
    (b : Text) :
    read (a ++ ',' :: b) =
      ((read b).mapError fun fault =>
        ⟨a ++ ',' :: b, Text.byteSize a + 1 + fault.offset⟩).map (first ++ ·) := by
  have closed := endsQuoted_of_balanced (balanced_of_read readFirst)
  have extended : extent (pieces false false a) = Text.byteSize a + 1 := by
    rw [extent_eq (pieces_ne_nil _ _ _), commaSeparated_pieces]
  unfold read
  rw [pieces_append_comma closed (endsEscaped_eq_false_iff.mpr plain),
    readPieces_append (read_eq_ok_iff.mp readFirst), extended, Nat.zero_add]
  exact congrArg _ (readPieces_shift b _ (Text.byteSize a + 1) 0 _)

theorem read_append_comma {b : Text} {second : List MountOption} (readFirst : read a = .ok first)
    (readSecond : read b = .ok second) (plain : a.getLast? ≠ some '\\') :
    read (a ++ ',' :: b) = .ok (first ++ second) := by
  rw [read_append_comma_eq readFirst plain, readSecond]
  rfl

/-- Reading takes joined strings apart: the options of both, or the refusal of the second
behind the bytes of the first and the comma. -/
theorem read_joined (readFirst : read a = .ok first) (plain : a.getLast? ≠ some '\\') (b : Text) :
    (∀ second, read b = .ok second → read (a ++ ',' :: b) = .ok (first ++ second)) ∧
      ∀ whole offset, read b = .error ⟨whole, offset⟩ →
        read (a ++ ',' :: b) =
          .error ⟨a ++ ',' :: b, (String.ofList a).utf8ByteSize + 1 + offset⟩ := by
  constructor
  · intro second readSecond
    exact read_append_comma readFirst readSecond plain
  · intro whole offset refused
    rw [read_append_comma_eq readFirst plain, refused, Text.byteSize]
    rfl

/-- The first string has a character of two bytes and ends in commas, the second begins
with one. -/
theorem read_joined_emptyItems :
    read "\u00e9=\",\",,".toList = .ok [.assign ['\u00e9'] "\",\"".toList] ∧
      "\u00e9=\",\",,".toList.getLast? ≠ some '\\' ∧
      read "\u00e9=\",\",,,,ro".toList =
        .ok [.assign ['\u00e9'] "\",\"".toList, .flag "ro".toList] ∧
      read ",=ro".toList = .error ⟨",=ro".toList, 1⟩ ∧
      read "\u00e9=\",\",,,,=ro".toList = .error ⟨"\u00e9=\",\",,,,=ro".toList, 10⟩ := by
  have readFirst : read "\u00e9=\",\",,".toList = .ok [.assign ['\u00e9'] "\",\"".toList] := rfl
  have plain : "\u00e9=\",\",,".toList.getLast? ≠ some '\\' := by decide
  have second : read ",ro".toList = .ok [.flag "ro".toList] := rfl
  have refused : read ",=ro".toList = .error ⟨",=ro".toList, 1⟩ := rfl
  exact ⟨readFirst, plain, (read_joined readFirst plain ",ro".toList).1 _ second, refused,
    (read_joined readFirst plain ",=ro".toList).2 _ _ refused⟩

end MountPolicy.OptionString
