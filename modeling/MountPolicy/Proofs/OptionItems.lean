import MountPolicy.OptionString

/-! The items of option strings. Reading one lets a backslash protect the comma
after it; whoever gets the string in the end cuts it at every comma outside double
quotes. Main statements: texts joined by commas are cut into the same texts again,
and a joined list of options is read back exactly if no name leaves a quote open
and no text but the last ends with a backslash. -/
namespace MountPolicy.OptionString

/-- The texts between the commas outside double quotes. `quoted` says that an odd
number of quotes came before; a backslash protects nothing. -/
def bareItems (quoted : Bool) : Text → List Text
  | [] => [[]]
  | c :: rest =>
    if c = ',' ∧ quoted = false then [] :: bareItems false rest
    else (bareItems (quoted ^^ c == '"') rest).modifyHead (c :: ·)

def endsQuoted (quoted : Bool) : Text → Bool
  | [] => quoted
  | c :: rest => endsQuoted (quoted ^^ c == '"') rest

/-- Whether a character after the text comes right after a backslash. -/
def endsEscaped (escaped : Bool) : Text → Bool
  | [] => escaped
  | c :: rest => endsEscaped (c == '\\') rest

/-- A text that is one item of an option string, with a name and no open quote. -/
structure IsItem (t : Text) : Prop where
  whole : pieces false false t = [t]
  closed : balanced t
  named : (optionOfPiece t).name ≠ []

instance (t : Text) : Decidable (IsItem t) :=
  decidable_of_iff (pieces false false t = [t] ∧ balanced t ∧ (optionOfPiece t).name ≠ [])
    ⟨fun ⟨whole, closed, named⟩ => ⟨whole, closed, named⟩,
      fun item => ⟨item.whole, item.closed, item.named⟩⟩

theorem endsQuoted_eq (quoted : Bool) (t : Text) :
    endsQuoted quoted t = (quoted ^^ !balanced t) := by
  induction t generalizing quoted with
  | nil => simp [endsQuoted, balanced]
  | cons c rest ih =>
    rw [endsQuoted, ih]
    by_cases quote : c = '"'
    · subst quote
      have parity : balanced ('"' :: rest) = !balanced rest := by
        simp only [balanced, List.count_cons_self]
        rcases Nat.mod_two_eq_zero_or_one (rest.count '"') with even | odd
        · simp [even, Nat.add_mod]
        · simp [odd, Nat.add_mod]
      rw [parity]
      cases quoted <;> simp
    · have same : balanced (c :: rest) = balanced rest := by simp [balanced, quote]
      rw [same, beq_eq_false_iff_ne.mpr quote, Bool.xor_false]

theorem endsQuoted_of_balanced {t : Text} (closed : balanced t) : endsQuoted false t = false := by
  simp [endsQuoted_eq, closed]

theorem endsEscaped_eq_false_iff {t : Text} :
    endsEscaped false t = false ↔ t.getLast? ≠ some '\\' := by
  cases t with
  | nil => simp [endsEscaped]
  | cons c rest =>
    induction rest generalizing c with
    | nil => simp [endsEscaped]
    | cons d rest ih =>
      have same : endsEscaped false (c :: d :: rest) = endsEscaped false (d :: rest) := rfl
      rw [same, ih, List.getLast?_cons_cons]

private theorem eq_of_modifyHead_cons {c : Char} {items : List Text} {t : Text}
    (single : items.modifyHead (c :: ·) = [c :: t]) : items = [t] := by
  cases items with
  | nil => simp at single
  | cons head tail => simpa using single

private theorem modifyHead_cons_append (c : Char) (t : Text) (items : List Text) :
    (items.modifyHead (t ++ ·)).modifyHead (c :: ·) = items.modifyHead (c :: t ++ ·) := by
  cases items <;> rfl

private theorem modifyHead_nil_append (items : List Text) :
    items.modifyHead (([] : Text) ++ ·) = items := by
  cases items <;> rfl

theorem bareItems_append {quoted : Bool} {a : Text} (single : bareItems quoted a = [a])
    (b : Text) :
    bareItems quoted (a ++ b) = (bareItems (endsQuoted quoted a) b).modifyHead (a ++ ·) := by
  induction a generalizing quoted with
  | nil => rw [modifyHead_nil_append]; rfl
  | cons c rest ih =>
    simp only [bareItems, List.cons_append] at single ⊢
    split at single
    · simp at single
    · rename_i inside
      rw [if_neg inside, ih (eq_of_modifyHead_cons single), modifyHead_cons_append]
      rfl

theorem pieces_append {quoted escaped : Bool} {a : Text} (single : pieces quoted escaped a = [a])
    (b : Text) :
    pieces quoted escaped (a ++ b) =
      (pieces (endsQuoted quoted a) (endsEscaped escaped a) b).modifyHead (a ++ ·) := by
  induction a generalizing quoted escaped with
  | nil => rw [modifyHead_nil_append]; rfl
  | cons c rest ih =>
    simp only [pieces, List.cons_append] at single ⊢
    split at single
    · simp at single
    · rename_i inside
      rw [if_neg inside, ih (eq_of_modifyHead_cons single), modifyHead_cons_append]
      rfl

theorem commaSeparated_cons_cons (first second : Text) (rest : List Text) :
    Text.commaSeparated (first :: second :: rest) =
      first ++ ',' :: Text.commaSeparated (second :: rest) := by
  simp [Text.commaSeparated, List.intercalate_cons_cons]

theorem commaSeparated_append {first second : List Text} (present : first ≠ []) :
    Text.commaSeparated (first ++ second) =
      Text.commaSeparated first ++
        if second = [] then [] else ',' :: Text.commaSeparated second := by
  induction first with
  | nil => exact absurd rfl present
  | cons t rest ih =>
    cases rest with
    | nil =>
      cases second with
      | nil => simp
      | cons u others => simp [Text.commaSeparated]
    | cons u others =>
      have later := ih (List.cons_ne_nil u others)
      rw [List.cons_append] at later
      rw [List.cons_append, List.cons_append, commaSeparated_cons_cons, later,
        commaSeparated_cons_cons, List.append_assoc, List.cons_append]

theorem write_append {first second : List MountOption} (present : first ≠ []) :
    write (first ++ second) =
      write first ++ if second = [] then [] else ',' :: write second := by
  have texts : first.map MountOption.text ≠ [] := by simpa using present
  unfold write
  rw [List.map_append, commaSeparated_append texts]
  simp

theorem bareItems_commaSeparated {items : List Text} (present : items ≠ [])
    (single : ∀ t ∈ items, bareItems false t = [t]) (closed : ∀ t ∈ items, balanced t) :
    bareItems false (Text.commaSeparated items) = items := by
  induction items with
  | nil => exact absurd rfl present
  | cons first rest ih =>
    have here := single first List.mem_cons_self
    cases rest with
    | nil => simpa [Text.commaSeparated, List.intercalate_singleton] using here
    | cons second rest =>
      have there := ih (List.cons_ne_nil _ _) (fun t mem => single t (List.mem_cons_of_mem _ mem))
        (fun t mem => closed t (List.mem_cons_of_mem _ mem))
      rw [commaSeparated_cons_cons, bareItems_append here,
        endsQuoted_of_balanced (closed first List.mem_cons_self)]
      simp [bareItems, there]

theorem pieces_commaSeparated {items : List Text} (present : items ≠ [])
    (single : ∀ t ∈ items, pieces false false t = [t]) (closed : ∀ t ∈ items, balanced t)
    (unescaped : ∀ t ∈ items.dropLast, t.getLast? ≠ some '\\') :
    pieces false false (Text.commaSeparated items) = items := by
  induction items with
  | nil => exact absurd rfl present
  | cons first rest ih =>
    have here := single first List.mem_cons_self
    cases rest with
    | nil => simpa [Text.commaSeparated, List.intercalate_singleton] using here
    | cons second rest =>
      rw [List.dropLast_cons_cons] at unescaped
      have there := ih (List.cons_ne_nil _ _) (fun t mem => single t (List.mem_cons_of_mem _ mem))
        (fun t mem => closed t (List.mem_cons_of_mem _ mem))
        (fun t mem => unescaped t (List.mem_cons_of_mem _ mem))
      rw [commaSeparated_cons_cons, pieces_append here,
        endsQuoted_of_balanced (closed first List.mem_cons_self),
        endsEscaped_eq_false_iff.mpr (unescaped first List.mem_cons_self)]
      simp [pieces, there]

/-- Where no backslash stands before a comma, both ways to cut a text agree. -/
theorem pieces_eq_bareItems {quoted escaped : Bool} {t : Text} (absent : ¬ ['\\', ','] <:+: t)
    (start : escaped = true → t.head? ≠ some ',') :
    pieces quoted escaped t = bareItems quoted t := by
  induction t generalizing quoted escaped with
  | nil => rfl
  | cons c rest ih =>
    have later : ¬ ['\\', ','] <:+: rest := fun inside =>
      absent (List.infix_cons_iff.mpr (.inr inside))
    simp only [pieces, bareItems]
    by_cases comma : c = ',' ∧ quoted = false
    · have plain : escaped = false := by
        cases escaped with
        | false => rfl
        | true => exact absurd (congrArg some comma.1) (start rfl)
      rw [if_pos ⟨comma.1, comma.2, plain⟩, if_pos comma, ih later (by simp)]
    · rw [if_neg (fun cut => comma ⟨cut.1, cut.2.1⟩), if_neg comma, ih later]
      intro backslash first
      obtain ⟨d, others, rfl⟩ : ∃ d others, rest = d :: others := by
        cases rest with
        | nil => simp at first
        | cons d others => exact ⟨d, others, rfl⟩
      obtain rfl : c = '\\' := by simpa using backslash
      obtain rfl : d = ',' := by simpa using first
      exact absent ⟨[], others, rfl⟩

theorem pieces_cons_eq {quoted escaped : Bool} {c : Char} {rest head : Text}
    {tail : List Text} (cut : pieces quoted escaped (c :: rest) = head :: tail) :
    (c = ',' ∧ quoted = false ∧ escaped = false ∧ head = [] ∧ pieces false false rest = tail) ∨
    (¬ (c = ',' ∧ quoted = false ∧ escaped = false) ∧
      ∃ front, head = c :: front ∧
        pieces (quoted ^^ c == '"') (c == '\\') rest = front :: tail) := by
  simp only [pieces] at cut
  split at cut
  · rename_i comma
    simp only [List.cons.injEq] at cut
    exact .inl ⟨comma.1, comma.2.1, comma.2.2, cut.1.symm, cut.2⟩
  · rename_i inside
    obtain ⟨front, others, whole⟩ :=
      List.exists_cons_of_ne_nil (pieces_ne_nil (quoted ^^ c == '"') (c == '\\') rest)
    rw [whole, List.modifyHead_cons, List.cons.injEq] at cut
    obtain ⟨rfl, rfl⟩ := cut
    exact .inr ⟨inside, front, rfl, whole⟩

theorem pieces_whole {quoted escaped : Bool} {t head : Text} {tail : List Text}
    (cut : pieces quoted escaped t = head :: tail) :
    pieces quoted escaped head = [head] ∧ ∀ p ∈ tail, pieces false false p = [p] := by
  induction t generalizing quoted escaped head tail with
  | nil =>
    simp only [pieces, List.cons.injEq] at cut
    obtain ⟨rfl, rfl⟩ := cut
    exact ⟨rfl, by simp⟩
  | cons c rest ih =>
    rcases pieces_cons_eq cut with ⟨-, -, -, rfl, there⟩ | ⟨inside, front, rfl, there⟩
    · refine ⟨rfl, ?_⟩
      obtain ⟨second, others, more⟩ := List.exists_cons_of_ne_nil (pieces_ne_nil false false rest)
      rw [← there, more]
      obtain ⟨first, later⟩ := ih more
      exact List.forall_mem_cons.mpr ⟨first, later⟩
    · obtain ⟨first, later⟩ := ih there
      refine ⟨?_, later⟩
      rw [pieces, if_neg inside, first]
      rfl

theorem whole_of_mem_pieces {t p : Text} (mem : p ∈ pieces false false t) :
    pieces false false p = [p] := by
  obtain ⟨head, tail, cut⟩ := List.exists_cons_of_ne_nil (pieces_ne_nil false false t)
  obtain ⟨first, later⟩ := pieces_whole cut
  rw [cut] at mem
  rcases List.mem_cons.mp mem with rfl | there
  · exact first
  · exact later p there

theorem unescaped_of_mem_dropLast_pieces {quoted escaped : Bool} {t p : Text}
    (mem : p ∈ (pieces quoted escaped t).dropLast) : p.getLast? ≠ some '\\' := by
  induction t generalizing quoted escaped p with
  | nil => simp [pieces] at mem
  | cons c rest ih =>
    obtain ⟨head, tail, cut⟩ :=
      List.exists_cons_of_ne_nil (pieces_ne_nil quoted escaped (c :: rest))
    rw [cut] at mem
    cases tail with
    | nil => simp at mem
    | cons second others =>
      rw [List.dropLast_cons_cons] at mem
      rcases pieces_cons_eq cut with ⟨-, -, -, rfl, there⟩ | ⟨-, front, rfl, there⟩
      · rcases List.mem_cons.mp mem with rfl | later
        · simp
        · exact ih (there ▸ later)
      · rcases List.mem_cons.mp mem with rfl | later
        · cases front with
          | nil =>
            -- An empty front with pieces after it stands before a comma that separates.
            cases rest with
            | nil => simp [pieces] at there
            | cons d rest =>
              rcases pieces_cons_eq there with ⟨-, -, plain, -⟩ | ⟨-, front, impossible, -⟩
              · simpa using plain
              · simp at impossible
          | cons d front =>
            rw [List.getLast?_cons_cons]
            apply @ih (quoted ^^ c == '"') (c == '\\')
            rw [there, List.dropLast_cons_cons]
            exact List.mem_cons_self
        · apply @ih (quoted ^^ c == '"') (c == '\\')
          rw [there, List.dropLast_cons_cons]
          exact List.mem_cons_of_mem _ later

theorem splitName?_eq_some_iff {quoted : Bool} {t name value : Text} :
    splitName? quoted t = some (name, value) ↔
      t = name ++ '=' :: value ∧ splitName? quoted name = none ∧
        endsQuoted quoted name = false := by
  constructor
  · intro cut
    refine ⟨eq_of_splitName? cut, ?_⟩
    induction t generalizing quoted name with
    | nil => simp [splitName?] at cut
    | cons c rest ih =>
      simp only [splitName?] at cut
      split at cut
      · rename_i bare
        simp only [Option.some.injEq, Prod.mk.injEq] at cut
        simp [← cut.1, splitName?, endsQuoted, bare.2]
      · rename_i inside
        obtain ⟨⟨front, back⟩, found, pair⟩ := Option.map_eq_some_iff.mp cut
        simp only [Prod.mk.injEq] at pair
        obtain ⟨rfl, rfl⟩ := pair
        obtain ⟨unsplit, closed⟩ := ih found
        exact ⟨by rw [splitName?, if_neg inside, unsplit]; rfl, closed⟩
  · rintro ⟨rfl, unsplit, closed⟩
    induction name generalizing quoted with
    | nil =>
      obtain rfl : quoted = false := closed
      simp [splitName?]
    | cons c rest ih =>
      simp only [splitName?] at unsplit
      split at unsplit
      · simp at unsplit
      · rename_i inside
        rw [List.cons_append, splitName?, if_neg inside,
          ih (Option.map_eq_none_iff.mp unsplit) closed]
        rfl

theorem splitName?_eq_none_of_not_mem {quoted : Bool} {t : Text} (absent : '=' ∉ t) :
    splitName? quoted t = none := by
  cases cut : splitName? quoted t with
  | none => rfl
  | some parts =>
    have whole := eq_of_splitName? cut
    rw [whole] at absent
    simp at absent

theorem optionOfPiece_text_iff {o : MountOption} (closed : balanced o.text) :
    optionOfPiece o.text = o ↔ splitName? false o.name = none ∧ balanced o.name := by
  obtain ⟨name, value⟩ := o
  cases value with
  | none =>
    have text : MountOption.text ⟨name, none⟩ = name := rfl
    rw [text] at closed ⊢
    unfold optionOfPiece
    cases splitName? false name with
    | none => simp [MountOption.flag, closed]
    | some parts => simp [MountOption.assign]
  | some value =>
    have text : MountOption.text ⟨name, some value⟩ = name ++ '=' :: value := rfl
    have ends : endsQuoted false name = false ↔ balanced name := by simp [endsQuoted_eq]
    rw [text]
    unfold optionOfPiece
    rw [← ends]
    constructor
    · intro same
      split at same
      · rename_i front back cut
        simp only [MountOption.assign, MountOption.mk.injEq, Option.some.injEq] at same
        obtain ⟨rfl, rfl⟩ := same
        exact (splitName?_eq_some_iff.mp cut).2
      · simp [MountOption.flag] at same
    · rintro ⟨unsplit, quoteless⟩
      rw [splitName?_eq_some_iff.mpr ⟨rfl, unsplit, quoteless⟩]
      rfl

theorem option?_eq_some_iff {piece : Text} {o : MountOption} :
    option? piece = some o ↔ o = optionOfPiece piece ∧ balanced piece ∧ o.name ≠ [] := by
  simp only [option?]
  constructor
  · intro found
    split at found
    · rename_i accepted
      simp only [Option.some.injEq] at found
      exact ⟨found.symm, accepted.1, found ▸ accepted.2⟩
    · simp at found
  · rintro ⟨rfl, closed, named⟩
    rw [if_pos ⟨closed, named⟩]

private theorem readPieces_eq_ok_iff {whole : Text} {offset : Nat} {cut : List Text}
    {options : List MountOption} :
    readPieces whole offset cut = .ok options ↔
      (cut.filter (· ≠ [])).map option? = options.map some := by
  induction cut generalizing offset options with
  | nil => cases options <;> simp [readPieces]
  | cons piece rest ih =>
    simp only [readPieces]
    split
    · rename_i empty
      simp [ih, empty]
    · rename_i present
      rw [List.filter_cons_of_pos (by simpa using present), List.map_cons]
      cases option? piece with
      | none => cases options <;> simp
      | some o =>
        cases options with
        | nil =>
          cases readPieces whole (offset + Text.byteSize piece + 1) rest <;> simp [Except.map]
        | cons first others =>
          have later := @ih (offset + Text.byteSize piece + 1) others
          rw [List.map_cons, List.cons.injEq, ← later]
          cases readPieces whole (offset + Text.byteSize piece + 1) rest <;> simp [Except.map]

theorem read_eq_ok_iff {t : Text} {options : List MountOption} :
    read t = .ok options ↔
      ((pieces false false t).filter (· ≠ [])).map option? = options.map some :=
  readPieces_eq_ok_iff

theorem named_iff {t : Text} :
    (optionOfPiece t).name ≠ [] ↔ t ≠ [] ∧ t.head? ≠ some '=' := by
  cases t with
  | nil => simp [optionOfPiece, splitName?, MountOption.flag]
  | cons c rest =>
    unfold optionOfPiece
    by_cases sign : c = '='
    · simp [splitName?, sign, MountOption.assign]
    · cases cut : splitName? (false ^^ c == '"') rest <;>
        simp_all [splitName?, MountOption.assign, MountOption.flag]

theorem balanced_append_comma {a b : Text} (first : balanced a) (second : balanced b) :
    balanced (a ++ ',' :: b) := by
  simp only [balanced, beq_iff_eq, List.count_append] at first second ⊢
  have comma : (',' :: b).count '"' = b.count '"' := by simp
  omega

namespace IsItem

theorem present {t : Text} (item : IsItem t) : t ≠ [] := (named_iff.mp item.named).1

theorem option? {t : Text} (item : IsItem t) :
    OptionString.option? t = some (optionOfPiece t) :=
  option?_eq_some_iff.mpr ⟨rfl, item.closed, item.named⟩

theorem read {t : Text} (item : IsItem t) : OptionString.read t = .ok [optionOfPiece t] := by
  have present : [t].filter (· ≠ []) = [t] := by simp [item.present]
  rw [read_eq_ok_iff, item.whole, present, List.map_singleton, item.option?]
  rfl

end IsItem

theorem pieces_of_not_mem {quoted escaped : Bool} {t : Text} (absent : ',' ∉ t) :
    pieces quoted escaped t = [t] := by
  induction t generalizing quoted escaped with
  | nil => rfl
  | cons c rest ih =>
    simp only [List.mem_cons, not_or] at absent
    rw [pieces, if_neg (fun cut => absent.1 cut.1.symm), ih absent.2]
    rfl

theorem isItem_assign {name value : Text} (present : name ≠ []) (sign : '=' ∉ name)
    (comma : ',' ∉ name ++ value) (quote : '"' ∉ name ++ value) :
    IsItem (MountOption.assign name value).text := by
  have text : (MountOption.assign name value).text = name ++ '=' :: value := rfl
  rw [text]
  simp only [List.mem_append, not_or] at comma quote
  refine ⟨pieces_of_not_mem (by simp [comma]), ?_, named_iff.mpr ⟨by simp, ?_⟩⟩
  · simp [balanced, List.count_eq_zero_of_not_mem quote.1, List.count_eq_zero_of_not_mem quote.2]
  · cases name with
    | nil => exact absurd rfl present
    | cons c rest => simpa using fun same : c = '=' => sign (by simp [same])

theorem isItem_of_read {t : Text} {options : List MountOption} (done : read t = .ok options)
    {o : MountOption} (mem : o ∈ options) : IsItem o.text ∧ optionOfPiece o.text = o := by
  have read : some o ∈ options.map some := List.mem_map_of_mem mem
  rw [← read_eq_ok_iff.mp done] at read
  obtain ⟨piece, inside, found⟩ := List.mem_map.mp read
  obtain ⟨rfl, closed, named⟩ := option?_eq_some_iff.mp found
  rw [text_optionOfPiece]
  exact ⟨⟨whole_of_mem_pieces (List.mem_filter.mp inside).1, closed, named⟩, rfl⟩

private theorem texts_of_found {options : List MountOption} {items : List Text}
    (found : items.map option? = options.map some) : options.map MountOption.text = items := by
  induction items generalizing options with
  | nil => simpa using found.symm
  | cons first rest ih =>
    cases options with
    | nil => simp at found
    | cons o others =>
      simp only [List.map_cons, List.cons.injEq] at found ⊢
      obtain ⟨rfl, -, -⟩ := option?_eq_some_iff.mp found.1
      exact ⟨text_optionOfPiece first, ih found.2⟩

private theorem dropLast_subset_dropLast {some all : List Text} (part : some.Sublist all) :
    some.dropLast ⊆ all.dropLast := by
  induction part with
  | slnil => exact List.Subset.refl _
  | @cons some all first _ ih =>
    cases all with
    | nil => simp_all
    | cons second rest =>
      rw [List.dropLast_cons_cons]
      exact List.subset_cons_of_subset first ih
  | @cons_cons some all first part ih =>
    cases some with
    | nil => simp
    | cons second rest =>
      obtain ⟨third, others, rfl⟩ : ∃ third others, all = third :: others := by
        cases all with
        | nil => simp at part
        | cons third others => exact ⟨third, others, rfl⟩
      rw [List.dropLast_cons_cons, List.dropLast_cons_cons]
      exact List.cons_subset_cons first ih

theorem map_text_of_read {t : Text} {options : List MountOption} (done : read t = .ok options) :
    options.map MountOption.text = (pieces false false t).filter (· ≠ []) :=
  texts_of_found (read_eq_ok_iff.mp done)

theorem unescaped_of_read {t : Text} {options : List MountOption} (done : read t = .ok options) :
    ∀ o ∈ options.dropLast, o.text.getLast? ≠ some '\\' := by
  intro o mem
  have early : o.text ∈ (options.map MountOption.text).dropLast := by
    rw [← List.map_dropLast]
    exact List.mem_map_of_mem mem
  rw [map_text_of_read done] at early
  exact unescaped_of_mem_dropLast_pieces (dropLast_subset_dropLast List.filter_sublist early)

/-- A joined list of options is read back exactly if each of them can be read from
its own text and none but the last ends with a backslash. -/
theorem read_write_iff {options : List MountOption} :
    read (write options) = .ok options ↔
      (∀ o ∈ options, IsItem o.text ∧ optionOfPiece o.text = o) ∧
        ∀ o ∈ options.dropLast, o.text.getLast? ≠ some '\\' := by
  constructor
  · intro back
    exact ⟨fun o mem => isItem_of_read back mem, unescaped_of_read back⟩
  · rintro ⟨items, unescaped⟩
    cases options with
    | nil => rfl
    | cons first rest =>
      have cut : pieces false false (write (first :: rest)) =
          (first :: rest).map MountOption.text := by
        apply pieces_commaSeparated (by simp)
        · intro t mem
          obtain ⟨o, inside, rfl⟩ := List.mem_map.mp mem
          exact (items o inside).1.whole
        · intro t mem
          obtain ⟨o, inside, rfl⟩ := List.mem_map.mp mem
          exact (items o inside).1.closed
        · intro t mem
          rw [← List.map_dropLast] at mem
          obtain ⟨o, inside, rfl⟩ := List.mem_map.mp mem
          exact unescaped o inside
      rw [read_eq_ok_iff, cut, List.filter_eq_self.mpr, List.map_map]
      · apply List.map_congr_left
        intro o mem
        rw [Function.comp_apply, (items o mem).1.option?, (items o mem).2]
      · intro t mem
        obtain ⟨o, inside, rfl⟩ := List.mem_map.mp mem
        simpa using (items o inside).1.present

/-- However items are joined, the reader finds options in the result, although a
backslash at the end of one of them makes it one option with the next. -/
theorem readable_pieces {items : List Text} (present : items ≠ [])
    (each : ∀ t ∈ items, IsItem t) :
    ∀ p ∈ pieces false false (Text.commaSeparated items),
      balanced p ∧ (optionOfPiece p).name ≠ [] := by
  induction items with
  | nil => exact absurd rfl present
  | cons first rest ih =>
    have here := each first List.mem_cons_self
    cases rest with
    | nil =>
      intro p mem
      have same : p = first := by
        simpa [Text.commaSeparated, List.intercalate_singleton, here.whole] using mem
      exact same ▸ ⟨here.closed, here.named⟩
    | cons second rest =>
      have later := ih (List.cons_ne_nil _ _) (fun t mem => each t (List.mem_cons_of_mem _ mem))
      rw [commaSeparated_cons_cons, pieces_append here.whole, endsQuoted_of_balanced here.closed]
      cases endsEscaped false first with
      | false =>
        intro p mem
        simp only [pieces, and_self, if_true, List.modifyHead_cons, List.append_nil] at mem
        rcases List.mem_cons.mp mem with rfl | there
        · exact ⟨here.closed, here.named⟩
        · exact later p there
      | true =>
        -- The comma is kept, so the first text and the first piece after it are one piece.
        obtain ⟨head, tail, cut⟩ := List.exists_cons_of_ne_nil
          (pieces_ne_nil false false (Text.commaSeparated (second :: rest)))
        have kept : pieces false true (',' :: Text.commaSeparated (second :: rest)) =
            (',' :: head) :: tail := by
          rw [pieces, if_neg (by simp)]
          change (pieces false false _).modifyHead _ = _
          rw [cut]
          rfl
        rw [cut] at later
        rw [kept, List.modifyHead_cons]
        intro p mem
        rcases List.mem_cons.mp mem with rfl | there
        · have front := later head List.mem_cons_self
          refine ⟨balanced_append_comma here.closed front.1, named_iff.mpr ⟨by simp, ?_⟩⟩
          obtain ⟨c, others, rfl⟩ := List.exists_cons_of_ne_nil here.present
          exact (named_iff.mp here.named).2
        · exact later p (List.mem_cons_of_mem _ there)

theorem exists_read_commaSeparated {items : List Text} (present : items ≠ [])
    (each : ∀ t ∈ items, IsItem t) : ∃ options, read (Text.commaSeparated items) = .ok options := by
  refine ⟨((pieces false false (Text.commaSeparated items)).filter (· ≠ [])).map optionOfPiece, ?_⟩
  rw [read_eq_ok_iff, List.map_map]
  apply List.map_congr_left
  intro p mem
  obtain ⟨closed, named⟩ := readable_pieces present each p (List.mem_filter.mp mem).1
  exact option?_eq_some_iff.mpr ⟨rfl, closed, named⟩

end MountPolicy.OptionString
