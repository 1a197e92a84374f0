import Mathlib.Algebra.Ring.Parity
import MountPolicy.Proofs.OptionItems

/-! The segments of an option string, found by positions in the whole text: a comma
separates if an even number of quotes stand before it and no backslash right before
it, and the segments are what lies between. Main statement: reading gives one option
for each segment, in order, or refuses the first segment that begins with an equals
sign or leaves a quote open, at the byte where it begins. -/
namespace MountPolicy.OptionString

def IsSeparator (t : Text) (i : Nat) : Prop :=
  t[i]? = some ',' ∧ Even ((t.take i).count '"') ∧ (t.take i).getLast? ≠ some '\\'

/-- An equals sign that no open quote encloses. -/
def IsSign (t : Text) (i : Nat) : Prop := t[i]? = some '=' ∧ Even ((t.take i).count '"')

instance (t : Text) (i : Nat) : Decidable (IsSeparator t i) :=
  inferInstanceAs (Decidable (_ ∧ _ ∧ _))

instance (t : Text) (i : Nat) : Decidable (IsSign t i) := inferInstanceAs (Decidable (_ ∧ _))

def separators (t : Text) : List Nat := (List.range t.length).filter (IsSeparator t ·)

/-- A part of a text, with the position in the text at which it begins. -/
structure Segment where
  start : Nat
  text : Text
deriving DecidableEq

def between (t : Text) (start : Nat) : List Nat → List Segment
  | [] => [⟨start, t.drop start⟩]
  | cut :: cuts => ⟨start, (t.take cut).drop start⟩ :: between t (cut + 1) cuts

def segments (t : Text) : List Segment :=
  (between t 0 (separators t)).filter (·.text ≠ [])

def Segment.Refused (s : Segment) : Prop := s.text.head? = some '=' ∨ Odd (s.text.count '"')

instance (s : Segment) : Decidable s.Refused := inferInstanceAs (Decidable (_ ∨ _))

def Segment.option (s : Segment) : MountOption :=
  match (List.range s.text.length).find? (IsSign s.text ·) with
  | some i => .assign (s.text.take i) (s.text.drop (i + 1))
  | none => .flag s.text

theorem even_count_iff {t : Text} : Even (t.count '"') ↔ balanced t := by
  simp [balanced, Nat.even_iff]

theorem endsQuoted_eq_false_iff {t : Text} :
    endsQuoted false t = false ↔ Even (t.count '"') := by
  simp [endsQuoted_eq, even_count_iff]

theorem endsQuoted_concat (quoted : Bool) (t : Text) (c : Char) :
    endsQuoted quoted (t ++ [c]) = (endsQuoted quoted t ^^ c == '"') := by
  induction t generalizing quoted with
  | nil => rfl
  | cons d rest ih => exact ih _

theorem endsEscaped_concat (escaped : Bool) (t : Text) (c : Char) :
    endsEscaped escaped (t ++ [c]) = (c == '\\') := by
  induction t generalizing escaped with
  | nil => rfl
  | cons d rest ih => exact ih _

section Scan

/-! A scan of `front ++ rest` that has come to the end of `front`. -/
variable {front rest : Text} {c : Char}

theorem isSeparator_length_iff :
    IsSeparator (front ++ c :: rest) front.length ↔
      c = ',' ∧ endsQuoted false front = false ∧ endsEscaped false front = false := by
  rw [endsQuoted_eq_false_iff, endsEscaped_eq_false_iff]
  simp [IsSeparator]

theorem isSign_length_iff :
    IsSign (front ++ c :: rest) front.length ↔ c = '=' ∧ endsQuoted false front = false := by
  rw [endsQuoted_eq_false_iff]
  simp [IsSign]

theorem drop_take_eq_cons {stop : Nat} (beyond : front.length < stop) :
    ((front ++ c :: rest).take stop).drop front.length =
      c :: ((front ++ c :: rest).take stop).drop (front.length + 1) := by
  rw [List.drop_eq_getElem_cons (by simp; omega)]
  simp

end Scan

def locate (start : Nat) : List Text → List Segment
  | [] => []
  | t :: rest => ⟨start, t⟩ :: locate (start + t.length + 1) rest

theorem map_text_locate (start : Nat) (texts : List Text) :
    (locate start texts).map Segment.text = texts := by
  induction texts generalizing start with
  | nil => rfl
  | cons t rest ih => simp [locate, ih]

theorem length_between (t : Text) (start : Nat) (cuts : List Nat) :
    (between t start cuts).length = cuts.length + 1 := by
  induction cuts generalizing start with
  | nil => rfl
  | cons cut cuts ih => simp [between, ih]

private theorem between_succ {front rest : Text} {c : Char} {cuts : List Nat}
    (beyond : ∀ cut ∈ cuts, front.length < cut) :
    between (front ++ c :: rest) front.length cuts =
      (between (front ++ c :: rest) (front.length + 1) cuts).modifyHead
        fun s => ⟨front.length, c :: s.text⟩ := by
  cases cuts with
  | nil => simp [between]
  | cons cut cuts => simp [between, drop_take_eq_cons (beyond cut List.mem_cons_self)]

private theorem locate_modifyHead (start : Nat) (c : Char) (texts : List Text) :
    locate start (texts.modifyHead (c :: ·)) =
      (locate (start + 1) texts).modifyHead fun s => ⟨start, c :: s.text⟩ := by
  cases texts with
  | nil => rfl
  | cons t rest =>
    have next : start + (t.length + 1) + 1 = start + 1 + t.length + 1 := by omega
    simp [locate, next]

theorem between_separators (front rest : Text) :
    between (front ++ rest) front.length
        ((List.range' front.length rest.length).filter (IsSeparator (front ++ rest) ·)) =
      locate front.length
        (pieces (endsQuoted false front) (endsEscaped false front) rest) := by
  -- On what is left to scan: the character that is read moves to the end of `front`, so
  -- positions stay those in the whole text.
  induction rest generalizing front with
  | nil => simp [between, pieces, locate]
  | cons c rest ih =>
    have later := ih (front ++ [c])
    rw [List.append_assoc, List.length_append, List.length_singleton, endsQuoted_concat,
      endsEscaped_concat] at later
    rw [List.length_cons, List.range'_succ, pieces]
    by_cases here : IsSeparator (front ++ c :: rest) front.length
    · obtain ⟨rfl, unquoted, plain⟩ := isSeparator_length_iff.mp here
      rw [List.filter_cons_of_pos (by simpa using here), if_pos ⟨rfl, unquoted, plain⟩]
      rw [unquoted] at later
      simpa [between, locate] using later
    · rw [List.filter_cons_of_neg (by simpa using here),
        if_neg (mt isSeparator_length_iff.mpr here), locate_modifyHead, between_succ]
      · exact congrArg _ later
      · intro cut mem
        have inRange := List.mem_range'_1.mp (List.mem_filter.mp mem).1
        omega

theorem between_separators_eq_locate (t : Text) :
    between t 0 (separators t) = locate 0 (pieces false false t) := by
  rw [separators, List.range_eq_range']
  exact between_separators [] t

theorem segments_eq_filter_locate (t : Text) :
    segments t = (locate 0 (pieces false false t)).filter (·.text ≠ []) := by
  rw [segments, between_separators_eq_locate]

theorem map_text_segments (t : Text) :
    (segments t).map Segment.text = (pieces false false t).filter (· ≠ []) := by
  conv_rhs => rw [← map_text_locate 0 (pieces false false t), List.filter_map]
  rw [segments_eq_filter_locate]
  rfl

/-- A text is in one piece if no comma in it separates. -/
theorem pieces_eq_singleton_iff {t : Text} :
    pieces false false t = [t] ↔ ∀ i, ¬ IsSeparator t i := by
  have count : (pieces false false t).length = (separators t).length + 1 := by
    rw [← length_between t 0, between_separators_eq_locate, ← List.length_map Segment.text,
      map_text_locate]
  have none_iff : separators t = [] ↔ ∀ i, ¬ IsSeparator t i := by
    simp only [separators, List.filter_eq_nil_iff, List.mem_range, decide_eq_true_eq]
    refine ⟨fun absent i cut => absent i ?_ cut, fun absent i _ => absent i⟩
    exact (List.getElem?_eq_some_iff.mp cut.1).1
  rw [← none_iff]
  constructor
  · intro single
    rw [single] at count
    exact List.length_eq_zero_iff.mp (by simpa using count.symm)
  · intro uncut
    rw [uncut] at count
    obtain ⟨piece, single⟩ := List.length_eq_one_iff.mp count
    have whole := commaSeparated_pieces false false t
    rw [single] at whole ⊢
    simpa [Text.commaSeparated, List.intercalate_singleton] using whole

theorem splitName?_eq_find? (front rest : Text) :
    splitName? (endsQuoted false front) rest =
      ((List.range' front.length rest.length).find? (IsSign (front ++ rest) ·)).map fun i =>
        (((front ++ rest).take i).drop front.length, (front ++ rest).drop (i + 1)) := by
  induction rest generalizing front with
  | nil => simp [splitName?]
  | cons c rest ih =>
    have later := ih (front ++ [c])
    rw [List.append_assoc, List.length_append, List.length_singleton,
      endsQuoted_concat] at later
    rw [List.length_cons, List.range'_succ, splitName?]
    by_cases here : IsSign (front ++ c :: rest) front.length
    · rw [List.find?_cons_of_pos (by simpa using here), if_pos (isSign_length_iff.mp here)]
      simp
    · rw [List.find?_cons_of_neg (by simpa using here), if_neg (mt isSign_length_iff.mpr here),
        later, Option.map_map]
      refine Option.map_congr ?_
      intro i found
      have inRange := List.mem_range'_1.mp (List.mem_of_find?_eq_some found)
      simp [drop_take_eq_cons (show front.length < i by omega)]

theorem splitName?_false_eq_find? (t : Text) :
    splitName? false t =
      ((List.range t.length).find? (IsSign t ·)).map fun i => (t.take i, t.drop (i + 1)) := by
  rw [List.range_eq_range']
  exact splitName?_eq_find? [] t

theorem splitName?_eq_none_iff {t : Text} : splitName? false t = none ↔ ∀ i, ¬ IsSign t i := by
  rw [splitName?_false_eq_find?]
  simp only [Option.map_eq_none_iff, List.find?_eq_none, List.mem_range, decide_eq_true_eq]
  refine ⟨fun absent i sign => absent i ?_ sign, fun absent i _ => absent i⟩
  exact (List.getElem?_eq_some_iff.mp sign.1).1

theorem optionOfPiece_text (s : Segment) : optionOfPiece s.text = s.option := by
  unfold optionOfPiece Segment.option
  rw [splitName?_false_eq_find?]
  cases (List.range s.text.length).find? (IsSign s.text ·) <;> rfl

theorem Segment.option?_text {s : Segment} (present : s.text ≠ []) :
    option? s.text = if s.Refused then none else some s.option := by
  have accepted : ¬ s.Refused ↔ balanced s.text ∧ (optionOfPiece s.text).name ≠ [] := by
    rw [named_iff, ← even_count_iff, Segment.Refused, not_or, Nat.not_odd_iff_even]
    exact ⟨fun ⟨sign, closed⟩ => ⟨closed, present, sign⟩, fun ⟨closed, _, sign⟩ => ⟨sign, closed⟩⟩
  by_cases refused : s.Refused
  · rw [option?, if_neg (mt accepted.mpr (not_not.mpr refused)), if_pos refused]
  · rw [option?, if_pos (accepted.mp refused), if_neg refused, optionOfPiece_text]

/-- What the segments of a text give: an option each, or the place of the first that is
refused. -/
def outcome (whole : Text) (parts : List Segment) : Except Malformed (List MountOption) :=
  match parts.find? (·.Refused) with
  | some s => .error ⟨whole, (String.ofList (whole.take s.start)).utf8ByteSize⟩
  | none => .ok (parts.map Segment.option)

private theorem outcome_cons {whole : Text} {s : Segment} {parts : List Segment} :
    outcome whole (s :: parts) =
      if s.Refused then .error ⟨whole, Text.byteSize (whole.take s.start)⟩
      else (outcome whole parts).map (s.option :: ·) := by
  unfold outcome
  by_cases refused : s.Refused
  · rw [List.find?_cons_of_pos (by simpa using refused), if_pos refused, Text.byteSize]
  · rw [List.find?_cons_of_neg (by simpa using refused), if_neg refused]
    cases parts.find? (·.Refused) <;> rfl

theorem readPieces_eq_outcome (front : Text) (texts : List Text) :
    readPieces (front ++ Text.commaSeparated texts) (Text.byteSize front) texts =
      outcome (front ++ Text.commaSeparated texts)
        ((locate front.length texts).filter (·.text ≠ [])) := by
  induction texts generalizing front with
  | nil => rfl
  | cons t rest ih =>
    -- The comma after `t` is counted also when no text follows; then nothing is read.
    have later : readPieces (front ++ Text.commaSeparated (t :: rest))
          (Text.byteSize front + Text.byteSize t + 1) rest =
        outcome (front ++ Text.commaSeparated (t :: rest))
          ((locate (front.length + t.length + 1) rest).filter (·.text ≠ [])) := by
      cases rest with
      | nil => rfl
      | cons second rest =>
        have moved := ih (front ++ t ++ [','])
        have comma : ','.utf8Size = 1 := rfl
        simpa [Text.commaSeparated, List.intercalate_cons_cons, Text.byteSize_append,
          Text.byteSize_cons, comma, Nat.add_assoc] using moved
    rw [readPieces, locate]
    split
    · rename_i empty
      subst empty
      simpa using later
    · rename_i present
      let first : Segment := ⟨front.length, t⟩
      have option : option? t = if first.Refused then none else some first.option :=
        first.option?_text present
      have start : (front ++ Text.commaSeparated (t :: rest)).take first.start = front :=
        List.take_left
      rw [List.filter_cons_of_pos (by simpa using present), outcome_cons, option, start, later]
      by_cases refused : first.Refused
      · rw [if_pos refused, if_pos refused]
      · rw [if_neg refused, if_neg refused]

theorem read_eq_outcome (t : Text) : read t = outcome t (segments t) := by
  have whole := commaSeparated_pieces false false t
  have found := readPieces_eq_outcome [] (pieces false false t)
  rw [whole] at found
  rw [segments_eq_filter_locate]
  exact found

private theorem endsQuoted_of_pieces {quoted escaped : Bool} {t head : Text} {tail : List Text}
    (cut : pieces quoted escaped t = head :: tail) (closed : endsQuoted quoted t = false) :
    endsQuoted quoted head = false ∧ ∀ p ∈ tail, endsQuoted false p = false := by
  induction t generalizing quoted escaped head tail with
  | nil =>
    simp only [pieces, List.cons.injEq] at cut
    obtain ⟨rfl, rfl⟩ := cut
    exact ⟨closed, by simp⟩
  | cons c rest ih =>
    rcases pieces_cons_eq cut with ⟨rfl, rfl, -, rfl, there⟩ | ⟨-, front, rfl, there⟩
    · refine ⟨rfl, ?_⟩
      obtain ⟨second, others, more⟩ := List.exists_cons_of_ne_nil (pieces_ne_nil false false rest)
      rw [← there, more]
      obtain ⟨first, later⟩ := ih more closed
      exact List.forall_mem_cons.mpr ⟨first, later⟩
    · obtain ⟨first, later⟩ := ih there closed
      exact ⟨first, later⟩

theorem balanced_commaSeparated {items : List Text} (closed : ∀ t ∈ items, balanced t) :
    balanced (Text.commaSeparated items) := by
  induction items with
  | nil => rfl
  | cons first rest ih =>
    obtain ⟨here, there⟩ := List.forall_mem_cons.mp closed
    cases rest with
    | nil => simpa [Text.commaSeparated, List.intercalate_singleton] using here
    | cons second rest =>
      rw [commaSeparated_cons_cons]
      exact balanced_append_comma here (ih there)

theorem balanced_iff_forall_pieces {t : Text} :
    balanced t ↔ ∀ p ∈ pieces false false t, balanced p := by
  constructor
  · intro closed
    obtain ⟨head, tail, cut⟩ := List.exists_cons_of_ne_nil (pieces_ne_nil false false t)
    obtain ⟨first, later⟩ := endsQuoted_of_pieces cut (endsQuoted_of_balanced closed)
    rw [cut]
    intro p mem
    rw [← even_count_iff, ← endsQuoted_eq_false_iff]
    rcases List.mem_cons.mp mem with rfl | there
    · exact first
    · exact later p there
  · intro closed
    have whole := balanced_commaSeparated closed
    rwa [commaSeparated_pieces] at whole

theorem odd_count_iff_exists_segment {t : Text} :
    Odd (t.count '"') ↔ ∃ s ∈ segments t, Odd (s.text.count '"') := by
  have pieces_iff : (∀ p ∈ pieces false false t, balanced p) ↔
      ∀ p ∈ (segments t).map Segment.text, balanced p := by
    simp only [map_text_segments, List.mem_filter, decide_eq_true_eq, and_imp]
    refine ⟨fun all p mem _ => all p mem, fun all p mem => ?_⟩
    by_cases empty : p = []
    · rw [empty]
      rfl
    · exact all p mem empty
  rw [← not_iff_not]
  simpa [Nat.not_odd_iff_even, even_count_iff] using balanced_iff_forall_pieces.trans pieces_iff

theorem exists_error_iff {t : Text} :
    (∃ fault, read t = .error fault) ↔
      Odd (t.count '"') ∨ ∃ s ∈ segments t, s.text.head? = some '=' := by
  have refused : (∃ fault, read t = .error fault) ↔ ∃ s ∈ segments t, s.Refused := by
    rw [read_eq_outcome, outcome]
    cases found : (segments t).find? (·.Refused) with
    | none => simpa using found
    | some s =>
      have here : s.Refused := by simpa using List.find?_some found
      simpa using ⟨s, List.mem_of_find?_eq_some found, here⟩
  rw [refused, odd_count_iff_exists_segment]
  constructor
  · rintro ⟨s, mem, sign | quote⟩
    · exact .inr ⟨s, mem, sign⟩
    · exact .inl ⟨s, mem, quote⟩
  · rintro (⟨s, mem, quote⟩ | ⟨s, mem, sign⟩)
    · exact ⟨s, mem, .inr quote⟩
    · exact ⟨s, mem, .inl sign⟩

/-- Reading is refused if a quote stays open or a segment has no name, at the byte where
the first such segment begins. Otherwise every segment gives its option, in order. -/
theorem read_eq_of_segments (t : Text) :
    ((∃ fault, read t = .error fault) ↔
      Odd (t.count '"') ∨ ∃ s ∈ segments t, s.text.head? = some '=') ∧
    read t =
      match (segments t).find? (·.Refused) with
      | some s => .error ⟨t, (String.ofList (t.take s.start)).utf8ByteSize⟩
      | none => .ok ((segments t).map Segment.option) :=
  ⟨exists_error_iff, read_eq_outcome t⟩

/-- The second segment begins at the fourth character and the fifth byte. -/
example : segments "\u00e9,,=x".toList = [⟨0, ['\u00e9']⟩, ⟨3, "=x".toList⟩] ∧
    read "\u00e9,,=x".toList = .error ⟨"\u00e9,,=x".toList, 4⟩ := by
  decide

end MountPolicy.OptionString
