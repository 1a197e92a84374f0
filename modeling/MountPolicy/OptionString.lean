import MountPolicy.Text

/-! Mount options and option strings: options one after the other, with commas
between them.

A comma ends an item unless it stands inside double quotes or right after a
backslash, the first equals sign outside quotes ends the item's name, empty
items are skipped and nothing is trimmed. An item without a name and an item
with an open quote are refused at the byte where the item starts. Main statements:
the pieces between the separating commas make up the whole text, and an option is
written as the piece that it was read from. -/
namespace MountPolicy

/-- `value` is absent for a flag, and possibly empty when it is present. -/
structure MountOption where
  name : Text
  value : Option Text
deriving DecidableEq

namespace MountOption

def flag (name : Text) : MountOption := ⟨name, none⟩

def assign (name value : Text) : MountOption := ⟨name, some value⟩

def text (o : MountOption) : Text :=
  match o.value with
  | none => o.name
  | some value => o.name ++ '=' :: value

def content? (o : MountOption) : Option Text := o.value.filter fun value => !value.isEmpty

/-- Reads one stored specification. Quotes have no meaning here: the first
equals sign ends the name. -/
def ofSpec (spec : Text) : MountOption :=
  match Text.splitFirst? '=' spec with
  | some (name, value) => assign name value
  | none => flag spec

theorem text_ofSpec (spec : Text) : (ofSpec spec).text = spec := by
  unfold ofSpec
  split
  · rename_i name value cut
    exact (Text.eq_of_splitFirst? cut).1.symm
  · rfl

end MountOption

namespace OptionString

/-- The texts between the commas that end an item, empty ones included. `quoted`
says that a quote is open, `escaped` that a backslash came right before. -/
def pieces (quoted escaped : Bool) : Text → List Text
  | [] => [[]]
  | c :: rest =>
    if c = ',' ∧ quoted = false ∧ escaped = false then [] :: pieces false false rest
    else (pieces (quoted ^^ c == '"') (c == '\\') rest).modifyHead (c :: ·)

def balanced (t : Text) : Bool := t.count '"' % 2 == 0

/-- The parts before and after the first equals sign outside quotes. -/
def splitName? (quoted : Bool) : Text → Option (Text × Text)
  | [] => none
  | c :: rest =>
    if c = '=' ∧ quoted = false then some ([], rest)
    else (splitName? (quoted ^^ c == '"') rest).map fun (name, value) => (c :: name, value)

def optionOfPiece (piece : Text) : MountOption :=
  match splitName? false piece with
  | some (name, value) => .assign name value
  | none => .flag piece

def option? (piece : Text) : Option MountOption :=
  let option := optionOfPiece piece
  if balanced piece ∧ option.name ≠ [] then some option else none

/-- The string that was refused, and the byte at which the refused item starts. -/
structure Malformed where
  whole : Text
  offset : Nat
deriving DecidableEq

/-- Reads the pieces in order; the first of them starts at byte `offset` of `whole`. -/
def readPieces (whole : Text) : Nat → List Text → Except Malformed (List MountOption)
  | _, [] => .ok []
  | offset, piece :: rest =>
    if piece = [] then readPieces whole (offset + 1) rest
    else
      match option? piece with
      | none => .error ⟨whole, offset⟩
      | some option =>
        (readPieces whole (offset + Text.byteSize piece + 1) rest).map (option :: ·)

def read (whole : Text) : Except Malformed (List MountOption) :=
  readPieces whole 0 (pieces false false whole)

def write (options : List MountOption) : Text :=
  Text.commaSeparated (options.map MountOption.text)

theorem pieces_ne_nil (quoted escaped : Bool) (t : Text) : pieces quoted escaped t ≠ [] := by
  induction t generalizing quoted escaped with
  | nil => simp [pieces]
  | cons c rest ih =>
    simp only [pieces]
    split
    · simp
    · simp [ih]

theorem commaSeparated_pieces (quoted escaped : Bool) (t : Text) :
    Text.commaSeparated (pieces quoted escaped t) = t := by
  induction t generalizing quoted escaped with
  | nil => rfl
  | cons c rest ih =>
    simp only [pieces]
    split
    · rename_i bare
      obtain ⟨head, tail, whole⟩ := List.exists_cons_of_ne_nil (pieces_ne_nil false false rest)
      have joined := ih false false
      rw [whole] at joined ⊢
      simp only [Text.commaSeparated, List.intercalate_cons_cons] at joined ⊢
      simp [bare.1, joined]
    · obtain ⟨head, tail, whole⟩ :=
        List.exists_cons_of_ne_nil (pieces_ne_nil (quoted ^^ c == '"') (c == '\\') rest)
      have joined := ih (quoted ^^ c == '"') (c == '\\')
      rw [whole] at joined ⊢
      cases tail <;> simp_all [Text.commaSeparated, List.intercalate]

theorem eq_of_splitName? {quoted : Bool} {t name value : Text}
    (cut : splitName? quoted t = some (name, value)) : t = name ++ '=' :: value := by
  induction t generalizing quoted name with
  | nil => simp [splitName?] at cut
  | cons c rest ih =>
    simp only [splitName?] at cut
    split at cut
    · rename_i bare
      simp only [Option.some.injEq, Prod.mk.injEq] at cut
      simp [← cut.1, ← cut.2, bare.1]
    · obtain ⟨⟨front, back⟩, found, pair⟩ := Option.map_eq_some_iff.mp cut
      simp only [Prod.mk.injEq] at pair
      obtain ⟨rfl, rfl⟩ := pair
      rw [ih found]
      rfl

theorem text_optionOfPiece (piece : Text) : (optionOfPiece piece).text = piece := by
  unfold optionOfPiece
  split
  · rename_i name value cut
    exact (eq_of_splitName? cut).symm
  · rfl

end OptionString

end MountPolicy
