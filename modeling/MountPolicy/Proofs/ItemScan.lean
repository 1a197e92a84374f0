import MountPolicy.Proofs.Bytes
import MountPolicy.Proofs.OptionItems

/-! One item of an option string, taken byte by byte. The scan keeps its position, whether a
quote is open and where the name ended, and looks back one byte at a comma. Main statements:
from a character that is no comma the scan comes to the end of the first piece, looking back
only into the item, and the parts between its positions are those of the piece's option. -/
namespace MountPolicy.OptionString

open Text

/-- How far the scan of an item has come, whether a quote is open there, and where the first
equals sign outside quotes stands. -/
structure ItemScan where
  pos : Nat
  quoted : Bool := false
  sign : Option Nat := none

namespace ItemScan

/-- The byte in front of `pos`, which has to be one of the item that begins at `start`. -/
def lookBack (t : Text) (start pos : Nat) : Except AccessFault UInt8 :=
  if start < pos then byteAt t (pos - 1) else .error .noByte

/-- Whether the byte is a comma that ends the item. -/
def isEnd (t : Text) (start : Nat) (scan : ItemScan) (byte : UInt8) : Except AccessFault Bool :=
  if byte = ','.toUInt8 ∧ scan.quoted = false then
    (lookBack t start scan.pos).map (· != '\\'.toUInt8)
  else .ok false

def past (scan : ItemScan) (byte : UInt8) : ItemScan where
  pos := scan.pos + 1
  quoted := scan.quoted ^^ byte == '"'.toUInt8
  sign :=
    if byte = '='.toUInt8 ∧ scan.quoted = false ∧ scan.sign = none then some scan.pos
    else scan.sign

def step (t : Text) (start : Nat) (scan : ItemScan) : Except AccessFault (Option ItemScan) := do
  let byte ← byteAt t scan.pos
  return if ← scan.isEnd t start byte then none else some (scan.past byte)

theorem step_eq {t : Text} {start : Nat} {scan : ItemScan} {byte : UInt8} {ends : Bool}
    (read : byteAt t scan.pos = .ok byte) (known : scan.isEnd t start byte = .ok ends) :
    scan.step t start = .ok (if ends then none else some (scan.past byte)) := by
  rw [step, read, AccessFault.ok_bind, known]
  rfl

theorem pos_of_step {t : Text} {start : Nat} {scan next : ItemScan}
    (taken : scan.step t start = .ok (some next)) : next.pos = scan.pos + 1 := by
  obtain ⟨byte, -, taken⟩ := AccessFault.exists_of_bind_eq_ok taken
  obtain ⟨ends, -, taken⟩ := AccessFault.exists_of_bind_eq_ok taken
  cases ends with
  | true => cases taken
  | false =>
    cases taken
    rfl

def run (t : Text) (start : Nat) (scan : ItemScan) : Except AccessFault ItemScan :=
  if _inside : scan.pos < byteSize t then
    match _taken : scan.step t start with
    | .error fault => .error fault
    | .ok none => .ok scan
    | .ok (some next) => run t start next
  else .ok scan
termination_by byteSize t - scan.pos
decreasing_by
  have ahead := pos_of_step _taken
  omega

theorem run_of_step {t : Text} {start : Nat} {scan : ItemScan} {taken : Option ItemScan}
    (inside : scan.pos < byteSize t) (stepped : scan.step t start = .ok taken) :
    scan.run t start = taken.elim (.ok scan) (run t start) := by
  rw [run.eq_def, dif_pos inside]
  split
  · rename_i fault refused
    cases refused.symm.trans stepped
  · rename_i ended
    cases ended.symm.trans stepped
    rfl
  · rename_i next went
    cases went.symm.trans stepped
    rfl

section Bytes

variable {t : Text} {start : Nat} {scan : ItemScan} {byte : UInt8}

theorem run_of_isEnd (inside : scan.pos < byteSize t) (read : byteAt t scan.pos = .ok byte)
    (ends : scan.isEnd t start byte = .ok true) : scan.run t start = .ok scan :=
  run_of_step inside (step_eq read ends)

theorem run_of_past (inside : scan.pos < byteSize t) (read : byteAt t scan.pos = .ok byte)
    (within : scan.isEnd t start byte = .ok false) :
    scan.run t start = (scan.past byte).run t start :=
  run_of_step inside (step_eq read within)

end Bytes

theorem run_at_end {t : Text} {start : Nat} {scan : ItemScan} (atEnd : scan.pos = byteSize t) :
    scan.run t start = .ok scan := by
  rw [run.eq_def, dif_neg (by omega)]

theorem le_pos_of_run {t : Text} {start : Nat} {scan done : ItemScan}
    (finished : scan.run t start = .ok done) : scan.pos ≤ done.pos := by
  fun_induction run t start scan with
  | case1 scan inside fault refused => cases finished
  | case2 scan inside ended =>
    cases finished
    exact Nat.le_refl _
  | case3 scan inside next went ih =>
    have ahead := pos_of_step went
    have further := ih finished
    omega
  | case4 scan outside =>
    cases finished
    exact Nat.le_refl _

theorem past_of_shows {scan : ItemScan} {byte : UInt8} {c : Char} (shows : Shows byte c) :
    scan.past byte =
      ⟨scan.pos + 1, scan.quoted ^^ c == '"',
        if c = '=' ∧ scan.quoted = false ∧ scan.sign = none then some scan.pos
        else scan.sign⟩ := by
  simp only [past, shows.beq (show '"'.toNat < 128 by decide),
    shows '=' (show '='.toNat < 128 by decide)]

theorem isEnd_of_shows {t : Text} {start : Nat} {scan : ItemScan} {byte : UInt8} {c : Char}
    (shows : Shows byte c) (inside : ¬ (c = ',' ∧ scan.quoted = false)) :
    scan.isEnd t start byte = .ok false := by
  rw [← shows ',' (by decide)] at inside
  exact if_neg inside

section Characters

/-! A scan that has come to the character `c` behind `front`. -/
variable {front rest : Text} {c : Char} {start : Nat} {quoted : Bool} {sign : Option Nat}

theorem byteSize_add_lt {k : Nat} (within : k < c.utf8Size) :
    byteSize front + k < byteSize (front ++ c :: rest) := by
  rw [byteSize_append, byteSize_cons]
  omega

theorem run_plain (plain : c ≠ '"' ∧ c ≠ ',' ∧ c ≠ '=') {k : Nat} (within : k ≤ c.utf8Size) :
    run (front ++ c :: rest) start ⟨byteSize front, quoted, sign⟩ =
      run (front ++ c :: rest) start ⟨byteSize front + k, quoted, sign⟩ := by
  induction k with
  | zero => rfl
  | succ k ih =>
    obtain ⟨byte, read, shows⟩ := exists_byteAt front c rest (show k < c.utf8Size by omega)
    have known : isEnd (front ++ c :: rest) start ⟨byteSize front + k, quoted, sign⟩ byte =
        .ok false := isEnd_of_shows shows fun comma => plain.2.1 comma.1
    have passed : past ⟨byteSize front + k, quoted, sign⟩ byte =
        ⟨byteSize front + (k + 1), quoted, sign⟩ := by
      simp [past_of_shows shows, beq_false_of_ne plain.1, plain.2.2, Nat.add_assoc]
    rw [ih (by omega), run_of_past (byteSize_add_lt within) read known]
    exact congrArg _ passed

theorem exists_lookBack {front : Text} (begun : start < byteSize front) (rest : Text) :
    ∃ byte, lookBack (front ++ rest) start (byteSize front) = .ok byte ∧
      (byte != '\\'.toUInt8) = decide (front.getLast? ≠ some '\\') := by
  have present : front ≠ [] := by
    rintro rfl
    exact absurd begun (Nat.not_lt_zero _)
  obtain ⟨before, last, rfl⟩ : ∃ before last, front = before ++ [last] :=
    ⟨_, _, (List.dropLast_append_getLast present).symm⟩
  have room := last.utf8Size_pos
  obtain ⟨byte, read, shows⟩ :=
    exists_byteAt before last rest (show last.utf8Size - 1 < last.utf8Size by omega)
  have place : byteSize (before ++ [last]) - 1 = byteSize before + (last.utf8Size - 1) := by
    rw [byteSize_append, byteSize_singleton]
    omega
  refine ⟨byte, ?_, ?_⟩
  · rw [lookBack, if_pos begun, place, List.append_assoc, List.singleton_append, read]
  · rw [bne, shows.beq (show '\\'.toNat < 128 by decide), List.getLast?_concat]
    simp [Bool.beq_eq_decide_eq]

theorem isEnd_comma {byte : UInt8} (shows : Shows byte ',') (begun : start < byteSize front) :
    isEnd (front ++ ',' :: rest) start ⟨byteSize front, false, sign⟩ byte =
      .ok (decide (front.getLast? ≠ some '\\')) := by
  obtain ⟨before, read, plain⟩ := exists_lookBack begun (',' :: rest)
  rw [isEnd, if_pos ⟨(shows ',' (by decide)).mpr rfl, rfl⟩, read, ← plain]
  rfl

theorem run_comma (begun : start < byteSize front) (bare : front.getLast? ≠ some '\\') :
    run (front ++ ',' :: rest) start ⟨byteSize front, false, sign⟩ =
      .ok ⟨byteSize front, false, sign⟩ := by
  obtain ⟨byte, read, shows⟩ := exists_byteAt front ',' rest (show 0 < ','.utf8Size by decide)
  refine run_of_isEnd (byteSize_add_lt (show 0 < ','.utf8Size by decide)) read ?_
  rw [isEnd_comma shows begun, decide_eq_true bare]

theorem run_cons
    (escaped : c = ',' → quoted = false → start < byteSize front ∧ front.getLast? = some '\\') :
    run (front ++ c :: rest) start ⟨byteSize front, quoted, sign⟩ =
      run (front ++ [c] ++ rest) start
        ⟨byteSize (front ++ [c]), quoted ^^ c == '"',
          if c = '=' ∧ quoted = false ∧ sign = none then some (byteSize front) else sign⟩ := by
  rw [List.append_assoc, List.singleton_append, byteSize_append, byteSize_singleton]
  by_cases plain : c ≠ '"' ∧ c ≠ ',' ∧ c ≠ '='
  · rw [run_plain plain (Nat.le_refl _)]
    simp [beq_false_of_ne plain.1, plain.2.2]
  · have single : c.utf8Size = 1 := by
      have mark : c = '"' ∨ c = ',' ∨ c = '=' := by
        simpa only [ne_eq, not_and_or, not_not] using plain
      rcases mark with rfl | rfl | rfl <;> rfl
    obtain ⟨byte, read, shows⟩ := exists_byteAt front c rest (show 0 < c.utf8Size by omega)
    have known : isEnd (front ++ c :: rest) start ⟨byteSize front, quoted, sign⟩ byte =
        .ok false := by
      by_cases comma : c = ',' ∧ quoted = false
      · obtain ⟨rfl, rfl⟩ := comma
        obtain ⟨begun, backslash⟩ := escaped rfl rfl
        rw [isEnd_comma shows begun]
        simp [backslash]
      · exact isEnd_of_shows shows comma
    rw [run_of_past (byteSize_add_lt (show 0 < c.utf8Size by omega)) read known, single]
    exact congrArg _ (past_of_shows shows)

end Characters

theorem sign_cons (front more : Text) (c : Char) (quoted : Bool) (sign : Option Nat) :
    (if c = '=' ∧ quoted = false ∧ sign = none then some (byteSize front) else sign).or
        ((splitName? (quoted ^^ c == '"') more).map fun parts =>
          byteSize (front ++ [c] ++ parts.1)) =
      sign.or ((splitName? quoted (c :: more)).map fun parts => byteSize (front ++ parts.1)) := by
  rw [splitName?]
  cases sign with
  | some found => simp
  | none =>
    by_cases mark : c = '=' ∧ quoted = false
    · rw [if_pos ⟨mark.1, mark.2, rfl⟩, if_pos mark]
      simp
    · rw [if_neg (mt (fun both => ⟨both.1, both.2.1⟩) mark), if_neg mark, Option.map_map]
      simp [Function.comp_def]

/-- The scan of an item comes to the end of the first piece. -/
theorem run_eq {front rest head : Text} {tail : List Text} {start : Nat} {quoted escaped : Bool}
    {sign : Option Nat} (cut : pieces quoted escaped rest = head :: tail)
    (begun : start ≤ byteSize front)
    (look : rest.head? = some ',' →
      start < byteSize front ∧ (escaped = true ↔ front.getLast? = some '\\')) :
    run (front ++ rest) start ⟨byteSize front, quoted, sign⟩ =
      .ok ⟨byteSize (front ++ head), endsQuoted quoted head,
        sign.or ((splitName? quoted head).map fun parts => byteSize (front ++ parts.1))⟩ := by
  -- On what is left of the text. The character that is read moves to the end of `front`, so
  -- `escaped` has to say what the byte in front of the position says, which is known of `front`.
  induction rest generalizing front quoted escaped sign head with
  | nil =>
    simp only [pieces, List.cons.injEq] at cut
    obtain ⟨rfl, -⟩ := cut
    rw [List.append_nil, run_at_end rfl]
    simp [endsQuoted, splitName?]
  | cons c rest ih =>
    rcases pieces_cons_eq cut with ⟨rfl, rfl, rfl, rfl, -⟩ | ⟨within, more, rfl, later⟩
    · obtain ⟨ahead, backslash⟩ := look rfl
      have bare : front.getLast? ≠ some '\\' := mt backslash.mpr Bool.false_ne_true
      rw [run_comma ahead bare, List.append_nil]
      simp [endsQuoted, splitName?]
    · have ahead : start < byteSize (front ++ [c]) := by
        have room := c.utf8Size_pos
        rw [byteSize_append, byteSize_singleton]
        omega
      have escapedComma : c = ',' → quoted = false →
          start < byteSize front ∧ front.getLast? = some '\\' := by
        rintro rfl rfl
        obtain ⟨beyond, backslash⟩ := look rfl
        exact ⟨beyond, backslash.mp (by simpa using within)⟩
      have behind (found : Option Nat) := @ih (front ++ [c]) more _ _ found later
        (Nat.le_of_lt ahead) fun _ => ⟨ahead, by simp⟩
      have place (t : Text) : byteSize (front ++ [c] ++ t) = byteSize (front ++ c :: t) := by
        rw [List.append_assoc, List.singleton_append]
      rw [run_cons escapedComma, behind, place, endsQuoted, sign_cons]

def ofPiece (front piece : Text) : ItemScan where
  pos := byteSize (front ++ piece)
  quoted := endsQuoted false piece
  sign := (splitName? false piece).map fun parts => byteSize (front ++ parts.1)

theorem run_eq_ofPiece {front rest head : Text} {c : Char} {tail : List Text} (present : c ≠ ',')
    (cut : pieces false false (c :: rest) = head :: tail) :
    run (front ++ c :: rest) (byteSize front) { pos := byteSize front } =
      .ok (ofPiece front head) :=
  run_eq cut (Nat.le_refl _) fun comma => absurd (Option.some.inj comma) present

def option (t : Text) (start : Nat) (scan : ItemScan) : Except AccessFault MountOption :=
  match scan.sign with
  | some sign => do return .assign (← slice t start sign) (← slice t (sign + 1) scan.pos)
  | none => do return .flag (← slice t start scan.pos)

variable (front : Text) {piece : Text} (rest : Text)

theorem option_ofPiece :
    option (front ++ piece ++ rest) (byteSize front) (ofPiece front piece) =
      .ok (optionOfPiece piece) := by
  unfold option optionOfPiece ofPiece
  cases cut : splitName? false piece with
  | none =>
    have whole := slice_eq front piece rest rfl rfl rfl
    simp only [Option.map_none, whole]
    rfl
  | some parts =>
    obtain ⟨name, value⟩ := parts
    obtain rfl : piece = name ++ '=' :: value := eq_of_splitName? cut
    have sign : byteSize (front ++ name ++ ['=']) = byteSize (front ++ name) + 1 :=
      byteSize_append _ _
    have ofName : slice (front ++ (name ++ '=' :: value) ++ rest) (byteSize front)
        (byteSize (front ++ name)) = .ok name :=
      slice_eq front name ('=' :: value ++ rest) (by simp) rfl rfl
    have ofValue : slice (front ++ (name ++ '=' :: value) ++ rest) (byteSize (front ++ name) + 1)
        (byteSize (front ++ (name ++ '=' :: value))) = .ok value :=
      slice_eq (front ++ name ++ ['=']) value rest (by simp) sign (by simp)
    simp only [Option.map_some, ofName, ofValue]
    rfl

theorem lt_pos_ofPiece (present : piece ≠ []) : byteSize front < (ofPiece front piece).pos := by
  have room := byteSize_pos present
  change byteSize front < byteSize (front ++ piece)
  rw [byteSize_append]
  omega

theorem sign_ofPiece {sign : Nat} (found : (ofPiece front piece).sign = some sign) :
    byteSize front ≤ sign ∧ sign < (ofPiece front piece).pos ∧
      IsBoundary (front ++ piece ++ rest) sign ∧
      IsBoundary (front ++ piece ++ rest) (sign + 1) := by
  obtain ⟨⟨name, value⟩, split, rfl⟩ := Option.map_eq_some_iff.mp found
  obtain rfl : piece = name ++ '=' :: value := eq_of_splitName? split
  have behind : byteSize (front ++ name ++ ['=']) = byteSize (front ++ name) + 1 :=
    byteSize_append _ _
  have stop : byteSize (front ++ (name ++ '=' :: value)) =
      byteSize (front ++ name ++ ['=']) + byteSize value := by
    rw [← byteSize_append]
    simp
  refine ⟨?_, ?_, ?_, ?_⟩
  · rw [byteSize_append]
    exact Nat.le_add_right _ _
  · change byteSize (front ++ name) < byteSize (front ++ (name ++ '=' :: value))
    omega
  · have cut := isBoundary_append (front ++ name) ('=' :: value ++ rest)
    simpa using cut
  · have cut := isBoundary_append (front ++ name ++ ['=']) (value ++ rest)
    rw [behind] at cut
    simpa using cut

end ItemScan

end MountPolicy.OptionString
