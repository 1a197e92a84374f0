import MountPolicy.Proofs.ByteModes
import MountPolicy.Proofs.ItemScan

/-! Option strings read byte by byte, in rounds that each take a comma or an item. Main
statements: every round comes further and ends where a character does, so the scan ends, and
it gives what reading the pieces gives; a refused string is refused at one of its characters.
Together with the modes, nothing that is read by bytes fails on any text. -/
namespace MountPolicy.OptionString

open Text

inductive Found where
  | comma
  | option (o : MountOption)
  /-- An item without a name, or with an open quote. -/
  | refused

def Found.ofOption? : Option MountOption → Found
  | some o => .option o
  | none => .refused

structure Round where
  next : Nat
  found : Found

def Round.ofItem (t : Text) (start : Nat) (item : ItemScan) : Except AccessFault Round :=
  if item.quoted then .ok ⟨item.pos, .refused⟩
  else do
    let option ← item.option t start
    return ⟨item.pos, if option.name = [] then .refused else .option option⟩

/-- One round from `pos` on: a comma between items, or an item. -/
def round (t : Text) (pos : Nat) : Except AccessFault Round := do
  if (← byteAt t pos) = ','.toUInt8 then return ⟨pos + 1, .comma⟩
  else Round.ofItem t pos (← ItemScan.run t pos { pos })

theorem Round.next_ofItem {t : Text} {start : Nat} {item : ItemScan} {r : Round}
    (done : Round.ofItem t start item = .ok r) : r.next = item.pos := by
  unfold Round.ofItem at done
  split at done
  · cases done
    rfl
  · obtain ⟨option, -, done⟩ := AccessFault.exists_of_bind_eq_ok done
    cases done
    rfl

theorem lt_next_of_round {t : Text} {pos : Nat} {r : Round} (done : round t pos = .ok r) :
    pos < r.next := by
  obtain ⟨byte, read, done⟩ := AccessFault.exists_of_bind_eq_ok done
  split at done
  · cases done
    exact Nat.lt_succ_self pos
  · rename_i noComma
    obtain ⟨item, finished, done⟩ := AccessFault.exists_of_bind_eq_ok done
    have within : ItemScan.isEnd t pos { pos } byte = .ok false :=
      if_neg fun comma => noComma comma.1
    rw [ItemScan.run_of_past (lt_of_byteAt read) read within] at finished
    rw [Round.next_ofItem done]
    exact ItemScan.le_pos_of_run finished

/-- The rounds from `pos` on. Each of them comes further, so the scan ends. -/
def scanFrom (t : Text) (pos : Nat) :
    Except AccessFault (Except Malformed (List MountOption)) :=
  if _inside : pos < byteSize t then
    match _done : round t pos with
    | .error fault => .error fault
    | .ok r =>
      match r.found with
      | .comma => scanFrom t r.next
      | .option o => (scanFrom t r.next).map (Except.map (o :: ·))
      | .refused => .ok (.error ⟨t, pos⟩)
  else .ok (.ok [])
termination_by byteSize t - pos
decreasing_by
  all_goals
    have further := lt_next_of_round _done
    omega

def scan (t : Text) : Except AccessFault (Except Malformed (List MountOption)) := scanFrom t 0

theorem scanFrom_at_end {t : Text} {pos : Nat} (atEnd : pos = byteSize t) :
    scanFrom t pos = .ok (.ok []) := by
  rw [scanFrom.eq_def, dif_neg (by omega)]

theorem scanFrom_of_round {t : Text} {pos : Nat} {r : Round} (inside : pos < byteSize t)
    (done : round t pos = .ok r) :
    scanFrom t pos =
      match r.found with
      | .comma => scanFrom t r.next
      | .option o => (scanFrom t r.next).map (Except.map (o :: ·))
      | .refused => .ok (.error ⟨t, pos⟩) := by
  rw [scanFrom.eq_def, dif_pos inside]
  split
  · rename_i fault refused
    cases refused.symm.trans done
  · rename_i other found
    cases found.symm.trans done
    rfl

theorem exists_rest_of_pieces {quoted escaped : Bool} {t head : Text} {tail : List Text}
    (cut : pieces quoted escaped t = head :: tail) :
    ∃ rest, t = head ++ rest ∧
      (rest = [] ∧ tail = [] ∨ ∃ more, rest = ',' :: more ∧ pieces false false more = tail) := by
  induction t generalizing quoted escaped head with
  | nil =>
    simp only [pieces, List.cons.injEq] at cut
    obtain ⟨rfl, rfl⟩ := cut
    exact ⟨[], rfl, .inl ⟨rfl, rfl⟩⟩
  | cons c t ih =>
    rcases pieces_cons_eq cut with ⟨rfl, -, -, rfl, there⟩ | ⟨-, front, rfl, there⟩
    · exact ⟨',' :: t, rfl, .inr ⟨t, rfl, there⟩⟩
    · obtain ⟨rest, rfl, behind⟩ := ih there
      exact ⟨rest, rfl, behind⟩

theorem exists_piece {c : Char} (present : c ≠ ',') (rest : Text) :
    ∃ head tail more, pieces false false (c :: rest) = head :: tail ∧ head ≠ [] ∧
      c :: rest = head ++ more ∧
      (more = [] ∧ tail = [] ∨
        ∃ others, more = ',' :: others ∧ pieces false false others = tail) := by
  obtain ⟨head, tail, cut⟩ := List.exists_cons_of_ne_nil (pieces_ne_nil false false (c :: rest))
  obtain ⟨more, whole, behind⟩ := exists_rest_of_pieces cut
  refine ⟨head, tail, more, cut, ?_, whole, behind⟩
  rcases pieces_cons_eq cut with ⟨comma, -⟩ | ⟨-, front, rfl, -⟩
  · exact absurd comma present
  · exact List.cons_ne_nil c front

theorem readPieces_behind {whole rest : Text} {offset : Nat} {tail : List Text}
    (behind : rest = [] ∧ tail = [] ∨ ∃ more, rest = ',' :: more ∧ pieces false false more = tail) :
    readPieces whole offset (pieces false false rest) = readPieces whole (offset + 1) tail := by
  rcases behind with ⟨rfl, rfl⟩ | ⟨more, rfl, rfl⟩
  · rfl
  · rfl

section Rounds

/-! A scan that has come to the end of `front`. -/
variable (front : Text)

theorem round_comma (rest : Text) :
    round (front ++ ',' :: rest) (byteSize front) = .ok ⟨byteSize (front ++ [',']), .comma⟩ := by
  have next : byteSize (front ++ [',']) = byteSize front + 1 := byteSize_append _ _
  rw [round, byteAt_ascii front rest (by decide), next]
  rfl

theorem ofItem_ofPiece (piece rest : Text) :
    Round.ofItem (front ++ piece ++ rest) (byteSize front) (.ofPiece front piece) =
      .ok ⟨byteSize (front ++ piece), .ofOption? (option? piece)⟩ := by
  have quoted : (ItemScan.ofPiece front piece).quoted = !balanced piece := by
    simp [ItemScan.ofPiece, endsQuoted_eq]
  rw [Round.ofItem, quoted, ItemScan.option_ofPiece]
  by_cases closed : balanced piece
  · rw [if_neg (by simp [closed])]
    by_cases nameless : (optionOfPiece piece).name = []
    · rw [option?, if_neg fun both => both.2 nameless]
      exact congrArg (fun found => Except.ok (Round.mk _ found)) (if_pos nameless)
    · rw [option?, if_pos ⟨closed, nameless⟩]
      exact congrArg (fun found => Except.ok (Round.mk _ found)) (if_neg nameless)
  · rw [if_pos (by simp [closed]), option?, if_neg fun both => closed both.1]
    rfl

theorem round_item {c : Char} {rest head more : Text} {tail : List Text} (present : c ≠ ',')
    (cut : pieces false false (c :: rest) = head :: tail) (whole : c :: rest = head ++ more) :
    round (front ++ c :: rest) (byteSize front) =
      .ok ⟨byteSize (front ++ head), .ofOption? (option? head)⟩ := by
  obtain ⟨byte, read, shows⟩ := exists_byteAt front c rest c.utf8Size_pos
  rw [Nat.add_zero] at read
  have other : byte ≠ ','.toUInt8 := mt (shows ',' (by decide)).mp present
  have found := ofItem_ofPiece front head more
  rw [List.append_assoc, ← whole] at found
  rw [round, read]
  refine (if_neg other).trans ?_
  rw [ItemScan.run_eq_ofPiece present cut]
  exact found

theorem scanFrom_eq (rest : Text) :
    scanFrom (front ++ rest) (byteSize front) =
      .ok (readPieces (front ++ rest) (byteSize front) (pieces false false rest)) := by
  -- On the length of the rest: an item is passed in one round, and the comma behind it, which
  -- belongs to no piece, in the next.
  induction size_eq : rest.length using Nat.strong_induction_on generalizing front rest with
  | _ size ih =>
    cases rest with
    | nil =>
      rw [scanFrom_at_end (by rw [List.append_nil])]
      rfl
    | cons c rest =>
      have inside : byteSize front < byteSize (front ++ c :: rest) := by
        have room := byteSize_pos (List.cons_ne_nil c rest)
        rw [byteSize_append]
        omega
      by_cases comma : c = ','
      · subst comma
        have later := ih rest.length (by simp [← size_eq]) (front ++ [',']) rest rfl
        rw [List.append_assoc, List.singleton_append] at later
        have next : byteSize (front ++ [',']) = byteSize front + 1 := byteSize_append _ _
        rw [scanFrom_of_round inside (round_comma front rest)]
        dsimp only
        rw [later, next]
        rfl
      · obtain ⟨head, tail, more, cut, present, whole, behind⟩ := exists_piece comma rest
        have shorter : more.length < size := by
          have room := List.length_pos_iff.mpr present
          rw [← size_eq, whole, List.length_append]
          omega
        have later := ih more.length shorter (front ++ head) more rfl
        rw [List.append_assoc, ← whole, readPieces_behind behind, byteSize_append] at later
        rw [scanFrom_of_round inside (round_item front comma cut whole), cut, readPieces,
          if_neg present]
        cases option? head with
        | none => rfl
        | some o =>
          dsimp only [Found.ofOption?]
          rw [byteSize_append, later]
          rfl

end Rounds

theorem scan_eq (t : Text) : scan t = .ok (read t) := scanFrom_eq [] t

section Positions

variable {t : Text} {pos : Nat}

theorem exists_item (boundary : IsBoundary t pos) (inside : pos < byteSize t)
    (noComma : byteAt t pos ≠ .ok ','.toUInt8) :
    ∃ item, ItemScan.run t pos { pos } = .ok item ∧ pos < item.pos ∧ IsBoundary t item.pos ∧
      ∀ sign, item.sign = some sign →
        pos ≤ sign ∧ sign < item.pos ∧ IsBoundary t sign ∧ IsBoundary t (sign + 1) := by
  obtain ⟨front, c, rest, rfl, rfl⟩ := exists_cons_of_isBoundary boundary inside
  have other : c ≠ ',' := by
    rintro rfl
    exact noComma (byteAt_ascii front rest (by decide))
  obtain ⟨head, tail, more, cut, present, whole, -⟩ := exists_piece other rest
  refine ⟨_, ItemScan.run_eq_ofPiece other cut, ItemScan.lt_pos_ofPiece front present, ?_⟩
  rw [whole, ← List.append_assoc]
  exact ⟨isBoundary_append (front ++ head) more,
    fun sign found => ItemScan.sign_ofPiece front more found⟩

theorem exists_round (boundary : IsBoundary t pos) (inside : pos < byteSize t) :
    ∃ r, round t pos = .ok r ∧ pos < r.next ∧ IsBoundary t r.next := by
  obtain ⟨front, c, rest, rfl, rfl⟩ := exists_cons_of_isBoundary boundary inside
  by_cases comma : c = ','
  · subst comma
    have done := round_comma front rest
    refine ⟨_, done, lt_next_of_round done, ?_⟩
    rw [List.append_cons]
    exact isBoundary_append (front ++ [',']) rest
  · obtain ⟨head, tail, more, cut, -, whole, -⟩ := exists_piece comma rest
    have done := round_item front comma cut whole
    refine ⟨_, done, lt_next_of_round done, ?_⟩
    rw [whole, ← List.append_assoc]
    exact isBoundary_append (front ++ head) more

theorem position_of_scanFrom {fault : Malformed} (boundary : IsBoundary t pos)
    (refused : scanFrom t pos = .ok (.error fault)) :
    fault.whole = t ∧ IsBoundary t fault.offset ∧ fault.offset < byteSize t := by
  fun_induction scanFrom t pos with
  | case1 pos inside stray failed => cases refused
  | case2 pos inside r done comma ih =>
    obtain ⟨other, again, -, next⟩ := exists_round boundary inside
    cases again.symm.trans done
    exact ih next refused
  | case3 pos inside r done o isOption ih =>
    obtain ⟨other, again, -, next⟩ := exists_round boundary inside
    cases again.symm.trans done
    cases later : scanFrom t r.next with
    | error stray =>
      rw [later] at refused
      cases refused
    | ok answer =>
      rw [later] at refused
      cases answer with
      | ok options => cases refused
      | error found =>
        cases refused
        exact ih next later
  | case4 pos inside r done isRefused =>
    cases refused
    exact ⟨rfl, boundary, inside⟩
  | case5 pos outside => cases refused

end Positions

end MountPolicy.OptionString

namespace MountPolicy

open Text

/-- Reading by bytes stays within the text, whatever the text: every round ends on a
character behind the one where it began, an item and its sign lie in order on characters,
nothing is looked for where it is not, and a string is refused at a character of it. The
same holds of the mode that is shared. -/
theorem byteScans_withinText (t : Text) :
    (∀ pos, IsBoundary t pos → pos < byteSize t →
      (∃ r, OptionString.round t pos = .ok r ∧ pos < r.next ∧ IsBoundary t r.next) ∧
      (byteAt t pos ≠ .ok ','.toUInt8 →
        ∃ item, OptionString.ItemScan.run t pos { pos } = .ok item ∧
          pos < item.pos ∧ IsBoundary t item.pos ∧
          ∀ sign, item.sign = some sign →
            pos ≤ sign ∧ sign < item.pos ∧ IsBoundary t sign ∧ IsBoundary t (sign + 1))) ∧
    OptionString.scan t = .ok (OptionString.read t) ∧
    (∀ fault, OptionString.read t = .error fault →
      fault.whole = t ∧ IsBoundary t fault.offset ∧ fault.offset < byteSize t) ∧
    Mode.sharedByBytes t = .ok (Mode.shared? t) := by
  refine ⟨fun pos boundary inside => ⟨?_, ?_⟩, OptionString.scan_eq t, ?_, Mode.sharedByBytes_eq t⟩
  · exact OptionString.exists_round boundary inside
  · exact OptionString.exists_item boundary inside
  · intro fault refused
    refine OptionString.position_of_scanFrom (isBoundary_append [] t) ?_
    exact (OptionString.scan_eq t).trans (congrArg Except.ok refused)

def accentedString : Text := "\u00e9=\u20ac\\,x,\"q".toList

/-- The first item takes nine bytes, the comma behind it one, and the next item is refused. -/
theorem byteScans_withinText_accented :
    IsBoundary accentedString 0 ∧ 0 < byteSize accentedString ∧
      byteAt accentedString 0 ≠ .ok ','.toUInt8 ∧
      (∃ item, OptionString.ItemScan.run accentedString 0 { pos := 0 } = .ok item ∧ 0 < item.pos) ∧
      OptionString.read accentedString = .error ⟨accentedString, 10⟩ ∧
      IsBoundary accentedString 10 ∧ 10 < byteSize accentedString ∧
      OptionString.scan accentedString = .ok (.error ⟨accentedString, 10⟩) := by
  have boundary : IsBoundary accentedString 0 := isBoundary_append [] accentedString
  have inside : 0 < byteSize accentedString := by decide
  have first : byteAt accentedString 0 = .ok 0xc3 := rfl
  have noComma : byteAt accentedString 0 ≠ .ok ','.toUInt8 := by
    rw [first]
    decide
  have refused : OptionString.read accentedString = .error ⟨accentedString, 10⟩ := rfl
  obtain ⟨rounds, scanned, places, -⟩ := byteScans_withinText accentedString
  obtain ⟨item, taken, ahead, -⟩ := (rounds 0 boundary inside).2 noComma
  obtain ⟨-, onCharacter, within⟩ := places _ refused
  rw [refused] at scanned
  exact ⟨boundary, inside, noComma, ⟨item, taken, ahead⟩, refused, onCharacter, within, scanned⟩

end MountPolicy
