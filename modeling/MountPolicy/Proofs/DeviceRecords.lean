import Mathlib.Data.List.Infix
import MountPolicy.Device

/-! Records of the device database, line by line. Main statement: a record is read if every
line of it can be, and then it has the links of its lines in order and, for each property,
what the last line for it says; otherwise the first line that cannot be read is the error. -/
namespace MountPolicy

namespace Text

/-- How a text is cut into lines. A carriage return belongs to the end of its line only if a
line feed follows it. -/
inductive IsLines : Text → List Text → Prop where
  | none : IsLines [] []
  | unended {line : Text} : line ≠ [] → '\n' ∉ line → IsLines line [line]
  | ended {line rest : Text} {lines : List Text} : '\n' ∉ line → line.getLast? ≠ some '\r' →
      IsLines rest lines → IsLines (line ++ '\n' :: rest) (line :: lines)
  | returned {line rest : Text} {lines : List Text} : '\n' ∉ line →
      IsLines rest lines → IsLines (line ++ '\r' :: '\n' :: rest) (line :: lines)

theorem withoutReturn_of_getLast? {line : Text} (plain : line.getLast? ≠ some '\r') :
    withoutReturn line = line := by
  unfold withoutReturn
  split
  · rename_i rest cut
    obtain rfl := List.isSuffixOf?_eq_some_iff_append_eq.mp cut
    simp at plain
  · rfl

theorem withoutReturn_append (line : Text) : withoutReturn (line ++ ['\r']) = line := by
  have cut : ['\r'].isSuffixOf? (line ++ ['\r']) = some line :=
    List.isSuffixOf?_eq_some_iff_append_eq.mpr rfl
  rw [withoutReturn, cut]

theorem lines_of_not_mem {line : Text} (present : line ≠ []) (whole : '\n' ∉ line) :
    lines line = [line] := by
  rw [lines, List.splitOn_eq_singleton whole, linesOfPieces, if_neg present]

theorem lines_append {line rest : Text} (whole : '\n' ∉ line) :
    lines (line ++ '\n' :: rest) = withoutReturn line :: lines rest := by
  obtain ⟨head, tail, cut⟩ := List.exists_cons_of_ne_nil (List.splitOn_ne_nil '\n' rest)
  rw [lines, List.splitOn_append_cons_self_of_not_mem whole, lines, cut, linesOfPieces]
  simp

theorem lines_append_returned {line rest : Text} (whole : '\n' ∉ line) :
    lines (line ++ '\r' :: '\n' :: rest) = line :: lines rest := by
  have feed : '\n' ∉ line ++ ['\r'] := by simp [whole]
  calc lines (line ++ '\r' :: '\n' :: rest)
      = lines ((line ++ ['\r']) ++ '\n' :: rest) := by rw [List.append_assoc]; rfl
    _ = withoutReturn (line ++ ['\r']) :: lines rest := lines_append feed
    _ = line :: lines rest := by rw [withoutReturn_append]

theorem isLines_lines (t : Text) : IsLines t (lines t) := by
  by_cases feed : '\n' ∈ t
  · obtain ⟨line, rest, cut, whole⟩ := List.eq_append_cons_of_mem feed
    have later := isLines_lines rest
    rw [cut, lines_append whole]
    by_cases returned : line.getLast? = some '\r'
    · obtain ⟨front, rfl⟩ := List.getLast?_eq_some_iff.mp returned
      rw [withoutReturn_append, List.append_assoc]
      exact .returned (fun mem => whole (List.mem_append_left _ mem)) later
    · rw [withoutReturn_of_getLast? returned]
      exact .ended whole returned later
  · by_cases empty : t = []
    · subst empty
      exact .none
    · rw [lines_of_not_mem empty feed]
      exact .unended empty feed
termination_by t.length
decreasing_by simp only [cut, List.length_append, List.length_cons]; omega

theorem isLines_iff {t : Text} {found : List Text} : IsLines t found ↔ found = lines t := by
  constructor
  · intro cut
    induction cut with
    | none => rfl
    | unended present whole => exact (lines_of_not_mem present whole).symm
    | ended whole plain _ ih => rw [lines_append whole, withoutReturn_of_getLast? plain, ih]
    | returned whole _ ih => rw [lines_append_returned whole, ih]
  · rintro rfl
    exact isLines_lines t

end Text

namespace DeviceRecord

namespace Line

/-- What a line of a record says. The first colon ends its tag, and the first equals sign
behind the tag `E` ends the name of a property. -/
inductive Reads : Text → Line → Prop where
  | property {name value : Text} : '=' ∉ name →
      Reads ("E:".toList ++ name ++ '=' :: value) (.property name value)
  | link {path : Text} : Reads ("S:".toList ++ path) (.link ("/dev/".toList ++ path))
  | other {tag payload : Text} : ':' ∉ tag → tag ≠ ['E'] → tag ≠ ['S'] →
      Reads (tag ++ ':' :: payload) .other

inductive Unreadable : Text → Prop where
  | untagged {line : Text} : ':' ∉ line → Unreadable line
  | unassigned {payload : Text} : '=' ∉ payload → Unreadable ("E:".toList ++ payload)

theorem ofText?_append {tag payload : Text} (cut : ':' ∉ tag) :
    ofText? (tag ++ ':' :: payload) =
      if tag = ['E'] then
        (Text.splitFirst? '=' payload).map fun parts => .property parts.1 parts.2
      else if tag = ['S'] then some (.link (linkDirectory ++ payload))
      else some .other := by
  unfold ofText?
  rw [Text.splitFirst?_append cut]
  change (if tag = ['E'] then _ else _) = _
  split
  · cases Text.splitFirst? '=' payload <;> rfl
  · split <;> rfl

theorem ofText?_property (payload : Text) :
    ofText? ("E:".toList ++ payload) =
      (Text.splitFirst? '=' payload).map fun parts => .property parts.1 parts.2 :=
  ofText?_append (show ':' ∉ ['E'] by decide)

theorem ofText?_of_reads {text : Text} {line : Line} (reads : Reads text line) :
    ofText? text = some line := by
  cases reads with
  | property whole =>
    rw [List.append_assoc, ofText?_property, Text.splitFirst?_append whole]
    rfl
  | link => exact ofText?_append (show ':' ∉ ['S'] by decide)
  | other cut property link => rw [ofText?_append cut, if_neg property, if_neg link]

theorem ofText?_of_unreadable {text : Text} (unreadable : Unreadable text) :
    ofText? text = none := by
  cases unreadable with
  | untagged absent =>
    unfold ofText?
    rw [Text.splitFirst?_eq_none.mpr absent]
    rfl
  | unassigned absent =>
    rw [ofText?_property, Text.splitFirst?_eq_none.mpr absent]
    rfl

theorem unreadable_or_reads (text : Text) : Unreadable text ∨ ∃ line, Reads text line := by
  by_cases colon : ':' ∈ text
  · obtain ⟨tag, payload, rfl, cut⟩ := List.eq_append_cons_of_mem colon
    by_cases property : tag = ['E']
    · subst property
      by_cases sign : '=' ∈ payload
      · obtain ⟨name, value, rfl, whole⟩ := List.eq_append_cons_of_mem sign
        have read : Reads ("E:".toList ++ name ++ '=' :: value) _ := .property whole
        exact .inr ⟨_, by simpa using read⟩
      · exact .inl (.unassigned sign)
    · by_cases link : tag = ['S']
      · subst link
        exact .inr ⟨_, .link⟩
      · exact .inr ⟨_, .other cut property link⟩
  · exact .inl (.untagged colon)

theorem ofText?_eq_some_iff {text : Text} {line : Line} :
    ofText? text = some line ↔ Reads text line := by
  constructor
  · intro found
    rcases unreadable_or_reads text with unreadable | ⟨line', reads⟩
    · exact absurd (found.symm.trans (ofText?_of_unreadable unreadable)) nofun
    · rwa [← Option.some.inj ((ofText?_of_reads reads).symm.trans found)]
  · exact ofText?_of_reads

theorem ofText?_eq_none_iff {text : Text} : ofText? text = none ↔ Unreadable text := by
  constructor
  · intro nothing
    rcases unreadable_or_reads text with unreadable | ⟨line, reads⟩
    · exact unreadable
    · exact absurd (nothing.symm.trans (ofText?_of_reads reads)) nofun
  · exact ofText?_of_unreadable

end Line

private theorem readLines_eq_error_iff_find? {texts : List Text} {text : Text} :
    readLines texts = .error text ↔
      texts.find? (fun text => (Line.ofText? text).isNone) = some text := by
  induction texts with
  | nil => exact ⟨nofun, nofun⟩
  | cons first rest ih =>
    rw [readLines, List.find?_cons]
    cases Line.ofText? first with
    | none => simp
    | some line =>
      rw [Option.isNone_some, ← ih]
      cases readLines rest <;> simp [Except.map]

theorem readLines_eq_error_iff {texts : List Text} {text : Text} :
    readLines texts = .error text ↔ Line.Unreadable text ∧
      ∃ before after, texts = before ++ text :: after ∧
        ∀ earlier ∈ before, ¬ Line.Unreadable earlier := by
  rw [readLines_eq_error_iff_find?, List.find?_eq_some_iff_append]
  simp only [Option.isNone_iff_eq_none, Line.ofText?_eq_none_iff, Bool.not_eq_true',
    ← Bool.not_eq_true]

theorem readLines_of_readable {texts : List Text}
    (readable : ∀ text ∈ texts, ¬ Line.Unreadable text) :
    readLines texts = .ok (texts.filterMap Line.ofText?) := by
  induction texts with
  | nil => rfl
  | cons text rest ih =>
    obtain ⟨line, found⟩ := Option.ne_none_iff_exists'.mp
      (mt Line.ofText?_eq_none_iff.mp (readable text List.mem_cons_self))
    rw [readLines, found, ih fun other mem => readable other (List.mem_cons_of_mem _ mem),
      List.filterMap_cons, found]
    rfl

/-- What readable lines say about the device at a node. -/
structure Records (record : DeviceRecord) (node : Text) (texts : List Text) : Prop where
  node : record.node = node
  links : record.links = texts.filterMap fun text =>
    ("S:".toList.isPrefixOf? text).map ("/dev/".toList ++ ·)
  names : ∀ name, record.properties.contains name ↔
    ∃ text ∈ texts, ∃ value, Line.Reads text (.property name value)
  last : ∀ name value, record.properties.get? name = some value ↔
    ∃ before text after, texts = before ++ text :: after ∧
      Line.Reads text (.property name value) ∧
      ∀ later ∈ after, ∀ other, ¬ Line.Reads later (.property name other)

def Line.link? : Line → Option Text
  | .link path => some path
  | .property .. | .other => none

def Line.value? (name : Text) : Line → Option Text
  | .property key value => if key = name then some value else none
  | .link _ | .other => none

theorem Line.value?_eq_some_iff {name value : Text} {line : Line} :
    line.value? name = some value ↔ line = .property name value := by
  cases line with
  | property key given => simp [value?]
  | link path => simp [value?]
  | other => simp [value?]

theorem Line.bind_link? (text : Text) :
    (ofText? text).bind link? = ("S:".toList.isPrefixOf? text).map ("/dev/".toList ++ ·) := by
  have linked (path : Text) : (ofText? text).bind link? = some path ↔ Reads text (.link path) := by
    rw [← ofText?_eq_some_iff]
    rcases ofText? text with _ | _ | _ | _ <;> simp [link?]
  apply Option.ext
  intro path
  rw [linked, Option.map_eq_some_iff]
  constructor
  · rintro ⟨⟩
    exact ⟨_, List.isPrefixOf?_eq_some_iff_append_eq.mpr rfl, rfl⟩
  · rintro ⟨rest, cut, rfl⟩
    rw [← List.isPrefixOf?_eq_some_iff_append_eq.mp cut]
    exact .link

variable (record : DeviceRecord) (lines : List Line)

theorem node_foldl_addLine : (lines.foldl addLine record).node = record.node := by
  induction lines generalizing record with
  | nil => rfl
  | cons line rest ih =>
    rw [List.foldl_cons, ih]
    cases line <;> rfl

theorem links_foldl_addLine :
    (lines.foldl addLine record).links = record.links ++ lines.filterMap Line.link? := by
  induction lines generalizing record with
  | nil => exact (List.append_nil _).symm
  | cons line rest ih =>
    rw [List.foldl_cons, ih, List.filterMap_cons]
    cases line with
    | link path => simp [addLine, Line.link?]
    | property | other => rfl

theorem get?_addLine (line : Line) (name : Text) :
    (addLine record line).properties.get? name =
      (line.value? name).or (record.properties.get? name) := by
  cases line with
  | property key value =>
    simp only [addLine, Line.value?, SortedMap.get?_insert, eq_comm (a := name)]
    split <;> rfl
  | link | other => rfl

theorem get?_foldl_addLine (name : Text) :
    (lines.foldl addLine record).properties.get? name =
      (lines.filterMap (Line.value? name)).getLast?.or (record.properties.get? name) := by
  -- from the end, since a later line for the name hides what the lines in front of it say
  induction lines using List.reverseRecOn with
  | nil => rfl
  | append_singleton lines line ih =>
    rw [List.foldl_concat, get?_addLine, ih, List.filterMap_append, List.getLast?_append]
    cases given : line.value? name <;> simp [given]

theorem records_foldl_addLine (texts : List Text) (node : Text) :
    Records ((texts.filterMap Line.ofText?).foldl addLine { node }) node texts := by
  have given (name : Text) : (((texts.filterMap Line.ofText?).foldl addLine
      { node }).properties.get? name) =
      (texts.filterMap fun text => (Line.ofText? text).bind (Line.value? name)).getLast? := by
    rw [get?_foldl_addLine, List.filterMap_filterMap]
    exact Option.or_none
  have image {name value text : Text} :
      (Line.ofText? text).bind (Line.value? name) = some value ↔
        Line.Reads text (.property name value) := by
    simp only [Option.bind_eq_some_iff, Line.value?_eq_some_iff, exists_eq_right,
      Line.ofText?_eq_some_iff]
  have silent {name text : Text} : (Line.ofText? text).bind (Line.value? name) = none ↔
      ∀ value, ¬ Line.Reads text (.property name value) := by
    simp only [Option.eq_none_iff_forall_ne_some, Ne, image]
  constructor
  case node => exact node_foldl_addLine _ _
  case links =>
    rw [links_foldl_addLine, List.filterMap_filterMap, funext Line.bind_link?]
    rfl
  case names =>
    intro name
    rw [SortedMap.contains, given, List.getLast?_filterMap, List.findSome?_isSome_iff]
    simp only [List.mem_reverse, Option.isSome_iff_exists, image]
  case last =>
    intro name value
    rw [given, getLast?_filterMap_iff]
    simp only [image, silent]

/-- A record is read from the lines of its text, empty ones left out. The first line that
cannot be read is the error; if there is none, the record has what its lines say, and lines
with a tag of another kind say nothing. -/
theorem ofText_lineByLine (node content : Text) :
    let texts := (Text.lines content).filter (· ≠ [])
    (∀ found, Text.IsLines content found ↔ found = Text.lines content) ∧
      (∀ text, ofText node content = .error text ↔ Line.Unreadable text ∧
        ∃ before after, texts = before ++ text :: after ∧
          ∀ earlier ∈ before, ¬ Line.Unreadable earlier) ∧
      ((∀ text ∈ texts, ¬ Line.Unreadable text) →
        ∃ record, ofText node content = .ok record ∧ Records record node texts) := by
  intro texts
  refine ⟨fun found => Text.isLines_iff, ?refused, ?read⟩
  case refused =>
    intro text
    rw [← readLines_eq_error_iff, ofText]
    change (readLines texts).map _ = _ ↔ _
    cases readLines texts <;> simp [Except.map]
  case read =>
    intro readable
    refine ⟨_, ?_, records_foldl_addLine texts node⟩
    rw [ofText]
    change (readLines texts).map _ = _
    rw [readLines_of_readable readable]
    rfl

/-- A property that is set twice, a property without a name, and a carriage return that ends
no line. -/
def returnedText : Text := "S:a\r\nE:A=1\n\nG:x\nE:A==2\nS:a\nE:=v\r".toList

theorem ofText_lineByLine_returned :
    (∃ record, ofText "/dev/sdb1".toList returnedText = .ok record ∧
      record.links = ["/dev/a".toList, "/dev/a".toList] ∧
      record.properties.get? "A".toList = some "=2".toList ∧
      record.properties.get? [] = some "v\r".toList) ∧
    ofText "/dev/sdb1".toList "I:1\nE:A\ngarbage\n".toList = .error "E:A".toList := by
  constructor
  · obtain ⟨-, -, read⟩ := ofText_lineByLine "/dev/sdb1".toList returnedText
    have readable : ∀ text ∈ (Text.lines returnedText).filter (· ≠ []),
        ¬ Line.Unreadable text := by
      simp only [← Line.ofText?_eq_none_iff]
      decide
    obtain ⟨record, done, records⟩ := read readable
    have named : Line.Reads ("E:".toList ++ "A".toList ++ '=' :: "=2".toList)
      (.property "A".toList "=2".toList) := .property (by decide)
    have nameless : Line.Reads ("E:".toList ++ [] ++ '=' :: "v\r".toList)
      (.property [] "v\r".toList) := .property (by decide)
    refine ⟨record, done, records.links.trans rfl, (records.last _ _).mpr ?_,
      (records.last _ _).mpr ?_⟩
    · refine ⟨["S:a".toList, "E:A=1".toList, "G:x".toList], _,
        ["S:a".toList, "E:=v\r".toList], rfl, named, ?_⟩
      intro later mem value reads
      have found := Line.ofText?_of_reads reads
      rcases List.mem_pair.mp mem with rfl | rfl
      · exact absurd found nofun
      · exact absurd found nofun
    · refine ⟨["S:a".toList, "E:A=1".toList, "G:x".toList, "E:A==2".toList, "S:a".toList], _, [],
        rfl, nameless, nofun⟩
  · obtain ⟨-, refused, -⟩ := ofText_lineByLine "/dev/sdb1".toList "I:1\nE:A\ngarbage\n".toList
    have unassigned : Line.Unreadable ("E:".toList ++ "A".toList) := .unassigned (by decide)
    refine (refused _).mpr ⟨unassigned, ["I:1".toList], ["garbage".toList], rfl, ?_⟩
    simp only [← Line.ofText?_eq_none_iff]
    decide

end DeviceRecord
end MountPolicy
