import MountPolicy.KeyFile

/-! The lines of a key file by section. A header begins its section or goes on with it,
and the lines up to the next header belong to that section too; the lines in front of
the first header belong to none. Main statement: the sections of some names are what
their own lines give when they stand alone. -/
namespace MountPolicy.KeyFile

/-- The lines of a text without the blanks around them, and without those that are blank. -/
def shownLines (text : Text) : List Text := ((Text.lines text).map Text.trim).filter (· ≠ [])

namespace Line

def ofShown (line : Text) : Line := (ofTrimmed line).toOption.getD .ignored

def header? : Line → Option Text
  | .header name => some name
  | _ => none

def setting? : Line → Option (Text × Option Text)
  | .entry key value => some (key, value)
  | _ => none

end Line

def headerName? (line : Text) : Option Text := (Line.ofShown line).header?

/-- The lines of the wanted sections, with their headers. `inside` says whether the
section that is open at the start is a wanted one. -/
def linesOf (wanted : Text → Bool) : Bool → List Text → List Text
  | _, [] => []
  | inside, line :: rest =>
    let here := ((headerName? line).map wanted).getD inside
    if here then line :: linesOf wanted here rest else linesOf wanted here rest

def entriesIn (name text : Text) : List (Text × Option Text) :=
  (linesOf (· == name) false (shownLines text)).filterMap fun line => (Line.ofShown line).setting?

theorem linesOf_linesOf (first second : Text → Bool) (a b : Bool) (lines : List Text) :
    linesOf first a (linesOf second b lines) =
      linesOf (fun name => first name && second name) (a && b) lines := by
  induction lines generalizing a b with
  | nil => rfl
  | cons line rest ih =>
    cases header : headerName? line with
    | none =>
      cases b with
      | false => simpa [linesOf, header] using ih a false
      | true => cases a <;> simp [linesOf, header, ih]
    | some name =>
      cases kept : second name with
      | false => simpa [linesOf, header, kept] using ih a false
      | true => cases wanted : first name <;> simp [linesOf, header, kept, wanted, ih]

theorem linesOf_eq_nil {wanted : Text → Bool} {lines : List Text}
    (foreign : ∀ line ∈ lines, ∀ name, headerName? line = some name → wanted name = false) :
    linesOf wanted false lines = [] := by
  induction lines with
  | nil => rfl
  | cons line rest ih =>
    obtain ⟨here, there⟩ := List.forall_mem_cons.mp foreign
    cases header : headerName? line with
    | none => simpa [linesOf, header] using ih there
    | some name => simpa [linesOf, header, here name header] using ih there

theorem linesOf_headers {wanted : Text → Bool} {inside : Bool} {lines : List Text}
    {line name : Text} (mem : line ∈ linesOf wanted inside lines)
    (header : headerName? line = some name) :
    wanted name := by
  induction lines generalizing inside with
  | nil => simp [linesOf] at mem
  | cons first rest ih =>
    simp only [linesOf] at mem
    split at mem
    · rename_i here
      rcases List.mem_cons.mp mem with rfl | there
      · simpa [header] using here
      · exact ih there
    · exact ih mem

theorem header_of_linesOf {wanted : Text → Bool} {lines rest : List Text} {line : Text}
    (cut : linesOf wanted false lines = line :: rest) : ∃ name, headerName? line = some name := by
  induction lines with
  | nil => simp [linesOf] at cut
  | cons first others ih =>
    cases header : headerName? first with
    | none => exact ih (by simpa [linesOf, header] using cut)
    | some name =>
      cases kept : wanted name with
      | false => exact ih (by simpa [linesOf, header, kept] using cut)
      | true =>
        have same : first = line := by
          simp only [linesOf, header, Option.map_some, Option.getD_some, kept, if_true,
            List.cons.injEq] at cut
          exact cut.1
        exact ⟨name, same ▸ header⟩

private theorem readLines_eq_ok {number : Nat} {texts : List Text} {lines : List Line}
    (done : readLines number texts = .ok lines) :
    lines = texts.map fun text => Line.ofShown (Text.trim text) := by
  induction texts generalizing number lines with
  | nil => exact (Except.ok.inj done).symm
  | cons text rest ih =>
    simp only [readLines] at done
    cases first : Line.ofText text with
    | error cause => simp [first] at done
    | ok line =>
      rw [first] at done
      cases later : readLines (number + 1) rest with
      | error fault => simp [later, Except.map] at done
      | ok others =>
        have whole : lines = line :: others := by simpa [later, Except.map, eq_comm] using done
        have shown : Line.ofShown (Text.trim text) = line := by
          change (Line.ofText text).toOption.getD .ignored = line
          rw [first]
          rfl
        rw [whole, ih later, List.map_cons, shown]

private theorem collect_shown (sections : List Section) (current : Text) (lines : List Text) :
    collect sections current ((lines.filter (· ≠ [])).map Line.ofShown) =
      collect sections current (lines.map Line.ofShown) := by
  induction lines generalizing sections current with
  | nil => rfl
  | cons line rest ih =>
    by_cases blank : line = []
    · subst blank
      have ignored : Line.ofShown [] = .ignored := rfl
      simpa [ignored, collect] using ih sections current
    · rw [List.filter_cons_of_pos (by simpa using blank), List.map_cons, List.map_cons]
      cases Line.ofShown line with
      | ignored => exact ih sections current
      | header name => exact ih _ name
      | entry key value => exact ih _ current

theorem eq_of_read {text : Text} {found : List Section} (done : read text = .ok found) :
    found = sections ((shownLines text).map Line.ofShown) := by
  unfold read at done
  cases parsed : readLines 1 (Text.lines text) with
  | error fault => simp [parsed, Except.map] at done
  | ok lines =>
    have whole : found = sections lines := by simpa [parsed, Except.map, eq_comm] using done
    have trimmed : lines = ((Text.lines text).map Text.trim).map Line.ofShown := by
      rw [readLines_eq_ok parsed, List.map_map]
      rfl
    rw [whole, trimmed]
    exact (collect_shown [] orphanName _).symm

theorem filter_inSection (wanted : Text → Bool) (name : Text) {change : Section → Section}
    (same : ∀ s, (change s).name = s.name) (sections : List Section) :
    (inSection name change sections).filter (fun s => wanted s.name) =
      if wanted name then inSection name change (sections.filter fun s => wanted s.name)
      else sections.filter fun s => wanted s.name := by
  apply filter_upsert
  · intro s fits
    rw [beq_iff_eq.mp fits]
  · intro s
    rw [same s]

private theorem filter_collect (wanted : Text → Bool) {current kept : Text}
    (same : wanted current → kept = current) (sections : List Section) (lines : List Text) :
    (collect sections current (lines.map Line.ofShown)).filter (fun s => wanted s.name) =
      collect (sections.filter fun s => wanted s.name) kept
        ((linesOf wanted (wanted current) lines).map Line.ofShown) := by
  -- While an unwanted section is open, the wanted lines may be collected under any name.
  induction lines generalizing sections current kept with
  | nil => rfl
  | cons line rest ih =>
    cases said : Line.ofShown line with
    | ignored =>
      have header : headerName? line = none := by simp [headerName?, said, Line.header?]
      have later := ih same sections
      cases inside : wanted current <;> simpa [linesOf, header, said, collect, inside] using later
    | header name =>
      have header : headerName? line = some name := by simp [headerName?, said, Line.header?]
      have later {kept : Text} (same : wanted name → kept = name) :=
        ih same (inSection name id sections)
      cases inside : wanted name with
      | false =>
        have closed : wanted name → kept = name := by simp [inside]
        have skipped := later closed
        simpa [linesOf, header, said, collect, inside, filter_inSection] using skipped
      | true =>
        have opened : wanted name → name = name := fun _ => rfl
        have taken := later opened
        simpa [linesOf, header, said, collect, inside, filter_inSection] using taken
    | entry key value =>
      have header : headerName? line = none := by simp [headerName?, said, Line.header?]
      let change (s : Section) : Section := { s with entries := setKey key value s.entries }
      have keeps : ∀ s, (change s).name = s.name := fun _ => rfl
      have later := ih same (inSection current change sections)
      rw [filter_inSection wanted current keeps] at later
      cases inside : wanted current with
      | false => simpa [linesOf, header, said, collect, inside] using later
      | true =>
        obtain rfl := same inside
        simpa [linesOf, header, said, collect, inside] using later

theorem filter_sections {text : Text} {found : List Section} (done : read text = .ok found)
    {wanted : Text → Bool} (orphan : wanted orphanName = false) :
    found.filter (fun s => wanted s.name) =
      sections ((linesOf wanted false (shownLines text)).map Line.ofShown) := by
  have atStart : wanted orphanName → orphanName = orphanName := fun _ => rfl
  have restricted := filter_collect wanted atStart [] (shownLines text)
  rw [orphan] at restricted
  rw [eq_of_read done]
  exact restricted

end MountPolicy.KeyFile
