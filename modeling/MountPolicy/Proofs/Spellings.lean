import Mathlib.Data.List.Induction
import Mathlib.Data.List.Nodup
import MountPolicy.Proofs.AppliedEntries
import MountPolicy.Proofs.SectionBlocks

/-! Lists that a section sets more than once. Keys are told apart by their spelling, and a
key that is given again keeps its place; only afterwards are spellings of one list brought
together. Main statement: the spelling that is new last decides, with the value of its last
line, so the last line of a list counts only if no older spelling comes back on it. -/
namespace MountPolicy

namespace KeyFile

/-- The value of the last entry with the key, if that entry has one. -/
def lastValue? (entries : List (Text × Option Text)) (key : Text) : Option Text :=
  (entries.filter (·.1 = key)).getLast?.bind Prod.snd

def spellings (entries : List (Text × Option Text)) : List Text :=
  (entries.map Prod.fst).eraseDups

theorem eraseDups_concat (keys : List Text) (key : Text) :
    (keys ++ [key]).eraseDups =
      if key ∈ keys then keys.eraseDups else keys.eraseDups ++ [key] := by
  rw [List.eraseDups_append]
  by_cases known : key ∈ keys
  · have nothing : [key].removeAll keys = [] := by simp [List.removeAll, known]
    rw [nothing, if_pos known, List.eraseDups_nil, List.append_nil]
  · have itself : [key].removeAll keys = [key] := by simp [List.removeAll, known]
    rw [itself, if_neg known, List.eraseDups_cons, List.filter_nil, List.eraseDups_nil]

theorem nodup_eraseDups (keys : List Text) : keys.eraseDups.Nodup := by
  induction keys using List.reverseRecOn with
  | nil => exact List.nodup_nil
  | append_singleton keys key ih =>
    rw [eraseDups_concat]
    split
    · exact ih
    · rename_i new
      apply List.nodup_append.mpr
      refine ⟨ih, List.nodup_singleton key, ?_⟩
      intro a old b here same
      obtain rfl := List.mem_singleton.mp here
      exact new (List.mem_eraseDups.mp (same ▸ old))

theorem setKey_map {keys : List Text} (distinct : keys.Nodup) (f : Text → Option Text)
    (key : Text) (value : Option Text) :
    setKey key value (keys.map fun other => (other, f other)) =
      (if key ∈ keys then keys else keys ++ [key]).map fun other =>
        (other, if other = key then value else f other) := by
  induction keys with
  | nil => simp [setKey, upsert]
  | cons first rest ih =>
    obtain ⟨new, later⟩ := List.nodup_cons.mp distinct
    by_cases here : first = key
    · subst here
      have others : rest.map (fun other => (other, if other = first then value else f other)) =
          rest.map fun other => (other, f other) := by
        apply List.map_congr_left
        intro other mem
        have differ : other ≠ first := fun same => new (same ▸ mem)
        rw [if_neg differ]
      simp [setKey, upsert, others]
    · have tail := ih later
      unfold setKey at tail
      by_cases known : key ∈ rest
      · simp [setKey, upsert, here, known, tail]
      · simp [setKey, upsert, here, Ne.symm here, known, tail]

theorem exists_lastValue? {entries : List (Text × Option Text)} {key : Text}
    (known : key ∈ spellings entries) :
    ∃ entry ∈ entries, entry.1 = key ∧ lastValue? entries key = entry.2 := by
  obtain ⟨first, mem, same⟩ := List.mem_map.mp (List.mem_eraseDups.mp known)
  have present : entries.filter (·.1 = key) ≠ [] :=
    List.ne_nil_of_mem (List.mem_filter.mpr ⟨mem, by simpa using same⟩)
  have last := List.getLast?_eq_some_getLast present
  obtain ⟨there, named⟩ := List.mem_filter.mp (List.getLast_mem present)
  exact ⟨_, there, by simpa using named, by rw [lastValue?, last, Option.bind_some]⟩

theorem lastValue?_of_getLast? {entries : List (Text × Option Text)} {p : Text → Prop}
    [DecidablePred p] {entry : Text × Option Text}
    (last : (entries.filter fun entry => p entry.1).getLast? = some entry) :
    lastValue? entries entry.1 = entry.2 := by
  rw [List.getLast?_filter, List.find?_eq_some_iff_append] at last
  obtain ⟨fits, later, earlier, cut, others⟩ := last
  have same : (entries.filter fun other => other.1 = entry.1).getLast? = some entry := by
    rw [List.getLast?_filter, List.find?_eq_some_iff_append]
    refine ⟨by simp, later, earlier, cut, ?_⟩
    intro other mem
    have differ : other.1 ≠ entry.1 := by
      intro same
      have unfit := others other mem
      rw [same] at unfit
      simp_all
    simpa using differ
  rw [lastValue?, same, Option.bind_some]

theorem lastValue?_concat (entries : List (Text × Option Text)) (entry : Text × Option Text)
    (key : Text) :
    lastValue? (entries ++ [entry]) key =
      if key = entry.1 then entry.2 else lastValue? entries key := by
  unfold lastValue?
  by_cases same : key = entry.1
  · simp [same]
  · simp [Ne.symm same, same]

/-- Each key is kept once, in the place where it came first and with the last of its values. -/
theorem foldl_setKey (entries : List (Text × Option Text)) :
    entries.foldl (fun kept entry => setKey entry.1 entry.2 kept) [] =
      (spellings entries).map fun key => (key, lastValue? entries key) := by
  -- Induction from the end: the last entry changes one value, or adds one key behind the others.
  induction entries using List.reverseRecOn with
  | nil => rfl
  | append_singleton entries entry ih =>
    have keys : spellings (entries ++ [entry]) =
        if entry.1 ∈ spellings entries then spellings entries
        else spellings entries ++ [entry.1] := by
      simp only [spellings, List.map_append, List.map_singleton, eraseDups_concat,
        List.mem_eraseDups]
    have distinct : (spellings entries).Nodup := nodup_eraseDups _
    rw [List.foldl_concat, ih, setKey_map distinct, keys]
    apply List.map_congr_left
    intro key _
    rw [lastValue?_concat]

private theorem collect_own {name : Text} {lines : List Text}
    (own : ∀ line ∈ lines, ∀ other, headerName? line = some other → other = name)
    (entries : List (Text × Option Text)) :
    collect [⟨name, entries⟩] name (lines.map Line.ofShown) =
      [⟨name, (lines.filterMap fun line => (Line.ofShown line).setting?).foldl
        (fun kept entry => setKey entry.1 entry.2 kept) entries⟩] := by
  induction lines generalizing entries with
  | nil => rfl
  | cons line rest ih =>
    obtain ⟨here, there⟩ := List.forall_mem_cons.mp own
    cases said : Line.ofShown line with
    | ignored => simpa [said, collect, Line.setting?] using ih there entries
    | header other =>
      have same : other = name := here other (by simp [headerName?, said, Line.header?])
      simpa [said, collect, Line.setting?, inSection, upsert, same] using ih there entries
    | entry key value =>
      simpa [said, collect, Line.setting?, inSection, upsert] using
        ih there (setKey key value entries)

theorem sections_linesOf_name (name : Text) (lines : List Text) :
    sections ((linesOf (· == name) false lines).map Line.ofShown) =
      if linesOf (· == name) false lines = [] then []
      else [⟨name, ((linesOf (· == name) false lines).filterMap fun line =>
        (Line.ofShown line).setting?).foldl (fun kept entry => setKey entry.1 entry.2 kept) []⟩] := by
  have own {line other : Text} (mem : line ∈ linesOf (· == name) false lines)
      (header : headerName? line = some other) : other = name := by
    have wanted := linesOf_headers mem header
    exact beq_iff_eq.mp wanted
  cases cut : linesOf (· == name) false lines with
  | nil => rfl
  | cons line rest =>
    rw [cut] at own
    obtain ⟨other, header⟩ := header_of_linesOf cut
    obtain rfl := own List.mem_cons_self header
    have begun : Line.ofShown line = .header other := by
      unfold headerName? at header
      cases said : Line.ofShown line <;> simp_all [Line.header?]
    have later : ∀ line ∈ rest, ∀ name, headerName? line = some name → name = other :=
      fun _ mem _ => own (List.mem_cons_of_mem _ mem)
    have inside := collect_own later []
    simpa [sections, collect, begun, inSection, upsert, Line.setting?] using inside

end KeyFile

namespace ConfigKey

/-- Whether a key of a section, in any case of its letters, names this list. -/
def Spells (key : ConfigKey) (spelling : Text) : Prop :=
  ConfigKey.ofText? (Text.lowercase spelling) = some key

instance (key : ConfigKey) (spelling : Text) : Decidable (key.Spells spelling) :=
  inferInstanceAs (Decidable (_ = _))

/-- The list that an entry gives, if its key names the list and its value is an option
string. -/
def given? (key : ConfigKey) (entry : Text × Option Text) : Option (List Text) :=
  if key.Spells entry.1 then
    entry.2.bind fun value => (OptionString.read value).toOption.map (·.map MountOption.text)
  else none

end ConfigKey

theorem ConfigKey.given?_eq_set? (key : ConfigKey) (spelling value : Text) :
    key.given? (spelling, some value) = key.set? (Text.lowercase spelling, value) := rfl

theorem TypeOptions.stated?_ofSection (s : KeyFile.Section) (key : ConfigKey) :
    stated? key.scope key.field (TypeOptions.ofSection s).value =
      (s.entries.filterMap key.given?).getLast? := by
  rw [value_ofSection_eq_ofEntries, stated?_ofEntries, KeyFile.Section.valued,
    List.filterMap_filterMap]
  congr 2
  funext entry
  obtain ⟨spelling, value⟩ := entry
  cases value with
  | none => exact (ite_self _).symm
  | some value => exact (key.given?_eq_set? spelling value).symm

namespace Store

theorem stated?_ofSections_singleton (s : KeyFile.Section) (named : s.name ≠ KeyFile.orphanName)
    (key : ConfigKey) :
    ((ofSections [s]).value.block? (.ofSection s.name)).bind
        (TypeOptions.stated? key.scope key.field) =
      (s.entries.filterMap key.given?).getLast? := by
  have block : (ofSections [s]).value.block? (.ofSection s.name) =
      some (TypeOptions.overriddenBy .empty (TypeOptions.ofSection s).value) := by
    rw [value_ofSections, List.foldl_cons, List.foldl_nil, value_addSection, if_neg named]
    simp [insert, empty, upsert, block?]
  have nothing : TypeOptions.stated? key.scope key.field .empty = none := rfl
  rw [block, Option.bind_some, TypeOptions.stated?_overriddenBy, TypeOptions.stated?_ofSection,
    nothing, Option.or_none]

theorem stated?_block {text : Text} {store : Store} (done : (ofText text).value = .ok store)
    {name : Text} (named : name ≠ KeyFile.orphanName) (key : ConfigKey) :
    (store.block? (.ofSection name)).bind (TypeOptions.stated? key.scope key.field) =
      (((KeyFile.entriesIn name text).foldl
        (fun kept entry => KeyFile.setKey entry.1 entry.2 kept) []).filterMap key.given?).getLast? := by
  obtain ⟨sections, read, rfl⟩ := sections_of_ofText done
  -- The store restricted to the one scope comes from the lines of the one section.
  let wanted (scope : DeviceScope) : Bool := scope == .ofSection name
  have own : wanted (.ofSection name) := beq_self_eq_true _
  have lines : (fun other => other != KeyFile.orphanName && wanted (.ofSection other)) =
      (· == name) := by
    funext other
    by_cases same : other = name
    · subst same
      simp [own, named]
    · have differ : DeviceScope.ofSection other ≠ .ofSection name :=
        mt DeviceScope.ofSection_injective same
      have unwanted : wanted (.ofSection other) = false := beq_eq_false_iff_ne.mpr differ
      simp [unwanted, same]
  rw [← block?_restrict _ own, restrict_of_read read, lines, KeyFile.sections_linesOf_name]
  unfold KeyFile.entriesIn
  split
  · rename_i nothing
    rw [nothing]
    rfl
  · exact stated?_ofSections_singleton ⟨name, _⟩ named key

end Store

/-- The list that a section states is that of the spelling which is new last, from the last
line with that spelling. If every line of the list has an option string for its value, that
is the last line of all as long as no older spelling comes back on it. -/
theorem stated?_of_newestSpelling {text : Text} {store : Store}
    (done : (Store.ofText text).value = .ok store) {name : Text}
    (named : name ≠ KeyFile.orphanName) (key : ConfigKey) :
    let entries := KeyFile.entriesIn name text
    let own := entries.filter fun entry => key.Spells entry.1
    let stated :=
      (store.block? (.ofSection name)).bind (TypeOptions.stated? key.scope key.field)
    stated = ((KeyFile.spellings entries).filterMap fun spelling =>
      key.given? (spelling, KeyFile.lastValue? entries spelling)).getLast? ∧
    ((∀ entry ∈ own, (key.given? entry).isSome) →
      ((KeyFile.spellings entries).filter key.Spells).getLast? = own.getLast?.map Prod.fst →
      stated = own.getLast?.bind key.given?) := by
  intro entries own stated
  have law : stated = ((KeyFile.spellings entries).filterMap fun spelling =>
      key.given? (spelling, KeyFile.lastValue? entries spelling)).getLast? := by
    have block := Store.stated?_block done named key
    rw [KeyFile.foldl_setKey, List.filterMap_map] at block
    exact block
  refine ⟨law, ?_⟩
  intro readable newest
  rw [law, getLast?_filterMap_eq_bind (p := fun spelling => key.Spells spelling), newest]
  · cases last : own.getLast? with
    | none => rfl
    | some entry =>
      have value := KeyFile.lastValue?_of_getLast? last
      rw [Option.map_some, Option.bind_some, Option.bind_some, value]
  · intro spelling _ other
    exact if_neg (by simpa using other)
  · intro spelling known spelled
    obtain ⟨entry, mem, rfl, value⟩ := KeyFile.exists_lastValue? known
    rw [value]
    exact readable entry (List.mem_filter.mpr ⟨mem, spelled⟩)

def anyAllow : ConfigKey := ⟨.any, .allow⟩

def allowStated (text : Text) : Option (List Text) :=
  (((Store.ofText text).value.toOption.getD .empty).block? (.ofSection anyMarker)).bind
    (TypeOptions.stated? .any .allow)

/-- Three lines for one list, the last of them in a new spelling. -/
def newSpelling : Text := "[defaults]\nallow=ro\nallow=sync\nDefaults_Allow=rw\n".toList

theorem stated?_of_newestSpelling_newSpelling :
    let entries := KeyFile.entriesIn anyMarker newSpelling
    let own := entries.filter fun entry => anyAllow.Spells entry.1
    (∀ entry ∈ own, (anyAllow.given? entry).isSome) ∧
      ((KeyFile.spellings entries).filter anyAllow.Spells).getLast? = own.getLast?.map Prod.fst ∧
      allowStated newSpelling = some ["rw".toList] := by
  intro entries own
  have read : (Store.ofText newSpelling).value =
      .ok ((Store.ofText newSpelling).value.toOption.getD .empty) := rfl
  have named : anyMarker ≠ KeyFile.orphanName := by decide
  have readable : ∀ entry ∈ own, (anyAllow.given? entry).isSome := by decide +kernel
  have newest : ((KeyFile.spellings entries).filter anyAllow.Spells).getLast? =
      own.getLast?.map Prod.fst := by decide +kernel
  have stated := (stated?_of_newestSpelling read named anyAllow).2 readable newest
  have last : own.getLast?.bind anyAllow.given? = some ["rw".toList] := by decide +kernel
  exact ⟨readable, newest, stated.trans last⟩

/-- Three lines for one list, the last of them in a spelling that came up before another. -/
def oldSpelling : Text := "[defaults]\nallow=ro\ndefaults_allow=rw\nallow=sync\n".toList

theorem allowStated_oldSpelling :
    KeyFile.entriesIn anyMarker oldSpelling =
        [("allow".toList, some "ro".toList), ("defaults_allow".toList, some "rw".toList),
          ("allow".toList, some "sync".toList)] ∧
      (∀ entry ∈ KeyFile.entriesIn anyMarker oldSpelling,
        anyAllow.Spells entry.1 ∧ (anyAllow.given? entry).isSome) ∧
      (KeyFile.entriesIn anyMarker oldSpelling).getLast?.bind anyAllow.given? =
        some ["sync".toList] ∧
      allowStated oldSpelling = some ["rw".toList] := by
  decide +kernel

end MountPolicy
