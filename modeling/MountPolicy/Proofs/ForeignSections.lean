import MountPolicy.Proofs.ConfigFile
import MountPolicy.Proofs.SectionBlocks

/-! What a configuration file says to a device. The lines that count for a device are those
of the sections for every device and of the sections with its node or one of its links for
a name. Main statement: files that agree on these lines give the device the same answers,
whatever they say in front of the first section and about other devices. -/
namespace MountPolicy

namespace Device

def owns (device : Device) (name : Text) : Bool :=
  name == anyMarker || name == device.path || device.links.contains name

/-- The lines of a text in the sections for the device, headers and comments included. -/
def ownLines (device : Device) (text : Text) : List Text :=
  KeyFile.linesOf device.owns false (KeyFile.shownLines text)

def ownScope (device : Device) (scope : DeviceScope) : Bool :=
  scope == .any || scope.names device.path device.links

theorem ownScope_ofSection (device : Device) (name : Text) :
    device.ownScope (.ofSection name) = device.owns name := by
  unfold ownScope owns DeviceScope.ofSection
  by_cases any : name = anyMarker
  · simp [any]
  · have named : (DeviceScope.named name == DeviceScope.any) = false :=
      beq_eq_false_iff_ne.mpr DeviceScope.noConfusion
    have other : (name == anyMarker) = false := beq_eq_false_iff_ne.mpr any
    simp [any, named, other, DeviceScope.names]

end Device

theorem Layer.storeBlocks_restrict (store : Store) (device : Device) :
    storeBlocks (store.restrict device.ownScope) (some device) =
      storeBlocks store (some device) := by
  have any : device.ownScope .any := rfl
  have named : ∀ scope : DeviceScope, scope.names device.path device.links →
      device.ownScope scope := by
    intro scope fits
    simp [Device.ownScope, fits]
  unfold storeBlocks Store.anyDevice?
  rw [Store.block?_restrict store any, Option.bind_some, Option.bind_some,
    Store.matching?_restrict store named]

theorem Device.storeBlocks_of_read {device : Device} {text : Text}
    {sections : List KeyFile.Section} (done : KeyFile.read text = .ok sections) :
    Layer.storeBlocks (Store.ofSections sections).value (some device) =
      Layer.storeBlocks (Store.ofSections (KeyFile.sections
        ((KeyFile.linesOf (· != KeyFile.orphanName) false (device.ownLines text)).map
          KeyFile.Line.ofShown))).value (some device) := by
  rw [← Layer.storeBlocks_restrict, Store.restrict_of_read done]
  unfold Device.ownLines
  rw [KeyFile.linesOf_linesOf]
  simp only [Device.ownScope_ofSection, Bool.and_false]

theorem Store.exists_sections {text : Text}
    (readable : ∀ fault, (ofText text).value ≠ .error (.config fault)) :
    ∃ sections, KeyFile.read text = .ok sections := by
  cases read : KeyFile.read text with
  | ok sections => exact ⟨sections, rfl⟩
  | error fault =>
    have refused : (ofText text).value = .error (.config (.unreadable fault)) := by
      rw [value_ofText, read]
    exact absurd refused (readable _)

/-- A device is told apart from others by its own lines of a configuration file: two files
that agree on these, and can both be read, give the same set in force and the same answer
to every request. Blank lines and blanks around a line make no difference. -/
theorem Policy.answers_eq_of_ownLines (policy : Policy) {device : Device} {first second : String}
    (firstRead : ∀ fault, (Store.ofText first.toList).value ≠ .error (.config fault))
    (secondRead : ∀ fault, (Store.ofText second.toList).value ≠ .error (.config fault))
    (same : device.ownLines first.toList = device.ownLines second.toList)
    (typeName : Option Text) :
    ((policy.withFile (.ofString first)).effective device typeName).value =
        ((policy.withFile (.ofString second)).effective device typeName).value ∧
      ∀ caller callerOptions,
        ((policy.withFile (.ofString first)).mountString device caller typeName
            callerOptions).value =
          ((policy.withFile (.ofString second)).mountString device caller typeName
            callerOptions).value := by
  obtain ⟨firstSections, firstDone⟩ := Store.exists_sections firstRead
  obtain ⟨secondSections, secondDone⟩ := Store.exists_sections secondRead
  apply answers_withFile_congr
  rw [ConfigFile.blocksFor_of_read (ConfigFile.text?_ofString first) firstDone,
    ConfigFile.blocksFor_of_read (ConfigFile.text?_ofString second) secondDone,
    Device.storeBlocks_of_read firstDone, Device.storeBlocks_of_read secondDone, same]

def labelledDevice : Device :=
  ⟨"/dev/sdb1".toList, ["/dev/disk/by-label/A".toList], some .empty⟩

/-- Keys without a section, a section of another device that comes twice, and lines in it
that are no entries. -/
def crowdedText : String :=
  "allow=dev\n[/dev/sdc1]\nallow=suid\nnonsense\n[defaults]\nallow=ro\n[/dev/sdc1]\n" ++
  "allow=\"\n[/dev/disk/by-label/A]\ndefaults=sync\n"

def plainText : String :=
  "[defaults]\n allow=ro\n\n[default]\nallow=dev\n[/dev/disk/by-label/A]\ndefaults=sync"

def emptyPolicy : Policy := ⟨.empty, ⟨[], .missing⟩, .superuserOnly⟩

theorem Policy.answers_eq_of_ownLines_labelled :
    labelledDevice.ownLines crowdedText.toList = labelledDevice.ownLines plainText.toList ∧
      crowdedText ≠ plainText ∧
      ((emptyPolicy.withFile (.ofString plainText)).effective labelledDevice none).value =
        { defaults := some ["sync".toList], allow := some ["ro".toList] } ∧
      ((emptyPolicy.withFile (.ofString crowdedText)).effective labelledDevice none).value =
        { defaults := some ["sync".toList], allow := some ["ro".toList] } := by
  have readable {text : String} (read : (Store.ofText text.toList).value.toOption.isSome) :
      ∀ fault, (Store.ofText text.toList).value ≠ .error (.config fault) := by
    intro fault refused
    simp [refused, Except.toOption] at read
  have crowded : ∀ fault, (Store.ofText crowdedText.toList).value ≠ .error (.config fault) :=
    readable (by decide +kernel)
  have plain : ∀ fault, (Store.ofText plainText.toList).value ≠ .error (.config fault) :=
    readable (by decide +kernel)
  have same : labelledDevice.ownLines crowdedText.toList =
      labelledDevice.ownLines plainText.toList := by decide +kernel
  have set : ((emptyPolicy.withFile (.ofString plainText)).effective labelledDevice none).value =
      { defaults := some ["sync".toList], allow := some ["ro".toList] } := by decide +kernel
  have equal := (answers_eq_of_ownLines emptyPolicy crowded plain same none).1
  exact ⟨same, by decide +kernel, set, equal.trans set⟩

end MountPolicy
