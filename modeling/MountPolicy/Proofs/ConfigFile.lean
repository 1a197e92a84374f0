import MountPolicy.Proofs.Answers

/-! The configuration file of a policy. A file enters the answers for a device only by the
blocks that it has for this device. Main statement: files that have the same blocks for a
device give the same answers there. -/
namespace MountPolicy

def Policy.withFile (policy : Policy) (file : ConfigFile) : Policy :=
  { policy with config := { policy.config with file := file } }

namespace ConfigFile

/-- The options that the file gives for the device, the lower ones first. -/
def blocksFor (device : Device) (file : ConfigFile) : List TypeOptions :=
  match file.text? with
  | .ok (some text) =>
    (Store.ofText text).value.toOption.toList.flatMap fun store =>
      Layer.storeBlocks store (some device)
  | _ => []

theorem blocksFor_of_read {file : ConfigFile} {text : Text}
    (found : file.text? = .ok (some text)) {sections : List KeyFile.Section}
    (done : KeyFile.read text = .ok sections) (device : Device) :
    file.blocksFor device =
      Layer.storeBlocks (Store.ofSections sections).value (some device) := by
  unfold blocksFor
  rw [found]
  dsimp only
  rw [Store.value_ofText, done]
  dsimp only
  split
  · rename_i empty
    have nothing : (Store.ofSections sections).value.blocks = [] := List.isEmpty_iff.mp empty
    simp [Layer.storeBlocks, Store.anyDevice?, Store.block?, Store.matching?, nothing,
      Except.toOption]
  · simp [Except.toOption]

def ofString (text : String) : ConfigFile := .content text.toUTF8

theorem fromUTF8?_toUTF8 (text : String) : String.fromUTF8? text.toUTF8 = some text := by
  have valid : text.toUTF8.IsValidUTF8 := text.isValidUTF8
  rw [String.fromUTF8?, dif_pos valid]
  rfl

theorem text?_ofString (text : String) :
    (ofString text).text? = .ok (some text.toList) := by
  rw [ofString, text?, fromUTF8?_toUTF8]

end ConfigFile

theorem effective_congr {first second : List Layer} {device : Option Device}
    {type : Option TypeScope}
    (same : first.flatMap (Layer.blocks device) = second.flatMap (Layer.blocks device)) :
    (resolution first device type).effective = (resolution second device type).effective := by
  unfold Resolution.effective
  rw [forType_resolution, forAny_resolution, forType_resolution, forAny_resolution, same]

namespace Policy

theorem flatMap_layers_withFile (policy : Policy) (file : ConfigFile) (device : Device)
    (hints : Option TypeOptions) :
    ((policy.withFile file).layers hints).flatMap (Layer.blocks (some device)) =
      Layer.storeBlocks policy.builtin (some device) ++
        (file.blocksFor device ++ hints.toList) := by
  have overrides : ((policy.withFile file).config.overrides.value.toList.map Layer.global).flatMap
      (Layer.blocks (some device)) = file.blocksFor device := by
    rw [ConfigDirectory.value_overrides, List.flatMap_map]
    change List.flatMap _ (Option.toList (match file.text? with
      | .ok (some text) => (Store.ofText text).value.toOption
      | _ => none)) = _
    unfold ConfigFile.blocksFor
    rcases file.text? with fault | _ | text
    · rfl
    · rfl
    · rfl
  have own : (hints.toList.map Layer.hints).flatMap (Layer.blocks (some device)) =
      hints.toList := by
    cases hints <;> rfl
  rw [layers, List.cons_append, List.flatMap_cons, List.flatMap_append, overrides, own]
  rfl

theorem value_mountString_congr {first second : Policy} {device : Device}
    {typeName : Option Text} (same : first.rules device typeName = second.rules device typeName)
    (caller : UInt32) (callerOptions : Option Text) :
    (first.mountString device caller typeName callerOptions).value =
      (second.mountString device caller typeName callerOptions).value := by
  rw [value_mountString, value_mountString, requested, requested, same]

theorem answers_withFile_congr (policy : Policy) {device : Device} {first second : ConfigFile}
    (same : first.blocksFor device = second.blocksFor device) (typeName : Option Text) :
    ((policy.withFile first).effective device typeName).value =
        ((policy.withFile second).effective device typeName).value ∧
      ∀ caller callerOptions,
        ((policy.withFile first).mountString device caller typeName callerOptions).value =
          ((policy.withFile second).mountString device caller typeName callerOptions).value := by
  have sets : ((policy.withFile first).effective device typeName).value =
      ((policy.withFile second).effective device typeName).value := by
    rw [value_effective, value_effective, value_layered, value_layered]
    apply effective_congr
    rw [flatMap_layers_withFile, flatMap_layers_withFile, same]
  refine ⟨sets, ?_⟩
  intro caller callerOptions
  apply value_mountString_congr
  unfold rules
  rw [sets]
  rfl

end Policy
end MountPolicy
