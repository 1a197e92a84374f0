import MountPolicy.Device

/-! The files that paths lead to, and the database records of the block devices
among them. -/
namespace MountPolicy

/-- What a path leads to. A block device has a record if the device database
knows it. -/
inductive Node where
  | directory
  | blockDevice (record : Option Text)
  | other
deriving DecidableEq

/-- The files of a system, each by the names on the way to it from the root, and
the directory where a path starts that does not start at the root. -/
structure FileTree where
  files : List (List Text × Node)
  current : List Text := []

inductive DeviceError where
  | notFound (detail : Text)
  | invalidLine (line : Text)
  | notDirectory
  | nameTooLong
  | nulInPath
deriving DecidableEq

namespace DeviceError

def systemDetail? : DeviceError → Option Text
  | notDirectory => some "Not a directory (os error 20)".toList
  | nameTooLong => some "File name too long (os error 36)".toList
  | nulInPath => some "file name contained an unexpected NUL byte".toList
  | notFound _ | invalidLine _ => none

def message : DeviceError → Text
  | notFound detail => "Device not found: ".toList ++ detail
  | invalidLine line => "invalid udev database line: ".toList ++ line
  | error => "I/O error: ".toList ++ error.systemDetail?.getD []

end DeviceError

/-- The file that a path leads to, by its place. Only a block device has a record, and only if
the device database knows it. -/
structure DeviceFile where
  place : Text
  record : Option (Option Text)

def DeviceFile.read (file : DeviceFile) : Except DeviceError DeviceRecord :=
  match file.record with
  | none => .error (.notFound (file.place ++ " is not a block device".toList))
  | some none => .error (.notFound ("no udev record for ".toList ++ file.place))
  | some (some content) => (DeviceRecord.ofText file.place content).mapError .invalidLine

namespace FileTree

def minimal : FileTree where
  files :=
    [(["dev".toList], .directory), (["dev".toList, "null".toList], .other),
     (["dev".toList, "zero".toList], .other), (["tmp".toList], .directory)]
  current := ["tmp".toList]

def node? (tree : FileTree) (place : List Text) : Option Node :=
  if place = [] then some .directory else tree.files.lookup place

inductive Obstacle where
  | missing
  | notDirectory
  | nameTooLong
deriving DecidableEq

def pathText (place : List Text) : Text :=
  if place = [] then ['/'] else place.flatMap ('/' :: ·)

def nameLimit : Nat := 255

/-- Files whose path from the root has this many bytes or more are not looked up. -/
def pathLimit : Nat := 4096

def stays (name : Text) : Bool := name == [] || name == ['.']

def goesUp (name : Text) : Bool := name == ['.', '.']

/-- Whether the names after a file can only follow a directory: they go up from
it, or all of them stay there. -/
def needsDirectory (names : List Text) : Bool :=
  match names.dropWhile stays with
  | [] => !names.isEmpty
  | name :: _ => goesUp name

/-- The place of a name in a directory. It is looked up with a slash at its end
if it has to be a directory itself. -/
def enter (tree : FileTree) (place : List Text) (name : Text) (asDirectory : Bool) :
    Except Obstacle (List Text) :=
  let inside := place ++ [name]
  let size := (pathText inside).byteSize + if asDirectory then 1 else 0
  if pathLimit ≤ size then .error .nameTooLong
  else if tree.node? place ≠ some .directory then .error .notDirectory
  else if nameLimit < name.byteSize then .error .nameTooLong
  else
    match tree.node? inside with
    | none => .error .missing
    | some node =>
      if asDirectory ∧ node ≠ .directory then .error .notDirectory else .ok inside

def follow (tree : FileTree) : List Text → List Text → Except Obstacle (List Text)
  | place, [] => .ok place
  | place, name :: rest =>
    if stays name then tree.follow place rest
    else if goesUp name then tree.follow place.dropLast rest
    else
      match tree.enter place name (needsDirectory rest) with
      | .error obstacle => .error obstacle
      | .ok inside => tree.follow inside rest

def resolve (tree : FileTree) : Text → Except Obstacle (List Text)
  | [] => .error .missing
  | '/' :: path => tree.follow [] (path.splitOn '/')
  | path => tree.follow tree.current (path.splitOn '/')

def deviceFile (tree : FileTree) (place : List Text) : DeviceFile where
  place := pathText place
  record :=
    match tree.node? place with
    | some (.blockDevice record) => some record
    | _ => none

def find (tree : FileTree) (path : Text) : Except DeviceError DeviceFile :=
  if '\x00' ∈ path then .error .nulInPath
  else
    match tree.resolve path with
    | .error .missing => .error (.notFound path)
    | .error .notDirectory => .error .notDirectory
    | .error .nameTooLong => .error .nameTooLong
    | .ok place => .ok (tree.deviceFile place)

def record (tree : FileTree) (path : Text) : Except DeviceError DeviceRecord := do
  (← tree.find path).read

end FileTree

/-- Why a path leads to no record: what is known of the device, or what the system says. -/
inductive RecordFault where
  | device (error : DeviceError)
  | system (fault : FileFault)
deriving DecidableEq

def RecordFault.causes : RecordFault → List Text
  | .device error => error.message :: error.systemDetail?.toList
  | .system fault => ["I/O error: ".toList ++ fault.message, fault.message]

/-- Answers which file a path leads to; a look-up may fail. -/
structure DeviceDirectory where
  find : Text → Except RecordFault DeviceFile

namespace DeviceDirectory

def ofTree (tree : FileTree) : DeviceDirectory := ⟨fun path => (tree.find path).mapError .device⟩

def minimal : DeviceDirectory := ofTree .minimal

def record (devices : DeviceDirectory) (path : Text) : Except RecordFault DeviceRecord := do
  (← devices.find path).read.mapError .device

theorem record_ofTree (tree : FileTree) (path : Text) :
    (ofTree tree).record path = (tree.record path).mapError .device := by
  unfold record FileTree.record ofTree
  dsimp only
  cases tree.find path with
  | error error => rfl
  | ok file => rfl

end DeviceDirectory

end MountPolicy
