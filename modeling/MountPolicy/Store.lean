import MountPolicy.TypeOptions

/-! Configuration by device and filesystem type. A store has one block per
device scope, in the order in which the scopes first appeared; each block has one
option set per type. Stores are read from configuration texts, one section for each
device; keys in front of the first section are reported and have no effect. The policy
that is built in is the lowest layer of every request. It has to be readable and has to
say something about every device and every type. -/
namespace MountPolicy

/-- Every device, or the device with this node or link. Names are compared as they are. -/
inductive DeviceScope where
  | any
  | named (name : Text)
deriving DecidableEq

def DeviceScope.ofSection (name : Text) : DeviceScope :=
  if name = anyMarker then .any else .named name

def DeviceScope.names (path : Text) (links : List Text) : DeviceScope → Bool
  | .any => false
  | .named name => name == path || links.contains name

structure Block where
  scope : DeviceScope
  options : TypeOptions
deriving DecidableEq

structure Store where
  blocks : List Block
deriving DecidableEq

namespace Store

def empty : Store := ⟨[]⟩

def insert (store : Store) (scope : DeviceScope) (options : TypeOptions) : Store :=
  ⟨upsert (fun block => block.scope == scope) ⟨scope, .empty⟩
    (fun block => { block with options := TypeOptions.overriddenBy block.options options })
    store.blocks⟩

def block? (store : Store) (scope : DeviceScope) : Option TypeOptions :=
  (store.blocks.find? fun block => block.scope = scope).map Block.options

def anyDevice? (store : Store) : Option TypeOptions := store.block? .any

/-- The first block that names the device by its node or by one of its links. -/
def matching? (store : Store) (path : Text) (links : List Text) : Option TypeOptions :=
  (store.blocks.find? fun block => block.scope.names path links).map Block.options

def isEmpty (store : Store) : Bool := store.blocks.isEmpty

end Store

open Logged

def TypeOptions.ofSection (s : KeyFile.Section) : Logged TypeOptions :=
  s.entries.foldlM (fun options (key, value) =>
    let key := Text.lowercase key
    match value with
    | some value => TypeOptions.applyEntry options key value
    | none => do
      report (.missingValue key s.name)
      return options) .empty

namespace Store

def addSection (store : Store) (s : KeyFile.Section) : Logged Store :=
  if s.name = KeyFile.orphanName then do
    if s.entries ≠ [] then report (.orphanKeys s.entries.length)
    return store
  else do
    let options ← TypeOptions.ofSection s
    return store.insert (DeviceScope.ofSection s.name) options

def ofSections (sections : List KeyFile.Section) : Logged Store :=
  sections.foldlM addSection .empty

/-- Reads a configuration text. A text without a section is refused too. -/
def ofText (text : Text) : Logged (Except MountError Store) :=
  match KeyFile.read text with
  | .error fault => return .error (.config (.unreadable fault))
  | .ok sections => do
    let store ← ofSections sections
    return if store.isEmpty then .error .noSections else .ok store

end Store

def builtinLines : List String :=
  [
    "# Built-in mount option policy.",
    "#",
    "# Lowest precedence layer; mount_options.conf in the configuration",
    "# directory and UDISKS_MOUNT_OPTIONS_* udev properties override it",
    "# field by field.",
    "",
    "[defaults]",
    "defaults=",
    "allow=exec,noexec,nodev,nosuid,atime,noatime,nodiratime,relatime,strictatime,lazytime,ro,rw,sync,dirsync,noload,acl,nosymfollow",
    "",
    "# Filesystems supported by the kernel",
    "vfat_defaults=uid=$UID,gid=$GID,shortname=mixed,utf8=1,showexec,flush",
    "vfat_allow=flush,utf8,shortname,umask,dmask,fmask,codepage,iocharset,usefree,showexec",
    "vfat_allow_uid_self=uid",
    "vfat_allow_gid_self=gid",
    "",
    "exfat_defaults=uid=$UID,gid=$GID,iocharset=utf8,errors=remount-ro",
    "exfat_allow=dmask,errors,fmask,iocharset,namecase,umask",
    "exfat_allow_uid_self=uid",
    "exfat_allow_gid_self=gid",
    "",
    "ntfs3_defaults=uid=$UID,gid=$GID,windows_names",
    "ntfs3_allow=umask,dmask,fmask,iocharset,discard,nodiscard,sparse,nosparse,hidden,nohidden,sys_immutable,nosys_immutable,showmeta,noshowmeta,prealloc,noprealloc,hide_dot_files,nohide_dot_files,windows_names,nocase,case",
    "ntfs3_allow_uid_self=uid",
    "ntfs3_allow_gid_self=gid",
    "",
    "iso9660_defaults=uid=$UID,gid=$GID,iocharset=utf8,mode=0400,dmode=0500",
    "iso9660_allow=norock,nojoliet,iocharset,mode,dmode",
    "iso9660_allow_uid_self=uid",
    "iso9660_allow_gid_self=gid",
    "",
    "udf_defaults=uid=$UID,gid=$GID,iocharset=utf8",
    "udf_allow=iocharset,umask,mode,dmode",
    "udf_allow_uid_self=uid",
    "udf_allow_gid_self=gid",
    "",
    "hfsplus_allow=creator,type,umask,session,part,decompose,nodecompose,force",
    "hfsplus_allow_uid_self=uid",
    "hfsplus_allow_gid_self=gid",
    "",
    "btrfs_allow=compress,compress-force,datacow,nodatacow,datasum,nodatasum,autodefrag,noautodefrag,degraded,device,discard,nodiscard,subvol,subvolid,space_cache",
    "",
    "f2fs_allow=discard,nodiscard,compress_algorithm,compress_log_size,compress_extension,alloc_mode",
    "",
    "xfs_allow=discard,nodiscard,inode32,largeio,wsync",
    "",
    "reiserfs_allow=hashed_relocation,no_unhashed_relocation,noborder,notail",
    "",
    "# Filesystems handled by userspace drivers",
    "ntfs_defaults=uid=$UID,gid=$GID,windows_names",
    "ntfs_allow=umask,dmask,fmask,locale,norecover,ignore_case,windows_names,compression,nocompression,big_writes,nls,nohidden,sys_immutable,nosys_immutable,showmeta,noshowmeta,prealloc,noprealloc,hide_dot_files,nohide_dot_files",
    "ntfs_allow_uid_self=uid",
    "ntfs_allow_gid_self=gid"
  ]

def builtinText : Text := builtinLines.flatMap fun line => line.toList ++ ['\n']

namespace Store

def ofPolicyText (text : Text) : Logged (Except MountError Store) := do
  match ← ofText text with
  | .error (.config fault) =>
    report (.builtinRefused fault)
    return .error (.config fault)
  | .error _ =>
    report (.builtinRefused .policyWithoutSections)
    return .error (.config .policyWithoutSections)
  | .ok store =>
    if store.anyDevice?.any fun options => options.contains .any then return .ok store
    else
      report (.builtinRefused .policyWithoutDefaults)
      return .error (.config .policyWithoutDefaults)

def builtin : Logged (Except MountError Store) := ofPolicyText builtinText

end Store

end MountPolicy
