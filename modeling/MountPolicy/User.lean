import MountPolicy.Reports

/-! Users and the groups that they are in. A request asks a directory of users; a system
keeps one in two tables, of accounts and of groups, with one entry in each line. -/
namespace MountPolicy

open Logged

structure UserInfo where
  primaryGid : UInt32
  name : Text
deriving DecidableEq

/-- Answers who a user is, and which groups a user name with a primary group is
in; each look-up may fail. -/
structure UserDirectory where
  userInfo : UInt32 → Logged (Option UserInfo)
  groups : Text → UInt32 → Logged (Option (List UInt32))

/-- One user of a table. `groups` is absent if they cannot be looked up. -/
structure UserEntry where
  uid : UInt32
  name : Text
  gid : UInt32
  groups : Option (List UInt32)

namespace UserDirectory

def ofEntries (entries : List UserEntry) : UserDirectory where
  userInfo uid := return (entries.find? fun e => e.uid == uid).map fun e => ⟨e.gid, e.name⟩
  groups name _ := return (entries.find? fun e => e.name == name).bind UserEntry.groups

/-- Whether the user is in the group, which may be the primary one. A user or a
group list that cannot be looked up is in no group. -/
def isMember (users : UserDirectory) (uid gid : UInt32) : Logged Bool := do
  match ← users.userInfo uid with
  | none =>
    report (.unknownCaller uid)
    return false
  | some user =>
    if user.primaryGid = gid then return true
    else return ((← users.groups user.name user.primaryGid).getD []).contains gid

end UserDirectory

/-- An entry in the table of accounts. The name is absent if its bytes are no text. -/
structure Account where
  name : Option Text
  uid : UInt32
  gid : UInt32

structure Group where
  gid : UInt32
  members : List Text

structure AccountTables where
  accounts : List Account
  groups : List Group := []

def tableFields (table : ByteArray) : List (List (List UInt8)) :=
  ((table.toList.splitOn '\n'.toUInt8).filter (·.head? ≠ some '#'.toUInt8)).map
    (List.splitOn ':'.toUInt8)

def textOfField? (field : List UInt8) : Option Text :=
  (String.fromUTF8? ⟨field.toArray⟩).map String.toList

def idOfField? (field : List UInt8) : Option UInt32 := (textOfField? field).bind Text.toId?

def Account.ofFields? : List (List UInt8) → Option Account
  | name :: _ :: uid :: gid :: _ => do
    return ⟨textOfField? name, ← idOfField? uid, ← idOfField? gid⟩
  | _ => none

def Group.ofFields? : List (List UInt8) → Option Group
  | [_, _, gid, members] => do
    return ⟨← idOfField? gid, (members.splitOn ','.toUInt8).filterMap textOfField?⟩
  | _ => none

namespace AccountTables

/-- Reads both tables. Lines that are no entry have no meaning. -/
def ofBytes (accounts groups : ByteArray) : AccountTables :=
  ⟨(tableFields accounts).filterMap Account.ofFields?,
    (tableFields groups).filterMap Group.ofFields?⟩

def userInfo (tables : AccountTables) (uid : UInt32) : Logged (Option UserInfo) :=
  match tables.accounts.find? fun account => account.uid == uid with
  | none => do
    report (.noAccount uid)
    return none
  | some ⟨none, _, _⟩ => do
    report (.userNameNotUtf8 uid)
    return none
  | some ⟨some name, _, gid⟩ => return some ⟨gid, name⟩

/-- The primary group, and after it the others that the user is a member of. -/
def groupsOf (tables : AccountTables) (name : Text) (primary : UInt32) : List UInt32 :=
  primary :: (tables.groups.filter fun group =>
    group.gid != primary && group.members.contains name).map Group.gid

/-- A user in more groups counts as one whose groups cannot be looked up. -/
def groupBound : Nat := 128

def groupsFor (tables : AccountTables) (name : Text) (primary : UInt32) :
    Logged (Option (List UInt32)) :=
  if '\x00' ∈ name then do
    report (.nulInUserName name)
    return none
  else if groupBound < (tables.groupsOf name primary).length then do
    report (.groupsNotFound name groupBound)
    return none
  else return some (tables.groupsOf name primary)

def directory (tables : AccountTables) : UserDirectory := ⟨tables.userInfo, tables.groupsFor⟩

end AccountTables

def UserDirectory.superuserOnly : UserDirectory :=
  AccountTables.directory { accounts := [⟨some "root".toList, 0, 0⟩] }

end MountPolicy
