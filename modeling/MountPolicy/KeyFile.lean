import MountPolicy.Tables

/-! Key files: sections of keys, each key with or without a value.

A line in brackets opens a section, or continues it if the name came before.
Every other line is a key, up to the first equals sign, and its value. Lines
that begin with `#` or `;` are comments, and nothing else starts one. Sections
and keys keep the place of their first appearance; a key that is given again in
its section takes the new value. -/
namespace MountPolicy.KeyFile

structure Section where
  name : Text
  entries : List (Text × Option Text)
deriving DecidableEq

/-- Holds the keys in front of the first section line. -/
def orphanName : Text := "default".toList

inductive Line where
  | ignored
  | header (name : Text)
  | entry (key : Text) (value : Option Text)
deriving DecidableEq

/-- What is wrong with a line: a bracket that is not closed, or an equals sign
without a key in front. -/
inductive LineFault where
  | unclosedHeader
  | emptyKey
deriving DecidableEq

structure Fault where
  line : Nat
  cause : LineFault
deriving DecidableEq

namespace Line

def splitEntry (line : Text) : Text × Option Text :=
  match Text.splitFirst? '=' line with
  | some (key, value) => (Text.trim key, some (Text.trim value))
  | none => (Text.trim line, none)

def ofTrimmed : Text → Except LineFault Line
  | [] => .ok .ignored
  | '#' :: _ => .ok .ignored
  | ';' :: _ => .ok .ignored
  | '[' :: rest =>
    match Text.beforeLast? ']' rest with
    | some name => .ok (.header (Text.trim name))
    | none => .error .unclosedHeader
  | line =>
    let (key, value) := splitEntry line
    if key = [] then .error .emptyKey else .ok (.entry key value)

def ofText (line : Text) : Except LineFault Line := ofTrimmed (Text.trim line)

end Line

def readLines : Nat → List Text → Except Fault (List Line)
  | _, [] => .ok []
  | number, text :: rest =>
    match Line.ofText text with
    | .error cause => .error ⟨number, cause⟩
    | .ok line => (readLines (number + 1) rest).map (line :: ·)

/-- Sets a key at the place where it first appeared, or as the last one. -/
def setKey (key : Text) (value : Option Text) (entries : List (Text × Option Text)) :
    List (Text × Option Text) :=
  upsert (fun entry => entry.1 == key) (key, value) (fun entry => (entry.1, value)) entries

def inSection (name : Text) (change : Section → Section) (sections : List Section) :
    List Section :=
  upsert (fun s => s.name == name) ⟨name, []⟩ change sections

/-- Adds the lines to sections that were begun, in the section of the given name at first. -/
def collect : List Section → Text → List Line → List Section
  | sections, _, [] => sections
  | sections, current, .ignored :: rest => collect sections current rest
  | sections, _, .header name :: rest => collect (inSection name id sections) name rest
  | sections, current, .entry key value :: rest =>
    collect (inSection current (fun s => { s with entries := setKey key value s.entries }) sections)
      current rest

def sections (lines : List Line) : List Section := collect [] orphanName lines

def read (text : Text) : Except Fault (List Section) :=
  (readLines 1 (Text.lines text)).map sections

end MountPolicy.KeyFile
