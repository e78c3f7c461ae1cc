import Protobuf.CommandLine.Program

/-! # Running in a directory held in memory

Files by path within a directory. A file can be written where its directory is there, that is,
where it is the directory itself or holds another file. Of what lies outside of the directory, only
devices are known: the null device, which is empty and takes whatever is written to it, and the
streams of the program, of which the input is the null device. -/

namespace Protobuf.CommandLine

/-- The files of a directory and of those inside it, each under its path. -/
abbrev Directory := Table String (List UInt8)

namespace Directory

/-- The parts of a path. -/
def parts (path : String) : List String :=
  (Name.splitOn '/' path.toList).map String.ofList

/-- Whether some parts lead to a directory. -/
def hasFolder (directory : Directory) (folder : List String) : Bool :=
  folder.isEmpty ||
    directory.keys.any fun path =>
      folder.isPrefixOf (parts path) && folder.length < (parts path).length

/-- The most bytes a part of a path takes. -/
def maxPartBytes : Nat := 255

/-- The most bytes a path takes. -/
def maxPathBytes : Nat := 4095

/-- Where the parts of a path lead from a place. Every part is looked for in a directory that is
there; one dot means that directory, and two the one around it. -/
def follow? (directory : Directory) (place : List String) : List String → Option (List String)
  | [] => some place
  | part :: rest =>
    if !directory.hasFolder place || maxPartBytes < part.utf8ByteSize then none
    else if part = "" || part = "." then directory.follow? place rest
    else if part = ".." then if place.isEmpty then none else directory.follow? place.dropLast rest
    else directory.follow? (place ++ [part]) rest

/-- The path under which a file is kept, if its folder is there and it is no folder itself. A path
that starts at the root leads out of the directory. -/
def locate? (directory : Directory) (path : String) : Option String :=
  if maxPathBytes < path.utf8ByteSize || (parts path).head? = some "" then none
  else
    match directory.follow? [] (parts path) with
    | some place => if directory.hasFolder place then none else some ("/".intercalate place)
    | none => none

/-- The bytes of a file. -/
def read (directory : Directory) (path : String) : Option (List UInt8) :=
  (directory.locate? path).bind directory.get?

/-- The directory with a file written. -/
def write (directory : Directory) (path text : String) : Option Directory :=
  (directory.locate? path).map fun path => directory.insert path (Text.Utf8.encode text)

end Directory

/-- What stands for a file outside of the directory. -/
inductive Device
  | null
  | output
  | errors
deriving DecidableEq, Repr

/-- The device at a path from the root. -/
def Device.at? (path : String) : Option Device :=
  match Directory.parts path with
  | "" :: rest =>
    match rest.getLast?, rest.filter fun part => part ≠ "" && part ≠ "." with
    | some "null", ["dev", "null"] => some .null
    | some "stdin", ["dev", "stdin"] => some .null
    | some "stdout", ["dev", "stdout"] => some .output
    | some "stderr", ["dev", "stderr"] => some .errors
    | _, _ => none
  | _ => none

/-- The end of a run that wrote a text to a device in front of all else. -/
def Outcome.after (outcome : Outcome) (text : String) : Device → Outcome
  | .null => outcome
  | .output => { outcome with output := text ++ outcome.output }
  | .errors => { outcome with errors := text ++ outcome.errors }

/-- Run to the end in a directory. -/
def Run.inDirectory (directory : Directory) : Run → Outcome × Directory
  | .finish outcome => (outcome, directory)
  | .read path next =>
    let data := if Device.at? path = some .null then some [] else directory.read path
    (next data).inDirectory directory
  | .write path text next =>
    match Device.at? path, directory.write path text with
    | some device, _ =>
      let (outcome, directory) := (next true).inDirectory directory
      (outcome.after text device, directory)
    | none, some directory => (next true).inDirectory directory
    | none, none => (next false).inDirectory directory

end Protobuf.CommandLine
