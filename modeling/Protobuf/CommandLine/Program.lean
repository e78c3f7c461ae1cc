import Protobuf.Codec.Document
import Protobuf.Codec.Render
import Protobuf.CommandLine.Help
import Protobuf.Compile
import Protobuf.Emission.Module

/-! # The program

What the program does for a command line, as a tree of the files it asks for. Whoever runs the
program answers each question about a file; everything else is decided here. -/

namespace Protobuf.CommandLine

/-- How a run ends. -/
structure Outcome where
  code : Nat
  output : String := ""
  errors : String := ""
deriving DecidableEq, Repr

/-- A run that may still ask for files. -/
inductive Run
  | finish (outcome : Outcome)
  /-- Read a file; it may be missing. -/
  | read (path : String) (next : Option (List UInt8) → Run)
  /-- Write a file; this may fail. -/
  | write (path text : String) (next : Bool → Run)

namespace Run

/-- End because something went wrong. -/
def fail (message : String) : Run :=
  .finish { code := 1, errors := "Error: " ++ message ++ "\n" }

/-- End with a line on the output. -/
def print (line : String) : Run :=
  .finish { code := 0, output := line ++ "\n" }

/-- Read a file that holds a text. -/
def readText (path : String) (next : String → Run) : Run :=
  .read path fun data =>
    match data.bind Text.Utf8.decode? with
    | some text => next text
    | none => fail ("cannot read " ++ path)

/-- Write a text to a file, or print it. -/
def deliver (path : Option String) (text : String) : Run :=
  match path with
  | none => print text
  | some path =>
    .write path text fun written =>
      if written then .finish { code := 0 } else fail ("cannot write " ++ path)

end Run

/-- The words for a JSON text that is not taken. -/
def faultMessage : Json.Fault → String
  | .ended => "unexpected end of JSON"
  | .malformed => "malformed JSON"
  | .mismatch cause => cause.message

/-- The words for a text that is no valid schema. -/
def compileMessage : CompileError → String
  | .json fault => faultMessage fault
  | .unsupportedType error => error.message
  | .invalid violations => Violation.describeAll violations

/-- Find out the configuration that an invocation asks for. -/
def withConfig (invocation : Invocation) (next : Config → Run) : Run :=
  let limited (config : Config) : Config :=
    match (invocation.value? .maxMessageSize).bind size? with
    | some size => ⟨{ config.limits with maxMessageSize := size }⟩
    | none => config
  match invocation.value? .config with
  | none => next (limited {})
  | some path =>
    Run.readText path fun text =>
      match Config.ofJson text with
      | .ok config => next (limited config)
      | .error fault => Run.fail (faultMessage fault)

/-- Compile a schema that stands in a file. -/
def withSchema (path : String) (config : Config) (next : Compiled → Run) : Run :=
  Run.readText path fun text =>
    match compile text config with
    | .ok compiled => next compiled
    | .error error => Run.fail (compileMessage error)

/-- Say whether the schema in a file is valid. -/
def runCheck (path : String) (config : Config) : Run :=
  Run.readText path fun text =>
    match compile text config with
    | .ok compiled =>
      Run.print (path ++ ": ok (" ++ toString compiled.schema.messages.length ++ " messages, " ++
        toString compiled.schema.enums.length ++ " enums, " ++
        toString compiled.codecs.codecs.entries.length ++ " codecs)")
    | .error (.invalid violations) =>
      .finish { code := 1, errors := path ++ ": " ++ toString violations.length ++
        " problem(s)\n" ++ Violation.describeAll violations ++ "\n" }
    | .error error => Run.fail (compileMessage error)

/-- Do what an invocation asks for. -/
def run (invocation : Invocation) : Run :=
  withConfig invocation fun config =>
    match invocation.command with
    | .check => runCheck (invocation.value .input) config
    | .plan =>
      withSchema (invocation.value .input) config fun compiled =>
        Run.deliver (invocation.value? .output) compiled.codecs.toJson.pretty
    | .emit =>
      withSchema (invocation.value .input) config fun compiled =>
        Run.deliver (invocation.value? .output) (Emission.emit compiled.schema compiled.codecs)
    | .decode =>
      withSchema (invocation.value .schema) config fun compiled =>
        .read (invocation.value .input) fun data =>
          match data with
          | none => Run.fail ("cannot read " ++ invocation.value .input)
          | some data =>
            match compiled.codecs.decodeToJson (invocation.value .message) data with
            | .ok text => Run.print text
            | .error error => Run.fail error.message

/-- Do what the arguments of a command line ask for. -/
def start (arguments : List String) : Run :=
  match parse arguments with
  | .ok invocation => run invocation
  | .error (.help topic) => .finish { code := 0, output := help topic }
  | .error .usage =>
    .finish { code := 2, errors := "error: see 'bproto --help'\n" }

end Protobuf.CommandLine
