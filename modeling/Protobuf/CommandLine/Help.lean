import Protobuf.CommandLine.Arguments

/-! # Help

The text that explains the command line. Options are listed in the order they are declared, those
of a command before those that may stand anywhere. -/

namespace Protobuf.CommandLine

/-- What a command does. -/
def Command.about : Command → String
  | .check => "Validate a JSON schema declaration, reporting every problem found"
  | .plan => "Print the generated encode/decode procedures as JSON"
  | .emit =>
    "Generate Rust code from a schema, by calling \x60compile_schema_to_rust\x60"
  | .decode => "Decode an encoded message to JSON (printed to stdout)"

/-- What an option of a command means. -/
def Flag.about (command : Option Command) : Flag → String
  | .input =>
    if command = some .decode then "File holding the encoded message"
    else "Input schema \x60.json\x60 file"
  | .output =>
    if command = some .emit then "Output \x60.rs\x60 file (if omitted, prints to stdout)"
    else "Output \x60.json\x60 file (if omitted, prints to stdout)"
  | .schema => "Schema \x60.json\x60 file declaring the message"
  | .message => "Fully-qualified message name, e.g. \x60acme.Person\x60"
  | .config => "JSON file with decode limits"
  | .maxMessageSize => "Largest message accepted by \x60decode\x60, in bytes"
  | .verbose => "Log at debug level unless RUST_LOG says otherwise"
  | .help => "Print help"

/-- An option with a place for its value. -/
def Flag.usage (flag : Flag) : String :=
  "--" ++ flag.long ++
    if flag.takesValue then
      " <" ++ flag.long.map (fun c => if c = '-' then '_' else c.toUpper) ++ ">"
    else ""

/-- The options of a command, or those of the program, in the order they are listed. -/
def listed : Option Command → List Flag
  | none => Flag.globals
  | some command => command.available

/-- A text with blanks behind it up to a width. -/
def padded (width : Nat) (text : String) : String :=
  String.ofList (text.toList ++ List.replicate (width - text.length) ' ')

/-- The line for an option. -/
def optionLine (command : Option Command) (flag : Flag) : String :=
  let short :=
    match flag.short? with
    | some c => String.ofList ['-', c, ',', ' ']
    | none => "    "
  "  " ++ short ++ padded (Flag.usage .maxMessageSize).length flag.usage ++ "  " ++
    flag.about command

/-- The lines for the options of a command, or those of the program. -/
def optionLines (command : Option Command) : List String :=
  "Options:" :: (listed command).map (optionLine command)

/-- What the help command does. -/
def aboutHelp : String := "Print this message or the help of the given subcommand(s)"

/-- The lines of help on a topic. -/
def helpLines : Topic → List String
  | .program =>
    let line (name about : String) : String := "  " ++ padded 8 name ++ "  " ++ about
    ["Validate Protocol Buffers schemas, inspect their codecs, generate Rust or decode messages",
      "", "Usage: bproto [OPTIONS] <COMMAND>", "", "Commands:"] ++
      Command.all.map (fun command => line command.name command.about) ++
      [line "help" aboutHelp, ""] ++ optionLines none
  | .command command =>
    [command.about, "",
      "Usage: bproto " ++ command.name ++ " [OPTIONS] " ++
        " ".intercalate (command.required.map (·.usage)), ""] ++
      optionLines (some command)
  | .help =>
    [aboutHelp, "", "Usage: bproto help [COMMAND]...", "", "Arguments:",
      "  [COMMAND]...  Print help for the subcommand(s)"]

/-- The help on a topic. -/
def help (topic : Topic) : String :=
  "\n".intercalate (helpLines topic) ++ "\n"

end Protobuf.CommandLine
