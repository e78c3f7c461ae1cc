import Protobuf.Table

/-! # Command line arguments

A command line has global options, a command, and options of the command among which the global
ones may stand again. A value may be attached to its option or follow it.

## Implementation notes

An option whose value stands in the next argument is settled only when something else is read, and
those in front of a command only after the command was read. So a call for help may come first. -/

namespace Protobuf.CommandLine

/-- What can be asked of the program. -/
inductive Command
  | check
  | plan
  | emit
  | decode
deriving DecidableEq, Repr

/-- Every command. -/
def Command.all : List Command := [.check, .plan, .emit, .decode]

/-- The word for a command. -/
def Command.name : Command → String
  | .check => "check"
  | .plan => "plan"
  | .emit => "gen-rust"
  | .decode => "decode"

/-- An option. -/
inductive Flag
  | input
  | output
  | schema
  | message
  | config
  | maxMessageSize
  | verbose
  | help
deriving DecidableEq, Repr

namespace Flag

/-- The long name, without its dashes. -/
def long : Flag → String
  | .input => "input"
  | .output => "output"
  | .schema => "schema"
  | .message => "message"
  | .config => "config"
  | .maxMessageSize => "max-message-size"
  | .verbose => "verbose"
  | .help => "help"

/-- The short name, if there is one. -/
def short? : Flag → Option Char
  | .input => some 'i'
  | .output => some 'o'
  | .schema => some 's'
  | .message => some 'm'
  | .config => none
  | .maxMessageSize => none
  | .verbose => some 'v'
  | .help => some 'h'

/-- Whether the option has a value. -/
def takesValue : Flag → Bool
  | .verbose => false
  | .help => false
  | _ => true

/-- The options that may stand anywhere. -/
def globals : List Flag := [.config, .maxMessageSize, .verbose, .help]

end Flag

namespace Command

/-- The options that a command needs. -/
def required : Command → List Flag
  | .check => [.input]
  | .plan => [.input]
  | .emit => [.input]
  | .decode => [.schema, .message, .input]

/-- The options that a command has of its own. -/
def flags : Command → List Flag
  | .check => [.input]
  | .plan => [.input, .output]
  | .emit => [.input, .output]
  | .decode => [.schema, .message, .input]

/-- The options that may stand behind a command: its own, then those that may stand anywhere. -/
def available (command : Command) : List Flag :=
  command.flags ++ Flag.globals

end Command

/-- What help is asked for. -/
inductive Topic
  | program
  | command (command : Command)
  | help
deriving DecidableEq, Repr

/-- Why a command line asks for nothing to be done. -/
inductive Stop
  | help (topic : Topic)
  | usage
deriving DecidableEq, Repr

/-- The whole number below `2 ^ 64` that a text stands for. A plus may stand in front. -/
def size? (text : String) : Option Nat :=
  let digits :=
    match text.toList with
    | '+' :: rest => rest
    | other => other
  if digits.isEmpty || !digits.all (fun c => '0' ≤ c && c ≤ '9') then none
  else
    let value := digits.foldl (fun value c => 10 * value + (c.toNat - '0'.toNat)) 0
    if value < UInt64.size then some value else none

/-- Whether a text is a value of an option. Paths must not be empty. -/
def Flag.fits (flag : Flag) (text : String) : Bool :=
  match flag with
  | .maxMessageSize => (size? text).isSome
  | .message => true
  | .verbose => true
  | .help => true
  | _ => text ≠ ""

/-- The options given at one level. -/
structure Given where
  /-- The options that are settled, with their values. -/
  settled : List (Flag × String) := []
  /-- The option read last, while it is not settled; its value may still be to come. -/
  pending : Option (Flag × Option String) := none
deriving DecidableEq, Repr

namespace Given

/-- Settle an option. No option may be given twice. -/
def accept (given : Given) (flag : Flag) (value : String) : Except Stop Given :=
  if (given.settled.lookup flag).isSome || !flag.fits value then .error .usage
  else .ok { given with settled := given.settled ++ [(flag, value)] }

/-- Settle the option that is pending. -/
def settle (given : Given) : Except Stop Given :=
  match given.pending with
  | none => .ok given
  | some (_, none) => .error .usage
  | some (flag, some value) => accept { given with pending := none } flag value

/-- Whether a value is to come. -/
def awaited? (given : Given) : Option Flag :=
  match given.pending with
  | some (flag, none) => some flag
  | _ => none

end Given

/-- A level of a command line: what help is about there, and the options it has. -/
structure Level where
  topic : Topic
  flags : List Flag

namespace Level

/-- Take on an option without a value. -/
def plain (level : Level) (given : Given) (flag : Flag) : Except Stop Given := do
  let given ← given.settle
  if flag = .help then throw (.help level.topic)
  given.accept flag ""

/-- Take on an option that has a value, attached to it or still to come. -/
def valued (given : Given) (flag : Flag) (attached : Option String) : Except Stop Given := do
  let given ← given.settle
  match attached with
  | some value => given.accept flag value
  | none => return { given with pending := some (flag, none) }

/-- Take on a long option, given without its dashes. -/
def long (level : Level) (given : Given) (text : List Char) : Except Stop Given :=
  let name := String.ofList (text.takeWhile (· ≠ '='))
  let attached :=
    match text.dropWhile (· ≠ '=') with
    | _ :: value => some (String.ofList value)
    | [] => none
  match level.flags.find? (·.long = name) with
  | none => .error .usage
  | some flag =>
    if flag.takesValue then valued given flag attached
    else if attached.isSome then .error .usage
    else level.plain given flag

/-- Take on short options that stand behind one dash. -/
def shorts (level : Level) (given : Given) : List Char → Except Stop Given
  | [] => .ok given
  | c :: rest =>
    match level.flags.find? (·.short? = some c) with
    | none => .error .usage
    | some flag =>
      if flag.takesValue then
        valued given flag
          (match rest with
            | [] => none
            | '=' :: value => some (String.ofList value)
            | value => some (String.ofList value))
      else
        match level.plain given flag with
        | .error stop => .error stop
        | .ok given => level.shorts given rest

/-- Take on arguments up to the first that is neither an option nor a value; that one and those
behind it are left. Two dashes end the options, and nothing may stand behind them. -/
def read (level : Level) (given : Given) : List String → Except Stop (Given × List String)
  | [] => .ok (given, [])
  | argument :: rest =>
    match argument.toList with
    | ['-', '-'] => if rest.isEmpty then .ok (given, []) else .error .usage
    | '-' :: '-' :: text =>
      match level.long given text with
      | .error stop => .error stop
      | .ok given => level.read given rest
    | '-' :: c :: text =>
      match level.shorts given (c :: text) with
      | .error stop => .error stop
      | .ok given => level.read given rest
    | _ =>
      match given.awaited? with
      | some flag => level.read { given with pending := some (flag, some argument) } rest
      | none => .ok (given, argument :: rest)

end Level

/-- What a command line asks for. -/
structure Invocation where
  command : Command
  /-- The values of the options of the command. -/
  own : List (Flag × String)
  /-- The values of global options in front of the command. -/
  outer : List (Flag × String)
deriving DecidableEq, Repr

namespace Invocation

/-- The value of an option. One behind the command counts before one in front of it. -/
def value? (invocation : Invocation) (flag : Flag) : Option String :=
  (invocation.own.lookup flag).or (invocation.outer.lookup flag)

/-- The value of an option that the command needs. -/
def value (invocation : Invocation) (flag : Flag) : String :=
  (invocation.value? flag).getD ""

end Invocation

/-- What the words behind `help` ask for. -/
def helpTopic : List String → Stop
  | [] => .help .program
  | ["help"] => .help .help
  | [name] =>
    match Command.all.find? (·.name = name) with
    | some command => .help (.command command)
    | none => .usage
  | _ => .usage

/-- What the arguments of a command line ask for. -/
def parse (arguments : List String) : Except Stop Invocation := do
  let (outer, rest) ← Level.read ⟨.program, Flag.globals⟩ {} arguments
  match rest with
  | [] => throw .usage
  | name :: rest =>
    if name = "help" then throw (helpTopic rest)
    match Command.all.find? (·.name = name) with
    | none => throw .usage
    | some command =>
      let level : Level := ⟨.command command, command.available⟩
      let (own, left) ← level.read {} rest
      if !left.isEmpty then throw .usage
      let own ← own.settle
      if command.required.any fun flag => (own.settled.lookup flag).isNone then throw .usage
      let outer ← outer.settle
      return ⟨command, own.settled, outer.settled⟩

end Protobuf.CommandLine
