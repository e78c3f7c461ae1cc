import Protobuf.Codec.Config
import Protobuf.Schema.Build
import Protobuf.Schema.Intake
import Protobuf.Schema.Validate

/-! # Compiling schemas

From the JSON text of declarations to a valid schema and its codecs. -/

namespace Protobuf

/-- Why a text is no valid schema. -/
inductive CompileError
  | json (fault : Json.Fault)
  | unsupportedType (error : UnsupportedField)
  | invalid (violations : List Violation)
deriving DecidableEq, Repr

/-- A schema with its codecs. -/
structure Compiled where
  schema : Schema
  codecs : CodecSet

namespace Compiled

/-- The codecs with the limits of a configuration. -/
def configure (compiled : Compiled) (config : Config) : Compiled :=
  { compiled with codecs := { compiled.codecs with limits := config.limits } }

/-- A schema with its codecs, valid or not. -/
def ofSchema (schema : Schema) : Compiled :=
  ⟨schema, .ofSchema schema⟩

/-- A message as a schema of its own, without a package, valid or not. -/
def ofMessage (type : MessageType) : Compiled :=
  ⟨{ messages := [type] }, .ofMessage type⟩

end Compiled

/-- The schema that a text declares, valid or not. -/
def readSchema (text : String) : Except CompileError Schema := do
  let file ← (FileDeclaration.ofJson text).mapError .json
  file.build.mapError .unsupportedType

/-- The valid schema that a text declares, with its codecs. -/
def compile (text : String) (config : Config) : Except CompileError Compiled := do
  let schema ← readSchema text
  match schema.violations with
  | [] => return (Compiled.ofSchema schema).configure config
  | violations => throw (.invalid violations)

end Protobuf
