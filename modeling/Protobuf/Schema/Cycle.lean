import Protobuf.Schema.Registry

/-! # Messages that contain themselves

A singular message field outside of any oneof embeds a message in another one. Where such
embeddings lead in a circle, no finite schema of mandatory parts exists. Circles are looked for
depth first, from every message in the order of names. -/

namespace Protobuf

/-- The message a field embeds, if it must be there. -/
def Field.embedded? (field : Field) : Option String :=
  match field.type with
  | .message name => if field.cardinality = .singular && field.oneof.isNone then some name else none
  | _ => none

namespace Registry

/-- The names of the messages that a message embeds, as far as they are known. -/
def embedded (registry : Registry) (name : String) : List String :=
  match registry.message? name with
  | some type =>
    (type.fields.filterMap Field.embedded?).filter fun target => (registry.message? target).isSome
  | none => []

end Registry

namespace Cycle

/-- How far a search has come. -/
structure Search where
  /-- The names whose embeddings were all followed. -/
  finished : KeySet String := .empty
  /-- The circles found so far, in order. Each starts and ends with the same name. -/
  cycles : List (List String) := []

/-- The circle that a name closes on the way to it. The way is given backwards. -/
def closedBy (name : String) (way : List String) : List String :=
  (way.reverse.dropWhile (· ≠ name)) ++ [name]

/-- Follow the embeddings of a name that was reached on a way, at most `fuel` names deep. -/
def visit (registry : Registry) : Nat → List String → Search → String → Search
  | 0, _, search, _ => search
  | fuel + 1, way, search, name =>
    if way.contains name then { search with cycles := search.cycles ++ [closedBy name way] }
    else if search.finished.contains name then search
    else
      let search := (registry.embedded name).foldl (visit registry fuel (name :: way)) search
      { search with finished := search.finished.add name }

/-- The circles of a registry. A way has every name once, so it is no longer than there are
messages; one more name closes a circle. -/
def all (registry : Registry) : List (List String) :=
  let names := registry.messages.keys
  (names.foldl (visit registry (names.length + 1) []) {}).cycles

end Cycle

end Protobuf
