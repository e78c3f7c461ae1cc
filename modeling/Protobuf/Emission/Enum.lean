import Protobuf.Emission.Names
import Protobuf.Emission.Source

/-! # Emitted enums

The first name of a number becomes a variant, and each further one a constant that stands for it.
Variants and constants share their names. -/

namespace Protobuf.Emission

/-- What a value of an enum becomes. -/
inductive EnumItem
  | variant (identifier : String) (number : Int32)
  | alias (identifier target : String)
deriving DecidableEq, Repr

/-- What the values of an enum become, given the identifiers taken and the variants by number. -/
def enumItems (taken : KeySet String) (variants : List (Int32 × String)) :
    List EnumValue → List EnumItem
  | [] => []
  | value :: rest =>
    match variants.lookup value.number with
    | some target =>
      let (identifier, taken) := claim taken (constantIdentifier value.name)
      .alias identifier target :: enumItems taken variants rest
    | none =>
      let (identifier, taken) := claim taken (variantIdentifier value.name)
      .variant identifier value.number ::
        enumItems taken ((value.number, identifier) :: variants) rest

namespace EnumItem

/-- The line of a variant. -/
def variantLine? : EnumItem → Option Source
  | .variant identifier number =>
    some (.line (identifier ++ " = " ++ toString number.toInt ++ ","))
  | .alias _ _ => none

/-- The arm that finds a variant by its number. -/
def arm? (type : String) : EnumItem → Option Source
  | .variant identifier number =>
    some (.line (toString number.toInt ++ " => Some(" ++ type ++ "::" ++ identifier ++ "),"))
  | .alias _ _ => none

/-- The constant of an alias. -/
def constant? (type : String) : EnumItem → Option Source
  | .variant _ _ => none
  | .alias identifier target =>
    some (.line
      ("pub const " ++ identifier ++ ": " ++ type ++ " = " ++ type ++ "::" ++ target ++ ";"))

end EnumItem

/-- The emitted form of an enum. -/
def emitEnum (names : Names) (type : EnumType) : List Source :=
  let name := names.typeName type.name
  let items := enumItems .empty [] type.values
  let variants := items.filterMap (·.variantLine?)
  let constants := items.filterMap (·.constant? name)
  [.line "#[derive(Debug, Clone, Copy, PartialEq, Eq, Hash, Default)]",
    .line "#[repr(i32)]",
    block ("pub enum " ++ name)
      (if variants.isEmpty then [] else .line "#[default]" :: variants),
    .blank,
    block ("impl " ++ name)
      ((if constants.isEmpty then [] else constants ++ [.blank]) ++
        [block ("pub fn from_i32(value: i32) -> Option<" ++ name ++ ">")
          [block "match value" (items.filterMap (·.arm? name) ++ [.line "_ => None,"])]]),
    .blank,
    block ("impl From<" ++ name ++ "> for i32")
      [block ("fn from(value: " ++ name ++ ") -> i32") [.line "value as i32"]],
    .blank]

end Protobuf.Emission
