import Protobuf.Schema.Basic

/-! # Declarations

A schema as it is declared: types are tokens, names are simple, and numbers that are reserved are
kept apart from ranges. -/

namespace Protobuf

/-- Names and numbers declared as reserved. -/
structure ReservedDeclaration where
  names : List String := []
  numbers : List Int := []
  ranges : List NumberRange := []
deriving DecidableEq, Repr

/-- A declared value of an enum. -/
structure EnumValueDeclaration where
  name : String := ""
  number : Int32 := 0
deriving DecidableEq, Repr

/-- A declared enum. -/
structure EnumDeclaration where
  name : String := ""
  values : List EnumValueDeclaration := []
  allowAlias : Bool := true
  reserved : ReservedDeclaration := {}
deriving DecidableEq, Repr

/-- A declared field. -/
structure FieldDeclaration where
  name : String := ""
  number : Nat := 0
  /-- The token of the type. -/
  type : String := ""
  label : Cardinality := .singular
  oneof : Option String := none
  default : Option DefaultValue := none
  deprecated : Bool := false
deriving DecidableEq, Repr

/-- A declared message. -/
structure MessageDeclaration where
  name : String := ""
  fields : List FieldDeclaration := []
  messages : List MessageDeclaration := []
  enums : List EnumDeclaration := []
  /-- Groups that are there even if no field joins them. -/
  oneofs : List String := []
  reserved : ReservedDeclaration := {}

/-- A file of declarations. -/
structure FileDeclaration where
  package : Option String := none
  messages : List MessageDeclaration := []
  enums : List EnumDeclaration := []

end Protobuf
