import Protobuf.Proofs.Schema.Scoped
import Protobuf.Proofs.Schema.Token

/-! # Names below a package

The full name of a type is the path of its scopes and itself, below the package, where each declared
name is a single part. Main statement: `FileDeclaration.below_of_build`. -/

namespace Protobuf

open Name Reference

namespace Name

/-- A full name is that of a path inside a scope. -/
def Below (scope fullName : String) : Prop :=
  ∃ path, fullName = join scope path ∧ IsPath path.toList

theorem below_join {part : String} (valid : isIdentifier part) (scope : String) :
    Below scope (join scope part) :=
  ⟨part, rfl, [part.toList], List.cons_ne_nil _ _, List.forall_mem_singleton.2 valid,
    by simp [List.intercalate]⟩

/-- A path goes on with an identifier. -/
theorem isPath_append {path part : List Char} (isPath : IsPath path)
    (valid : isIdentifierChars part) : IsPath (path ++ '.' :: part) := by
  obtain ⟨parts, some, each, rfl⟩ := isPath
  refine ⟨parts ++ [part], by simp, ?_, ?_⟩
  · exact List.forall_mem_append.2 ⟨each, List.forall_mem_singleton.2 valid⟩
  · induction parts with
    | nil => exact absurd rfl some
    | cons first rest ih =>
      cases rest with
      | nil => simp [List.intercalate]
      | cons next rest =>
        have later := ih (List.cons_ne_nil _ _) (List.forall_mem_cons.1 each).2
        rw [List.intercalate_cons_cons, List.append_assoc, later]
        simp [List.intercalate_cons_cons]

/-- What stands inside a name below a scope is below the scope. -/
theorem Below.join {scope outer part : String} (below : Below scope outer)
    (valid : isIdentifier part) : Below scope (join outer part) := by
  obtain ⟨path, rfl, isPath⟩ := below
  have some : path ≠ "" := by
    rintro rfl
    obtain ⟨first, rest, none, -⟩ := isPath.exists_cons
    cases none
  refine ⟨path ++ "." ++ part, ?_, ?_⟩
  · by_cases root : scope = ""
    · simp [Name.join, root, some]
    · simp [Name.join, root, String.append_assoc]
  · rw [String.toList_append, String.toList_append, List.append_assoc]
    exact isPath_append isPath valid

end Name

namespace MessageType

/-- Types that bear the names of their scopes, and whose last parts are identifiers, are below any
scope that those in the outermost of their scopes are below. -/
theorem Scoped.names_below {scope outer : String} {type : MessageType} (placed : type.Scoped outer)
    (above : ∀ part, isIdentifier part → Below scope (join outer part))
    (messages : ∀ inner ∈ type.withNested, isIdentifier inner.simpleName)
    (enums : ∀ kind ∈ type.enumsWithin, isIdentifier kind.simpleName) :
    (∀ inner ∈ type.withNested, Below scope inner.name) ∧
      ∀ kind ∈ type.enumsWithin, Below scope kind.name := by
  induction placed with
  | @intro outer type named kinds nested ih =>
    have own : Below scope type.name :=
      named ▸ above type.simpleName (messages type (mem_withNested_self type))
    obtain ⟨name, fields, enumTypes, inside, groups, reserved⟩ := type
    rw [withNested, allNested_eq_flatMap] at messages ⊢
    rw [enumsWithin, allEnumsWithin_eq_flatMap] at enums ⊢
    rw [List.forall_mem_cons, List.forall_mem_flatMap] at messages ⊢
    rw [List.forall_mem_append, List.forall_mem_flatMap] at enums ⊢
    have deeper : ∀ inner ∈ inside, (∀ deep ∈ inner.withNested, Below scope deep.name) ∧
        ∀ kind ∈ inner.enumsWithin, Below scope kind.name := fun inner held =>
      ih inner held (fun part valid => own.join valid) (messages.2 inner held)
        (enums.1 inner held)
    refine ⟨⟨own, fun inner held => (deeper inner held).1⟩, fun inner held =>
      (deeper inner held).2, fun kind held => ?_⟩
    exact (kinds kind held) ▸ own.join (enums.2 kind held)

end MessageType

/-- The full names of a lawful schema that is built from names of one part are below its
package. -/
theorem FileDeclaration.below_of_build (file : FileDeclaration) {schema : Schema}
    (undotted : ∀ name ∈ file.names, Undotted name) (built : file.build = .ok schema)
    (formed : schema.WellFormed) :
    (∀ type ∈ schema.allMessages, Below schema.scope type.name) ∧
      ∀ type ∈ schema.allEnums, Below schema.scope type.name := by
  obtain ⟨placed, enums⟩ := file.scoped_of_build undotted built
  have messages : ∀ type ∈ schema.allMessages, isIdentifier type.simpleName :=
    fun type held => (formed.messages type (Schema.mem_types_of_mem_allMessages held)).identifier
  have kinds : ∀ type ∈ schema.allEnums, isIdentifier type.simpleName :=
    fun type held => (formed.enums type held).identifier
  rw [Schema.allMessages, MessageType.allNested_eq_flatMap, List.forall_mem_flatMap] at messages ⊢
  rw [Schema.allEnums, MessageType.allEnumsWithin_eq_flatMap, List.forall_mem_append,
    List.forall_mem_flatMap] at kinds ⊢
  have each := fun type held => (placed type held).names_below
    (fun part valid => below_join valid schema.scope) (messages type held) (kinds.1 type held)
  refine ⟨fun type held => (each type held).1, fun type held => (each type held).2,
    fun type held => ?_⟩
  exact (enums type held) ▸ below_join (kinds.2 type held) schema.scope

end Protobuf
