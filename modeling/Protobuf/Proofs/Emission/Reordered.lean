import Protobuf.Emission.Module
import Protobuf.Proofs.Schema.Reordered

/-! # Types declared in another order, compiled

Codecs and emitted text are made from the types of a schema by ascending full name, and of a message
they show nothing that is nested in it. So they are the same in whatever order types of different
names are declared. Main statement: `FileDeclaration.compile_reordered`. -/

namespace Protobuf

/-- Codecs do not depend on what is nested in messages. -/
theorem CodecSet.ofRegistry_outline (registry : Registry) :
    ofRegistry registry.outline = ofRegistry registry := by
  rw [ofRegistry, ofRegistry, Registry.outline, Table.values_map, List.foldl_map]
  rfl

namespace Emission

variable (codecs : CodecSet) (names : Names) (scope : MessageScope)

theorem Names.of_outline (registry : Registry) (package : String) :
    Names.of registry.outline package = Names.of registry package := by
  simp only [Names.of, Registry.outline, Table.keys_map, Table.values_map, List.flatMap_map]
  rfl

/-- What the statements about a message are made from, without the types in the message. -/
def MessageScope.outline : MessageScope :=
  { scope with type := scope.type.outline }

theorem emitGroup_outline : emitGroup scope.outline = emitGroup scope := rfl

theorem emitGetter_outline : emitGetter scope.outline = emitGetter scope := rfl

theorem emitMerge_outline : emitMerge scope.outline = emitMerge scope := rfl

theorem emitFields_outline (groups : List String) (fields : List Field) :
    emitFields scope.outline groups fields = emitFields scope groups fields := by
  induction fields generalizing groups with
  | nil => rfl
  | cons field rest ih =>
    simp only [emitFields, ih]
    rfl

theorem writeFields_outline (written : List String) (plans : List FieldPlan) :
    writeFields codecs scope.outline written plans = writeFields codecs scope written plans := by
  induction plans generalizing written with
  | nil => rfl
  | cons plan rest ih =>
    simp only [writeFields, ih]
    rfl

theorem emitMethods_outline (name : String) :
    emitMethods codecs scope.outline name = emitMethods codecs scope name := by
  simp only [emitMethods, emitEncoder, emitGetter_outline, emitMerge_outline, writeFields_outline]
  rfl

/-- What is nested in a message does not show in its emitted form. -/
theorem emitMessage_outline (type : MessageType) (codec : MessageCodec) :
    emitMessage codecs names type.outline codec = emitMessage codecs names type codec := by
  have scopes : (⟨type.outline, codec, membersOf type.outline, names⟩ : MessageScope) =
    MessageScope.outline ⟨type, codec, membersOf type, names⟩ := rfl
  simp only [emitMessage, scopes, emitGroup_outline, emitFields_outline, emitMethods_outline]
  rfl

/-- What is made of the messages of registries with one outline is the same if nothing is made of
what is nested in messages. -/
theorem flatMap_values_of_outline {registry other : Registry}
    (same : registry.outline = other.outline) {make : MessageType → List Source}
    (plain : ∀ type, make type.outline = make type) :
    registry.messages.values.flatMap make = other.messages.values.flatMap make := by
  have outlines := congrArg (·.messages.values.flatMap make) same
  simpa only [Registry.outline, Table.values_map, List.flatMap_map, plain] using outlines

/-- Schemas with one package and the same types by full name, apart from what is nested in them, are
emitted as one text. -/
theorem emit_eq_of_outline {schema other : Schema} (package : other.package = schema.package)
    (same : (Registry.ofSchema schema).outline = (Registry.ofSchema other).outline) :
    emit schema codecs = emit other codecs := by
  have names (package : String) :
      Names.of (.ofSchema schema) package = Names.of (.ofSchema other) package := by
    rw [← Names.of_outline, same, Names.of_outline]
  have enums : (Registry.ofSchema schema).enums = (Registry.ofSchema other).enums :=
    (congrArg Registry.enums same :)
  -- All that is left of the order is in the messages, which are emitted one behind another.
  simp only [emit, emitSchema, package, names, enums]
  rw [flatMap_values_of_outline same fun type => ?_]
  simp only [emitMessage_outline]
  rfl

end Emission

/-- Where no two messages or enums have one full name, the order in which they are declared makes no
difference: not to whether a schema can be built, nor to whether it is valid, nor to its codecs and
its emitted text. The entry messages of maps may have names that others have too, since their codecs
are made right behind those of the messages that have the maps, and these come by name. -/
theorem FileDeclaration.compile_reordered {file other : FileDeclaration}
    (reordered : file.Reordered other) (distinct : file.fullNames.Nodup) :
    ((∃ schema, file.build = .ok schema) ↔ ∃ schema, other.build = .ok schema) ∧
    ∀ schema schema', file.build = .ok schema → other.build = .ok schema' →
      (schema.violations = [] ↔ schema'.violations = []) ∧
      CodecSet.ofSchema schema = CodecSet.ofSchema schema' ∧
      ∀ codecs, Emission.emit schema codecs = Emission.emit schema' codecs := by
  constructor
  · have distinct' := reordered.perm_fullNames.nodup_iff.1 distinct
    constructor
    · rintro ⟨schema, built⟩
      obtain ⟨schema', built', -⟩ := reordered.exists_build distinct built
      exact ⟨schema', built'⟩
    · rintro ⟨schema', built'⟩
      obtain ⟨schema, built, -⟩ := reordered.symm.exists_build distinct' built'
      exact ⟨schema, built⟩
  · intro schema schema' built built'
    obtain ⟨found, built'', another⟩ := reordered.exists_build distinct built
    obtain rfl := Except.ok.inj (built''.symm.trans built')
    have apart := apart_of_build built distinct
    have same := another.outline_eq apart
    refine ⟨another.violations_eq_nil_iff apart, ?_, fun codecs =>
      Emission.emit_eq_of_outline codecs another.package same⟩
    rw [CodecSet.ofSchema, CodecSet.ofSchema, ← CodecSet.ofRegistry_outline, same,
      CodecSet.ofRegistry_outline]

/-- Books of a kind have pages by their titles, and an author, who is declared behind them. -/
def FileDeclaration.books : FileDeclaration where
  package := some "lib"
  messages :=
    [{ name := "Book"
       fields := [{ name := "kind", number := 1, type := ".lib.Book.Kind" },
         { name := "pages", number := 2, type := "map<string, .lib.Book.Page>" },
         { name := "author", number := 3, type := ".lib.Author" }]
       messages := [{ name := "Page" }, { name := "Cover" }]
       enums := [{ name := "Kind", values := [{ name := "NOVEL" }] },
         { name := "Binding", values := [{ name := "CLOTH" }] }] },
     { name := "Author", fields := [{ name := "name", number := 1, type := "string" }] }]

/-- The declarations of `FileDeclaration.books`, in another order in each scope. -/
def FileDeclaration.booksBackwards : FileDeclaration where
  package := some "lib"
  messages :=
    [{ name := "Author", fields := [{ name := "name", number := 1, type := "string" }] },
     { name := "Book"
       fields := [{ name := "kind", number := 1, type := ".lib.Book.Kind" },
         { name := "pages", number := 2, type := "map<string, .lib.Book.Page>" },
         { name := "author", number := 3, type := ".lib.Author" }]
       messages := [{ name := "Cover" }, { name := "Page" }]
       enums := [{ name := "Binding", values := [{ name := "CLOTH" }] },
         { name := "Kind", values := [{ name := "NOVEL" }] }] }]

/-- What `FileDeclaration.books` declares. -/
def Schema.books : Schema where
  package := some "lib"
  messages :=
    [{ name := "lib.Book"
       fields := [{ name := "kind", tag := 1, type := .enum "lib.Book.Kind" },
         { name := "pages", tag := 2,
           type := .map (.builtin .string) (.message "lib.Book.Page") },
         { name := "author", tag := 3, type := .message "lib.Author" }]
       nestedMessages := [{ name := "lib.Book.Page" }, { name := "lib.Book.Cover" }]
       nestedEnums := [{ name := "lib.Book.Kind", values := [⟨"NOVEL", 0⟩] },
         { name := "lib.Book.Binding", values := [⟨"CLOTH", 0⟩] }] },
     { name := "lib.Author", fields := [{ name := "name", tag := 1, type := .builtin .string }] }]

theorem FileDeclaration.build_books : books.build = .ok .books := by
  with_unfolding_all rfl

theorem FileDeclaration.reordered_books : books.Reordered booksBackwards where
  package := rfl
  messages := .trans (.swap ..) (.cons .nil .nil (.cons (.swap ..) (.swap ..) .nil))
  enums := .nil

/-- Books can be compiled backwards, and the outcome is the same. -/
theorem FileDeclaration.compile_reordered_books :
    ∃ schema, booksBackwards.build = .ok schema ∧ schema.violations = [] ∧
      CodecSet.ofSchema .books = CodecSet.ofSchema schema ∧
      ∀ codecs, Emission.emit .books codecs = Emission.emit schema codecs := by
  obtain ⟨builds, alike⟩ := compile_reordered reordered_books (by decide)
  obtain ⟨schema, built⟩ := builds.1 ⟨_, build_books⟩
  obtain ⟨valid, codecs, text⟩ := alike _ _ build_books built
  exact ⟨schema, built, valid.1 (by decide), codecs, text⟩

end Protobuf
