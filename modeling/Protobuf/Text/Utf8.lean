/-! # Texts as bytes

The UTF-8 form of a text, and the text of bytes that have such a form. Main statement: reading
accepts exactly what writing produces. -/

namespace Protobuf.Text.Utf8

/-- The UTF-8 form of a text. -/
def encode (text : String) : List UInt8 :=
  text.toUTF8.data.toList

/-- The text whose UTF-8 form is given; none when the bytes are no such form. -/
def decode? (bytes : List UInt8) : Option String :=
  String.fromUTF8? ⟨bytes.toArray⟩

/-- Reading accepts exactly what writing produces. -/
theorem decode?_eq_some_iff {bytes : List UInt8} {text : String} :
    decode? bytes = some text ↔ bytes = encode text := by
  unfold decode? String.fromUTF8? encode
  split
  · rename_i valid
    constructor
    · intro same
      injection same with same
      subst same
      rfl
    · intro same
      subst same
      rfl
  · rename_i invalid
    constructor
    · intro impossible
      cases impossible
    · intro same
      subst same
      exact absurd text.isValidUTF8 invalid

/-- A written text is read back. -/
@[simp] theorem decode?_encode (text : String) : decode? (encode text) = some text :=
  decode?_eq_some_iff.2 rfl

end Protobuf.Text.Utf8
