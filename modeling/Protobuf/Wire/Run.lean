import Protobuf.Wire.Record

/-! # Packed runs

A payload that is nothing but numbers of one layout, back to back. -/

namespace Protobuf.Wire

/-- A number takes at least one byte. -/
theorem Read.word_lt {layout : Word} {cursor finish : Cursor} {value : Nat}
    (done : Read.word layout cursor = .ok value finish) :
    finish.rest.length < cursor.rest.length := by
  have fixed : ∀ {count : Nat} {data : List UInt8} {finish : Cursor}, 0 < count →
      Read.bytes count cursor = .ok data finish → finish.rest.length < cursor.rest.length := by
    intro count data finish positive done
    unfold Read.bytes at done
    split at done <;> cases done
    simp only [Cursor.advance, List.length_drop]
    omega
  cases layout with
  | varint => exact Read.varint_lt done
  | fixed64 =>
    simp only [Read.word, Read.fixed64, Functor.map, EStateM.map] at done
    split at done
    · rename_i first
      cases done
      exact fixed (by decide) first
    · cases done
  | fixed32 =>
    simp only [Read.word, Read.fixed32, Functor.map, EStateM.map] at done
    split at done
    · rename_i first
      cases done
      exact fixed (by decide) first
    · cases done

/-- The numbers of a run, up to the end of the buffer. -/
def readRun (layout : Word) (cursor : Cursor) : Except Error (List Nat) :=
  if cursor.rest.isEmpty then .ok []
  else
    match _found : Read.word layout cursor with
    | .error error _ => .error error
    | .ok value finish =>
      match readRun layout finish with
      | .error error => .error error
      | .ok values => .ok (value :: values)
termination_by cursor.rest.length
decreasing_by exact Read.word_lt _found

end Protobuf.Wire
