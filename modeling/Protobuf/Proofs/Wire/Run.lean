import Protobuf.Proofs.Wire.Record

/-! # Forms of packed runs

A run is a payload that is nothing but words of one layout. Reading a run succeeds exactly on such
payloads, wherever they stand. -/

namespace Protobuf.Wire

/-- Some bytes are words of a layout, back to back. -/
inductive Word.Run (layout : Word) : List UInt8 → List Nat → Prop
  | nil : Run layout [] []
  | cons {bytes rest : List UInt8} {n : Nat} {ns : List Nat} (head : layout.Spells bytes n)
    (tail : Run layout rest ns) : Run layout (bytes ++ rest) (n :: ns)

theorem Word.Spells.pos {layout : Word} {bytes : List UInt8} {n : Nat}
    (form : layout.Spells bytes n) : 0 < bytes.length := by
  cases form with
  | varint form => exact form.pos
  | fixed64 width => omega
  | fixed32 width => omega

/-- A run is read exactly from the words back to back. -/
theorem readRun_eq_ok_iff {layout : Word} {cursor : Cursor} {ns : List Nat} :
    readRun layout cursor = .ok ns ↔ layout.Run cursor.rest ns := by
  constructor
  · intro done
    fun_induction readRun layout cursor generalizing ns with
    | case1 cursor ended =>
      cases done
      rw [List.isEmpty_iff.1 ended]
      exact .nil
    | case2 cursor more error after found => cases done
    | case3 cursor more n finish found error again ih => cases done
    | case4 cursor more n finish found rest again ih =>
      cases done
      obtain ⟨used, left, here, rfl, form⟩ := (Read.takes_word _ _ _ _).1 found
      rw [here]
      exact .cons form (ih again)
  · intro run
    generalize left : cursor.rest = bytes at run
    induction run generalizing cursor with
    | nil =>
      unfold readRun
      simp [left]
    | @cons used rest n ns form tail ih =>
      have read : Read.word layout cursor = .ok n (cursor.past used rest) :=
        (Read.takes_word _ _ _ _).2 ⟨used, rest, left, rfl, form⟩
      have more : cursor.rest.isEmpty = false := by
        have := form.pos
        rw [left]
        cases used with
        | nil => simp at this
        | cons => rfl
      have again : readRun layout (cursor.past used rest) = .ok ns := ih rfl
      unfold readRun
      rw [if_neg (by simp [more])]
      split
      · rename_i error after found
        rw [read] at found
        cases found
      · rename_i n' finish found
        rw [read] at found
        cases found
        rw [again]

end Protobuf.Wire
