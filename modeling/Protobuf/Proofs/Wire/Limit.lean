import Protobuf.Proofs.Wire.Record

/-! # Taking apart under a limit

A limit on lengths changes nothing but where taking a buffer apart stops: under a narrower limit it
is the same up to a payload that is too long for it. Main statement: `cut_split`. -/

namespace Protobuf.Wire

variable {narrow wide : Nat} {cursor : Cursor}

/-- A limit was exceeded. -/
inductive Error.IsLimit : Error → Prop
  | intro (offset : Nat) (what : Quantity) (limit actual : Nat) :
    IsLimit (.limitExceeded offset what limit actual)

/-- A payload is read alike under a narrower limit, or is too long for it. -/
theorem payload_narrow (le : narrow ≤ wide) (cursor : Cursor) :
    Read.payload narrow cursor = Read.payload wide cursor ∨
      ∃ error finish, Read.payload narrow cursor = .error error finish ∧ error.IsLimit := by
  simp only [Read.payload, Bind.bind, EStateM.bind, Read.offset]
  cases Read.varint cursor with
  | error error after => exact .inl rfl
  | ok length after =>
    by_cases tooLong : narrow < length
    · simp only [if_pos tooLong]
      exact .inr ⟨_, _, rfl, .intro ..⟩
    · have fits : ¬wide < length := by omega
      refine .inl ?_
      simp only [if_neg tooLong, if_neg fits]

/-- A record is read alike under a narrower limit, or its payload is too long for it. -/
theorem nextRecord_narrow (le : narrow ≤ wide) (cursor : Cursor) :
    nextRecord narrow cursor = nextRecord wide cursor ∨
      ∃ key error, key.wireType = .lengthDelimited ∧ error.IsLimit ∧
        nextRecord narrow cursor = .error (.value cursor.offset key error) ∧
        ((∃ other, nextRecord wide cursor = .error (.value cursor.offset key other)) ∨
          ∃ slice raw finish,
            nextRecord wide cursor = .ok (⟨cursor.offset, key, .payload slice, raw⟩, finish)) := by
  unfold nextRecord
  cases Read.key cursor with
  | error error after => exact .inl rfl
  | ok key inner =>
    obtain ⟨tag, wireType⟩ := key
    cases wireType with
    | varint | fixed64 | fixed32 => exact .inl rfl
    | lengthDelimited =>
      simp only [Read.rawValue, Functor.map, EStateM.map]
      rcases payload_narrow le inner with same | ⟨error, finish, failed, limit⟩
      · rw [same]
        exact .inl rfl
      · rw [failed]
        refine .inr ⟨_, error, rfl, limit, rfl, ?_⟩
        cases Read.payload wide inner with
        | error other after => exact .inl ⟨other, rfl⟩
        | ok slice after => exact .inr ⟨slice, _, after, rfl⟩

theorem split_of_error {maxLength : Nat} {broken : Break} (more : cursor.rest.isEmpty = false)
    (found : nextRecord maxLength cursor = .error broken) :
    split maxLength cursor = ([], some broken) := by
  unfold split
  rw [if_neg (by simp [more])]
  split
  · rename_i broken' found'
    rw [found] at found'
    cases found'
    rfl
  · rename_i record finish found'
    rw [found] at found'
    cases found'

theorem split_of_ok {maxLength : Nat} {record : Record} {finish : Cursor}
    (found : nextRecord maxLength cursor = .ok (record, finish)) :
    split maxLength cursor =
      (record :: (split maxLength finish).1, (split maxLength finish).2) := by
  have more : cursor.rest.isEmpty = false := by
    have shorter := nextRecord_lt found
    cases left : cursor.rest with
    | nil => simp [left] at shorter
    | cons => rfl
  cases again : split maxLength finish with
  | mk records broken =>
    unfold split
    rw [if_neg (by simp [more])]
    split
    · rename_i broken' found'
      rw [found] at found'
      cases found'
    · rename_i record' finish' found'
      rw [found] at found'
      cases found'
      rw [again]

/-- The parts of a buffer are the same as others, or are cut off in front of a record that has a
payload, or would have had one, because a limit was exceeded there. -/
inductive Cut : List Record × Option Break → List Record × Option Break → Prop
  | same (parts : List Record × Option Break) : Cut parts parts
  | fault {front : List Record} {offset : Nat} {key : Key} {error other : Error}
    (layout : key.wireType = .lengthDelimited) (limit : error.IsLimit) :
    Cut (front, some (.value offset key error)) (front, some (.value offset key other))
  | record {front back : List Record} {offset : Nat} {key : Key} {slice : Slice}
    {raw : List UInt8} {broken : Option Break} {error : Error}
    (layout : key.wireType = .lengthDelimited) (limit : error.IsLimit) :
    Cut (front, some (.value offset key error))
      (front ++ ⟨offset, key, .payload slice, raw⟩ :: back, broken)

theorem Cut.cons {records others : List Record} {broken broken' : Option Break}
    (cut : Cut (records, broken) (others, broken')) (record : Record) :
    Cut (record :: records, broken) (record :: others, broken') := by
  cases cut with
  | same => exact .same _
  | fault layout limit => exact .fault layout limit
  | record layout limit => exact .record layout limit

/-- Under a narrower limit a buffer is taken apart into the same parts, or these are cut off where
the limit is exceeded. -/
theorem cut_split (le : narrow ≤ wide) (cursor : Cursor) :
    Cut (split narrow cursor) (split wide cursor) := by
  fun_induction split narrow cursor with
  | case1 cursor ended =>
    have parts : split wide cursor = ([], none) := by
      unfold split
      rw [if_pos ended]
    rw [parts]
    exact .same _
  | case2 cursor more broken found =>
    have more : cursor.rest.isEmpty = false := by simpa using more
    rcases nextRecord_narrow le cursor with same |
      ⟨key, error, layout, limit, failed, ⟨other, failed'⟩ | ⟨slice, raw, finish, found'⟩⟩
    · rw [split_of_error more (same ▸ found)]
      exact .same _
    · obtain rfl := Except.error.inj (found.symm.trans failed)
      rw [split_of_error more failed']
      exact .fault layout limit
    · obtain rfl := Except.error.inj (found.symm.trans failed)
      rw [split_of_ok found', ← List.nil_append (_ :: _)]
      exact .record layout limit
  | case3 cursor more record finish found rest broken again ih =>
    rcases nextRecord_narrow le cursor with same | ⟨key, error, -, -, failed, -⟩
    · rw [split_of_ok (same ▸ found)]
      rw [again] at ih
      exact ih.cons record
    · rw [found] at failed
      cases failed

end Protobuf.Wire
