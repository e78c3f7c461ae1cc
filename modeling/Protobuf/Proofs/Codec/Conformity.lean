import Protobuf.Proofs.Codec.RoundTrip

/-! # What is built conforms

Reading and merging build nothing but messages of their type, and these can always be written. -/

namespace Protobuf.CodecSet

variable {schema : Schema}

/-- Every message that is read is of its type, and merging messages of one type succeeds and gives
one of the type again. So what is read or merged can be written. -/
theorem conforms_decode_merge (accepted : schema.Accepted) (limits : Limits) :
    (∀ name bytes message, ((ofSchema schema).withLimits limits).decode name bytes = .ok message →
      message.typeName = name ∧ schema.Conforms message ∧
        ∃ written, ((ofSchema schema).withLimits limits).encode message = .ok written) ∧
    ∀ left right, schema.Conforms left → schema.Conforms right →
      right.typeName = left.typeName →
      ∃ merged, ((ofSchema schema).withLimits limits).merge left right = .ok merged ∧
        merged.typeName = left.typeName ∧ schema.Conforms merged ∧
        ∃ written, ((ofSchema schema).withLimits limits).encode merged = .ok written := by
  have same := @conforms_ofSchema_iff _ accepted limits
  constructor
  · intro name bytes message done
    obtain ⟨named, conforms⟩ := conforms_of_decode accepted limits done
    exact ⟨named, conforms, exists_encode accepted limits conforms⟩
  · intro left right conforms conforms' sameName
    have coherent := (coherent_ofSchema accepted).withLimits limits
    obtain ⟨merged, done, named, conformsMerged⟩ :=
      mergeable coherent (same.2 conforms) (same.2 conforms') sameName
    have conformsMerged := same.1 conformsMerged
    exact ⟨merged, done, named, conformsMerged, exists_encode accepted limits conformsMerged⟩

/-- A node with a text and a node with a flag merge into a node that can be written. -/
theorem conforms_decode_merge_tree :
    ∃ merged, ((ofSchema .tree).withLimits {}).merge ⟨"Node", [(4, .string "a")], []⟩
        ⟨"Node", [(5, .bool true)], []⟩ = .ok merged ∧
      merged.typeName = "Node" ∧ Schema.tree.Conforms merged ∧
      ∃ written, ((ofSchema .tree).withLimits {}).encode merged = .ok written := by
  obtain ⟨read, merge⟩ := conforms_decode_merge Schema.accepted_tree {}
  obtain ⟨-, left, -⟩ := read "Node" [34, 1, 97] ⟨"Node", [(4, .string "a")], []⟩
    (by with_unfolding_all rfl)
  obtain ⟨-, right, -⟩ := read "Node" [40, 1] ⟨"Node", [(5, .bool true)], []⟩
    (by with_unfolding_all rfl)
  exact merge _ _ left right rfl

end Protobuf.CodecSet
