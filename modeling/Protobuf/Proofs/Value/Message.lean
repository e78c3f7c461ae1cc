import Protobuf.Proofs.Keyed
import Protobuf.Value.Basic

/-! # Fields of messages

How each change of a message answers lookups. A message is determined by its type name, its unknown
records and the answers to lookups, as long as its fields are ordered. -/

namespace Protobuf.MessageOf

variable {α : Type} {message other : MessageOf α} {tag : Nat} {value : α}

@[simp] theorem get?_new (typeName : String) (tag : Nat) :
    (new typeName : MessageOf α).get? tag = none := rfl

theorem get?_set (message : MessageOf α) (tag wanted : Nat) (value : α) :
    (message.set tag value).get? wanted = if wanted = tag then some value else message.get? wanted :=
  Keyed.get?_insert tag wanted value message.fields

@[simp] theorem get?_set_self (message : MessageOf α) (tag : Nat) (value : α) :
    (message.set tag value).get? tag = some value := by
  simp [get?_set]

@[simp] theorem set_set (message : MessageOf α) (tag : Nat) (earlier value : α) :
    (message.set tag earlier).set tag value = message.set tag value := by
  simp only [set, Keyed.insert_insert]

theorem get?_remove (message : MessageOf α) (tag wanted : Nat) :
    (message.remove tag).get? wanted = if wanted = tag then none else message.get? wanted :=
  Keyed.get?_erase tag wanted message.fields

@[simp] theorem get?_addUnknown (message : MessageOf α) (unknown : List Wire.UnknownField)
    (wanted : Nat) : (message.addUnknown unknown).get? wanted = message.get? wanted := rfl

@[simp] theorem typeName_new (typeName : String) :
    (new typeName : MessageOf α).typeName = typeName := rfl

@[simp] theorem typeName_set : (message.set tag value).typeName = message.typeName := rfl

@[simp] theorem typeName_remove : (message.remove tag).typeName = message.typeName := rfl

@[simp] theorem typeName_addUnknown (unknown : List Wire.UnknownField) :
    (message.addUnknown unknown).typeName = message.typeName := rfl

@[simp] theorem unknown_new (typeName : String) :
    (new typeName : MessageOf α).unknown = [] := rfl

@[simp] theorem unknown_set : (message.set tag value).unknown = message.unknown := rfl

@[simp] theorem unknown_remove : (message.remove tag).unknown = message.unknown := rfl

@[simp] theorem unknown_addUnknown (unknown : List Wire.UnknownField) :
    (message.addUnknown unknown).unknown = message.unknown ++ unknown := rfl

@[simp] theorem addUnknown_nil (message : MessageOf α) : message.addUnknown [] = message := by
  simp [addUnknown]

/-- The fields of a message ascend, each tag once. -/
def Ordered (message : MessageOf α) : Prop :=
  Keyed.Ordered message.fields

theorem ordered_new (typeName : String) : (new typeName : MessageOf α).Ordered :=
  List.Pairwise.nil

theorem Ordered.set (ordered : message.Ordered) (tag : Nat) (value : α) :
    (message.set tag value).Ordered :=
  Keyed.Ordered.insert ordered tag value

theorem Ordered.remove (ordered : message.Ordered) (tag : Nat) : (message.remove tag).Ordered :=
  Keyed.Ordered.erase ordered tag

theorem Ordered.addUnknown (ordered : message.Ordered) (unknown : List Wire.UnknownField) :
    (message.addUnknown unknown).Ordered := ordered

theorem Ordered.get?_eq_some_iff (ordered : message.Ordered) :
    message.get? tag = some value ↔ (tag, value) ∈ message.fields :=
  Keyed.Ordered.get?_eq_some_iff ordered

/-- Messages with ordered fields that answer every lookup alike are equal, if all else is. -/
theorem Ordered.ext (ordered : message.Ordered) (ordered' : other.Ordered)
    (typeName : message.typeName = other.typeName) (unknown : message.unknown = other.unknown)
    (same : ∀ tag, message.get? tag = other.get? tag) : message = other := by
  have fields : message.fields = other.fields := Keyed.Ordered.ext ordered ordered' same
  cases message
  cases other
  simp_all

/-- The message with a field set to a value, if there is one. -/
def setIfAny (message : MessageOf α) (tag : Nat) (held : Option α) : MessageOf α :=
  held.elim message (message.set tag)

theorem get?_setIfAny (missing : message.get? tag = none) (held : Option α) (wanted : Nat) :
    (message.setIfAny tag held).get? wanted =
      if wanted = tag then held else message.get? wanted := by
  cases held with
  | none =>
    split
    · rename_i same
      exact same ▸ missing
    · rfl
  | some value => exact get?_set message tag wanted value

theorem Ordered.setIfAny (ordered : message.Ordered) (tag : Nat) (held : Option α) :
    (message.setIfAny tag held).Ordered := by
  cases held with
  | none => exact ordered
  | some value => exact ordered.set tag value

theorem set_setIfAny (held : Option α) (value : α) :
    (message.setIfAny tag held).set tag value = message.setIfAny tag (some value) := by
  cases held with
  | none => rfl
  | some earlier => exact set_set message tag earlier value

@[simp] theorem typeName_setIfAny (held : Option α) :
    (message.setIfAny tag held).typeName = message.typeName := by
  cases held <;> rfl

@[simp] theorem unknown_setIfAny (held : Option α) :
    (message.setIfAny tag held).unknown = message.unknown := by
  cases held <;> rfl

/-- What is left of a message without the fields of some tags. -/
theorem get?_foldl_remove (tags : List Nat) (message : MessageOf α) (wanted : Nat) :
    (tags.foldl remove message).get? wanted =
      if wanted ∈ tags then none else message.get? wanted := by
  induction tags generalizing message with
  | nil => simp
  | cons tag rest ih =>
    rw [List.foldl_cons, ih, get?_remove]
    by_cases later : wanted ∈ rest <;> by_cases here : wanted = tag <;> simp [later, here]

/-- Removing fields keeps everything but the fields. -/
theorem foldl_remove_keeps (tags : List Nat) (message : MessageOf α) :
    (tags.foldl remove message).typeName = message.typeName ∧
      (tags.foldl remove message).unknown = message.unknown ∧
      (message.Ordered → (tags.foldl remove message).Ordered) := by
  induction tags generalizing message with
  | nil => exact ⟨rfl, rfl, id⟩
  | cons tag rest ih =>
    obtain ⟨typeName, unknown, ordered⟩ := ih (message.remove tag)
    exact ⟨typeName, unknown, fun before => ordered (before.remove tag)⟩

/-- Removing fields has nothing to do with unknown records. -/
theorem foldl_remove_addUnknown (tags : List Nat) (message : MessageOf α)
    (unknown : List Wire.UnknownField) :
    tags.foldl remove (message.addUnknown unknown) =
      (tags.foldl remove message).addUnknown unknown := by
  induction tags generalizing message with
  | nil => rfl
  | cons tag rest ih => exact ih (message.remove tag)

end Protobuf.MessageOf
