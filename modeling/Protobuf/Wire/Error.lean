/-! # Wire errors

What can be wrong with bytes on the wire. Every error has the offset, within the outermost input,
of the read that failed. -/

namespace Protobuf.Wire

/-- What a limit is put on. -/
inductive Quantity
  | lengthPrefix
  | messageSize
  | nestingDepth
deriving DecidableEq, Repr

/-- The words for what a limit is put on. -/
def Quantity.describe : Quantity → String
  | .lengthPrefix => "length prefix"
  | .messageSize => "message size"
  | .nestingDepth => "nesting depth"

/-- A fault of the bytes, or a limit they exceed. -/
inductive Error
  | malformedVarint (offset : Nat)
  | truncated (offset needed remaining : Nat)
  | limitExceeded (offset : Nat) (what : Quantity) (limit actual : Nat)
  | invalidTag (offset key : Nat)
  | unsupportedWireType (offset wireType : Nat)
  | invalidUtf8 (offset : Nat)
deriving DecidableEq, Repr

namespace Error

/-- Where the read that failed started. -/
def offset : Error → Nat
  | .malformedVarint offset => offset
  | .truncated offset _ _ => offset
  | .limitExceeded offset _ _ _ => offset
  | .invalidTag offset _ => offset
  | .unsupportedWireType offset _ => offset
  | .invalidUtf8 offset => offset

/-- The words for an error. -/
def message : Error → String
  | .malformedVarint offset => "malformed varint at offset " ++ toString offset
  | .truncated offset needed remaining =>
    "truncated input at offset " ++ toString offset ++ ": needed " ++ toString needed ++
      " bytes, " ++ toString remaining ++ " remaining"
  | .limitExceeded offset what limit actual =>
    what.describe ++ " of " ++ toString actual ++ " at offset " ++ toString offset ++
      " exceeds the limit of " ++ toString limit
  | .invalidTag offset key =>
    "invalid tag key " ++ toString key ++ " at offset " ++ toString offset
  | .unsupportedWireType offset wireType =>
    "unsupported wire type " ++ toString wireType ++ " at offset " ++ toString offset
  | .invalidUtf8 offset => "invalid UTF-8 in string at offset " ++ toString offset

end Error

end Protobuf.Wire
