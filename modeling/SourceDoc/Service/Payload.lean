/-!
# Payloads

The body of a request is a payload: a value made of texts, numbers, flags, lists and objects.
-/

namespace SourceDoc.Service

/-- A payload. -/
inductive Payload where
  | null
  | flag (value : Bool)
  /-- A number written without point and exponent. -/
  | integer (value : Int)
  /-- A number written with a point or an exponent: its digits, to be divided by ten as often as
  `places` says. -/
  | decimal (digits : Int) (places : Nat)
  | text (value : String)
  | list (items : List Payload)
  /-- The fields of an object, each name once. -/
  | object (fields : List (String × Payload))
  deriving Inhabited

end SourceDoc.Service
