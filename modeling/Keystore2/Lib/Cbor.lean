/-! CBOR data items (RFC 8949) as a C++ parser hands them over.  Code reads a parsed item
through casts (`asInt`, `asBstr`, ...) that give the item's value when it has the asked type
and a null pointer otherwise; an integer is read through its 64-bit signed value, whatever
major type carried it.  The encoder and the parser are a `Codec`: two functions between items
and bytes, whose one law is that parsing an encoding gives the item back. -/

namespace Cbor

inductive Item
  | int (value : Int64)
  | bstr (value : List UInt8)
  | tstr (value : String)
  | bool (value : Bool)
  /-- A simple value that is not a boolean (null, undefined). -/
  | null
  | array (items : List Item)
  | map (entries : List (Item × Item))

namespace Item

def asInt : Item → Option Int64
  | .int v => some v
  | _ => none

def asBstr : Item → Option (List UInt8)
  | .bstr v => some v
  | _ => none

def asTstr : Item → Option String
  | .tstr v => some v
  | _ => none

/-- A simple value that is a boolean. -/
def asBool : Item → Option Bool
  | .bool v => some v
  | _ => none

def asArray : Item → Option (List Item)
  | .array items => some items
  | _ => none

def asMap : Item → Option (List (Item × Item))
  | .map entries => some entries
  | _ => none

end Item

/-- An encoder and the parser that reads its output back. -/
structure Codec where
  encode : Item → List UInt8
  /-- The first item of the bytes, or nothing when they are not CBOR. -/
  parse : List UInt8 → Option Item
  parse_encode : ∀ item, parse (encode item) = some item

end Cbor
