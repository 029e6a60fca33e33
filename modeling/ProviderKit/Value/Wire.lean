import ProviderKit.Json.Printer
import ProviderKit.Value.Decode

/-!
# Values on the wire

A payload carries a value in one of two encodings, of which only JSON is read and
written.  A payload with no bytes at all means null.
-/

namespace ProviderKit

/-- A value as the protocol carries it; an encoding that is not used is empty. -/
structure DynamicValue where
  json : ByteArray
  msgpack : ByteArray

namespace DynamicValue

def empty : DynamicValue :=
  ⟨ByteArray.empty, ByteArray.empty⟩

def ofText (text : String) : DynamicValue :=
  ⟨text.toUTF8, ByteArray.empty⟩

/-- Decode a payload against a type. -/
def decode (payload : DynamicValue) (type : AttributeType) : Except ValueError Value :=
  if payload.json.isEmpty then
    if payload.msgpack.isEmpty then .ok .null else .error .unsupportedEncoding
  else
    match Json.parseBytes payload.json with
    | .ok json => Value.ofJson type json
    | .error cause => .error (.malformed cause)

def encode (value : Value) : DynamicValue :=
  ofText value.toJson.compact

end DynamicValue
end ProviderKit
