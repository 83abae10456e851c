import Stockroom.Field.Typed
import Stockroom.Json.Reading
import Stockroom.Product

namespace Stockroom
namespace Product

def toJson (p : Product) : Json :=
  .object [("code", .text p.code), ("name", .text p.name), ("stock_quantity", .integer p.stock),
    ("price_per_unit", .text p.price.toText), ("archived", .bool p.archived),
    ("version", .integer p.version)]

def written (p : Product) : String := p.toJson.compact

/-- How snapshots are written: half of a surrogate pair is refused, and so is deep nesting. -/
def snapshotDialect : Json.Dialect := ⟨200, false⟩

def ofMembers (ms : List (String × Json)) : Checked Product :=
  Product.mk <$> Field.required ms "code" Field.text
    <*> Field.required ms "name" Field.text
    <*> Field.required ms "stock_quantity" Field.int
    <*> Field.required ms "price_per_unit" (Field.decimal .plain)
    <*> Field.optional ms "archived" false Field.bool
    <*> Field.optional ms "version" 0 Field.int

def ofWritten (s : String) : Checked Product :=
  match Json.read snapshotDialect s with
  | .error _ => .issue .jsonInvalid
  | .ok (.object ms) => ofMembers ms
  | .ok _ => .issue .modelType

end Product
end Stockroom
