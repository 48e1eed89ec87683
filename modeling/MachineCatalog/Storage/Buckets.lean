/-
# Buckets of objects

A store keeps objects by bucket and by name.
-/

import MachineCatalog.Text.Basic

namespace MachineCatalog
namespace Storage

/-- A list of named things, each name once. -/
abbrev Named (α : Type) := List (Text × α)

namespace Named

/-- The thing of the given name. -/
def get? {α : Type} (xs : Named α) (name : Text) : Option α :=
  (xs.find? fun x => x.1 = name).map (·.2)

/-- Puts a thing under a name, in its place if the name is there. -/
def put {α : Type} (name : Text) (a : α) : Named α → Named α
  | [] => [(name, a)]
  | x :: xs => if x.1 = name then (name, a) :: xs else x :: put name a xs

/-- Removes a name. -/
def erase {α : Type} (name : Text) (xs : Named α) : Named α := xs.filter fun x => x.1 ≠ name

end Named

/-- The objects of all buckets: bucket, name and content. -/
abbrev Buckets := Named (Named Text)

namespace Buckets

/-- The content of an object. -/
def content? (bs : Buckets) (bucket name : Text) : Option Text :=
  (bs.get? bucket).bind fun objects => objects.get? name

/-- Stores an object in a bucket that exists. -/
def store (bs : Buckets) (bucket name content : Text) : Buckets :=
  bs.map fun b => if b.1 = bucket then (b.1, Named.put name content b.2) else b

/-- Removes an object. -/
def remove (bs : Buckets) (bucket name : Text) : Buckets :=
  bs.map fun b => if b.1 = bucket then (b.1, Named.erase name b.2) else b

end Buckets
end Storage
end MachineCatalog
