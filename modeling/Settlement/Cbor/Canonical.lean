import Settlement.Cbor.Basic

/-!
# The canonical form of CBOR values

The octets of a value after the entries of every map in it have been put in
the order of their encoded keys (RFC 8949, core deterministic encoding).
Entries whose keys are written alike keep their order.
-/

namespace Settlement.Cbor

/-- Puts an entry in front of the first one whose encoded key is not smaller. -/
def insertEntry (e : Cbor × Cbor) : List (Cbor × Cbor) → List (Cbor × Cbor)
  | [] => [e]
  | f :: rest => if e.1.encode ≤ f.1.encode then e :: f :: rest else f :: insertEntry e rest

/-- Entries in the order of their encoded keys; equal keys keep their order. -/
def sortEntries (entries : List (Cbor × Cbor)) : List (Cbor × Cbor) :=
  entries.foldr insertEntry []

mutual

/-- The value with the entries of every map in it in order. -/
def normalize : Cbor → Cbor
  | .array items => .array (normalizeItems items)
  | .map entries => .map (sortEntries (normalizeEntries entries))
  | .tag number content => .tag number (normalize content)
  | .uint n => .uint n
  | .nint n => .nint n
  | .bytes b => .bytes b
  | .text s => .text s
  | .bool b => .bool b
  | .null => .null
  | .float bits => .float bits

/-- Every value in order within itself. -/
def normalizeItems : List Cbor → List Cbor
  | [] => []
  | item :: rest => normalize item :: normalizeItems rest

/-- Every key and every value in order within itself. -/
def normalizeEntries : List (Cbor × Cbor) → List (Cbor × Cbor)
  | [] => []
  | (key, value) :: rest => (normalize key, normalize value) :: normalizeEntries rest

end

/-- The octets of a value's canonical form. -/
def canonical (v : Cbor) : Octets := v.normalize.encode

end Settlement.Cbor
