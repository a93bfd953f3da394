import Settlement.Octets.Basic

/-!
# CBOR values and their octets

A value of the data format, and the octets that write it with every head in
its shortest form and every length stated in front. Entries of a map are
written in the order in which they stand; see `Settlement.Cbor.Canonical` for
the form that does not depend on that order.
-/

namespace Settlement

/-- A value of the data format. -/
inductive Cbor where
  /-- The integer `n`. -/
  | uint (n : UInt64)
  /-- The integer `-1 - n`. -/
  | nint (n : UInt64)
  | bytes (b : Octets)
  | text (s : String)
  | array (items : List Cbor)
  | map (entries : List (Cbor × Cbor))
  | tag (number : UInt64) (content : Cbor)
  | bool (b : Bool)
  | null
  /-- The double with the given bits. -/
  | float (bits : UInt64)

namespace Cbor

/-- What an item's first octet says it is. -/
inductive Major where
  | unsigned
  | negative
  | bytes
  | text
  | array
  | map
  | tag
  | simple
deriving DecidableEq, Repr

/-- The number of a major type, written in the three high bits. -/
def Major.code : Major → Nat
  | .unsigned => 0
  | .negative => 1
  | .bytes => 2
  | .text => 3
  | .array => 4
  | .map => 5
  | .tag => 6
  | .simple => 7

/-- The major type with a number below eight. -/
def Major.ofCode : Nat → Major
  | 0 => .unsigned
  | 1 => .negative
  | 2 => .bytes
  | 3 => .text
  | 4 => .array
  | 5 => .map
  | 6 => .tag
  | _ => .simple

@[simp] theorem Major.ofCode_code (major : Major) : ofCode major.code = major := by
  cases major <;> rfl

/-- The first octet of an item: its major type and five further bits. -/
def initial (major : Major) (info : Nat) : UInt8 := UInt8.ofNat (major.code * 32 + info)

/-- The shortest head with the given argument, which has at most 64 bits. -/
def head (major : Major) (n : Nat) : Octets :=
  if n < 24 then [initial major n]
  else if n < 256 then initial major 24 :: Octets.bigEndian 1 n
  else if n < 65536 then initial major 25 :: Octets.bigEndian 2 n
  else if n < 4294967296 then initial major 26 :: Octets.bigEndian 4 n
  else initial major 27 :: Octets.bigEndian 8 n

/-- The octets of a text. -/
def utf8 (s : String) : Octets := s.toUTF8.data.toList

mutual

/-- The octets that write a value. -/
def encode : Cbor → Octets
  | .uint n => head .unsigned n.toNat
  | .nint n => head .negative n.toNat
  | .bytes b => head .bytes b.length ++ b
  | .text s => head .text (utf8 s).length ++ utf8 s
  | .array items => head .array items.length ++ encodeItems items
  | .map entries => head .map entries.length ++ encodeEntries entries
  | .tag number content => head .tag number.toNat ++ encode content
  | .bool b => [initial .simple (if b then 21 else 20)]
  | .null => [initial .simple 22]
  | .float bits => initial .simple 27 :: Octets.bigEndian 8 bits.toNat

/-- The octets of values one after another. -/
def encodeItems : List Cbor → Octets
  | [] => []
  | item :: rest => encode item ++ encodeItems rest

/-- The octets of entries one after another, each key in front of its value. -/
def encodeEntries : List (Cbor × Cbor) → Octets
  | [] => []
  | (key, value) :: rest => encode key ++ encode value ++ encodeEntries rest

end

/-- A signed integer as a value. -/
def int (n : Int64) : Cbor :=
  if 0 ≤ n then .uint n.toUInt64 else .nint (-1 - n).toUInt64

end Cbor

end Settlement
