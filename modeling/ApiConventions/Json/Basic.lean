import ApiConventions.Number.Decimal

/-!
# ApiConventions.Json.Basic

JSON values. An object keeps its members in the order in which they are written, repeated keys
included, and a number keeps the difference between an integer and a decimal spelling.

`unreadable` stands for a piece of text that is well formed but denotes no value: a string with
half a surrogate pair, a number too large for double precision, or a value nested too deeply.
Such a piece does no harm where it is skipped, and makes every decoder that looks at it fail.
-/

namespace ApiConventions

inductive Json where
  | null
  | bool (value : Bool)
  | integer (value : Int)
  | decimal (value : Number.Decimal)
  | string (value : String)
  | array (items : List Json)
  | object (members : List (String × Json))
  | unreadable
deriving Repr, Inhabited

namespace Json

def ofNat (n : Nat) : Json :=
  .integer n

def ofStrings (items : List String) : Json :=
  .array (items.map .string)

/-- An absent value is written as `null`. -/
def ofOption {α : Type} (encode : α → Json) : Option α → Json
  | none => .null
  | some a => encode a

/-! ## Looking into a value -/

def string? : Json → Option String
  | .string s => some s
  | _ => none

def bool? : Json → Option Bool
  | .bool b => some b
  | _ => none

def array? : Json → Option (List Json)
  | .array items => some items
  | _ => none

def object? : Json → Option (List (String × Json))
  | .object members => some members
  | _ => none

/-- An unsigned 64-bit integer; a decimal spelling such as `1.0` is none. -/
def uint64? : Json → Option UInt64
  | .integer n => if 0 ≤ n ∧ n.toNat ≤ Number.maxUInt64 then some (UInt64.ofNat n.toNat) else none
  | _ => none

/-- Every item read by `decode`, or nothing when one of them cannot be. -/
def list? {α : Type} (decode : Json → Option α) (j : Json) : Option (List α) :=
  j.array?.bind (·.mapM decode)

/-- `null` is an absent value, and anything else is read by `decode`. -/
def nullable? {α : Type} (decode : Json → Option α) : Json → Option (Option α)
  | .null => some none
  | j => (decode j).map some

/-- The value of the last member with this key. -/
def member? (key : String) (j : Json) : Option Json :=
  j.object?.bind fun members => (members.findRev? (·.1 == key)).map (·.2)

mutual
/-- Whether no part of the value is unreadable. -/
def isReadable : Json → Bool
  | .unreadable => false
  | .array items => allReadable items
  | .object members => membersReadable members
  | _ => true

def allReadable : List Json → Bool
  | [] => true
  | j :: rest => isReadable j && allReadable rest

def membersReadable : List (String × Json) → Bool
  | [] => true
  | (_, j) :: rest => isReadable j && membersReadable rest
end

mutual
/-- The number of values nested inside one another on the longest path. -/
def height : Json → Nat
  | .array items => listHeight items + 1
  | .object members => membersHeight members + 1
  | _ => 1

def listHeight : List Json → Nat
  | [] => 0
  | j :: rest => max (height j) (listHeight rest)

def membersHeight : List (String × Json) → Nat
  | [] => 0
  | (_, j) :: rest => max (height j) (membersHeight rest)
end

end Json
end ApiConventions
