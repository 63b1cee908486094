import ApiConventions.Constraint.Basic
import ApiConventions.Resolution.Resolve

/-!
# ApiConventions.ZeroValue

Whether the zero value of a type satisfies its constraints, and whether the constraints are
tight enough for that answer to mean something.
-/

namespace ApiConventions

/-- The serialized shape of a type, as far as zero values go. -/
inductive Shape where
  | string
  /-- A slice of bytes, which is serialized as a string. -/
  | bytes
  | bool
  | integer
  | float
  | list
  | map
  | struct
  /-- Interfaces, functions, channels, complex numbers and opaque types. -/
  | other
deriving DecidableEq, Repr

namespace Shape

def all : List Shape :=
  [.string, .bytes, .bool, .integer, .float, .list, .map, .struct, .other]

def name : Shape → String
  | .string => "String"
  | .bytes => "Bytes"
  | .bool => "Bool"
  | .integer => "Integer"
  | .float => "Float"
  | .list => "List"
  | .map => "Map"
  | .struct => "Struct"
  | .other => "Other"

def ofKind : Kind → Shape
  | .basic b =>
    if b.isInteger then .integer
    else if b.isFloat then .float
    else if b = .string then .string
    else if b = .bool then .bool
    else .other
  | .slice => .list
  | .array => .list
  | .map => .map
  | .struct => .struct
  | _ => .other

def ofResolved (r : Resolved) : Shape :=
  if r.isByteSlice then .bytes else ofKind r.kind

/-- The zero value as it appears in messages. -/
def zeroLiteral : Shape → String
  | .string | .bytes => "\"\""
  | .integer | .float => "0"
  | .bool => "false"
  | .list => "[]"
  | .map | .struct | .other => "\x7b\x7d"

/-- The zero value as it appears in an enumeration. -/
def enumLiteral : Shape → String
  | .string | .bytes => ""
  | s => s.zeroLiteral

def isContainer : Shape → Bool
  | .list | .map => true
  | _ => false

end Shape

structure ZeroValidity where
  /-- The zero value satisfies the constraints. -/
  valid : Bool
  /-- The constraints are complete enough to trust `valid`. -/
  complete : Bool
deriving DecidableEq, Repr

namespace ZeroValidity

/-- Validity under a least size: the zero value has size zero. -/
def ofLeastSize : Option Int → ZeroValidity
  | some least => { valid := least ≤ 0, complete := true }
  | none => { valid := true, complete := false }

/-- Validity of a struct: enough members are present, and no required one is left out. -/
def ofStruct (c : Constraints) : ZeroValidity :=
  let shape := c.structShape.getD {}
  let enough := c.minProperties.all fun least => least ≤ (shape.alwaysPresent : Int)
  { valid := shape.omittedRequired.isEmpty && enough
    complete := c.minProperties.isSome || !shape.omittedRequired.isEmpty }

/-- Validity by shape, when there is no enumeration. -/
def ofShape (shape : Shape) (c : Constraints) : ZeroValidity :=
  match shape with
  | .bool => { valid := true, complete := true }
  | .integer | .float =>
    match c.numeric with
    | some bounds => { valid := bounds.containsZero, complete := bounds.isComplete }
    | none => { valid := true, complete := false }
  | .string | .bytes => ofLeastSize c.minLength
  | .list => ofLeastSize c.minItems
  | .map => ofLeastSize c.minProperties
  | .struct => ofStruct c
  | .other => { valid := true, complete := false }

/-- An enumeration decides alone; without one the shape says which constraints apply. -/
def of (shape : Shape) (c : Constraints) : ZeroValidity :=
  match c.enumValues with
  | some values => { valid := values.contains shape.enumLiteral, complete := true }
  | none => ofShape shape c

end ZeroValidity

/-- Whether the zero value of a struct has too few members. -/
def Constraints.failsMinProperties (c : Constraints) : Bool :=
  match c.minProperties with
  | none => false
  | some least => decide (((c.structShape.map (·.alwaysPresent)).getD 0 : Int) < least)

end ApiConventions
