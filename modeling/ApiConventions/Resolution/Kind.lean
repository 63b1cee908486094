/-!
# ApiConventions.Resolution.Kind

The kinds of types once every name has been looked through: a basic type, a composite type, or
an opaque type of which nothing is known.
-/

namespace ApiConventions

/-- The predeclared basic types. -/
inductive BasicKind where
  | bool
  | string
  | int
  | int8
  | int16
  | int32
  | int64
  | uint
  | uint8
  | uint16
  | uint32
  | uint64
  | uintptr
  | float32
  | float64
  | complex64
  | complex128
deriving DecidableEq, Repr

namespace BasicKind

def all : List BasicKind :=
  [.bool, .string, .int, .int8, .int16, .int32, .int64, .uint, .uint8, .uint16, .uint32, .uint64,
    .uintptr, .float32, .float64, .complex64, .complex128]

def name : BasicKind → String
  | .bool => "bool"
  | .string => "string"
  | .int => "int"
  | .int8 => "int8"
  | .int16 => "int16"
  | .int32 => "int32"
  | .int64 => "int64"
  | .uint => "uint"
  | .uint8 => "uint8"
  | .uint16 => "uint16"
  | .uint32 => "uint32"
  | .uint64 => "uint64"
  | .uintptr => "uintptr"
  | .float32 => "float32"
  | .float64 => "float64"
  | .complex64 => "complex64"
  | .complex128 => "complex128"

/-- The basic type of a name; `byte` and `rune` are second names. -/
def ofName? (s : String) : Option BasicKind :=
  if s = "byte" then some .uint8
  else if s = "rune" then some .int32
  else all.find? (·.name == s)

def isUnsigned : BasicKind → Bool
  | .uint | .uint8 | .uint16 | .uint32 | .uint64 | .uintptr => true
  | _ => false

def isInteger : BasicKind → Bool
  | .int | .int8 | .int16 | .int32 | .int64 => true
  | b => b.isUnsigned

def isFloat : BasicKind → Bool
  | .float32 | .float64 => true
  | _ => false

end BasicKind

/-- What a type is made of. -/
inductive Kind where
  | basic (basic : BasicKind)
  | slice
  | array
  | map
  | struct
  | interface
  | func
  | chan
  | opaqueType
deriving DecidableEq, Repr

namespace Kind

def name : Kind → String
  | .basic b => b.name
  | .slice => "slice"
  | .array => "array"
  | .map => "map"
  | .struct => "struct"
  | .interface => "interface"
  | .func => "func"
  | .chan => "chan"
  | .opaqueType => "opaque"

/-- The kind of a predeclared name. -/
def predeclared? (s : String) : Option Kind :=
  if s = "any" || s = "error" || s = "comparable" then some .interface
  else (BasicKind.ofName? s).map .basic

/-- A slice or an array. -/
def isList : Kind → Bool
  | .slice | .array => true
  | _ => false

end Kind
end ApiConventions
