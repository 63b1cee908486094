import ApiConventions.Json.Basic

/-!
# ApiConventions.Config.Setting

Configuration values, whatever notation they are written in. A record among them is a table, or
a list that gives its fields by position. A choice is a word, or a table whose only key is the
word and whose value is empty.
-/

namespace ApiConventions

inductive Setting where
  | null
  | bool (value : Bool)
  | integer (value : Int)
  | float (value : Number.Binary64)
  | text (value : String)
  | list (items : List Setting)
  | table (entries : List (String × Setting))
deriving Repr, Inhabited

namespace Setting

mutual
/-- The configuration value of a JSON value; an unreadable value is none. -/
def ofJson? : Json → Option Setting
  | .null => some .null
  | .bool b => some (.bool b)
  | .integer n => some (.integer n)
  | .decimal d => some (.float d.toBinary64)
  | .string s => some (.text s)
  | .array items => (itemsOfJson? items).map .list
  | .object members => (entriesOfJson? members).map .table
  | .unreadable => none

def itemsOfJson? : List Json → Option (List Setting)
  | [] => some []
  | j :: rest =>
    match ofJson? j, itemsOfJson? rest with
    | some item, some items => some (item :: items)
    | _, _ => none

def entriesOfJson? : List (String × Json) → Option (List (String × Setting))
  | [] => some []
  | (key, j) :: rest =>
    match ofJson? j, entriesOfJson? rest with
    | some value, some entries => some ((key, value) :: entries)
    | _, _ => none
end

mutual
/-- Whether a value is one that an option may have: no `null`, and integers of 64 bits only. -/
def isPlain : Setting → Bool
  | .null => false
  | .integer n => Number.fitsInt64 n
  | .list items => allPlain items
  | .table entries => entriesPlain entries
  | _ => true

def allPlain : List Setting → Bool
  | [] => true
  | s :: rest => s.isPlain && allPlain rest

def entriesPlain : List (String × Setting) → Bool
  | [] => true
  | (_, s) :: rest => s.isPlain && entriesPlain rest
end

def bool? : Setting → Option Bool
  | .bool b => some b
  | _ => none

def int? : Setting → Option Int
  | .integer n => some n
  | _ => none

/-- An unsigned 64-bit integer. -/
def uint64? : Setting → Option UInt64
  | .integer n => if 0 ≤ n ∧ n.toNat ≤ Number.maxUInt64 then some (UInt64.ofNat n.toNat) else none
  | _ => none

def text? : Setting → Option String
  | .text s => some s
  | _ => none

def list? : Setting → Option (List Setting)
  | .list items => some items
  | _ => none

def table? : Setting → Option (List (String × Setting))
  | .table entries => some entries
  | _ => none

/-- A list of texts and nothing else. -/
def texts? (s : Setting) : Option (List String) :=
  s.list?.bind (·.mapM text?)

def isEmpty : Setting → Bool
  | .null => true
  | .list items => items.isEmpty
  | .table entries => entries.isEmpty
  | _ => false

/-- The word of a choice. -/
def word? : Setting → Option String
  | .text s => some s
  | .table [(key, value)] => if value.isEmpty then some key else none
  | _ => none

/-- The fields of a record that are present. -/
def fields? (names : List String) : Setting → Option (List (String × Setting))
  | .table entries => some (entries.filter (names.contains ·.1))
  | .list items => if items.length ≤ names.length then some (names.zip items) else none
  | _ => none

/-- A field of a record with a value for when it is absent. -/
def field? {α : Type} (fields : List (String × Setting)) (name : String) (default : α)
    (decode : Setting → Option α) : Option α :=
  match fields.lookup name with
  | none => some default
  | some s => decode s

/-- `null` is an absent value. -/
def nullable? {α : Type} (decode : Setting → Option α) : Setting → Option (Option α)
  | .null => some none
  | s => (decode s).map some

end Setting
end ApiConventions
