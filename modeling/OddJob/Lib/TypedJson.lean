import Mathlib.Logic.Basic

/-! Values that know their types, and texts of them that name the types of objects and
collections but not of primitive values. What is read back has the type of its member, or else
one that the look of its token suggests. -/

namespace TypedJson

/-- A token that stands alone. -/
inductive Token where
  | integer (value : Int)
  | float (text : String)
  | boolean (value : Bool)
  | string (text : String)
  deriving DecidableEq, Repr

mutual

/-- A primitive value is known by its token and its mark: its type where it is a value, and
nothing where it is a text. -/
inductive Tree (CliType Mark : Type) where
  | primitive (mark : Mark) (token : Token)
  | object (type : CliType) (members : Members CliType Mark)

/-- The members of an object or the items of a collection; those that are null are left out. -/
inductive Members (CliType Mark : Type) where
  | nil
  /-- a primitive value in a member of its own type -/
  | declared (name : String) (type : CliType) (token : Token) (rest : Members CliType Mark)
  /-- an object, or a primitive value in a member that may hold anything -/
  | member (name : String) (value : Tree CliType Mark) (rest : Members CliType Mark)

end

deriving instance DecidableEq for Tree, Members

variable {CliType : Type}

/-- A value in memory. -/
abbrev Value (CliType : Type) : Type := Tree CliType CliType

/-- A value in a text. -/
abbrev Text (CliType : Type) : Type := Tree CliType Unit

/-- The types that bare tokens are read as, and how a double and a date are written again. -/
structure Primitives (CliType : Type) where
  int64 : CliType
  bigInteger : CliType
  double : CliType
  boolean : CliType
  string : CliType
  dateTime : CliType
  /-- the text of the double that is nearest to a number -/
  nearest : String → String
  /-- the text of the date that a string looks like -/
  date : String → Option String

namespace Primitives

variable (primitives : Primitives CliType)

/-- The type of an integer. -/
def integer (value : Int) : CliType :=
  if -9223372036854775808 ≤ value ∧ value ≤ 9223372036854775807 then primitives.int64
  else primitives.bigInteger

/-- What a bare token is read as where any type would do. -/
def scalar : Token → CliType × Token
  | .integer value => (primitives.integer value, .integer value)
  | .float text => (primitives.double, .float (primitives.nearest text))
  | .boolean value => (primitives.boolean, .boolean value)
  | .string text =>
    match primitives.date text with
    | none => (primitives.string, .string text)
    | some written => (primitives.dateTime, .string written)

/-- The type is the one that the token suggests. -/
def Native (type : CliType) : Token → Prop
  | .integer value => type = primitives.integer value
  | .float text => type = primitives.double ∧ primitives.nearest text = text
  | .boolean _ => type = primitives.boolean
  | .string text =>
    match primitives.date text with
    | none => type = primitives.string
    | some written => type = primitives.dateTime ∧ written = text

theorem scalar_eq_iff {type : CliType} {token : Token} :
    primitives.scalar token = (type, token) ↔ primitives.Native type token := by
  cases token with
  | string text =>
    rw [scalar, Native]
    cases primitives.date text <;> simp [eq_comm]
  | _ => simp [scalar, Native, eq_comm]

end Primitives

mutual

/-- Forget the types of primitive values. -/
def Tree.write : Value CliType → Text CliType
  | .primitive _ token => .primitive () token
  | .object type members => .object type members.write

def Members.write : Members CliType CliType → Members CliType Unit
  | .nil => .nil
  | .declared name type token rest => .declared name type token rest.write
  | .member name value rest => .member name value.write rest.write

end

mutual

def Tree.read (primitives : Primitives CliType) : Text CliType → Value CliType
  | .primitive () token => .primitive (primitives.scalar token).1 (primitives.scalar token).2
  | .object type members => .object type (members.read primitives)

def Members.read (primitives : Primitives CliType) :
    Members CliType Unit → Members CliType CliType
  | .nil => .nil
  | .declared name type token rest => .declared name type token (rest.read primitives)
  | .member name value rest => .member name (value.read primitives) (rest.read primitives)

end

mutual

/-- Every primitive value that no member gives a type has the type that its token suggests. -/
def Tree.Survives (primitives : Primitives CliType) : Value CliType → Prop
  | .primitive type token => primitives.Native type token
  | .object _ members => members.Survive primitives

def Members.Survive (primitives : Primitives CliType) : Members CliType CliType → Prop
  | .nil => True
  | .declared _ _ _ rest => rest.Survive primitives
  | .member _ value rest => value.Survives primitives ∧ rest.Survive primitives

end

mutual

/-- A value comes back as it was exactly where it survives. -/
theorem Tree.read_write_iff (primitives : Primitives CliType) (value : Value CliType) :
    value.write.read primitives = value ↔ value.Survives primitives := by
  cases value with
  | primitive type token =>
    rw [Tree.Survives, ← primitives.scalar_eq_iff]
    simp [Tree.write, Tree.read, Prod.ext_iff]
  | object type members =>
    rw [Tree.Survives, ← members.read_write_iff primitives]
    simp [Tree.write, Tree.read]

theorem Members.read_write_iff (primitives : Primitives CliType)
    (members : Members CliType CliType) :
    members.write.read primitives = members ↔ members.Survive primitives := by
  cases members with
  | nil => simp [Members.write, Members.read, Members.Survive]
  | declared name type token rest =>
    rw [Members.Survive, ← rest.read_write_iff primitives]
    simp [Members.write, Members.read]
  | member name value rest =>
    rw [Members.Survive, ← value.read_write_iff primitives, ← rest.read_write_iff primitives]
    simp [Members.write, Members.read]

end

end TypedJson
