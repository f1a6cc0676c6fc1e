import OddJob.Creator
import OddJob.Lib.Expression
import Mathlib.Data.List.Infix

/-! The nodes of the predicate expressions that the query helpers take apart and put
together, and what they evaluate to. -/

namespace OddJob.Helpers

inductive Value (Object : Type) where
  | null
  | bool (value : Bool)
  | text (value : String)
  /-- an enumerable of strings, none of them null -/
  | texts (values : List String)
  | object (value : Object)

abbrev Outcome (Object : Type) : Type := Except ClrException (Value Object)

/-- The methods of `ExprHelpers`. -/
inductive LikeMethod where
  | likeAny
  | likeAll
  | likeAnyLower
  | likeAllLower
  | likeAnyUpper
  | likeAllUpper
  deriving DecidableEq, Repr

namespace LikeMethod

def name : LikeMethod → String
  | likeAny => "LikeAny"
  | likeAll => "LikeAll"
  | likeAnyLower => "LikeAnyLower"
  | likeAllLower => "LikeAllLower"
  | likeAnyUpper => "LikeAnyUpper"
  | likeAllUpper => "LikeAllUpper"

/-- The method goes through its set with `All`, and not with `Any`. -/
def requireAll : LikeMethod → Bool
  | likeAll | likeAllLower | likeAllUpper => true
  | likeAny | likeAnyLower | likeAnyUpper => false

end LikeMethod

inductive Method where
  | like (method : LikeMethod)
  | contains
  | toLower
  | toUpper
  deriving DecidableEq, Repr

inductive NodeKind (Member Other Object : Type) where
  | andAlso
  | orElse
  | equal
  | constant (value : Value Object)
  /-- the field of an `ExpressionScopedVariables` constant -/
  | scopedVariable (value : Value Object)
  | member (member : Member)
  | newArrayInit
  | call (method : Method)
  | other (kind : Other)

/-- What the helpers leave to the runtime and to the row type. -/
structure Platform (Member Other Scope Object : Type) where
  toLower : String → String
  toUpper : String → String
  toText : Value Object → String
  equal : Value Object → Value Object → Bool
  newArray : List (Value Object) → Value Object
  member : Member → List (Outcome Object) → Outcome Object
  other : Other → List (Outcome Object) → Outcome Object
  scope : Scope → Nat → ((Nat → Outcome Object) → Outcome Object) → Outcome Object

section Connectives

/-- `AndAlso`, or `OrElse` where all need not be true: the right side is looked at only
where the left one does not decide. -/
def shortCircuit (trueAnd : Bool) (left right : Except ClrException Bool) :
    Except ClrException Bool :=
  match left with
  | .error exception => .error exception
  | .ok value => if value = trueAnd then right else .ok value

/-- The predicates one after another. -/
def allInOrder (trueAnd : Bool) (outcomes : List (Except ClrException Bool)) :
    Except ClrException Bool :=
  outcomes.foldr (shortCircuit trueAnd) (.ok trueAnd)

variable {trueAnd : Bool}

theorem shortCircuit_assoc (first second third : Except ClrException Bool) :
    shortCircuit trueAnd (shortCircuit trueAnd first second) third =
      shortCircuit trueAnd first (shortCircuit trueAnd second third) := by
  cases first with
  | error exception => rfl
  | ok value =>
    by_cases undecided : value = trueAnd
    · simp [shortCircuit, undecided]
    · simp [shortCircuit, undecided]

theorem shortCircuit_unit (outcome : Except ClrException Bool) :
    shortCircuit trueAnd outcome (.ok trueAnd) = outcome := by
  cases outcome with
  | error exception => rfl
  | ok value =>
    by_cases undecided : value = trueAnd
    · simp [shortCircuit, undecided]
    · simp [shortCircuit, undecided]

theorem allInOrder_ok (truths : List Bool) :
    allInOrder trueAnd (truths.map .ok) =
      .ok (if trueAnd then truths.all id else truths.any id) := by
  induction truths with
  | nil => cases trueAnd <;> rfl
  | cons first rest ih =>
    rw [allInOrder] at ih
    rw [allInOrder, List.map_cons, List.foldr_cons, ih]
    cases trueAnd <;> cases first <;> simp [shortCircuit]

end Connectives

def asBool {Object : Type} : Outcome Object → Except ClrException Bool
  | .ok (.bool value) => .ok value
  | .ok _ => .error .invalidOperation
  | .error exception => .error exception

def ofBool {Object : Type} : Except ClrException Bool → Outcome Object
  | .ok value => .ok (.bool value)
  | .error exception => .error exception

@[simp] theorem asBool_ofBool {Object : Type} (outcome : Except ClrException Bool) :
    asBool (ofBool outcome : Outcome Object) = outcome := by
  cases outcome <;> rfl

/-- `String.Contains`: an ordinal comparison. -/
def textContains (text part : String) : Bool :=
  part.toList <:+: text.toList

def contains {Object : Type} : Outcome Object → Outcome Object → Except ClrException Bool
  | .error exception, _ => .error exception
  | .ok _, .error exception => .error exception
  | .ok .null, .ok _ => .error .nullReference
  | .ok (.text _), .ok .null => .error .argumentNull
  | .ok (.text text), .ok (.text part) => .ok (textContains text part)
  | .ok _, .ok _ => .error .invalidOperation

/-- `ToLower()` and `ToUpper()` on what may be null. -/
def mapText {Object : Type} (fold : String → String) : Outcome Object → Outcome Object
  | .error exception => .error exception
  | .ok .null => .error .nullReference
  | .ok (.text text) => .ok (.text (fold text))
  | .ok _ => .error .invalidOperation

namespace Platform

variable {Member Other Scope Object : Type} (platform : Platform Member Other Scope Object)

/-- What a method of `ExprHelpers` does to both strings before it compares them. -/
def fold : LikeMethod → String → String
  | .likeAny | .likeAll => id
  | .likeAnyLower | .likeAllLower => platform.toLower
  | .likeAnyUpper | .likeAllUpper => platform.toUpper

/-- The lambda in a method of `ExprHelpers`. -/
def likeTest (method : LikeMethod) (myString : Value Object) (s : String) :
    Except ClrException Bool :=
  match method with
  | .likeAny | .likeAll => contains (.ok myString) (.ok (.text s))
  | _ => contains (mapText (platform.fold method) (.ok myString))
      (.ok (.text (platform.fold method s)))

/-- `likeSet.Any(..)` or `likeSet.All(..)` -/
def like (method : LikeMethod) (myString likeSet : Value Object) : Except ClrException Bool :=
  match likeSet with
  | .texts values =>
    allInOrder method.requireAll (values.map (platform.likeTest method myString))
  | .null => .error .argumentNull
  | _ => .error .invalidOperation

/-- An array of strings, or any other. -/
def arrayOf (values : List (Value Object)) : Value Object :=
  match values.mapM fun value => match value with
    | .text text => some text
    | _ => none with
  | some texts => .texts texts
  | none => platform.newArray values

def node : NodeKind Member Other Object → List (Outcome Object) → Outcome Object
  | .andAlso, [left, right] => ofBool (shortCircuit true (asBool left) (asBool right))
  | .orElse, [left, right] => ofBool (shortCircuit false (asBool left) (asBool right))
  | .equal, [left, right] =>
    match left, right with
    | .error exception, _ | .ok _, .error exception => .error exception
    | .ok (.bool left), .ok (.bool right) => .ok (.bool (left == right))
    | .ok left, .ok right => .ok (.bool (platform.equal left right))
  | .constant value, _ | .scopedVariable value, _ => .ok value
  | .member member, outcomes => platform.member member outcomes
  | .newArrayInit, outcomes => (outcomes.mapM (m := Except ClrException) id).map platform.arrayOf
  | .call (.like method), [myString, likeSet] =>
    match myString, likeSet with
    | .error exception, _ | .ok _, .error exception => .error exception
    | .ok myString, .ok likeSet => ofBool (platform.like method myString likeSet)
  | .call .contains, [text, part] => ofBool (contains text part)
  | .call .toLower, [text] => mapText platform.toLower text
  | .call .toUpper, [text] => mapText platform.toUpper text
  | .other kind, outcomes => platform.other kind outcomes
  | _, _ => .error .invalidOperation

def meaning : Meaning (NodeKind Member Other Object) Scope (Outcome Object) where
  node := platform.node
  scope := platform.scope

theorem arrayOf_texts (texts : List String) :
    platform.arrayOf (texts.map .text) = .texts texts := by
  have all : (texts.map Value.text).mapM (fun value : Value Object => match value with
      | .text text => some text
      | _ => none) = some texts := by
    induction texts with
    | nil => rfl
    | cons first rest ih => simp [ih]
  rw [arrayOf, all]

theorem node_newArrayInit (texts : List String) :
    platform.node .newArrayInit (texts.map fun text => .ok (.text text)) =
      .ok (.texts texts) := by
  have all : (texts.map fun text => (.ok (.text text) : Outcome Object)).mapM
      (m := Except ClrException) id = .ok (texts.map .text) := by
    induction texts with
    | nil => rfl
    | cons first rest ih =>
      rw [List.map_cons, List.mapM_cons, ih]
      rfl
  exact (congrArg (Except.map platform.arrayOf) all).trans
    (congrArg Except.ok (platform.arrayOf_texts texts))

theorem node_equal_true (outcome : Except ClrException Bool) :
    platform.node .equal [ofBool outcome, .ok (.bool true)] = ofBool outcome := by
  cases outcome with
  | error exception => rfl
  | ok value => cases value <;> rfl

end Platform

/-- Rows that are a name, and nested lambdas that are tried on `"a"`. -/
def namePlatform : Platform Unit Empty Unit Unit where
  toLower text := String.ofList (text.toList.map Char.toLower)
  toUpper text := String.ofList (text.toList.map Char.toUpper)
  toText _ := "System.String[]"
  equal _ _ := false
  newArray _ := .null
  member _ outcomes := outcomes.headD (.error .invalidOperation)
  other kind _ := kind.elim
  scope _ _ body := body fun _ => .ok (.text "a")

end OddJob.Helpers
