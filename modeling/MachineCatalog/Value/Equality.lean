/-
# Sameness of values

Numbers are the same when they denote the same number, whatever their form:
`1`, `1.0` and `true` are one number, and so are `0`, `-0.0` and `false`.  The
comparison is exact.  NaN is the same as NaN, so that every value is the same as
itself.  Lists are compared member by member; two mappings are the same when they
have the same keys with the same values, in any order.  Knots are the same when
their labels and bodies are.  Values nested to any depth are compared: that the stack
of calls has a limit is left out here.
-/

import MachineCatalog.Value.Basic

namespace MachineCatalog

/-- A number compared exactly: a finite one in the units of `Binary64`. -/
inductive Quantity where
  | finite (units : Int)
  | infinity (negative : Bool)
deriving DecidableEq

namespace Value

/-- The quantity that a number denotes; none for NaN and for what is no number. -/
def quantity? : Value → Option Quantity
  | .bool b => some (.finite (if b then Binary64.one else 0))
  | .int n => some (.finite (n * Binary64.one))
  | .float x =>
    match x.units?, x with
    | some u, _ => some (.finite u)
    | none, .signed negative _ => some (.infinity negative)
    | none, .nan => none
  | _ => none

/-- Both denote a quantity, and the same one. -/
def sameQuantity (v w : Value) : Bool :=
  match v.quantity?, w.quantity? with
  | some p, some q => p = q
  | _, _ => false

/-- Whether a value is NaN. -/
def isNan : Value → Bool
  | .float .nan => true
  | _ => false

mutual

/-- Whether two values are the same. -/
def same : Value → Value → Bool
  | .null, w => w.isNull
  | .bool b, w => sameQuantity (.bool b) w
  | .int n, w => sameQuantity (.int n) w
  | .float x, w => (x = .nan && w.isNan) || sameQuantity (.float x) w
  | .text s, w => w.isText s
  | .octets bs, w => match w with | .octets cs => bs = cs | _ => false
  | .date d, w => match w with | .date e => d = e | _ => false
  | .moment m, w => match w with | .moment n => m.agrees n | _ => false
  | .list xs, w => match w with | .list ys => sameItems xs ys | _ => false
  | .pair a b, w => match w with | .pair c d => same a c && same b d | _ => false
  | .set xs, w =>
    match w with
    | .set ys => xs.length = ys.length && subset xs ys
    | _ => false
  | .mapping es, w =>
    match w with
    | .mapping fs => es.length = fs.length && subEntries es fs
    | _ => false
  | .knot l a, w => match w with | .knot m b => l = m && same a b | _ => false
  | .back l, w => match w with | .back m => l = m | _ => false

/-- Whether two lists have the same members in the same order. -/
def sameItems : List Value → List Value → Bool
  | [], ys => ys.isEmpty
  | x :: xs, ys => match ys with | [] => false | y :: ys' => same x y && sameItems xs ys'

/-- Whether every value of the first list is in the second. -/
def subset : List Value → List Value → Bool
  | [], _ => true
  | x :: xs, ys => ys.any (fun y => same x y) && subset xs ys

/-- Whether every entry of the first list is in the second. -/
def subEntries : List (Value × Value) → List (Value × Value) → Bool
  | [], _ => true
  | (k, v) :: es, fs => fs.any (fun f => same k f.1 && same v f.2) && subEntries es fs

end

/-- Puts a value under a key: a key that is there keeps its place. -/
def put (key value : Value) : List (Value × Value) → List (Value × Value)
  | [] => [(key, value)]
  | (k, v) :: es => if k.same key then (k, value) :: es else (k, v) :: put key value es

end Value
end MachineCatalog
