/-
# Failures

A value is *rejected* when it does not map to or from a machine type; callers
are expected to handle that, and a rejection has a message.  A *defect* is a
misuse or a condition that no caller handles, and ends the run; a rejection whose
message cannot be written is one too.
-/

import MachineCatalog.Value.Text
import MachineCatalog.Yaml.Problem

namespace MachineCatalog

/-- The kinds of resources that a URL can name. -/
inductive ResourceKind where
  | zone
  | machineType
deriving DecidableEq

/-- The kind as messages call it. -/
def ResourceKind.label : ResourceKind → Text
  | .zone => "zone"
  | .machineType => "machine type"

/-- Why a value does not map to or from a machine type. -/
inductive Rejection where
  | malformedUrl (value : Value) (expected : ResourceKind)
  | malformedTimestamp (value : Value)
  | malformedId (value : Value)
  | missingField (field owner : Text)
  | unknownStatus (value : Value)
  | invalidField (field owner expected : Text)
  | timestampRange (value : Value)
  | notAnInteger (text : Text)

/-- The message of a rejection. -/
def Rejection.message : Rejection → Text
  | .malformedUrl value expected =>
    "'" ++ value.toText ++ "' is not a valid " ++ expected.label ++ " URL"
  | .malformedTimestamp value => "'" ++ value.toText ++ "' is not an ISO-8601 timestamp"
  | .malformedId value => "'" ++ value.toText ++ "' is not a decimal resource id"
  | .missingField field owner => owner ++ " is missing required field '" ++ field ++ "'"
  | .unknownStatus value => "'" ++ value.toText ++ "' is not a known deprecation state"
  | .invalidField field owner expected => owner ++ " field '" ++ field ++ "' is not " ++ expected
  | .timestampRange value =>
    value.toText ++ " is outside the representable timestamp range (years 1-9999)"
  | .notAnInteger text => "'" ++ text ++ "' is not an integer"

/-- The value that the message of a rejection shows. -/
def Rejection.value? : Rejection → Option Value
  | .malformedUrl value _ => some value
  | .malformedTimestamp value => some value
  | .malformedId value => some value
  | .unknownStatus value => some value
  | .timestampRange value => some value
  | .missingField _ _ => none
  | .invalidField _ _ _ => none
  | .notAnInteger _ => none

/-- What no caller handles. -/
inductive Defect where
  /-- Milliseconds that are no number. -/
  | notMillis (value : Value)
  /-- Milliseconds that are NaN. -/
  | nanMillis
  /-- An integer with more than `Text.decimalDigitLimit` digits, which is neither
  read from its decimal text nor written. -/
  | longInteger
  /-- Scratch disk sizes that are no sequence. -/
  | notSequence (value : Value)
  /-- The items of an aggregated list that are not kept by scope. -/
  | notScopes (value : Value)
  /-- A zone that is not a text. -/
  | notZone (value : Value)
  /-- A value in a JSON report that has no JSON form. -/
  | noJsonForm
  /-- A collection in a JSON report that holds itself. -/
  | circular
  /-- A document nested deeper than can be read. -/
  | tooDeep
  /-- A text with half of a surrogate pair, which UTF-8 cannot write. -/
  | unpairedHalf
  /-- A settings file that is not UTF-8. -/
  | undecodable
  /-- A scalar in a YAML file that does not fit its tag. -/
  | unfitScalar (problem : Yaml.Problem)
  /-- A path that no file can have. -/
  | impossiblePath
  /-- A text for a terminal whose marks do not fit together. -/
  | unfitMarks

/-- A failure of either sort. -/
inductive Failure where
  | rejected (why : Rejection)
  | defect (what : Defect)

/-- Ends a computation with a defect. -/
def abort {α : Type} (what : Defect) : Except Failure α := .error (.defect what)

/-- Ends a computation with a rejection, if its message can be written. -/
def reject {α : Type} (why : Rejection) : Except Failure α :=
  if why.value?.any Value.holdsLongInteger then abort .longInteger else .error (.rejected why)

end MachineCatalog
