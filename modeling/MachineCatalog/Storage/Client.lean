/-
# The client of a store

A client performs calls one at a time and keeps a log of them.  One kind of call
may be set to fail; a call that fails is logged and has no other effect.
-/

import MachineCatalog.Storage.Buckets
import MachineCatalog.Value.Basic

namespace MachineCatalog
namespace Storage

/-- The kinds of calls. -/
inductive Stage where
  | connect
  | lookUp
  | copy
  | delete
deriving DecidableEq

/-- A call as it is logged. -/
inductive Call where
  | connect (project : Value)
  | lookUp (bucket name : Text)
  | copy (source name target newName : Text)
  | delete (bucket name : Text)

/-- The kind of a call. -/
def Call.stage : Call → Stage
  | .connect _ => .connect
  | .lookUp _ _ => .lookUp
  | .copy _ _ _ _ => .copy
  | .delete _ _ => .delete

/-- Why a call fails. -/
inductive Refusal where
  /-- A bucket or an object does not exist. -/
  | notFound (message : Text)
  /-- The caller may not do this. -/
  | forbidden (message : Text)
  /-- No credentials are known. -/
  | noCredentials (message : Text)
  /-- The client itself breaks. -/
  | broken
deriving DecidableEq

/-- The message of a refusal: a status code of HTTP, where the store has answered. -/
def Refusal.message : Refusal → Text
  | .notFound message => "404 " ++ message
  | .forbidden message => "403 " ++ message
  | .noCredentials message => message
  | .broken => ""

/-- A kind of call that fails. -/
structure Failing where
  stage : Stage
  refusal : Refusal

/-- A client: its store, its log, and what is set to fail. -/
structure Client where
  buckets : Buckets
  log : List Call
  failing : Option Failing

/-- A computation with a client.  What happened before a refusal has happened. -/
def Session (α : Type) := Client → Client × Except Refusal α

namespace Session

instance : Monad Session where
  pure a := fun c => (c, .ok a)
  bind x f := fun c =>
    match x c with
    | (c, .ok a) => f a c
    | (c, .error e) => (c, .error e)

/-- Ends the computation. -/
def refuse {α : Type} (r : Refusal) : Session α := fun c => (c, .error r)

/-- Logs a call, and fails if its kind is set to. -/
def call (x : Call) : Session Unit := fun c =>
  let c := { c with log := c.log ++ [x] }
  match c.failing with
  | none => (c, .ok ())
  | some f => if f.stage = x.stage then (c, .error f.refusal) else (c, .ok ())

/-- Opens the client for a project. -/
def connect (project : Value) : Session Unit := call (.connect project)

/-- The content of an object, if it exists. -/
def lookUp (bucket name : Text) : Session (Option Text) := do
  call (.lookUp bucket name)
  fun c => (c, .ok (c.buckets.content? bucket name))

/-- Copies an object with the given content into a bucket. -/
def copy (source name content target : Text) : Session Unit := do
  call (.copy source name target name)
  fun c =>
    match c.buckets.get? target with
    | none => (c, .error (.notFound "The specified bucket does not exist."))
    | some _ => ({ c with buckets := c.buckets.store target name content }, .ok ())

/-- Removes an object. -/
def delete (bucket name : Text) : Session Unit := do
  call (.delete bucket name)
  fun c => ({ c with buckets := c.buckets.remove bucket name }, .ok ())

end Session
end Storage
end MachineCatalog
