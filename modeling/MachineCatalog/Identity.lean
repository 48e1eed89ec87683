/-
# Identities of zones and machine types

A zone is known by its project and its name, a machine type by its zone and its
own name.  The self link of an identity is its URL below `Identity.baseUrl`.

A URL names a zone when it ends in `projects/P/zones/Z`, and a machine type when
it ends in `projects/P/zones/Z/machineTypes/M`, each name being a non-empty
segment; what stands before `projects` is empty or a text without a line feed
that ends in `/`.  So the segments at the end of a URL decide.
-/

import MachineCatalog.Failure

namespace MachineCatalog

/-- The identity of a zone. -/
structure ZoneId where
  project : Text
  zone : Text
deriving DecidableEq

/-- The identity of a machine type: the zone that offers it, and its name. -/
structure MachineTypeId where
  project : Text
  zone : Text
  machineType : Text
deriving DecidableEq

namespace Identity

/-- The root of all self links. -/
def baseUrl : Text := "https://www.googleapis.com/compute/v1/"

/-- The parts of a text between slashes. -/
def segments (t : Text) : List Text := Text.splitAt (CodePoint.ofChar '/') t

/-- Whether segments may stand before `projects`. -/
def mayPrecede (before : List Text) : Bool := before.all fun s => !s.contains '\n'

end Identity

namespace ZoneId

open Identity

/-- The URL of a zone. -/
def selfLink (z : ZoneId) : Text := baseUrl ++ "projects/" ++ z.project ++ "/zones/" ++ z.zone

/-- The zone as `project/zone`. -/
def text (z : ZoneId) : Text := z.project ++ "/" ++ z.zone

/-- The zone that a URL names. -/
def ofUrl? (url : Text) : Option ZoneId :=
  match (segments url).reverse with
  | zone :: zones :: project :: projects :: before =>
    if zone ≠ [] ∧ zones = "zones" ∧ project ≠ [] ∧ projects = "projects" ∧
        mayPrecede before then
      some ⟨project, zone⟩
    else none
  | _ => none

/-- Whether a value is a URL that names a zone. -/
def matchesUrl : Value → Bool
  | .text url => (ofUrl? url).isSome
  | _ => false

/-- The zone that a value names as a URL. -/
def ofUrl (url : Value) : Except Failure ZoneId :=
  match url with
  | .text s =>
    match ofUrl? s with
    | some z => .ok z
    | none => reject (.malformedUrl url .zone)
  | v => reject (.malformedUrl v .zone)

end ZoneId

namespace MachineTypeId

open Identity

/-- The zone that offers the machine type. -/
def zoneId (m : MachineTypeId) : ZoneId := ⟨m.project, m.zone⟩

/-- The machine type of the given name in a zone. -/
def inZone (z : ZoneId) (machineType : Text) : MachineTypeId := ⟨z.project, z.zone, machineType⟩

/-- The URL of a machine type. -/
def selfLink (m : MachineTypeId) : Text := m.zoneId.selfLink ++ "/machineTypes/" ++ m.machineType

/-- The machine type as `project/zone/name`. -/
def text (m : MachineTypeId) : Text := m.zoneId.text ++ "/" ++ m.machineType

/-- The machine type that a URL names. -/
def ofUrl? (url : Text) : Option MachineTypeId :=
  match (segments url).reverse with
  | name :: types :: zone :: zones :: project :: projects :: before =>
    if name ≠ [] ∧ types = "machineTypes" ∧ zone ≠ [] ∧ zones = "zones" ∧
        project ≠ [] ∧ projects = "projects" ∧ mayPrecede before then
      some ⟨project, zone, name⟩
    else none
  | _ => none

/-- Whether a value is a URL that names a machine type. -/
def matchesUrl : Value → Bool
  | .text url => (ofUrl? url).isSome
  | _ => false

/-- The machine type that a value names as a URL. -/
def ofUrl (url : Value) : Except Failure MachineTypeId :=
  match url with
  | .text s =>
    match ofUrl? s with
    | some m => .ok m
    | none => reject (.malformedUrl url .machineType)
  | v => reject (.malformedUrl v .machineType)

end MachineTypeId

namespace Identity

/-- The last segment of a text, slashes at its end left out. -/
def lastSegment (s : Text) : Text :=
  (segments (s.reverse.dropWhile fun (c : CodePoint) => c = '/').reverse).getLastD []

/-- The name of a zone given by name or by URL; a value that does not count gives
none. -/
def zoneName (zone : Value) : Except Failure (Option Text) :=
  if !zone.counts then .ok none
  else
    match zone with
    | .text s => .ok (some (lastSegment s))
    | v => abort (.notZone v)

end Identity
end MachineCatalog
