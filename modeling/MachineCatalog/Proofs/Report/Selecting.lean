/-
# Selecting by zone

A zone can be asked for by its name, by its name below `zones/`, or by any URL that names it,
and slashes may follow (`Identity.Spells`).  All of these are read as the name of the zone
(`Identity.Spells.zoneName_eq`): it is the last segment that is not empty, and a URL of a zone
ends in its name.  So they select the same machine types.

A selection keeps the machine types that meet a condition, in their order
(`Report.select_eq_ok_iff`, `Report.Selection.select_eq`).  Hence to select twice is to select
once, and of two selections either may come first (`Report.spellings_select_alike`).
-/

import MachineCatalog.Proofs.ResourceUrl
import MachineCatalog.Report.Labels

namespace MachineCatalog

namespace Identity

/-! ### Spellings of a zone -/

/-- The ways to ask for the zone of the given name. -/
inductive Spells (zone : Text) : Text → Prop where
  | name : Spells zone zone
  | belowZones : Spells zone ("zones/" ++ zone)
  | url {u : Text} {z : ZoneId} (h : ZoneId.ofUrl (.text u) = .ok z) (hz : z.zone = zone) :
    Spells zone u
  | slashes {s : Text} (h : Spells zone s) (n : Nat) :
    Spells zone (s ++ List.replicate n (CodePoint.ofChar '/'))

/-- Slashes at the end of a text do not matter. -/
theorem lastSegment_append_replicate (s : Text) (n : Nat) :
    lastSegment (s ++ List.replicate n (CodePoint.ofChar '/')) = lastSegment s := by
  have hslashes : ∀ c ∈ List.replicate n (CodePoint.ofChar '/'),
      decide (c = CodePoint.ofChar '/') = true := by
    intro c hc
    rw [List.eq_of_mem_replicate hc, decide_eq_true_iff]
  rw [lastSegment, lastSegment, List.reverse_append, List.reverse_replicate,
    List.dropWhile_append_of_pos hslashes]

/-- A text that ends in a segment has no slashes at its end. -/
theorem reverse_dropWhile_append {zone : Text} (h : IsSegment zone) (before : Text) :
    (((before ++ zone).reverse.dropWhile fun (c : CodePoint) => c = '/').reverse) =
      before ++ zone := by
  obtain ⟨start, last, rfl⟩ := List.eq_nil_or_concat zone |>.resolve_left h.1
  have hlast : last ≠ CodePoint.ofChar '/' := by
    rintro rfl
    exact h.2 (by simp)
  rw [List.concat_eq_append, ← List.append_assoc, List.reverse_append, List.reverse_singleton,
    List.singleton_append, List.dropWhile_cons_of_neg (by simpa using hlast), List.reverse_cons,
    List.reverse_reverse]

theorem lastSegment_of_isSegment {zone : Text} (h : IsSegment zone) : lastSegment zone = zone := by
  rw [lastSegment, ← List.nil_append zone, reverse_dropWhile_append h [], List.nil_append,
    segments_of_isSegment h]
  rfl

/-- The segment behind the last slash of a text is its last segment. -/
theorem lastSegment_append_cons {zone : Text} (h : IsSegment zone) (before : Text) :
    lastSegment (before ++ CodePoint.ofChar '/' :: zone) = zone := by
  have hcut : before ++ CodePoint.ofChar '/' :: zone =
      (before ++ [CodePoint.ofChar '/']) ++ zone := by simp
  rw [lastSegment, hcut, reverse_dropWhile_append h, ← hcut, segments_append,
    segments_of_isSegment h, List.getLastD_concat]

/-- **A URL of a zone ends in the name of the zone.** -/
theorem lastSegment_of_ofUrl {u : Text} {z : ZoneId} (h : ZoneId.ofUrl (.text u) = .ok z) :
    lastSegment u = z.zone ∧ IsSegment z.zone := by
  obtain ⟨hz, lead, -, rfl⟩ := (ZoneId.urlLaws.names u z).1 h
  have hzones : ("/zones/" : Text) = ("/zones" : Text) ++ [CodePoint.ofChar '/'] := by decide
  have hpath : lead ++ z.path = (lead ++ ("projects/" ++ z.project ++ ("/zones" : Text))) ++
      CodePoint.ofChar '/' :: z.zone := by
    simp only [ZoneId.path, hzones, List.append_assoc, List.singleton_append]
  rw [hpath, lastSegment_append_cons hz.zone]
  exact ⟨rfl, hz.zone⟩

/-- The last segment of a spelling is the name of the zone. -/
theorem Spells.lastSegment_eq {zone s : Text} (h : Spells zone s) (hz : IsSegment zone) :
    lastSegment s = zone := by
  induction h with
  | name => exact lastSegment_of_isSegment hz
  | belowZones =>
    have hzones : ("zones/" : Text) = ("zones" : Text) ++ [CodePoint.ofChar '/'] := by decide
    rw [hzones, List.append_assoc, List.singleton_append, lastSegment_append_cons hz]
  | url h hzone => rw [(lastSegment_of_ofUrl h).1, hzone]
  | slashes _ n ih => rw [lastSegment_append_replicate, ih]

/-- A text that has a last segment counts as a zone. -/
theorem zoneName_of_lastSegment {s : Text} (h : lastSegment s ≠ []) :
    zoneName (.text s) = .ok (some (lastSegment s)) := by
  have hs : s ≠ [] := by
    rintro rfl
    exact h rfl
  have hcounts : (Value.text s).counts = true := by simpa [Value.counts] using hs
  rw [zoneName, hcounts]
  rfl

/-- **Every spelling is read as the name of the zone.** -/
theorem Spells.zoneName_eq {zone s : Text} (h : Spells zone s) (hz : IsSegment zone) :
    zoneName (.text s) = .ok (some zone) := by
  have hlast := h.lastSegment_eq hz
  rw [zoneName_of_lastSegment (hlast ▸ hz.1), hlast]

/-- A value asks for the zone of this name, or for any zone when it does not count. -/
inductive AsksFor : Value → Option Text → Prop where
  | any {v : Value} (h : v.counts = false) : AsksFor v none
  | zone {s : Text} (h : s ≠ []) : AsksFor (.text s) (some (lastSegment s))

theorem zoneName_eq_ok_iff {v : Value} {name : Option Text} :
    zoneName v = .ok name ↔ AsksFor v name := by
  unfold zoneName
  cases hv : v.counts with
  | false =>
    rw [Bool.not_false, if_pos rfl, Except.ok.injEq]
    constructor
    · rintro rfl
      exact .any hv
    · intro h
      cases h with
      | any => rfl
      | zone hs => exact absurd hv (by simpa [Value.counts] using hs)
  | true =>
    rw [Bool.not_true, if_neg Bool.false_ne_true]
    constructor
    · intro h
      split at h
      · obtain rfl := Except.ok.inj h
        exact .zone (by simpa [Value.counts] using hv)
      · cases h
    · intro h
      cases h with
      | any h => exact absurd hv (by simp [h])
      | zone => rfl

theorem zoneName_of_ofUrl {u : Text} {z : ZoneId} (h : ZoneId.ofUrl (.text u) = .ok z) :
    zoneName (.text u) = .ok (some z.zone) :=
  Spells.zoneName_eq (.url h rfl) (lastSegment_of_ofUrl h).2

end Identity

/-- The machine type has no deprecation status, or is active, or is deprecated and no more. -/
def MachineType.IsOffered (m : MachineType) : Prop :=
  ∀ d ∈ m.deprecationStatus, d.status = .active ∨ d.status = .deprecated

instance (m : MachineType) : Decidable m.IsOffered := by
  unfold MachineType.IsOffered
  infer_instance

theorem MachineType.isUsable_iff (m : MachineType) : m.isUsable = true ↔ m.IsOffered := by
  rw [isUsable, IsOffered]
  cases m.deprecationStatus with
  | none => simp
  | some d =>
    simp only [Option.mem_def, Option.some.injEq, forall_eq', DeprecationStatus.isUsable]
    cases d.status <;> simp [Status.isUsable]

namespace Report

/-! ### Selections -/

/-- The machine types that are kept when a zone is asked for, or those only that may be used. -/
def kept (zone : Option Text) (usableOnly : Bool) (ms : List MachineType) : List MachineType :=
  ms.filter fun m =>
    (∀ name ∈ zone, m.machineTypeId.zone = name) ∧ (usableOnly = true → m.IsOffered)

/-- **A selection keeps what is asked for**, in its order. -/
theorem select_of_zoneName {zone : Value} {name : Option Text}
    (h : Identity.zoneName zone = .ok name) (ms : List MachineType) (usableOnly : Bool) :
    select ms zone usableOnly = .ok (kept name usableOnly ms) := by
  rw [select, h, ok_bind, kept]
  refine congrArg Except.ok (List.filter_congr fun m _ => ?_)
  rw [Bool.eq_iff_iff, decide_eq_true_iff, Bool.and_eq_true, Bool.or_eq_true, Bool.not_eq_true',
    m.isUsable_iff]
  refine and_congr ?_ ?_
  · cases name with
    | none => simp
    | some name => simp
  · cases usableOnly with
    | false => simp
    | true => simp

theorem select_eq_ok_iff {ms chosen : List MachineType} {zone : Value} {usableOnly : Bool} :
    select ms zone usableOnly = .ok chosen ↔
      ∃ name, Identity.AsksFor zone name ∧ chosen = kept name usableOnly ms := by
  constructor
  · intro h
    obtain ⟨name, hname, -⟩ := bind_eq_ok_iff.1 h
    rw [select_of_zoneName hname] at h
    exact ⟨name, Identity.zoneName_eq_ok_iff.1 hname, (Except.ok.inj h).symm⟩
  · rintro ⟨name, hname, rfl⟩
    exact select_of_zoneName (Identity.zoneName_eq_ok_iff.2 hname) ms usableOnly

/-- What is asked for: a zone or any, and whether only machine types that may be used. -/
structure Selection where
  zone : Option Text
  usableOnly : Bool

namespace Selection

/-- The machine types that are asked for. -/
def select (r : Selection) (ms : List MachineType) : Except Failure (List MachineType) :=
  Report.select ms (r.zone.elim .null .text) r.usableOnly

/-- The name of the zone that is asked for. -/
def zoneName? (r : Selection) : Option Text :=
  match r.zone with
  | none => none
  | some s => if s = [] then none else some (Identity.lastSegment s)

/-- The machine type is one of those that are asked for. -/
def Wants (r : Selection) (m : MachineType) : Prop :=
  (∀ name ∈ r.zoneName?, m.machineTypeId.zone = name) ∧ (r.usableOnly = true → m.IsOffered)

instance (r : Selection) : DecidablePred r.Wants := fun m => by
  unfold Wants
  infer_instance

theorem zoneName_eq (r : Selection) :
    Identity.zoneName (r.zone.elim .null .text) = .ok r.zoneName? := by
  rw [zoneName?]
  cases r.zone with
  | none => rfl
  | some s => cases s <;> rfl

/-- **A request keeps what it wants**, in its order. -/
theorem select_eq (r : Selection) (ms : List MachineType) :
    r.select ms = .ok (ms.filter fun m => r.Wants m) := by
  exact select_of_zoneName r.zoneName_eq ms r.usableOnly

end Selection

/-- **All spellings of a zone select alike**: the machine types of that zone, when only those
that may be used are wanted without the others, in their order and as often as they occur.
Selecting once more alike changes nothing, and of two selections either may come
first. -/
theorem spellings_select_alike :
    (∀ (ms : List MachineType) (usableOnly : Bool) (zone s : Text),
      Identity.IsSegment zone → Identity.Spells zone s →
        select ms (.text s) usableOnly = .ok (ms.filter fun m =>
          m.machineTypeId.zone = zone ∧ (usableOnly = true → m.IsOffered))) ∧
    (∀ (u : Text) (z : ZoneId), ZoneId.ofUrl (.text u) = .ok z →
      Identity.zoneName (.text u) = .ok (some z.zone)) ∧
    (∀ (r : Selection) (ms : List MachineType),
      ∃ chosen, r.select ms = .ok chosen ∧ r.select chosen = .ok chosen) ∧
    ∀ (r r' : Selection) (ms : List MachineType),
      ∃ chosen, (r.select ms >>= r'.select) = .ok chosen ∧
        (r'.select ms >>= r.select) = .ok chosen := by
  refine ⟨fun ms usableOnly zone s hz hs => ?_, fun u z => Identity.zoneName_of_ofUrl,
    fun r ms => ⟨_, r.select_eq ms, ?_⟩,
    fun r r' ms => ⟨ms.filter fun m => r'.Wants m ∧ r.Wants m, ?_, ?_⟩⟩
  · have hname : (Selection.mk (some s) usableOnly).zoneName? = some zone :=
      Except.ok.inj ((Selection.zoneName_eq _).symm.trans (hs.zoneName_eq hz))
    have hselect : select ms (.text s) usableOnly = _ :=
      (Selection.mk (some s) usableOnly).select_eq ms
    rw [hselect]
    refine congrArg Except.ok (List.filter_congr fun m _ => decide_eq_decide.2 ?_)
    rw [Selection.Wants, hname]
    simp only [Option.mem_def, Option.some.injEq, forall_eq']
  · rw [r.select_eq, List.filter_filter]
    simp only [Bool.and_self]
  · rw [r.select_eq, ok_bind, r'.select_eq, List.filter_filter]
    simp only [Bool.decide_and]
  · rw [r'.select_eq, ok_bind, r.select_eq, List.filter_filter]
    simp only [Bool.decide_and, Bool.and_comm]

/-- A machine type that may be used. -/
def freshType : MachineType := { machineTypeId := ⟨"p", "z", "m"⟩ }

/-- A machine type of a zone of the same name that may no longer be used. -/
def obsoleteType : MachineType where
  machineTypeId := ⟨"q", "z", "n"⟩
  deprecationStatus := some ⟨.obsolete, none, .null, .null, .null⟩

/-- Machine types of two zones. -/
def typesOfTwoZones : List MachineType :=
  [freshType, { machineTypeId := ⟨"p", "y", "m"⟩ }, obsoleteType]

theorem spellings_select_alike_slashedUrl :
    ZoneId.ofUrl (.text "v1/projects/p/zones/z") = .ok ⟨"p", "z"⟩ ∧
      Identity.zoneName (.text "v1/projects/p/zones/z") = .ok (some ("z" : Text)) ∧
      Identity.IsSegment "z" ∧ Identity.Spells "z" "v1/projects/p/zones/z//" ∧
      select typesOfTwoZones (.text "v1/projects/p/zones/z//") false =
        .ok [freshType, obsoleteType] ∧
      select typesOfTwoZones (.text "v1/projects/p/zones/z//") true = .ok [freshType] := by
  obtain ⟨hselect, hurl, -, -⟩ := spellings_select_alike
  have hread : ZoneId.ofUrl (.text "v1/projects/p/zones/z") = .ok ⟨"p", "z"⟩ := rfl
  have hzone : Identity.IsSegment "z" := by decide
  have hspells : Identity.Spells "z" "v1/projects/p/zones/z//" :=
    .slashes (.url hread rfl) 2
  exact ⟨hread, hurl _ _ hread, hzone, hspells,
    (hselect typesOfTwoZones false "z" _ hzone hspells).trans rfl,
    (hselect typesOfTwoZones true "z" _ hzone hspells).trans rfl⟩

end Report
end MachineCatalog
