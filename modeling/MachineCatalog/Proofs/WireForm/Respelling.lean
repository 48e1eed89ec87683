/-
# Spellings of one machine type

One machine type has many wire forms.  Its keys may stand in any order; what is under a
key that is not read does not matter; a key that may be absent may also be `null`; and
links, ids and sizes may be written in several ways.  `Spelling` says of a mapping which
keys are read, which may be absent, and what may stand for what under the others;
`MachineType.Edit` is one change of a wire form, in the order of its keys or in what is
under them.

A change under the keys of a wire form leaves what is read as it was
(`MachineType.ofWire_edits`).  So after any number of changes of both kinds the wire form
is still read, as a machine type that agrees with the first
(`MachineType.ofWire_respelled`).
-/

import MachineCatalog.Proofs.WireForm.Reordering
import Mathlib.Logic.Relation

namespace MachineCatalog

open Value

/-- How a mapping is read: the keys that are read, those of them that may be absent, and under which
of them values stand for others. -/
structure Spelling where
  read : List Text
  optional : List Text
  synonyms : List (Text × (Value → Value → Prop))

namespace Spelling

/-- What is under a key may become this. -/
inductive Allows (s : Spelling) (key : Text) : Option Value → Option Value → Prop
  | kept (v : Option Value) : Allows s key v v
  | unread (h : key ∉ s.read) (v w : Option Value) : Allows s key v w
  | nulled (h : key ∈ s.optional) : Allows s key none (some .null)
  | dropped (h : key ∈ s.optional) : Allows s key (some .null) none
  | synonym {R : Value → Value → Prop} (h : s.synonyms.lookup key = some R) {v w : Value}
      (hR : R v w) : Allows s key (some v) (some w)

/-- The second mapping is the first with changes under its keys. -/
def Edits (s : Spelling) (v w : Value) : Prop :=
  ∃ es fs, v.entries? = some es ∧ w.entries? = some fs ∧
    ∀ key, s.Allows key (get? es key) (get? fs key)

variable {s : Spelling} {es fs : List (Value × Value)}

/-- Objects are compared under the keys that one of them has. -/
theorem edits_object {fs gs : List (Text × Value)}
    (h : ∀ key ∈ fs.map Prod.fst ++ gs.map Prod.fst, s.Allows key (fs.lookup key) (gs.lookup key)) :
    s.Edits (.object fs) (.object gs) := by
  refine ⟨_, _, entries?_object fs, entries?_object gs, fun key => ?_⟩
  rw [get?_object, get?_object]
  by_cases hkey : key ∈ fs.map Prod.fst ++ gs.map Prod.fst
  · exact h key hkey
  · rw [List.mem_append, not_or] at hkey
    rw [lookup_eq_none hkey.1, lookup_eq_none hkey.2]
    exact .kept none

/-- A key that is read gives what it gave, or a synonym of it. -/
theorem get_eq_or (h : ∀ key, s.Allows key (get? es key) (get? fs key)) {key : Text}
    (hread : key ∈ s.read) : get fs key = get es key ∨
      ∃ R, s.synonyms.lookup key = some R ∧ R (get es key) (get fs key) := by
  have hkey := h key
  rw [Value.get, Value.get]
  generalize get? es key = v at hkey
  generalize get? fs key = w at hkey
  cases hkey with
  | kept => exact .inl rfl
  | unread hno => exact absurd hread hno
  | nulled => exact .inl rfl
  | dropped => exact .inl rfl
  | synonym hR hvw => exact .inr ⟨_, hR, hvw⟩

/-- A key that is read and has no synonyms gives what it gave. -/
theorem get_eq (h : ∀ key, s.Allows key (get? es key) (get? fs key)) {key : Text}
    (hread : key ∈ s.read) (hno : s.synonyms.lookup key = none) : get fs key = get es key := by
  rcases get_eq_or h hread with he | ⟨R, hR, -⟩
  · exact he
  · exact absurd (hno.symm.trans hR) nofun

/-- What is read under a key stays as it was, when it does so for synonyms. -/
theorem read_eq {α : Type} {read : Value → Except Failure α} {R : Value → Value → Prop} {a : α}
    (h : ∀ key, s.Allows key (get? es key) (get? fs key)) {key : Text} (hread : key ∈ s.read)
    (hR : s.synonyms.lookup key = some R) (hsame : ∀ v w, R v w → read v = .ok a → read w = .ok a)
    (ha : read (get es key) = .ok a) : read (get fs key) = .ok a := by
  rcases get_eq_or h hread with he | ⟨S, hS, hvw⟩
  · rwa [he]
  · obtain rfl := Option.some.inj (hR.symm.trans hS)
    exact hsame _ _ hvw ha

end Spelling

/-! ### Synonyms -/

/-- Both links name one machine type. -/
def SameLink (v w : Value) : Prop :=
  ∃ m, MachineTypeId.ofUrl v = .ok m ∧ MachineTypeId.ofUrl w = .ok m

/-- One is an integer and the other a short numeral that writes it. -/
inductive SameNumber : Value → Value → Prop
  | written {x : Numeral} (h : x.IsShort) : SameNumber (.int x.value) (.text x.text)
  | unwritten {x : Numeral} (h : x.IsShort) : SameNumber (.text x.text) (.int x.value)

/-- How a scratch disk is read. -/
def diskSpelling : Spelling where
  read := ["diskGb"]
  optional := ["diskGb"]
  synonyms := []

/-- The second list has the disks of the first with changes in them. -/
def SameDisks (v w : Value) : Prop :=
  ∃ xs ys, v.items? = some xs ∧ w.items? = some ys ∧ List.Forall₂ diskSpelling.Edits xs ys

/-- How a deprecation status is read. -/
def DeprecationStatus.spelling : Spelling where
  read := ["state", "replacement", "deprecated", "obsolete", "deleted"]
  optional := ["replacement", "deprecated", "obsolete", "deleted"]
  synonyms := [("replacement", SameLink)]

/-- How a machine type is read. -/
def MachineType.spelling : Spelling where
  read := ["selfLink", "id", "creationTimestamp", "description", "guestCpus", "memoryMb",
    "scratchDisks", "maximumPersistentDisks", "maximumPersistentDisksSizeGb", "deprecated"]
  optional := ["id", "creationTimestamp", "description", "guestCpus", "memoryMb", "scratchDisks",
    "maximumPersistentDisks", "maximumPersistentDisksSizeGb", "deprecated"]
  synonyms := [("selfLink", SameLink), ("id", SameNumber), ("scratchDisks", SameDisks),
    ("maximumPersistentDisksSizeGb", SameNumber), ("deprecated", DeprecationStatus.spelling.Edits)]

/-! ### Synonyms are read alike -/

theorem isNull_of_items? {v : Value} {items : List Value} (h : v.items? = some items) :
    v.isNull = false := by
  cases v with
  | null => exact absurd h nofun
  | _ => rfl

theorem isNull_of_entries? {v : Value} {entries : List (Value × Value)}
    (h : v.entries? = some entries) : v.isNull = false := by
  cases v with
  | null => exact absurd h nofun
  | _ => rfl

theorem SameLink.ofUrl {v w : Value} {m : MachineTypeId} (h : SameLink v w)
    (hv : MachineTypeId.ofUrl v = .ok m) : MachineTypeId.ofUrl w = .ok m := by
  obtain ⟨m', hv', hw⟩ := h
  rwa [← Except.ok.inj (hv'.symm.trans hv)]

theorem SameLink.counts {v w : Value} (h : SameLink v w) : v.counts = true ∧ w.counts = true := by
  have hcounts : ∀ {u : Value} {m : MachineTypeId}, MachineTypeId.ofUrl u = .ok m →
      u.counts = true := by
    intro u m hu
    obtain ⟨s, rfl, hs⟩ := MachineTypeId.exists_text_of_ofUrl hu
    cases s with
    | nil => exact absurd hs nofun
    | cons c s => rfl
  obtain ⟨m, hv, hw⟩ := h
  exact ⟨hcounts hv, hcounts hw⟩

theorem SameLink.replacementOf {v w : Value} {replacement : Option MachineTypeId}
    (h : SameLink v w) (hv : DeprecationStatus.replacementOf v = .ok replacement) :
    DeprecationStatus.replacementOf w = .ok replacement := by
  rw [DeprecationStatus.replacementOf, if_pos h.counts.1] at hv
  rw [DeprecationStatus.replacementOf, if_pos h.counts.2]
  obtain ⟨m, hm, he⟩ := map_eq_ok_iff.1 hv
  exact map_eq_ok_iff.2 ⟨m, h.ofUrl hm, he⟩

theorem SameNumber.encode_eq {v w : Value} (h : SameNumber v w) :
    NumericId.encode w = NumericId.encode v := by
  cases h with
  | written hx => exact NumericId.encode_text hx
  | unwritten hx => exact (NumericId.encode_text hx).symm

theorem SameNumber.idOf_eq {v w : Value} (h : SameNumber v w) :
    MachineType.idOf w = MachineType.idOf v := by
  have hnull : v.isNull = false ∧ w.isNull = false := by cases h <;> exact ⟨rfl, rfl⟩
  rw [MachineType.idOf, MachineType.optional, MachineType.optional, hnull.1, hnull.2]
  simp only [NumericId.decode, h.encode_eq]

theorem SameNumber.integerOf_eq {v w : Value} (h : SameNumber v w) :
    MachineType.integerOf w = MachineType.integerOf v := by
  have hread {x : Numeral} (hx : x.IsShort) :
      MachineType.integerOf (.text x.text) = .ok (.int x.value) := by
    simp only [MachineType.integerOf, Numeral.readInteger?_text hx]
  cases h with
  | written hx => exact hread hx
  | unwritten hx => exact (hread hx).symm

/-- Disks with changes in them have the same sizes. -/
theorem diskSizes_of_edits {xs ys : List Value} (h : List.Forall₂ diskSpelling.Edits xs ys)
    (i : Nat) : MachineType.diskSizes i ys = MachineType.diskSizes i xs := by
  induction h generalizing i with
  | nil => rfl
  | cons hxy _ ih =>
    obtain ⟨es, fs, hes, hfs, hallows⟩ := hxy
    have hsize : Value.get fs "diskGb" = Value.get es "diskGb" :=
      Spelling.get_eq hallows (by decide) rfl
    simp only [MachineType.diskSizes, hes, hfs, ih, hsize]

theorem SameDisks.scratchSizes_eq {v w : Value} (h : SameDisks v w) :
    MachineType.scratchSizes w = MachineType.scratchSizes v := by
  obtain ⟨xs, ys, hxs, hys, hall⟩ := h
  rw [MachineType.scratchSizes, MachineType.scratchSizes, isNull_of_items? hxs,
    isNull_of_items? hys, hxs, hys]
  simp only [diskSizes_of_edits hall]

/-! ### Changes under keys -/

namespace DeprecationStatus

theorem readsAs_edits {es fs : List (Value × Value)} {d : DeprecationStatus} (h : ReadsAs es d)
    (hallows : ∀ key, spelling.Allows key (get? es key) (get? fs key)) : ReadsAs fs d := by
  have hplain {key : Text} (hread : key ∈ spelling.read)
      (hno : spelling.synonyms.lookup key = none) : Value.get fs key = Value.get es key :=
    Spelling.get_eq hallows hread hno
  exact {
    status := by rw [hplain (by decide) rfl, h.status]
    replacement := Spelling.read_eq hallows (by decide) rfl
      (fun _ _ hlink => hlink.replacementOf) h.replacement
    deprecated := by rw [hplain (by decide) rfl, h.deprecated]
    obsolete := by rw [hplain (by decide) rfl, h.obsolete]
    deleted := by rw [hplain (by decide) rfl, h.deleted] }

/-- **A deprecation status with changes under its keys is read as it was.** -/
theorem ofWire_edits {v w : Value} {d : DeprecationStatus} (h : ofWire v = .ok d)
    (hedits : spelling.Edits v w) : ofWire w = .ok d := by
  obtain ⟨es, hes, hread⟩ := ofWire_eq_ok_iff.1 h
  obtain ⟨es', fs, hes', hfs, hallows⟩ := hedits
  obtain rfl := Option.some.inj (hes'.symm.trans hes)
  exact ofWire_eq_ok_iff.2 ⟨fs, hfs, readsAs_edits hread hallows⟩

end DeprecationStatus

namespace MachineType

theorem statusOf_edits {v w : Value} {status : Option DeprecationStatus}
    (h : statusOf v = .ok status) (hedits : DeprecationStatus.spelling.Edits v w) :
    statusOf w = .ok status := by
  obtain ⟨es, fs, hes, hfs, -⟩ := id hedits
  rw [statusOf, isNull_of_entries? hes] at h
  rw [statusOf, isNull_of_entries? hfs]
  obtain ⟨d, hd, he⟩ := map_eq_ok_iff.1 h
  exact map_eq_ok_iff.2 ⟨d, DeprecationStatus.ofWire_edits hd hedits, he⟩

theorem readsAs_edits {es fs : List (Value × Value)} {m : MachineType} (h : ReadsAs es m)
    (hallows : ∀ key, spelling.Allows key (get? es key) (get? fs key)) : ReadsAs fs m := by
  have hplain {key : Text} (hread : key ∈ spelling.read)
      (hno : spelling.synonyms.lookup key = none) : Value.get fs key = Value.get es key :=
    Spelling.get_eq hallows hread hno
  exact {
    identity := Spelling.read_eq hallows (by decide) rfl
      (fun _ _ hlink hv => identityOf_eq_ok_iff.2 (hlink.ofUrl (identityOf_eq_ok_iff.1 hv)))
      h.identity
    id := Spelling.read_eq hallows (by decide) rfl
      (fun _ _ hnumber hv => hnumber.idOf_eq.trans hv) h.id
    creationTimestamp := by rw [hplain (by decide) rfl, h.creationTimestamp]
    description := by rw [hplain (by decide) rfl, h.description]
    cpus := by rw [hplain (by decide) rfl, h.cpus]
    memoryMb := by rw [hplain (by decide) rfl, h.memoryMb]
    scratchDisks := Spelling.read_eq hallows (by decide) rfl
      (fun _ _ hdisks hv => hdisks.scratchSizes_eq.trans hv) h.scratchDisks
    maximumPersistentDisks := by rw [hplain (by decide) rfl, h.maximumPersistentDisks]
    maximumPersistentDisksSizeGb := Spelling.read_eq hallows (by decide) rfl
      (fun _ _ hnumber hv => hnumber.integerOf_eq.trans hv) h.maximumPersistentDisksSizeGb
    deprecationStatus := Spelling.read_eq hallows (by decide) rfl
      (fun _ _ hedits hv => statusOf_edits hv hedits) h.deprecationStatus }

/-- **A wire form with changes under its keys is read as it was.** -/
theorem ofWire_edits {p q : Value} {m : MachineType} (h : ofWire p = .ok m)
    (hedits : spelling.Edits p q) : ofWire q = .ok m := by
  obtain ⟨es, hes, hread⟩ := ofWire_eq_ok_iff.1 h
  obtain ⟨es', fs, hes', hfs, hallows⟩ := hedits
  obtain rfl := Option.some.inj (hes'.symm.trans hes)
  exact ofWire_eq_ok_iff.2 ⟨fs, hfs, readsAs_edits hread hallows⟩

/-! ### Any number of changes -/

/-- One change of a wire form. -/
inductive Edit : Value → Value → Prop
  /-- The entries of mappings stand in other orders, at any depth. -/
  | reordered {p q : Value} (h : Reordered p q) : Edit p q
  /-- What is under the keys is spelled in another way. -/
  | respelled {p q : Value} (h : spelling.Edits p q) : Edit p q

/-- **One change** leaves what is read, up to the order in mappings that are kept. -/
theorem ofWire_edit {p q : Value} {a : MachineType} (h : ofWire p = .ok a) (hedit : Edit p q) :
    ∃ b, ofWire q = .ok b ∧ ∀ x : MachineType, x.Agrees a → x.Agrees b := by
  cases hedit with
  | reordered hr => exact ofWire_reordered h hr
  | respelled hedits => exact ⟨a, ofWire_edits h hedits, fun _ hx => hx⟩

theorem agrees_refl (m : MachineType) : m.Agrees m where
  machineTypeId := rfl
  id := same_refl _
  creationTimestamp := same_refl _
  description := same_refl _
  cpus := same_refl _
  memoryMb := same_refl _
  scratchDisksSizeGb := by
    cases m.scratchDisksSizeGb with
    | none => exact .none
    | some sizes => exact .some (List.forall₂_same.2 fun size _ => same_refl size)
  maximumPersistentDisks := same_refl _
  maximumPersistentDisksSizeGb := same_refl _
  deprecationStatus := by
    cases m.deprecationStatus with
    | none => exact .none
    | some d => exact .some ⟨rfl, rfl, same_refl _, same_refl _, same_refl _⟩

/-- **All spellings of a wire form are read alike**: after any number of changes it is read, and
what is read agrees in every attribute with what was read at first. -/
theorem ofWire_respelled {p q : Value} {a : MachineType} (h : ofWire p = .ok a)
    (hedits : Relation.ReflTransGen Edit p q) : ∃ b, ofWire q = .ok b ∧ a.Agrees b := by
  induction hedits with
  | refl => exact ⟨a, h, agrees_refl a⟩
  | tail _ hedit ih =>
    obtain ⟨b, hb, hagrees⟩ := ih
    obtain ⟨c, hc, hstep⟩ := ofWire_edit hb hedit
    exact ⟨c, hc, hstep a hagrees⟩

/-- The fields of a wire form with the given description, and its id as an integer. -/
def plainFields (description : Value) : List (Text × Value) := [
  ("id", .int 7),
  ("description", description),
  ("selfLink", .text "projects/p/zones/z/machineTypes/m"),
  ("scratchDisks", .list [.object [("diskGb", .int 375)]]),
  ("deprecated", .object [
    ("state", .text "DEPRECATED"), ("replacement", .text "projects/p/zones/z/machineTypes/n")])]

/-- The wire form. -/
def plainSpelling : Value := .object (plainFields (.object [("a", .null), ("b", .bool true)]))

/-- The same from back to front, also inside of the description. -/
def backwardSpelling : Value :=
  .object (plainFields (.object [("b", .bool true), ("a", .null)])).reverse

/-- The same with other links, the id as a text, `null` for what was absent, and keys that are not
read. -/
def ornateSpelling : Value := .object [
  ("kind", .text "compute#machineType"),
  ("selfLink", .text "https://h/projects/p/zones/z/machineTypes/m"),
  ("id", .text "+007"),
  ("guestCpus", .null),
  ("description", .object [("b", .bool true), ("a", .null)]),
  ("scratchDisks", .list [.object [("index", .int 0), ("diskGb", .int 375)]]),
  ("deprecated", .object [
    ("state", .text "DEPRECATED"), ("replacement", .text "/projects/p/zones/z/machineTypes/n"),
    ("deleted", .null)])]

/-- The machine type that is read from the first. -/
def spelledType : MachineType where
  machineTypeId := ⟨"p", "z", "m"⟩
  id := .text "7"
  description := .object [("a", .null), ("b", .bool true)]
  scratchDisksSizeGb := some [.int 375]
  deprecationStatus := some {
    status := .deprecated
    replacement := some ⟨"p", "z", "n"⟩
    deprecated := .null
    obsolete := .null
    deleted := .null }

theorem ofWire_plainSpelling : ofWire plainSpelling = .ok spelledType := by
  let seven : Numeral := ⟨.absent, [7], by decide⟩
  have hlong : isLongInteger seven.value = false :=
    Numeral.IsShort.isLongInteger_value (show seven.IsShort by decide)
  have hdecode : NumericId.decode (.int seven.value) = .ok (Text.signedDecimal seven.value) :=
    NumericId.decode_eq_ok_iff.2 ⟨_, rfl, hlong, rfl⟩
  have hid : idOf (.int seven.value) = .ok (.text (Text.signedDecimal seven.value)) := by
    rw [idOf, optional, hdecode]
    rfl
  have hvalue : seven.value = 7 := by decide
  have htext : Text.signedDecimal 7 = "7" := by decide
  rw [hvalue, htext] at hid
  exact ofWire_eq_ok_iff.2 ⟨_, entries?_object _,
    { identity := rfl, id := hid, creationTimestamp := rfl, description := rfl, cpus := rfl
      memoryMb := rfl, scratchDisks := rfl, maximumPersistentDisks := rfl
      maximumPersistentDisksSizeGb := rfl, deprecationStatus := rfl }⟩

theorem reordered_plainSpelling : Reordered plainSpelling backwardSpelling := by
  have hdescription : Reordered (.object [("a", .null), ("b", .bool true)])
      (.object [("b", .bool true), ("a", .null)]) :=
    reordered_object (List.forall₂_same.2 fun f _ => ⟨rfl, .refl f.2⟩) (by decide) (.swap ..)
  have hfields : List.Forall₂ (fun f d => f.1 = d.1 ∧ Reordered f.2 d.2)
      (plainFields (.object [("a", .null), ("b", .bool true)]))
      (plainFields (.object [("b", .bool true), ("a", .null)])) :=
    .cons ⟨rfl, .refl _⟩ (.cons ⟨rfl, hdescription⟩
      (List.forall₂_same.2 fun f _ => ⟨rfl, .refl f.2⟩))
  exact reordered_object hfields (by decide) (List.reverse_perm _).symm

theorem edits_backwardSpelling : spelling.Edits backwardSpelling ornateSpelling := by
  have hdisks : SameDisks (.list [.object [("diskGb", .int 375)]])
      (.list [.object [("index", .int 0), ("diskGb", .int 375)]]) := by
    refine ⟨_, _, rfl, rfl, .cons (Spelling.edits_object ?_) .nil⟩
    simp only [List.map_cons, List.map_nil, List.cons_append, List.nil_append,
      List.forall_mem_cons]
    exact ⟨.kept (some (.int 375)), .unread (by decide) _ _, .kept (some (.int 375)),
      List.forall_mem_nil _⟩
  have hstatus : DeprecationStatus.spelling.Edits
      (.object [("state", .text "DEPRECATED"),
        ("replacement", .text "projects/p/zones/z/machineTypes/n")])
      (.object [("state", .text "DEPRECATED"),
        ("replacement", .text "/projects/p/zones/z/machineTypes/n"), ("deleted", .null)]) := by
    have hlink : SameLink (.text "projects/p/zones/z/machineTypes/n")
        (.text "/projects/p/zones/z/machineTypes/n") := ⟨_, rfl, rfl⟩
    refine Spelling.edits_object ?_
    simp only [List.map_cons, List.map_nil, List.cons_append, List.nil_append,
      List.forall_mem_cons]
    exact ⟨.kept (some (.text "DEPRECATED")), .synonym rfl hlink,
      .kept (some (.text "DEPRECATED")), .synonym rfl hlink, .nulled (by decide),
      List.forall_mem_nil _⟩
  have hlink : SameLink (.text "projects/p/zones/z/machineTypes/m")
      (.text "https://h/projects/p/zones/z/machineTypes/m") := ⟨_, rfl, rfl⟩
  let seven : Numeral := ⟨.plus, [0, 0, 7], by decide⟩
  have hnumber : SameNumber (.int 7) (.text "+007") :=
    SameNumber.written (show seven.IsShort by decide)
  refine Spelling.edits_object ?_
  simp only [plainFields, List.reverse_cons, List.reverse_nil, List.map_cons, List.map_nil,
    List.cons_append, List.nil_append, List.forall_mem_cons]
  exact ⟨.synonym rfl hstatus, .synonym rfl hdisks, .synonym rfl hlink, .kept (some _),
    .synonym rfl hnumber, .unread (by decide) _ _, .synonym rfl hlink, .synonym rfl hnumber,
    .nulled (by decide), .kept (some _), .synonym rfl hdisks, .synonym rfl hstatus,
    List.forall_mem_nil _⟩

/-- The ornate wire form is reached in two changes, and read as the plain one. -/
theorem ofWire_respelled_ornateSpelling : ofWire plainSpelling = .ok spelledType ∧
    Relation.ReflTransGen Edit plainSpelling ornateSpelling ∧
    ∃ b, ofWire ornateSpelling = .ok b ∧ spelledType.Agrees b := by
  have hedits : Relation.ReflTransGen Edit plainSpelling ornateSpelling :=
    .tail (.single (.reordered reordered_plainSpelling)) (.respelled edits_backwardSpelling)
  exact ⟨ofWire_plainSpelling, hedits, ofWire_respelled ofWire_plainSpelling hedits⟩

end MachineType
end MachineCatalog
