/-
# When a Markdown catalog is a table

A catalog in Markdown is made of lines, and its rows are made of cells.  Nothing is escaped: a
line feed in what a line shows ends the line, and a bar in what a cell shows ends the cell.  Apart
from that a catalog is well formed (`Markdown.IsTable`): it has one row for each machine type,
zone by zone, each row has the seven cells of the header, and its other lines are fixed.  So it is
well formed exactly if all of its machine types are tame (`Markdown.isTable_iff`).
-/

import MachineCatalog.Proofs.Report.Showing
import MachineCatalog.Proofs.Report.Zones
import MachineCatalog.Proofs.ResourceUrl
import MachineCatalog.Proofs.Text.Digits
import MachineCatalog.Report.Markdown

namespace MachineCatalog

namespace Text

section Splitting

variable {α : Type}

/-- What is not in the separator is in joined parts only if it is in one of them. -/
theorem not_mem_intercalate_iff {c : α} {separator : List α} (h : c ∉ separator)
    (parts : List (List α)) :
    c ∉ separator.intercalate parts ↔ ∀ part ∈ parts, c ∉ part := by
  induction parts with
  | nil => exact iff_of_true (by simp) (List.forall_mem_nil _)
  | cons part parts ih =>
    cases parts with
    | nil => rw [List.intercalate_singleton, List.forall_mem_singleton]
    | cons next parts =>
      rw [List.intercalate_cons_cons, List.mem_append, List.mem_append, List.forall_mem_cons, ← ih]
      tauto

variable [BEq α]

theorem length_splitAt_pos (separator : α) (s : List α) : 0 < (splitAt separator s).length :=
  List.length_pos_of_ne_nil (splitAt_ne_nil separator s)

theorem length_le_length_flatMap_splitAt (separator : α) (parts : List (List α)) :
    parts.length ≤ (parts.flatMap (splitAt separator)).length := by
  induction parts with
  | nil => exact Nat.le_refl 0
  | cons part parts ih =>
    have hpart := length_splitAt_pos separator part
    rw [List.flatMap_cons, List.length_append, List.length_cons]
    omega

variable [LawfulBEq α] {separator : α}

/-- Only a list without the separator is not split. -/
theorem length_splitAt_eq_one_iff {s : List α} :
    (splitAt separator s).length = 1 ↔ separator ∉ s := by
  constructor
  · intro h hmem
    obtain ⟨before, after, rfl⟩ := List.append_of_mem hmem
    have hbefore := length_splitAt_pos separator before
    have hafter := length_splitAt_pos separator after
    rw [splitAt_append_cons, List.length_append] at h
    omega
  · intro h
    rw [splitAt_of_not_mem h, List.length_singleton]

/-- **Parts stay as many as they are when none of them is split.** -/
theorem length_flatMap_splitAt_eq_iff {parts : List (List α)} :
    (parts.flatMap (splitAt separator)).length = parts.length ↔
      ∀ part ∈ parts, separator ∉ part := by
  induction parts with
  | nil => simp
  | cons part parts ih =>
    have hpart := length_splitAt_pos separator part
    have hparts := length_le_length_flatMap_splitAt separator parts
    rw [List.forall_mem_cons, ← ih, ← length_splitAt_eq_one_iff, List.flatMap_cons,
      List.length_append, List.length_cons]
    omega

end Splitting

/-- A character that is no digit is not in a number. -/
theorem not_mem_padded {c : Char} (h : c.isDigit = false) (width n : Nat) :
    CodePoint.ofChar c ∉ padded width n := by
  intro hc
  obtain ⟨d, hd, he⟩ := List.mem_map.1 hc
  obtain rfl : d = c := by
    rw [← CodePoint.toChar_ofChar d, he, CodePoint.toChar_ofChar]
  rcases List.mem_append.1 hd with hd | hd
  · rw [List.eq_of_mem_replicate hd] at h
    exact absurd h (by decide)
  · exact absurd (Nat.isDigit_of_mem_toDigits (by decide) (by decide) hd) (by simp [h])

theorem decimal_eq_padded (n : Nat) : decimal n = padded 0 n := by
  rw [decimal, padded, paddedDigits, Nat.zero_sub, List.replicate_zero, List.nil_append]

end Text

namespace Report
namespace Markdown

/-! ### Well-formed catalogs -/

/-- The lines of a text. -/
def linesOf (t : Text) : List Text := Text.splitAt (CodePoint.ofChar '\n') t

/-- The cells of a line of a table: what stands between its bars. -/
def columns (line : Text) : List Text := (Text.splitAt (CodePoint.ofChar '|') line).tail.dropLast

/-- A row starts with a bar, a blank, and the backquote in front of the name. -/
def isRow (line : Text) : Bool := line.startsWith "| `"

/-- The lines of a catalog that are no rows: its zones without their members. -/
def frame (now : Moment) (source : Text) (ms : List MachineType) : List Text :=
  preamble now source ms.length ++ (byZone ms).flatMap fun z => zoneLines z.1 []

/-- The text is a catalog with one row for each machine type, zone by zone, with as many cells in
each row as in the header, and with no other lines than those of the frame. -/
structure IsTable (now : Moment) (source : Text) (ms : List MachineType) (text : Text) :
    Prop where
  rows : (linesOf text).filter isRow = ((byZone ms).flatMap Prod.snd).map row
  others : (linesOf text).filter (!isRow ·) = frame now source ms
  cells : ∀ line ∈ linesOf text, isRow line = true ∨ line ∈ tableHead →
    (columns line).length = 7

/-! ### Tame machine types -/

/-- Nothing in the text ends a line or a cell. -/
def FitsCell (t : Text) : Prop := CodePoint.ofChar '\n' ∉ t ∧ CodePoint.ofChar '|' ∉ t

theorem all_iff_fitsCell (t : Text) :
    t.all (fun c => !(c = CodePoint.ofChar '\n' || c = CodePoint.ofChar '|')) = true ↔
      FitsCell t := by
  rw [FitsCell, ← List.forall_mem_ne', ← List.forall_mem_ne', ← forall₂_and, List.all_eq_true]
  simp

instance (t : Text) : Decidable (FitsCell t) := decidable_of_iff _ (all_iff_fitsCell t)

/-- Whatever catalogs show of the machine type fits in one cell, and its zone in one line. -/
structure Tame (m : MachineType) : Prop where
  zone : CodePoint.ofChar '\n' ∉ zoneText m
  name : FitsCell m.name
  values : ∀ v ∈ m.maximumPersistentDisksSizeGb :: shownValues m, FitsCell v.toText
  replacement : ∀ d ∈ m.deprecationStatus, ∀ r ∈ d.replacement, FitsCell r.machineType

theorem fitsCell_append {s t : Text} : FitsCell (s ++ t) ↔ FitsCell s ∧ FitsCell t := by
  simp only [FitsCell, List.mem_append, not_or]
  tauto

theorem fitsCell_intercalate {separator : Text} (h : FitsCell separator) (parts : List Text) :
    FitsCell (separator.intercalate parts) ↔ ∀ part ∈ parts, FitsCell part := by
  simp only [FitsCell, Text.not_mem_intercalate_iff h.1, Text.not_mem_intercalate_iff h.2,
    forall_and]

theorem fitsCell_valueOr_dash (v : Value) : FitsCell (valueOr dash v) ↔ FitsCell v.toText := by
  rw [valueOr]
  split_ifs with h
  · obtain rfl : v = .null := by cases v <;> first | rfl | cases h
    exact iff_of_true (by decide) (by decide)
  · rfl

theorem fitsCell_scratchLabel (m : MachineType) :
    FitsCell (scratchLabel m) ↔ ∀ v ∈ m.scratchDisksSizeGb.getD [], FitsCell v.toText := by
  have hdash : FitsCell dash := by decide
  have hcomma : FitsCell ", " := by decide
  rw [scratchLabel]
  split
  · rename_i h
    rw [h]
    exact iff_of_true hdash (List.forall_mem_nil _)
  · rename_i h
    rw [h]
    exact iff_of_true hdash (List.forall_mem_nil _)
  · rename_i sizes _ h
    rw [h, fitsCell_intercalate hcomma]
    exact List.forall_mem_map

theorem fitsCell_statusLabel (m : MachineType) : FitsCell (statusLabel true m) ↔
    ∀ d ∈ m.deprecationStatus, ∀ r ∈ d.replacement, FitsCell r.machineType := by
  have hbadge : ∀ s, FitsCell (statusBadge s) := fun s => by cases s <;> decide
  have harrow : FitsCell " → " := by decide
  have hquote : FitsCell "`" := by decide
  rw [statusLabel]
  cases m.deprecationStatus with
  | none => exact iff_of_true (hbadge _) (by simp)
  | some d =>
    cases hr : d.replacement with
    | none => simp [hr, hbadge]
    | some r => simp [hr, hbadge, harrow, hquote, fitsCell_append]

/-- **A machine type is tame when its cells are**, and its zone is. -/
theorem tame_iff {m : MachineType} :
    Tame m ↔ CodePoint.ofChar '\n' ∉ zoneText m ∧ ∀ cell ∈ cells m, FitsCell cell := by
  have hquote : FitsCell "`" := by decide
  have hcells : (∀ cell ∈ cells m, FitsCell cell) ↔ FitsCell m.name ∧
      (∀ v ∈ m.maximumPersistentDisksSizeGb :: shownValues m, FitsCell v.toText) ∧
      ∀ d ∈ m.deprecationStatus, ∀ r ∈ d.replacement, FitsCell r.machineType := by
    simp only [cells, shownValues, List.forall_mem_cons, List.forall_mem_append,
      fitsCell_append, fitsCell_valueOr_dash, fitsCell_scratchLabel, fitsCell_statusLabel,
      List.not_mem_nil, false_imp_iff, implies_true, hquote, true_and, and_true]
    tauto
  rw [hcells]
  constructor
  · intro h
    exact ⟨h.zone, h.name, h.values, h.replacement⟩
  · rintro ⟨hzone, hname, hvalues, hreplacement⟩
    exact ⟨hzone, hname, hvalues, hreplacement⟩

/-! ### Rows and lines -/

/-- A cell between two blanks. -/
def spaced (cell : Text) : Text := " " ++ cell ++ " "

theorem mem_spaced_iff {c : CodePoint} (h : c ∉ (" " : Text)) (cell : Text) :
    c ∈ spaced cell ↔ c ∈ cell := by
  rw [spaced, List.mem_append, List.mem_append, or_iff_left h, or_iff_right h]

/-- A row is its cells, each between two blanks, joined by bars. -/
theorem row_eq (m : MachineType) :
    row m = [CodePoint.ofChar '|'].intercalate ([] :: ((cells m).map spaced ++ [[]])) := by
  have hbar : (" | " : Text) = " " ++ CodePoint.ofChar '|' :: " " := by decide
  have hstart : ("| " : Text) = CodePoint.ofChar '|' :: " " := by decide
  have hend : (" |" : Text) = " " ++ [CodePoint.ofChar '|'] := by decide
  simp only [row, cells, spaced, hbar, hstart, hend, List.map_cons, List.map_nil,
    List.cons_append, List.nil_append, List.append_assoc, List.intercalate_cons_cons,
    List.intercalate_singleton, List.append_nil]

/-- A row has the cells of the header exactly if none of its own holds a bar. -/
theorem length_columns_row_iff (m : MachineType) :
    (columns (row m)).length = 7 ↔ ∀ cell ∈ cells m, CodePoint.ofChar '|' ∉ cell := by
  have hcolumns : columns (row m) =
      ((cells m).map spaced).flatMap (Text.splitAt (CodePoint.ofChar '|')) := by
    have hnil : Text.splitAt (CodePoint.ofChar '|') [] = [[]] := rfl
    rw [columns, row_eq, Text.splitAt_intercalate_eq_flatMap (List.cons_ne_nil _ _),
      List.flatMap_cons, List.flatMap_append, List.flatMap_singleton, hnil, List.singleton_append,
      List.tail_cons, List.dropLast_concat]
  have hseven : ((cells m).map spaced).length = 7 := rfl
  rw [hcolumns, ← hseven, Text.length_flatMap_splitAt_eq_iff, List.forall_mem_map]
  exact forall₂_congr fun cell _ => not_congr (mem_spaced_iff (by decide) cell)

/-- A row is one line exactly if none of its cells holds a line feed. -/
theorem feed_not_mem_row_iff (m : MachineType) :
    CodePoint.ofChar '\n' ∉ row m ↔ ∀ cell ∈ cells m, CodePoint.ofChar '\n' ∉ cell := by
  have hstart : CodePoint.ofChar '\n' ∉ ("| " : Text) := by decide
  have hbar : CodePoint.ofChar '\n' ∉ (" | " : Text) := by decide
  have hend : CodePoint.ofChar '\n' ∉ (" |" : Text) := by decide
  rw [row, List.mem_append, List.mem_append, or_iff_left hend, or_iff_right hstart,
    Text.not_mem_intercalate_iff hbar]

theorem feed_not_mem_preamble (now : Moment) {source : Text}
    (hsource : CodePoint.ofChar '\n' ∉ source) (count : Nat) :
    ∀ line ∈ preamble now source count, CodePoint.ofChar '\n' ∉ line := by
  have hnumber (width n : Nat) : CodePoint.ofChar '\n' ∉ Text.padded width n :=
    Text.not_mem_padded rfl width n
  have hfixed : ∀ s ∈ ["# Machine Type Catalog", "", "- **Source:** `", "`", "- **Generated:** ",
      "- **Machine types:** ", " ", ":", "-", " UTC"], CodePoint.ofChar '\n' ∉ Text.ofString s := by
    decide +kernel
  simp only [List.forall_mem_cons] at hfixed
  simp [preamble, clockMinutes, Date.text, Text.decimal_eq_padded, hfixed, hnumber, hsource]

theorem isRow_row (m : MachineType) : isRow (row m) = true := rfl

theorem isRow_preamble (now : Moment) (source : Text) (count : Nat) :
    ∀ line ∈ preamble now source count, isRow line = false := by
  simp only [preamble, List.forall_mem_cons]
  exact ⟨rfl, rfl, rfl, rfl, rfl, rfl, List.forall_mem_nil _⟩

theorem filter_isRow_zoneLines (zone : Text) (members : List MachineType) :
    (zoneLines zone members).filter isRow = members.map row := by
  have hhead : (("## " ++ zone) :: "" :: tableHead).filter isRow = [] := rfl
  have hrows : (members.map row).filter isRow = members.map row :=
    List.filter_eq_self.2 (List.forall_mem_map.2 fun m _ => isRow_row m)
  have hblank : [([] : Text)].filter isRow = [] := rfl
  show ((("## " ++ zone) :: "" :: tableHead) ++ members.map row ++ [[]]).filter isRow = _
  rw [List.filter_append, List.filter_append, hhead, hrows, hblank, List.nil_append,
    List.append_nil]

theorem filter_not_isRow_zoneLines (zone : Text) (members : List MachineType) :
    (zoneLines zone members).filter (!isRow ·) = zoneLines zone [] := by
  have hhead : (("## " ++ zone) :: "" :: tableHead).filter (!isRow ·) =
      ("## " ++ zone) :: "" :: tableHead := rfl
  have hrows : (members.map row).filter (!isRow ·) = [] :=
    List.filter_eq_nil_iff.2 (List.forall_mem_map.2 fun m _ => by rw [isRow_row]; decide)
  show ((("## " ++ zone) :: "" :: tableHead) ++ members.map row ++ [[]]).filter (!isRow ·) = _
  rw [List.filter_append, List.filter_append, hhead, hrows]
  rfl

/-- The rows of a catalog are those of its machine types, zone by zone. -/
theorem filter_isRow_lines (now : Moment) (source : Text) (ms : List MachineType) :
    (lines now source ms).filter isRow = ((byZone ms).flatMap Prod.snd).map row := by
  have hpreamble : (preamble now source ms.length).filter isRow = [] :=
    List.filter_eq_nil_iff.2 fun line hl => by
      rw [isRow_preamble now source ms.length line hl]
      decide
  rw [lines, List.filter_append, hpreamble, List.nil_append, List.filter_flatMap,
    List.map_flatMap]
  exact List.flatMap_congr fun z _ => filter_isRow_zoneLines z.1 z.2

theorem filter_not_isRow_lines (now : Moment) (source : Text) (ms : List MachineType) :
    (lines now source ms).filter (!isRow ·) = frame now source ms := by
  have hpreamble : (preamble now source ms.length).filter (!isRow ·) =
      preamble now source ms.length :=
    List.filter_eq_self.2 fun line hl => by
      rw [isRow_preamble now source ms.length line hl]
      rfl
  rw [lines, List.filter_append, hpreamble, List.filter_flatMap, frame]
  exact congrArg _ (List.flatMap_congr fun z _ => filter_not_isRow_zoneLines z.1 z.2)

theorem feed_not_mem_zoneLines_iff (zone : Text) (members : List MachineType) :
    (∀ line ∈ zoneLines zone members, CodePoint.ofChar '\n' ∉ line) ↔
      CodePoint.ofChar '\n' ∉ zone ∧
        ∀ m ∈ members, ∀ cell ∈ cells m, CodePoint.ofChar '\n' ∉ cell := by
  have hmark : CodePoint.ofChar '\n' ∉ ("## " : Text) := by decide
  have hblank : CodePoint.ofChar '\n' ∉ ("" : Text) := by decide
  have hhead : ∀ line ∈ tableHead, CodePoint.ofChar '\n' ∉ line := by decide +kernel
  have hend : ∀ line ∈ [([] : Text)], CodePoint.ofChar '\n' ∉ line := by decide
  rw [zoneLines, List.forall_mem_cons, List.forall_mem_cons, List.forall_mem_append,
    List.forall_mem_append, List.forall_mem_map, List.mem_append, or_iff_right hmark,
    and_iff_right hblank, and_iff_right hhead, and_iff_left hend]
  simp only [feed_not_mem_row_iff]

/-- **No line of a catalog is cut exactly if its zones and cells hold no line feed.** -/
theorem feed_not_mem_lines_iff (now : Moment) {source : Text}
    (hsource : CodePoint.ofChar '\n' ∉ source) (ms : List MachineType) :
    (∀ line ∈ lines now source ms, CodePoint.ofChar '\n' ∉ line) ↔
      ∀ m ∈ ms, CodePoint.ofChar '\n' ∉ zoneText m ∧
        ∀ cell ∈ cells m, CodePoint.ofChar '\n' ∉ cell := by
  have hzones := isStablePartition_byZone ms
  rw [lines, List.forall_mem_append, and_iff_right (feed_not_mem_preamble now hsource _),
    List.forall_mem_flatMap]
  simp only [feed_not_mem_zoneLines_iff]
  constructor
  · intro h m hm
    obtain ⟨z, hz, hkey⟩ := List.mem_map.1 ((hzones.mem_iff _).2 ⟨m, hm, rfl⟩)
    have hmember : m ∈ z.2 :=
      (hzones.perm z hz).mem_iff.2 (List.mem_filter.2 ⟨hm, decide_eq_true hkey.symm⟩)
    exact ⟨hkey ▸ (h z hz).1, (h z hz).2 m hmember⟩
  · intro h z hz
    obtain ⟨m, hm, hkey⟩ := (hzones.mem_iff _).1 (List.mem_map_of_mem hz)
    refine ⟨hkey ▸ (h m hm).1, fun member hmember => ?_⟩
    exact (h member (List.mem_of_mem_filter ((hzones.perm z hz).mem_iff.1 hmember))).2

/-! ### The text of a catalog -/

/-- The lines of a catalog are cut where they hold a line feed. -/
theorem linesOf_intercalate (now : Moment) (source : Text) (ms : List MachineType) :
    linesOf (List.intercalate "\n" (lines now source ms)) =
      (lines now source ms).flatMap linesOf :=
  Text.splitAt_intercalate_eq_flatMap (by simp [lines, preamble])

/-- **A catalog is well formed exactly if its machine types are tame.** -/
theorem isTable_iff (now : Moment) {source : Text} (hsource : CodePoint.ofChar '\n' ∉ source)
    (ms : List MachineType) :
    IsTable now source ms (List.intercalate "\n" (lines now source ms)) ↔ ∀ m ∈ ms, Tame m := by
  have hrows := filter_isRow_lines now source ms
  have hothers := filter_not_isRow_lines now source ms
  have hmembers (m : MachineType) : m ∈ (byZone ms).flatMap Prod.snd ↔ m ∈ ms :=
    (isStablePartition_byZone ms).flatMap_perm.mem_iff
  simp only [tame_iff]
  constructor
  · intro h
    -- as many lines as were joined, so none of them was cut
    have hlength : ((lines now source ms).flatMap linesOf).length =
        (lines now source ms).length := by
      rw [← linesOf_intercalate, List.length_eq_length_filter_add isRow, h.rows, h.others, ← hrows,
        ← hothers, ← List.length_eq_length_filter_add isRow]
    have hfeed := (feed_not_mem_lines_iff now hsource ms).1
      (Text.length_flatMap_splitAt_eq_iff.1 hlength)
    intro m hm
    have hrow : row m ∈ linesOf (List.intercalate "\n" (lines now source ms)) := by
      refine List.mem_of_mem_filter (p := isRow) ?_
      rw [h.rows]
      exact List.mem_map_of_mem ((hmembers m).2 hm)
    have hbar := (length_columns_row_iff m).1 (h.cells _ hrow (.inl (isRow_row m)))
    exact ⟨(hfeed m hm).1, fun cell hc => ⟨(hfeed m hm).2 cell hc, hbar cell hc⟩⟩
  · intro h
    have huncut : linesOf (List.intercalate "\n" (lines now source ms)) =
        lines now source ms :=
      Text.splitAt_intercalate (by simp [lines, preamble])
        ((feed_not_mem_lines_iff now hsource ms).2
          fun m hm => ⟨(h m hm).1, fun cell hc => ((h m hm).2 cell hc).1⟩)
    refine ⟨(congrArg _ huncut).trans hrows, (congrArg _ huncut).trans hothers, ?_⟩
    rintro line hl (hr | hhead)
    · rw [huncut] at hl
      have hmem : line ∈ (lines now source ms).filter isRow := List.mem_filter.2 ⟨hl, hr⟩
      rw [hrows] at hmem
      obtain ⟨m, hm, rfl⟩ := List.mem_map.1 hmem
      exact (length_columns_row_iff m).2 fun cell hc => ((h m ((hmembers m).1 hm)).2 cell hc).2
    · have hseven : ∀ line ∈ tableHead, (columns line).length = 7 := by decide +kernel
      exact hseven line hhead

/-- **A Markdown catalog is made, and it is well formed exactly if its machine types are tame.**
With machine types that were read from wire forms without integers that are too long to be
written, and a label of one line, there is a text.  It has one row for each machine type, zone by
zone, each with the seven cells of the header, and no other lines than those of the frame, if no
project, zone, name, shown value or name of a replacement holds a line feed, and none but the
project and the zone a bar; in every other case it has not. -/
theorem render_isTable_iff {ms : List MachineType}
    (hread : ∀ m ∈ ms, ∃ payload, payload.holdsLongInteger = false ∧
      MachineType.ofWire payload = .ok m) (now : Moment) {source : Text}
    (hsource : CodePoint.ofChar '\n' ∉ source) :
    ∃ text, render now source ms = .ok text ∧
      (IsTable now source ms text ↔ ∀ m ∈ ms, Tame m) := by
  have hshown : ∀ m ∈ ms, IsShown m := by
    intro m hm
    obtain ⟨payload, hlong, hp⟩ := hread m hm
    exact isShown_of_ofWire hlong hp
  exact ⟨_, requireShown_bind_eq_ok_iff.2 ⟨hshown, rfl⟩, isTable_iff now hsource ms⟩

/-- The wire form of a deprecated machine type with a scratch disk. -/
def deprecatedPayload : Value :=
  .object [
    ("selfLink", .text "projects/p/zones/z|y/machineTypes/m"),
    ("guestCpus", .int 2),
    ("scratchDisks", .list [.object [("diskGb", .int 375)]]),
    ("deprecated", .object [
      ("state", .text "DEPRECATED"),
      ("replacement", .text "projects/p/zones/z/machineTypes/n")])]

/-- What is read from it. -/
def deprecatedType : MachineType where
  machineTypeId := ⟨"p", "z|y", "m"⟩
  cpus := .int 2
  scratchDisksSizeGb := some [.int 375]
  deprecationStatus := some ⟨.deprecated, some ⟨"p", "z", "n"⟩, .null, .null, .null⟩

/-- A bar in the name of a zone does no harm. -/
theorem render_isTable_deprecatedType :
    let midnight : Moment := ⟨.newYear2000, ⟨0, 0, 0, 0⟩, none⟩
    ∃ text, render midnight "a|b" [deprecatedType] = .ok text ∧
      IsTable midnight "a|b" [deprecatedType] text := by
  intro midnight
  have hlong : deprecatedPayload.holdsLongInteger = false := by decide +kernel
  have hread : MachineType.ofWire deprecatedPayload = .ok deprecatedType := rfl
  have htame : Tame deprecatedType := by
    refine ⟨by decide, by decide, by decide +kernel, ?_⟩
    rintro d hd r hr
    obtain rfl := Option.some.inj hd
    obtain rfl := Option.some.inj hr
    decide
  have hsource : CodePoint.ofChar '\n' ∉ ("a|b" : Text) := by decide
  obtain ⟨text, ht, htable⟩ :=
    render_isTable_iff (List.forall_mem_singleton.2 ⟨_, hlong, hread⟩) midnight hsource
  exact ⟨text, ht, htable.2 (List.forall_mem_singleton.2 htame)⟩

/-- A machine type with a bar in its name. -/
def barredType : MachineType where
  machineTypeId := ⟨"p", "z", "a|b"⟩

/-- Its row has eight cells. -/
theorem row_barredType :
    let midnight : Moment := ⟨.newYear2000, ⟨0, 0, 0, 0⟩, none⟩
    MachineType.ofWire (.object [("selfLink", .text "projects/p/zones/z/machineTypes/a|b")]) =
      .ok barredType ∧
    ∃ text, render midnight "s" [barredType] = .ok text ∧
      (∃ line ∈ linesOf text, isRow line = true ∧ (columns line).length = 8) ∧
      ¬IsTable midnight "s" [barredType] text := by
  intro midnight
  have hshown : ∀ m ∈ [barredType], IsShown m := List.forall_mem_singleton.2 (by decide)
  have hline : row barredType ∈
      linesOf (List.intercalate "\n" (lines midnight "s" [barredType])) := by
    have hrow : row barredType ∈ (lines midnight "s" [barredType]).filter isRow := by
      rw [filter_isRow_lines]
      exact List.mem_map_of_mem
        ((isStablePartition_byZone _).flatMap_perm.mem_iff.2 (List.mem_singleton_self _))
    rw [linesOf_intercalate, List.mem_flatMap]
    exact ⟨_, List.mem_of_mem_filter hrow, by decide⟩
  have height : (columns (row barredType)).length = 8 := by decide +kernel
  refine ⟨rfl, _, requireShown_bind_eq_ok_iff.2 ⟨hshown, rfl⟩, ⟨_, hline, rfl, height⟩, ?_⟩
  intro htable
  exact absurd ((htable.cells _ hline (.inl rfl)).symm.trans height) (by decide)

end Markdown
end Report
end MachineCatalog
