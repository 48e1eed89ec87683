/-
# No machine type adds markup to an HTML catalog

The delimiters of a catalog depend on nothing but how many machine types each zone has and
which of them may be used (`Html.marks_lines`); its links are those of its rows, each to the
self link of a machine type (`Html.addsLines_lines`).  So whatever stands in a name, a zone, a
number, a status or the source label, no tag is opened or closed by it, and no attribute
(`Html.render_same_markup`).
-/

import MachineCatalog.Proofs.Calendar.Ordinal
import MachineCatalog.Proofs.Report.Markup
import MachineCatalog.Proofs.Report.Showing
import Mathlib.Data.List.Basic

namespace MachineCatalog
namespace Report
namespace Html

/-! ### Delimiters of the lines -/

/-- Which machine types of each zone may be used. -/
def pattern (ms : List MachineType) : List (List Bool) :=
  (byZone ms).map fun z => z.2.map MachineType.isUsable

/-- The delimiters of the tag that opens a row. -/
def startMarks : Bool → Text
  | true => "<>"
  | false => "<\"\">"

/-- The delimiters of a row. -/
def rowMarks (usable : Bool) : Text :=
  let number : Text := "<\"\"><>"
  let text : Text := "<><>"
  startMarks usable ++ "<><\"\"><><>" ++ number ++ number ++ text ++ number ++ number ++ text ++
    "<>"

theorem marks_row (m : MachineType) : (row m).flatMap marks = rowMarks m.isUsable := by
  have hstart : marks (rowStart m) = startMarks m.isUsable := by
    rw [rowStart]
    cases m.isUsable with
    | true => decide
    | false => decide
  have hnumber (v : Value) : marks (numberCell v) = "<\"\"><>" := by
    rw [numberCell, marks_append, marks_append, marks_escape]
    decide
  have htext (s : Text) : marks (textCell s) = "<><>" := by
    rw [textCell, marks_append, marks_append, marks_escape]
    decide
  have hname : marks (nameCell m) = "<><\"\"><><>" := by
    rw [nameCell, marks_append, marks_append, marks_append, marks_append, marks_escape,
      marks_escape]
    decide
  have hblank : marks "            " = [] := by decide
  have hend : marks "            </tr>" = "<>" := by decide
  simp only [row, rowMarks, List.flatMap_cons, List.flatMap_nil, hstart, hnumber, htext, hname,
    hblank, hend, List.append_assoc, List.nil_append, List.append_nil]

/-- The delimiters of the lines of a zone. -/
def zoneMarks (usable : List Bool) : Text :=
  (tableHead []).flatMap marks ++ usable.flatMap rowMarks ++ tableFoot.flatMap marks

theorem marks_zoneLines (zone : Text) (members : List MachineType) :
    (zoneLines zone members).flatMap marks = zoneMarks (members.map MachineType.isUsable) := by
  have hhead : (tableHead zone).flatMap marks = (tableHead []).flatMap marks := by
    simp only [tableHead, List.flatMap_cons, marks_append, marks_escape]
  have hrows : (members.flatMap row).flatMap marks =
      (members.map MachineType.isUsable).flatMap rowMarks := by
    rw [List.flatMap_assoc, List.flatMap_map]
    exact List.flatMap_congr fun m _ => marks_row m
  have hblank : marks "    " = [] := by decide
  rw [zoneLines, List.flatMap_cons, hblank, List.nil_append, List.flatMap_append,
    List.flatMap_append, hhead, hrows, zoneMarks]

/-- The delimiters of a catalog. -/
def pageMarks (usable : List (List Bool)) : Text :=
  headLines.flatMap marks ++ "<\"\"><>" ++ usable.flatMap zoneMarks ++ footLines.flatMap marks

/-- **The delimiters of a catalog depend on the pattern alone.** -/
theorem marks_lines (now : Moment) (source : Text) (ms : List MachineType) :
    (lines now source ms).flatMap marks = pageMarks (pattern ms) := by
  have hmeta : marks (metaLine now source ms.length) = "<\"\"><>" := by
    rw [metaLine, ← escape_decimal]
    simp only [marks_append, marks_escape]
    decide
  have hzones : ((byZone ms).flatMap fun z => zoneLines z.1 z.2).flatMap marks =
      (pattern ms).flatMap zoneMarks := by
    rw [pattern, List.flatMap_assoc, List.flatMap_map]
    exact List.flatMap_congr fun z _ => marks_zoneLines z.1 z.2
  have hblank : marks "" = [] := by decide
  rw [lines, List.flatMap_append, List.flatMap_cons, List.flatMap_cons, List.flatMap_append, hmeta,
    hblank, hzones, List.nil_append, pageMarks, List.append_assoc, List.append_assoc]

/-! ### Links of the lines -/

/-- The targets of the links of a catalog: the self links of the machine types, zone by zone. -/
def targets (ms : List MachineType) : List Text :=
  (byZone ms).flatMap fun z => z.2.map fun m => escape m.machineTypeId.selfLink

theorem adds_nameCell (m : MachineType) :
    Adds (nameCell m) [escape m.machineTypeId.selfLink] := by
  have hcell : nameCell m = "                <td>" ++
      (linkStart ++ escape m.machineTypeId.selfLink ++ "\"") ++ ">" ++ escape m.name ++
        "</a></td>" := by
    have hopen : Text.ofString "                <td><a href=\"" =
        "                <td>" ++ linkStart := by decide
    have hclose : Text.ofString "\">" = "\"" ++ Text.ofString ">" := by decide
    rw [nameCell, hopen, hclose]
    simp only [List.append_assoc]
  have hcellStart : IsPlain "                <td>" := by decide
  have hbracket : IsPlain ">" := by decide
  have hcellEnd : IsPlain "</a></td>" := by decide
  rw [hcell]
  exact (((hcellStart.adds.append (adds_link _)).append hbracket.adds).append
    (adds_escape _)).append hcellEnd.adds

theorem adds_numberCell (v : Value) : Adds (numberCell v) [] := by
  have hstart : IsPlain "                <td class=\"num\">" := by decide
  have hend : IsPlain "</td>" := by decide
  exact (hstart.adds.append (adds_escape _)).append hend.adds

theorem adds_textCell (s : Text) : Adds (textCell s) [] := by
  have hstart : IsPlain "                <td>" := by decide
  have hend : IsPlain "</td>" := by decide
  exact (hstart.adds.append (adds_escape s)).append hend.adds

theorem adds_rowStart (m : MachineType) : Adds (rowStart m) [] := by
  have husable : IsPlain "            <tr>" := by decide
  have hunusable : IsPlain "            <tr class=\"unusable\">" := by decide
  rw [rowStart]
  split_ifs
  · exact husable.adds
  · exact hunusable.adds

/-- **A row has one link**, to the self link of its machine type. -/
theorem addsLines_row (m : MachineType) :
    AddsLines (row m) [escape m.machineTypeId.selfLink] := by
  have hblank : IsPlain "            " := by decide
  have hend : IsPlain "            </tr>" := by decide
  exact .cons hblank.adds <| .cons (adds_rowStart m) <| .cons (adds_nameCell m) <|
    .cons (adds_numberCell _) <| .cons (adds_numberCell _) <| .cons (adds_textCell _) <|
    .cons (adds_numberCell _) <| .cons (adds_numberCell _) <| .cons (adds_textCell _) <|
    .cons hend.adds .nil

theorem addsLines_tableHead (zone : Text) : AddsLines (tableHead zone) [] := by
  have hrest : ∀ line ∈ (tableHead []).tail, IsPlain line := by decide
  have hstart : IsPlain "    <h2>" := by decide
  have hend : IsPlain "</h2>" := by decide
  exact .cons ((hstart.adds.append (adds_escape zone)).append hend.adds)
    (addsLines_of_isPlain hrest)

theorem addsLines_zoneLines (zone : Text) (members : List MachineType) :
    AddsLines (zoneLines zone members)
      (members.map fun m => escape m.machineTypeId.selfLink) := by
  have hblank : IsPlain "    " := by decide
  have hfoot : ∀ line ∈ tableFoot, IsPlain line := by decide
  have hrows : AddsLines (members.flatMap row)
      (members.flatMap fun m => [escape m.machineTypeId.selfLink]) :=
    addsLines_flatMap members fun m _ => addsLines_row m
  have hlines := AddsLines.cons hblank.adds
    (((addsLines_tableHead zone).append hrows).append (addsLines_of_isPlain hfoot))
  rwa [List.append_nil, List.nil_append, List.nil_append, ← List.map_eq_flatMap] at hlines

theorem adds_metaLine (now : Moment) (source : Text) (count : Nat) :
    Adds (metaLine now source count) [] := by
  have hstart : IsPlain "    <div class=\"meta\">Generated: " := by decide
  have hsource : IsPlain " | Source: " := by decide
  have hversion : IsPlain " | gcemodel v" := by decide
  have hcount : IsPlain " | " := by decide
  have hend : IsPlain " machine types</div>" := by decide
  have htime := (hstart.adds.append (adds_escape (clockMinutes now))).append hsource.adds
  have hlabel := (htime.append (adds_escape source)).append hversion.adds
  have htool := (hlabel.append (adds_escape toolVersion)).append hcount.adds
  rw [metaLine, ← escape_decimal]
  exact (htool.append (adds_escape (Text.decimal count))).append hend.adds

/-- **A catalog has the links of its rows**, and no others. -/
theorem addsLines_lines (now : Moment) (source : Text) (ms : List MachineType) :
    AddsLines (lines now source ms) (targets ms) := by
  have hhead : ∀ line ∈ headLines, IsPlain line := by decide +kernel
  have hblank : IsPlain "" := by decide
  have hfoot : ∀ line ∈ footLines, IsPlain line := by decide
  have hzones : AddsLines ((byZone ms).flatMap fun z => zoneLines z.1 z.2) (targets ms) :=
    addsLines_flatMap _ fun z _ => addsLines_zoneLines z.1 z.2
  have hlines := (addsLines_of_isPlain hhead).append (.cons (adds_metaLine now source ms.length)
    (.cons hblank.adds (hzones.append (addsLines_of_isPlain hfoot))))
  rwa [List.append_nil, List.nil_append, List.nil_append, List.nil_append] at hlines

/-! ### The page -/

/-- A catalog is made unless a value that it shows holds an integer that is too long. -/
theorem render_eq_ok_iff {now : Moment} {source text : Text} {ms : List MachineType} :
    render now source ms = .ok text ↔
      (∀ m ∈ ms, ∀ v ∈ m.maximumPersistentDisksSizeGb :: shownValues m,
        v.holdsLongInteger = false) ∧
      text = List.intercalate "\n" (lines now source ms) := by
  rw [render]
  exact requireShown_bind_eq_ok_iff

/-- What the target of a link to a machine type starts with. -/
def targetStart : Text := "https://www.googleapis.com/compute/v1/projects/"

theorem targetStart_prefix (m : MachineTypeId) : targetStart <+: escape m.selfLink := by
  have hstart : escape targetStart = targetStart := by decide
  have hlink : m.selfLink = targetStart ++
      (m.project ++ "/zones/" ++ m.zone ++ "/machineTypes/" ++ m.machineType) := by
    have hbase : Identity.baseUrl ++ "projects/" = targetStart := by decide
    rw [← hbase, MachineTypeId.selfLink, ZoneId.selfLink]
    simp only [MachineTypeId.zoneId, List.append_assoc]
  rw [hlink, escape_append, hstart]
  exact List.prefix_append _ _

/-- **Machine types add no markup to a catalog.**  Two catalogs whose zones have as many machine
types each, the same of which may be used, have the same angle brackets and quotes, whatever the
machine types, the labels of the sources and the times are.  In each every ampersand starts a
character entity, and the links are those of the rows, each to the self link of its machine
type. -/
theorem render_same_markup {now now' : Moment} {source source' text text' : Text}
    {ms ms' : List MachineType} (h : pattern ms = pattern ms')
    (htext : render now source ms = .ok text) (htext' : render now' source' ms' = .ok text') :
    text.filter isDelimiter = text'.filter isDelimiter ∧ EntitiesOnly text ∧
      links text = targets ms ∧ ∀ target ∈ links text, targetStart <+: target := by
  obtain ⟨-, rfl⟩ := render_eq_ok_iff.1 htext
  obtain ⟨-, rfl⟩ := render_eq_ok_iff.1 htext'
  have hadds := (addsLines_lines now source ms).intercalate
  have hlinks : links (List.intercalate "\n" (lines now source ms)) = targets ms := by
    have hrest := hadds.links []
    rwa [List.append_nil, links, List.append_nil] at hrest
  refine ⟨?_, hadds.entities, hlinks, ?_⟩
  · show marks _ = marks _
    rw [marks_intercalate, marks_intercalate, marks_lines, marks_lines, h]
  · intro target ht
    rw [hlinks] at ht
    obtain ⟨z, -, hz⟩ := List.mem_flatMap.1 ht
    obtain ⟨m, -, rfl⟩ := List.mem_map.1 hz
    exact targetStart_prefix m.machineTypeId

/-- A machine type that tries to close what a row opens. -/
def hostileType : MachineType where
  machineTypeId := ⟨"p\"", "<z>", "m'&"⟩
  cpus := .text "\"><script>"
  scratchDisksSizeGb := some [.text "</td>"]
  deprecationStatus := some ⟨.deprecated, some ⟨"p", "z", "<b>"⟩, .null, .null, .null⟩

/-- One that does not. -/
def plainType : MachineType where
  machineTypeId := ⟨"p", "z", "m"⟩

theorem byZone_singleton (m : MachineType) : byZone [m] = [(zoneText m, [m])] := by
  simp [byZone, distinctSorted, List.eraseReps, List.eraseRepsBy, List.eraseRepsBy.loop]

/-- An hour of New Year's day of the year 2000. -/
def newYearAt (hour : Nat) : Moment := ⟨.newYear2000, ⟨hour, 0, 0, 0⟩, none⟩

/-- Their catalogs have the same markup, and the hostile one has one link. -/
theorem render_same_markup_hostileType :
    pattern [hostileType] = pattern [plainType] ∧ ∃ text text',
      render (newYearAt 0) "</div>" [hostileType] = .ok text ∧
      render (newYearAt 12) "a" [plainType] = .ok text' ∧
      text.filter isDelimiter = text'.filter isDelimiter ∧
      links text = [targetStart ++ "p&#34;/zones/&lt;z&gt;/machineTypes/m&#39;&amp;"] := by
  have hpattern : pattern [hostileType] = pattern [plainType] := by
    rw [pattern, pattern, byZone_singleton, byZone_singleton]
    rfl
  have htext : render (newYearAt 0) "</div>" [hostileType] =
      .ok (List.intercalate "\n" (lines (newYearAt 0) "</div>" [hostileType])) :=
    render_eq_ok_iff.2 ⟨by decide, rfl⟩
  have htext' : render (newYearAt 12) "a" [plainType] =
      .ok (List.intercalate "\n" (lines (newYearAt 12) "a" [plainType])) :=
    render_eq_ok_iff.2 ⟨by decide, rfl⟩
  obtain ⟨hmarks, -, hlinks, -⟩ := render_same_markup hpattern htext htext'
  refine ⟨hpattern, _, _, htext, htext', hmarks, ?_⟩
  rw [hlinks, targets, byZone_singleton]
  decide

end Html
end Report
end MachineCatalog
