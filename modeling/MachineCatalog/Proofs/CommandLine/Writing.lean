/-
# What a run of `describe` writes

A run comes to a file only when it has read its settings, collected machine types without a
failure, kept some of them, and made the report on them for a path (`DescribeOrder.Builds`).  The
report is that of the format which the user asks for, or else the settings, and a table is written
as Markdown (`IsReport`).  Then the run opens the file and writes the report
(`DescribeOrder.Builds.run_eq`).  Whichever other way it goes, the world stays as it was
(`DescribeOrder.world_run_of_not_builds`), and so it does when the file cannot be opened.  So a
finished report is all that a run leaves behind (`DescribeOrder.run_writes_report`), even where
the report replaces a file that the run has read.

The run ends with exit code 0 then, unless it fails behind the writing: over a report with half of
a surrogate pair, of which the file stays empty, or over the marks in the name of the file
(`DescribeOrder.run_fails_behind_writing`).
-/

import MachineCatalog.Proofs.CommandLine.Rejections
import MachineCatalog.Proofs.FileSystem
import MachineCatalog.Proofs.Report.Showing

namespace MachineCatalog

namespace Text

theorem exists_octets? {t : Text} (h : t.any CodePoint.isHalf = false) :
    ∃ content, t.octets? = some content := by
  rw [octets?, toString?, h]
  exact ⟨_, rfl⟩

theorem octets?_eq_none {t : Text} (h : t.any CodePoint.isHalf = true) : t.octets? = none := by
  rw [octets?, toString?, h]
  rfl

end Text

namespace CommandLine

@[simp] theorem Outcome.world_failed (w : World) (e : Failure) :
    (Outcome.failed w e).world = w := rfl

@[simp] theorem Outcome.world_quiet (w : World) (code : Nat) :
    (Outcome.quiet w code).world = w := rfl

@[simp] theorem Outcome.world_print (w : World) (text : Text) :
    (Outcome.print w text).world = w := by
  unfold Outcome.print
  split <;> rfl

@[simp] theorem Outcome.world_after (r : Outcome) (notices : List Notice) :
    (r.after notices).world = r.world := rfl

@[simp] theorem Outcome.ending_after (r : Outcome) (notices : List Notice) :
    (r.after notices).ending = r.ending := rfl

theorem Outcome.world_telling {w : World} {next : Outcome} (h : next.world = w) (n : Notice) :
    (Outcome.telling w n next).world = w := by
  unfold Outcome.telling
  split
  · exact h
  · rfl

/-- The text is the report on machine types that a file gets in this format. -/
inductive IsReport (now : Moment) (source : Text) (ms : List MachineType) :
    ReportFormat → Text → Prop where
  | json {text : Text} (h : Report.Json.render now source ms = .ok text) :
    IsReport now source ms .json text
  | html {text : Text} (h : Report.Html.render now source ms = .ok text) :
    IsReport now source ms .html text
  | markdown {text : Text} (h : Report.Markdown.render now source ms = .ok text) :
    IsReport now source ms .markdown text
  | table {text : Text} (h : Report.Markdown.render now source ms = .ok text) :
    IsReport now source ms .table text

theorem reportText_eq_ok_iff {format : ReportFormat} {now : Moment} {source text : Text}
    {ms : List MachineType} :
    reportText format now source ms = .ok text ↔ IsReport now source ms format text := by
  constructor
  · intro h
    cases format with
    | json => exact .json h
    | html => exact .html h
    | markdown => exact .markdown h
    | table => exact .table h
  · intro h
    cases h with
    | json h => exact h
    | html h => exact h
    | markdown h => exact h
    | table h => exact h

namespace DescribeOrder

variable (o : DescribeOrder) (w : World)

/-- The run comes to its report, is to write it to a file, and makes it. -/
def Builds (path text : Text) : Prop :=
  o.output = some path ∧ ∃ settings ms chosen, o.Reports w settings ms chosen ∧
    IsReport w.now (List.intercalate ", " o.paths) chosen (o.format.getD settings.format) text

variable {o w} {settings : Settings} {ms chosen : List MachineType} {path text : Text}

/-- A run makes one report at most. -/
theorem Builds.eq {path' text' : Text} (h : o.Builds w path text) (h' : o.Builds w path' text') :
    path = path' ∧ text = text' := by
  obtain ⟨hpath, settings, ms, chosen, hr, ht⟩ := h
  obtain ⟨hpath', settings', ms', chosen', hr', ht'⟩ := h'
  obtain rfl := Except.ok.inj (hr.loaded.symm.trans hr'.loaded)
  obtain rfl := Except.ok.inj (hr.collected.symm.trans hr'.collected)
  obtain rfl := Except.ok.inj (hr.selected.symm.trans hr'.selected)
  have htext := (reportText_eq_ok_iff.2 ht).symm.trans (reportText_eq_ok_iff.2 ht')
  exact ⟨Option.some.inj (hpath.symm.trans hpath'), Except.ok.inj htext⟩

/-- **A report for a file is handed to its writing.** -/
theorem Builds.run_eq (h : o.Builds w path text) :
    ∃ told, o.run w = (writeReport w path text).after told := by
  obtain ⟨hpath, settings, ms, chosen, hreports, hreport⟩ := h
  have hdeliver : o.deliver w settings chosen = writeReport w path text := by
    unfold deliver
    simp only [hpath, Option.isNone_some, Bool.and_false, Bool.false_eq_true, if_false,
      reportText_eq_ok_iff.2 hreport]
  exact ⟨_, by rw [hreports.run_eq, hdeliver]⟩

/-- Nothing is written where no report for a file is made. -/
theorem world_deliver (hreports : o.Reports w settings ms chosen)
    (h : ∀ path text, ¬o.Builds w path text) : (o.deliver w settings chosen).world = w := by
  unfold deliver
  dsimp only
  split
  · cases Report.Table.render w.console.cell o.colored chosen with
    | error e => rfl
    | ok text => exact Outcome.world_print w text
  · cases hreport : reportText (o.format.getD settings.format) w.now
        (List.intercalate ", " o.paths) chosen with
    | error e => rfl
    | ok text =>
      cases hpath : o.output with
      | none => exact Outcome.world_print w _
      | some path =>
        exact absurd ⟨hpath, settings, ms, chosen, hreports, reportText_eq_ok_iff.1 hreport⟩
          (h path text)

/-- **A run that makes no report for a file leaves the world as it was.** -/
theorem world_run_of_not_builds (h : ∀ path text, ¬o.Builds w path text) : (o.run w).world = w := by
  have hcourse := course_run o w
  generalize o.run w = r at hcourse
  cases hcourse with
  | reported reports => exact world_deliver reports h
  | rejected => rfl
  | nothing => rfl
  | failed => rfl

/-- A file that cannot be opened is reported, and nothing changes. -/
theorem world_writeReport_of_not_canOpen (h : ¬w.files.CanOpen path) :
    (writeReport w path text).world = w := by
  unfold writeReport
  cases hw : w.files.write? path (text.octets?.getD .empty) with
  | none => exact Outcome.world_telling (Outcome.world_quiet w 2) _
  | some files => exact absurd ((FileSystem.canOpen_iff ..).2 ⟨files, hw⟩) h

/-- A file that is opened is written, and then the run ends with exit code 0, or fails over a
report that has no octets or over the name of the file. -/
theorem exists_writeReport (hopen : w.files.CanOpen path) :
    ∃ files, w.files.write? path (text.octets?.getD .empty) = some files ∧
      (writeReport w path text).world = { w with files := files } ∧
      (writeReport w path text).ending =
        if text.octets?.isNone then .failed (.defect .unpairedHalf)
        else if w.console.shows (.written path) then .exit 0
        else .failed (.defect .unfitMarks) := by
  obtain ⟨files, hfiles⟩ := (FileSystem.canOpen_iff _ _ (text.octets?.getD .empty)).1 hopen
  refine ⟨files, hfiles, ?_⟩
  unfold writeReport
  rw [hfiles]
  cases text.octets? with
  | none => exact ⟨rfl, rfl⟩
  | some content =>
    exact ⟨Outcome.world_telling (Outcome.world_quiet _ _) _, Outcome.ending_telling ..⟩

/-- **A run that has made a report for a file writes it.** -/
theorem Builds.exists_run (hbuilds : o.Builds w path text) (hopen : w.files.CanOpen path) :
    ∃ files, w.files.WrittenOnly path (text.octets?.getD .empty) files ∧
      (o.run w).world = { w with files := files } ∧
      (o.run w).ending =
        if text.octets?.isNone then .failed (.defect .unpairedHalf)
        else if w.console.shows (.written path) then .exit 0
        else .failed (.defect .unfitMarks) := by
  obtain ⟨told, hrun⟩ := hbuilds.run_eq
  obtain ⟨files, hfiles, hworld, hending⟩ := @exists_writeReport w path text hopen
  refine ⟨files, FileSystem.writtenOnly_of_write? hfiles, ?_, ?_⟩
  · rw [hrun, Outcome.world_after, hworld]
  · rw [hrun, Outcome.ending_after, hending]

/-- **A run touches its output file only, and only when it has made the report.**  If it has made
a report for a file that it can open, the file holds that report, all else is as it was, and the
run ends with exit code 0.  There it fails only behind the writing: over a report that has no
octets, of which the file stays empty, or over a name of the file that the console refuses.  If
there is no such report, the world is as it was. -/
theorem run_writes_report (o : DescribeOrder) (w : World) :
    (∀ path text, o.Builds w path text → w.files.CanOpen path →
      ∃ files, w.files.WrittenOnly path (text.octets?.getD .empty) files ∧
        (o.run w).world = { w with files := files } ∧
        (o.run w).ending =
          if text.octets?.isNone then .failed (.defect .unpairedHalf)
          else if w.console.shows (.written path) then .exit 0
          else .failed (.defect .unfitMarks)) ∧
      ((∀ path text, o.Builds w path text → ¬w.files.CanOpen path) → (o.run w).world = w) := by
  refine ⟨fun path text hbuilds hopen => hbuilds.exists_run hopen, fun hnone => ?_⟩
  by_cases hbuilds : ∃ path text, o.Builds w path text
  · obtain ⟨path, text, hb⟩ := hbuilds
    obtain ⟨told, hrun⟩ := hb.run_eq
    rw [hrun, Outcome.world_after, world_writeReport_of_not_canOpen (hnone path text hb)]
  · exact world_run_of_not_builds fun path text hb => hbuilds ⟨path, text, hb⟩

/-- An order to write the Markdown catalog of a file to another one. -/
def writingOrder (output : Text) : DescribeOrder where
  paths := ["a.json"]
  format := some .markdown
  output := some output
  zone := none
  usableOnly := false
  skipInvalid := false
  config := none
  colored := true

/-- The Markdown catalog of one machine type. -/
def catalogOf (m : MachineType) : Text :=
  List.intercalate "\n" (Report.Markdown.lines (worldOf "").now "a.json" [m])

theorem builds_writingOrder {content : String} {m : MachineType} (output : Text)
    (hcollect : collect (worldOf content).files false ["a.json"] = ⟨[], .ok [m]⟩)
    (hshown : Report.IsShown m) :
    (writingOrder output).Builds (worldOf content) output (catalogOf m) := by
  have hsettings : (writingOrder output).settings (worldOf content) = ⟨[], .ok {}⟩ :=
    settings_worldOf rfl content
  have hcollected : (writingOrder output).collected (worldOf content) = ⟨[], .ok [m]⟩ :=
    collected_eq rfl rfl hcollect
  have hselects : (writingOrder output).Selects (worldOf content) {} [m] [m] :=
    ⟨congrArg Noted.outcome hsettings, congrArg Noted.outcome hcollected, none, .any rfl, rfl⟩
  have hcounted : (Console.terminal fun _ _ => []).shows (.found 1) = true := by decide +kernel
  have hrender : Report.Markdown.render (worldOf content).now "a.json" [m] = .ok (catalogOf m) :=
    Report.requireShown_bind_eq_ok_iff.2 ⟨List.forall_mem_singleton.2 hshown, rfl⟩
  exact ⟨rfl, {}, [m], [m], ⟨hselects, List.cons_ne_nil m [], hcounted⟩, .markdown hrender⟩

/-- A machine type by its identity alone. -/
def linkFile : String := "\x7b\"selfLink\": \"projects/p/zones/z/machineTypes/m\"\x7d"

/-- The machine type that is read from it. -/
def linkMachineType : MachineType := { machineTypeId := ⟨"p", "z", "m"⟩ }

theorem collect_linkFile :
    collect (worldOf linkFile).files false ["a.json"] = ⟨[], .ok [linkMachineType]⟩ := by
  have hread : Json.read (Text.unifyLineEnds linkFile.toList) =
      .ok (.object [("selfLink", .text "projects/p/zones/z/machineTypes/m")]) := by cbv
  rw [collect_worldOf hread]
  rfl

/-- The file that is read is the one that is written. -/
theorem run_writes_report_overInput :
    (writingOrder "a.json").Builds (worldOf linkFile) "a.json" (catalogOf linkMachineType) ∧
      ∃ content files, (catalogOf linkMachineType).octets? = some content ∧
        (worldOf linkFile).files.WrittenOnly "a.json" content files ∧
        ((writingOrder "a.json").run (worldOf linkFile)).world =
          { worldOf linkFile with files := files } ∧
        ((writingOrder "a.json").run (worldOf linkFile)).ending = .exit 0 := by
  have hbuilds : (writingOrder "a.json").Builds (worldOf linkFile) "a.json"
      (catalogOf linkMachineType) := builds_writingOrder _ collect_linkFile (by decide)
  have hopen : (worldOf linkFile).files.CanOpen "a.json" := rfl
  have hshown : (worldOf linkFile).console.shows (.written "a.json") = true := by decide +kernel
  have hhalves : (catalogOf linkMachineType).any CodePoint.isHalf = false := by decide +kernel
  obtain ⟨content, hcontent⟩ := Text.exists_octets? hhalves
  obtain ⟨files, hwritten, hworld, hending⟩ :=
    (run_writes_report (writingOrder "a.json") (worldOf linkFile)).1 _ _ hbuilds hopen
  rw [hcontent] at hwritten hending
  rw [hshown] at hending
  exact ⟨hbuilds, content, files, hcontent, hwritten, hworld, hending⟩

/-- A machine type whose name is half of a surrogate pair. -/
def halfFile : String :=
  "\x7b\"selfLink\": \"projects/p/zones/z/machineTypes/\\ud800\"\x7d"

/-- Half of a surrogate pair. -/
def half : Text := [CodePoint.ofNat 0xD800]

/-- What the file holds. -/
def halfPayload : Value :=
  .object [("selfLink", .text ("projects/p/zones/z/machineTypes/" ++ half))]

/-- The machine type that is read from it. -/
def halfMachineType : MachineType := { machineTypeId := ⟨"p", "z", half⟩ }

theorem collect_halfFile :
    collect (worldOf halfFile).files false ["a.json"] = ⟨[], .ok [halfMachineType]⟩ := by
  have hread : Json.read (Text.unifyLineEnds halfFile.toList) = .ok halfPayload := by cbv
  rw [collect_worldOf hread]
  rfl

/-- **A run can fail behind the writing.**  A file is replaced though a terminal refuses its name,
and another one stays empty because the report in it has no octets. -/
theorem run_fails_behind_writing :
    (∃ content files, (catalogOf linkMachineType).octets? = some content ∧
        (worldOf linkFile).files.contentAt? "reports[/2024].md" = some "old\n".toUTF8 ∧
        (worldOf linkFile).files.WrittenOnly "reports[/2024].md" content files ∧
        ((writingOrder "reports[/2024].md").run (worldOf linkFile)).world =
          { worldOf linkFile with files := files } ∧
        ((writingOrder "reports[/2024].md").run (worldOf linkFile)).ending =
          .failed (.defect .unfitMarks)) ∧
      ∃ files, (worldOf halfFile).files.contentAt? "out.md" = none ∧
        (worldOf halfFile).files.WrittenOnly "out.md" .empty files ∧
        ((writingOrder "out.md").run (worldOf halfFile)).world =
          { worldOf halfFile with files := files } ∧
        ((writingOrder "out.md").run (worldOf halfFile)).ending =
          .failed (.defect .unpairedHalf) := by
  constructor
  · have hbuilds : (writingOrder "reports[/2024].md").Builds (worldOf linkFile) "reports[/2024].md"
        (catalogOf linkMachineType) := builds_writingOrder _ collect_linkFile (by decide)
    have hopen : (worldOf linkFile).files.CanOpen "reports[/2024].md" := rfl
    have hrefused : (worldOf linkFile).console.shows (.written "reports[/2024].md") = false := by
      decide +kernel
    have hhalves : (catalogOf linkMachineType).any CodePoint.isHalf = false := by decide +kernel
    obtain ⟨content, hcontent⟩ := Text.exists_octets? hhalves
    obtain ⟨files, hwritten, hworld, hending⟩ := hbuilds.exists_run hopen
    rw [hcontent] at hwritten hending
    rw [hrefused] at hending
    exact ⟨content, files, hcontent, rfl, hwritten, hworld, hending⟩
  · have hbuilds : (writingOrder "out.md").Builds (worldOf halfFile) "out.md"
        (catalogOf halfMachineType) := builds_writingOrder _ collect_halfFile (by decide)
    have hopen : (worldOf halfFile).files.CanOpen "out.md" := rfl
    have hhalves : (catalogOf halfMachineType).any CodePoint.isHalf = true := by decide +kernel
    obtain ⟨files, hwritten, hworld, hending⟩ := hbuilds.exists_run hopen
    rw [Text.octets?_eq_none hhalves] at hwritten hending
    exact ⟨files, rfl, hwritten, hworld, hending⟩

end DescribeOrder
end CommandLine
end MachineCatalog
