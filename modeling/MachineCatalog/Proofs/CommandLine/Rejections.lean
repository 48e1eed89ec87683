/-
# Rejections in a run of `describe`

The command reads settings, collects machine types, selects some of them and makes a report.
How a run can go is said once (`DescribeOrder.course_run`): it comes to its report, or it tells of
a rejection, or nothing is left to describe, or a defect ends it.

A rejection while it collects is told, and the run ends with exit code 2
(`DescribeOrder.run_of_collecting`), unless the console refuses the message.  Settings and the
selection reject nothing, and of the reports only those in JSON do
(`DescribeOrder.unrejecting_report`).

A JSON report rejects a time outside the years 1 to 9999, to which an offset from UTC can lead.
Nothing handles that rejection.  It is the only one: a run ends with an unhandled rejection
exactly when a JSON report meets such a time (`DescribeOrder.run_of_rejects`).
-/

import MachineCatalog.CommandLine.Describe
import MachineCatalog.Proofs.Calendar.Ordinal
import MachineCatalog.Proofs.Loading.Files
import MachineCatalog.Proofs.Report.Rejections
import MachineCatalog.Proofs.Report.Selecting
import Mathlib.Data.List.Permutation

namespace MachineCatalog

/-! ### Settings -/

namespace Settings

theorem unrejecting_ofFields (file : Text) (fields : List (Value × Value)) :
    Unrejecting (ofFields file fields).outcome := by
  unfold ofFields
  dsimp only
  split
  · exact unrejecting_abort _
  · split
    · exact unrejecting_ok _
    · exact unrejecting_ok _

theorem unrejecting_ofValue (file : Text) (v : Value) :
    Unrejecting (ofValue file v).outcome := by
  unfold ofValue
  split
  · exact unrejecting_ofFields file _
  · split
    · exact unrejecting_ok _
    · exact unrejecting_ofFields file []

theorem unrejecting_ofContent (file : Text) (content : ByteArray) :
    Unrejecting (ofContent file content).outcome := by
  unfold ofContent
  split
  · exact unrejecting_ofValue file _
  · exact unrejecting_ok _
  · exact unrejecting_abort _
  · exact unrejecting_abort _
  · exact unrejecting_abort _

/-- **Settings reject nothing.** -/
theorem unrejecting_load (fs : FileSystem) (path : Option Text) :
    Unrejecting (load fs path).outcome := by
  unfold load
  dsimp only
  split
  · split
    · exact unrejecting_ofContent _ _
    · exact unrejecting_ok _
  · split
    · exact unrejecting_ok _
    · exact unrejecting_ok _

end Settings

namespace CommandLine

/-- What is found at one of the paths. -/
def found (files : FileSystem) (skip : Bool) (path : Text) : Noted (List MachineType) :=
  if files.contains path then Loading.parsePath files skip path
  else ⟨[.missingPath path], .ok []⟩

theorem collect_cons (files : FileSystem) (skip : Bool) (path : Text) (paths : List Text) :
    collect files skip (path :: paths) =
      Noted.append (found files skip path) (collect files skip paths) := by
  rw [collect, found, Noted.append]
  split
  · rfl
  · rfl

/-- **What is collected is as the reader of wire forms gives it.** -/
theorem yields_collect (files : FileSystem) (skip : Bool) (paths : List Text) :
    (collect files skip paths).Yields MachineType.IsRead := by
  induction paths with
  | nil => exact Noted.yields_nil _ _
  | cons path paths ih =>
    rw [collect_cons]
    refine Noted.Yields.append ?_ ih
    unfold found
    split
    · exact Loading.yields_parsePath files skip path
    · exact Noted.yields_nil _ _

namespace Outcome

variable {w : World} {n : Notice}

theorem telling_of_shown (h : w.console.shows n = true) (next : Outcome) :
    telling w n next = next.after [n] := if_pos h

theorem telling_of_refused (h : w.console.shows n = false) (next : Outcome) :
    telling w n next = failed w (.defect .unfitMarks) := by
  rw [telling, h, if_neg Bool.false_ne_true]

theorem ending_telling (w : World) (n : Notice) (next : Outcome) :
    (telling w n next).ending =
      if w.console.shows n then next.ending else .failed (.defect .unfitMarks) := by
  unfold telling
  split <;> rfl

end Outcome

namespace DescribeOrder

variable (o : DescribeOrder) (w : World)

theorem unrejecting_settings : Unrejecting (o.settings w).outcome := by
  intro why h
  exact Settings.unrejecting_load _ _ why (Noted.outcome_printedOn_eq_rejected_iff.1 h).2

/-- The report that the run prints or writes, as it is made. -/
def report (settings : Settings) (ms : List MachineType) : Except Failure Text :=
  if o.format.getD settings.format = .table && o.output.isNone then
    Report.Table.render w.console.cell o.colored ms
  else reportText (o.format.getD settings.format) w.now (List.intercalate ", " o.paths) ms

/-- **Only JSON reports reject anything.** -/
theorem unrejecting_report {settings : Settings} {ms : List MachineType}
    (h : o.format.getD settings.format ≠ .json) : Unrejecting (o.report w settings ms) := by
  unfold report
  split
  · exact Report.Table.unrejecting_render _ _ _
  · cases hf : o.format.getD settings.format with
    | json => exact absurd hf h
    | html => exact Report.unrejecting_requireShown_bind _ _
    | markdown => exact Report.unrejecting_requireShown_bind _ _
    | table => exact Report.unrejecting_requireShown_bind _ _

theorem report_json {settings : Settings} {ms : List MachineType}
    (h : o.format.getD settings.format = .json) : o.report w settings ms =
      Report.Json.render w.now (List.intercalate ", " o.paths) ms := by
  rw [report, h]
  rfl

/-- What is done with the report once it is made. -/
def handOver (settings : Settings) (text : Text) : Outcome :=
  if o.format.getD settings.format = .table && o.output.isNone then .print w text
  else
    match o.output with
    | some path => writeReport w path text
    | none => .print w (text ++ "\n")

theorem deliver_eq (settings : Settings) (ms : List MachineType) :
    o.deliver w settings ms =
      match o.report w settings ms with
      | .error e => .failed w e
      | .ok text => o.handOver w settings text := by
  unfold deliver report handOver
  dsimp only
  split
  · cases Report.Table.render w.console.cell o.colored ms with
    | error e => rfl
    | ok text => rfl
  · cases reportText (o.format.getD settings.format) w.now (List.intercalate ", " o.paths) ms with
    | error e => rfl
    | ok text => rfl

theorem ending_print_ne (text : Text) (why : Rejection) :
    (Outcome.print w text).ending ≠ .failed (.rejected why) := by
  unfold Outcome.print
  split
  · exact nofun
  · exact nofun

theorem ending_writeReport_ne (path text : Text) (why : Rejection) :
    (writeReport w path text).ending ≠ .failed (.rejected why) := by
  unfold writeReport
  split
  · rw [Outcome.ending_telling]
    split
    · exact nofun
    · exact nofun
  · dsimp only
    split
    · rw [Outcome.ending_telling]
      split
      · exact nofun
      · exact nofun
    · exact nofun

/-- Once the report is made, nothing is rejected. -/
theorem ending_handOver_ne (settings : Settings) (text : Text) (why : Rejection) :
    (o.handOver w settings text).ending ≠ .failed (.rejected why) := by
  unfold handOver
  split
  · exact ending_print_ne w _ why
  · split
    · exact ending_writeReport_ne w _ _ why
    · exact ending_print_ne w _ why

/-- The run comes as far as to select machine types: its settings are loaded, machine types are
collected, and of these it keeps those of the zone that is asked for, or those only that may be
used. -/
structure Selects (settings : Settings) (ms chosen : List MachineType) : Prop where
  loaded : (o.settings w).outcome = .ok settings
  collected : (o.collected w).outcome = .ok ms
  kept : ∃ zone, Identity.AsksFor (o.wantedZone settings) zone ∧
    chosen = Report.kept zone o.usableOnly ms

/-- The run comes to its report: it has selected some machine types, and the console has shown
how many. -/
structure Reports (settings : Settings) (ms chosen : List MachineType) : Prop extends
    o.Selects w settings ms chosen where
  nonempty : chosen ≠ []
  counted : w.console.shows (.found chosen.length) = true

/-- A step of the run ends with the rejection. -/
inductive Rejects (why : Rejection) : Prop
  | loading (h : (o.settings w).outcome = .error (.rejected why))
  | collecting {settings : Settings} (loaded : (o.settings w).outcome = .ok settings)
    (h : (o.collected w).outcome = .error (.rejected why))
  | selecting {settings : Settings} {ms : List MachineType}
    (loaded : (o.settings w).outcome = .ok settings) (collected : (o.collected w).outcome = .ok ms)
    (h : Report.select ms (o.wantedZone settings) o.usableOnly = .error (.rejected why))
  | reporting {settings : Settings} {ms chosen : List MachineType}
    (reports : o.Reports w settings ms chosen)
    (h : o.report w settings chosen = .error (.rejected why))

/-- The report is in JSON, and the rejection is that of the first time of the machine types
that is outside the years 1 to 9999. -/
def MeetsTime (settings : Settings) (chosen : List MachineType) (why : Rejection) : Prop :=
  o.format.getD settings.format = .json ∧
    ∃ n, Report.Json.outside? chosen = some n ∧ why = .timestampRange (.int n)

/-- The run comes to a JSON report, and that cannot write a time. -/
def RejectsTime (why : Rejection) : Prop :=
  ∃ settings ms chosen, o.Reports w settings ms chosen ∧ o.MeetsTime settings chosen why

variable {o w} {settings : Settings} {ms chosen : List MachineType} {why : Rejection}

theorem not_rejectsTime (h : ∀ n, why ≠ .timestampRange (.int n)) : ¬o.RejectsTime w why := by
  rintro ⟨_, _, _, -, -, n, -, hwhy⟩
  exact h n hwhy

theorem Selects.selected (h : o.Selects w settings ms chosen) :
    Report.select ms (o.wantedZone settings) o.usableOnly = .ok chosen :=
  Report.select_eq_ok_iff.2 h.kept

theorem Selects.isRead (h : o.Selects w settings ms chosen) : ∀ m ∈ chosen, m.IsRead := by
  intro m hm
  have hall := (yields_collect w.files o.skipInvalid o.paths).printedOn ms h.collected
  exact hall m (Report.mem_of_select h.selected hm)

/-- **A report that rejects is a JSON report**, and rejects a time. -/
theorem Selects.report_eq_rejected_iff (h : o.Selects w settings ms chosen) :
    o.report w settings chosen = .error (.rejected why) ↔ o.MeetsTime settings chosen why := by
  by_cases hf : o.format.getD settings.format = .json
  · rw [report_json o w hf, Report.Json.render_eq_rejected_iff h.isRead]
    exact (and_iff_right hf).symm
  · constructor
    · intro he
      exact absurd he (unrejecting_report o w hf why)
    · rintro ⟨hjson, -⟩
      exact absurd hjson hf

theorem ending_deliver_iff :
    (o.deliver w settings chosen).ending = .failed (.rejected why) ↔
      o.report w settings chosen = .error (.rejected why) := by
  rw [deliver_eq]
  cases o.report w settings chosen with
  | error e =>
    show Ending.failed e = _ ↔ _
    simp
  | ok text =>
    constructor
    · intro he
      exact absurd he (ending_handOver_ne o w settings text why)
    · intro he
      cases he

/-! ### The run -/

theorem run_of_loaded (loaded : (o.settings w).outcome = .ok settings) :
    o.run w = (o.proceed w settings (o.collected w).outcome).after
      ((o.settings w).notices ++ (o.collected w).notices) := by
  rw [run, loaded]

theorem Selects.run_eq (h : o.Selects w settings ms chosen) :
    o.run w = Outcome.after
      (if chosen = [] then .telling w .noneFound (.quiet w 0)
        else .telling w (.found chosen.length) (o.deliver w settings chosen))
      ((o.settings w).notices ++ (o.collected w).notices) := by
  refine (run_of_loaded h.loaded).trans (congrArg (Outcome.after · _) ?_)
  rw [h.collected]
  show o.describe w settings ms = _
  rw [describe, h.selected]
  cases chosen with
  | nil => rfl
  | cons m ms => rfl

/-- **A run that comes to its report delivers it.** -/
theorem Reports.run_eq (h : o.Reports w settings ms chosen) :
    o.run w = (o.deliver w settings chosen).after
      ((o.settings w).notices ++ (o.collected w).notices ++ [.found chosen.length]) := by
  rw [h.toSelects.run_eq, if_neg h.nonempty, Outcome.telling_of_shown h.counted]
  simp [Outcome.after]

/-- **A rejection while machine types are collected is told**, and ends the run. -/
theorem run_of_collecting (loaded : (o.settings w).outcome = .ok settings)
    (h : (o.collected w).outcome = .error (.rejected why)) :
    ∃ told, o.run w =
      if w.console.shows (.mappingError why) then ⟨w, [], told ++ [.mappingError why], .exit 2⟩
      else ⟨w, [], told, .failed (.defect .unfitMarks)⟩ := by
  refine ⟨(o.settings w).notices ++ (o.collected w).notices, ?_⟩
  rw [run_of_loaded loaded, h]
  show Outcome.after (.telling w (.mappingError why) (.quiet w 2)) _ = _
  cases hshown : w.console.shows (.mappingError why) with
  | true =>
    rw [Outcome.telling_of_shown hshown]
    rfl
  | false =>
    rw [Outcome.telling_of_refused hshown]
    exact congrArg (Outcome.mk w [] · _) (List.append_nil _)

/-- How a run can go. -/
inductive Course (o : DescribeOrder) (w : World) : Outcome → Prop where
  /-- It comes to its report. -/
  | reported {settings : Settings} {ms chosen : List MachineType} {told : List Notice}
    (reports : o.Reports w settings ms chosen) :
    Course o w ((o.deliver w settings chosen).after told)
  /-- It tells of a rejection. -/
  | rejected {told : List Notice} : Course o w ((Outcome.quiet w 2).after told)
  /-- Nothing is left to describe. -/
  | nothing {told : List Notice} : Course o w ((Outcome.quiet w 0).after told)
  /-- A defect ends it. -/
  | failed {what : Defect} {told : List Notice} :
    Course o w ((Outcome.failed w (.defect what)).after told)

/-- What fails and does not reject is a defect. -/
theorem course_failed {α : Type} {x : Except Failure α} {e : Failure} (h : Unrejecting x)
    (hx : x = .error e) (told : List Notice) : Course o w ((Outcome.failed w e).after told) := by
  cases e with
  | rejected why => exact absurd hx (h why)
  | defect what => exact .failed

/-- A run that tells something goes on as it does, or fails. -/
theorem course_telling {n : Notice} {next : Outcome} {told : List Notice}
    (h : w.console.shows n = true → Course o w (next.after (told ++ [n]))) :
    Course o w ((Outcome.telling w n next).after told) := by
  cases hshown : w.console.shows n with
  | true =>
    rw [Outcome.telling_of_shown hshown]
    have hnext := h hshown
    rw [Outcome.after, List.append_assoc] at hnext
    exact hnext
  | false =>
    rw [Outcome.telling_of_refused hshown]
    exact .failed

/-- **Every run goes one of these ways.** -/
theorem course_run (o : DescribeOrder) (w : World) : o.Course w (o.run w) := by
  cases hs : (o.settings w).outcome with
  | error e =>
    rw [run, hs]
    exact course_failed (unrejecting_settings o w) hs _
  | ok settings =>
    rw [run_of_loaded hs]
    cases hms : (o.collected w).outcome with
    | error e =>
      cases e with
      | rejected why => exact course_telling fun _ => .rejected
      | defect what => exact .failed
    | ok ms =>
      show o.Course w ((o.describe w settings ms).after _)
      rw [describe]
      cases hc : Report.select ms (o.wantedZone settings) o.usableOnly with
      | error e => exact course_failed (Report.unrejecting_select _ _ _) hc _
      | ok chosen =>
        have hselects : o.Selects w settings ms chosen := ⟨hs, hms, Report.select_eq_ok_iff.1 hc⟩
        cases chosen with
        | nil => exact course_telling fun _ => .nothing
        | cons m ms =>
          exact course_telling fun hcounted => .reported ⟨hselects, List.cons_ne_nil m ms, hcounted⟩

/-- **Only a JSON report lets a rejection through**: that of the first time which it cannot
write. -/
theorem ending_run_iff :
    (o.run w).ending = .failed (.rejected why) ↔ o.RejectsTime w why := by
  constructor
  · intro h
    have hcourse := course_run o w
    generalize o.run w = r at h hcourse
    cases hcourse with
    | @reported settings ms chosen told reports =>
      have hrejected := ending_deliver_iff.1 h
      exact ⟨settings, ms, chosen, reports, reports.report_eq_rejected_iff.1 hrejected⟩
    | rejected => cases h
    | nothing => cases h
    | failed => cases h
  · rintro ⟨settings, ms, chosen, hreports, hmeets⟩
    rw [hreports.run_eq]
    exact ending_deliver_iff.2 (hreports.report_eq_rejected_iff.2 hmeets)

/-- **Rejections end the run with exit code 2.**  Whichever step a rejection comes out of, it is
told and the run leaves everything as it was, unless a JSON report cannot write a time, or the
console refuses the message.  That rejection of a time is the only one which nothing handles. -/
theorem run_of_rejects (o : DescribeOrder) (w : World) (why : Rejection) :
    (o.Rejects w why →
        ((∃ told, o.run w = ⟨w, [], told ++ [.mappingError why], .exit 2⟩) ↔
          ¬o.RejectsTime w why ∧ w.console.shows (.mappingError why) = true) ∧
        (¬o.RejectsTime w why → w.console.shows (.mappingError why) = false →
          ∃ told, o.run w = ⟨w, [], told, .failed (.defect .unfitMarks)⟩)) ∧
      ((o.run w).ending = .failed (.rejected why) ↔ o.RejectsTime w why) := by
  refine ⟨fun h => ?_, ending_run_iff⟩
  cases h with
  | loading h => exact absurd h (unrejecting_settings o w why)
  | selecting loaded collected h => exact absurd h (Report.unrejecting_select _ _ _ why)
  | @reporting settings ms chosen reports h =>
    have ht : o.RejectsTime w why :=
      ⟨settings, ms, chosen, reports, reports.report_eq_rejected_iff.1 h⟩
    refine ⟨⟨?_, fun hnot => absurd ht hnot.1⟩, fun hnot => absurd ht hnot⟩
    rintro ⟨told, hrun⟩
    have hfailed := ending_run_iff.2 ht
    rw [hrun] at hfailed
    cases hfailed
  | collecting loaded h =>
    obtain ⟨told, hrun⟩ := run_of_collecting loaded h
    have hnot : ¬o.RejectsTime w why := by
      rintro ⟨_, _, _, hreports, -⟩
      have hms := hreports.collected
      rw [h] at hms
      cases hms
    cases hshown : w.console.shows (.mappingError why) with
    | true =>
      rw [hshown, if_pos rfl] at hrun
      exact ⟨iff_of_true ⟨told, hrun⟩ ⟨hnot, rfl⟩, nofun⟩
    | false =>
      rw [hshown, if_neg Bool.false_ne_true] at hrun
      refine ⟨iff_of_false ?_ nofun, fun _ _ => ⟨told, hrun⟩⟩
      rintro ⟨_, hexit⟩
      rw [hrun] at hexit
      cases hexit

/-- A terminal, one file with machine types, and a directory with an old report. -/
def worldOf (content : String) : World where
  programName := "gcemodel"
  files := { root := .directory [
    ("a.json", .file content.toUTF8),
    ("reports[", .directory [("2024].md", .file "old\n".toUTF8)])] }
  console := .terminal fun _ _ => []
  client := ⟨[], [], none⟩
  now := ⟨.newYear2000, ⟨0, 0, 0, 0⟩, none⟩

/-- A JSON report on that file. -/
def jsonOrder : DescribeOrder where
  paths := ["a.json"]
  format := some .json
  output := none
  zone := none
  usableOnly := false
  skipInvalid := false
  config := none
  colored := true

/-- There is no settings file. -/
theorem settings_worldOf {o : DescribeOrder} (h : o.config = none) (content : String) :
    o.settings (worldOf content) = ⟨[], .ok {}⟩ := by
  rw [settings, h]
  rfl

/-- The file is read as its one document. -/
theorem collect_worldOf {content : String} {payload : Value}
    (hread : Json.read (Text.unifyLineEnds content.toList) = .ok payload) :
    collect (worldOf content).files false ["a.json"] =
      Loading.loadDocuments false "a.json" [payload] := by
  have hfile : Loading.readFile (worldOf content).files "a.json" = .ok [payload] := by
    show (Loading.readJson content.toUTF8 >>= fun v => .ok [v]) = _
    rw [Loading.readJson, Text.ofFile?_toUTF8]
    simp only [hread]
    rfl
  have hparse : Loading.parseFile (worldOf content).files false "a.json" =
      Loading.loadDocuments false "a.json" [payload] := by
    rw [Loading.parseFile, hfile]
  show Noted.append (Loading.parseFile (worldOf content).files false "a.json") (pure []) = _
  rw [hparse, Noted.append_pure_nil]

theorem Rejects.of_read {content : String} {payload : Value} {why : Rejection}
    (hread : Json.read (Text.unifyLineEnds content.toList) = .ok payload)
    (hload : Loading.loadDocuments false "a.json" [payload] = ⟨[], .error (.rejected why)⟩) :
    jsonOrder.Rejects (worldOf content) why := by
  have hsettings : jsonOrder.settings (worldOf content) = ⟨[], .ok {}⟩ :=
    settings_worldOf rfl content
  refine .collecting (congrArg Noted.outcome hsettings)
    (Noted.outcome_printedOn_eq_rejected_iff.2 ?_)
  rw [show collect _ jsonOrder.skipInvalid jsonOrder.paths = _ from collect_worldOf hread, hload]
  exact ⟨rfl, rfl⟩

/-- A list of one machine type, which has no self link. -/
def linklessFile : String := "[\x7b\x7d]"

/-- A machine type whose self link closes a style that is not open. -/
def markedFile : String := "\x7b\"selfLink\": \"[/x]\"\x7d"

/-- The rejection of the first is told; a terminal refuses the message about the second. -/
theorem run_of_rejects_linklessFile :
    let why := Rejection.missingField "selfLink" "MachineType wire form"
    let marked := Rejection.malformedUrl (.text "[/x]") .machineType
    jsonOrder.Rejects (worldOf linklessFile) why ∧
      ¬jsonOrder.RejectsTime (worldOf linklessFile) why ∧
      (∃ told, jsonOrder.run (worldOf linklessFile) =
        ⟨worldOf linklessFile, [], told ++ [.mappingError why], .exit 2⟩) ∧
      jsonOrder.Rejects (worldOf markedFile) marked ∧
      ∃ told, jsonOrder.run (worldOf markedFile) =
        ⟨worldOf markedFile, [], told, .failed (.defect .unfitMarks)⟩ := by
  intro why marked
  have hlinkless : Json.read (Text.unifyLineEnds linklessFile.toList) =
      .ok (.list [.mapping []]) := by cbv
  have hlink : Json.read (Text.unifyLineEnds markedFile.toList) =
      .ok (.object [("selfLink", .text "[/x]")]) := by cbv
  have hrejects : jsonOrder.Rejects (worldOf linklessFile) why := .of_read hlinkless rfl
  have hmarked : jsonOrder.Rejects (worldOf markedFile) marked := .of_read hlink rfl
  have hnot : ¬jsonOrder.RejectsTime (worldOf linklessFile) why :=
    not_rejectsTime fun n => by simp [why]
  have hnot' : ¬jsonOrder.RejectsTime (worldOf markedFile) marked :=
    not_rejectsTime fun n => by simp [marked]
  have hshown : (worldOf linklessFile).console.shows (.mappingError why) = true := by
    decide +kernel
  have hrefused : (worldOf markedFile).console.shows (.mappingError marked) = false := by
    decide +kernel
  obtain ⟨htold, -⟩ := (run_of_rejects jsonOrder (worldOf linklessFile) why).1 hrejects
  obtain ⟨-, hended⟩ := (run_of_rejects jsonOrder (worldOf markedFile) marked).1 hmarked
  exact ⟨hrejects, hnot, htold.2 ⟨hnot, hshown⟩, hmarked, hended hnot' hrefused⟩

/-- A machine type that was set up in the last second of the year 9999, an hour west of UTC. -/
def lateFile : String :=
  "\x7b\"selfLink\": \"projects/p/zones/z/machineTypes/m\", " ++
    "\"creationTimestamp\": \"9999-12-31T23:59:59-01:00\"\x7d"

/-- What the file holds. -/
def latePayload : Value := .object [
  ("selfLink", .text "projects/p/zones/z/machineTypes/m"),
  ("creationTimestamp", .text "9999-12-31T23:59:59-01:00")]

/-- The machine type that is read from it. -/
def lateMachineType : MachineType where
  machineTypeId := ⟨"p", "z", "m"⟩
  creationTimestamp := .int 253402304399000

theorem collect_lateFile :
    collect (worldOf lateFile).files false ["a.json"] = ⟨[], .ok [lateMachineType]⟩ := by
  have hread : Json.read (Text.unifyLineEnds lateFile.toList) = .ok latePayload := by cbv
  rw [collect_worldOf hread]
  rfl

/-- A single file is collected without a notice. -/
theorem collected_eq {o : DescribeOrder} {content : String} {m : MachineType}
    (hpaths : o.paths = ([("a.json" : Text)] : List Text)) (hstrict : o.skipInvalid = false)
    (h : collect (worldOf content).files false ["a.json"] = ⟨[], .ok [m]⟩) :
    o.collected (worldOf content) = ⟨[], .ok [m]⟩ := by
  rw [collected, hpaths, hstrict, h]
  rfl

/-- **A time that was read ends the run with an unhandled rejection**, after its machine type was
counted. -/
theorem run_lateFile :
    (collect (worldOf lateFile).files false ["a.json"]).outcome = .ok [lateMachineType] ∧
      jsonOrder.run (worldOf lateFile) = ⟨worldOf lateFile, [], [.found 1],
        .failed (.rejected (.timestampRange (.int 253402304399000)))⟩ := by
  have hsettings : jsonOrder.settings (worldOf lateFile) = ⟨[], .ok {}⟩ :=
    settings_worldOf rfl lateFile
  have hcollected : jsonOrder.collected (worldOf lateFile) = ⟨[], .ok [lateMachineType]⟩ :=
    collected_eq rfl rfl collect_lateFile
  have hread : ∀ m ∈ [lateMachineType], m.IsRead :=
    yields_collect _ _ _ _ (congrArg Noted.outcome collect_lateFile)
  have hfirst : Report.Json.outside? [lateMachineType] = some 253402304399000 := by decide
  have hdeliver : jsonOrder.deliver (worldOf lateFile) {} [lateMachineType] =
      .failed (worldOf lateFile) (.rejected (.timestampRange (.int 253402304399000))) := by
    rw [deliver_eq, report_json _ _ rfl,
      (Report.Json.render_eq_rejected_iff hread _ _ _).2 ⟨_, hfirst, rfl⟩]
  have hcounted : (worldOf lateFile).console.shows (.found 1) = true := by decide +kernel
  have hreports : jsonOrder.Reports (worldOf lateFile) {} [lateMachineType] [lateMachineType] :=
    ⟨⟨congrArg Noted.outcome hsettings, congrArg Noted.outcome hcollected, none, .any rfl, rfl⟩,
      List.cons_ne_nil _ _, hcounted⟩
  refine ⟨congrArg Noted.outcome collect_lateFile, ?_⟩
  rw [hreports.run_eq, hdeliver, hsettings, hcollected]
  rfl

end DescribeOrder
end CommandLine
end MachineCatalog
