import CodeSurvey.Analysis
import CodeSurvey.Proofs.Survey
import CodeSurvey.Proofs.Writing

/-! # What comes of an analysis

An analysis has something to report if its settings can be read, its root is a directory, and the
survey has an outcome (`Analysis.Reports`).  What comes of it then is that the report is delivered
(`outcome_of_reports`); without it, the analysis fails (`outcome_cases`).

* `outcome_allOrNothing`: an analysis that fails prints nothing and leaves the file system as it
  was, and one that does not fail prints its report or writes the same report to a file.
* `run_stating`: an analysis with a settings file comes to the same as one whose arguments state
  themselves what the file states (`AnalyzeArguments.stating`). -/

namespace CodeSurvey

open CommandLine (AnalyzeArguments)

namespace Analysis

variable {fs gs : FileSystem} {colours : Bool} {a : AnalyzeArguments} {s : Settings} {c : Codebase}
  {path : String} {notices : List Notice}

/-- Whether an analysis gets as far as its survey, with some settings. -/
structure Surveys (fs : FileSystem) (a : AnalyzeArguments) (s : Settings) : Prop where
  settings : settingsFor fs a = .ok s
  directory : fs.isDirectory a.path = .ok true

/-- The report of a codebase. -/
def report (a : AnalyzeArguments) (s : Settings) (colours : Bool) (c : Codebase) : String :=
  Report.write (formatOf a s) colours a.path (reported a s c)

/-! ### Delivery -/

theorem deliver_none (h : a.output = none) (fs : FileSystem) (colours : Bool) (s : Settings)
    (c : Codebase) (notices : List Notice) :
    deliver fs colours a s c notices = ⟨none, report a s colours c, fs, notices⟩ := by
  unfold deliver
  rw [h]
  rfl

theorem deliver_some (h : a.output = some path) (fs : FileSystem) (colours : Bool) (s : Settings)
    (c : Codebase) (notices : List Notice) :
    deliver fs colours a s c notices =
      match fs.write path (report a s false c).toUTF8 with
      | .error e => .failed fs notices (.noOutput path e)
      | .ok files => ⟨none, "", files, notices ++ [.reportWritten path]⟩ := by
  unfold deliver
  rw [h]
  rfl

theorem status_failed (fs : FileSystem) (notices : List Notice) (fault : AnalysisFault) :
    (AnalysisOutcome.failed fs notices fault).status = fault.status := rfl

/-- A report that is written to a file is delivered exactly if the file can be written. -/
theorem status_deliver_eq_zero_iff (fs : FileSystem) (colours : Bool) (a : AnalyzeArguments)
    (s : Settings) (c : Codebase) (notices : List Notice) :
    (deliver fs colours a s c notices).status = 0 ↔ ∀ path ∈ a.output, fs.IsWritable path := by
  cases h : a.output with
  | none =>
      rw [deliver_none h]
      simp [AnalysisOutcome.status]
  | some path =>
      rw [deliver_some h]
      have hw : (∃ gs, fs.write path (report a s false c).toUTF8 = .ok gs) ↔ fs.IsWritable path :=
        FileSystem.write_isOk_iff
      simp only [Option.mem_some_iff, forall_eq', ← hw]
      cases fs.write path (report a s false c).toUTF8 with
      | error e => simp [status_failed, AnalysisFault.status]
      | ok gs => simp [AnalysisOutcome.status]

/-- If a report cannot be delivered, nothing has happened. -/
theorem deliver_eq_failed (h : (deliver fs colours a s c notices).status ≠ 0) :
    ∃ fault : AnalysisFault,
      fault.status = 2 ∧ deliver fs colours a s c notices = .failed fs notices fault := by
  cases ho : a.output with
  | none =>
      rw [deliver_none ho] at h
      exact absurd rfl h
  | some path =>
      rw [deliver_some ho] at h ⊢
      cases hw : fs.write path (report a s false c).toUTF8 with
      | error e => exact ⟨.noOutput path e, rfl, rfl⟩
      | ok gs =>
          rw [hw] at h
          exact absurd rfl h

/-- A report that is delivered to a file is read there, and nothing is printed. -/
theorem read_files_deliver (h : (deliver fs colours a s c notices).status = 0)
    (ho : a.output = some path) :
    (deliver fs colours a s c notices).printed = "" ∧
    (deliver fs colours a s c notices).files.read path = .ok (report a s false c).toUTF8 := by
  rw [deliver_some ho] at h ⊢
  cases hw : fs.write path (report a s false c).toUTF8 with
  | error e =>
      rw [hw] at h
      cases h
  | ok gs => exact ⟨rfl, FileSystem.read_write hw⟩

section Outcome

variable [Glob.Compiler] [SourceParser] [ThreadPool]

/-- What comes of an analysis. -/
def outcome (fs : FileSystem) (colours : Bool) (a : AnalyzeArguments) : AnalysisOutcome :=
  (run fs colours a).value

/-- Whether an analysis has a codebase to report, with some settings. -/
structure Reports (fs : FileSystem) (a : AnalyzeArguments) (s : Settings) (c : Codebase) : Prop
    extends Surveys fs a s where
  survey : Survey.outcome fs (surveyOf a s) = .ok c

/-! ### Up to the survey -/

theorem outcome_of_surveys (h : Surveys fs a s) (colours : Bool) :
    outcome fs colours a =
      match Survey.outcome fs (surveyOf a s) with
      | .error fault => .failed fs (Survey.notices fs (surveyOf a s)) (.survey fault)
      | .ok c => deliver fs colours a s c (Survey.notices fs (surveyOf a s)) := by
  unfold outcome run
  rw [h.settings]
  unfold runWith
  rw [h.directory, Memo.value_bind]
  unfold Survey.outcome Survey.notices
  cases ((surveyOf a s).run fs).value.value with
  | error fault => rfl
  | ok c => rfl

theorem outcome_of_reports (h : Reports fs a s c) (colours : Bool) :
    outcome fs colours a = deliver fs colours a s c (Survey.notices fs (surveyOf a s)) := by
  rw [outcome_of_surveys h.toSurveys, h.survey]

/-- An analysis that does not get as far as its survey fails for another reason than that. -/
theorem outcome_of_not_surveys (h : ∀ s, ¬ Surveys fs a s) (colours : Bool) :
    ∃ fault : AnalysisFault, fault.status = 2 ∧ outcome fs colours a = .failed fs [] fault := by
  unfold outcome run
  cases hs : settingsFor fs a with
  | error fault => exact ⟨_, rfl, rfl⟩
  | ok s =>
      unfold runWith
      cases hd : fs.isDirectory a.path with
      | error e => exact ⟨_, rfl, rfl⟩
      | ok directory =>
          cases directory with
          | true => exact absurd ⟨hs, hd⟩ (h s)
          | false => exact ⟨_, rfl, rfl⟩

/-- An analysis fails before its survey, or with its survey, or has something to report. -/
theorem outcome_cases (fs : FileSystem) (a : AnalyzeArguments) :
    (∀ s, ¬ Surveys fs a s) ∨
    (∃ s fault, Surveys fs a s ∧ Survey.outcome fs (surveyOf a s) = .error fault) ∨
    ∃ s c, Reports fs a s c := by
  by_cases h : ∃ s, Surveys fs a s
  · obtain ⟨s, hs⟩ := h
    cases ho : Survey.outcome fs (surveyOf a s) with
    | error fault => exact .inr (.inl ⟨s, fault, hs, ho⟩)
    | ok c => exact .inr (.inr ⟨s, c, hs, ho⟩)
  · exact .inl (not_exists.mp h)

/-! ### All or nothing -/

/-- An analysis of which the survey fails fails with it. -/
theorem outcome_of_fault {fault : SurveyFault} (h : Surveys fs a s)
    (ho : Survey.outcome fs (surveyOf a s) = .error fault) (colours : Bool) :
    outcome fs colours a = .failed fs (Survey.notices fs (surveyOf a s)) (.survey fault) := by
  rw [outcome_of_surveys h, ho]

theorem status_of_not_surveys (h : ∀ s, ¬ Surveys fs a s) : (outcome fs colours a).status = 2 := by
  obtain ⟨fault, hfault, heq⟩ := outcome_of_not_surveys h colours
  rw [heq, status_failed, hfault]

theorem status_of_fault {fault : SurveyFault} (h : Surveys fs a s)
    (ho : Survey.outcome fs (surveyOf a s) = .error fault) : (outcome fs colours a).status = 1 := by
  rw [outcome_of_fault h ho]
  rfl

theorem status_of_reports (h : Reports fs a s c) :
    (outcome fs colours a).status = 0 ∨ (outcome fs colours a).status = 2 := by
  rw [outcome_of_reports h]
  by_cases hd : (deliver fs colours a s c (Survey.notices fs (surveyOf a s))).status = 0
  · exact .inl hd
  · obtain ⟨fault, hfault, heq⟩ := deliver_eq_failed hd
    exact .inr (by rw [heq, status_failed, hfault])

theorem outcome_eq_failed (h : (outcome fs colours a).status ≠ 0) :
    ∃ notices fault, outcome fs colours a = .failed fs notices fault := by
  obtain hno | ⟨s, fault, hs, ho⟩ | ⟨s, c, hr⟩ := outcome_cases fs a
  · obtain ⟨fault, -, heq⟩ := outcome_of_not_surveys hno colours
    exact ⟨_, _, heq⟩
  · exact ⟨_, _, outcome_of_fault hs ho colours⟩
  · rw [outcome_of_reports hr] at h ⊢
    obtain ⟨fault, -, heq⟩ := deliver_eq_failed h
    exact ⟨_, _, heq⟩

/-- The status after a survey without an outcome, and after that alone. -/
theorem status_eq_one_iff : (outcome fs colours a).status = 1 ↔
    ∃ s fault, Surveys fs a s ∧ Survey.outcome fs (surveyOf a s) = .error fault := by
  constructor
  · intro h
    obtain hno | hfault | ⟨s, c, hr⟩ := outcome_cases fs a
    · rw [status_of_not_surveys hno] at h
      cases h
    · exact hfault
    · have hstatus : (outcome fs colours a).status = 0 ∨ (outcome fs colours a).status = 2 :=
        status_of_reports hr
      omega
  · rintro ⟨s, fault, hs, ho⟩
    exact status_of_fault hs ho

theorem status_eq_zero_iff : (outcome fs colours a).status = 0 ↔
    ∃ s c, Reports fs a s c ∧ ∀ path ∈ a.output, fs.IsWritable path := by
  constructor
  · intro h
    obtain hno | ⟨s, fault, hs, ho⟩ | ⟨s, c, hr⟩ := outcome_cases fs a
    · rw [status_of_not_surveys hno] at h
      cases h
    · rw [status_of_fault hs ho] at h
      cases h
    · rw [outcome_of_reports hr, status_deliver_eq_zero_iff] at h
      exact ⟨s, c, hr, h⟩
  · rintro ⟨s, c, hr, hw⟩
    rw [outcome_of_reports hr, status_deliver_eq_zero_iff]
    exact hw

theorem status_eq_two (h : (outcome fs colours a).status ≠ 0)
    (h' : (outcome fs colours a).status ≠ 1) : (outcome fs colours a).status = 2 := by
  obtain hno | ⟨s, fault, hs, ho⟩ | ⟨s, c, hr⟩ := outcome_cases fs a
  · exact status_of_not_surveys hno
  · exact absurd (status_of_fault hs ho) h'
  · exact (status_of_reports hr).resolve_left h

/-- In the file to which an analysis writes there is what it would have printed. -/
theorem read_files_outcome (h : (outcome fs colours a).status = 0) (ho : a.output = some path) :
    (outcome fs colours a).printed = "" ∧
    (outcome fs false { a with output := none }).status = 0 ∧
    (outcome fs colours a).files.read path =
      .ok (outcome fs false { a with output := none }).printed.toUTF8 := by
  obtain ⟨s, c, hr, -⟩ := status_eq_zero_iff.mp h
  -- nothing but the delivery looks at where the output goes
  have hr' : Reports fs { a with output := none } s c := ⟨⟨hr.settings, hr.directory⟩, hr.survey⟩
  rw [outcome_of_reports hr] at h ⊢
  have ho' : ({ a with output := none } : AnalyzeArguments).output = none := rfl
  rw [outcome_of_reports hr', deliver_none ho']
  obtain ⟨hprinted, hread⟩ := read_files_deliver h ho
  exact ⟨hprinted, rfl, hread⟩

/-- An analysis that fails prints nothing and changes no file.  One that does not fail and writes
to a file prints nothing either, and in the file there is what it would have printed without
colours.  The file may be one of those surveyed: what is reported is the project before the file is
written.  The status is 1 if the survey has no outcome, 0 if it has one and the file for it can be
written, and 2 in all other cases. -/
theorem outcome_allOrNothing (fs : FileSystem) (colours : Bool) (a : AnalyzeArguments) :
    let o := outcome fs colours a
    (o.status ≠ 0 → o.printed = "" ∧ o.files = fs) ∧
    (o.status = 0 → ∀ path, a.output = some path →
      let p := outcome fs false { a with output := none }
      o.printed = "" ∧ p.status = 0 ∧ o.files.read path = .ok p.printed.toUTF8) ∧
    (o.status = 1 ↔ ∃ s, settingsFor fs a = .ok s ∧ fs.isDirectory a.path = .ok true ∧
      ((∃ root, Survey.outcome fs (surveyOf a s) = .error (.noSources root)) ∨
        ∃ root n, Survey.outcome fs (surveyOf a s) = .error (.noneParsed root n))) ∧
    (o.status = 0 ↔ ∃ s c, settingsFor fs a = .ok s ∧ fs.isDirectory a.path = .ok true ∧
      Survey.outcome fs (surveyOf a s) = .ok c ∧ ∀ path ∈ a.output, fs.IsWritable path) ∧
    (o.status ≠ 0 → o.status ≠ 1 → o.status = 2) := by
  refine ⟨fun h => ?_, fun h path ho => read_files_outcome h ho, ?_, ?_, status_eq_two⟩
  · obtain ⟨notices, fault, heq⟩ := outcome_eq_failed h
    rw [heq]
    exact ⟨rfl, rfl⟩
  · rw [status_eq_one_iff]
    constructor
    · rintro ⟨s, fault, hs, ho⟩
      refine ⟨s, hs.settings, hs.directory, ?_⟩
      cases fault with
      | noSources root => exact .inl ⟨root, ho⟩
      | noneParsed root n => exact .inr ⟨root, n, ho⟩
    · rintro ⟨s, hs, hd, ⟨root, ho⟩ | ⟨root, n, ho⟩⟩
      · exact ⟨s, _, ⟨hs, hd⟩, ho⟩
      · exact ⟨s, _, ⟨hs, hd⟩, ho⟩
  · rw [status_eq_zero_iff]
    constructor
    · rintro ⟨s, c, hr, hw⟩
      exact ⟨s, c, hr.settings, hr.directory, hr.survey, hw⟩
    · rintro ⟨s, c, hs, hd, ho, hw⟩
      exact ⟨s, c, ⟨⟨hs, hd⟩, ho⟩, hw⟩

end Outcome

/-- A project without source files, and arguments to write to the only file in it. -/
def sourceless : FileSystem where
  tree := .directory [("app", .directory [("notes.md", .file ⟨#[0x6f, 0x6c, 0x64]⟩)])]
  here := []

@[inherit_doc sourceless]
def overNotes : AnalyzeArguments := ⟨"app", [], none, some "app/notes.md", none, none, false⟩

/-- The file is not lost. -/
theorem outcome_allOrNothing_sourceless :
    (outcome sourceless true overNotes).status = 1 ∧
    (outcome sourceless true overNotes).printed = "" ∧
    (outcome sourceless true overNotes).files = sourceless := by
  obtain ⟨hfailed, -, hone, -, -⟩ := outcome_allOrNothing sourceless true overNotes
  have hroot : Survey.canonicalRoot sourceless "app" = "/app" := by cbv
  have hlook : sourceless.look false "/app" =
      .ok (["app"], .directory [("notes.md", .file ⟨#[0x6f, 0x6c, 0x64]⟩)]) := by cbv
  have hsources : Discovery.sources sourceless "/app" = [] := by
    unfold Discovery.sources Discovery.sourcesAt
    rw [hlook]
    decide +kernel
  have hfound : Survey.found sourceless (surveyOf overNotes .default) = [] := by
    show (discover sourceless (Survey.canonicalRoot sourceless "app") []).value = []
    rw [hroot, Discovery.value_discover, hsources, List.filter_nil]
  have hsurvey : Survey.outcome sourceless (surveyOf overNotes .default) =
      .error (.noSources (Survey.canonicalRoot sourceless "app")) := by
    rw [Survey.outcome_eq]
    exact if_pos hfound
  have hdirectory : sourceless.isDirectory "app" = .ok true := by cbv
  have h := hone.mpr ⟨.default, rfl, hdirectory, .inl ⟨_, hsurvey⟩⟩
  exact ⟨h, hfailed (by rw [h]; exact one_ne_zero)⟩

/-! ### Settings in arguments -/

end Analysis

/-- Arguments that name no settings file and state themselves what settings add to those given. -/
def CommandLine.AnalyzeArguments.stating (a : AnalyzeArguments) (s : Settings) : AnalyzeArguments :=
  { a with
    settings := none
    excludes := s.excludePatterns ++ a.excludes
    jobs := a.jobs.or s.jobs
    format := some ((a.format.or s.format).getD .pretty)
    includePrivate := a.includePrivate || s.includePrivate }

/-- What the arguments state counts, whatever the settings say. -/
theorem CommandLine.AnalyzeArguments.stating_congr {a : AnalyzeArguments} {s s' : Settings}
    (hexcludes : s'.excludePatterns = s.excludePatterns)
    (hprivate : s'.includePrivate = s.includePrivate)
    (hjobs : a.jobs = none → s'.jobs = s.jobs) (hformat : a.format = none → s'.format = s.format) :
    a.stating s' = a.stating s := by
  have ej : a.jobs.or s'.jobs = a.jobs.or s.jobs := by
    cases h : a.jobs with
    | none => rw [hjobs h]
    | some n => rfl
  have ef : a.format.or s'.format = a.format.or s.format := by
    cases h : a.format with
    | none => rw [hformat h]
    | some f => rfl
  unfold stating
  rw [hexcludes, hprivate, ej, ef]

namespace Analysis

variable {fs gs : FileSystem} {colours : Bool} {a : AnalyzeArguments} {s : Settings} {c : Codebase}
  {path : String} {notices : List Notice}

theorem surveyOf_stating (a : AnalyzeArguments) (s : Settings) :
    surveyOf (a.stating s) .default = surveyOf a s := by
  have hjobs : (a.jobs.or s.jobs).orElse (fun _ => none) = a.jobs.orElse fun _ => s.jobs := by
    rw [← Option.or_eq_orElse, ← Option.or_eq_orElse, Option.or_none]
  unfold surveyOf
  exact congrArg (Survey.mk a.path (s.excludePatterns ++ a.excludes)) hjobs

theorem formatOf_stating (a : AnalyzeArguments) (s : Settings) :
    formatOf (a.stating s) .default = formatOf a s := by
  show (a.format.or s.format).getD .pretty = formatOf a s
  rw [Option.or_eq_orElse]
  rfl

theorem reported_stating (a : AnalyzeArguments) (s : Settings) (c : Codebase) :
    reported (a.stating s) .default c = reported a s c := by
  have h : ((a.stating s).includePrivate || Settings.default.includePrivate) =
      (a.includePrivate || s.includePrivate) := Bool.or_false _
  unfold reported
  rw [h]

theorem deliver_stating (fs : FileSystem) (colours : Bool) (a : AnalyzeArguments) (s : Settings)
    (c : Codebase) (notices : List Notice) :
    deliver fs colours (a.stating s) .default c notices = deliver fs colours a s c notices := by
  unfold deliver
  rw [formatOf_stating, reported_stating]
  rfl

/-- Settings make no difference but for the survey, the form of the report, and what of the
codebase is reported, and in all of these the arguments can state what the settings do. -/
theorem runWith_stating [Glob.Compiler] [SourceParser] [ThreadPool] (fs : FileSystem)
    (colours : Bool) (a : AnalyzeArguments) (s : Settings) :
    runWith fs colours (a.stating s) .default = runWith fs colours a s := by
  unfold runWith
  rw [surveyOf_stating]
  simp only [deliver_stating]
  rfl

theorem run_of_settings [Glob.Compiler] [SourceParser] [ThreadPool] (h : settingsFor fs a = .ok s)
    (colours : Bool) : run fs colours a = runWith fs colours a s := by
  unfold run
  rw [h]

theorem run_eq_stating [Glob.Compiler] [SourceParser] [ThreadPool] (h : settingsFor fs a = .ok s)
    (colours : Bool) : run fs colours a = run fs colours (a.stating s) := by
  have hstating : settingsFor fs (a.stating s) = .ok .default := rfl
  rw [run_of_settings h, run_of_settings hstating, runWith_stating]

theorem settingsFor_of_file (ha : a.settings = some path) (h : Settings.ofFile fs path = .ok s) :
    settingsFor fs a = .ok s := by
  unfold settingsFor
  rw [ha]
  exact h

/-- An analysis with a settings file comes to the same as one with arguments that name no such file
and state themselves what the file states: in its status, in what it prints and writes, and in what
it tells on the way.  So another file makes no difference if it states the same patterns, reports
private declarations just as well, and states the same number of jobs and the same form of report
unless the arguments state these.  The patterns of the file are among those of the survey, whatever
patterns the arguments state: no file that one of them fits is found, as long as all patterns
together make a set. -/
theorem run_stating [Glob.Compiler] [SourceParser] [ThreadPool] (fs : FileSystem) (colours : Bool)
    (a : AnalyzeArguments) {path : String} {s : Settings} (ha : a.settings = some path)
    (hs : Settings.ofFile fs path = .ok s) :
    run fs colours a = run fs colours (a.stating s) ∧
    (∀ (path' : String) s', Settings.ofFile fs path' = .ok s' →
      s'.excludePatterns = s.excludePatterns → s'.includePrivate = s.includePrivate →
      (a.jobs = none → s'.jobs = s.jobs) → (a.format = none → s'.format = s.format) →
      run fs colours { a with settings := some path' } = run fs colours a) ∧
    s.excludePatterns <+: (surveyOf (a.stating s) .default).excludes ∧
    (Discovery.compiles (s.excludePatterns ++ a.excludes) →
      ∀ file ∈ Survey.found fs (surveyOf (a.stating s) .default),
        Discovery.spares s.excludePatterns (Path.normalize file)) := by
  have hsettings := settingsFor_of_file ha hs
  refine ⟨run_eq_stating hsettings colours, ?_, ?_, ?_⟩
  · intro path' s' hs' hexcludes hprivate hjobs hformat
    have hsettings' : settingsFor fs { a with settings := some path' } = .ok s' :=
      settingsFor_of_file rfl hs'
    have hsame : ({ a with settings := some path' } : AnalyzeArguments).stating s' = a.stating s :=
      AnalyzeArguments.stating_congr hexcludes hprivate hjobs hformat
    rw [run_eq_stating hsettings' colours, hsame, run_eq_stating hsettings colours]
  · rw [surveyOf_stating]
    exact List.prefix_append _ _
  · intro hc file hf
    rw [surveyOf_stating, Survey.found, surveyOf, Discovery.value_discover_of_compiles _ _ hc,
      List.mem_filter] at hf
    simp only [Discovery.spares_append, Bool.and_eq_true] at hf
    exact hf.2.2.1

/-- The text of a settings file. -/
def settingsText : String :=
  "exclude_patterns:\n  - \"gen/**\"\ninclude_private: true\njobs: 2\nformat: json\n"

/-- A project with that file. -/
def settledProject : FileSystem where
  tree := .directory [("app", .directory [("a.ts", .file ⟨#[]⟩)]),
    ("survey.yml", .file settingsText.toUTF8)]
  here := []

/-- Its patterns come before those of the arguments, and its number of jobs is taken; its form of
report is not. -/
theorem run_stating_settledProject :
    let a : AnalyzeArguments :=
      ⟨"app", ["old/**"], some .pretty, none, some "survey.yml", none, false⟩
    Settings.ofFile settledProject "survey.yml" = .ok ⟨["gen/**"], true, some 2, some .json⟩ ∧
    run settledProject true a = run settledProject true
      ⟨"app", ["gen/**", "old/**"], some .pretty, none, none, some 2, true⟩ := by
  have hreach : settledProject.reach true "survey.yml" = .ok (.found ["survey.yml"]) := by cbv
  have hread : settledProject.read "survey.yml" = .ok settingsText.toUTF8 :=
    FileSystem.read_of_reach hreach rfl
  have hparse : Settings.parse settingsText = .ok ⟨["gen/**"], true, some 2, some .json⟩ := by
    decide +kernel
  have hs : Settings.ofFile settledProject "survey.yml" =
      .ok ⟨["gen/**"], true, some 2, some .json⟩ := by
    unfold Settings.ofFile
    rw [FileSystem.readText_of_read hread]
    simp only [hparse]
    rfl
  exact ⟨hs, (run_stating settledProject true _ rfl hs).1⟩

end Analysis

end CodeSurvey
