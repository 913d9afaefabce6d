/-
CppLint.WriteTheorems — what a run writes to files.

The environment names two files: the action's output gets a line from every
tool, the step summary one text. `fileReportsOf` is what a context asks for,
in order. `main_writes` says of every run of the program that the files hold
in the end what they held before and after it the reports up to the first
one whose file does not open. A run that misses one ends with the message of
that report, and has sent nothing; requests are made after the last of them,
so a run that fails at GitHub has written all of its reports.

A `Runner` leaves the file system open, so the files are made a part of the
world first (`Runner.onFiles`), beside the part that belongs to GitHub
(`remote`). `Writes` is the judgment of the proof: a call that appends the
reports of a list and stops at the first file that does not open. It has one
rule for each way `report` puts such calls together, and the requests that
come after them keep the files (`reportsToGithub_keepsServer`).
-/
import CppLint.Main

namespace CppLint

open CppLint.Lib CppLint.Git CppLint.Tool CppLint.Github CppLint.ProgramOptions

/-! ## Files -/

/-- The contents of the files, by name. -/
abbrev Files : Type := String → String

/-- The files with a text at the end of one of them. -/
def Files.append (files : Files) (file text : String) : Files :=
  fun name => if name = file then files name ++ text else files name

/-- A text for a file, and the message if the file does not open. -/
structure FileReport where
  file : String
  text : String
  message : String

/-- The files after some reports. -/
def Files.appendAll : Files → List FileReport → Files
  | files, [] => files
  | files, r :: reports => (files.append r.file r.text).appendAll reports

/-- What reports have for a file. -/
def textFor (name : String) : List FileReport → String
  | [] => ""
  | r :: reports => (if name = r.file then r.text else "") ++ textFor name reports

theorem Files.appendAll_append :
    ∀ (files : Files) (first second : List FileReport),
      files.appendAll (first ++ second) = (files.appendAll first).appendAll second
  | _, [], _ => rfl
  | files, r :: first, second => Files.appendAll_append (files.append r.file r.text) first second

/-- A file keeps its text, and gets what the reports have for it. -/
theorem Files.appendAll_apply (name : String) (reports : List FileReport) :
    ∀ files : Files, files.appendAll reports name = files name ++ textFor name reports := by
  induction reports with
  | nil => simp [Files.appendAll, textFor]
  | cons r reports ih =>
      intro files
      rw [Files.appendAll, ih, Files.append, textFor]
      split
      · rw [String.append_assoc]
      · simp

/-! ## Surroundings with files -/

variable {τ : Type} (opens : String → Bool)

/-- The surroundings, on files of which some open for appending. -/
def Runner.onFiles (runner : Runner τ) : Runner (Files × τ) where
  getenv := runner.getenv
  git := runner.git
  ord := runner.ord
  clangFormatHost := runner.clangFormatHost
  clangTidyHost := runner.clangTidyHost
  append := fun world file text =>
    if opens file then some (world.1.append file text, world.2) else none

/-- The other side, which does not see the files. -/
def remote (api : Api τ) : Api (Files × τ) := fun world request =>
  ((api world.2 request).1, (world.1, (api world.2 request).2))

theorem prepare_onFiles (runner : Runner τ) (args : List String) :
    prepare (runner.onFiles opens) args = prepare runner args := rfl

/-- The file of the report opens. -/
def FileReport.opened (r : FileReport) : Bool := opens r.file

/-- How it ends to write reports: at the first file that does not open. -/
def writeOutcome : List FileReport → Except Fault Unit
  | [] => .ok ()
  | r :: reports =>
      if r.opened opens then writeOutcome reports else .error (.runtimeError r.message)

/-- The call appends the reports, up to the first file that does not open,
and does nothing else. -/
def Writes (call : Call (Files × τ) Unit) (reports : List FileReport) : Prop :=
  ∀ s, Stateful.runOn call s = (writeOutcome opens reports,
    { s with server := (s.server.1.appendAll (reports.takeWhile (·.opened opens)), s.server.2) })

section Writes

variable {opens : String → Bool} {reports : List FileReport} {call next : Call (Files × τ) Unit}

/-- Reports that all open, and then others. -/
theorem writes_after_ok (h : writeOutcome opens reports = .ok ()) (later : List FileReport) :
    writeOutcome opens (reports ++ later) = writeOutcome opens later ∧
      (reports ++ later).takeWhile (·.opened opens) =
        reports ++ later.takeWhile (·.opened opens) := by
  induction reports with
  | nil => exact ⟨rfl, rfl⟩
  | cons r reports ih =>
      unfold writeOutcome at h
      split at h
      case isTrue hopen =>
        obtain ⟨houtcome, htake⟩ := ih h
        simp [writeOutcome, hopen, houtcome, htake]
      case isFalse => cases h

/-- Reports one of which does not open, and then others. -/
theorem writes_after_error {f : Fault} (h : writeOutcome opens reports = .error f)
    (later : List FileReport) :
    writeOutcome opens (reports ++ later) = .error f ∧
      (reports ++ later).takeWhile (·.opened opens) = reports.takeWhile (·.opened opens) := by
  induction reports with
  | nil => cases h
  | cons r reports ih =>
      unfold writeOutcome at h
      split at h
      case isTrue hopen =>
        obtain ⟨houtcome, htake⟩ := ih h
        simp [writeOutcome, hopen, houtcome, htake]
      case isFalse hclosed =>
        cases h
        simp [writeOutcome, hclosed]

theorem takeWhile_of_ok (h : writeOutcome opens reports = .ok ()) :
    reports.takeWhile (·.opened opens) = reports := by
  simpa using (writes_after_ok h []).2

/-- Writing ends at the first report whose file does not open. -/
theorem writeOutcome_eq_error {r : FileReport}
    (h : reports.find? (fun r => !r.opened opens) = some r) :
    writeOutcome opens reports = .error (.runtimeError r.message) := by
  induction reports with
  | nil => cases h
  | cons r' reports ih =>
      rw [List.find?_cons] at h
      unfold writeOutcome
      cases hopen : r'.opened opens with
      | true => simpa [hopen] using ih (by simpa [hopen] using h)
      | false =>
          rw [hopen] at h
          cases h
          rfl

theorem writes_pure : Writes opens (pure () : Call (Files × τ) Unit) [] := fun _ => rfl

theorem writes_onlyIf {c : Bool} (h : Writes opens call reports) :
    Writes opens (.onlyIf c call) (if c then reports else []) := by
  cases c with
  | true => exact h
  | false => exact writes_pure

theorem Writes.bind {later : List FileReport} (h : Writes opens call reports)
    (hnext : Writes opens next later) :
    Writes opens (call >>= fun _ => next) (reports ++ later) := by
  intro s
  rw [Stateful.runOn_bind, h s]
  cases hcall : writeOutcome opens reports with
  | ok u =>
      obtain ⟨houtcome, htake⟩ := writes_after_ok hcall later
      rw [houtcome, htake, Files.appendAll_append, takeWhile_of_ok hcall]
      exact hnext _
  | error f =>
      obtain ⟨houtcome, htake⟩ := writes_after_error hcall later
      rw [houtcome, htake]

theorem writes_appendToFile (runner : Runner τ) (file text message : String) :
    Writes opens (appendToFile (runner.onFiles opens) file text message)
      [⟨file, text, message⟩] := by
  intro s
  unfold appendToFile
  rw [Stateful.runOn_bind, Stateful.runOn_step]
  cases hopen : opens file <;>
    simp [Runner.onFiles, writeOutcome, FileReport.opened, throwUnless, Files.appendAll, hopen]

end Writes

/-! ## The two reports to files -/

section Reports

variable (runner : Runner τ) (reporters : List ReporterBase)

/-- The lines of the action's output. -/
def outputReports : List FileReport :=
  reporters.map (fun reporter =>
    ⟨runner.getenv "GITHUB_OUTPUT", reporter.actionOutput, "error to open output file to write"⟩)

/-- The step summary. -/
def summaryReport : FileReport :=
  ⟨runner.getenv "GITHUB_STEP_SUMMARY", stepSummary runner.ord reporters,
    "failed to open step summary file to write"⟩

/-- What a context asks for, in order. -/
def fileReportsOf (context : RuntimeContext) : List FileReport :=
  (if context.enableActionOutput then outputReports runner reporters else []) ++
    (if context.enableStepSummary then [summaryReport runner reporters] else [])

theorem writes_actionOutput :
    Writes opens (writeToGithubActionOutput (runner.onFiles opens) reporters)
      (outputReports runner reporters) := by
  induction reporters with
  | nil => exact writes_pure
  | cons reporter reporters ih => exact (writes_appendToFile runner _ _ _).bind ih

theorem writes_stepSummary :
    Writes opens (writeToGithubStepSummary (runner.onFiles opens) reporters)
      [summaryReport runner reporters] := writes_appendToFile runner _ _ _

end Reports

/-! ## The requests that come after -/

section Requests

variable {σ : Type} {api : Api σ} {P : σ → Prop} {context : RuntimeContext}

/-- The call keeps a property of the other side, whether it returns or
throws. -/
abbrev KeepsServer (P : σ → Prop) {α : Type} (call : Call σ α) : Prop :=
  Stateful.Keeps (fun s => P s.server) call (fun _ => True)

theorem KeepsServer.after {α : Type} {call : Call σ α} (h : KeepsServer P call) {s s' : Session σ}
    {r : Except Fault α} (hrun : Stateful.runOn call s = (r, s')) (hs : P s.server) :
    P s'.server := by
  have hpost := h s hs
  rw [hrun] at hpost
  cases r with
  | ok a => exact hpost
  | error f => exact hpost.2

theorem keepsServer_lift {α : Type} (x : Except Fault α) : KeepsServer P (.lift x : Call σ α) := by
  refine Stateful.keeps_lift ?_
  cases x <;> trivial

theorem keepsServer_send {request : Request}
    (h : ∀ server, P server → P (api server request).2) : KeepsServer P (send api request) :=
  Stateful.keeps_step (fun s hs => h s.server hs)

theorem keepsServer_setCommentId (commentId : Nat) :
    KeepsServer P (setCommentId commentId : Call σ Unit) := Stateful.keeps_step (fun _ hs => hs)

theorem keepsServer_getCommentId : KeepsServer P (getCommentId : Call σ Nat) :=
  Stateful.keeps_step (fun _ hs => hs)

theorem keepsServer_newClient : KeepsServer P (newClient : Call σ Unit) :=
  Stateful.keeps_step (fun _ hs => hs)

/-- The review changes the other side by its one request. -/
theorem commentOnGithubPullRequestReview_keepsServer
    (h : ∀ server body, P server → P (api server (reviewRequest context body)).2)
    (ord : Enumeration String) (reporters : List ReporterBase) :
    KeepsServer P (commentOnGithubPullRequestReview api ord context reporters) := by
  refine keepsServer_newClient.bind (fun _ => ?_)
  refine (keepsServer_lift _).bind (fun comments => ?_)
  exact (keepsServer_send (fun server => h server _)).bind (fun response => keepsServer_lift _)

variable (hapi : ∀ server request, P server → P (api server request).2)
include hapi

theorem getIssueCommentId_keepsServer : KeepsServer P (getIssueCommentId api context) := by
  refine (keepsServer_lift _).bind (fun _ => ?_)
  refine (keepsServer_send (fun server => hapi server _)).bind (fun response => ?_)
  refine (keepsServer_lift _).bind (fun _ => ?_)
  refine (keepsServer_lift _).bind (fun body => ?_)
  split
  case h_1 => exact Stateful.keeps_pure
  case h_3 => exact keepsServer_lift _
  case h_2 comments =>
    split
    case isTrue => exact Stateful.keeps_pure
    case isFalse =>
      refine (keepsServer_lift _).bind (fun found => ?_)
      split
      · exact Stateful.keeps_pure
      · exact (keepsServer_lift _).bind (fun commentId => keepsServer_setCommentId commentId)

theorem addIssueComment_keepsServer (body : String) :
    KeepsServer P (addIssueComment api context body) := by
  refine (keepsServer_send (fun server => hapi server _)).bind (fun response => ?_)
  refine (keepsServer_lift _).bind (fun _ => ?_)
  refine (keepsServer_lift _).bind (fun comment => ?_)
  split
  · exact (keepsServer_lift _).bind (fun commentId => keepsServer_setCommentId commentId)
  · exact keepsServer_lift _

theorem updateIssueComment_keepsServer (body : String) :
    KeepsServer P (updateIssueComment api context body) := by
  refine keepsServer_getCommentId.bind (fun commentId => ?_)
  refine (keepsServer_lift _).bind (fun _ => ?_)
  refine (keepsServer_lift _).bind (fun _ => ?_)
  exact (keepsServer_send (fun server => hapi server _)).bind (fun response => keepsServer_lift _)

theorem addOrUpdateIssueComment_keepsServer (body : String) :
    KeepsServer P (addOrUpdateIssueComment api context body) := by
  refine keepsServer_getCommentId.bind (fun commentId => ?_)
  split
  · exact addIssueComment_keepsServer hapi body
  · exact updateIssueComment_keepsServer hapi body

/-- The reports to GitHub change the other side by requests alone. -/
theorem reportsToGithub_keepsServer (ord : Enumeration String) (reporters : List ReporterBase) :
    KeepsServer P (do
      .onlyIf context.enableCommentOnIssue (commentOnGithubIssue api ord context reporters)
      .onlyIf context.enablePullRequestReview
        (commentOnGithubPullRequestReview api ord context reporters)
      return exitStatus reporters) := by
  refine Stateful.Keeps.bind (Stateful.keeps_onlyIf (fun _ => ?_)) (fun _ => ?_)
  · refine keepsServer_newClient.bind (fun _ => ?_)
    refine (getIssueCommentId_keepsServer hapi).bind (fun _ => ?_)
    refine (keepsServer_lift _).bind (fun content => ?_)
    exact addOrUpdateIssueComment_keepsServer hapi content
  refine Stateful.Keeps.bind (Stateful.keeps_onlyIf (fun _ => ?_)) (fun _ => Stateful.keeps_pure)
  exact commentOnGithubPullRequestReview_keepsServer (fun server _ => hapi server _) ord reporters

end Requests

/-! ## The whole program -/

section Runs

variable {opens}

/-- Whatever comes after the reports and keeps the files: they hold the
reports up to the first one whose file does not open, and then it does not
come. -/
theorem Writes.ends {α : Type} {call : Call (Files × τ) Unit} {rest : Call (Files × τ) α}
    {reports : List FileReport} (h : Writes opens call reports)
    (hrest : ∀ files, KeepsServer (fun world => world.1 = files) rest)
    (s : Session (Files × τ)) {r : Except Fault α} {s' : Session (Files × τ)}
    (hrun : Stateful.runOn (call >>= fun _ => rest) s = (r, s')) :
    s'.server.1 = s.server.1.appendAll (reports.takeWhile (·.opened opens)) ∧
      ∀ f, writeOutcome opens reports = .error f → r = .error f ∧ s'.sent = s.sent := by
  rw [Stateful.runOn_bind, h s] at hrun
  cases houtcome : writeOutcome opens reports with
  | error f =>
      rw [houtcome] at hrun
      cases hrun
      refine ⟨rfl, fun f' hf' => ?_⟩
      cases hf'
      exact ⟨rfl, rfl⟩
  | ok u =>
      rw [houtcome] at hrun
      exact ⟨(hrest _).after hrun rfl, nofun⟩

/-- How a run that makes file reports has ended. -/
structure Wrote {α : Type} (opens : String → Bool) (reports : List FileReport) (files : Files)
    (run : Except Fault α × Session (Files × τ)) : Prop where
  /-- A file holds what it held, and the reports for it up to the first one
  that does not open. -/
  contents : ∀ name, run.2.server.1 name =
    files name ++ textFor name (reports.takeWhile (·.opened opens))
  /-- That one ends the run, before any request. -/
  refused : ∀ r, reports.find? (fun r => !r.opened opens) = some r →
    run.1 = .error (.runtimeError r.message) ∧ run.2.sent = []

/-- The reporting phase. -/
theorem report_wrote (runner : Runner τ) (api : Api τ) (context : RuntimeContext)
    (reporters : List ReporterBase) (files : Files) (server : τ) :
    Wrote opens (fileReportsOf runner reporters context) files
      (Stateful.runOn (report (runner.onFiles opens) (remote api) context reporters)
        { server := (files, server) }) := by
  have hfiles : Writes opens
      (.onlyIf context.enableActionOutput
          (writeToGithubActionOutput (runner.onFiles opens) reporters) >>= fun _ =>
        .onlyIf context.enableStepSummary
          (writeToGithubStepSummary (runner.onFiles opens) reporters))
      (fileReportsOf runner reporters context) :=
    (writes_onlyIf (writes_actionOutput opens runner reporters)).bind
      (writes_onlyIf (writes_stepSummary opens runner reporters))
  unfold report
  rw [← bind_assoc]
  have hremote : ∀ (files : Files) (world : Files × τ) request, world.1 = files →
      (remote api world request).2.1 = files := fun _ _ _ h => h
  obtain ⟨hcontents, hrefused⟩ := hfiles.ends
    (fun files => reportsToGithub_keepsServer (hremote files) _ _) _ rfl
  constructor
  case contents => exact fun name => (congrFun hcontents name).trans (Files.appendAll_apply _ _ _)
  case refused => exact fun r hr => hrefused _ (writeOutcome_eq_error hr)

end Runs

/-- **What a run writes.** For every environment, repository, machine and
file system, every behaviour of GitHub and every command line. A run that
gets to the reporting phase writes the reports of its context, in order, to
the first file that does not open, and to no other file; it makes requests
only once all are written, and what GitHub answers does not undo one. Any
other run leaves the files as they were. -/
theorem main_writes (runner : Runner τ) (api : Api τ) (files : Files) (server : τ)
    (args : List String) :
    match prepare runner args with
    | .ok (.reporting context reporters) =>
        Wrote opens (fileReportsOf runner reporters context) files
          (Stateful.runOn (main (runner.onFiles opens) (remote api) args)
            { server := (files, server) })
    | _ => (Stateful.runOn (main (runner.onFiles opens) (remote api) args)
        { server := (files, server) }).2.server.1 = files := by
  unfold main
  rw [Stateful.runOn_bind, Stateful.runOn_lift, prepare_onFiles]
  cases prepare runner args with
  | error f => rfl
  | ok start =>
      cases start with
      | help => rfl
      | version => rfl
      | reporting context reporters =>
          exact report_wrote runner api context reporters files server

end CppLint
