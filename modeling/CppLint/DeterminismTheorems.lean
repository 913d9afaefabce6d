/-
CppLint.DeterminismTheorems — what two runs of the program agree on.

The changed files and the failed files come out of unordered maps, so two
runs with the same command line, environment, repository and machines need
not walk them in the same order; nor need GitHub and the file system treat
them alike. `main_status_agrees` says that the exit status does not see
any of that, with fast exit or without. `prepare_agrees` says that
without fast exit the reports do not either, except for the order of
their lines and comments.

Both are read off a start-up that is cut at `fill_git_info`
(`prepare_reporting_iff`): what comes before it does not know the order,
and what `fill_git_info` itself makes of another order is the same context
with the files permuted (`fillGitInfo_reorder`).
-/
import CppLint.RaiseTheorems
import CppLint.SettingsTheorems

namespace CppLint

open CppLint.Lib CppLint.Git CppLint.Tool CppLint.Github CppLint.ProgramOptions

/-! ## The context in another order -/

/-- In another order `fill_git_info` makes the same context, with the files
walked in that order. -/
theorem fillGitInfo_reorder (git : Libgit2) (ord ord' : Enumeration String)
    (start : RuntimeContext) :
    fillGitInfo git ord' start = (fillGitInfo git ord start).map
      (fun context => context.withFiles (Git.changedFiles ord' context.patches)) := by
  show _ = (fun context : RuntimeContext =>
    context.withFiles (Git.changedFiles ord' context.patches)) <$> fillGitInfo git ord start
  simp only [fillGitInfo, map_bind, map_pure, RuntimeContext.withFiles]

theorem changedFiles_perm (ord ord' : Enumeration String) (patches : UMap String Patch) :
    (Git.changedFiles ord patches).Perm (Git.changedFiles ord' patches) :=
  (Enumeration.toList_perm (fun _ => rfl)).map Prod.fst

/-! ## Two reporters -/

/-- Two reporters of one tool whose results hold the same. -/
inductive ReporterBase.Agrees : ReporterBase → ReporterBase → Prop
  | clangTidy {option : ClangTidy.Options}
      {result result' : MultiFilesResult ClangTidy.PerFileResult}
      (h : SameResults result result') :
      Agrees (.clangTidy ⟨option, result⟩) (.clangTidy ⟨option, result'⟩)
  | clangFormat {option : ClangFormat.Options}
      {result result' : MultiFilesResult ClangFormat.PerFileResult}
      (h : SameResults result result') :
      Agrees (.clangFormat ⟨option, result⟩) (.clangFormat ⟨option, result'⟩)

/-- The parts `make_issue_comment` puts together, one for each failed
file. -/
def ReporterBase.issueParts (ord : Enumeration String) : ReporterBase → List String
  | .clangTidy r => (ord.toList r.result.fails).map
      (fun entry => String.join (entry.2.diags.map (ClangTidy.briefBullet entry.1)))
  | .clangFormat r => (ord.toList r.result.fails).map (fun entry => "- " ++ entry.1 ++ "\n")

/-- Two reporters, walked in their orders, report the same: they differ in
the order of the commands, of the parts of the text and of the review
comments. -/
structure ReportsSame (context : RuntimeContext) (ord ord' : Enumeration String)
    (reporter reporter' : ReporterBase) : Prop where
  toolName : reporter.toolName = reporter'.toolName
  briefResult : reporter.getBriefResult = reporter'.getBriefResult
  actionOutput : reporter.actionOutput = reporter'.actionOutput
  failedCommands : reporter.getFailedCommands.Perm reporter'.getFailedCommands
  issueComment : reporter.makeIssueComment ord = String.join (reporter.issueParts ord) ∧
    reporter'.makeIssueComment ord' = String.join (reporter'.issueParts ord')
  issueParts : (reporter.issueParts ord).Perm (reporter'.issueParts ord')
  reviewComment : ∀ {comments}, reporter.makeReviewComment ord context = .ok comments →
    ∃ comments', reporter'.makeReviewComment ord' context = .ok comments' ∧
      comments.Perm comments'

/-- A loop that writes one text after the other writes them joined. -/
theorem foldl_append_eq_join {α : Type} (f : α → String) (xs : List α) (s : String) :
    xs.foldl (fun s x => s ++ f x) s = s ++ String.join (xs.map f) := by
  have hfrom : ∀ (ys : List α) (s t : String),
      ys.foldl (fun s x => s ++ f x) (s ++ t) = s ++ ys.foldl (fun s x => s ++ f x) t := by
    intro ys
    induction ys with
    | nil => intro s t; rfl
    | cons y ys ih =>
        intro s t
        rw [List.foldl_cons, List.foldl_cons, String.append_assoc, ih]
  rw [String.join, List.foldl_map, ← hfrom, String.append_empty]

theorem ReporterBase.makeIssueComment_eq (ord : Enumeration String) (reporter : ReporterBase) :
    reporter.makeIssueComment ord = String.join (reporter.issueParts ord) := by
  cases reporter with
  | clangTidy r =>
      simp only [makeIssueComment, issueParts, ClangTidy.Reporter.makeBrief,
        foldl_append_eq_join, String.empty_append]
  | clangFormat r =>
      simp only [makeIssueComment, issueParts, ClangFormat.Reporter.makeBriefResult,
        foldl_append_eq_join, String.empty_append]

section Reporters

variable {context : RuntimeContext} {ord ord' : Enumeration String}
  {reporter reporter' : ReporterBase}

theorem size_eq_of_lookup {β : Type} {m m' : UMap String β}
    (h : ∀ k, m.lookup k = m'.lookup k) : m.size = m'.size := by
  rw [← (Enumeration.stored String).length_toList m, ← (Enumeration.stored String).length_toList m']
  exact (Enumeration.toList_perm h).length_eq

theorem briefResultOf_eq {ρ : Type} {result result' : MultiFilesResult ρ}
    (h : SameResults result result') : briefResultOf result = briefResultOf result' := by
  simp only [briefResultOf, h.finalPassed, size_eq_of_lookup h.passes, size_eq_of_lookup h.fails,
    h.ignored.length_eq]

/-- The review comments of a permuted map of failures. -/
theorem ClangTidy.makeReviewComment_perm {r r' : ClangTidy.Reporter}
    (hfails : ∀ file, r.result.fails.lookup file = r'.result.fails.lookup file)
    {comments : List ReviewComment} (h : r.makeReviewComment ord context = .ok comments) :
    ∃ comments', r'.makeReviewComment ord' context = .ok comments' ∧ comments.Perm comments' := by
  have hatt := ClangTidy.Reporter.attached_of_ok h
  have hatt' : r'.Attached context := by
    intro file res hlookup
    exact hatt file res ((hfails file).trans hlookup)
  obtain ⟨groups, hgroups, rfl⟩ := (ClangTidy.Reporter.makeReviewComment_eq_ok_iff hatt).mp h
  have hwalked : (r.walked ord).Perm (r'.walked ord') :=
    (Enumeration.toList_perm hfails).flatMap_right _
  obtain ⟨groups', hgroups', hperm⟩ := exists_forall₂_flatten_perm hgroups hwalked
  exact ⟨_, (ClangTidy.Reporter.makeReviewComment_eq_ok_iff hatt').mpr ⟨groups', hgroups', rfl⟩,
    hperm⟩

/-- Reporters whose results hold the same report the same. -/
theorem ReporterBase.Agrees.reportsSame (h : reporter.Agrees reporter') :
    ReportsSame context ord ord' reporter reporter' where
  toolName := by cases h <;> rfl
  briefResult := by
    cases h with
    | clangTidy h => exact briefResultOf_eq h
    | clangFormat h => exact briefResultOf_eq h
  actionOutput := by
    cases h with
    | clangTidy h =>
        exact congrArg (fun n => "clang_tidy_failed_number=" ++ toString n ++ "\n")
          (size_eq_of_lookup h.fails)
    | clangFormat h =>
        exact congrArg (fun n => "clang_format_failed_number=" ++ toString n ++ "\n")
          (size_eq_of_lookup h.fails)
  failedCommands := by
    cases h with
    | clangTidy h => exact h.failedCommands
    | clangFormat h => exact h.failedCommands
  issueComment := ⟨makeIssueComment_eq _ _, makeIssueComment_eq _ _⟩
  issueParts := by
    cases h with
    | clangTidy h => exact (Enumeration.toList_perm h.fails).map _
    | clangFormat h => exact (Enumeration.toList_perm h.fails).map _
  reviewComment := by
    intro comments hcomments
    cases h with
    | clangTidy h => exact ClangTidy.makeReviewComment_perm h.fails hcomments
    | clangFormat h =>
        cases hcomments
        exact ⟨[], rfl, .refl _⟩

end Reporters

/-! ## A check of a fresh tool -/

section Fresh

variable {host : Host} {context : RuntimeContext} {tool' : ToolBase}

/-- A completed check of a fresh clang-tidy is one of the loop the tools
share. -/
theorem ClangTidy.check_eq_ok_iff {tool : ClangTidy.ClangTidyGeneral}
    (hfresh : (ToolBase.clangTidy tool).Fresh) :
    (ToolBase.clangTidy tool).check host context = .ok tool' ↔
      ∃ result, runCheck host (ClangTidy.checker host tool.option) context {} = .ok result ∧
        tool' = .clangTidy ⟨tool.option, result⟩ := by
  obtain ⟨option, result⟩ := tool
  obtain rfl : result = {} := hfresh
  constructor
  · intro h
    obtain ⟨_, hcheck, rfl⟩ := map_eq_ok.mp h
    obtain ⟨result, hrun, hpure⟩ := bind_eq_ok.mp hcheck
    cases hpure
    exact ⟨result, hrun, rfl⟩
  · rintro ⟨result, hrun, rfl⟩
    exact map_eq_ok.mpr ⟨_, bind_eq_ok.mpr ⟨result, hrun, rfl⟩, rfl⟩

theorem ClangFormat.check_eq_ok_iff {tool : ClangFormat.ClangFormatGeneral}
    (hfresh : (ToolBase.clangFormat tool).Fresh) :
    (ToolBase.clangFormat tool).check host context = .ok tool' ↔
      ∃ result, runCheck host (ClangFormat.checker host tool.option) context {} = .ok result ∧
        tool' = .clangFormat ⟨tool.option, result⟩ := by
  obtain ⟨option, result⟩ := tool
  obtain rfl : result = {} := hfresh
  constructor
  · intro h
    obtain ⟨_, hcheck, rfl⟩ := map_eq_ok.mp h
    obtain ⟨result, hrun, hpure⟩ := bind_eq_ok.mp hcheck
    cases hpure
    exact ⟨result, hrun, rfl⟩
  · rintro ⟨result, hrun, rfl⟩
    exact map_eq_ok.mpr ⟨_, bind_eq_ok.mpr ⟨result, hrun, rfl⟩, rfl⟩

end Fresh

/-! ## The checks in another order -/

section Checks

variable {host : Host} {context : RuntimeContext} {files : List String}

/-- Without fast exit a check that completes in one order does so in every
other, with the same results. -/
theorem runCheck_reorder {ρ : Type} {checker : Checker ρ} {result : MultiFilesResult ρ}
    (halone : FileAlone checker context) (hfast : checker.option.enabledFastlyExit = false)
    (hperm : context.changedFiles.Perm files)
    (hrun : runCheck host checker context {} = .ok result) :
    ∃ result', runCheck host checker (context.withFiles files) {} = .ok result' ∧
      SameResults result result' := by
  have hsame : checker.withFastExit false = checker := by
    rw [← hfast]
    rfl
  have hresults := (runCheck_orderIndependent host checker halone).results hperm
    (show runCheck host (checker.withFastExit false) context {} = .ok result by rw [hsame, hrun])
  rwa [hsame] at hresults

/-- Without fast exit a tool that completes in one order does so in every
other, and its reporters agree. -/
theorem ToolBase.check_reorder {tool tool' : ToolBase} (hfresh : tool.Fresh)
    (hfast : tool.optionBase.enabledFastlyExit = false)
    (hperm : context.changedFiles.Perm files) (h : tool.check host context = .ok tool') :
    ∃ tool'', tool.check host (context.withFiles files) = .ok tool'' ∧
      tool'.getReporter.Agrees tool''.getReporter := by
  cases tool with
  | clangTidy tool =>
      obtain ⟨result, hrun, rfl⟩ := (ClangTidy.check_eq_ok_iff hfresh).mp h
      obtain ⟨result', hrun', hresults⟩ := runCheck_reorder (fun _ _ _ => rfl) hfast hperm hrun
      exact ⟨_, (ClangTidy.check_eq_ok_iff hfresh).mpr ⟨result', hrun', rfl⟩, .clangTidy hresults⟩
  | clangFormat tool =>
      obtain ⟨result, hrun, rfl⟩ := (ClangFormat.check_eq_ok_iff hfresh).mp h
      obtain ⟨result', hrun', hresults⟩ := runCheck_reorder (fun _ _ _ => rfl) hfast hperm hrun
      exact ⟨_, (ClangFormat.check_eq_ok_iff hfresh).mpr ⟨result', hrun', rfl⟩,
        .clangFormat hresults⟩

theorem ToolBase.singleFilePasses_withFiles (tool : ToolBase) (file : String) :
    tool.SingleFilePasses host (context.withFiles files) file ↔
      tool.SingleFilePasses host context file := by
  cases tool <;> rfl

/-- Completed checks of a tool agree on the verdict, with fast exit or
without: neither looks at the files but one by one. -/
theorem ToolBase.isPassed_reorder {tool tool' tool'' : ToolBase} (hfresh : tool.Fresh)
    (hperm : context.changedFiles.Perm files) (h : tool.check host context = .ok tool')
    (h' : tool.check host (context.withFiles files) = .ok tool'') :
    tool'.getReporter.getBriefResult.isPassed = tool''.getReporter.getBriefResult.isPassed := by
  rw [Bool.eq_iff_iff, isPassed_iff hfresh h, isPassed_iff hfresh h']
  simp only [singleFilePasses_withFiles]
  constructor
  · intro hpass file hfile
    exact hpass file (hperm.mem_iff.mpr hfile)
  · intro hpass file hfile
    exact hpass file (hperm.mem_iff.mp hfile)

variable {tools : List (Host × ToolBase)} {reporters reporters' : List ReporterBase}

/-- All tools without fast exit. -/
theorem runTools_reorder (hfresh : ∀ entry ∈ tools, entry.2.Fresh)
    (hfast : ∀ entry ∈ tools, entry.2.optionBase.enabledFastlyExit = false)
    (hperm : context.changedFiles.Perm files) (h : runTools tools context = .ok reporters) :
    ∃ reporters', runTools tools (context.withFiles files) = .ok reporters' ∧
      List.Forall₂ ReporterBase.Agrees reporters reporters' := by
  simp only [runTools_eq_ok_iff] at h ⊢
  induction h with
  | nil => exact ⟨[], .nil, .nil⟩
  | @cons entry reporter tools reporters hentry _ ih =>
      obtain ⟨tool', hcheck, rfl⟩ := hentry
      obtain ⟨reporters', htools, hagree⟩ := ih (fun e he => hfresh e (List.mem_cons_of_mem _ he))
        (fun e he => hfast e (List.mem_cons_of_mem _ he))
      obtain ⟨tool'', hcheck', hsame⟩ := ToolBase.check_reorder (hfresh entry List.mem_cons_self)
        (hfast entry List.mem_cons_self) hperm hcheck
      exact ⟨_, .cons ⟨tool'', hcheck', rfl⟩ htools, .cons hsame hagree⟩

/-- Completed runs of the tools agree on the exit status, with fast exit or
without. -/
theorem exitStatus_reorder (hfresh : ∀ entry ∈ tools, entry.2.Fresh)
    (hperm : context.changedFiles.Perm files) (h : runTools tools context = .ok reporters)
    (h' : runTools tools (context.withFiles files) = .ok reporters') :
    exitStatus reporters = exitStatus reporters' := by
  rw [runTools_eq_ok_iff] at h h'
  have hall : allPassed reporters = allPassed reporters' := by
    induction h generalizing reporters' with
    | nil =>
        cases h'
        rfl
    | @cons entry reporter tools reporters hentry _ ih =>
        cases h' with
        | @cons _ reporter' _ reporters' hentry' htools' =>
            obtain ⟨tool, hcheck, rfl⟩ := hentry
            obtain ⟨tool', hcheck', rfl⟩ := hentry'
            have hpassed := ToolBase.isPassed_reorder (hfresh entry List.mem_cons_self) hperm hcheck
              hcheck'
            have hrest := ih (fun e he => hfresh e (List.mem_cons_of_mem _ he)) htools'
            simp only [allPassed, List.all_cons] at hrest ⊢
            rw [hpassed, hrest]
  rw [exitStatus, exitStatus, hall]

end Checks

/-! ## The start-up, cut at `fill_git_info` -/

/-- What the start-up does before `fill_git_info`: it has read the options,
made the tools and filled the context but for its git members. -/
structure Started {σ : Type} (runner : Runner σ) (args : List String)
    (tools : List (Host × ToolBase)) (start : RuntimeContext) : Prop where
  started : ∃ vars ctx env, parse args allOptions = .ok vars ∧ "help" ∉ vars ∧
    "version" ∉ vars ∧ setLog vars = .ok () ∧ createEnabledTools runner vars = .ok tools ∧
    ProgramOptions.fillContext vars {} = .ok ctx ∧ readEnv runner.getenv = .ok env ∧
    Github.fillContext env ctx = .ok start

/-- The start-up reaches the reporting phase exactly when it gets to
`fill_git_info` and what follows it completes. -/
theorem prepare_reporting_iff {σ : Type} {runner : Runner σ} {args : List String}
    {context : RuntimeContext} {reporters : List ReporterBase} :
    prepare runner args = .ok (.reporting context reporters) ↔
      ∃ tools start, Started runner args tools start ∧
        fillGitInfo runner.git.toLibgit2 runner.ord start = .ok context ∧
        checkRepoIsOnSource runner.git context = .ok () ∧
        runTools tools context = .ok reporters := by
  unfold prepare
  constructor
  · intro h
    obtain ⟨vars, hvars, h⟩ := bind_eq_ok.mp h
    split at h
    · cases h
    split at h
    · cases h
    obtain ⟨_, hlog, h⟩ := bind_eq_ok.mp h
    obtain ⟨tools, htools, h⟩ := bind_eq_ok.mp h
    obtain ⟨ctx, hctx, h⟩ := bind_eq_ok.mp h
    obtain ⟨env, henv, h⟩ := bind_eq_ok.mp h
    obtain ⟨start, hstart, h⟩ := bind_eq_ok.mp h
    obtain ⟨context', hcontext, h⟩ := bind_eq_ok.mp h
    obtain ⟨_, honSource, h⟩ := bind_eq_ok.mp h
    obtain ⟨reporters', hreporters, h⟩ := bind_eq_ok.mp h
    cases h
    exact ⟨tools, start, ⟨vars, ctx, env, hvars, ‹_›, ‹_›, hlog, htools, hctx, henv, hstart⟩,
      hcontext, honSource, hreporters⟩
  · rintro ⟨tools, start, ⟨vars, ctx, env, hvars, hhelp, hversion, hlog, htools, hctx, henv,
      hstart⟩, hcontext, honSource, hreporters⟩
    simp only [hvars, hhelp, hversion, hlog, htools, hctx, henv, hstart, hcontext, honSource,
      hreporters, bind, Except.bind, reduceIte, pure, Except.pure]

/-! ## Two runs -/

/-- The two runs find the same environment, repository and machines. They
may differ in the order of the maps and in the file system. -/
structure SameSurroundings {σ τ : Type} (runner : Runner σ) (runner' : Runner τ) : Prop where
  getenv : runner.getenv = runner'.getenv
  git : runner.git = runner'.git
  clangFormatHost : runner.clangFormatHost = runner'.clangFormatHost
  clangTidyHost : runner.clangTidyHost = runner'.clangTidyHost

section Runs

variable {σ τ : Type} {runner : Runner σ} {runner' : Runner τ} {args : List String}

theorem SameSurroundings.started (hsame : SameSurroundings runner runner')
    {tools : List (Host × ToolBase)} {start : RuntimeContext}
    (h : Started runner args tools start) : Started runner' args tools start := by
  obtain ⟨vars, ctx, env, hvars, hhelp, hversion, hlog, htools, hctx, henv, hstart⟩ := h
  refine ⟨vars, ctx, env, hvars, hhelp, hversion, hlog, ?_, hctx, hsame.getenv ▸ henv, hstart⟩
  unfold createEnabledTools at htools ⊢
  rw [← hsame.clangFormatHost, ← hsame.clangTidyHost]
  exact htools

/-- What comes before `fill_git_info` is decided by the command line and the
surroundings. -/
theorem Started.unique {tools tools' : List (Host × ToolBase)} {start start' : RuntimeContext}
    (h : Started runner args tools start) (h' : Started runner args tools' start') :
    tools = tools' ∧ start = start' := by
  obtain ⟨vars, ctx, env, hvars, -, -, -, htools, hctx, henv, hstart⟩ := h
  obtain ⟨vars', ctx', env', hvars', -, -, -, htools', hctx', henv', hstart'⟩ := h'
  rw [hvars] at hvars'
  cases hvars'
  rw [htools] at htools'
  cases htools'
  rw [hctx] at hctx'
  cases hctx'
  rw [henv] at henv'
  cases henv'
  rw [hstart] at hstart'
  cases hstart'
  exact ⟨rfl, rfl⟩

theorem Started.fresh {tools : List (Host × ToolBase)} {start : RuntimeContext}
    (h : Started runner args tools start) : ∀ entry ∈ tools, entry.2.Fresh := by
  obtain ⟨_, _, _, -, -, -, -, htools, -⟩ := h
  exact createEnabledTools_fresh htools

/-- Neither tool is asked to stop at its first failing file. -/
structure NoFastExit (vars : VariablesMap) : Prop where
  clangFormat : vars.lookup "enable-clang-format-fastly-exit" ≠ some (.boolean true)
  clangTidy : vars.lookup "enable-clang-tidy-fastly-exit" ≠ some (.boolean true)

theorem ClangFormat.createTool_fastlyExit {host : Host} {vars : VariablesMap}
    {tool : ClangFormat.ClangFormatGeneral} (h : ClangFormat.createTool host vars = .ok (some tool))
    (hfast : tool.option.enabledFastlyExit = true) :
    vars.lookup "enable-clang-format-fastly-exit" = some (.boolean true) := by
  unfold ClangFormat.createTool ClangFormat.createOption at h
  obtain ⟨option, hoption, h⟩ := bind_eq_ok.mp h
  split at h
  · cases h
    obtain ⟨enabled, -, hoption⟩ := bind_eq_ok.mp hoption
    dsimp only at hoption
    split at hoption
    · cases hoption
      cases hfast
    obtain ⟨fast, hread, hoption⟩ := bind_eq_ok.mp hoption
    obtain ⟨_, -, hoption⟩ := bind_eq_ok.mp hoption
    obtain ⟨_, -, hoption⟩ := bind_eq_ok.mp hoption
    obtain ⟨_, -, hoption⟩ := bind_eq_ok.mp hoption
    cases hoption
    have hlookup := (boolOr_eq_ok hread).resolve_left (by simpa using hfast)
    rwa [show fast = true from hfast] at hlookup
  · cases h

theorem ClangTidy.createTool_fastlyExit {host : Host} {vars : VariablesMap}
    {tool : ClangTidy.ClangTidyGeneral} (h : ClangTidy.createTool host vars = .ok (some tool))
    (hfast : tool.option.enabledFastlyExit = true) :
    vars.lookup "enable-clang-tidy-fastly-exit" = some (.boolean true) := by
  unfold ClangTidy.createTool ClangTidy.createOption at h
  obtain ⟨option, hoption, h⟩ := bind_eq_ok.mp h
  split at h
  · cases h
    obtain ⟨enabled, -, hoption⟩ := bind_eq_ok.mp hoption
    dsimp only at hoption
    split at hoption
    · cases hoption
      cases hfast
    obtain ⟨fast, hread, hoption⟩ := bind_eq_ok.mp hoption
    iterate 11 obtain ⟨_, -, hoption⟩ := bind_eq_ok.mp hoption
    cases hoption
    have hlookup := (boolOr_eq_ok hread).resolve_left (by simpa using hfast)
    rwa [show fast = true from hfast] at hlookup
  · cases h

theorem createEnabledTools_fastlyExit {vars : VariablesMap} {tools : List (Host × ToolBase)}
    (hnone : NoFastExit vars) (h : createEnabledTools runner vars = .ok tools) :
    ∀ entry ∈ tools, entry.2.optionBase.enabledFastlyExit = false := by
  unfold createEnabledTools at h
  obtain ⟨format, hformat, h⟩ := bind_eq_ok.mp h
  obtain ⟨tidy, htidy, h⟩ := bind_eq_ok.mp h
  cases h
  intro entry hentry
  rw [← Bool.not_eq_true]
  intro hfast
  rcases List.mem_append.mp hentry with hentry | hentry
  · obtain ⟨tool, htool, rfl⟩ := Option.map_eq_some_iff.mp (Option.mem_toList.mp hentry)
    subst htool
    exact hnone.clangFormat (ClangFormat.createTool_fastlyExit hformat hfast)
  · obtain ⟨tool, htool, rfl⟩ := Option.map_eq_some_iff.mp (Option.mem_toList.mp hentry)
    subst htool
    exact hnone.clangTidy (ClangTidy.createTool_fastlyExit htidy hfast)

/-- The context of the second run is that of the first, in its order. -/
theorem SameSurroundings.reorder (hsame : SameSurroundings runner runner')
    {start context : RuntimeContext}
    (h : fillGitInfo runner.git.toLibgit2 runner.ord start = .ok context) :
    fillGitInfo runner'.git.toLibgit2 runner'.ord start =
        .ok (context.withFiles (Git.changedFiles runner'.ord context.patches)) ∧
      context.changedFiles.Perm (Git.changedFiles runner'.ord context.patches) := by
  obtain ⟨_, _, _, diff, -, -, -, -, -, rfl⟩ := fillGitInfo_reads h
  refine ⟨?_, changedFiles_perm _ _ _⟩
  rw [← hsame.git, fillGitInfo_reorder _ runner.ord runner'.ord, h]
  rfl

/-- **The reports of two runs.** If a run without fast exit gets to its
reports, so does every run in the same surroundings, with the same context
up to the order of the files and with reporters that report the same. -/
theorem prepare_agrees (hsame : SameSurroundings runner runner') {vars : VariablesMap}
    (hvars : parse args allOptions = .ok vars) (hnone : NoFastExit vars)
    {context : RuntimeContext} {reporters : List ReporterBase}
    (h : prepare runner args = .ok (.reporting context reporters)) :
    ∃ files reporters', prepare runner' args =
        .ok (.reporting (context.withFiles files) reporters') ∧
      context.changedFiles.Perm files ∧
      List.Forall₂ (ReportsSame context runner.ord runner'.ord) reporters reporters' := by
  obtain ⟨tools, start, hstarted, hcontext, honSource, hreporters⟩ := prepare_reporting_iff.mp h
  obtain ⟨hcontext', hperm⟩ := hsame.reorder hcontext
  have hfast : ∀ entry ∈ tools, entry.2.optionBase.enabledFastlyExit = false := by
    obtain ⟨vars', _, _, hvars', -, -, -, htools, -⟩ := hstarted
    rw [hvars] at hvars'
    cases hvars'
    exact createEnabledTools_fastlyExit hnone htools
  obtain ⟨reporters', hreporters', hagree⟩ :=
    runTools_reorder hstarted.fresh hfast hperm hreporters
  refine ⟨_, reporters', ?_, hperm, hagree.imp (fun _ _ h => h.reportsSame)⟩
  exact prepare_reporting_iff.mpr ⟨tools, start, hsame.started hstarted, hcontext',
    hsame.git ▸ honSource, hreporters'⟩

/-- What the reporting phase returns is the exit status. -/
theorem report_status (api : Api σ) (context : RuntimeContext) (reporters : List ReporterBase)
    {s : Session σ} {status : Nat}
    (h : (Stateful.runOn (report runner api context reporters) s).1 = .ok status) :
    status = exitStatus reporters := by
  have hreport : Stateful.Ensures (report runner api context reporters)
      (fun status => status = exitStatus reporters) (fun _ => True) := by
    unfold report
    iterate 4 refine Stateful.Ensures.bind (Stateful.ensures_any _) (fun _ _ => ?_)
    exact Stateful.ensures_pure rfl
  exact (hreport s).of_ok h

/-- The command line asks for the help or the version. -/
def AsksOnly (args : List String) : Prop :=
  ∃ vars, parse args allOptions = .ok vars ∧ ("help" ∈ vars ∨ "version" ∈ vars)

/-- A start-up that returns either was asked for the help or the version,
or reaches the reporting phase. -/
theorem prepare_eq_ok {start : StartUp} (h : prepare runner args = .ok start) :
    AsksOnly args ∨ ∃ context reporters, start = .reporting context reporters := by
  unfold prepare at h
  obtain ⟨vars, hvars, h⟩ := bind_eq_ok.mp h
  split at h
  · exact .inl ⟨vars, hvars, .inl ‹_›⟩
  split at h
  · exact .inl ⟨vars, hvars, .inr ‹_›⟩
  obtain ⟨_, -, h⟩ := bind_eq_ok.mp h
  obtain ⟨_, -, h⟩ := bind_eq_ok.mp h
  obtain ⟨_, -, h⟩ := bind_eq_ok.mp h
  obtain ⟨_, -, h⟩ := bind_eq_ok.mp h
  obtain ⟨_, -, h⟩ := bind_eq_ok.mp h
  obtain ⟨context, -, h⟩ := bind_eq_ok.mp h
  obtain ⟨_, -, h⟩ := bind_eq_ok.mp h
  obtain ⟨reporters, -, h⟩ := bind_eq_ok.mp h
  cases h
  exact .inr ⟨context, reporters, rfl⟩

theorem Started.not_asksOnly {tools : List (Host × ToolBase)} {start : RuntimeContext}
    (h : Started runner args tools start) : ¬ AsksOnly args := by
  obtain ⟨vars, _, _, hvars, hhelp, hversion, -⟩ := h
  rintro ⟨vars', hvars', hasks⟩
  rw [hvars] at hvars'
  cases hvars'
  exact hasks.elim hhelp hversion

/-- What a run that returns has come to. -/
theorem main_eq_ok (api : Api σ) {s : Session σ} {status : Nat}
    (h : (Stateful.runOn (main runner api args) s).1 = .ok status) :
    (AsksOnly args ∧ status = 0) ∨ ∃ context reporters,
      prepare runner args = .ok (.reporting context reporters) ∧
        status = exitStatus reporters := by
  unfold main at h
  rw [Stateful.runOn_bind, Stateful.runOn_lift] at h
  cases hprepare : prepare runner args with
  | error f =>
      rw [hprepare] at h
      cases h
  | ok start =>
      rw [hprepare] at h
      cases start with
      | help =>
          cases h
          exact .inl ⟨(prepare_eq_ok hprepare).resolve_right (fun ⟨_, _, h⟩ => nomatch h), rfl⟩
      | version =>
          cases h
          exact .inl ⟨(prepare_eq_ok hprepare).resolve_right (fun ⟨_, _, h⟩ => nomatch h), rfl⟩
      | reporting context reporters =>
          exact .inr ⟨context, reporters, rfl, report_status api context reporters h⟩

/-- **The exit status.** Two runs with one command line in the same
surroundings that both return, return the same status: whatever order their
maps are walked in, whatever GitHub and the file system answer, with fast
exit or without. -/
theorem main_status_agrees (hsame : SameSurroundings runner runner') (api : Api σ) (api' : Api τ)
    (world : σ) (world' : τ) {status status' : Nat}
    (h : (Stateful.runOn (main runner api args) { server := world }).1 = .ok status)
    (h' : (Stateful.runOn (main runner' api' args) { server := world' }).1 = .ok status') :
    status = status' := by
  rcases main_eq_ok api h with ⟨hasks, rfl⟩ | ⟨context, reporters, hprepare, rfl⟩
  · rcases main_eq_ok api' h' with ⟨-, rfl⟩ | ⟨context', reporters', hprepare', rfl⟩
    · rfl
    · obtain ⟨_, _, hstarted, -⟩ := prepare_reporting_iff.mp hprepare'
      exact absurd hasks hstarted.not_asksOnly
  · obtain ⟨tools, start, hstarted, hcontext, -, hreporters⟩ := prepare_reporting_iff.mp hprepare
    rcases main_eq_ok api' h' with ⟨hasks, rfl⟩ | ⟨context', reporters', hprepare', rfl⟩
    · exact absurd hasks hstarted.not_asksOnly
    · obtain ⟨tools', start', hstarted', hcontext', -, hreporters'⟩ :=
        prepare_reporting_iff.mp hprepare'
      obtain ⟨rfl, rfl⟩ := (hsame.started hstarted).unique hstarted'
      obtain ⟨hreordered, hperm⟩ := hsame.reorder hcontext
      rw [hreordered] at hcontext'
      cases hcontext'
      exact exitStatus_reorder hstarted.fresh hperm hreporters hreporters'

end Runs

/-! ## Two orders -/

/-- The order in which the entries are stored, from the back. -/
def Lib.Enumeration.reversed (α : Type) : Enumeration α where
  toList := fun m => (m.entries.map (fun e => (e.1, e.2))).reverse
  perm := fun _ => List.reverse_perm _

/-- A machine with a tool that finds nothing. -/
def toolHost : Host where
  execute := fun _ _ _ =>
    .ok { exitCode := 0, stdOut := "clang-format version 18.1.3", stdErr := "" }
  regexMatch := fun _ _ => .ok true
  readFile := fun _ => some ""
  parseXml := fun _ => .ok [.element "replacements" [] none []]

/-- A repository with two changed files, one of them deleted, on the source
commit; its maps are walked in the given order. -/
def twoFilesRunner (σ : Type) (ord : Enumeration String) (append : σ → String → String → Option σ) :
    Runner σ where
  getenv := actionEnv "pull_request" "refs/pull/7/merge"
  git := { Libgit2.always [⟨⟨.modified, "a.cpp"⟩, []⟩, ⟨⟨.deleted, "b.cpp"⟩, []⟩] with
    repositoryHead := fun _ => .ok ⟨0⟩
    referencePeel := fun _ => .ok ⟨0, "ffac537e6cbbf934b08745a378932722df287a53"⟩ }
  ord := ord
  clangFormatHost := toolHost
  clangTidyHost := toolHost
  append := append

/-- A command line with clang-format, for the two files of the action. -/
def formatOnly : List String :=
  ["--target-revision=main", "--clang-format-binary=clang-format", "--enable-clang-tidy=false",
   "--enable-comment-on-issue=false"]

/-- The first run appends to files it does not look at again. -/
def storedRunner : Runner Unit := twoFilesRunner Unit (.stored String) (fun world _ _ => some world)

/-- The second run walks its maps the other way, and keeps what it writes. -/
def reversedRunner : Runner (List String) :=
  twoFilesRunner (List String) (.reversed String) (fun texts _ text => some (texts ++ [text]))

theorem sameSurroundings_reversed : SameSurroundings storedRunner reversedRunner :=
  ⟨rfl, rfl, rfl, rfl⟩

theorem main_status_agrees_reversed :
    ∃ status, (Stateful.runOn (main storedRunner (listing []) formatOnly)
        { server := () }).1 = .ok status ∧
      (Stateful.runOn (main reversedRunner (fun texts _ => (none, texts)) formatOnly)
        { server := [] }).1 = .ok status := by
  obtain ⟨status, h⟩ := exists_ok_of_isOk (x := (Stateful.runOn (main storedRunner (listing [])
    formatOnly) { server := () }).1) (by decide +kernel)
  obtain ⟨status', h'⟩ := exists_ok_of_isOk (x := (Stateful.runOn (main reversedRunner
    (fun texts _ => (none, texts)) formatOnly) { server := [] }).1) (by decide +kernel)
  have hsame := main_status_agrees sameSurroundings_reversed (listing [])
    (fun texts _ => (none, texts)) () [] h h'
  exact ⟨status, h, hsame ▸ h'⟩

theorem exists_prepare_storedRunner : ∃ context reporters,
    prepare storedRunner formatOnly = .ok (.reporting context reporters) :=
  exists_of_reaches (by decide +kernel)

/-- The fast exits are left at their defaults. -/
theorem noFastExit_formatOnly {vars : VariablesMap}
    (hvars : parse formatOnly allOptions = .ok vars) : NoFastExit vars := by
  have hwords : formatOnly = [("target-revision", "main"), ("clang-format-binary", "clang-format"),
      ("enable-clang-tidy", "false"), ("enable-comment-on-issue", "false")].map
        (fun w => longWord w.1 w.2) := by decide
  rw [hwords] at hvars
  obtain ⟨-, hdefault⟩ := lookup_of_parse (by decide) hvars
  constructor
  · rw [hdefault _ (by decide)]
    decide
  · rw [hdefault _ (by decide)]
    decide

theorem prepare_agrees_reversed :
    ∃ context reporters files reporters',
      prepare storedRunner formatOnly = .ok (.reporting context reporters) ∧
        prepare reversedRunner formatOnly =
          .ok (.reporting (context.withFiles files) reporters') ∧
        context.changedFiles.Perm files ∧
        List.Forall₂ (ReportsSame context storedRunner.ord reversedRunner.ord)
          reporters reporters' := by
  obtain ⟨context, reporters, hprepare⟩ := exists_prepare_storedRunner
  obtain ⟨vars, hvars, -⟩ := bind_eq_ok.mp hprepare
  obtain ⟨files, reporters', hprepare', hperm, hsame⟩ :=
    prepare_agrees sameSurroundings_reversed hvars (noFastExit_formatOnly hvars) hprepare
  exact ⟨context, reporters, files, reporters', hprepare, hprepare', hperm, hsame⟩

end CppLint
