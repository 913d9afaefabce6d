/-
CppLint.RaiseTheorems — what each stage before the reports can throw.

Every function of the start-up is looked at once, from the reading of the
command line to `run_tools`. Most throw C++ exceptions only (`Raises`). The
ones with an assertion or a dereference are given what the stages before
them provide, and what is left is one condition each: a context without a
target (`fillGitInfo_crashes`), a repository without HEAD
(`checkRepoIsOnSource_crashes`), a tool without an executable
(`runTools_crashes`).
-/
import CppLint.MainTheorems
import CppLint.ProgramOptionsTheorems

namespace CppLint

open CppLint.Lib CppLint.Git CppLint.Tool CppLint.Github CppLint.ProgramOptions

/-- The call throws exceptions only, and returns values that satisfy `Q`. -/
abbrev Raises {α : Type} (x : Except Fault α) (Q : α → Prop := fun _ => True) : Prop :=
  Guarantees x Q Fault.IsException

theorem throwIf_raises (condition : Bool) (message : String) :
    Raises (throwIf condition message) (fun _ => condition = false) :=
  throwIf_guarantees trivial

theorem throwUnless_raises (condition : Bool) (message : String) :
    Raises (throwUnless condition message) (fun _ => condition = true) :=
  throwUnless_guarantees trivial

theorem external_raises {α : Type} (x : Except String α) :
    Raises (external x) (fun a => x = .ok a) :=
  external_guarantees (fun _ => trivial)

/-! ## The command line -/

namespace ProgramOptions

theorem readWord_raises (tok : String) : Raises (readWord tok) := by
  unfold readWord
  split
  · trivial
  · dsimp only
    split <;> trivial
  · trivial
  · trivial

theorem findNothrow_raises (desc : OptionsDescription) (name : String) (approx : Bool) :
    Raises (findNothrow desc name approx) := by
  unfold findNothrow
  split
  · trivial
  · trivial
  · split
    · split <;> trivial
    · trivial

/-- The reader goes on after a word, or after the word and its value. -/
theorem parseWords_raises (desc : OptionsDescription) (args : List String) :
    Raises (parseWords desc args) := by
  induction args using parseWords.induct with
  | case1 => trivial
  | case2 tok args ih ihValue =>
      rw [parseWords]
      refine (readWord_raises tok).bind (fun word _ => ?_)
      cases word with
      | positional => exact ih
      | terminator => trivial
      | short => trivial
      | long name adjacent =>
          dsimp only
          split
          · exact ih
          refine (findNothrow_raises desc name true).bind (fun found _ => ?_)
          cases found with
          | none => trivial
          | some d =>
              dsimp only
              split
              · exact ih.bind (fun _ _ => trivial)
              · trivial
              · exact ih.bind (fun _ _ => trivial)
              · cases args with
                | nil => trivial
                | cons value args =>
                    refine (readWord_raises value).bind (fun _ _ => ?_)
                    exact Guarantees.bind ihValue (fun _ _ => trivial)

theorem semantic_parse_raises (semantic : ValueSemantic) (value : Option String) :
    Raises (semantic.parse value) := by
  cases semantic with
  | untyped => trivial
  | boolean byDefault =>
      refine Guarantees.map ?_
      unfold parseBool
      dsimp only
      split
      · trivial
      · split <;> trivial
  | string byDefault => cases value <;> trivial

theorem storeOption_raises (desc : OptionsDescription) (vars : VariablesMap)
    (opt : String × Option String) : Raises (storeOption desc vars opt) := by
  refine (findNothrow_raises desc opt.1 false).bind (fun found _ => ?_)
  cases found with
  | none => trivial
  | some d =>
      dsimp only
      split
      · trivial
      · exact (semantic_parse_raises d.semantic opt.2).bind (fun _ _ => trivial)

/-- What is read from the command line has every default that is not
given. -/
theorem parse_raises (args : List String) (desc : OptionsDescription) :
    Raises (parse args desc) (fun vars => ∀ name, (defaultOf desc name).isSome → name ∈ vars) := by
  refine (parseWords_raises desc args).bind (fun options _ => ?_)
  have hstore : Raises (options.foldlM (storeOption desc) ∅) :=
    Guarantees.foldlM options _ trivial (fun opt _ vars _ => storeOption_raises desc vars opt)
  refine hstore.bind (fun vars _ name hname => ?_)
  obtain ⟨value, hvalue⟩ := Option.isSome_iff_exists.mp hname
  refine (UMap.mem_iff_lookup _ _).mpr ?_
  rw [lookup_applyDefaults, hvalue]
  cases vars.lookup name with
  | none => exact ⟨_, rfl⟩
  | some value' => exact ⟨_, rfl⟩

variable (vars : VariablesMap) (option : String)

theorem asBool_raises : Raises (asBool vars option) := by
  unfold asBool
  split <;> trivial

theorem asString_raises :
    Raises (asString vars option) (fun s => vars.lookup option = some (.string s)) := by
  unfold asString
  split
  · assumption
  · trivial

theorem boolOr_raises (member : Bool) : Raises (boolOr vars option member) := by
  unfold boolOr
  split
  · exact asBool_raises vars option
  · trivial

theorem stringOr_raises (member : String) : Raises (stringOr vars option member) := by
  unfold stringOr
  split
  · exact (asString_raises vars option).mono (fun _ _ => trivial) (fun _ h => h)
  · trivial

end ProgramOptions

/-! ## The tools -/

namespace Tool

theorem which_raises (host : Host) (command : String) : Raises (which host command) :=
  (external_raises _).bind (fun _ _ => trivial)

theorem findClangTool_raises (host : Host) (tool version : String) :
    Raises (findClangTool host tool version) := by
  refine (which_raises host _).bind (fun res _ => ?_)
  refine (throwIf_raises _ _).bind (fun _ _ => ?_)
  exact (throwIf_raises _ _).bind (fun _ _ => trivial)

theorem chooseBinary_raises (host : Host) (tool : String) (vars : VariablesMap) :
    Raises (chooseBinary host tool vars) := by
  unfold chooseBinary
  dsimp only
  split
  · refine (throwUnless_raises _ _).bind (fun _ _ => ?_)
    exact (asString_raises vars _).bind (fun _ _ => findClangTool_raises host tool _)
  split
  · refine (throwUnless_raises _ _).bind (fun _ _ => ?_)
    refine (asString_raises vars _).bind (fun given _ => ?_)
    refine (which_raises host given).bind (fun res _ => ?_)
    exact (throwUnless_raises _ _).bind (fun _ _ => trivial)
  · refine (which_raises host tool).bind (fun res _ => ?_)
    exact (throwUnless_raises _ _).bind (fun _ _ => trivial)

theorem getVersion_raises (host : Host) (tool binary : String) :
    Raises (getVersion host tool binary) := by
  refine (external_raises _).bind (fun res _ => ?_)
  split
  · trivial
  · split <;> trivial

end Tool

theorem ClangFormat.createTool_raises (host : Host) (vars : VariablesMap) :
    Raises (ClangFormat.createTool host vars) (fun found => ∀ tool ∈ found,
      chooseBinary host "clang-format" vars = .ok tool.option.binary) := by
  have hoption : Raises (ClangFormat.createOption host vars) (fun option =>
      option.enabled = true → chooseBinary host "clang-format" vars = .ok option.binary) := by
    unfold ClangFormat.createOption
    refine (asBool_raises vars _).bind (fun enabled _ => ?_)
    dsimp only
    split
    · exact nofun
    refine (boolOr_raises vars _ _).bind (fun _ _ => ?_)
    refine (stringOr_raises vars _ _).bind (fun _ _ => ?_)
    refine ((chooseBinary_raises host _ vars).and_ok (fun _ h => h)).bind (fun binary hbinary => ?_)
    exact (getVersion_raises host _ binary).bind (fun _ _ _ => hbinary.2)
  refine hoption.bind (fun option hbinary => ?_)
  split
  · rintro tool ⟨⟩
    exact hbinary ‹_›
  · exact nofun

theorem ClangTidy.createTool_raises (host : Host) (vars : VariablesMap) :
    Raises (ClangTidy.createTool host vars) (fun found => ∀ tool ∈ found,
      chooseBinary host "clang-tidy" vars = .ok tool.option.binary) := by
  have hoption : Raises (ClangTidy.createOption host vars) (fun option =>
      option.enabled = true → chooseBinary host "clang-tidy" vars = .ok option.binary) := by
    unfold ClangTidy.createOption
    refine (asBool_raises vars _).bind (fun enabled _ => ?_)
    dsimp only
    split
    · exact nofun
    refine (boolOr_raises vars _ _).bind (fun _ _ => ?_)
    refine ((chooseBinary_raises host _ vars).and_ok (fun _ h => h)).bind (fun binary hbinary => ?_)
    refine (getVersion_raises host _ binary).bind (fun _ _ => ?_)
    iterate 2 refine (stringOr_raises vars _ _).bind (fun _ _ => ?_)
    iterate 2 refine (boolOr_raises vars _ _).bind (fun _ _ => ?_)
    iterate 5 refine (stringOr_raises vars _ _).bind (fun _ _ => ?_)
    exact fun _ => hbinary.2
  refine hoption.bind (fun option hbinary => ?_)
  split
  · rintro tool ⟨⟩
    exact hbinary ‹_›
  · exact nofun

section Start

variable {σ : Type} (runner : Runner σ) (vars : VariablesMap)

/-- The executable chosen for one of the tools. -/
def Chosen (binary : String) : Prop :=
  chooseBinary runner.clangFormatHost "clang-format" vars = .ok binary ∨
    chooseBinary runner.clangTidyHost "clang-tidy" vars = .ok binary

theorem createEnabledTools_raises :
    Raises (createEnabledTools runner vars)
      (fun tools => ∀ entry ∈ tools, Chosen runner vars entry.2.optionBase.binary) := by
  refine (ClangFormat.createTool_raises _ vars).bind (fun format hformat => ?_)
  refine (ClangTidy.createTool_raises _ vars).bind (fun tidy htidy => ?_)
  intro entry hentry
  rcases List.mem_append.mp hentry with hentry | hentry
  · obtain ⟨tool, htool, rfl⟩ := Option.map_eq_some_iff.mp (Option.mem_toList.mp hentry)
    exact .inl (hformat tool htool)
  · obtain ⟨tool, htool, rfl⟩ := Option.map_eq_some_iff.mp (Option.mem_toList.mp hentry)
    exact .inr (htidy tool htool)

/-! ## Up to the reports -/

theorem setLog_raises (hlevel : "log-level" ∈ vars) : Raises (setLog vars) := by
  refine (assertThat_guarantees (fun h => ?_)).bind (fun _ _ => ?_)
  · exact absurd hlevel (of_decide_eq_false h)
  refine (asString_raises vars _).bind (fun level _ => ?_)
  exact (throwUnless_raises _ _).mono (fun _ _ => trivial) (fun _ h => h)

/-- The new context has the target of the options. -/
theorem ProgramOptions.fillContext_raises (ctx : RuntimeContext) :
    Raises (ProgramOptions.fillContext vars ctx)
      (fun ctx' => ∃ target summary issue review output,
        vars.lookup "target-revision" = some (.string target) ∧ ctx' = { ctx with
          target := target
          enableStepSummary := summary
          enableCommentOnIssue := issue
          enablePullRequestReview := review
          enableActionOutput := output }) := by
  refine (throwUnless_raises _ _).bind (fun _ _ => ?_)
  refine (asString_raises vars _).bind (fun target htarget => ?_)
  iterate 4 refine (boolOr_raises vars _ _).bind (fun _ _ => ?_)
  exact ⟨target, _, _, _, _, htarget, rfl⟩

theorem parsePrNumber_raises (ref : String) : Raises (parsePrNumber ref) := by
  unfold parsePrNumber
  split
  · exact (stoi_guarantees trivial trivial _).mono (fun _ _ => trivial) (fun _ h => h)
  · trivial

/-- A checked environment has a workspace and a revision. -/
theorem checkEnv_raises (env : GithubEnv) :
    Raises (checkEnv env) (fun _ => env.workspace ≠ "" ∧ env.githubSha ≠ "") := by
  unfold checkEnv
  iterate 4 refine (throwIf_raises _ _).bind (fun _ _ => ?_)
  refine (throwIf_raises _ _).bind (fun _ hsha => ?_)
  refine (throwIf_raises _ _).bind (fun _ _ => ?_)
  refine (throwIf_raises _ _).mono (fun _ hworkspace => ?_) (fun _ h => h)
  exact ⟨of_decide_eq_false hworkspace, of_decide_eq_false hsha⟩

theorem readEnv_raises (getenv : String → String) :
    Raises (readEnv getenv)
      (fun env => env = githubEnv getenv ∧ env.workspace ≠ "" ∧ env.githubSha ≠ "") :=
  (checkEnv_raises _).bind (fun _ h => ⟨rfl, h⟩)

theorem Github.fillContext_raises (env : GithubEnv) (ctx : RuntimeContext) :
    Raises (Github.fillContext env ctx) := by
  unfold Github.fillContext
  dsimp only
  split
  · exact (parsePrNumber_raises _).bind (fun _ _ => trivial)
  · trivial

/-- No git member is set, and there is a repository and a source to look
for. -/
structure Unfilled (ctx : RuntimeContext) : Prop where
  repo : ctx.repo = none
  targetCommit : ctx.targetCommit = none
  sourceCommit : ctx.sourceCommit = none
  patches : ctx.patches = ∅
  deltas : ctx.deltas = ∅
  changedFiles : ctx.changedFiles = []
  repoPath : ctx.repoPath ≠ ""
  source : ctx.source ≠ ""

/-- An unfilled context can only lack a target. -/
theorem fillGitInfo_crashes (git : Libgit2) (ord : Enumeration String) {ctx : RuntimeContext}
    (h : Unfilled ctx) :
    Guarantees (fillGitInfo git ord ctx) (fun _ => True) (fun f => f.IsException ∨
      f = .assertion .fillGitInfo "!context.target.empty()" ∧ ctx.target = "") := by
  unfold fillGitInfo
  rw [h.repo, h.targetCommit, h.sourceCommit, h.patches, h.deltas, h.changedFiles,
    decide_eq_true h.repoPath, decide_eq_true h.source]
  iterate 7 refine (assertThat_guarantees (fun hno => by cases hno)).bind (fun _ _ => ?_)
  refine (assertThat_guarantees (fun hno => .inr ⟨rfl, by simpa using hno⟩)).bind (fun _ _ => ?_)
  refine (assertThat_guarantees (fun hno => by cases hno)).bind (fun _ _ => ?_)
  iterate 4 refine (external_guarantees (fun _ => .inl trivial)).bind (fun _ _ => ?_)
  rw [createFromDiff_eq, deltas_eq]
  trivial

theorem GitError.fault_isException (e : GitError) : e.fault.IsException := by
  cases e <;> trivial

theorem headCommit_raises (git : Libgit2Refs) (repo : Repo) : Raises (headCommit git repo) := by
  have hhead : Raises (head git repo) := by
    unfold head
    split
    · trivial
    · trivial
    · trivial
    · exact GitError.fault_isException _
  refine hhead.bind (fun ref _ => ?_)
  cases ref with
  | none => trivial
  | some ref =>
      show Raises (peel git ref)
      unfold peel
      split
      · trivial
      · trivial
      · exact GitError.fault_isException _

/-- In a filled context the comparison can only miss HEAD. -/
theorem checkRepoIsOnSource_crashes (git : Libgit2Refs) {ctx : RuntimeContext} {repo : Repo}
    {source : Commit} (hrepo : ctx.repo = some repo) (hsource : ctx.sourceCommit = some source) :
    Guarantees (checkRepoIsOnSource git ctx) (fun _ => True) (fun f => f.IsException ∨
      f = .nullPointer ∧ headCommit git repo = .ok none) := by
  unfold checkRepoIsOnSource
  rw [hrepo, hsource]
  have hhead := ((headCommit_raises git repo).and_ok (fun _ h => h)).mono (fun _ h => h.2)
    (fun f hf => (.inl hf : f.IsException ∨ f = .nullPointer ∧ headCommit git repo = .ok none))
  refine hhead.bind (fun commit hcommit => ?_)
  cases commit with
  | none => exact .inr ⟨rfl, hcommit⟩
  | some commit =>
      exact (throwUnless_raises _ _).mono (fun _ _ => trivial) (fun _ h => .inl h)

/-! ### The tools -/

theorem mapAt_raises {β : Type} (m : UMap String β) (key : String) : Raises (mapAt m key) := by
  unfold mapAt
  split <;> trivial

/-- The check of a single file throws exceptions only. -/
def RaisesAlone {ρ : Type} (checker : Checker ρ) (context : RuntimeContext) : Prop :=
  ∀ file, Raises (checker.checkSingleFile context context.repoPath file)

theorem verdict_raises {ρ : Type} (host : Host) {checker : Checker ρ} {context : RuntimeContext}
    (halone : RaisesAlone checker context) (file : String) :
    Raises (verdict host checker context file) := by
  refine (mapAt_raises _ _).bind (fun delta _ => ?_)
  split
  · trivial
  have hfilter : Raises (filterFile host checker.option.fileFilterIregex file) :=
    (external_raises _).bind (fun _ _ => trivial)
  refine hfilter.bind (fun filtered _ => ?_)
  split
  · trivial
  refine (halone file).bind (fun r _ => ?_)
  split <;> trivial

/-- A check of a fresh tool can only lack an executable. -/
theorem runCheck_crashes {ρ : Type} (host : Host) {checker : Checker ρ}
    {context : RuntimeContext} (halone : RaisesAlone checker context)
    (hpath : context.repoPath ≠ "") :
    Guarantees (runCheck host checker context {}) (fun _ => True) (fun f => f.IsException ∨
      f = .assertion .check "!option.binary.empty()" ∧ checker.option.binary = "") := by
  refine (runCheck_outcome host checker context).mono (fun _ _ => trivial) ?_
  rintro f ((⟨hbinary, rfl⟩ | ⟨hempty, -⟩) | ⟨file, -, hthrown⟩)
  · exact .inr ⟨rfl, hbinary⟩
  · exact absurd hempty hpath
  · exact .inl ((verdict_raises host halone file).of_error hthrown)

theorem ClangTidy.raisesAlone (host : Host) (option : ClangTidy.Options)
    (context : RuntimeContext) : RaisesAlone (ClangTidy.checker host option) context := by
  intro file
  have hexec : Raises (ClangTidy.execute host option context.repoPath file) :=
    (external_raises _).bind (fun _ _ => trivial)
  exact hexec.bind (fun _ _ => trivial)

theorem ClangFormat.raisesAlone (host : Host) (option : ClangFormat.Options)
    (context : RuntimeContext) : RaisesAlone (ClangFormat.checker host option) context := by
  intro file
  have hexec : Raises (ClangFormat.execute host option context.repoPath file) :=
    (external_raises _).bind (fun _ _ => trivial)
  refine hexec.bind (fun p _ => ?_)
  dsimp only
  split
  · trivial
  refine Guarantees.bind (Q := fun _ => True) ?_ (fun _ _ => trivial)
  unfold ClangFormat.parseReplacementsXml
  split
  · trivial
  refine (throwIf_raises _ _).bind (fun _ _ => ?_)
  split
  · trivial
  have hlens : Raises (ClangFormat.getLineLens host (context.repoPath ++ "/" ++ file)) := by
    unfold ClangFormat.getLineLens
    split <;> trivial
  exact hlens.bind (fun _ _ => trivial)

theorem ToolBase.check_crashes (host : Host) {context : RuntimeContext}
    (hpath : context.repoPath ≠ "") {tool : ToolBase} (hfresh : tool.Fresh) :
    Guarantees (tool.check host context) (fun _ => True) (fun f => f.IsException ∨
      f = .assertion .check "!option.binary.empty()" ∧ tool.optionBase.binary = "") := by
  cases tool with
  | clangTidy tool =>
      obtain ⟨option, result⟩ := tool
      obtain rfl : result = {} := hfresh
      exact Guarantees.map ((runCheck_crashes host (ClangTidy.raisesAlone host option context)
        hpath).bind (fun _ _ => trivial))
  | clangFormat tool =>
      obtain ⟨option, result⟩ := tool
      obtain rfl : result = {} := hfresh
      exact Guarantees.map ((runCheck_crashes host (ClangFormat.raisesAlone host option context)
        hpath).bind (fun _ _ => trivial))

theorem runTools_crashes {context : RuntimeContext} (hpath : context.repoPath ≠ "")
    {tools : List (Host × ToolBase)} (hfresh : ∀ entry ∈ tools, entry.2.Fresh) :
    Guarantees (runTools tools context) (fun _ => True) (fun f => f.IsException ∨
      f = .assertion .check "!option.binary.empty()" ∧
        ∃ entry ∈ tools, entry.2.optionBase.binary = "") := by
  refine Guarantees.foldlM tools [] trivial (fun entry hentry reporters _ => ?_)
  have hcheck := ToolBase.check_crashes entry.1 hpath (hfresh entry hentry)
  refine (hcheck.mono (fun _ _ => trivial) (fun f hf => ?_)).bind (fun _ _ => trivial)
  exact hf.imp_right (fun h => ⟨h.1, entry, hentry, h.2⟩)

/-! ### The files -/

/-- A report to a file throws exceptions only, and sends nothing. -/
theorem appendToFile_quiet (file text message : String) :
    Stateful.Keeps (fun s => s.sent = []) (appendToFile runner file text message)
      Fault.IsException := by
  refine Stateful.Keeps.bind (Stateful.keeps_step (fun s hs => ?_)) (fun opened => ?_)
  · cases runner.append s.server file text with
    | none => exact hs
    | some server => exact hs
  · exact Stateful.keeps_lift ((throwUnless_raises _ _).mono (fun _ _ => trivial) (fun _ h => h))

theorem writeToGithubActionOutput_quiet (reporters : List ReporterBase) :
    Stateful.Keeps (fun s => s.sent = []) (writeToGithubActionOutput runner reporters)
      Fault.IsException := by
  induction reporters with
  | nil => exact Stateful.keeps_pure
  | cons reporter reporters ih =>
      exact (appendToFile_quiet runner _ _ _).bind (fun _ => ih)

end Start

end CppLint
