/-
CppLint.Github.ThreadTheorems — one comment, kept up to date.

Runs should leave one comment by us in the thread, with the body of the last
run. Each run looks at the oldest 30 comments only, takes a comment without
a user for ours, and keeps ids modulo `2 ^ 32`; so what a run does depends
on the thread it finds. `Ready` is the condition under which it does the
right thing (`run_of_ready`), and histories all of whose runs find the
thread ready keep the invariant (`history_single`). In a thread with 30
older comments of others, each run adds a further comment
(`crowdedThread_duplicated`).
-/
import CppLint.Github.ClientTheorems

namespace CppLint.Github

open CppLint.Lib

/-! ## Comments as JSON -/

@[simp] theorem Comment.idOf_toJson (c : Comment) : c.toJson.idOf = some (c.id : Int) := rfl

theorem Comment.loginOf_toJson (c : Comment) : c.toJson.loginOf = c.user := by
  obtain ⟨id, user, body⟩ := c
  cases user <;> rfl

theorem Comment.isIssueComment (c : Comment) : IsIssueComment c.toJson := by
  obtain ⟨id, user, body⟩ := c
  refine ⟨⟨id, rfl⟩, ?_⟩
  cases user with
  | none => exact .inr (.inl rfl)
  | some name => exact .inr (.inr ⟨_, name, rfl, rfl⟩)

/-- No user, or we are. -/
def Comment.mayBeOurs (c : Comment) : Bool := c.user.isNone || c.byUs

theorem Comment.looksOurs_toJson (c : Comment) : looksOurs c.toJson = c.mayBeOurs := by
  unfold looksOurs Comment.mayBeOurs Comment.byUs
  rw [c.loginOf_toJson]
  cases c.user <;> simp

/-! ## What a run does to a ready thread -/

/-- The run will find our comment, or see rightly that there is none: the
first comment on the page that may be ours is ours, under an id the client
can hold, or there is none on the page and none by us in the thread. -/
def Ready (t : Thread) : Prop :=
  match (t.take pageSize).find? Comment.mayBeOurs with
  | none => ∀ c ∈ t, c.byUs = false
  | some c => c.byUs = true ∧ c.id < noCommentId

/-- The id the client holds after reading the page. -/
theorem chosenId_page (t : Thread) :
    chosenId noCommentId ((t.take pageSize).map Comment.toJson) =
      match (t.take pageSize).find? Comment.mayBeOurs with
      | none => noCommentId
      | some c => c.id % 2 ^ 32 := by
  have hcomp : looksOurs ∘ Comment.toJson = Comment.mayBeOurs := funext Comment.looksOurs_toJson
  unfold chosenId
  rw [List.find?_map, hcomp]
  cases (t.take pageSize).find? Comment.mayBeOurs with
  | none => rfl
  | some c =>
      simp only [Option.map_some, Comment.idOf_toJson]
      omega

variable {forge : Forge} {ctx : RuntimeContext}

/-- The context is of the pull request the thread belongs to. -/
structure Forge.Serves (forge : Forge) (ctx : RuntimeContext) : Prop extends Commentable ctx where
  repoPair_eq : ctx.repoPair = forge.repoPair
  prNumber_eq : ctx.prNumber = forge.prNumber

/-- After reading the page the arriving comments are in the thread. -/
theorem runOn_getIssueCommentId_forge (hserves : forge.Serves ctx) (t arriving : Thread) :
    Stateful.runOn (getIssueCommentId forge.api ctx) { server := ⟨t, arriving⟩ } = (.ok (),
      { commentId := chosenId noCommentId ((t.take pageSize).map Comment.toJson),
        server := ⟨t ++ arriving, []⟩, sent := [listRequest ctx] }) := by
  have hget : forge.api ⟨t, arriving⟩ (listRequest ctx) =
      (some ⟨200, "OK", some (.array ((t.take pageSize).map Comment.toJson))⟩,
        ⟨t ++ arriving, []⟩) := by
    simp [Forge.api, listRequest, hserves.repoPair_eq, hserves.prNumber_eq]
  refine runOn_getIssueCommentId hserves.toCommentable hget (.inr rfl) rfl (fun c hc => ?_)
  obtain ⟨c', _, rfl⟩ := List.mem_map.mp hc
  exact c'.isIssueComment

/-- Whose comments a thread holds: at most one is ours. -/
def Thread.ours (t : Thread) : Nat := t.countP Comment.byUs

theorem ours_append (t t' : Thread) : Thread.ours (t ++ t') = Thread.ours t + Thread.ours t' :=
  List.countP_append

theorem ours_eq_zero {t : Thread} : Thread.ours t = 0 ↔ ∀ c ∈ t, c.byUs = false := by
  simp [Thread.ours, List.countP_eq_zero]

/-- Replacing a body changes neither the authors nor the ids. -/
theorem ours_edit (t : Thread) (id : Nat) (body : String) :
    Thread.ours (t.edit id body) = Thread.ours t := by
  unfold Thread.ours Thread.edit
  rw [List.countP_map]
  congr 1
  funext c
  by_cases h : c.id = id <;> simp [h, Comment.byUs]

theorem ids_edit (t : Thread) (id : Nat) (body : String) : (t.edit id body).ids = t.ids := by
  unfold Thread.ids Thread.edit
  rw [List.map_map]
  congr 1
  funext c
  by_cases h : c.id = id <;> simp [h]

/-- A run that finds no comment adds one. -/
theorem run_adds (hserves : forge.Serves ctx) (body : String) {t : Thread} {s : Session ForgeState}
    (hs : s.server = ⟨t, []⟩) (hid : s.commentId = noCommentId) :
    ∃ s', Stateful.runOn (addOrUpdateIssueComment forge.api ctx body) s = (.ok (), s') ∧
      s'.server.thread = t ++ [⟨forge.fresh t, some ourName, body⟩] := by
  have hpost : forge.api s.server (addRequest ctx body) =
      (some ⟨201, "Created", some (Comment.toJson ⟨forge.fresh t, some ourName, body⟩)⟩,
        ⟨t ++ [⟨forge.fresh t, some ourName, body⟩], []⟩) := by
    rw [hs]
    simp [Forge.api, addRequest, hserves.repoPair_eq, hserves.prNumber_eq, Request.text,
      Json.member?]
  obtain ⟨id, hrun⟩ := runOn_addIssueComment hpost (.inr rfl) rfl (Comment.isIssueComment _)
  exact ⟨_, (runOn_addOrUpdate_add hid).trans hrun, rfl⟩

/-- A run that finds a comment replaces its body. -/
theorem run_updates (hserves : forge.Serves ctx) (body : String) {t : Thread}
    {s : Session ForgeState} (hs : s.server = ⟨t, []⟩) (hid : s.commentId ≠ noCommentId)
    (hmem : s.commentId ∈ t.ids) :
    ∃ s', Stateful.runOn (addOrUpdateIssueComment forge.api ctx body) s = (.ok (), s') ∧
      s'.server.thread = t.edit s.commentId body := by
  have hpost : forge.api s.server (updateRequest ctx s.commentId body) =
      (some ⟨200, "OK", some (.object [])⟩, ⟨t.edit s.commentId body, []⟩) := by
    rw [hs]
    simp [Forge.api, updateRequest, hserves.repoPair_eq, hmem, Request.text, Json.member?]
  have hrun := runOn_updateIssueComment hserves.toCommentable hid hpost (.inr rfl)
  exact ⟨_, (runOn_addOrUpdate_update hid).trans hrun, rfl⟩

/-- A comment with a fresh id keeps the ids distinct. -/
theorem nodup_ids_fresh {t : Thread} {name : Option String} {body : String}
    (hnodup : t.ids.Nodup) : (Thread.ids (t ++ [⟨forge.fresh t, name, body⟩])).Nodup := by
  show ((t ++ [_]).map Comment.id).Nodup
  rw [List.map_append, List.nodup_append]
  refine ⟨hnodup, List.nodup_singleton _, ?_⟩
  intro id hid id' hid' heq
  rw [List.map_singleton, List.mem_singleton] at hid'
  rw [heq, hid'] at hid
  exact forge.fresh_notMem _ hid

/-- **A run on a ready thread** completes, and leaves one comment by us, with
its body. -/
theorem run_of_ready (hserves : forge.Serves ctx) {t arriving : Thread}
    (harriving : FromOthers t arriving) (hone : t.ours ≤ 1) (hready : Ready t) (body : String) :
    ∃ s, runOnThread forge ctx t arriving body = (.ok (), s) ∧ s.server.thread.ids.Nodup ∧
      s.server.thread.ours = 1 ∧ ∃ c ∈ s.server.thread, c.byUs = true ∧ c.body = body := by
  obtain ⟨hnodup, hothers⟩ := harriving
  have hzero : Thread.ours arriving = 0 := ours_eq_zero.mpr hothers
  unfold runOnThread writeThread
  rw [Stateful.runOn_bind, runOn_getIssueCommentId_forge hserves, chosenId_page]
  unfold Ready at hready
  cases hfound : (t.take pageSize).find? Comment.mayBeOurs with
  | none =>
      rw [hfound] at hready
      obtain ⟨s', hrun, hthread⟩ := run_adds hserves body
        (s := ⟨noCommentId, ⟨t ++ arriving, []⟩, [listRequest ctx]⟩) rfl rfl
      refine ⟨s', hrun, ?_, ?_, ?_⟩
      · rw [hthread]
        exact nodup_ids_fresh hnodup
      · rw [hthread, ours_append, ours_append, hzero, ours_eq_zero.mpr hready]
        rfl
      · rw [hthread]
        exact ⟨_, List.mem_append_right _ (List.mem_singleton.mpr rfl), rfl, rfl⟩
  | some c =>
      rw [hfound] at hready
      obtain ⟨hours, hlt⟩ := hready
      have hmem : c ∈ t := List.mem_of_mem_take (List.mem_of_find?_eq_some hfound)
      have hid : c.id % 2 ^ 32 = c.id := Nat.mod_eq_of_lt (by
        unfold noCommentId at hlt
        omega)
      have hmem' : c ∈ t ++ arriving := List.mem_append_left _ hmem
      obtain ⟨s', hrun, hthread⟩ := run_updates hserves body
        (s := ⟨c.id % 2 ^ 32, ⟨t ++ arriving, []⟩, [listRequest ctx]⟩) rfl
        (by rw [hid]; exact Nat.ne_of_lt hlt)
        (by rw [hid]; exact List.mem_map.mpr ⟨c, hmem', rfl⟩)
      rw [hid] at hthread
      refine ⟨s', hrun, ?_, ?_, ?_⟩
      · rw [hthread, ids_edit]
        exact hnodup
      · have hpos : 0 < Thread.ours t := List.countP_pos_iff.mpr ⟨c, hmem, hours⟩
        rw [hthread, ours_edit, ours_append, hzero]
        omega
      · rw [hthread]
        exact ⟨{ c with body := body }, List.mem_map.mpr ⟨c, hmem', by simp⟩, hours, rfl⟩

/-! ## Histories -/

/-- The thread is as it should be: distinct ids, at most one comment by us,
and that of the last run's body. -/
structure Single (h : History) : Prop where
  nodup : h.thread.ids.Nodup
  atMostOne : h.thread.ours ≤ 1
  upToDate : ∀ body, h.lastBody = some body → ∃ c ∈ h.thread, c.byUs = true ∧ c.body = body

/-- The event does not find the thread in a state it mishandles. -/
def Event.Ready : Event → Thread → Prop
  | .others _, _ => True
  | .run _ _, t => Github.Ready t

/-- One event that is ready for the thread it finds. -/
def ReadyStep (forge : Forge) (ctx : RuntimeContext) (h h' : History) : Prop :=
  ∃ event, Step forge ctx h event h' ∧ event.Ready h.thread

theorem single_step (hserves : forge.Serves ctx) {h h' : History} (hs : Single h)
    (hstep : ReadyStep forge ctx h h') : Single h' := by
  obtain ⟨event, hevent, hready⟩ := hstep
  cases hevent with
  | @others c hc =>
      obtain ⟨hnodup, hothers⟩ := hc
      refine ⟨hnodup, ?_, ?_⟩
      · show Thread.ours (h.thread ++ [c]) ≤ 1
        rw [ours_append, ours_eq_zero.mpr hothers]
        exact hs.atMostOne
      · intro body hbody
        obtain ⟨c', hc', hours, hc'body⟩ := hs.upToDate body hbody
        exact ⟨c', List.mem_append_left _ hc', hours, hc'body⟩
  | @run body arriving s harriving hrun =>
      obtain ⟨s', hrun', hnodup, hone, hbody⟩ :=
        run_of_ready hserves harriving hs.atMostOne hready body
      rw [hrun] at hrun'
      cases hrun'
      refine ⟨hnodup, Nat.le_of_eq hone, ?_⟩
      intro body' hbody'
      cases hbody'
      exact hbody

/-- **One comment, up to date.** From any thread with at most one comment by
us, in every history whose runs find the thread ready, there is never more
than one comment by us, and it has the body of the last run. A run that
finds the thread ready completes. -/
theorem history_single (hserves : forge.Serves ctx) {t : Thread} (hnodup : t.ids.Nodup)
    (hone : t.ours ≤ 1) {h : History}
    (hreach : Reachable (ReadyStep forge ctx) { thread := t } h) :
    h.thread.ours ≤ 1 ∧
      (∀ body, h.lastBody = some body → ∃ c ∈ h.thread, c.byUs = true ∧ c.body = body) ∧
      ∀ body arriving, FromOthers h.thread arriving → Ready h.thread →
        ∃ h', Step forge ctx h (.run body arriving) h' := by
  have hsingle : Single h := hreach.invariant ⟨hnodup, hone, fun _ hnone => by cases hnone⟩
    (fun _ _ hs hstep => single_step hserves hs hstep)
  refine ⟨hsingle.atMostOne, hsingle.upToDate, fun body arriving harriving hready => ?_⟩
  obtain ⟨s, hrun, _⟩ := run_of_ready hserves harriving hsingle.atMostOne hready body
  exact ⟨_, .run harriving hrun⟩

/-! ### Thirty older comments -/

theorem le_foldr_max {ids : List Nat} {id : Nat} (hid : id ∈ ids) : id ≤ ids.foldr max 0 := by
  induction ids with
  | nil => simp at hid
  | cons x xs ih =>
      rw [List.foldr_cons]
      rcases List.mem_cons.mp hid with rfl | hid
      · exact Nat.le_max_left _ _
      · exact Nat.le_trans (ih hid) (Nat.le_max_right _ _)

/-- A forge that numbers a new comment past all ids in use. -/
def countingForge : Forge where
  repoPair := "owner/repo"
  prNumber := 1
  fresh := fun t => t.ids.foldr max 0 + 1
  fresh_notMem := fun _ hmem => Nat.not_succ_le_self _ (le_foldr_max hmem)

theorem countingForge_serves : countingForge.Serves pullRequestContext :=
  ⟨commentable_pullRequestContext, rfl, rfl⟩

/-- One comment of somebody else, and one run after it. -/
theorem history_single_oneRun :
    ∃ h, Reachable (ReadyStep countingForge pullRequestContext)
        { thread := [⟨1, some "someone", "hello"⟩] } h ∧ h.lastBody = some "report" ∧
      h.thread.ours ≤ 1 ∧
      (∀ body, h.lastBody = some body → ∃ c ∈ h.thread, c.byUs = true ∧ c.body = body) ∧
      ∀ body arriving, FromOthers h.thread arriving → Ready h.thread →
        ∃ h', Step countingForge pullRequestContext h (.run body arriving) h' := by
  have harriving : FromOthers [⟨1, some "someone", "hello"⟩] [] := ⟨by decide, by decide⟩
  have hready : Ready [⟨1, some "someone", "hello"⟩] := by
    intro c hc
    rw [List.mem_singleton.mp hc]
    rfl
  obtain ⟨s, hrun, _⟩ :=
    run_of_ready countingForge_serves harriving (by decide) hready "report"
  have hstep : ReadyStep countingForge pullRequestContext
      { thread := [⟨1, some "someone", "hello"⟩] } ⟨s.server.thread, some "report"⟩ :=
    ⟨.run "report" [], .run harriving hrun, hready⟩
  have hreach := Reachable.head hstep (Reachable.refl _)
  exact ⟨_, hreach, rfl, history_single countingForge_serves (by decide) (by decide) hreach⟩

/-- A thread whose only comment by us comes after thirty others. -/
def crowdedThread : Thread :=
  (List.range 30).map (fun i => ⟨i, some "someone", "hello"⟩) ++ [⟨30, some ourName, "old"⟩]

/-- A run on it adds a second comment. -/
theorem crowdedThread_duplicated :
    crowdedThread.ids.Nodup ∧ crowdedThread.ours = 1 ∧
      ∃ h, Step countingForge pullRequestContext { thread := crowdedThread } (.run "new" []) h ∧
        h.thread.ours = 2 := by
  have harriving : FromOthers crowdedThread [] := ⟨by decide, by decide⟩
  exact ⟨by decide, by decide, _, .run harriving rfl, by decide⟩

end CppLint.Github
