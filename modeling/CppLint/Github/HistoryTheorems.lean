/-
CppLint.Github.HistoryTheorems — what becomes of a thread in the long run.

`history_single` asks each run to find a thread that is ready. Here nothing
is asked of the runs; everything follows from the thread the history starts
with, for every order of runs and comments of others.

* `afterRun` is a run as a function of the thread alone, and
  `runOnThread_eq_ok_iff` connects it to the client: both requests, the JSON
  and the checks of the responses are in that lemma and nowhere else.
* The client reads the oldest comments only, so once its first page is full
  or has a comment on it that may be ours, it makes the same choice for ever
  (`heldId_fixed`). Then either every run adds a comment or none does
  (`ours_of_fixed`).
* `Settled` is the good case, and the only one in which every history goes
  well (`alwaysOne_iff_settled`). The first run brings it about when there is
  room on the page (`history_after_first_run`).
-/
import CppLint.Github.ThreadTheorems

namespace CppLint.Github

open CppLint.Lib

/-! ## A run as a function of the thread -/

/-- The comment a run takes for ours. -/
def Thread.chosen? (t : Thread) : Option Comment := (t.take pageSize).find? Comment.mayBeOurs

/-- The id the client holds when it writes. -/
def Thread.heldId (t : Thread) : Nat :=
  match t.chosen? with
  | none => noCommentId
  | some c => c.id % 2 ^ 32

/-- The thread after a run, if the run completes. -/
def Forge.afterRun (forge : Forge) (t arriving : Thread) (body : String) : Option Thread :=
  if t.heldId = noCommentId then
    some (t ++ arriving ++ [⟨forge.fresh (t ++ arriving), some ourName, body⟩])
  else if t.heldId ∈ Thread.ids (t ++ arriving) then
    some (Thread.edit (t ++ arriving) t.heldId body)
  else none

variable {forge : Forge} {ctx : RuntimeContext}

/-- After the page is read, a run is its write. -/
theorem runOnThread_eq (hserves : forge.Serves ctx) (t arriving : Thread) (body : String) :
    runOnThread forge ctx t arriving body =
      Stateful.runOn (addOrUpdateIssueComment forge.api ctx body)
        ⟨t.heldId, ⟨t ++ arriving, []⟩, [listRequest ctx]⟩ := by
  unfold runOnThread writeThread
  rw [Stateful.runOn_bind, runOn_getIssueCommentId_forge hserves, chosenId_page]
  rfl

/-- A write to a comment that is not there is answered with 404, which the
client does not accept. -/
theorem run_notFound (hserves : forge.Serves ctx) (body : String) {t : Thread}
    {s : Session ForgeState} (hs : s.server = ⟨t, []⟩) (hid : s.commentId ≠ noCommentId)
    (hmem : s.commentId ∉ t.ids) :
    ∃ e, (Stateful.runOn (addOrUpdateIssueComment forge.api ctx body) s).1 = .error e := by
  have hpost : (forge.api s.server (updateRequest ctx s.commentId body)).1 = notFound := by
    rw [hs]
    simp [Forge.api, updateRequest, hserves.repoPair_eq, hmem]
  rw [runOn_addOrUpdate_update hid, updateIssueComment_eq hserves.prNumber body hid, hpost]
  exact ⟨_, rfl⟩

/-- **A run is `afterRun`**: it completes with the thread given there, and
not at all where there is none. -/
theorem runOnThread_eq_ok_iff (hserves : forge.Serves ctx) {t arriving t' : Thread}
    {body : String} :
    (∃ s, runOnThread forge ctx t arriving body = (.ok (), s) ∧ s.server.thread = t') ↔
      forge.afterRun t arriving body = some t' := by
  have hunique : ∀ {r : Except Fault Unit × Session ForgeState} {s₁ : Session ForgeState},
      r = (.ok (), s₁) →
        ((∃ s, r = (.ok (), s) ∧ s.server.thread = t') ↔ some s₁.server.thread = some t') := by
    rintro r s₁ rfl
    simp
  rw [runOnThread_eq hserves]
  unfold Forge.afterRun
  by_cases hid : t.heldId = noCommentId
  · obtain ⟨s₁, hrun, hthread⟩ := run_adds hserves body
      (s := ⟨t.heldId, ⟨t ++ arriving, []⟩, [listRequest ctx]⟩) rfl hid
    rw [if_pos hid, hunique hrun, hthread]
  · rw [if_neg hid]
    by_cases hmem : t.heldId ∈ Thread.ids (t ++ arriving)
    · obtain ⟨s₁, hrun, hthread⟩ := run_updates hserves body
        (s := ⟨t.heldId, ⟨t ++ arriving, []⟩, [listRequest ctx]⟩) rfl hid hmem
      rw [if_pos hmem, hunique hrun, hthread]
    · obtain ⟨e, herr⟩ := run_notFound hserves body
        (s := ⟨t.heldId, ⟨t ++ arriving, []⟩, [listRequest ctx]⟩) rfl hid hmem
      rw [if_neg hmem]
      constructor
      · rintro ⟨s, hrun, -⟩
        rw [hrun] at herr
        cases herr
      · intro h
        cases h

/-- The same for a step of a history. -/
theorem step_run_iff (hserves : forge.Serves ctx) {h h' : History} {body : String}
    {arriving : Thread} :
    Step forge ctx h (.run body arriving) h' ↔
      FromOthers h.thread arriving ∧
        ∃ t', forge.afterRun h.thread arriving body = some t' ∧ h' = ⟨t', some body⟩ := by
  constructor
  · intro hstep
    cases hstep with
    | run harriving hrun =>
        exact ⟨harriving, _, (runOnThread_eq_ok_iff hserves).mp ⟨_, hrun, rfl⟩, rfl⟩
  · rintro ⟨harriving, t', hafter, rfl⟩
    obtain ⟨s, hrun, rfl⟩ := (runOnThread_eq_ok_iff hserves).mpr hafter
    exact .run harriving hrun

/-- The comments of others an event brings. -/
def Event.arrived : Event → Thread
  | .others c => [c]
  | .run _ arriving => arriving

/-- The event is a run. -/
def Event.isRun : Event → Bool
  | .others _ => false
  | .run _ _ => true

/-- **What an event does to a thread**: it brings the comments of others,
and a run adds a comment or replaces the body of one. -/
theorem step_thread (hserves : forge.Serves ctx) {h h' : History} {event : Event}
    (hstep : Step forge ctx h event h') :
    FromOthers h.thread event.arrived ∧
      ((event.isRun = false ∧ h' = { h with thread := h.thread ++ event.arrived }) ∨
        ∃ body, event = .run body event.arrived ∧
          ((h.thread.heldId = noCommentId ∧
              h' = ⟨h.thread ++ event.arrived ++
                [⟨forge.fresh (h.thread ++ event.arrived), some ourName, body⟩], some body⟩) ∨
            (h.thread.heldId ≠ noCommentId ∧
              h.thread.heldId ∈ Thread.ids (h.thread ++ event.arrived) ∧
              h' = ⟨Thread.edit (h.thread ++ event.arrived) h.thread.heldId body,
                some body⟩))) := by
  cases event with
  | others c =>
      cases hstep with
      | others hc => exact ⟨hc, .inl ⟨rfl, rfl⟩⟩
  | run body arriving =>
      obtain ⟨harriving, t', hafter, rfl⟩ := (step_run_iff hserves).mp hstep
      refine ⟨harriving, .inr ⟨body, rfl, ?_⟩⟩
      unfold Forge.afterRun at hafter
      split at hafter
      case isTrue hid => exact .inl ⟨hid, by rw [← Option.some.inj hafter]; rfl⟩
      case isFalse hid =>
        split at hafter
        case isTrue hmem =>
          exact .inr ⟨hid, hmem, by rw [← Option.some.inj hafter]; rfl⟩
        case isFalse => cases hafter

/-! ## The choice of the client -/

/-- The thread after an edit, comment by comment. -/
theorem Thread.edit_append (t t' : Thread) (id : Nat) (body : String) :
    Thread.edit (t ++ t') id body = t.edit id body ++ Thread.edit t' id body := List.map_append

theorem chosen?_append_of_some {t t' : Thread} {c : Comment} (h : t.chosen? = some c) :
    Thread.chosen? (t ++ t') = some c := by
  unfold Thread.chosen? at h ⊢
  rw [List.take_append, List.find?_append, h]
  rfl

theorem chosen?_append_of_full {t t' : Thread} (h : pageSize ≤ t.length) :
    Thread.chosen? (t ++ t') = t.chosen? := by
  unfold Thread.chosen?
  rw [List.take_append_of_le_length h]

theorem chosen?_append_of_none {t t' : Thread} (h : t.chosen? = none)
    (h' : ∀ c ∈ t', c.mayBeOurs = false) : Thread.chosen? (t ++ t') = none := by
  unfold Thread.chosen? at h ⊢
  rw [List.take_append, List.find?_append, h, Option.none_or, List.find?_eq_none]
  intro c hc
  rw [h' c (List.mem_of_mem_take hc)]
  exact Bool.false_ne_true

/-- An edit changes at most the body of the comment chosen. -/
theorem chosen?_edit (t : Thread) (id : Nat) (body : String) :
    (t.edit id body).chosen? =
      t.chosen?.map (fun c => if c.id = id then { c with body := body } else c) := by
  have hsame : Comment.mayBeOurs ∘ (fun c => if c.id = id then { c with body := body } else c)
      = Comment.mayBeOurs := by
    funext c
    by_cases h : c.id = id <;> simp [h, Comment.mayBeOurs, Comment.byUs]
  unfold Thread.chosen? Thread.edit
  rw [← List.map_take, List.find?_map, hsame]

theorem heldId_edit (t : Thread) (id : Nat) (body : String) :
    (t.edit id body).heldId = t.heldId := by
  unfold Thread.heldId
  rw [chosen?_edit]
  cases t.chosen? with
  | none => rfl
  | some c =>
      show (if c.id = id then { c with body := body } else c).id % 2 ^ 32 = c.id % 2 ^ 32
      by_cases h : c.id = id <;> simp [h]

/-- The page will not look different to the client again: it is full, or
has a comment on it that may be ours. -/
def Thread.Fixed (t : Thread) : Prop := pageSize ≤ t.length ∨ t.chosen?.isSome

theorem fixed_edit {t : Thread} (hfix : t.Fixed) (id : Nat) (body : String) :
    (t.edit id body).Fixed := by
  unfold Thread.Fixed at hfix ⊢
  rw [chosen?_edit, Option.isSome_map]
  simpa [Thread.edit] using hfix

theorem fixed_append {t : Thread} (hfix : t.Fixed) (t' : Thread) : Thread.Fixed (t ++ t') := by
  rcases hfix with hfull | hsome
  · refine .inl ?_
    rw [List.length_append]
    omega
  · obtain ⟨c, hc⟩ := Option.isSome_iff_exists.mp hsome
    refine .inr ?_
    rw [chosen?_append_of_some hc]
    rfl

theorem heldId_append {t : Thread} (hfix : t.Fixed) (t' : Thread) :
    Thread.heldId (t ++ t') = t.heldId := by
  unfold Thread.heldId
  rcases hfix with hfull | hsome
  · rw [chosen?_append_of_full hfull]
  · obtain ⟨c, hc⟩ := Option.isSome_iff_exists.mp hsome
    rw [chosen?_append_of_some hc, hc]

/-- An id to write to comes from the page. -/
theorem fixed_of_heldId {t : Thread} (hid : t.heldId ≠ noCommentId) : t.Fixed := by
  unfold Thread.heldId at hid
  cases hc : t.chosen? with
  | none => exact absurd (by rw [hc]) hid
  | some c => exact .inr (by rw [hc]; rfl)

/-- **The choice is kept by every event.** -/
theorem fixed_step (hserves : forge.Serves ctx) {h h' : History} {event : Event}
    (hfix : h.thread.Fixed) (hstep : Step forge ctx h event h') :
    h'.thread.Fixed ∧ h'.thread.heldId = h.thread.heldId := by
  have hfix' := fixed_append hfix event.arrived
  have hheld := heldId_append hfix event.arrived
  obtain ⟨-, ⟨-, rfl⟩ | ⟨body, -, ⟨-, rfl⟩ | ⟨-, -, rfl⟩⟩⟩ := step_thread hserves hstep
  · exact ⟨hfix', hheld⟩
  · exact ⟨fixed_append hfix' _, (heldId_append hfix' _).trans hheld⟩
  · exact ⟨fixed_edit hfix' _ _, (heldId_edit _ _ _).trans hheld⟩

/-- Once the page is fixed, the client holds the same id in every run of
every history. -/
theorem heldId_fixed (hserves : forge.Serves ctx) {h₀ h : History} {events : List Event}
    (hfix : h₀.thread.Fixed) (htrace : Trace (Step forge ctx) h₀ events h) :
    h.thread.Fixed ∧ h.thread.heldId = h₀.thread.heldId := by
  refine htrace.invariant (I := fun _ h => h.thread.Fixed ∧ h.thread.heldId = h₀.thread.heldId)
    ⟨hfix, rfl⟩ ?_
  rintro es s event s' ⟨hs, hheld⟩ hstep
  obtain ⟨hs', hheld'⟩ := fixed_step hserves hs hstep
  exact ⟨hs', hheld'.trans hheld⟩

/-! ## Comments by us -/

/-- A run that holds no id adds a comment by us; no other event does. -/
theorem ours_step (hserves : forge.Serves ctx) {h h' : History} {event : Event}
    (hstep : Step forge ctx h event h') :
    h'.thread.ours =
      h.thread.ours + if event.isRun = true ∧ h.thread.heldId = noCommentId then 1 else 0 := by
  obtain ⟨⟨-, hothers⟩, hcases⟩ := step_thread hserves hstep
  have hzero : Thread.ours event.arrived = 0 := ours_eq_zero.mpr hothers
  obtain ⟨hrun, rfl⟩ | ⟨body, hrun, ⟨hid, rfl⟩ | ⟨hid, -, rfl⟩⟩ := hcases
  · simp [ours_append, hzero, hrun]
  · have hisRun : event.isRun = true := by rw [hrun]; rfl
    simp only [ours_append, hzero, hisRun, hid, and_self, if_true]
    rfl
  · simp [ours_edit, ours_append, hzero, hid]

/-- **Each run adds a comment, or none does.** From a thread whose page is
fixed, in every history: when the client holds no id there, the comments by
us grow by the number of runs, and else they never do. -/
theorem ours_of_fixed (hserves : forge.Serves ctx) {h₀ h : History} {events : List Event}
    (hfix : h₀.thread.Fixed) (htrace : Trace (Step forge ctx) h₀ events h) :
    h.thread.ours = h₀.thread.ours +
      if h₀.thread.heldId = noCommentId then events.countP Event.isRun else 0 := by
  have hinv := htrace.invariant
    (I := fun es h => (h.thread.Fixed ∧ h.thread.heldId = h₀.thread.heldId) ∧
      h.thread.ours = h₀.thread.ours +
        if h₀.thread.heldId = noCommentId then es.countP Event.isRun else 0)
    ⟨⟨hfix, rfl⟩, by simp⟩ ?_
  · exact hinv.2
  · rintro es s event s' ⟨⟨hs, hheld⟩, hours⟩ hstep
    obtain ⟨hs', hheld'⟩ := fixed_step hserves hs hstep
    refine ⟨⟨hs', hheld'.trans hheld⟩, ?_⟩
    rw [ours_step hserves hstep, hours, hheld, List.countP_append, List.countP_singleton]
    by_cases hid : h₀.thread.heldId = noCommentId
    · simp only [hid, and_true, if_true]
      omega
    · simp only [hid, and_false, if_false]

/-- A run that holds no id completes. -/
theorem run_of_noId (hserves : forge.Serves ctx) {h : History}
    (hid : h.thread.heldId = noCommentId) {arriving : Thread}
    (harriving : FromOthers h.thread arriving) (body : String) :
    ∃ h', Step forge ctx h (.run body arriving) h' := by
  have hafter : forge.afterRun h.thread arriving body = some (h.thread ++ arriving ++
      [⟨forge.fresh (h.thread ++ arriving), some ourName, body⟩]) := by
    rw [Forge.afterRun, if_pos hid]
  exact ⟨_, (step_run_iff hserves).mpr ⟨harriving, _, hafter, rfl⟩⟩

theorem ours_of_fixed_oneRun :
    ∃ events h, Trace (Step countingForge pullRequestContext) { thread := crowdedThread } events h ∧
      events.countP Event.isRun = 1 ∧
      h.thread.ours = crowdedThread.ours +
        if crowdedThread.heldId = noCommentId then events.countP Event.isRun else 0 := by
  have hfix : crowdedThread.Fixed := .inl (by decide)
  have harriving : FromOthers crowdedThread [] := ⟨by decide, by decide⟩
  obtain ⟨h, hstep⟩ := run_of_noId (h := { thread := crowdedThread }) countingForge_serves
    (by decide) harriving "new"
  have htrace := Trace.snoc .nil hstep
  exact ⟨_, h, htrace, rfl, ours_of_fixed countingForge_serves hfix htrace⟩

/-! ## A thread in which the client has a comment to write to -/

/-- The thread with a body put into one comment, if there is a body. -/
def Thread.upTo (t : Thread) (id : Nat) : Option String → Thread
  | none => t
  | some body => t.edit id body

theorem ids_upTo (t : Thread) (id : Nat) (body : Option String) : (t.upTo id body).ids = t.ids := by
  cases body with
  | none => rfl
  | some b => exact ids_edit t id b

theorem ours_upTo (t : Thread) (id : Nat) (body : Option String) :
    (t.upTo id body).ours = t.ours := by
  cases body with
  | none => rfl
  | some b => exact ours_edit t id b

theorem edit_edit (t : Thread) (id : Nat) (body body' : String) :
    (t.edit id body).edit id body' = t.edit id body' := by
  unfold Thread.edit
  rw [List.map_map]
  congr 1
  funext c
  by_cases h : c.id = id <;> simp [h]

theorem edit_upTo (t : Thread) (id : Nat) (body : Option String) (body' : String) :
    (t.upTo id body).edit id body' = t.edit id body' := by
  cases body with
  | none => rfl
  | some b => exact edit_edit t id b body'

theorem edit_of_notMem {t : Thread} {id : Nat} (h : id ∉ t.ids) (body : String) :
    t.edit id body = t := by
  unfold Thread.edit
  conv_rhs => rw [← List.map_id' t]
  refine List.map_congr_left ?_
  intro c hc
  have hne : c.id ≠ id := fun heq => h (heq ▸ List.mem_map_of_mem hc)
  rw [if_neg hne]

theorem upTo_append {t t' : Thread} {id : Nat} (h : id ∉ t'.ids) (body : Option String) :
    t.upTo id body ++ t' = Thread.upTo (t ++ t') id body := by
  cases body with
  | none => rfl
  | some b =>
      show t.edit id b ++ t' = Thread.edit (t ++ t') id b
      rw [Thread.edit_append, edit_of_notMem h]

theorem ids_append (t t' : Thread) : Thread.ids (t ++ t') = t.ids ++ t'.ids := List.map_append

/-- A comment that arrives does not take an id in use. -/
theorem FromOthers.notMem {t arriving : Thread} (h : FromOthers t arriving) {id : Nat}
    (hid : id ∈ t.ids) : id ∉ arriving.ids := by
  intro hid'
  have hnodup := h.1
  rw [ids_append] at hnodup
  exact (List.nodup_append.mp hnodup).2.2 id hid id hid' rfl

theorem nodup_step (hserves : forge.Serves ctx) {h h' : History} {event : Event}
    (hstep : Step forge ctx h event h') : h'.thread.ids.Nodup := by
  obtain ⟨⟨hnodup, -⟩, ⟨-, rfl⟩ | ⟨body, -, ⟨-, rfl⟩ | ⟨-, -, rfl⟩⟩⟩ :=
    step_thread hserves hstep
  · exact hnodup
  · exact nodup_ids_fresh hnodup
  · rw [ids_edit]
    exact hnodup

/-- All comments of others that the events bring, in order. -/
def arrivals (events : List Event) : Thread := events.flatMap Event.arrived

theorem arrivals_snoc (events : List Event) (event : Event) :
    arrivals (events ++ [event]) = arrivals events ++ event.arrived := by
  simp [arrivals]

/-- The client holds the id of a comment that is there. -/
def Thread.Aimed (t : Thread) : Prop := t.heldId ≠ noCommentId ∧ t.heldId ∈ t.ids

/-- One event keeps the client's comment at the body of the last run, and
all others as they came. -/
theorem upTo_step (hserves : forge.Serves ctx) {x : Thread} {id : Nat} {h h' : History}
    {event : Event} (haimed : h.thread.Aimed) (hid : h.thread.heldId = id)
    (hx : h.thread = x.upTo id h.lastBody) (hstep : Step forge ctx h event h') :
    h'.thread = Thread.upTo (x ++ event.arrived) id h'.lastBody := by
  obtain ⟨hne, hmem⟩ := haimed
  rw [hid] at hmem
  obtain ⟨hothers, ⟨-, rfl⟩ | ⟨body, -, ⟨hno, -⟩ | ⟨-, -, rfl⟩⟩⟩ := step_thread hserves hstep
  · show h.thread ++ event.arrived = _
    rw [← upTo_append (hothers.notMem hmem), ← hx]
  · exact absurd hno hne
  · show Thread.edit (h.thread ++ event.arrived) h.thread.heldId body = _
    rw [hid, Thread.edit_append, hx, edit_upTo, ← Thread.edit_append]
    rfl

/-- A run that holds the id of a comment that is there completes. -/
theorem run_of_aimed (hserves : forge.Serves ctx) {h : History} (haimed : h.thread.Aimed)
    {arriving : Thread} (harriving : FromOthers h.thread arriving) (body : String) :
    ∃ h', Step forge ctx h (.run body arriving) h' := by
  obtain ⟨hid, hmem⟩ := haimed
  have hmem' : h.thread.heldId ∈ Thread.ids (h.thread ++ arriving) := by
    rw [ids_append]
    exact List.mem_append_left _ hmem
  have hafter : forge.afterRun h.thread arriving body =
      some (Thread.edit (h.thread ++ arriving) h.thread.heldId body) := by
    rw [Forge.afterRun, if_neg hid, if_pos hmem']
  exact ⟨_, (step_run_iff hserves).mpr ⟨harriving, _, hafter, rfl⟩⟩

/-- **The whole history of a thread with a comment to write to.** However
runs and comments of others follow on each other: the thread holds the
comments it started with and all that came, in order, each as it was
written, but for the one comment the client holds the id of, whose body is
that of the last run; and the next run completes. -/
theorem aimed_history_eq (hserves : forge.Serves ctx) {x : Thread} {h₀ h : History}
    {events : List Event} (haimed : h₀.thread.Aimed)
    (hx : h₀.thread = x.upTo h₀.thread.heldId h₀.lastBody)
    (htrace : Trace (Step forge ctx) h₀ events h) :
    h.thread = Thread.upTo (x ++ arrivals events) h₀.thread.heldId h.lastBody ∧
      ∀ body arriving, FromOthers h.thread arriving →
        ∃ h', Step forge ctx h (.run body arriving) h' := by
  have hinv := htrace.invariant
    (I := fun es h => h.thread.Aimed ∧ h.thread.heldId = h₀.thread.heldId ∧
      h.thread = Thread.upTo (x ++ arrivals es) h₀.thread.heldId h.lastBody)
    ⟨haimed, rfl, by simpa [arrivals] using hx⟩ ?_
  · obtain ⟨haimed', -, hthread⟩ := hinv
    exact ⟨hthread, fun body arriving harriving => run_of_aimed hserves haimed' harriving body⟩
  · rintro es s event s' ⟨hs, hheld, hthread⟩ hstep
    obtain ⟨-, hheld'⟩ := fixed_step hserves (fixed_of_heldId hs.1) hstep
    have hthread' := upTo_step hserves hs hheld hthread hstep
    have hids : s'.thread.ids = s.thread.ids ++ Thread.ids event.arrived := by
      rw [hthread', hthread, ids_upTo, ids_upTo, ids_append]
    refine ⟨⟨?_, ?_⟩, hheld'.trans hheld, ?_⟩
    · rw [hheld']
      exact hs.1
    · rw [hheld', hids]
      exact List.mem_append_left _ hs.2
    · rw [hthread', arrivals_snoc, List.append_assoc]

/-! ## When all goes well in every history -/

/-- In every history from the thread on: at most one comment by us, one with
the body of the last run, and the next run completes. -/
def AlwaysOne (forge : Forge) (ctx : RuntimeContext) (t : Thread) : Prop :=
  ∀ events h, Trace (Step forge ctx) { thread := t } events h →
    h.thread.ours ≤ 1 ∧
      (∀ body, h.lastBody = some body → ∃ c ∈ h.thread, c.byUs = true ∧ c.body = body) ∧
      ∀ body arriving, FromOthers h.thread arriving →
        ∃ h', Step forge ctx h (.run body arriving) h'

/-- The client holds the id of a comment by us. -/
def Settled (t : Thread) : Prop :=
  t.heldId ≠ noCommentId ∧ ∃ c ∈ t, c.byUs = true ∧ c.id = t.heldId

theorem Settled.aimed {t : Thread} (h : Settled t) : t.Aimed := by
  obtain ⟨hid, c, hc, -, hcid⟩ := h
  exact ⟨hid, List.mem_map.mpr ⟨c, hc, hcid⟩⟩

/-- Nothing that arrives is by us. -/
theorem arrivals_byUs {h₀ h : History} {events : List Event}
    (htrace : Trace (Step forge ctx) h₀ events h) : ∀ c ∈ arrivals events, c.byUs = false := by
  refine htrace.invariant (I := fun es _ => ∀ c ∈ arrivals es, c.byUs = false)
    (fun c hc => by cases hc) ?_
  intro es s event s' hes hstep c hc
  rw [arrivals_snoc] at hc
  rcases List.mem_append.mp hc with hc | hc
  · exact hes c hc
  · cases hstep with
    | others hothers => exact hothers.2 c hc
    | run hothers hrun => exact hothers.2 c hc

/-- **A settled thread stays settled**: in every history the client holds
the same id, the comment under it is by us and has the body of the last run,
and no other comment becomes ours. -/
theorem settled_history (hserves : forge.Serves ctx) {t : Thread} (hsettled : Settled t)
    {events : List Event} {h : History}
    (htrace : Trace (Step forge ctx) { thread := t } events h) :
    h.thread.heldId = t.heldId ∧ h.thread.ours = t.ours ∧
      ∃ c ∈ h.thread, c.byUs = true ∧ c.id = t.heldId ∧
        ∀ body, h.lastBody = some body → c.body = body := by
  obtain ⟨hthread, -⟩ := aimed_history_eq hserves hsettled.aimed rfl htrace
  have hzero : Thread.ours (arrivals events) = 0 := ours_eq_zero.mpr (arrivals_byUs htrace)
  refine ⟨(heldId_fixed hserves (fixed_of_heldId hsettled.1) htrace).2, ?_, ?_⟩
  · rw [hthread, ours_upTo, ours_append, hzero, Nat.add_zero]
  · obtain ⟨-, c, hc, hours, hid⟩ := hsettled
    have hmem := List.mem_append_left (arrivals events) hc
    rw [hthread]
    cases hlast : h.lastBody with
    | none => exact ⟨c, hmem, hours, hid, nofun⟩
    | some body =>
        refine ⟨{ c with body := body }, ?_, hours, hid, ?_⟩
        · exact List.mem_map.mpr ⟨c, hmem, by simp [hid]⟩
        · intro body' hbody
          exact Option.some.inj hbody

theorem alwaysOne_of_settled (hserves : forge.Serves ctx) {t : Thread} (hsettled : Settled t)
    (hone : t.ours ≤ 1) : AlwaysOne forge ctx t := by
  intro events h htrace
  obtain ⟨-, hours, c, hc, hbyUs, -, hbody⟩ := settled_history hserves hsettled htrace
  obtain ⟨-, hnext⟩ := aimed_history_eq hserves hsettled.aimed rfl htrace
  refine ⟨Nat.le_trans (Nat.le_of_eq hours) hone, ?_, hnext⟩
  intro body hlast
  exact ⟨c, hc, hbyUs, hbody body hlast⟩

/-- Two runs that hold no id leave two comments by us. -/
theorem not_alwaysOne_of_noId (hserves : forge.Serves ctx) {t : Thread} {events : List Event}
    {h : History} (htrace : Trace (Step forge ctx) { thread := t } events h)
    (hnodup : h.thread.ids.Nodup) (hfix : h.thread.Fixed) (hid : h.thread.heldId = noCommentId) :
    ¬ AlwaysOne forge ctx t := by
  intro halways
  obtain ⟨-, -, hnext⟩ := halways _ _ htrace
  obtain ⟨h₁, hstep₁⟩ := hnext "" [] ⟨by rwa [List.append_nil], nofun⟩
  have htrace₁ := htrace.snoc hstep₁
  obtain ⟨-, -, hnext₁⟩ := halways _ _ htrace₁
  obtain ⟨h₂, hstep₂⟩ :=
    hnext₁ "" [] ⟨by rw [List.append_nil]; exact nodup_step hserves hstep₁, nofun⟩
  have hheld₁ := (fixed_step hserves hfix hstep₁).2.trans hid
  have hours₁ := ours_step hserves hstep₁
  have hours₂ := ours_step hserves hstep₂
  simp only [Event.isRun, hid, hheld₁, and_self, if_true] at hours₁ hours₂
  have hone := (halways _ _ (htrace₁.snoc hstep₂)).1
  omega

/-- Others can fill the page before the first run. -/
theorem exists_filled {t : Thread} (hnodup : t.ids.Nodup) (hnone : t.chosen? = none) (n : Nat) :
    ∃ events h, Trace (Step forge ctx) { thread := t } events h ∧ h.thread.ids.Nodup ∧
      h.thread.chosen? = none ∧ n ≤ h.thread.length := by
  induction n with
  | zero => exact ⟨[], _, .nil, hnodup, hnone, Nat.zero_le _⟩
  | succ n ih =>
      obtain ⟨events, h, htrace, hids, hchosen, hlen⟩ := ih
      have hothers : FromOthers h.thread [⟨forge.fresh h.thread, some "someone", ""⟩] := by
        refine ⟨nodup_ids_fresh hids, ?_⟩
        intro c hc
        rw [List.mem_singleton.mp hc]
        rfl
      refine ⟨_, _, htrace.snoc (.others hothers), hothers.1, ?_, ?_⟩
      · refine chosen?_append_of_none hchosen ?_
        intro c hc
        rw [List.mem_singleton.mp hc]
        rfl
      · show n + 1 ≤ (h.thread ++ [_]).length
        rw [List.length_append, List.length_singleton]
        omega

/-- A body no comment of the thread has. -/
theorem exists_newBody (t : Thread) : ∃ body, ∀ c ∈ t, c.body ≠ body := by
  refine ⟨String.ofList (List.replicate
    ((t.map (fun c => c.body.length)).foldr max 0 + 1) 'x'), ?_⟩
  intro c hc heq
  have hmem : c.body.length ∈ t.map (fun c => c.body.length) := List.mem_map.mpr ⟨c, hc, rfl⟩
  have hle := le_foldr_max hmem
  rw [heq, String.length_ofList, List.length_replicate] at hle
  omega

/-- A run that writes to a comment of somebody else leaves none by us with
its body. -/
theorem not_alwaysOne_of_notOurs (hserves : forge.Serves ctx) {t : Thread}
    (hnodup : t.ids.Nodup) (hid : t.heldId ≠ noCommentId)
    (hnone : ∀ c ∈ t, c.byUs = true → c.id ≠ t.heldId) : ¬ AlwaysOne forge ctx t := by
  intro halways
  obtain ⟨body, hbody⟩ := exists_newBody t
  obtain ⟨-, -, hnext⟩ := halways _ _ .nil
  obtain ⟨h', hstep⟩ := hnext body [] ⟨by rwa [List.append_nil], nofun⟩
  obtain ⟨-, hupToDate, -⟩ := halways _ _ (Trace.snoc .nil hstep)
  obtain ⟨-, t', hafter, rfl⟩ := (step_run_iff hserves).mp hstep
  obtain ⟨c, hc, hours, hcbody⟩ := hupToDate body rfl
  rw [Forge.afterRun, if_neg hid] at hafter
  split at hafter
  case isFalse => cases hafter
  case isTrue hmem =>
    rw [← Option.some.inj hafter, List.append_nil] at hc
    obtain ⟨c', hc', rfl⟩ := List.mem_map.mp hc
    by_cases hsame : c'.id = t.heldId
    · simp only [hsame, if_true] at hours
      exact hnone c' hc' hours hsame
    · simp only [hsame, if_false] at hcbody
      exact hbody c' hc' hcbody

theorem chosen?_eq_none_of {t : Thread} (h : ∀ c ∈ t, c.mayBeOurs = false) :
    t.chosen? = none := by
  unfold Thread.chosen?
  rw [List.find?_eq_none]
  intro c hc
  rw [h c (List.mem_of_mem_take hc)]
  exact Bool.false_ne_true

/-- A comment by us after others on the first page is the one chosen. -/
theorem chosen?_snoc {t : Thread} {c : Comment} (h : ∀ c ∈ t, c.mayBeOurs = false)
    (hroom : t.length < pageSize) (hours : c.byUs = true) :
    Thread.chosen? (t ++ [c]) = some c := by
  have htake : (t ++ [c]).take pageSize = t ++ [c] := by
    refine List.take_of_length_le ?_
    rw [List.length_append, List.length_singleton]
    omega
  have hfind : t.find? Comment.mayBeOurs = none := by
    rw [List.find?_eq_none]
    intro c' hc'
    rw [h c' hc']
    exact Bool.false_ne_true
  have hmay : c.mayBeOurs = true := by simp [Comment.mayBeOurs, hours]
  unfold Thread.chosen?
  rw [htake, List.find?_append, hfind]
  simp [hmay]

/-- The client finds the comment it has added. -/
theorem heldId_added {t : Thread} (hnone : ∀ c ∈ t, c.mayBeOurs = false)
    (hroom : t.length < pageSize) {id : Nat} (hid : id < noCommentId) (body : String) :
    Thread.heldId (t ++ [⟨id, some ourName, body⟩]) = id := by
  rw [Thread.heldId, chosen?_snoc hnone hroom rfl]
  show id % 2 ^ 32 = id
  exact Nat.mod_eq_of_lt (by unfold noCommentId at hid; omega)

/-- A run that finds no comment that may be ours adds one. -/
theorem afterRun_of_none {t arriving : Thread} (hnone : ∀ c ∈ t ++ arriving, c.mayBeOurs = false)
    (body : String) :
    forge.afterRun t arriving body =
      some (t ++ arriving ++ [⟨forge.fresh (t ++ arriving), some ourName, body⟩]) := by
  have hchosen : t.chosen? = none :=
    chosen?_eq_none_of (fun c hc => hnone c (List.mem_append_left _ hc))
  rw [Forge.afterRun, if_pos (by rw [Thread.heldId, hchosen])]

/-- After a run there is a last body. -/
theorem lastBody_isSome (hserves : forge.Serves ctx) {h₀ h : History} {events : List Event}
    (h₀some : h₀.lastBody.isSome) (htrace : Trace (Step forge ctx) h₀ events h) :
    h.lastBody.isSome := by
  refine htrace.invariant (I := fun _ h => h.lastBody.isSome) h₀some ?_
  intro es s event s' hs hstep
  obtain ⟨-, ⟨-, rfl⟩ | ⟨body, -, ⟨-, rfl⟩ | ⟨-, -, rfl⟩⟩⟩ := step_thread hserves hstep
  · exact hs
  · rfl
  · rfl

/-- The body of the one comment that has the id. -/
theorem edit_middle {t t' : Thread} {c : Comment} (h : c.id ∉ t.ids) (h' : c.id ∉ t'.ids)
    (body : String) :
    Thread.edit (t ++ [c] ++ t') c.id body = t ++ [{ c with body := body }] ++ t' := by
  rw [Thread.edit_append, Thread.edit_append, edit_of_notMem h, edit_of_notMem h']
  simp [Thread.edit]

/-- **One comment from the first run on.** When no comment in the thread may
be ours, and the comment of the first run gets a place on the first page and
an id the client can hold, every history after that run leaves the thread as
it was, with the one comment by us in its place, under the body of the last
run, and what others wrote after it. -/
theorem history_after_first_run (hserves : forge.Serves ctx) {t arriving : Thread}
    (hnone : ∀ c ∈ t ++ arriving, c.mayBeOurs = false)
    (hroom : (t ++ arriving).length < pageSize)
    (hfresh : forge.fresh (t ++ arriving) < noCommentId) {body : String} {h₁ h : History}
    (hfirst : Step forge ctx { thread := t } (.run body arriving) h₁) {events : List Event}
    (htrace : Trace (Step forge ctx) h₁ events h) :
    ∃ last, h.lastBody = some last ∧
      h.thread = t ++ arriving ++ [⟨forge.fresh (t ++ arriving), some ourName, last⟩]
        ++ arrivals events := by
  have hnodup : h.thread.ids.Nodup :=
    htrace.invariant (I := fun _ h => h.thread.ids.Nodup) (nodup_step hserves hfirst)
      (fun _ _ _ _ _ hstep => nodup_step hserves hstep)
  obtain ⟨-, t', hafter, rfl⟩ := (step_run_iff hserves).mp hfirst
  rw [afterRun_of_none hnone] at hafter
  obtain rfl := Option.some.inj hafter
  -- from here on the client holds the id of the comment just added
  have hnew : forge.fresh (t ++ arriving) ∉ Thread.ids (t ++ arriving) := forge.fresh_notMem _
  generalize hfreshId : forge.fresh (t ++ arriving) = id at *
  have hheld : Thread.heldId (t ++ arriving ++ [⟨id, some ourName, body⟩]) = id :=
    heldId_added hnone hroom hfresh body
  have haimed : Thread.Aimed (t ++ arriving ++ [⟨id, some ourName, body⟩]) := by
    refine ⟨by rw [hheld]; omega, ?_⟩
    rw [hheld, ids_append]
    exact List.mem_append_right _ (List.mem_singleton.mpr rfl)
  have hstart : t ++ arriving ++ [⟨id, some ourName, body⟩] =
      Thread.edit (t ++ arriving ++ [⟨id, some ourName, body⟩]) id body := by
    have hmid := @edit_middle _ [] ⟨id, some ourName, body⟩ hnew List.not_mem_nil body
    simpa using hmid.symm
  obtain ⟨hthread, -⟩ := aimed_history_eq hserves haimed (by rw [hheld]; exact hstart) htrace
  obtain ⟨last, hlast⟩ := Option.isSome_iff_exists.mp (lastBody_isSome hserves rfl htrace)
  rw [hheld, hlast] at hthread
  have hlater : id ∉ Thread.ids (arrivals events) := by
    rw [hthread, ids_upTo, ids_append] at hnodup
    intro hmem
    refine (List.nodup_append.mp hnodup).2.2 id ?_ id hmem rfl
    rw [ids_append]
    exact List.mem_append_right _ (List.mem_singleton.mpr rfl)
  refine ⟨last, hlast, hthread.trans ?_⟩
  exact edit_middle (c := ⟨id, some ourName, body⟩) hnew hlater last

theorem history_after_first_run_stranger :
    ∃ h₁ h events, Step countingForge pullRequestContext
        { thread := [⟨1, some "someone", "hello"⟩] } (.run "report" []) h₁ ∧
      Trace (Step countingForge pullRequestContext) h₁ events h ∧
      ∃ last, h.lastBody = some last ∧
        h.thread = [⟨1, some "someone", "hello"⟩] ++ [] ++ [⟨2, some ourName, last⟩]
          ++ arrivals events := by
  have harriving : FromOthers [⟨1, some "someone", "hello"⟩] [] := ⟨by decide, by decide⟩
  obtain ⟨h₁, hfirst⟩ := run_of_noId (h := { thread := [⟨1, some "someone", "hello"⟩] })
    countingForge_serves rfl harriving "report"
  exact ⟨h₁, h₁, [], hfirst, .nil, history_after_first_run countingForge_serves (by decide)
    (by decide) (by decide) hfirst .nil⟩

end CppLint.Github
