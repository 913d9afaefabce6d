/-
CppLint.Shell.ReturnTheorems — `shell::execute` as a whole run: it returns,
in every order of steps, exactly when the child's stderr fits into one pipe.

Deadlock freedom alone does not say that `execute` returns: the two
processes could go on for ever. They cannot, because every step is paid for.
A byte is written once and read once, each process passes through its
phases once, so `stepsLeft` drops by exactly one in each step
(`stepsLeft_step`), and by the termination rule only the states in which
nothing can move matter:

* with room on stderr such a state has returned (`returned_of_stuck`), and
  `execute_result_exact` says what it returned;
* without room, `Behind` keeps the reader on stdout and the child short of
  its last stderr byte, so nothing is ever returned, and the state in which
  nothing moves is the same in every order of steps (`execute_blocks`).
-/
import CppLint.Shell.ExecuteTheorems

namespace CppLint.Shell

open CppLint.Lib

variable {cap : Nat}

/-! ## Every step is paid for -/

/-- Steps the child takes until it is gone, and the reads of what it still
writes. -/
def ChildPhase.stepsLeft : ChildPhase → Nat
  | .running pending => 2 * pending.length + 2
  | .closed => 1
  | .exited => 0

/-- Steps of the reader that take no byte: two ends-of-file and the wait. -/
def ParentPhase.stepsLeft : ParentPhase → Nat
  | .readingOut => 3
  | .readingErr => 2
  | .waiting => 1
  | .returned => 0

/-- The steps of a run that gets to its end from here. -/
def ExecState.stepsLeft (s : ExecState cap) : Nat :=
  s.child.stepsLeft + s.out.items.length + s.err.items.length + s.parent.stepsLeft

theorem stepsLeft_start (ws : List Write) :
    (ExecState.start cap ws).stepsLeft = 2 * ws.length + 5 := by
  simp [ExecState.start, ExecState.stepsLeft, ChildPhase.stepsLeft, ParentPhase.stepsLeft]

/-- **Each step takes one off.** -/
theorem stepsLeft_step {s s' : ExecState cap} (hstep : ExecStep cap s s') :
    s.stepsLeft = s'.stepsLeft + 1 := by
  cases hstep with
  | writeOut hc room => simp [ExecState.stepsLeft, ChildPhase.stepsLeft, hc]; omega
  | writeErr hc room => simp [ExecState.stepsLeft, ChildPhase.stepsLeft, hc]; omega
  | close hc => simp [ExecState.stepsLeft, ChildPhase.stepsLeft, hc]; omega
  | exit hc => simp [ExecState.stepsLeft, ChildPhase.stepsLeft, hc]; omega
  | readOut hp hb => simp [ExecState.stepsLeft, hb]; omega
  | eofOut hp hb hc => simp [ExecState.stepsLeft, ParentPhase.stepsLeft, hp]
  | readErr hp hb => simp [ExecState.stepsLeft, hb]; omega
  | eofErr hp hb hc => simp [ExecState.stepsLeft, ParentPhase.stepsLeft, hp]
  | wait hp hc => simp [ExecState.stepsLeft, ParentPhase.stepsLeft, hp]

theorem stepsLeft_lt {s s' : ExecState cap} (hstep : ExecStep cap s s') :
    s'.stepsLeft < s.stepsLeft := by
  have := stepsLeft_step hstep
  omega

/-! ## With room on stderr -/

/-- Once the child is gone the reader gets to its `return`. -/
theorem returned_of_stuck {s : ExecState cap} (hex : s.ChildExited)
    (hstuck : Stuck (ExecStep cap) s) : s.parent = .returned := by
  have hclosed : s.child.HasClosed := .inr hex
  cases hp : s.parent with
  | returned => rfl
  | waiting => exact absurd (.wait hp hex) (hstuck _)
  | readingOut =>
      cases hb : s.out.items with
      | nil => exact absurd (.eofOut hp hb hclosed) (hstuck _)
      | cons b rest => exact absurd (.readOut hp hb) (hstuck _)
  | readingErr =>
      cases hb : s.err.items with
      | nil => exact absurd (.eofErr hp hb hclosed) (hstuck _)
      | cons b rest => exact absurd (.readErr hp hb) (hstuck _)

/-- `execute` is past its `return`, with the child's bytes as they were
written. -/
def ExecState.ReturnedAll (ws : List Write) (s : ExecState cap) : Prop :=
  s.parent = .returned ∧ ∀ exitCode : Int,
    s.result exitCode = ⟨exitCode, textOf (bytesOf .out ws), textOf (bytesOf .err ws)⟩

theorem inevitable_returned (hcap : 1 ≤ cap) {ws : List Write}
    (hfit : (bytesOf .err ws).length ≤ cap) :
    Inevitable (ExecStep cap) (ExecState.ReturnedAll ws) (ExecState.start cap ws) := by
  refine inevitable_of_rank
    (I := fun s => ErrFits s ∧ Reachable (ExecStep cap) (ExecState.start cap ws) s)
    ExecState.stepsLeft ?_ (fun _ _ => stepsLeft_lt) ?_ ⟨errFits_start hfit, Reachable.refl _⟩
  · rintro s s' ⟨hs, hr⟩ hstep
    exact ⟨errFits_step hs hstep, hr.tail hstep⟩
  · rintro s ⟨hs, hr⟩ hstuck
    have hex : s.ChildExited := by
      by_contra hrun
      obtain ⟨s', hs'⟩ := errFits_progress hcap hs hrun
      exact hstuck s' hs'
    have hret := returned_of_stuck hex hstuck
    exact ⟨hret, execute_result_exact hr hret⟩

/-! ## Without room on stderr -/

/-- The reader is on stdout and the child has made the writes `made`: their
stderr bytes are all in the pipe. -/
structure Behind (ws : List Write) (s : ExecState cap) (made pending : List Write) : Prop where
  reading : s.parent = .readingOut
  running : s.child = .running pending
  split : ws = made ++ pending
  out : s.stdOut ++ s.out.items = bytesOf .out made
  err : s.err.items = bytesOf .err made

theorem bytesOf_append (st : Stream) (xs ys : List Write) :
    bytesOf st (xs ++ ys) = bytesOf st xs ++ bytesOf st ys := by
  simp [bytesOf]

theorem behind_start (ws : List Write) : Behind ws (ExecState.start cap ws) [] ws where
  reading := rfl
  running := rfl
  split := rfl
  out := rfl
  err := rfl

theorem Behind.pending_eq {ws made pending pending' : List Write} {s : ExecState cap}
    (hs : Behind ws s made pending) (hc : s.child = .running pending') : pending = pending' := by
  have hrun := hs.running
  rw [hc] at hrun
  exact (ChildPhase.running.inj hrun).symm

/-- With more on stderr than the pipe takes, the child cannot be done with
its writes, so the reader stays where it is. -/
theorem behind_step {ws made pending : List Write} {s s' : ExecState cap}
    (hover : cap < (bytesOf .err ws).length) (hs : Behind ws s made pending)
    (hstep : ExecStep cap s s') : ∃ made' pending', Behind ws s' made' pending' := by
  cases hstep with
  | @writeOut b rest hc room =>
      have hpend : pending = ⟨.out, b⟩ :: rest := hs.pending_eq hc
      refine ⟨made ++ [⟨.out, b⟩], rest, hs.reading, rfl, ?_, ?_, ?_⟩
      · simp [hs.split, hpend]
      · simp [bytesOf_append, ← hs.out]
      · simp [bytesOf_append, hs.err]
  | @writeErr b rest hc room =>
      have hpend : pending = ⟨.err, b⟩ :: rest := hs.pending_eq hc
      refine ⟨made ++ [⟨.err, b⟩], rest, hs.reading, rfl, ?_, ?_, ?_⟩
      · simp [hs.split, hpend]
      · simp [bytesOf_append, ← hs.out]
      · simp [bytesOf_append, hs.err]
  | close hc =>
      have hpend : pending = [] := hs.pending_eq hc
      have hall : (bytesOf .err ws).length ≤ cap := by
        rw [hs.split, hpend, List.append_nil, ← hs.err]
        exact s.err.bound
      omega
  | exit hc => rw [hs.running] at hc; cases hc
  | readOut hp hb =>
      refine ⟨made, pending, hp, hs.running, hs.split, ?_, hs.err⟩
      have := hs.out
      simpa [hb] using this
  | eofOut hp hb hc => rcases hc with hc | hc <;> rw [hs.running] at hc <;> cases hc
  | readErr hp hb => rw [hs.reading] at hp; cases hp
  | eofErr hp hb hc => rw [hs.reading] at hp; cases hp
  | wait hp hc => rw [hs.reading] at hp; cases hp

/-- The child stands before a stderr byte with its pipe full of the stderr
bytes of `made`, and the reader has taken all that went to stdout. -/
structure BlockedAfter (made : List Write) (next : UInt8) (rest : List Write)
    (s : ExecState cap) : Prop where
  reading : s.parent = .readingOut
  running : s.child = .running (⟨.err, next⟩ :: rest)
  full : s.err.items = bytesOf .err made
  taken : s.stdOut = bytesOf .out made
  drained : s.out.items = []

/-- Nothing moves any more although the child has not been let finish: it
is blocked on stderr. -/
theorem blockedAfter_of_stuck (hcap : 1 ≤ cap) {ws made pending : List Write}
    {s : ExecState cap} (hs : Behind ws s made pending) (hstuck : Stuck (ExecStep cap) s) :
    ∃ next rest, pending = ⟨.err, next⟩ :: rest ∧ (bytesOf .err made).length = cap
      ∧ BlockedAfter made next rest s := by
  have hdrained : s.out.items = [] := by
    cases hb : s.out.items with
    | nil => rfl
    | cons b rest => exact absurd (.readOut hs.reading hb) (hstuck _)
  have htaken : s.stdOut = bytesOf .out made := by
    have := hs.out
    rwa [hdrained, List.append_nil] at this
  cases hpend : pending with
  | nil => exact absurd (.close (hpend ▸ hs.running)) (hstuck _)
  | cons w rest =>
      obtain ⟨st, b⟩ := w
      have hrun : s.child = .running (⟨st, b⟩ :: rest) := hpend ▸ hs.running
      cases st with
      | out =>
          have hroom : s.out.items.length < cap := by rw [hdrained]; exact hcap
          exact absurd (.writeOut hrun hroom) (hstuck _)
      | err =>
          have hfull : ¬ s.err.items.length < cap :=
            fun hroom => hstuck _ (.writeErr hrun hroom)
          have hlen : (bytesOf .err made).length = cap := by
            have hbound := s.err.bound
            rw [← hs.err]
            omega
          exact ⟨b, rest, rfl, hlen, hs.reading, hrun, hs.err, htaken, hdrained⟩

/-- The stderr byte that finds `n` before it stands at one place only. -/
theorem errSplit_unique {xs xs' ys ys' : List Write} {b b' : UInt8}
    (heq : xs ++ ⟨.err, b⟩ :: ys = xs' ++ ⟨.err, b'⟩ :: ys')
    (hlen : (bytesOf .err xs).length = (bytesOf .err xs').length) :
    xs = xs' ∧ b = b' ∧ ys = ys' := by
  induction xs generalizing xs' with
  | nil =>
      cases xs' with
      | nil =>
          simp only [List.nil_append, List.cons.injEq, Write.mk.injEq, true_and] at heq
          exact ⟨rfl, heq⟩
      | cons w rest =>
          simp only [List.nil_append, List.cons_append, List.cons.injEq] at heq
          simp [← heq.1] at hlen
  | cons w rest ih =>
      cases xs' with
      | nil =>
          simp only [List.nil_append, List.cons_append, List.cons.injEq] at heq
          simp [heq.1] at hlen
      | cons w' rest' =>
          simp only [List.cons_append, List.cons.injEq] at heq
          obtain ⟨rfl, hrest⟩ := heq
          have hlen' : (bytesOf .err rest).length = (bytesOf .err rest').length := by
            obtain ⟨st, b⟩ := w
            cases st <;> simpa using hlen
          obtain ⟨rfl, hb, hys⟩ := ih hrest hlen'
          exact ⟨rfl, hb, hys⟩

/-- **Too much on stderr: one and the same deadlock in every order.** When
the child has filled its stderr pipe and has another stderr byte to write,
every order of steps comes to the state in which it waits for room there,
the reader has everything the child wrote to stdout before that byte, and
nothing else. -/
theorem execute_blocks (hcap : 1 ≤ cap) (made : List Write) (next : UInt8) (rest : List Write)
    (hfull : (bytesOf .err made).length = cap) :
    Inevitable (ExecStep cap)
      (fun s => BlockedAfter made next rest s ∧
        Deadlock (ExecStep cap) ExecState.ChildExited s)
      (ExecState.start cap (made ++ ⟨.err, next⟩ :: rest)) := by
  have hover : cap < (bytesOf .err (made ++ ⟨.err, next⟩ :: rest)).length := by
    rw [bytesOf_append, List.length_append, bytesOf_err_err, List.length_cons]
    omega
  refine inevitable_of_rank
    (I := fun s => ∃ m p, Behind (made ++ ⟨.err, next⟩ :: rest) s m p)
    ExecState.stepsLeft ?_ (fun _ _ => stepsLeft_lt) ?_ ⟨_, _, behind_start _⟩
  · rintro s s' ⟨m, p, hs⟩ hstep
    exact behind_step hover hs hstep
  · rintro s ⟨m, p, hs⟩ hstuck
    obtain ⟨b, ys, hp, hlen, hblocked⟩ := blockedAfter_of_stuck hcap hs hstuck
    have hsplit := hs.split
    rw [hp] at hsplit
    obtain ⟨rfl, rfl, rfl⟩ := errSplit_unique hsplit (hfull.trans hlen.symm)
    have hnoroom : ¬ s.err.items.length < cap := by rw [hblocked.full]; omega
    exact ⟨hblocked, deadlock_of_fullStderr hblocked.running hblocked.reading hblocked.drained
      hnoroom⟩

theorem execute_blocks_after_one :
    Inevitable (ExecStep 1)
      (fun s => BlockedAfter [⟨.out, 79⟩, ⟨.err, 69⟩] 69 [⟨.out, 79⟩] s ∧
        Deadlock (ExecStep 1) ExecState.ChildExited s)
      (ExecState.start 1 [⟨.out, 79⟩, ⟨.err, 69⟩, ⟨.err, 69⟩, ⟨.out, 79⟩]) :=
  execute_blocks (by decide) [⟨.out, 79⟩, ⟨.err, 69⟩] 69 [⟨.out, 79⟩] (by decide)

/-- Without room on stderr no run returns. -/
theorem not_returned_of_over {ws : List Write} {s : ExecState cap}
    (hover : cap < (bytesOf .err ws).length)
    (hr : Reachable (ExecStep cap) (ExecState.start cap ws) s) : s.parent ≠ .returned := by
  have hbehind : ∃ m p, Behind ws s m p := by
    refine hr.invariant (I := fun s => ∃ m p, Behind ws s m p) ⟨_, _, behind_start ws⟩ ?_
    rintro t t' ⟨m, p, ht⟩ hstep
    exact behind_step hover ht hstep
  obtain ⟨m, p, hs⟩ := hbehind
  rw [hs.reading]
  exact nofun

/-- **`execute` returns in every order of steps, or in none.** For every
capacity and every sequence of writes: every order of steps comes to the
`return` with exactly the bytes the child wrote, if and only if some order
gets to the `return` at all, if and only if the child's stderr fits into
one pipe. -/
theorem execute_returns_iff (hcap : 1 ≤ cap) (ws : List Write) :
    (Inevitable (ExecStep cap) (ExecState.ReturnedAll ws) (ExecState.start cap ws)
        ↔ (bytesOf .err ws).length ≤ cap) ∧
    ((∃ s, Reachable (ExecStep cap) (ExecState.start cap ws) s ∧ s.parent = .returned)
        ↔ (bytesOf .err ws).length ≤ cap) := by
  have hsome : (∃ s, Reachable (ExecStep cap) (ExecState.start cap ws) s ∧
      s.parent = .returned) → (bytesOf .err ws).length ≤ cap := by
    rintro ⟨s, hr, hret⟩
    by_contra hover
    exact not_returned_of_over (by omega) hr hret
  refine ⟨⟨fun h => ?_, inevitable_returned hcap⟩, ⟨hsome, fun hfit => ?_⟩⟩
  · obtain ⟨s, hr, hret, -⟩ := h.exists_reachable
    exact hsome ⟨s, hr, hret⟩
  · obtain ⟨s, hr, hret, -⟩ := (inevitable_returned hcap hfit).exists_reachable
    exact ⟨s, hr, hret⟩

theorem execute_returns_iff_at_one :
    (Inevitable (ExecStep 1) (ExecState.ReturnedAll [⟨.out, 79⟩, ⟨.err, 69⟩])
        (ExecState.start 1 [⟨.out, 79⟩, ⟨.err, 69⟩])
        ↔ (bytesOf .err [⟨.out, 79⟩, ⟨.err, 69⟩]).length ≤ 1) ∧
    ((∃ s, Reachable (ExecStep 1) (ExecState.start 1 [⟨.out, 79⟩, ⟨.err, 69⟩]) s ∧
        s.parent = .returned)
        ↔ (bytesOf .err [⟨.out, 79⟩, ⟨.err, 69⟩]).length ≤ 1) :=
  execute_returns_iff (by decide) [⟨.out, 79⟩, ⟨.err, 69⟩]

end CppLint.Shell
