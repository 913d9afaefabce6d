/-
CppLint.Shell.ExecuteTheorems — when `shell::execute` can deadlock, and what
it returns when it does not.

The reader takes stdout to end-of-file before it looks at stderr, and
end-of-file on stdout comes only when the child is done with BOTH pipes.
Until then nobody takes a byte from the stderr pipe, so everything the
child writes there has to fit into it. That is the whole story:
`execute_deadlockFree_iff` says that no deadlock can be reached exactly
when the bytes written to stderr fit into one pipe, whatever the child
writes to stdout and in whatever order.

* `ErrFits` is the invariant of the good direction: while the child is
  running the reader is still on stdout, and what is in the stderr pipe
  together with what is still to be written there fits.
* `exists_deadlock` builds the bad run: the reader takes each stdout byte
  at once, and the child stops at the first stderr byte without room.
* `execute_result_exact` is about every run that does get to the end: the
  two strings returned are exactly the bytes written, in order.
-/
import CppLint.Shell.Execute

namespace CppLint.Shell

open CppLint.Lib

variable {cap : Nat}

@[simp] theorem bytesOf_nil (st : Stream) : bytesOf st [] = [] := rfl

@[simp] theorem bytesOf_out_out (b : UInt8) (rest : List Write) :
    bytesOf .out (⟨.out, b⟩ :: rest) = b :: bytesOf .out rest := rfl

@[simp] theorem bytesOf_err_err (b : UInt8) (rest : List Write) :
    bytesOf .err (⟨.err, b⟩ :: rest) = b :: bytesOf .err rest := rfl

@[simp] theorem bytesOf_err_out (b : UInt8) (rest : List Write) :
    bytesOf .err (⟨.out, b⟩ :: rest) = bytesOf .err rest := rfl

@[simp] theorem bytesOf_out_err (b : UInt8) (rest : List Write) :
    bytesOf .out (⟨.err, b⟩ :: rest) = bytesOf .out rest := rfl

/-! ## Enough room on stderr: no deadlock -/

/-- While the child runs, the reader is on stdout and the stderr pipe has
room for all that is still coming. -/
def ErrFits (s : ExecState cap) : Prop :=
  ∀ pending, s.child = .running pending →
    s.parent = .readingOut ∧ s.err.items.length + (bytesOf .err pending).length ≤ cap

theorem errFits_start {ws : List Write} (h : (bytesOf .err ws).length ≤ cap) :
    ErrFits (ExecState.start cap ws) := by
  intro pending hp
  cases hp
  exact ⟨rfl, by simpa [ExecState.start] using h⟩

/-- Each step keeps the room: a stderr write moves one byte from what is
coming to what is there, and the reader cannot leave stdout before the
child has closed it. -/
theorem errFits_step {s s' : ExecState cap} (hs : ErrFits s) (hstep : ExecStep cap s s') :
    ErrFits s' := by
  intro pending hp
  cases hstep with
  | writeOut hc room =>
      cases hp
      obtain ⟨hpar, hfit⟩ := hs _ hc
      exact ⟨hpar, by simpa using hfit⟩
  | writeErr hc room =>
      cases hp
      obtain ⟨hpar, hfit⟩ := hs _ hc
      refine ⟨hpar, ?_⟩
      simp only [bytesOf_err_err, List.length_cons] at hfit
      simp only [BoundedFifo.items_push, List.length_append, List.length_cons, List.length_nil]
      omega
  | close hc => cases hp
  | exit hc => cases hp
  | readOut hpar hb => exact hs pending hp
  | eofOut hpar hb hc =>
      have hrun : s.child = .running pending := hp
      rcases hc with hc | hc <;> rw [hrun] at hc <;> cases hc
  | readErr hpar hb =>
      have hrun : s.child = .running pending := hp
      rw [(hs pending hrun).1] at hpar
      cases hpar
  | eofErr hpar hb hc =>
      have hrun : s.child = .running pending := hp
      rw [(hs pending hrun).1] at hpar
      cases hpar
  | wait hpar hc =>
      have hrun : s.child = .running pending := hp
      rw [hrun] at hc
      cases hc

/-- With room on stderr somebody can move until the child is gone: a full
stdout pipe is not empty, and the reader is on it. -/
theorem errFits_progress (hcap : 1 ≤ cap) {s : ExecState cap} (hs : ErrFits s)
    (hrun : ¬ s.ChildExited) : ∃ s', ExecStep cap s s' := by
  cases hc : s.child with
  | exited => exact absurd hc hrun
  | closed => exact ⟨_, .exit hc⟩
  | running pending =>
      obtain ⟨hpar, hfit⟩ := hs pending hc
      cases pending with
      | nil => exact ⟨_, .close hc⟩
      | cons w rest =>
          obtain ⟨st, b⟩ := w
          cases st with
          | err =>
              simp only [bytesOf_err_err, List.length_cons] at hfit
              exact ⟨_, .writeErr hc (by omega)⟩
          | out =>
              rcases s.out.not_full_or_nonempty hcap with hroom | ⟨a, rest', ha⟩
              · exact ⟨_, .writeOut hc hroom⟩
              · exact ⟨_, .readOut hpar ha⟩

/-! ## Too much on stderr: a deadlock within reach -/

/-- The child is blocked on a full stderr, and the reader waits on a stdout
that is empty and open. -/
theorem deadlock_of_fullStderr {s : ExecState cap} {b : UInt8} {rest : List Write}
    (hc : s.child = .running (⟨.err, b⟩ :: rest)) (hp : s.parent = .readingOut)
    (ho : s.out.items = []) (hfull : ¬ s.err.items.length < cap) :
    Deadlock (ExecStep cap) ExecState.ChildExited s := by
  constructor
  · intro hex
    rw [ExecState.ChildExited, hc] at hex
    cases hex
  · intro s' hstep
    cases hstep with
    | writeOut hc' room => rw [hc] at hc'; cases hc'
    | writeErr hc' room => exact hfull room
    | close hc' => rw [hc] at hc'; cases hc'
    | exit hc' => rw [hc] at hc'; cases hc'
    | readOut hp' hb => rw [ho] at hb; cases hb
    | eofOut hp' hb hc' =>
        rcases hc' with hc' | hc' <;> rw [hc] at hc' <;> cases hc'
    | readErr hp' hb => rw [hp] at hp'; cases hp'
    | eofErr hp' hb hc' => rw [hp] at hp'; cases hp'
    | wait hp' hc' => rw [hp] at hp'; cases hp'

/-- The state in the middle of the bad run: stdout is drained, the reader
waits on it, and `n` bytes sit in the stderr pipe. -/
theorem exists_deadlock (hcap : 1 ≤ cap) :
    ∀ (ws : List Write) (s : ExecState cap),
      s.child = .running ws → s.parent = .readingOut → s.out.items = [] →
      cap < s.err.items.length + (bytesOf .err ws).length →
      ∃ d, Reachable (ExecStep cap) s d ∧ Deadlock (ExecStep cap) ExecState.ChildExited d := by
  intro ws
  induction ws with
  | nil =>
      intro s hc hp ho hover
      have hbound := s.err.bound
      simp only [bytesOf_nil, List.length_nil] at hover
      omega
  | cons w rest ih =>
      intro s hc hp ho hover
      obtain ⟨st, b⟩ := w
      cases st with
      | out =>
          -- write the byte and read it at once: stdout is empty again
          have hroom : s.out.items.length < cap := by rw [ho]; simp; omega
          refine exists_deadlock_head (.writeOut hc hroom) ?_
          have hitems : (s.out.push b hroom).items = [b] := by simp [ho]
          refine exists_deadlock_head (.readOut hp hitems) ?_
          refine ih _ rfl hp ?_ ?_
          · simp [ho]
          · simpa using hover
      | err =>
          by_cases hroom : s.err.items.length < cap
          · refine exists_deadlock_head (.writeErr hc hroom) ?_
            refine ih _ rfl hp ho ?_
            simp only [bytesOf_err_err, List.length_cons] at hover
            simp only [BoundedFifo.items_push, List.length_append, List.length_cons,
              List.length_nil]
            omega
          · exact ⟨s, Reachable.refl s, deadlock_of_fullStderr hc hp ho hroom⟩

/-- **`execute` cannot deadlock exactly when stderr fits into its pipe.**
For every capacity and every sequence of writes of the child: no
interleaving reaches a state in which the child is still there and neither
process can move, if and only if the bytes written to stderr are at most
the capacity. -/
theorem execute_deadlockFree_iff (hcap : 1 ≤ cap) (ws : List Write) :
    DeadlockFree (ExecStep cap) ExecState.ChildExited (ExecState.start cap ws)
      ↔ (bytesOf .err ws).length ≤ cap := by
  constructor
  · intro hfree
    by_contra hover
    obtain ⟨d, hreach, hdead⟩ := exists_deadlock hcap ws (ExecState.start cap ws) rfl rfl rfl
      (by simp only [ExecState.start, BoundedFifo.items_empty, List.length_nil]; omega)
    exact hfree d hreach hdead
  · intro hfit
    exact deadlockFree_of_invariant (errFits_start hfit) (fun _ _ => errFits_step)
      (fun _ hs hrun => errFits_progress hcap hs hrun)

theorem execute_deadlockFree_iff_at_two :
    1 ≤ 2 ∧ (DeadlockFree (ExecStep 2) ExecState.ChildExited
        (ExecState.start 2 [⟨.err, 69⟩, ⟨.out, 79⟩, ⟨.out, 79⟩, ⟨.out, 79⟩, ⟨.err, 69⟩])
      ↔ (bytesOf .err [⟨.err, 69⟩, ⟨.out, 79⟩, ⟨.out, 79⟩, ⟨.out, 79⟩, ⟨.err, 69⟩]).length ≤ 2) :=
  ⟨by decide, execute_deadlockFree_iff (by decide) _⟩

/-- A child that writes two bytes to stderr through a pipe of one byte: the
state after its first write is a deadlock. -/
theorem execute_deadlock_at_two_bytes :
    ¬ DeadlockFree (ExecStep 1) ExecState.ChildExited
        (ExecState.start 1 [⟨.err, 69⟩, ⟨.err, 69⟩]) := by
  intro hfree
  obtain ⟨d, hreach, hdead⟩ :=
    exists_deadlock (by decide) [⟨.err, 69⟩, ⟨.err, 69⟩] (ExecState.start 1 _) rfl rfl rfl
      (by decide)
  exact hfree d hreach hdead

/-! ## What is returned -/

/-- No byte is lost, doubled or moved between the pipes: what was read,
what is in the pipe and what is still to be written make up what the child
set out to write; and the reader has left a pipe only when it was empty and
closed. -/
structure Accounted (ws : List Write) (s : ExecState cap) : Prop where
  out : s.stdOut ++ s.out.items ++ bytesOf .out s.child.pending = bytesOf .out ws
  err : s.stdErr ++ s.err.items ++ bytesOf .err s.child.pending = bytesOf .err ws
  leftOut : s.parent ≠ .readingOut → s.out.items = [] ∧ s.child.HasClosed
  leftErr : s.parent = .waiting ∨ s.parent = .returned → s.err.items = []

theorem ChildPhase.HasClosed.pending_nil {c : ChildPhase} (h : c.HasClosed) : c.pending = [] := by
  rcases h with rfl | rfl <;> rfl

theorem accounted_start (ws : List Write) : Accounted ws (ExecState.start cap ws) where
  out := by simp [ExecState.start, ChildPhase.pending]
  err := by simp [ExecState.start, ChildPhase.pending]
  leftOut := fun h => absurd rfl h
  leftErr := fun h => by rcases h with h | h <;> cases h

theorem accounted_step {ws : List Write} {s s' : ExecState cap} (hs : Accounted ws s)
    (hstep : ExecStep cap s s') : Accounted ws s' := by
  have hopen : ∀ rest, s.child = .running rest → s.parent = .readingOut := by
    intro rest hc
    by_contra hp
    rcases (hs.leftOut hp).2 with h | h <;> rw [hc] at h <;> cases h
  cases hstep with
  | writeOut hc room =>
      have hpar := hopen _ hc
      refine ⟨?_, ?_, fun h => absurd hpar h, fun h => ?_⟩
      · have := hs.out
        simpa [ChildPhase.pending, hc] using this
      · have := hs.err
        simpa [ChildPhase.pending, hc] using this
      · rcases h with h | h <;> rw [hpar] at h <;> cases h
  | writeErr hc room =>
      have hpar := hopen _ hc
      refine ⟨?_, ?_, fun h => absurd hpar h, fun h => ?_⟩
      · have := hs.out
        simpa [ChildPhase.pending, hc] using this
      · have := hs.err
        simpa [ChildPhase.pending, hc] using this
      · rcases h with h | h <;> rw [hpar] at h <;> cases h
  | close hc =>
      refine ⟨?_, ?_, fun h => ⟨(hs.leftOut h).1, .inl rfl⟩, hs.leftErr⟩
      · have := hs.out
        simpa [ChildPhase.pending, hc] using this
      · have := hs.err
        simpa [ChildPhase.pending, hc] using this
  | exit hc =>
      refine ⟨?_, ?_, fun h => ⟨(hs.leftOut h).1, .inr rfl⟩, hs.leftErr⟩
      · have := hs.out
        simpa [ChildPhase.pending, hc] using this
      · have := hs.err
        simpa [ChildPhase.pending, hc] using this
  | readOut hp hb =>
      refine ⟨?_, hs.err, fun h => absurd hp h, hs.leftErr⟩
      have := hs.out
      simpa [hb] using this
  | eofOut hp hb hc =>
      refine ⟨hs.out, hs.err, fun _ => ⟨hb, hc⟩, fun h => ?_⟩
      rcases h with h | h <;> cases h
  | readErr hp hb =>
      refine ⟨hs.out, ?_, hs.leftOut, fun h => ?_⟩
      · have := hs.err
        simpa [hb] using this
      · have hp' : s.parent = .waiting ∨ s.parent = .returned := h
        rcases hp' with h | h <;> rw [hp] at h <;> cases h
  | eofErr hp hb hc =>
      refine ⟨hs.out, hs.err, fun _ => hs.leftOut (by rw [hp]; simp), fun _ => hb⟩
  | wait hp hc =>
      refine ⟨hs.out, hs.err, fun _ => hs.leftOut (by rw [hp]; simp), fun _ => ?_⟩
      exact hs.leftErr (.inl hp)

/-- **What `execute` returns is what the child wrote.** In every run that
reaches the `return`, the two strings of the result are the bytes the child
wrote to the two pipes, each in the order written. -/
theorem execute_result_exact {ws : List Write} {s : ExecState cap}
    (hr : Reachable (ExecStep cap) (ExecState.start cap ws) s) (hret : s.parent = .returned)
    (exitCode : Int) :
    s.result exitCode = ⟨exitCode, textOf (bytesOf .out ws), textOf (bytesOf .err ws)⟩ := by
  have hacc : Accounted ws s :=
    hr.invariant (accounted_start ws) (fun _ _ => accounted_step)
  have hleft := hacc.leftOut (by rw [hret]; simp)
  have hpend : s.child.pending = [] := hleft.2.pending_nil
  have hout := hacc.out
  have herr := hacc.err
  rw [hleft.1, hpend] at hout
  rw [hacc.leftErr (.inr hret), hpend] at herr
  simp only [List.append_nil, bytesOf_nil] at hout herr
  simp only [ExecState.result, hout, herr]

end CppLint.Shell
