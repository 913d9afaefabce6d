/-
CppLint.Shell.Execute — `shell::execute` and its child as two processes
over two bounded pipes (`src/utils/shell.cpp`).

The four overloads of `execute` have one body: start the child with its
stdout and stderr on two pipes, `boost::asio::read` the first pipe until
end-of-file, then the second, then `proc.wait()`. They differ only in the
working directory and environment the child is started with, which is part
of what the child is here: a child is the finite sequence of bytes it
writes, each to one of the two pipes, after which it closes both write ends
and exits.

Steps are per byte. A write of several bytes is several steps and a read
that takes what is there is several steps, so every way the two processes
can interleave is an order of these steps. A write step needs room in the
pipe, a read step needs a byte, and the reader sees end-of-file when the
pipe is empty and the child has closed its end.

`Shell.Result` is what `execute` returns; the error paths that depend on a
read error other than end-of-file are not part of the process model.
-/
import CppLint.Lib.Transition
import CppLint.Lib.BoundedFifo

namespace CppLint.Shell

open CppLint.Lib

/-- `shell::result`. -/
structure Result where
  exitCode : Int
  stdOut : String
  stdErr : String
deriving DecidableEq, Repr

/-- The two pipes of a child. -/
inductive Stream where
  | out
  | err
deriving DecidableEq, Repr

/-- One byte written by the child. -/
structure Write where
  stream : Stream
  byte : UInt8
deriving DecidableEq, Repr

/-- The bytes of a sequence of writes that go to one pipe, in order. -/
def bytesOf (stream : Stream) (ws : List Write) : List UInt8 :=
  (ws.filter (fun w => w.stream = stream)).map Write.byte

/-- Where the child is. -/
inductive ChildPhase where
  | running (pending : List Write)
  | closed
  | exited
deriving DecidableEq, Repr

/-- Where `execute` is: the read of `rp_out`, the read of `rp_err`,
`proc.wait()`, or past its `return`. -/
inductive ParentPhase where
  | readingOut
  | readingErr
  | waiting
  | returned
deriving DecidableEq, Repr

/-- The two processes and the pipes between them. -/
structure ExecState (cap : Nat) where
  child : ChildPhase
  out : BoundedFifo cap UInt8
  err : BoundedFifo cap UInt8
  parent : ParentPhase
  stdOut : List UInt8
  stdErr : List UInt8

/-- The child was started and nothing else has happened. -/
def ExecState.start (cap : Nat) (ws : List Write) : ExecState cap where
  child := .running ws
  out := .empty
  err := .empty
  parent := .readingOut
  stdOut := []
  stdErr := []

/-- The writes the child still has to make. -/
def ChildPhase.pending : ChildPhase → List Write
  | .running ws => ws
  | .closed => []
  | .exited => []

/-- The child's write ends are closed. -/
def ChildPhase.HasClosed (c : ChildPhase) : Prop := c = .closed ∨ c = .exited

/-- One step of either process. -/
inductive ExecStep (cap : Nat) : ExecState cap → ExecState cap → Prop
  | writeOut {s : ExecState cap} {b : UInt8} {rest : List Write}
      (hc : s.child = .running (⟨.out, b⟩ :: rest)) (room : s.out.items.length < cap) :
      ExecStep cap s { s with child := .running rest, out := s.out.push b room }
  | writeErr {s : ExecState cap} {b : UInt8} {rest : List Write}
      (hc : s.child = .running (⟨.err, b⟩ :: rest)) (room : s.err.items.length < cap) :
      ExecStep cap s { s with child := .running rest, err := s.err.push b room }
  | close {s : ExecState cap} (hc : s.child = .running []) :
      ExecStep cap s { s with child := .closed }
  | exit {s : ExecState cap} (hc : s.child = .closed) :
      ExecStep cap s { s with child := .exited }
  | readOut {s : ExecState cap} {b : UInt8} {rest : List UInt8}
      (hp : s.parent = .readingOut) (hb : s.out.items = b :: rest) :
      ExecStep cap s { s with out := s.out.tail, stdOut := s.stdOut ++ [b] }
  | eofOut {s : ExecState cap}
      (hp : s.parent = .readingOut) (hb : s.out.items = []) (hc : s.child.HasClosed) :
      ExecStep cap s { s with parent := .readingErr }
  | readErr {s : ExecState cap} {b : UInt8} {rest : List UInt8}
      (hp : s.parent = .readingErr) (hb : s.err.items = b :: rest) :
      ExecStep cap s { s with err := s.err.tail, stdErr := s.stdErr ++ [b] }
  | eofErr {s : ExecState cap}
      (hp : s.parent = .readingErr) (hb : s.err.items = []) (hc : s.child.HasClosed) :
      ExecStep cap s { s with parent := .waiting }
  | wait {s : ExecState cap} (hp : s.parent = .waiting) (hc : s.child = .exited) :
      ExecStep cap s { s with parent := .returned }

/-- The child is gone. A state that is stuck before that is a deadlock of
`execute`. -/
def ExecState.ChildExited {cap : Nat} (s : ExecState cap) : Prop := s.child = .exited

/-- A byte string as the program holds it: one character per byte. -/
def textOf (bytes : List UInt8) : String :=
  String.ofList (bytes.map (fun b => Char.ofNat b.toNat))

/-- What `execute` returns from a final state, given the child's status. -/
def ExecState.result {cap : Nat} (s : ExecState cap) (exitCode : Int) : Result where
  exitCode := exitCode
  stdOut := textOf s.stdOut
  stdErr := textOf s.stdErr

end CppLint.Shell
