/-
CppLint.Utils.Fault — the ways a call can fail to return
(`src/utils/error.h`, `assert`, and the standard library's exceptions).

A C++ function is a Lean function into `Except Fault`. `Fault` keeps apart
what the source keeps apart: its own `std::runtime_error`s with their
message, the `std::out_of_range` of `unordered_map::at` with the missing
key, a failed `assert` with the function it stands in, and the two
exceptions of `std::stoi`. `nullResponse` and `nullPointer` are not exceptions:
they are the undefined behaviour of `operator->` on an empty
`httplib::Result` and of `operator*` on a null `std::unique_ptr`.
-/
import CppLint.Lib.Outcome
import CppLint.Lib.UnorderedMap

namespace CppLint

open CppLint.Lib

/-- The functions that contain an `assert`. -/
inductive Site where
  | setLog
  | fillGitInfo
  | check
  | makeReviewComment
  | commentOnGithubIssue
  | getIssueCommentId
deriving DecidableEq, Repr

/-- Why a call did not return. -/
inductive Fault where
  | runtimeError (what : String)
  | at (key : String)
  | assertion (site : Site) (expr : String)
  | stoiInvalidArgument
  | stoiOutOfRange
  | json (what : String)
  | thirdParty (what : String)
  | nullResponse
  | nullPointer
deriving DecidableEq, Repr

/-- The fault is a C++ exception: neither a failed assertion nor undefined
behaviour. -/
def Fault.IsException : Fault → Prop
  | .assertion _ _ => False
  | .nullResponse => False
  | .nullPointer => False
  | _ => True

/-- A call that leaves the program: whatever it throws is its own. -/
def external {α : Type} (x : Except String α) : Except Fault α := x.mapError .thirdParty

/-- `throw_if`. -/
def throwIf (condition : Bool) (message : String) : Except Fault Unit :=
  if condition then .error (.runtimeError message) else .ok ()

/-- `throw_unless`. -/
def throwUnless (condition : Bool) (message : String) : Except Fault Unit :=
  if condition then .ok () else .error (.runtimeError message)

/-- `assert`, in a build that keeps assertions. -/
def assertThat (site : Site) (condition : Bool) (expr : String) : Except Fault Unit :=
  if condition then .ok () else .error (.assertion site expr)

/-- `std::unordered_map::at` on a map keyed by paths. -/
def mapAt {β : Type} (m : UMap String β) (key : String) : Except Fault β :=
  match m.lookup key with
  | some v => .ok v
  | none => .error (.at key)

theorem external_eq_ok {α : Type} {x : Except String α} {a : α} :
    external x = .ok a ↔ x = .ok a := by
  cases x <;> simp [external, Except.mapError]

theorem assertThat_eq_ok {site : Site} {condition : Bool} {expr : String} {u : Unit} :
    assertThat site condition expr = .ok u ↔ condition = true := by
  unfold assertThat
  cases condition <;> simp

theorem throwIf_eq_ok {condition : Bool} {message : String} {u : Unit} :
    throwIf condition message = .ok u ↔ condition = false := by
  unfold throwIf
  cases condition <;> simp

theorem mapAt_eq_ok {β : Type} {m : UMap String β} {key : String} {v : β} :
    mapAt m key = .ok v ↔ m.lookup key = some v := by
  unfold mapAt
  cases m.lookup key <;> simp

/-! ## What the checks and external calls guarantee -/

section Guarantees

variable {E : Fault → Prop}

theorem assertThat_guarantees {site : Site} {condition : Bool} {expr : String}
    (hE : condition = false → E (.assertion site expr)) :
    Guarantees (assertThat site condition expr) (fun _ => condition = true) E := by
  cases condition with
  | true => exact rfl
  | false => exact hE rfl

theorem throwIf_guarantees {condition : Bool} {message : String}
    (hE : E (.runtimeError message)) :
    Guarantees (throwIf condition message) (fun _ => condition = false) E := by
  cases condition with
  | true => exact hE
  | false => exact rfl

theorem throwUnless_guarantees {condition : Bool} {message : String}
    (hE : E (.runtimeError message)) :
    Guarantees (throwUnless condition message) (fun _ => condition = true) E := by
  cases condition with
  | true => exact rfl
  | false => exact hE

theorem external_guarantees {α : Type} {x : Except String α}
    (hE : ∀ what, E (.thirdParty what)) : Guarantees (external x) (fun a => x = .ok a) E := by
  cases x with
  | ok a => exact rfl
  | error what => exact hE what

end Guarantees

end CppLint
