/-
CppLint.Github.Json — JSON values as `nlohmann::json` handles them, and the
review comment (`src/github/review_comment.{h,cpp}`).

Texts sent and received are kept as the JSON value they stand for: a request
carries the value whose `dump()` is sent, a response the outcome of
`json::parse` on what came back. Strings in them are Unicode texts; that
`dump()` throws at bytes which are not UTF-8 is left out. A floating-point
number is known by its integer part, which is all a conversion to an integer
takes from it.
-/
import Mathlib.Algebra.Group.Int.Defs
import Mathlib.Algebra.Group.Nat.Defs
import CppLint.Utils.Fault

namespace CppLint.Github

/-- `nlohmann::json`. -/
inductive Json where
  | null
  | boolean (b : Bool)
  | integer (n : Int)
  | float (integerPart : Int)
  | string (s : String)
  | array (xs : List Json)
  | object (members : List (String × Json))

/-- `contains(key)`, and the member: nothing unless the value is an object. -/
def Json.member? (key : String) : Json → Option Json
  | .object members => members.lookup key
  | _ => none

/-- `contains("/a/b"_json_pointer)`, and the value there. -/
def Json.pointer? : List String → Json → Option Json
  | [], j => some j
  | key :: keys, j => (j.member? key).bind (Json.pointer? keys)

/-- `operator[](key)` on a value that is not const: null and objects give
the member, or null when there is none; every other value throws. -/
def Json.subscript (key : String) : Json → Except Fault Json
  | .null => .ok .null
  | .object members => .ok ((members.lookup key).getD .null)
  | _ => .error (.json "type_error.305")

/-- `get_to` into a `std::string`. -/
def Json.getString : Json → Except Fault String
  | .string s => .ok s
  | _ => .error (.json "type_error.302")

/-- `get_to` into a `std::uint32_t`: numbers and booleans are converted
modulo `2 ^ 32`. -/
def Json.getUInt32 : Json → Except Fault Nat
  | .integer n => .ok (n % 2 ^ 32).toNat
  | .float n => .ok (n % 2 ^ 32).toNat
  | .boolean b => .ok b.toNat
  | _ => .error (.json "type_error.302")

/-! ## Review comments -/

/-- `review_comment`, the members that are serialised. -/
structure ReviewComment where
  path : String
  position : Nat
  body : String
deriving DecidableEq, Repr

/-- `to_json` of a review comment. -/
def ReviewComment.toJson (c : ReviewComment) : Json :=
  .object [("body", .string c.body), ("path", .string c.path), ("position", .integer c.position)]

/-- `make_review_str`. -/
def makeReviewStr (comments : List ReviewComment) : Json :=
  .object [("body", .string "cpp-lint-action suggestion"),
    ("comments", .array (comments.map ReviewComment.toJson)),
    ("event", .string "COMMENT")]

end CppLint.Github
