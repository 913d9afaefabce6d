/-
CppLint.Lib.Segments — a list cut at the elements a reader accepts.

A text of records often marks only where a record starts: an accepted
element opens a segment, and the elements that follow it belong to it up to
the next accepted one. `Segmentation` says what such a cut is; there is
always one (`exists_segmentation`), and the cuts of two lists whose second
starts with a segment are joined by appending them. `Segmentation.foldl_eq`
is the rule for a one-pass reader: if each of its steps keeps the state the
image of the segments collected so far, so does the whole pass.
-/
import Mathlib.Data.List.Basic

namespace CppLint.Lib

/-- A segment: the element that opens it, what was read from that element,
and the elements behind it. -/
structure Segment (α β : Type) where
  head : α
  value : β
  body : List α := []

section

variable {α β : Type} {accept : α → Option β}

/-- The elements of a segment in their order. -/
def Segment.elems (g : Segment α β) : List α := g.head :: g.body

/-- `l` is the elements of `before`, none of them accepted, followed by
those of `groups`, of which exactly the heads are. -/
structure Segmentation (accept : α → Option β) (l before : List α)
    (groups : List (Segment α β)) : Prop where
  elems_eq : l = before ++ groups.flatMap Segment.elems
  before_rejected : ∀ a ∈ before, accept a = none
  heads_accepted : ∀ g ∈ groups, accept g.head = some g.value
  bodies_rejected : ∀ g ∈ groups, ∀ a ∈ g.body, accept a = none

/-- Every list is cut. -/
theorem exists_segmentation (accept : α → Option β) (l : List α) :
    ∃ before groups, Segmentation accept l before groups := by
  induction l with
  | nil => exact ⟨[], [], by simp, by simp, by simp, by simp⟩
  | cons a l ih =>
      obtain ⟨before, groups, h⟩ := ih
      cases ha : accept a with
      | none =>
          refine ⟨a :: before, groups, ?_, ?_, h.heads_accepted, h.bodies_rejected⟩
          · rw [h.elems_eq, List.cons_append]
          · simpa [ha] using h.before_rejected
      | some b =>
          refine ⟨[], ⟨a, b, before⟩ :: groups, ?_, by simp, ?_, ?_⟩
          · simp [h.elems_eq, Segment.elems]
          · simpa [ha] using h.heads_accepted
          · simpa using ⟨h.before_rejected, h.bodies_rejected⟩

/-- What is read from the accepted elements, in their order. -/
theorem Segmentation.filterMap_eq {l before : List α} {groups : List (Segment α β)}
    (h : Segmentation accept l before groups) : l.filterMap accept = groups.map Segment.value := by
  have hgroup : ∀ g ∈ groups, g.elems.filterMap accept = [g.value] := by
    intro g hg
    rw [Segment.elems, List.filterMap_cons_some (h.heads_accepted g hg),
      List.filterMap_eq_nil_iff.mpr (h.bodies_rejected g hg)]
  rw [h.elems_eq, List.filterMap_append, List.filterMap_eq_nil_iff.mpr h.before_rejected,
    List.nil_append, List.filterMap_flatMap, List.flatMap_congr hgroup, ← List.map_eq_flatMap]

/-- Where the first element is accepted, nothing precedes the segments. -/
theorem Segmentation.before_eq_nil {l before : List α} {groups : List (Segment α β)}
    (h : Segmentation accept l before groups) {a : α} (hhead : l.head? = some a)
    (ha : (accept a).isSome) : before = [] := by
  cases before with
  | nil => rfl
  | cons a' before =>
      have hfirst : a' = a := by simpa [h.elems_eq] using hhead
      have hnone := h.before_rejected a' (by simp)
      rw [hfirst] at hnone
      simp [hnone] at ha

theorem Segmentation.append {l l' before : List α} {groups groups' : List (Segment α β)}
    (h : Segmentation accept l before groups) (h' : Segmentation accept l' [] groups') :
    Segmentation accept (l ++ l') before (groups ++ groups') where
  elems_eq := by simp [h.elems_eq, h'.elems_eq]
  before_rejected := h.before_rejected
  heads_accepted g hg := by
    rcases List.mem_append.mp hg with hg | hg
    · exact h.heads_accepted g hg
    · exact h'.heads_accepted g hg
  bodies_rejected g hg := by
    rcases List.mem_append.mp hg with hg | hg
    · exact h.bodies_rejected g hg
    · exact h'.bodies_rejected g hg

/-! ## Reading in one pass -/

/-- What each step of a one-pass reader does, its state being a function of
the segments it has collected. -/
structure Collects {σ : Type} (accept : α → Option β) (step : σ → α → σ)
    (collected : List (Segment α β) → σ) : Prop where
  skips : ∀ a, accept a = none → step (collected []) a = collected []
  opens : ∀ groups a b, accept a = some b →
    step (collected groups) a = collected (groups ++ [⟨a, b, []⟩])
  appends : ∀ groups g a, accept a = none →
    step (collected (groups ++ [g])) a =
      collected (groups ++ [{ g with body := g.body ++ [a] }])

variable {σ : Type} {step : σ → α → σ} {collected : List (Segment α β) → σ}

theorem Collects.foldl_before (hstep : Collects accept step collected) {before : List α}
    (hbefore : ∀ a ∈ before, accept a = none) :
    before.foldl step (collected []) = collected [] := by
  induction before with
  | nil => rfl
  | cons a before ih =>
      rw [List.foldl_cons, hstep.skips a (hbefore a (by simp))]
      exact ih (fun a' ha' => hbefore a' (by simp [ha']))

theorem Collects.foldl_body (hstep : Collects accept step collected)
    (groups : List (Segment α β)) (a : α) (b : β) :
    ∀ (seen body : List α), (∀ x ∈ body, accept x = none) →
      body.foldl step (collected (groups ++ [⟨a, b, seen⟩])) =
        collected (groups ++ [⟨a, b, seen ++ body⟩])
  | seen, [], _ => by simp
  | seen, x :: body, hbody => by
      rw [List.foldl_cons, hstep.appends groups ⟨a, b, seen⟩ x (hbody x (by simp)),
        hstep.foldl_body groups a b (seen ++ [x]) body (fun y hy => hbody y (by simp [hy]))]
      simp

theorem Collects.foldl_groups (hstep : Collects accept step collected) :
    ∀ (behind groups : List (Segment α β)), (∀ g ∈ groups, accept g.head = some g.value) →
      (∀ g ∈ groups, ∀ a ∈ g.body, accept a = none) →
      (groups.flatMap Segment.elems).foldl step (collected behind) = collected (behind ++ groups)
  | behind, [], _, _ => by simp
  | behind, g :: groups, hheads, hbodies => by
      have hopen := hstep.opens behind g.head g.value (hheads g (by simp))
      have hbody := hstep.foldl_body behind g.head g.value [] g.body (hbodies g (by simp))
      rw [List.flatMap_cons, List.foldl_append, Segment.elems, List.foldl_cons, hopen, hbody,
        List.nil_append,
        hstep.foldl_groups (behind ++ [g]) groups (fun g' hg' => hheads g' (by simp [hg']))
          (fun g' hg' => hbodies g' (by simp [hg']))]
      simp

/-- The whole pass leaves the image of the segments. -/
theorem Segmentation.foldl_eq (hstep : Collects accept step collected) {l before : List α}
    {groups : List (Segment α β)} (h : Segmentation accept l before groups) :
    l.foldl step (collected []) = collected groups := by
  rw [h.elems_eq, List.foldl_append, hstep.foldl_before h.before_rejected,
    hstep.foldl_groups [] groups h.heads_accepted h.bodies_rejected, List.nil_append]

end

end CppLint.Lib
