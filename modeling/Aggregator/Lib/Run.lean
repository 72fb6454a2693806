/-
  Runs of a labelled transition system, and the rules by which a property of
  one step becomes a property of a whole run.

  A system is a relation `step s l s'` on states and labels.  `Run step s ls s'`
  is a run from `s` to `s'` along the labels `ls`.  A run all of whose steps
  meet a condition `C s l` on the state before the step and its label is a run
  of `Restrict step C`, so the rules below cover conditional runs as well.

  * `Run.inv`: an invariant kept by every step is kept by every run;
  * `Run.rel`: a reflexive and transitive relation between the two ends of a
    step relates the two ends of a run.
-/
import Mathlib.Logic.Relation

namespace Aggregator

universe u v
variable {S : Type u} {L : Type v}

/-- Runs along a list of labels. -/
inductive Run (step : S → L → S → Prop) : S → List L → S → Prop
  | nil (s : S) : Run step s [] s
  | cons {s t u : S} {l : L} {ls : List L} :
      step s l t → Run step t ls u → Run step s (l :: ls) u

/-- The steps that meet the condition `C` on the state before them. -/
def Restrict (step : S → L → S → Prop) (C : S → L → Prop) (s : S) (l : L) (t : S) : Prop :=
  C s l ∧ step s l t

namespace Run
variable {step : S → L → S → Prop} {s t u : S} {l : L} {ls ls' : List L}

theorem append (h : Run step s ls t) (h' : Run step t ls' u) : Run step s (ls ++ ls') u := by
  induction h with
  | nil => exact h'
  | cons hs _ ih => exact .cons hs (ih h')

/-- The state between two parts of a run. -/
theorem exists_append (h : Run step s (ls ++ ls') u) :
    ∃ t, Run step s ls t ∧ Run step t ls' u := by
  induction ls generalizing s with
  | nil => exact ⟨s, .nil s, h⟩
  | cons l ls ih =>
    cases h with
    | cons hl hrest =>
      obtain ⟨t, ht, hu⟩ := ih hrest
      exact ⟨t, .cons hl ht, hu⟩

theorem single (h : step s l t) : Run step s [l] t := .cons h (.nil t)

/-- A run of a system with more steps. -/
theorem mono {step' : S → L → S → Prop} (hs : ∀ s l t, step s l t → step' s l t)
    (h : Run step s ls t) : Run step' s ls t := by
  induction h with
  | nil s => exact .nil s
  | cons hl _ ih => exact .cons (hs _ _ _ hl) ih

/-- A run of a deterministic system, computed. -/
theorem of_foldlM {f : S → L → Option S} (h : ls.foldlM f s = some t) :
    Run (fun s l t => f s l = some t) s ls t := by
  induction ls generalizing s with
  | nil => obtain rfl := Option.some.inj h; exact .nil s
  | cons l ls ih =>
    rw [List.foldlM_cons, Option.bind_eq_bind, Option.bind_eq_some_iff] at h
    obtain ⟨u, hu, h⟩ := h
    exact .cons hu (ih h)

/-- A run of the steps that meet a condition, computed. -/
theorem of_foldlM_restrict {f : S → L → Option S} {C : S → L → Prop} [∀ s l, Decidable (C s l)]
    (h : ls.foldlM (fun s l => if C s l then f s l else none) s = some t) :
    Run (Restrict (fun s l t => f s l = some t) C) s ls t := by
  refine (of_foldlM h).mono fun s l t hs => ?_
  split at hs
  · exact ⟨by assumption, hs⟩
  · cases hs

/-- **The invariant rule.** -/
theorem inv {I : S → Prop} (hstep : ∀ s l t, I s → step s l t → I t)
    (h : Run step s ls t) (hs : I s) : I t := by
  induction h with
  | nil => exact hs
  | cons hl _ ih => exact ih (hstep _ _ _ hs hl)

/-- **The relation rule**, under an invariant of the states passed through. -/
theorem rel {I : S → Prop} {R : S → S → Prop} (hrefl : ∀ s, R s s)
    (htrans : ∀ s t u, R s t → R t u → R s u)
    (hinv : ∀ s l t, I s → step s l t → I t) (hstep : ∀ s l t, I s → step s l t → R s t)
    (h : Run step s ls t) (hs : I s) : R s t := by
  induction h with
  | nil => exact hrefl _
  | cons hl _ ih => exact htrans _ _ _ (hstep _ _ _ hs hl) (ih (hinv _ _ _ hs hl))

end Run

end Aggregator
