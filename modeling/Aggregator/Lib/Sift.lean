/-
  Sifting a list: every element is either kept or reported, in order.

  * `Sifts keep report l kept reports`: `kept` is what is kept of `l`, each
    element as `keep` relates it to its outcome, and `reports` has one report
    for each of the others;
  * `Sifts.length_add`: nothing is lost or reported twice;
  * `Sifts.sublist`: what is kept is a sublist;
  * `Sifts.imp`, `Sifts.of_map`: other relations, and elements that are mapped
    before they are sifted.
-/
import Mathlib.Data.List.Basic

namespace Aggregator

variable {α β γ ι : Type}

inductive Sifts (keep : α → β → Prop) (report : α → ι → Prop) : List α → List β → List ι → Prop
  | nil : Sifts keep report [] [] []
  | kept {a b l kept reports} : keep a b → Sifts keep report l kept reports →
      Sifts keep report (a :: l) (b :: kept) reports
  | reported {a i l kept reports} : report a i → Sifts keep report l kept reports →
      Sifts keep report (a :: l) kept (i :: reports)

namespace Sifts

variable {keep : α → β → Prop} {report : α → ι → Prop} {l : List α} {kept : List β}
  {reports : List ι}

theorem length_add (h : Sifts keep report l kept reports) :
    kept.length + reports.length = l.length := by
  induction h with
  | nil => rfl
  | kept _ _ ih => simp only [List.length_cons]; omega
  | reported _ _ ih => simp only [List.length_cons]; omega

theorem sublist {f : α → β} (hf : ∀ a b, keep a b → b = f a)
    (h : Sifts keep report l kept reports) : kept.Sublist (l.map f) := by
  induction h with
  | nil => exact List.Sublist.slnil
  | kept hkeep _ ih =>
    rw [List.map_cons, hf _ _ hkeep]
    exact ih.cons_cons _
  | reported _ _ ih => exact ih.cons _

theorem imp {keep' : α → β → Prop} {report' : α → ι → Prop} (hkeep : ∀ a b, keep a b → keep' a b)
    (hreport : ∀ a i, report a i → report' a i) (h : Sifts keep report l kept reports) :
    Sifts keep' report' l kept reports := by
  induction h with
  | nil => exact .nil
  | kept ha _ ih => exact .kept (hkeep _ _ ha) ih
  | reported ha _ ih => exact .reported (hreport _ _ ha) ih

theorem of_map {keep : γ → β → Prop} {report : γ → ι → Prop} {f : α → γ}
    (h : Sifts keep report (l.map f) kept reports) :
    Sifts (fun a => keep (f a)) (fun a => report (f a)) l kept reports := by
  -- the induction is on the sifting, so the list has to be a variable
  generalize hl : l.map f = mapped at h
  induction h generalizing l with
  | nil =>
    obtain rfl := List.map_eq_nil_iff.1 hl
    exact .nil
  | kept hkeep _ ih =>
    obtain ⟨a, l, rfl, rfl, htail⟩ := List.map_eq_cons_iff.1 hl
    exact .kept hkeep (ih htail)
  | reported hreport _ ih =>
    obtain ⟨a, l, rfl, rfl, htail⟩ := List.map_eq_cons_iff.1 hl
    exact .reported hreport (ih htail)

end Sifts

end Aggregator
