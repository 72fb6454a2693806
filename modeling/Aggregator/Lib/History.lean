/-
  A map that is written over and over, and the history of the writes.

  A history is a list of keys and values, the last one written first; `current` is
  what the map holds.  The values have a time of their own, which need not be the
  order in which they are written.

  `current_upToDate_iff`: at no point of a history a key holds a value that is older
  than another one written to it, exactly if every write is at least as late as the
  value that it replaces.
-/
import Mathlib.Data.List.Infix
import Mathlib.Order.Defs.PartialOrder

namespace Aggregator

universe u v w
variable {κ : Type u} {ρ : Type v} {τ : Type w}

section
variable [DecidableEq κ]

/-- The last value written to a key. -/
def current (history : List (κ × ρ)) (k : κ) : Option ρ :=
  (history.find? fun write => write.1 = k).map Prod.snd

@[simp] theorem current_nil (k : κ) : current ([] : List (κ × ρ)) k = none := rfl

theorem current_cons (k' : κ) (r : ρ) (history : List (κ × ρ)) (k : κ) :
    current ((k', r) :: history) k = if k' = k then some r else current history k := by
  unfold current
  rw [List.find?_cons]
  split <;> simp_all

theorem mem_of_current {history : List (κ × ρ)} {k : κ} {r : ρ} (h : current history k = some r) :
    (k, r) ∈ history := by
  induction history with
  | nil => cases h
  | cons write history ih =>
    obtain ⟨k', r'⟩ := write
    rw [current_cons] at h
    split at h
    · rename_i hk
      obtain rfl := Option.some.inj h
      exact hk ▸ List.mem_cons_self
    · exact List.mem_cons_of_mem _ (ih h)

theorem exists_current {history : List (κ × ρ)} {k : κ} {r : ρ} (h : (k, r) ∈ history) :
    ∃ r', current history k = some r' := by
  induction history with
  | nil => cases h
  | cons write history ih =>
    obtain ⟨k', r'⟩ := write
    rw [current_cons]
    split
    · exact ⟨r', rfl⟩
    · rename_i hk
      rcases List.mem_cons.1 h with heq | h
      · exact absurd (congrArg Prod.fst heq).symm hk
      · exact ih h

end

variable [DecidableEq κ] [Preorder τ] {time : ρ → τ}

/-- No key holds a value that is older than another one written to it. -/
def UpToDate (time : ρ → τ) (history : List (κ × ρ)) : Prop :=
  ∀ k r, current history k = some r → ∀ r', (k, r') ∈ history → time r' ≤ time r

/-- A write that is at least as late as what it replaces keeps them up to date. -/
theorem UpToDate.cons {history : List (κ × ρ)} {k : κ} {r : ρ} (h : UpToDate time history)
    (hr : ∀ old, current history k = some old → time old ≤ time r) :
    UpToDate time ((k, r) :: history) := by
  intro k' r₁ hcurrent r' hr'
  rw [current_cons] at hcurrent
  split at hcurrent
  · rename_i hk
    subst hk
    obtain rfl := Option.some.inj hcurrent
    rcases List.mem_cons.1 hr' with heq | hr'
    · obtain rfl : r' = r := congrArg Prod.snd heq
      exact le_refl _
    · obtain ⟨old, hold⟩ := exists_current hr'
      exact le_trans (h k old hold r' hr') (hr old hold)
  · rename_i hk
    rcases List.mem_cons.1 hr' with heq | hr'
    · exact absurd (congrArg Prod.fst heq).symm hk
    · exact h k' r₁ hcurrent r' hr'

theorem current_upToDate_iff (history : List (κ × ρ)) :
    (∀ l, l <:+ history → UpToDate time l) ↔
      ∀ k r l, (k, r) :: l <:+ history → ∀ old, current l k = some old → time old ≤ time r := by
  constructor
  · intro h k r l hl old hold
    refine h _ hl k r (by rw [current_cons, if_pos rfl]) old ?_
    exact List.mem_cons_of_mem _ (mem_of_current hold)
  · intro h l hl
    induction l with
    | nil => exact fun k r hcurrent => nomatch hcurrent
    | cons write l ih =>
      obtain ⟨k, r⟩ := write
      exact (ih ((List.suffix_cons _ l).trans hl)).cons (h k r l hl)

end Aggregator
