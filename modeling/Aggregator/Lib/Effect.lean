/-
  Programs that change a state and may fail, `ExceptT ε (StateM σ)`: the state
  changes made before a failure stay.

  `exec m s` is the outcome of `m` from `s` and the state it leaves.  `Effect R m`
  says that `m`, however it ends, relates the state before it to the state after
  it by `R`; for a reflexive and transitive `R` the effect of a program follows
  from the effects of its parts (`Effect.pure`, `Effect.throw`, `Effect.bind`,
  `Effect.tryCatch`, `Effect.forM`).  `Returns m s Q` is total: from `s`, `m`
  succeeds and `Q` holds of its value and the state it leaves.
-/
import Mathlib.Order.Defs.Unbundled

namespace Aggregator

universe u
variable {σ ε α β : Type u}

/-- The outcome of a program and the state it leaves. -/
def exec (m : ExceptT ε (StateM σ) α) (s : σ) : Except ε α × σ := StateT.run (ExceptT.run m) s

theorem exec_bind (m : ExceptT ε (StateM σ) α) (f : α → ExceptT ε (StateM σ) β) (s : σ) :
    exec (m >>= f) s =
      match exec m s with
      | (.ok a, t) => exec (f a) t
      | (.error e, t) => (.error e, t) := by
  rcases h : exec m s with ⟨e | a, t⟩ <;>
    simp only [exec, ExceptT.run_bind, StateT.run_bind] at h ⊢ <;> rw [h] <;> rfl

theorem exec_bind_ok {m : ExceptT ε (StateM σ) α} {f : α → ExceptT ε (StateM σ) β} {s t : σ}
    {a : α} (h : exec m s = (.ok a, t)) : exec (m >>= f) s = exec (f a) t := by
  rw [exec_bind, h]

theorem exec_bind_error {m : ExceptT ε (StateM σ) α} {f : α → ExceptT ε (StateM σ) β} {s t : σ}
    {e : ε} (h : exec m s = (.error e, t)) : exec (m >>= f) s = (.error e, t) := by
  rw [exec_bind, h]

theorem exec_tryCatch (m : ExceptT ε (StateM σ) α) (f : ε → ExceptT ε (StateM σ) α) (s : σ) :
    exec (tryCatch m f) s =
      match exec m s with
      | (.ok a, t) => (.ok a, t)
      | (.error e, t) => exec (f e) t := by
  rcases h : exec m s with ⟨e | a, t⟩ <;>
    simp only [exec, ExceptT.run_tryCatch, StateT.run_bind] at h ⊢ <;> rw [h] <;> rfl

/-- A program that then fails leaves its state. -/
theorem exec_bind_throw (m : ExceptT ε (StateM σ) α) (e : ε) (s : σ) :
    (exec (m >>= fun _ => (MonadExcept.throw e : ExceptT ε (StateM σ) β)) s).2 = (exec m s).2 := by
  rw [exec_bind]
  rcases exec m s with ⟨e' | a, t⟩ <;> rfl

/-- So does one whose error is dropped. -/
theorem exec_tryCatch_pure (m : ExceptT ε (StateM σ) α) (a : α) (s : σ) :
    (exec (tryCatch m fun _ => pure a) s).2 = (exec m s).2 := by
  rw [exec_tryCatch]
  rcases exec m s with ⟨e | b, t⟩ <;> rfl

/-- A sequence that succeeds has succeeded at each step. -/
theorem exec_bind_eq_ok {m : ExceptT ε (StateM σ) α} {f : α → ExceptT ε (StateM σ) β} {s u : σ}
    {b : β} (h : exec (m >>= f) s = (.ok b, u)) :
    ∃ a t, exec m s = (.ok a, t) ∧ exec (f a) t = (.ok b, u) := by
  rw [exec_bind] at h
  rcases hs : exec m s with ⟨e | a, t⟩ <;> rw [hs] at h
  · cases h
  · exact ⟨a, t, rfl, h⟩

theorem exec_tryCatch_eq_ok {m : ExceptT ε (StateM σ) α} {f : ε → ExceptT ε (StateM σ) α}
    {s t : σ} {a : α} (h : exec (tryCatch m f) s = (.ok a, t))
    (hf : ∀ e u, exec (f e) u ≠ (.ok a, t)) : exec m s = (.ok a, t) := by
  rw [exec_tryCatch] at h
  rcases hs : exec m s with ⟨e | a, t⟩ <;> rw [hs] at h
  · exact absurd h (hf e t)
  · exact h

/-- However `m` ends, it relates the state before it to the state after it. -/
def Effect (R : σ → σ → Prop) (m : ExceptT ε (StateM σ) α) : Prop := ∀ s, R s (exec m s).2

namespace Effect
variable {R : σ → σ → Prop}

section Refl
variable [Std.Refl R]

theorem pure (a : α) : Effect R (Pure.pure a : ExceptT ε (StateM σ) α) := fun s => Std.Refl.refl s

theorem throw (e : ε) : Effect R (MonadExcept.throw e : ExceptT ε (StateM σ) α) :=
  fun s => Std.Refl.refl s

/-- The effect of what follows a program is that of the continuation. -/
theorem after_bind {m : ExceptT ε (StateM σ) α} {f : α → ExceptT ε (StateM σ) β} (s : σ)
    (hf : ∀ a, Effect R (f a)) : R (exec m s).2 (exec (m >>= f) s).2 := by
  rw [exec_bind]
  rcases exec m s with ⟨e | a, t⟩
  · exact Std.Refl.refl t
  · exact hf a t

theorem after_tryCatch {m : ExceptT ε (StateM σ) α} {f : ε → ExceptT ε (StateM σ) α} (s : σ)
    (hf : ∀ e, Effect R (f e)) : R (exec m s).2 (exec (MonadExcept.tryCatch m f) s).2 := by
  rw [exec_tryCatch]
  rcases exec m s with ⟨e | a, t⟩
  · exact hf e t
  · exact Std.Refl.refl t

end Refl

section Trans
variable [IsTrans σ R] {m : ExceptT ε (StateM σ) α}

/-- **The sequencing rule**, from one state. -/
theorem bind_at {f : α → ExceptT ε (StateM σ) β} {s : σ} (hm : R s (exec m s).2)
    (hf : ∀ a t, exec m s = (.ok a, t) → R t (exec (f a) t).2) : R s (exec (m >>= f) s).2 := by
  rw [exec_bind]
  rcases hs : exec m s with ⟨e | a, t⟩ <;> rw [hs] at hm
  · exact hm
  · exact IsTrans.trans _ _ _ hm (hf a t hs)

theorem tryCatch_at {f : ε → ExceptT ε (StateM σ) α} {s : σ} (hm : R s (exec m s).2)
    (hf : ∀ e, Effect R (f e)) : R s (exec (MonadExcept.tryCatch m f) s).2 := by
  rw [exec_tryCatch]
  rcases hs : exec m s with ⟨e | a, t⟩ <;> rw [hs] at hm
  · exact IsTrans.trans _ _ _ hm (hf e t)
  · exact hm

/-- The second program is run on a value the first one can return. -/
theorem bind_of_ok {f : α → ExceptT ε (StateM σ) β} (hm : Effect R m)
    (hf : ∀ s a t, exec m s = (.ok a, t) → Effect R (f a)) : Effect R (m >>= f) :=
  fun s => bind_at (hm s) fun a t h => hf s a t h t

theorem bind {f : α → ExceptT ε (StateM σ) β} (hm : Effect R m) (hf : ∀ a, Effect R (f a)) :
    Effect R (m >>= f) :=
  bind_of_ok hm fun _ a _ _ => hf a

theorem tryCatch {f : ε → ExceptT ε (StateM σ) α} (hm : Effect R m) (hf : ∀ e, Effect R (f e)) :
    Effect R (MonadExcept.tryCatch m f) :=
  fun s => tryCatch_at (hm s) hf

end Trans

theorem forM [Std.Refl R] [IsTrans σ R] {f : α → ExceptT ε (StateM σ) PUnit} {l : List α}
    (hf : ∀ a ∈ l, Effect R (f a)) : Effect R (l.forM f) := by
  induction l with
  | nil => exact pure _
  | cons a l ih =>
    exact bind (hf a List.mem_cons_self) fun _ => ih fun b hb => hf b (List.mem_cons_of_mem _ hb)

end Effect

/-- From `s`, `m` succeeds, and `Q` holds of its value and the state it
    leaves. -/
def Returns (m : ExceptT ε (StateM σ) α) (s : σ) (Q : α → σ → Prop) : Prop :=
  ∃ a t, exec m s = (.ok a, t) ∧ Q a t

namespace Returns
variable {m : ExceptT ε (StateM σ) α} {s : σ} {P Q : α → σ → Prop}

theorem pure {a : α} (h : Q a s) : Returns (Pure.pure a : ExceptT ε (StateM σ) α) s Q :=
  ⟨a, s, rfl, h⟩

theorem mono (hm : Returns m s P) (h : ∀ a t, P a t → Q a t) : Returns m s Q := by
  obtain ⟨a, t, hs, ht⟩ := hm
  exact ⟨a, t, hs, h a t ht⟩

theorem bind {f : α → ExceptT ε (StateM σ) β} {Q : β → σ → Prop} (hm : Returns m s P)
    (hf : ∀ a t, P a t → Returns (f a) t Q) : Returns (m >>= f) s Q := by
  obtain ⟨a, t, hs, ht⟩ := hm
  obtain ⟨b, u, hu, hQ⟩ := hf a t ht
  exact ⟨b, u, by rw [exec_bind_ok hs, hu], hQ⟩

theorem tryCatch {f : ε → ExceptT ε (StateM σ) α} (hm : Returns m s Q) :
    Returns (MonadExcept.tryCatch m f) s Q := by
  obtain ⟨a, t, hs, ht⟩ := hm
  exact ⟨a, t, by rw [exec_tryCatch, hs], ht⟩

end Returns

end Aggregator
