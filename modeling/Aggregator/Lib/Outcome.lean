/-
  Postconditions of computations that may fail, `Except ε`.

  `Ends P E m` says how `m` ends: with a value that satisfies `P` or an error
  that satisfies `E`.

  * `ends_iff`: the two parts; `ends_bind`: a sequence, where the second
    computation is part of the postcondition of the first;
  * `Ends.bind`, `Ends.guard`, `Ends.mono`: the rules to prove a postcondition;
  * `ends_map`, `ends_mapM`: a value that is only used, and a loop that can fail
    in a single way;
  * `Ends.foldlM`, `Ends.foldlM_error`: a loop with a state, and one with a step
    that fails.
-/
import Mathlib.Data.List.Basic

namespace Aggregator

universe u
variable {ε α β : Type u} {P : α → Prop} {Q : β → Prop} {E : ε → Prop}

def Ends (P : α → Prop) (E : ε → Prop) (m : Except ε α) : Prop :=
  match m with
  | .ok a => P a
  | .error e => E e

@[simp] theorem ends_ok {a : α} : Ends P E (.ok a) ↔ P a := Iff.rfl

@[simp] theorem ends_pure {a : α} : Ends P E (pure a) ↔ P a := Iff.rfl

@[simp] theorem ends_error {e : ε} : Ends P E (.error e) ↔ E e := Iff.rfl

instance [DecidablePred P] [DecidablePred E] (m : Except ε α) : Decidable (Ends P E m) :=
  match m with
  | .ok a => inferInstanceAs (Decidable (P a))
  | .error e => inferInstanceAs (Decidable (E e))

instance decidableForallOk [DecidablePred P] (m : Except ε α) : Decidable (∀ a, m = .ok a → P a) :=
  match m with
  | .error _ => .isTrue nofun
  | .ok a => decidable_of_iff (P a) ⟨fun h _ heq => Except.ok.inj heq ▸ h, fun h => h a rfl⟩

theorem ends_iff {m : Except ε α} :
    Ends P E m ↔ (∀ a, m = .ok a → P a) ∧ ∀ e, m = .error e → E e := by
  cases m <;> simp

theorem Ends.ok {m : Except ε α} (h : Ends P E m) {a : α} (hm : m = .ok a) : P a :=
  (ends_iff.1 h).1 a hm

theorem ends_bind {m : Except ε α} {f : α → Except ε β} :
    Ends Q E (m >>= f) ↔ Ends (fun a => Ends Q E (f a)) E m := by
  cases m <;> rfl

theorem Ends.mono {P' : α → Prop} {E' : ε → Prop} {m : Except ε α} (h : Ends P E m)
    (hP : ∀ a, P a → P' a) (hE : ∀ e, E e → E' e) : Ends P' E' m := by
  cases m with
  | error e => exact hE e h
  | ok a => exact hP a h

theorem Ends.bind {m : Except ε α} {f : α → Except ε β} (hm : Ends P E m)
    (hf : ∀ a, P a → Ends Q E (f a)) : Ends Q E (m >>= f) :=
  ends_bind.2 (hm.mono hf fun _ h => h)

/-- A check that returns an error. -/
theorem Ends.guard {c : Prop} [Decidable c] {e : ε} {f : PUnit → Except ε β} (he : E e)
    (h : Ends Q E (f ⟨⟩)) : Ends Q E (if c then .error e >>= f else f ⟨⟩) := by
  split
  · exact he
  · exact h

theorem ends_map {m : Except ε α} {f : α → β} :
    Ends Q E (do let a ← m; return f a) ↔ Ends (fun a => Q (f a)) E m := by
  cases m <;> rfl

/-- A loop whose body fails only with errors that the postcondition excludes. -/
theorem ends_mapM {f : α → Except ε β} (hf : ∀ a e, f a = .error e → ¬E e) (l : List α) :
    Ends (fun _ => True) E (l.mapM f) ↔ ∀ a ∈ l, Ends (fun _ => True) E (f a) := by
  induction l with
  | nil => simp
  | cons a l ih =>
    rw [List.mapM_cons, List.forall_mem_cons, ← ih, ends_bind]
    cases ha : f a with
    | error e =>
      have he := hf a e ha
      simp [he]
    | ok b => rw [ends_ok, ends_map, ends_ok, true_and]

/-- A loop each of whose steps keeps the postcondition. -/
theorem Ends.foldlM {f : α → β → Except ε α} {l : List β}
    (hf : ∀ b ∈ l, ∀ a, P a → Ends P E (f a b)) {a : α} (ha : P a) : Ends P E (l.foldlM f a) := by
  induction l generalizing a with
  | nil => exact ha
  | cons b l ih =>
    rw [List.foldlM_cons]
    refine (hf b List.mem_cons_self a ha).bind fun a' ha' => ?_
    exact ih (fun c hc => hf c (List.mem_cons_of_mem _ hc)) ha'

/-- A loop with a step that fails, whatever it is given. -/
theorem Ends.foldlM_error {f : α → β → Except ε α} {l : List β}
    (hf : ∀ b ∈ l, ∀ a, Ends (fun _ => True) E (f a b))
    (hfails : ∃ b ∈ l, ∀ a, Ends (fun _ => False) E (f a b)) (a : α) :
    Ends (fun _ => False) E (l.foldlM f a) := by
  induction l generalizing a with
  | nil =>
    obtain ⟨b, hb, -⟩ := hfails
    cases hb
  | cons b l ih =>
    rw [List.foldlM_cons]
    obtain ⟨c, hc, hfail⟩ := hfails
    rcases List.mem_cons.1 hc with rfl | hc
    · exact (hfail a).bind fun _ h => h.elim
    · refine (hf b List.mem_cons_self a).bind fun a' _ => ?_
      exact ih (fun c hc => hf c (List.mem_cons_of_mem _ hc)) ⟨c, hc, hfail⟩ a'

end Aggregator
