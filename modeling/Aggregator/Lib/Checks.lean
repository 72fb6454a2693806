/-
  Computations that may fail, `Except ε`: what is known once they have
  succeeded.

  * `bind_eq_ok`: a sequence that succeeds has succeeded at each step;
    `map_eq_ok`, `mapError_eq_ok` and `mapError_eq_error` are for a computation
    whose value or error is mapped, `toOption_eq_some` for one whose error is dropped;
  * `check_eq_ok`, `guard_eq_ok`, `elseIf_eq_ok`, `ite_eq_ok`, `forM_eq_ok`: when
    a sequence or a loop of checks succeeds; `bind_ne_error`, `forM_ne_error`: errors that
    it does not end with;
  * `foldlM_induct`, `foldlM_keeps`: what every step of a fold preserves or
    keeps, the fold does; `foldlM_simulates`: nor do two folds differ whose steps agree;
    `foldlM_filter`: elements that a fold passes over may be left out;
  * `mem_of_mapM_ok`: a value of a list computed element by element is the
    value of an element; `mapM_eq_ok`: a loop whose steps all succeed.
-/
import Mathlib.Data.List.Basic

namespace Aggregator

universe u
variable {ε α β γ : Type u}

theorem bind_eq_ok {m : Except ε α} {f : α → Except ε β} {b : β} (h : (m >>= f) = .ok b) :
    ∃ a, m = .ok a ∧ f a = .ok b := by
  cases m with
  | error e => cases h
  | ok a => exact ⟨a, rfl, h⟩

/-- A check before a computation. -/
theorem check_eq_ok {m : Except ε PUnit} {f : PUnit → Except ε β} {b : β} :
    (m >>= f) = .ok b ↔ m = .ok ⟨⟩ ∧ f ⟨⟩ = .ok b := by
  cases m with
  | error e => exact iff_of_false nofun nofun
  | ok a => exact (and_iff_right rfl).symm

theorem guard_eq_ok {c : Prop} [Decidable c] {e : ε} {f : PUnit → Except ε β} {b : β} :
    (if c then .error e >>= f else f ⟨⟩) = .ok b ↔ ¬c ∧ f ⟨⟩ = .ok b := by
  split
  · rename_i hc
    exact iff_of_false nofun fun h => h.1 hc
  · rename_i hc
    exact (and_iff_right hc).symm

/-- A check before a computation, as a branch. -/
theorem elseIf_eq_ok {c : Prop} [Decidable c] {e : ε} {m : Except ε β} {b : β} :
    (if c then .error e else m) = .ok b ↔ ¬c ∧ m = .ok b := by
  split
  · rename_i hc
    exact iff_of_false nofun fun h => h.1 hc
  · rename_i hc
    exact (and_iff_right hc).symm

theorem isOk_iff {m : Except ε PUnit} : m.isOk = true ↔ m = .ok ⟨⟩ := by
  cases m with
  | error e => exact iff_of_false nofun nofun
  | ok _ => exact iff_of_true rfl rfl

theorem exists_ok_of_isOk {m : Except ε α} (h : m.isOk = true) : ∃ a, m = .ok a := by
  cases m with
  | error e => cases h
  | ok a => exact ⟨a, rfl⟩

theorem ite_eq_ok {c : Prop} [Decidable c] {e : ε} {b : β} :
    (if c then .error e else .ok b : Except ε β) = .ok b ↔ ¬c := by
  split <;> simp [*]

/-- A loop of checks. -/
theorem forM_eq_ok {check : α → Except ε PUnit.{u + 1}} {l : List α} :
    l.forM check = .ok ⟨⟩ ↔ ∀ a ∈ l, check a = .ok ⟨⟩ := by
  induction l with
  | nil => exact iff_of_true rfl nofun
  | cons a l ih =>
    show (check a >>= fun _ => l.forM check) = .ok ⟨⟩ ↔ _
    rw [check_eq_ok, ih, List.forall_mem_cons]

theorem bind_ne_error {e : ε} {m : Except ε α} {f : α → Except ε β} (hm : m ≠ .error e)
    (hf : ∀ a, f a ≠ .error e) : (m >>= f) ≠ .error e := by
  cases m with
  | error e' => exact fun h => hm (congrArg Except.error (Except.error.inj h))
  | ok a => exact hf a

theorem forM_ne_error {check : α → Except ε PUnit.{u + 1}} {e : ε} {l : List α}
    (h : ∀ a ∈ l, check a ≠ .error e) : l.forM check ≠ .error e := by
  induction l with
  | nil => exact fun heq => by cases heq
  | cons a l ih =>
    rw [List.forall_mem_cons] at h
    exact bind_ne_error h.1 fun _ => ih h.2

theorem map_eq_ok {m : Except ε α} {f : α → β} {b : β} (h : m.map f = .ok b) :
    ∃ a, m = .ok a ∧ f a = b := by
  cases m with
  | error e => cases h
  | ok a => exact ⟨a, rfl, Except.ok.inj h⟩

theorem mapError_eq_ok {m : Except ε α} {f : ε → γ} {a : α} :
    m.mapError f = .ok a ↔ m = .ok a := by
  cases m with
  | error e => exact iff_of_false nofun nofun
  | ok b => simp [Except.mapError]

theorem mapError_eq_error {m : Except ε α} {f : ε → γ} {e : γ} :
    m.mapError f = .error e ↔ ∃ e', m = .error e' ∧ e = f e' := by
  cases m with
  | error e' => simp [Except.mapError, eq_comm]
  | ok a => exact iff_of_false nofun nofun

theorem toOption_eq_some {m : Except ε α} {a : α} : m.toOption = some a ↔ m = .ok a := by
  cases m with
  | error e => exact iff_of_false nofun nofun
  | ok b => exact ⟨fun h => congrArg _ (Option.some.inj h), fun h => congrArg _ (Except.ok.inj h)⟩

/-- **The rule for a fold**: what every step preserves, the fold does. -/
theorem foldlM_induct {f : α → β → Except ε α} (P : α → Prop) {l : List β}
    (hf : ∀ b ∈ l, ∀ a a', P a → f a b = .ok a' → P a') {a a' : α} (ha : P a)
    (h : l.foldlM f a = .ok a') : P a' := by
  induction l generalizing a with
  | nil => obtain rfl := Except.ok.inj h; exact ha
  | cons b l ih =>
    rw [List.foldlM_cons] at h
    obtain ⟨c, hb, h⟩ := bind_eq_ok h
    exact ih (fun b hb => hf b (List.mem_cons_of_mem _ hb))
      (hf b List.mem_cons_self a c ha hb) h

/-- Elements at which a fold does nothing may be left out. -/
theorem foldlM_filter {m : Type u → Type u} [Monad m] [LawfulMonad m] {f : β → α → m β}
    {p : α → Bool} {l : List α} (h : ∀ a ∈ l, p a = false → ∀ b, f b a = pure b) (b : β) :
    (l.filter p).foldlM f b = l.foldlM f b := by
  induction l generalizing b with
  | nil => rfl
  | cons a l ih =>
    have ih := ih fun a' ha' => h a' (List.mem_cons_of_mem _ ha')
    rw [List.foldlM_cons]
    cases hp : p a with
    | true =>
      rw [List.filter_cons_of_pos hp, List.foldlM_cons]
      exact congrArg _ (funext ih)
    | false =>
      rw [List.filter_cons_of_neg (by simp [hp]), h a List.mem_cons_self hp b, pure_bind, ih]

theorem foldlM_keeps {f : α → β → Except ε α} (view : α → γ) {l : List β}
    (hf : ∀ b ∈ l, ∀ a a', f a b = .ok a' → view a' = view a) {a a' : α}
    (h : l.foldlM f a = .ok a') : view a' = view a :=
  foldlM_induct (fun c => view c = view a) (fun b hb c c' hc hstep => (hf b hb c c' hstep).trans hc)
    rfl h

/-- **A fold that simulates another**: `view` of each step is the step of the other, in
    the states that the fold passes through. -/
theorem foldlM_simulates {f : α → β → Except ε α} {g : γ → β → Except ε γ} (view : α → γ)
    (P : α → Prop) {l : List β} (hsim : ∀ b ∈ l, ∀ a, P a → (f a b).map view = g (view a) b)
    (hkeep : ∀ b ∈ l, ∀ a a', P a → f a b = .ok a' → P a') {a : α} (ha : P a) :
    (l.foldlM f a).map view = l.foldlM g (view a) := by
  induction l generalizing a with
  | nil => rfl
  | cons b l ih =>
    have hstep := hsim b List.mem_cons_self a ha
    rw [List.foldlM_cons, List.foldlM_cons, ← hstep]
    cases hb : f a b with
    | error e => rfl
    | ok a' =>
      exact ih (fun b hb => hsim b (List.mem_cons_of_mem _ hb))
        (fun b hb => hkeep b (List.mem_cons_of_mem _ hb)) (hkeep b List.mem_cons_self a a' ha hb)

theorem mem_of_mapM_ok {f : α → Except ε β} {l : List α} {l' : List β} (h : l.mapM f = .ok l')
    {b : β} (hb : b ∈ l') : ∃ a ∈ l, f a = .ok b := by
  induction l generalizing l' with
  | nil => obtain rfl := Except.ok.inj h; cases hb
  | cons a l ih =>
    rw [List.mapM_cons] at h
    obtain ⟨c, ha, h⟩ := bind_eq_ok h
    obtain ⟨cs, hl, h⟩ := bind_eq_ok h
    obtain rfl := Except.ok.inj h
    rcases List.mem_cons.1 hb with rfl | hb
    · exact ⟨a, List.mem_cons_self, ha⟩
    · obtain ⟨a', ha', hf⟩ := ih hl hb
      exact ⟨a', List.mem_cons_of_mem _ ha', hf⟩

theorem mapM_eq_ok {f : α → Except ε β} {g : α → β} {l : List α} (h : ∀ a ∈ l, f a = .ok (g a)) :
    l.mapM f = .ok (l.map g) := by
  induction l with
  | nil => rfl
  | cons a l ih =>
    obtain ⟨ha, hl⟩ := List.forall_mem_cons.1 h
    rw [List.mapM_cons, ha, ih hl]
    rfl

/-- What a loop takes over from the elements it maps. -/
theorem map_of_mapM_ok {f : α → Except ε β} {g : β → γ} {h : α → γ}
    (hf : ∀ a b, f a = .ok b → g b = h a) {l : List α} {l' : List β} (hl : l.mapM f = .ok l') :
    l'.map g = l.map h := by
  induction l generalizing l' with
  | nil => obtain rfl := Except.ok.inj hl; rfl
  | cons a l ih =>
    rw [List.mapM_cons] at hl
    obtain ⟨b, ha, hl⟩ := bind_eq_ok hl
    obtain ⟨bs, hbs, hl⟩ := bind_eq_ok hl
    obtain rfl := Except.ok.inj hl
    rw [List.map_cons, List.map_cons, hf a b ha, ih hbs]

end Aggregator
