/-
  Replacing keys in a text, one after the other and all at once.

  A table lists keys and their values.  `replaceAll key value` replaces the
  occurrences of one key from left to right; `substitute table` reads a text
  once and replaces whichever key stands at a place.

  The keys of a table are `Apart` if no key begins inside another, so that the
  occurrences of all keys in a text are disjoint.  A replaced value may still
  make up a new occurrence of a key, with the text around it or by itself; it
  then stays in the text that is substituted at once.

  * `replaceAll_render`: one replacement, on a text where some of the keys are
    replaced already;
  * `foldl_replaceAll`: if no key is left in the text substituted at once, the
    replacements in any order give that text;
  * `substitute_eq_flatMap`, `tokens_mapValues`: the text substituted at once, token
    by token, and tokens for other values;
  * `splitOn_flatMap`: splitting a text that is made up of tokens.
-/
import Mathlib.Data.List.Infix
import Mathlib.Data.List.Nodup

namespace Aggregator.Substitute

variable {α : Type*}

/-- No key begins inside a key. -/
def Apart (keys : List (List α)) : Prop :=
  [] ∉ keys ∧ ∀ p ∈ keys, ∀ q ∈ keys, ∀ y ∈ p.tails, y ≠ [] → (y <+: q ∨ q <+: y) → y = p ∧ p = q

instance [DecidableEq α] (keys : List (List α)) : Decidable (Apart keys) :=
  inferInstanceAs (Decidable (_ ∧ _))

/-! ## Keys that are apart -/

section Apart
variable {keys : List (List α)} (h : Apart keys) {p q : List α} (hp : p ∈ keys) (hq : q ∈ keys)

include h hp hq

/-- No key begins inside another one. -/
theorem Apart.not_begins_inside {y t : List α} (hy : y <:+ q) (hne : y ≠ []) (hpq : p ≠ q) :
    ¬p <+: y ++ t := by
  intro hpre
  have hcompare := List.prefix_or_prefix_of_prefix hpre (List.prefix_append y t)
  obtain ⟨-, heq⟩ := h.2 q hq p hp y ((List.mem_tails y q).2 hy) hne hcompare.symm
  exact hpq heq.symm

/-- No key begins in a text without it and ends in a key behind it. -/
theorem Apart.not_begins_before {y t : List α} (hne : y ≠ []) (hy : ¬p <+: y) :
    ¬p <+: y ++ (q ++ t) := by
  intro hpre
  rcases List.prefix_or_prefix_of_prefix hpre (List.prefix_append y (q ++ t)) with hle | ⟨z, hz⟩
  · exact hy hle
  · -- the rest of the key is the beginning of the other
    subst hz
    have hrest : z <+: q ++ t := (List.prefix_append_right_inj y).1 hpre
    have hcompare := List.prefix_or_prefix_of_prefix hrest (List.prefix_append q t)
    have hz : z ≠ [] := fun hz => hy (by simp [hz])
    obtain ⟨heq, -⟩ := h.2 (y ++ z) hp q hq z ((List.mem_tails _ _).2 (List.suffix_append y z)) hz
      hcompare
    exact hne (List.append_left_eq_self.1 heq.symm)

end Apart

/-! ## The two ways to replace -/

variable [DecidableEq α]

/-- The text behind `skip` more characters of a replaced key. -/
def replaceFrom (key value : List α) : ℕ → List α → List α
  | _, [] => []
  | skip + 1, _ :: s => replaceFrom key value skip s
  | 0, c :: s =>
    if key <+: c :: s then value ++ replaceFrom key value (key.length - 1) s
    else c :: replaceFrom key value 0 s

/-- The occurrences of a key, from left to right. -/
def replaceAll (key value s : List α) : List α := replaceFrom key value 0 s

/-- A text as characters and entries of a table, behind `skip` more characters
    of a key. -/
def tokensFrom (table : List (List α × List α)) : ℕ → List α → List (α ⊕ (List α × List α))
  | _, [] => []
  | skip + 1, _ :: s => tokensFrom table skip s
  | 0, c :: s =>
    match table.find? fun entry => entry.1 <+: c :: s with
    | some entry => .inr entry :: tokensFrom table (entry.1.length - 1) s
    | none => .inl c :: tokensFrom table 0 s

/-- A text as characters and entries of a table. -/
def tokens (table : List (List α × List α)) (s : List α) : List (α ⊕ (List α × List α)) :=
  tokensFrom table 0 s

/-- A text of which the entries in `done` have been replaced. -/
def render (done : List (List α × List α)) (ts : List (α ⊕ (List α × List α))) : List α :=
  ts.flatMap fun
    | .inl c => [c]
    | .inr entry => if entry ∈ done then entry.2 else entry.1

/-- All keys at once. -/
def substitute (table : List (List α × List α)) (s : List α) : List α :=
  render table (tokens table s)

/-! ## One key -/

section Key
variable {key value : List α}

theorem replaceFrom_eq_drop (n : ℕ) (s : List α) :
    replaceFrom key value n s = replaceAll key value (s.drop n) := by
  induction s generalizing n with
  | nil => cases n <;> rfl
  | cons c s ih =>
    cases n with
    | zero => rfl
    | succ n => exact ih n

theorem replaceAll_key (hkey : key ≠ []) (s : List α) :
    replaceAll key value (key ++ s) = value ++ replaceAll key value s := by
  obtain ⟨c, rest, rfl⟩ := List.exists_cons_of_ne_nil hkey
  rw [List.cons_append, replaceAll, replaceFrom, if_pos ⟨s, rfl⟩, replaceFrom_eq_drop]
  simp

theorem replaceAll_cons {c : α} {s : List α} (h : ¬key <+: c :: s) :
    replaceAll key value (c :: s) = c :: replaceAll key value s := by
  rw [replaceAll, replaceFrom, if_neg h]
  rfl

/-- A part of a text where the key does not begin is kept. -/
theorem replaceAll_append {s t : List α} (h : ∀ y ∈ s.tails, y ≠ [] → ¬key <+: y ++ t) :
    replaceAll key value (s ++ t) = s ++ replaceAll key value t := by
  induction s with
  | nil => rfl
  | cons c s ih =>
    have hfirst : ¬key <+: c :: (s ++ t) := h (c :: s) (by simp) (List.cons_ne_nil c s)
    rw [List.cons_append, replaceAll_cons hfirst, ih fun y hy => h y (by simp [hy]),
      List.cons_append]

theorem replaceAll_eq_self {s : List α} (h : ¬key <:+: s) : replaceAll key value s = s := by
  have hkept : replaceAll key value (s ++ []) = s ++ [] := by
    refine replaceAll_append fun y hy _ hpre => ?_
    rw [List.append_nil] at hpre
    exact h (hpre.isInfix.trans ((List.mem_tails y s).1 hy).isInfix)
  rwa [List.append_nil] at hkept

end Key

/-! ## Replacing one after the other -/

section Table
variable {table : List (List α × List α)} (h : Apart (table.map Prod.fst))

theorem mem_table_of_mem_tokens {s : List α} {entry : List α × List α}
    (hmem : .inr entry ∈ tokens table s) : entry ∈ table := by
  have hfrom : ∀ n, .inr entry ∈ tokensFrom table n s → entry ∈ table := by
    clear hmem
    induction s with
    | nil => intro n hn; cases n <;> cases hn
    | cons c s ih =>
      intro n hn
      cases n with
      | succ n => exact ih n hn
      | zero =>
        rw [tokensFrom] at hn
        cases hfind : table.find? fun entry => entry.1 <+: c :: s with
        | none =>
          rw [hfind] at hn
          exact ih 0 ((List.mem_cons.1 hn).resolve_left nofun)
        | some first =>
          rw [hfind] at hn
          rcases List.mem_cons.1 hn with heq | hn
          · obtain rfl := Sum.inr.inj heq
            exact List.mem_of_find?_eq_some hfind
          · exact ih _ hn
  exact hfrom 0 hmem

omit h in
/-- The text with all keys replaced, token by token. -/
theorem substitute_eq_flatMap (table : List (List α × List α)) (s : List α) :
    substitute table s = (tokens table s).flatMap (Sum.elim (fun c => [c]) Prod.snd) := by
  refine List.flatMap_congr fun t ht => ?_
  cases t with
  | inl c => rfl
  | inr e => exact if_pos (mem_table_of_mem_tokens ht)

omit h in
/-- The tokens of a text depend on the keys only. -/
theorem tokens_mapValues (table : List (List α × List α)) (f : List α → List α) (s : List α) :
    tokens (table.map (Prod.map id f)) s =
      (tokens table s).map (Sum.map id (Prod.map id f)) := by
  have hfrom : ∀ n, tokensFrom (table.map (Prod.map id f)) n s =
      (tokensFrom table n s).map (Sum.map id (Prod.map id f)) := by
    induction s with
    | nil => intro n; cases n <;> rfl
    | cons c s ih =>
      intro n
      cases n with
      | succ n => exact ih n
      | zero =>
        have hfind : ((table.map (Prod.map id f)).find? fun entry => entry.1 <+: c :: s) =
            (table.find? fun entry => entry.1 <+: c :: s).map (Prod.map id f) :=
          List.find?_map
        rw [tokensFrom, tokensFrom, hfind]
        cases table.find? fun entry => entry.1 <+: c :: s with
        | none => exact congrArg _ (ih 0)
        | some entry => exact congrArg _ (ih _)
  exact hfrom 0

omit h in
theorem render_inr (done : List (List α × List α)) (e : List α × List α)
    (ts : List (α ⊕ (List α × List α))) :
    render done (.inr e :: ts) = (if e ∈ done then e.2 else e.1) ++ render done ts := rfl

include h

/-- The text itself: nothing has been replaced. -/
theorem render_nil (s : List α) : render [] (tokens table s) = s := by
  have hfrom : ∀ n, render [] (tokensFrom table n s) = s.drop n := by
    induction s with
    | nil => intro n; cases n <;> rfl
    | cons c s ih =>
      intro n
      cases n with
      | succ n => exact ih n
      | zero =>
        rw [tokensFrom]
        cases hfind : table.find? fun entry => entry.1 <+: c :: s with
        | none => exact congrArg (c :: ·) (ih 0)
        | some entry =>
          obtain ⟨rest, hrest⟩ : entry.1 <+: c :: s := by simpa using List.find?_some hfind
          have hne : entry.1 ≠ [] := fun hnil => h.1
            (List.mem_map.2 ⟨entry, List.mem_of_find?_eq_some hfind, hnil⟩)
          obtain ⟨d, key, hkey⟩ := List.exists_cons_of_ne_nil hne
          rw [hkey, List.cons_append] at hrest
          obtain ⟨rfl, rfl⟩ := List.cons.inj hrest
          show (if entry ∈ [] then entry.2 else entry.1) ++
            render [] (tokensFrom table (entry.1.length - 1) _) = _
          rw [if_neg List.not_mem_nil, ih, hkey]
          simp
  exact hfrom 0

/-- A key before which the replaced one does not occur, nor starts. -/
theorem replaceAll_before_key {entry e : List α × List α} (hentry : entry ∈ table) (he : e ∈ table)
    {seg : List α} (hclean : ¬entry.1 <:+: seg) (s : List α) :
    replaceAll entry.1 entry.2 (seg ++ (e.1 ++ s)) =
      seg ++ replaceAll entry.1 entry.2 (e.1 ++ s) := by
  refine replaceAll_append fun y hy hne => h.not_begins_before (List.mem_map_of_mem hentry)
    (List.mem_map_of_mem he) hne fun hpre => hclean ?_
  exact hpre.isInfix.trans ((List.mem_tails y seg).1 hy).isInfix

/-- Another key is left as it is. -/
theorem replaceAll_other_key {entry e : List α × List α} (hentry : entry ∈ table) (he : e ∈ table)
    (hne : entry.1 ≠ e.1) (s : List α) :
    replaceAll entry.1 entry.2 (e.1 ++ s) = e.1 ++ replaceAll entry.1 entry.2 s :=
  replaceAll_append fun y hy hy' => h.not_begins_inside (List.mem_map_of_mem hentry)
    (List.mem_map_of_mem he) ((List.mem_tails y e.1).1 hy) hy' hne

/-- **One replacement**, on a text where the entries in `done` are replaced.  The
    text before the first key that is not is `seg`; the induction is on what
    follows. -/
theorem replaceAll_render (hnodup : (table.map Prod.fst).Nodup) {entry : List α × List α}
    (hentry : entry ∈ table) {done : List (List α × List α)} (hdone : entry ∉ done)
    {ts : List (α ⊕ (List α × List α))} (hts : ∀ e, .inr e ∈ ts → e ∈ table) (seg : List α)
    (hclean : ¬entry.1 <:+: seg ++ render table ts) :
    replaceAll entry.1 entry.2 (seg ++ render done ts) = seg ++ render (done ++ [entry]) ts := by
  induction ts generalizing seg with
  | nil =>
    refine (congrArg _ (List.append_nil seg)).trans ((replaceAll_eq_self ?_).trans
      (List.append_nil seg).symm)
    exact fun hin => hclean (hin.trans (List.prefix_append _ _).isInfix)
  | cons t ts ih =>
    have hts' : ∀ e, .inr e ∈ ts → e ∈ table := fun e he => hts e (List.mem_cons_of_mem _ he)
    cases t with
    | inl c =>
      have hnext := ih hts' (seg ++ [c])
      simp only [List.append_assoc] at hnext
      exact hnext hclean
    | inr e =>
      have he : e ∈ table := hts e List.mem_cons_self
      have hall : render table (.inr e :: ts) = e.2 ++ render table ts := by
        rw [render_inr, if_pos he]
      rw [hall] at hclean
      by_cases hreplaced : e ∈ done
      · -- its value belongs to the text before the next key
        rw [render_inr, render_inr, if_pos hreplaced, if_pos (List.mem_append_left _ hreplaced),
          ← List.append_assoc, ← List.append_assoc]
        rw [← List.append_assoc] at hclean
        exact ih hts' _ hclean
      have hseg : ¬entry.1 <:+: seg := fun hin => hclean (hin.trans (List.prefix_append _ _).isInfix)
      have hrest : replaceAll entry.1 entry.2 (render done ts) = render (done ++ [entry]) ts := by
        refine ih hts' [] fun hin => hclean ?_
        rw [← List.append_assoc]
        exact hin.trans (List.suffix_append _ _).isInfix
      rw [render_inr, render_inr, if_neg hreplaced, replaceAll_before_key h hentry he hseg]
      by_cases heq : e = entry
      · subst heq
        have hne : e.1 ≠ [] := fun hnil => h.1 (hnil ▸ List.mem_map_of_mem he)
        rw [if_pos (List.mem_append_right _ (List.mem_singleton_self e)), replaceAll_key hne, hrest]
      · have hother : e ∉ done ++ [entry] := by simp [hreplaced, heq]
        have hkeys : entry.1 ≠ e.1 := fun hsame =>
          heq (List.inj_on_of_nodup_map hnodup he hentry hsame.symm)
        rw [if_neg hother, replaceAll_other_key h hentry he hkeys, hrest]

/-- **The replacements in any order** give the text substituted at once, if no
    key is left in that. -/
theorem foldl_replaceAll (hnodup : (table.map Prod.fst).Nodup) {s : List α}
    (hclean : ∀ entry ∈ table, ¬entry.1 <:+: substitute table s)
    {order : List (List α × List α)} (horder : order.Perm table) :
    order.foldl (fun s entry => replaceAll entry.1 entry.2 s) s = substitute table s := by
  have hnodup' : order.Nodup := horder.nodup_iff.2 hnodup.of_map
  -- the entries replaced so far are an initial part of the order
  have hfold : ∀ done rest, done ++ rest = order →
      rest.foldl (fun s entry => replaceAll entry.1 entry.2 s) (render done (tokens table s)) =
        render order (tokens table s) := by
    intro done rest
    induction rest generalizing done with
    | nil => rintro rfl; rw [List.append_nil, List.foldl_nil]
    | cons entry rest ih =>
      intro hsplit
      have hentry : entry ∈ table := horder.mem_iff.1 (hsplit ▸ by simp)
      have hdone : entry ∉ done := by
        rw [← hsplit, List.nodup_append] at hnodup'
        exact fun hmem => hnodup'.2.2 entry hmem entry List.mem_cons_self rfl
      have hstep := replaceAll_render h hnodup hentry hdone
        (fun e he => mem_table_of_mem_tokens he) [] (hclean entry hentry)
      rw [List.nil_append, List.nil_append] at hstep
      rw [List.foldl_cons, hstep]
      refine ih (done ++ [entry]) ?_
      rw [List.append_assoc, List.singleton_append, hsplit]
  have horderEq : render order (tokens table s) = substitute table s := by
    refine List.flatMap_congr fun t _ => ?_
    cases t with
    | inl c => rfl
    | inr e => simp only [horder.mem_iff]
  rw [← horderEq, ← hfold [] order rfl, render_nil h]

end Table

/-! ## Splitting -/

section Split
variable {γ β : Type*} [BEq β] [LawfulBEq β] {sep : β} {isSep : γ → Bool}

theorem splitOn_append_of_notMem {s : List β} (hs : sep ∉ s) (t : List β) :
    (s ++ t).splitOn sep = (t.splitOn sep).modifyHead (s ++ ·) := by
  induction s with
  | nil =>
    rw [List.nil_append]
    cases t.splitOn sep <;> rfl
  | cons c s ih =>
    have hc : c ≠ sep := fun h => hs (h ▸ List.mem_cons_self)
    rw [List.cons_append, List.splitOn_cons_eq_if_modifyHead, if_neg (by simpa using hc),
      ih fun h => hs (List.mem_cons_of_mem _ h), List.modifyHead_modifyHead]
    rfl

/-- A text that is made up of tokens is split at the tokens that stand for the
    separator, if it occurs in no other. -/
theorem splitOn_flatMap {f : γ → List β} {l : List γ}
    (hsep : ∀ x ∈ l, isSep x = true → f x = [sep]) (hother : ∀ x ∈ l, isSep x = false → sep ∉ f x) :
    (l.flatMap f).splitOn sep = (l.splitOnP isSep).map fun part => part.flatMap f := by
  induction l with
  | nil => rfl
  | cons x l ih =>
    have hrest := ih (fun y hy => hsep y (List.mem_cons_of_mem _ hy)) fun y hy =>
      hother y (List.mem_cons_of_mem _ hy)
    rw [List.flatMap_cons, List.splitOnP_cons_eq_if_modifyHead]
    cases hx : isSep x with
    | true =>
      rw [if_pos rfl, hsep x List.mem_cons_self hx, List.singleton_append,
        List.splitOn_cons_eq_if_modifyHead, if_pos (BEq.rfl), hrest]
      rfl
    | false =>
      rw [if_neg Bool.false_ne_true, splitOn_append_of_notMem (hother x List.mem_cons_self hx),
        hrest]
      cases l.splitOnP isSep <;> rfl

theorem mem_of_mem_splitOnP {x : γ} {l part : List γ} (hpart : part ∈ l.splitOnP isSep)
    (hx : x ∈ part) : x ∈ l := by
  induction l generalizing part with
  | nil =>
    obtain rfl := List.mem_singleton.1 hpart
    exact hx
  | cons y l ih =>
    rw [List.splitOnP_cons_eq_if_modifyHead] at hpart
    split at hpart
    · rcases List.mem_cons.1 hpart with rfl | hpart
      · cases hx
      · exact List.mem_cons_of_mem _ (ih hpart hx)
    · cases hsplit : l.splitOnP isSep with
      | nil =>
        rw [hsplit] at hpart
        cases hpart
      | cons head parts =>
        rw [hsplit] at hpart ih
        rcases List.mem_cons.1 hpart with rfl | hpart
        · rcases List.mem_cons.1 hx with rfl | hx
          · exact List.mem_cons_self
          · exact List.mem_cons_of_mem _ (ih List.mem_cons_self hx)
        · exact List.mem_cons_of_mem _ (ih (List.mem_cons_of_mem _ hpart) hx)

end Split

end Aggregator.Substitute
