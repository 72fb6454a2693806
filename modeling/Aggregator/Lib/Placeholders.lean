/-
  Texts with numbered placeholders `$1`, `$2`, … and the list of values they
  stand for.

  `scan` reads a text: `$` with the digits behind it is a placeholder, every
  other character itself.  A `Writer` holds a text and the values written so
  far; `writeText` and `prependText` add text to it and `writeArg` a value, with
  a placeholder of the next number.  A `Slot` is a value that may be missing.

  * `Means w meant`: read with its values in place of the placeholders, the text
    of `w` is `meant`, and every value has a placeholder; there is a rule for
    each of the operations;
  * `Means.bind`, `Means.param_iff`: what that says of the text as it is read;
  * `Alike`: two writers with the same text, whatever their values are, and the
    rules for it.
-/
import Mathlib.Data.List.Basic

namespace Aggregator.Placeholders

/-- What a text is read as. -/
inductive Token where
  | char (c : Char)
  | param (n : ℕ)
deriving DecidableEq

/-- A text with values in it. -/
inductive Piece (ν : Type) where
  | char (c : Char)
  | value (v : ν)
deriving DecidableEq

/-- One character, in front of some digits and of what is read behind them. -/
def step (c : Char) (rest : List Char × List Token) : List Char × List Token :=
  if c.isDigit then (c :: rest.1, rest.2)
  else if c = '$' ∧ rest.1 ≠ [] then ([], .param (Nat.ofDigitChars 10 rest.1 0) :: rest.2)
  else ([], .char c :: (rest.1.map .char ++ rest.2))

/-- A text as it is read. -/
def scan (text : String) : List Token :=
  let (digits, tokens) := text.toList.foldr step ([], [])
  digits.map .char ++ tokens

example : scan "a = $12 or $" =
    [.char 'a', .char ' ', .char '=', .char ' ', .param 12, .char ' ', .char 'o', .char 'r',
      .char ' ', .char '$'] := by decide

variable {ν : Type}

/-- The value of a token.  The placeholders are counted from 1. -/
def Token.bind (args : List ν) : Token → Option (Piece ν)
  | .char c => some (.char c)
  | .param 0 => none
  | .param (n + 1) => args[n]?.map .value

/-- A text without placeholders. -/
def literal (s : String) : List (Piece ν) := s.toList.map .char

/-- Characters that add no placeholder and none of the digits of one. -/
def plainChars (cs : List Char) : Bool :=
  cs.all (· ≠ '$') && (cs.head?.all fun c => !c.isDigit)

/-- A text that adds no placeholder and none of the digits of one. -/
def plain (s : String) : Bool := plainChars s.toList

/-- A literal is checked through its characters. -/
theorem plain_ofList {cs : List Char} (h : plainChars cs = true) :
    plain (String.ofList cs) = true := by
  rw [plain, String.toList_ofList]
  exact h

theorem plain_append {s t : String} (hs : plain s = true) (ht : plain t = true) :
    plain (s ++ t) = true := by
  simp only [plain, plainChars, Bool.and_eq_true, String.toList_append, List.all_append] at *
  refine ⟨⟨hs.1, ht.1⟩, ?_⟩
  cases hlist : s.toList with
  | nil => exact ht.2
  | cons c cs =>
    rw [hlist] at hs
    exact hs.2

/-- The placeholder of the value with the number `n`. -/
def placeholder (n : ℕ) : String := "$" ++ toString n

/-! ## How a text is read -/

/-- A part of a text as it is read in front of anything but a digit. -/
def Reads (s : String) (tokens : List Token) : Prop :=
  ∀ rest, s.toList.foldr step ([], rest) = ([], tokens ++ rest)

theorem Reads.append {s t : String} {k l : List Token} (hs : Reads s k) (ht : Reads t l) :
    Reads (s ++ t) (k ++ l) := by
  intro rest
  rw [String.toList_append, List.foldr_append, ht, hs, List.append_assoc]

theorem Reads.scan {s : String} {tokens : List Token} (h : Reads s tokens) :
    scan s = tokens := by
  simp [Placeholders.scan, h []]

/-- Without a `$`, the characters are read one by one. -/
theorem foldr_step_of_not_mem {l : List Char} (hl : '$' ∉ l) (st : List Char × List Token) :
    (l.foldr step st).1.map Token.char ++ (l.foldr step st).2 =
      l.map .char ++ (st.1.map .char ++ st.2) := by
  induction l with
  | nil => rfl
  | cons c l ih =>
    obtain ⟨hc, hl⟩ := not_or.1 (mt List.mem_cons.2 hl)
    rw [List.foldr_cons, step]
    split_ifs with hdigit hdollar
    · simp [ih hl]
    · exact absurd hdollar.1.symm hc
    · simp [ih hl]

theorem reads_plain {s : String} (h : plain s = true) : Reads s (s.toList.map .char) := by
  rw [plain, plainChars, Bool.and_eq_true, List.all_eq_true] at h
  obtain ⟨hdollar, hfirst⟩ := h
  intro rest
  have hnot : '$' ∉ s.toList := fun hmem => absurd rfl (of_decide_eq_true (hdollar _ hmem))
  have hread := foldr_step_of_not_mem hnot ([], rest)
  -- the first character takes the digits behind it
  have hnone : (s.toList.foldr step ([], rest)).1 = [] := by
    cases hs : s.toList with
    | nil => rfl
    | cons c l =>
      rw [hs] at hfirst hnot
      have hc : c.isDigit = false := by simpa using hfirst
      have hne : c ≠ '$' := fun heq => hnot (heq ▸ List.mem_cons_self)
      simp [List.foldr_cons, step, hc, hne]
  refine Prod.ext hnone ?_
  rw [hnone] at hread
  exact hread

theorem reads_placeholder (n : ℕ) : Reads (placeholder n) [.param n] := by
  intro rest
  have hdigits : ∀ l : List Char, (∀ c ∈ l, c.isDigit = true) →
      l.foldr step ([], rest) = (l, rest) := by
    intro l hl
    induction l with
    | nil => rfl
    | cons c l ih =>
      rw [List.foldr_cons, ih fun c hc => hl c (List.mem_cons_of_mem _ hc), step,
        if_pos (hl c List.mem_cons_self)]
  have hlist : (placeholder n).toList = '$' :: Nat.toDigits 10 n := by
    rw [placeholder, String.toList_append, Nat.toString_eq_repr, Nat.toList_repr]
    rfl
  rw [hlist, List.foldr_cons,
    hdigits _ fun c hc => Nat.isDigit_of_mem_toDigits (by decide) (by decide) hc, step, if_neg (by decide),
    if_pos ⟨rfl, Nat.toDigits_ne_nil⟩, Nat.ofDigitChars_toDigits (by decide) (by decide)]
  rfl

/-! ## Writers -/

/-- A text under construction and its values. -/
structure Writer (ν : Type) where
  text : String
  args : List ν
deriving DecidableEq

/-- A value that may be missing, with the texts around its placeholders. -/
structure Slot (ν : Type) where
  before : List String
  value : Option ν
  after : String

/-- What a slot writes, with its value in place. -/
def Slot.pieces (f : Slot ν) : List (Piece ν) :=
  match f.value with
  | some v => (f.before.flatMap fun s => literal s ++ [.value v]) ++ literal f.after
  | none => []

/-- The texts of a slot add no placeholder of their own. -/
structure Slot.Plain (f : Slot ν) : Prop where
  ne_nil : f.before ≠ []
  before : ∀ s ∈ f.before, plain s = true
  after : plain f.after = true

namespace Writer

def writeText (w : Writer ν) (s : String) : Writer ν := { w with text := w.text ++ s }

def prependText (w : Writer ν) (s : String) : Writer ν := { w with text := s ++ w.text }

/-- The value gets the next number; its placeholder is written after each of
    `before`, and `after` behind the last. -/
def writeArgs (w : Writer ν) (before : List String) (v : ν) (after : String) : Writer ν where
  text := w.text ++
    String.join (before.map fun s => s ++ placeholder (w.args.length + 1)) ++ after
  args := w.args ++ [v]

/-- A value with one placeholder. -/
def writeArg (w : Writer ν) (before : String) (v : ν) (after : String) : Writer ν where
  text := w.text ++ before ++ placeholder (w.args.length + 1) ++ after
  args := w.args ++ [v]

/-- A slot is left out where its value is missing. -/
def writeSlot (w : Writer ν) (f : Slot ν) : Writer ν :=
  match f.value with
  | some v => w.writeArgs f.before v f.after
  | none => w

def writeSlots (w : Writer ν) (slots : List (Slot ν)) : Writer ν := slots.foldl writeSlot w

/-- Read with its values, the text is `meant`, and each value is read. -/
def Means (w : Writer ν) (meant : List (Piece ν)) : Prop :=
  ∃ tokens, Reads w.text tokens ∧ tokens.map (Token.bind w.args) = meant.map some ∧
    ∀ i < w.args.length, Token.param (i + 1) ∈ tokens

/-- Two writers with the same text and as many values. -/
def Alike (w w' : Writer ν) : Prop := w.text = w'.text ∧ w.args.length = w'.args.length

variable {w w' : Writer ν} {meant : List (Piece ν)}

/-- More values do not change what is read. -/
theorem bind_append {args : List ν} {tokens : List Token} (h : tokens.map (Token.bind args) = meant.map some)
    (more : List ν) : tokens.map (Token.bind (args ++ more)) = meant.map some := by
  rw [← h]
  refine List.map_congr_left fun token htoken => ?_
  obtain ⟨piece, -, hpiece⟩ : ∃ piece ∈ meant, some piece = token.bind args := by
    simpa using (h ▸ List.mem_map_of_mem htoken : token.bind args ∈ meant.map some)
  cases token with
  | char c => rfl
  | param n =>
    cases n with
    | zero => rfl
    | succ n =>
      rw [Token.bind] at hpiece ⊢
      have hn : n < args.length := by
        by_contra hge
        rw [List.getElem?_eq_none (Nat.le_of_not_lt hge)] at hpiece
        cases hpiece
      rw [Token.bind, List.getElem?_append_left hn]

theorem means_nil (ν : Type) : (⟨"", []⟩ : Writer ν).Means [] :=
  ⟨[], fun _ => rfl, rfl, nofun⟩

/-- The characters of a text stand for themselves. -/
theorem bind_literal (args : List ν) (s : String) :
    (s.toList.map Token.char).map (Token.bind args) = (literal s).map some := by
  rw [literal, List.map_map, List.map_map]
  rfl

theorem Means.writeText (h : w.Means meant) {s : String} (hs : plain s = true) :
    (w.writeText s).Means (meant ++ literal s) := by
  obtain ⟨tokens, hreads, hbind, hall⟩ := h
  refine ⟨tokens ++ s.toList.map .char, hreads.append (reads_plain hs), ?_, fun i hi =>
    List.mem_append_left _ (hall i hi)⟩
  rw [List.map_append, List.map_append, ← bind_literal w.args]
  exact congrArg (· ++ _) hbind

theorem Means.prependText (h : w.Means meant) {s : String} (hs : plain s = true) :
    (w.prependText s).Means (literal s ++ meant) := by
  obtain ⟨tokens, hreads, hbind, hall⟩ := h
  refine ⟨s.toList.map Token.char ++ tokens, (reads_plain hs).append hreads, ?_, fun i hi =>
    List.mem_append_right _ (hall i hi)⟩
  rw [List.map_append, List.map_append, ← bind_literal w.args]
  exact congrArg (_ ++ ·) hbind

/-- The placeholders of a new value: it is read in each of their places. -/
theorem reads_join {before : List String} (hbefore : ∀ s ∈ before, plain s = true) (args : List ν)
    (v : ν) :
    ∃ tokens, Reads (String.join (before.map fun s => s ++ placeholder (args.length + 1))) tokens ∧
      tokens.map (Token.bind (args ++ [v])) =
        (before.flatMap fun s => literal s ++ [.value v]).map some ∧
      (before ≠ [] → Token.param (args.length + 1) ∈ tokens) := by
  induction before with
  | nil => exact ⟨[], fun _ => rfl, rfl, fun h => absurd rfl h⟩
  | cons s before ih =>
    obtain ⟨tokens, hreads, hbind, -⟩ := ih fun t ht => hbefore t (List.mem_cons_of_mem _ ht)
    refine ⟨(s.toList.map .char ++ [.param (args.length + 1)]) ++ tokens, ?_, ?_, fun _ => by simp⟩
    · rw [List.map_cons, String.join_cons]
      exact ((reads_plain (hbefore s List.mem_cons_self)).append (reads_placeholder _)).append hreads
    · rw [List.map_append, hbind, List.flatMap_cons, List.map_append, List.map_append,
        List.map_append, bind_literal]
      simp [Token.bind]

theorem Means.writeArgs (h : w.Means meant) {before : List String} (hne : before ≠ [])
    (hbefore : ∀ s ∈ before, plain s = true) (v : ν) {after : String} (hafter : plain after = true) :
    (w.writeArgs before v after).Means
      (meant ++ (before.flatMap fun s => literal s ++ [.value v]) ++
        literal after) := by
  obtain ⟨tokens, hreads, hbind, hall⟩ := h
  obtain ⟨new, hnew, hnewbind, hmem⟩ := reads_join hbefore w.args v
  refine ⟨tokens ++ new ++ after.toList.map .char,
    (hreads.append hnew).append (reads_plain hafter), ?_, ?_⟩
  · rw [List.map_append, List.map_append, List.map_append, List.map_append]
    exact congrArg₂ (· ++ ·) (congrArg₂ (· ++ ·) (bind_append hbind [v]) hnewbind)
      (bind_literal _ after)
  · intro i hi
    refine List.mem_append_left _ ?_
    rcases Nat.lt_or_ge i w.args.length with hlt | hge
    · exact List.mem_append_left _ (hall i hlt)
    · obtain rfl : i = w.args.length := by
        have : (w.writeArgs before v after).args.length = w.args.length + 1 := List.length_append
        omega
      exact List.mem_append_right _ (hmem hne)

theorem Means.writeSlot (h : w.Means meant) {f : Slot ν} (hf : f.Plain) :
    (w.writeSlot f).Means (meant ++ f.pieces) := by
  unfold Writer.writeSlot Slot.pieces
  cases f.value with
  | none => rwa [List.append_nil]
  | some v =>
    rw [← List.append_assoc]
    exact h.writeArgs hf.ne_nil hf.before v hf.after

theorem Means.writeSlots (h : w.Means meant) {slots : List (Slot ν)}
    (hslots : ∀ f ∈ slots, f.Plain) :
    (w.writeSlots slots).Means (meant ++ slots.flatMap Slot.pieces) := by
  induction slots generalizing w meant with
  | nil => simpa [Writer.writeSlots] using h
  | cons f slots ih =>
    obtain ⟨hf, hslots⟩ := List.forall_mem_cons.1 hslots
    rw [List.flatMap_cons, ← List.append_assoc]
    exact ih (h.writeSlot hf) hslots

theorem writeArg_eq (w : Writer ν) (before : String) (v : ν) (after : String) :
    w.writeArg before v after = w.writeArgs [before] v after := by
  simp [writeArg, writeArgs, String.append_assoc]

theorem Means.writeArg (h : w.Means meant) (before : String) (hbefore : plain before = true) (v : ν)
    (after : String) (hafter : plain after = true) :
    (w.writeArg before v after).Means
      (meant ++ (literal before ++ [.value v]) ++ literal after) := by
  rw [writeArg_eq]
  simpa using h.writeArgs (List.cons_ne_nil before []) (List.forall_mem_singleton.2 hbefore) v hafter

/-- **Each placeholder has its value**: the text, as it is read, is what was
    meant. -/
theorem Means.bind (h : w.Means meant) :
    (scan w.text).map (Token.bind w.args) = meant.map some := by
  obtain ⟨tokens, hreads, hbind, -⟩ := h
  rw [hreads.scan, hbind]

/-- The placeholders are the numbers of the values. -/
theorem Means.param_iff (h : w.Means meant) (n : ℕ) :
    Token.param n ∈ scan w.text ↔ 1 ≤ n ∧ n ≤ w.args.length := by
  obtain ⟨tokens, hreads, hbind, hall⟩ := h
  rw [hreads.scan]
  constructor
  · intro hn
    obtain ⟨piece, -, hpiece⟩ : ∃ piece ∈ meant, some piece = (Token.param n).bind w.args := by
      simpa using (hbind ▸ List.mem_map_of_mem hn : (Token.param n).bind w.args ∈ meant.map some)
    cases n with
    | zero => cases hpiece
    | succ n =>
      refine ⟨Nat.le_add_left 1 n, ?_⟩
      by_contra hge
      rw [Token.bind, List.getElem?_eq_none (by omega)] at hpiece
      cases hpiece
  · rintro ⟨hpos, hle⟩
    obtain ⟨m, rfl⟩ := Nat.exists_eq_succ_of_ne_zero (Nat.one_le_iff_ne_zero.1 hpos)
    exact hall m hle

/-! ## Writers with the same text -/

theorem Alike.rfl : w.Alike w := ⟨Eq.refl _, Eq.refl _⟩

theorem Alike.writeText (h : w.Alike w') (s : String) : (w.writeText s).Alike (w'.writeText s) :=
  ⟨congrArg (· ++ s) h.1, h.2⟩

theorem Alike.prependText (h : w.Alike w') (s : String) :
    (w.prependText s).Alike (w'.prependText s) :=
  ⟨congrArg (s ++ ·) h.1, h.2⟩

theorem Alike.writeArgs (h : w.Alike w') (before : List String) (v v' : ν) (after : String) :
    (w.writeArgs before v after).Alike (w'.writeArgs before v' after) := by
  refine ⟨?_, by simp [Writer.writeArgs, h.2]⟩
  simp only [Writer.writeArgs, h.1, h.2]

/-- Slots with the same texts of which the same are missing. -/
theorem Alike.writeSlots (h : w.Alike w') {slots slots' : List (Slot ν)}
    (hslots : List.Forall₂ (fun f f' => f.before = f'.before ∧ f.after = f'.after ∧
      f.value.isSome = f'.value.isSome) slots slots') :
    (w.writeSlots slots).Alike (w'.writeSlots slots') := by
  induction hslots generalizing w w' with
  | nil => exact h
  | @cons f f' slots slots' hf _ ih =>
    obtain ⟨hbefore, hafter, hvalue⟩ := hf
    refine ih ?_
    unfold Writer.writeSlot
    rw [hbefore, hafter]
    revert hvalue
    cases f.value with
    | none =>
      cases f'.value with
      | none => exact fun _ => h
      | some v' => exact nofun
    | some v =>
      cases f'.value with
      | none => exact nofun
      | some v' => exact fun _ => h.writeArgs f'.before v v' f'.after

theorem Alike.writeArg (h : w.Alike w') (before : String) (v v' : ν) (after : String) :
    (w.writeArg before v after).Alike (w'.writeArg before v' after) := by
  rw [writeArg_eq, writeArg_eq]
  exact h.writeArgs [before] v v' after

end Writer

end Aggregator.Placeholders
