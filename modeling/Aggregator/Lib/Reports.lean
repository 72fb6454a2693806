/-
  Reports to the rows of a table by several clients.

  A client writes a report in two statements: it is inserted as a row, unless there is
  one with its key, and then the row is updated with it.  `lay a r` is the row `r` with
  the report `a` laid over it; a report need not replace all columns.  The statements of
  different clients interleave.

  If laying reports over one another is associative, and a report makes no difference
  below itself (`lay a (lay b a) = lay a b`), the clients take effect one after the
  other, in the order of their updates:

  * `serial`: the row after some reports, the last one first;
  * `Board.serial_of_run`: in any interleaving the row of a key is that of the reports
    that are done; or it is that of these with one before them, whose client has not
    come to its update;
  * `serial_bind`: a column that a report replaces only if it has a value.
-/
import Aggregator.Lib.Run
import Aggregator.Lib.Table

namespace Aggregator

universe u v w
variable {κ : Type u} {ρ : Type v} {γ : Type w}

/-- The row after some reports, the last one first. -/
def serial (lay : ρ → ρ → ρ) : List ρ → Option ρ
  | [] => none
  | a :: l => some ((serial lay l).elim a (lay a))

section Serial
variable {lay : ρ → ρ → ρ}

theorem serial_eq_none {l : List ρ} : serial lay l = none ↔ l = [] := by
  cases l with
  | nil => simp [serial]
  | cons a l => simp [serial]

theorem serial_cons_of_some {l : List ρ} {r : ρ} (h : serial lay l = some r) (a : ρ) :
    serial lay (a :: l) = some (lay a r) := by
  rw [serial, h]
  rfl

/-- The last of the reports replaces a column. -/
theorem serial_map {c : ρ → γ} (hc : ∀ a r, c (lay a r) = c a) (l : List ρ) :
    (serial lay l).map c = l.head?.map c := by
  cases l with
  | nil => rfl
  | cons a l =>
    rw [serial]
    cases serial lay l with
    | none => rfl
    | some r => exact congrArg some (hc a r)

/-- A column with the last value that has been reported. -/
theorem serial_bind {c : ρ → Option γ} (hc : ∀ a r, c (lay a r) = (c a).or (c r)) (l : List ρ) :
    (serial lay l).bind c = l.findSome? c := by
  induction l with
  | nil => rfl
  | cons a l ih =>
    rw [List.findSome?_cons, ← ih, serial]
    cases serial lay l with
    | none => cases h : c a <;> simp [h]
    | some r =>
      show c (lay a r) = _
      rw [hc]
      cases c a <;> rfl

/-- One more report below the others. -/
theorem serial_concat (hassoc : ∀ a b c, lay a (lay b c) = lay (lay a b) c) {l : List ρ} {r : ρ}
    (h : serial lay l = some r) (a : ρ) : serial lay (l ++ [a]) = some (lay r a) := by
  induction l generalizing r with
  | nil => cases h
  | cons b l ih =>
    cases hl : serial lay l with
    | none =>
      obtain rfl := serial_eq_none.1 hl
      obtain rfl := Option.some.inj h
      rfl
    | some r' =>
      rw [serial_cons_of_some hl] at h
      obtain rfl := Option.some.inj h
      rw [List.cons_append, serial_cons_of_some (ih hl), hassoc]

variable {key : ρ → κ}

theorem key_serial (hkey : ∀ a r, key (lay a r) = key r) {k : κ} {l : List ρ}
    (hl : ∀ a ∈ l, key a = k) {r : ρ} (h : serial lay l = some r) : key r = k := by
  induction l generalizing r with
  | nil => cases h
  | cons a l ih =>
    obtain ⟨ha, hl⟩ := List.forall_mem_cons.1 hl
    cases hs : serial lay l with
    | none =>
      rw [serial, hs] at h
      obtain rfl := Option.some.inj h
      exact ha
    | some r' =>
      rw [serial_cons_of_some hs] at h
      obtain rfl := Option.some.inj h
      exact (hkey a r').trans (ih hl hs)

/-- A report below itself makes no difference. -/
theorem serial_absorb (hkey : ∀ a r, key (lay a r) = key r)
    (hassoc : ∀ a b c, lay a (lay b c) = lay (lay a b) c) (hidem : ∀ a, lay a a = a)
    (hbelow : ∀ a b, key a = key b → lay a (lay b a) = lay a b) {a : ρ} {l : List ρ}
    (hl : ∀ b ∈ l, key b = key a) : serial lay (a :: (l ++ [a])) = serial lay (a :: l) := by
  cases hs : serial lay l with
  | none =>
    obtain rfl := serial_eq_none.1 hs
    exact congrArg some (hidem a)
  | some r =>
    rw [serial_cons_of_some (serial_concat hassoc hs a), serial_cons_of_some hs,
      hbelow a r (key_serial hkey hl hs).symm]

end Serial

/-! ## Interleavings -/

/-- The two statements of a client. -/
inductive Statement (α : Type w)
  | insert (client : α)
  | update (client : α)

variable [DecidableEq κ] {α : Type w}

/-- The table, the clients between their two statements, and those that are done, the
    last one first. -/
structure Board (α : Type w) (key : ρ → κ) where
  table : Table key
  inFlight : List α
  done : List α

namespace Board
variable {key : ρ → κ} {lay : ρ → ρ → ρ} (hkey : ∀ a r, key (lay a r) = key r) (report : α → ρ)

def empty : Board α key := ⟨Table.empty, [], []⟩

/-- `UPDATE` of the row with the key of the report. -/
def put (t : Table key) (a : ρ) : Table key := t.update (fun r => key r = key a) (lay a) (hkey a)

/-- A client inserts its report, or updates the row with the one that it has inserted.
    One whose second statement fails stays in flight. -/
inductive Step : Board α key → Statement α → Board α key → Prop
  | insert {s c} : Step s (.insert c) ⟨s.table.insertNew (report c), c :: s.inFlight, s.done⟩
  | update {s c rest} : s.inFlight.Perm (c :: rest) →
      Step s (.update c) ⟨put hkey s.table (report c), rest, c :: s.done⟩

/-- The clients for a key that are done. -/
def doneFor (s : Board α key) (k : κ) : List α := s.done.filter fun c => key (report c) = k

/-- The row of each key is that of the reports that are done, or there is one before
    them whose client is between its statements. -/
structure Serial (lay : ρ → ρ → ρ) (s : Board α key) : Prop where
  held : ∀ c ∈ s.inFlight, (s.table.find (key (report c))).isSome
  row : ∀ k, s.table.find k = serial lay ((s.doneFor report k).map report) ∨
    ∃ c ∈ s.inFlight, key (report c) = k ∧
      s.table.find k = serial lay ((s.doneFor report k ++ [c]).map report)

theorem find_put (t : Table key) (a : ρ) (k : κ) :
    (put hkey t a).find k = if key a = k then (t.find k).map (lay a) else t.find k := by
  rw [put, Table.find_update]
  cases h : t.find k with
  | none => split <;> rfl
  | some r =>
    have hr : key r = k := Table.find_key h
    by_cases hk : key a = k
    · simp [hr, hk]
    · have hne : ¬key r = key a := fun heq => hk (heq.symm.trans hr)
      simp [hne, hk]

variable {hkey report}

theorem serial_empty : (empty : Board α key).Serial report lay :=
  ⟨nofun, fun _ => .inl rfl⟩

theorem key_of_mem_doneFor {s : Board α key} {k : κ} {c : α} (h : c ∈ s.doneFor report k) :
    key (report c) = k :=
  of_decide_eq_true (List.mem_filter.1 h).2

/-- A report is inserted. -/
theorem Serial.insert {s : Board α key} (h : s.Serial report lay) (c : α) :
    (⟨s.table.insertNew (report c), c :: s.inFlight, s.done⟩ : Board α key).Serial report lay := by
  constructor
  · intro b hb
    show ((s.table.insertNew (report c)).find (key (report b))).isSome
    rw [Table.find_insertNew]
    rcases List.mem_cons.1 hb with rfl | hb
    · cases s.table.find (key (report b)) <;> simp
    · obtain ⟨r, hr⟩ := Option.isSome_iff_exists.1 (h.held b hb)
      rw [hr]
      rfl
  · intro k
    show (s.table.insertNew (report c)).find k = serial lay ((s.doneFor report k).map report) ∨
      ∃ b ∈ c :: s.inFlight, key (report b) = k ∧ (s.table.insertNew (report c)).find k =
        serial lay ((s.doneFor report k ++ [b]).map report)
    rw [Table.find_insertNew]
    rcases h.row k with hrow | ⟨b, hb, hk, hrow⟩
    · cases hfind : s.table.find k with
      | some r =>
        left
        rw [← hrow, hfind]
        rfl
      | none =>
        -- the first report for this key, if it is one for it
        rw [hfind] at hrow
        by_cases hk : key (report c) = k
        · refine .inr ⟨c, List.mem_cons_self, hk, ?_⟩
          rw [List.map_append, serial_eq_none.1 hrow.symm, if_pos hk]
          rfl
        · left
          rw [if_neg hk, ← hrow]
          rfl
    · refine .inr ⟨b, List.mem_cons_of_mem _ hb, hk, ?_⟩
      obtain ⟨r, hr⟩ := Option.isSome_iff_exists.1 (h.held b hb)
      rw [hk] at hr
      rw [← hrow, hr]
      rfl

/-- A row is updated with a report that has been inserted. -/
theorem Serial.update (hassoc : ∀ a b c, lay a (lay b c) = lay (lay a b) c)
    (hidem : ∀ a, lay a a = a) (hbelow : ∀ a b, key a = key b → lay a (lay b a) = lay a b)
    {s : Board α key} (h : s.Serial report lay) {c : α} {rest : List α}
    (hc : s.inFlight.Perm (c :: rest)) :
    (⟨put hkey s.table (report c), rest, c :: s.done⟩ : Board α key).Serial report lay := by
  have hmem : ∀ b ∈ rest, b ∈ s.inFlight := fun b hb => hc.mem_iff.2 (List.mem_cons_of_mem c hb)
  constructor
  · intro b hb
    show ((put hkey s.table (report c)).find (key (report b))).isSome
    have hheld := h.held b (hmem b hb)
    rw [find_put]
    split
    · rwa [Option.isSome_map]
    · exact hheld
  · intro k
    show (put hkey s.table (report c)).find k =
        serial lay (((c :: s.done).filter fun b => key (report b) = k).map report) ∨
      ∃ b ∈ rest, key (report b) = k ∧ (put hkey s.table (report c)).find k =
        serial lay (((c :: s.done).filter (fun b => key (report b) = k) ++ [b]).map report)
    by_cases hk : key (report c) = k
    · rw [List.filter_cons_of_pos (by simpa using hk), find_put, if_pos hk]
      obtain ⟨r, hr⟩ := Option.isSome_iff_exists.1 (h.held c (hc.mem_iff.2 List.mem_cons_self))
      rw [hk] at hr
      rw [hr]
      rcases h.row k with hrow | ⟨b, hb, hbk, hrow⟩
      · rw [hr] at hrow
        exact .inl (serial_cons_of_some hrow.symm _).symm
      · rw [hr] at hrow
        have hnext : some (lay (report c) r) =
            serial lay (report c :: (s.doneFor report k ++ [b]).map report) :=
          (serial_cons_of_some hrow.symm _).symm
        rcases List.mem_cons.1 (hc.mem_iff.1 hb) with rfl | hb
        · -- the client whose report was inserted comes to its update
          left
          refine hnext.trans ?_
          rw [List.map_append]
          refine serial_absorb hkey hassoc hidem hbelow fun a ha => ?_
          obtain ⟨d, hd, rfl⟩ := List.mem_map.1 ha
          exact (key_of_mem_doneFor hd).trans hk.symm
        · exact .inr ⟨b, hb, hbk, hnext⟩
    · rw [List.filter_cons_of_neg (by simpa using hk), find_put, if_neg hk]
      rcases h.row k with hrow | ⟨b, hb, rfl, hrow⟩
      · exact .inl hrow
      · rcases List.mem_cons.1 (hc.mem_iff.1 hb) with rfl | hb
        · exact absurd rfl hk
        · exact .inr ⟨b, hb, rfl, hrow⟩

/-- The reports that a row is made of: those that are done, and possibly one below. -/
theorem Serial.exists_below {s : Board α key} (h : s.Serial report lay) (k : κ) :
    ∃ below : List α, (∀ c ∈ below, c ∈ s.inFlight) ∧
      s.table.find k = serial lay ((s.doneFor report k ++ below).map report) := by
  rcases h.row k with hrow | ⟨c, hc, -, hrow⟩
  · exact ⟨[], nofun, by rw [hrow, List.append_nil]⟩
  · refine ⟨[c], fun b hb => ?_, hrow⟩
    rwa [List.mem_singleton.1 hb]

/-- **Clients take effect one after the other**, in the order of their updates. -/
theorem serial_of_run (hassoc : ∀ a b c, lay a (lay b c) = lay (lay a b) c)
    (hidem : ∀ a, lay a a = a) (hbelow : ∀ a b, key a = key b → lay a (lay b a) = lay a b)
    {ss : List (Statement α)} {s : Board α key} (h : Run (Step hkey report) empty ss s) :
    s.Serial report lay := by
  refine h.inv (fun s l t hs hstep => ?_) serial_empty
  cases hstep with
  | insert => exact hs.insert _
  | update hc => exact hs.update hassoc hidem hbelow hc

end Board

end Aggregator
