/-
  What a server can send (`readRESP` of `internal/realtime/redis.go`).

  `Replies n bytes out` is the form of the bytes with `n` replies before `out`, and
  `Begins bytes depth start` says that a reply inside of `depth` arrays begins at
  `start`, all that comes before it being well-formed.  Neither knows of a stack or of
  the memory.

  * `readRESP_cases`: what one call does, for the first byte that there is;
  * `Replies.yields`, `replies_of_readRESP`: the replies are what is read, unless the
    reader crashes;
  * `readRESP_completes_iff`: it returns a reply or an error if no reply begins that is
    nested too deep or has a header which asks for too much memory.
-/
import Aggregator.Realtime.Resp

namespace Aggregator.Realtime

open Aggregator.Go

variable {close : ReadError}

/-- The bytes are `n` replies, and then `out`. -/
inductive Replies (close : ReadError) : ℕ → Value → Value → Prop
  | zero {out} : Replies close 0 out out
  | simple {n tail line rest out} : readLine close tail = .ok (line, rest) →
      Replies close n rest out → Replies close (n + 1) ('+'.toUInt8 :: tail) out
  | integer {n tail line value rest out} : readLine close tail = .ok (line, rest) →
      parseLine "ParseInt" line = .ok value →
      Replies close n rest out → Replies close (n + 1) (':'.toUInt8 :: tail) out
  | null {n bytes kind size rest out} : kind = '$' ∨ kind = '*' →
      Header close bytes kind size rest → size < 0 →
      Replies close n rest out → Replies close (n + 1) bytes out
  | bulk {n bytes size value rest out} : Header close bytes '$' size (value ++ rest) →
      0 ≤ size → (value.length : ℤ) = size + 2 →
      Replies close n rest out → Replies close (n + 1) bytes out
  | array {n bytes size rest mid out} : Header close bytes '*' size rest → 0 ≤ size →
      Replies close size.toNat rest mid →
      Replies close n mid out → Replies close (n + 1) bytes out

/-- A reply begins at `start`, inside of `depth` arrays. -/
inductive Begins (close : ReadError) : Value → ℕ → Value → Prop
  | here {bytes} : Begins close bytes 0 bytes
  | item {bytes size rest} {i : ℕ} {mid depth start} : Header close bytes '*' size rest → i < size →
      Replies close i rest mid → Begins close mid depth start →
      Begins close bytes (depth + 1) start

/-- The header asks for more memory than there can be. -/
def Oversized (close : ReadError) (start : Value) : Prop :=
  (∃ size rest, Header close start '$' size rest ∧ maxAlloc < size + 2) ∨
    ∃ size rest, Header close start '*' size rest ∧ maxAlloc < replySize * size

/-! ## One call -/

def Stop.isCrash : Stop → Bool
  | .error _ => false
  | .panic _ | .stackOverflow => true

/-- The computation ends with a panic or a stack overflow. -/
def Crashes {α : Type} (m : Except Stop α) : Prop := ∃ s, m = .error s ∧ s.isCrash

theorem parseLine_bounds {fn : String} {line : Value} {n : ℤ} (h : parseLine fn line = .ok n) :
    int64Min ≤ n ∧ n ≤ int64Max := by
  unfold parseLine at h
  split at h
  · cases h
  · obtain rfl := Except.ok.inj h
    exact parseInt_bounds (by assumption)

theorem Header.le_max {bytes rest : Value} {kind : Char} {size : ℤ}
    (h : Header close bytes kind size rest) : size ≤ int64Max := by
  obtain ⟨line, tail, -, -, hsize⟩ := h
  exact (parseLine_bounds hsize).2

/-- `size + 2` wraps around to a negative number, or it is the size. -/
theorem make_bulk {size : ℤ} (h₀ : 0 ≤ size) (h₁ : size ≤ int64Max) (text : String) :
    make 1 (wrap64 (size + 2)) text =
      if maxAlloc < size + 2 then .error (.panic text) else .ok () := by
  unfold make
  refine if_congr ?_ rfl rfl
  unfold wrap64 int64Min maxAlloc
  unfold int64Max at h₁
  omega

theorem make_array {size : ℤ} (h₀ : 0 ≤ size) (text : String) :
    make replySize size text =
      if maxAlloc < replySize * size then .error (.panic text) else .ok () := by
  unfold make
  exact if_congr (by omega) rfl rfl

theorem readLine_cases (close : ReadError) (bytes : Value) :
    (∃ err, readLine close bytes = .error (.error err)) ∨
      ∃ line rest, readLine close bytes = .ok (line, rest) := by
  unfold readLine
  split
  · exact .inl ⟨_, rfl⟩
  · exact .inr ⟨_, _, rfl⟩

theorem parseLine_cases (fn : String) (line : Value) :
    (∃ err, parseLine fn line = .error (.error err)) ∨ ∃ n, parseLine fn line = .ok n := by
  unfold parseLine
  split
  · exact .inl ⟨_, rfl⟩
  · exact .inr ⟨_, rfl⟩

theorem readFull_cases (close : ReadError) (size : ℕ) (bytes : Value) :
    (∃ err, readFull close size bytes = .error (.error err)) ∨
      ∃ value rest, readFull close size bytes = .ok (value, rest) ∧ bytes = value ++ rest ∧
        value.length = size := by
  unfold readFull
  split_ifs with hsize
  · refine .inr ⟨_, _, rfl, (List.take_append_drop size bytes).symm, ?_⟩
    rw [List.length_take, min_eq_left hsize]
  · exact .inl ⟨_, rfl⟩
  · exact .inl ⟨_, rfl⟩

/-- The line of a header, or the error that the call returns. -/
theorem header_cases (close : ReadError) {kind : Char} (hkind : kind = '$' ∨ kind = '*')
    (stack : ℕ) (tail : Value) :
    (∃ err, readRESP close (stack + 1) (kind.toUInt8 :: tail) = .error (.error err)) ∨
      ∃ size rest, Header close (kind.toUInt8 :: tail) kind size rest := by
  rcases readLine_cases close tail with ⟨err, hline⟩ | ⟨line, rest, hline⟩
  · have hmem : kind ∈ ['+', '-', ':', '$', '*'] := by rcases hkind with rfl | rfl <;> decide
    exact .inl ⟨err, readRESP_line_error hmem hline stack⟩
  · rcases parseLine_cases "Atoi" line with ⟨err, hsize⟩ | ⟨size, hsize⟩
    · refine .inl ⟨err, ?_⟩
      rcases hkind with rfl | rfl <;> simp +decide [readRESP, hline, hsize, bind, Except.bind]
    · exact .inr ⟨size, rest, line, tail, rfl, hline, hsize⟩

/-- What a call can do: it ends with an error, with a reply, with a panic at a header
    that is too large, or it reads the items of an array. -/
inductive ReadCall (close : ReadError) (stack : ℕ) (bytes : Value) : Prop
  | error (err) (h : readRESP close (stack + 1) bytes = .error (.error err))
  | reply (reply rest) (h : readRESP close (stack + 1) bytes = .ok (reply, rest))
      (form : ∀ n out, Replies close n rest out → Replies close (n + 1) bytes out)
  | panic (text) (large : Oversized close bytes)
      (h : readRESP close (stack + 1) bytes = .error (.panic text))
  | items (size rest) (header : Header close bytes '*' size rest) (nonneg : 0 ≤ size)
      (h : readRESP close (stack + 1) bytes =
        (readMany (readRESP close stack) size.toNat [] rest).map
          (fun r => ({ array := r.1 }, r.2)))

theorem call_bulk {bytes rest : Value} {size : ℤ} (h : Header close bytes '$' size rest)
    (hsize : 0 ≤ size) (stack : ℕ) : ReadCall close stack bytes := by
  have hcall := readRESP_bulk h hsize stack
  rw [make_bulk hsize h.le_max] at hcall
  split at hcall
  · rename_i hover
    exact .panic _ (.inl ⟨size, rest, h, hover⟩) hcall
  · rcases readFull_cases close (size + 2).toNat rest with
      ⟨err, hfull⟩ | ⟨value, rest', hfull, rfl, hlength⟩
    · rw [hfull] at hcall
      exact .error _ hcall
    · rw [hfull] at hcall
      exact .reply _ _ hcall fun n out hn => .bulk h hsize (by omega) hn

theorem call_array {bytes rest : Value} {size : ℤ} (h : Header close bytes '*' size rest)
    (hsize : 0 ≤ size) (stack : ℕ) : ReadCall close stack bytes := by
  have hcall := readRESP_array h hsize stack
  rw [make_array hsize] at hcall
  split at hcall
  · rename_i hover
    exact .panic _ (.inr ⟨size, rest, h, hover⟩) hcall
  · exact .items _ _ h hsize hcall

theorem call_header (close : ReadError) {kind : Char} (hkind : kind = '$' ∨ kind = '*') (stack : ℕ)
    (tail : Value) : ReadCall close stack (kind.toUInt8 :: tail) := by
  rcases header_cases close hkind stack tail with ⟨err, h⟩ | ⟨size, rest, h⟩
  · exact .error err h
  rcases lt_or_ge size 0 with hsize | hsize
  · exact .reply _ rest (readRESP_nil hkind h hsize stack) fun n out => .null hkind h hsize
  rcases hkind with rfl | rfl
  · exact call_bulk h hsize stack
  · exact call_array h hsize stack

theorem readRESP_cases (close : ReadError) (stack : ℕ) (bytes : Value) :
    ReadCall close stack bytes := by
  cases bytes with
  | nil => exact .error _ rfl
  | cons kind tail =>
    by_cases hsimple : kind = '+'.toUInt8
    · subst hsimple
      rcases readLine_cases close tail with ⟨err, hline⟩ | ⟨line, rest, hline⟩
      · exact .error err (readRESP_line_error (by decide) hline stack)
      · exact .reply _ rest (readRESP_simple hline stack) fun n out => .simple hline
    by_cases herror : kind = '-'.toUInt8
    · subst herror
      rcases readLine_cases close tail with ⟨err, hline⟩ | ⟨line, rest, hline⟩
      · exact .error err (readRESP_line_error (by decide) hline stack)
      · exact .error (.redis line) (readRESP_error hline stack)
    by_cases hinteger : kind = ':'.toUInt8
    · subst hinteger
      rcases readLine_cases close tail with ⟨err, hline⟩ | ⟨line, rest, hline⟩
      · exact .error err (readRESP_line_error (by decide) hline stack)
      have hcall := readRESP_integer hline stack
      rcases parseLine_cases "ParseInt" line with ⟨err, hvalue⟩ | ⟨value, hvalue⟩
      · rw [hvalue] at hcall
        exact .error err hcall
      · rw [hvalue] at hcall
        exact .reply _ rest hcall fun n out => .integer hline hvalue
    by_cases hbulk : kind = '$'.toUInt8
    · subst hbulk
      exact call_header close (.inl rfl) stack tail
    by_cases harray : kind = '*'.toUInt8
    · subst harray
      exact call_header close (.inr rfl) stack tail
    refine .error (.unsupported kind) ?_
    rw [readRESP, if_neg hsimple, if_neg herror, if_neg hinteger, if_neg hbulk, if_neg harray]
    rfl

/-! ## Replies are what is read -/

/-- The computation leaves `out`, or it crashes. -/
def Yields {α : Type} (m : Except Stop (α × Value)) (out : Value) : Prop :=
  (∃ a, m = .ok (a, out)) ∨ Crashes m

theorem crashes_zero (bytes : Value) : Crashes (readRESP close 0 bytes) :=
  ⟨.stackOverflow, rfl, rfl⟩

theorem Crashes.readMany {stack i n : ℕ} (hi : i < n) {items items' : List RedisReply}
    {bytes mid : Value}
    (h : readMany (readRESP close stack) i items bytes = .ok (items', mid))
    (hcrash : Crashes (readRESP close stack mid)) :
    Crashes (readMany (readRESP close stack) n items bytes) := by
  obtain ⟨s, hs, hsc⟩ := hcrash
  exact ⟨s, readMany_of_error hi h hs, hsc⟩

/-- One reply, and then the others; without a frame of the stack the first call crashes. -/
theorem Yields.cons {n : ℕ} {bytes mid out : Value}
    (h : ∀ stack, Yields (readRESP close (stack + 1) bytes) mid)
    (ih : ∀ stack items, Yields (readMany (readRESP close stack) n items mid) out)
    (stack : ℕ) (items : List RedisReply) :
    Yields (readMany (readRESP close stack) (n + 1) items bytes) out := by
  have hfirst : Yields (readRESP close stack bytes) mid := by
    cases stack with
    | zero => exact .inr (crashes_zero _)
    | succ stack => exact h stack
  rcases hfirst with ⟨reply, hok⟩ | hcrash
  · rw [readMany_succ_ok hok]
    exact ih stack _
  · exact .inr (hcrash.readMany n.succ_pos rfl)

theorem Yields.map {α β : Type} {m : Except Stop (α × Value)} {out : Value} (h : Yields m out)
    (f : α → β) : Yields (m.map fun r => (f r.1, r.2)) out := by
  rcases h with ⟨a, rfl⟩ | ⟨s, rfl, hs⟩
  · exact .inl ⟨f a, rfl⟩
  · exact .inr ⟨s, rfl, hs⟩

theorem Replies.yields {n : ℕ} {bytes out : Value} (h : Replies close n bytes out) :
    ∀ stack items, Yields (readMany (readRESP close stack) n items bytes) out := by
  induction h with
  | zero => exact fun stack items => .inl ⟨items, rfl⟩
  | simple hline _ ih =>
    refine Yields.cons (fun stack => ?_) ih
    exact .inl ⟨_, readRESP_simple hline stack⟩
  | integer hline hvalue _ ih =>
    refine Yields.cons (fun stack => ?_) ih
    rw [readRESP_integer hline, hvalue]
    exact .inl ⟨_, rfl⟩
  | null hkind h hsize _ ih =>
    refine Yields.cons (fun stack => ?_) ih
    exact .inl ⟨_, readRESP_nil hkind h hsize stack⟩
  | @bulk n bytes size value rest out h hsize hlength _ ih =>
    refine Yields.cons (fun stack => ?_) ih
    rw [readRESP_bulk h hsize, make_bulk hsize h.le_max, readFull_append (by omega)]
    split
    · exact .inr ⟨_, rfl, rfl⟩
    · exact .inl ⟨_, rfl⟩
  | array h hsize _ _ ihitems ih =>
    refine Yields.cons (fun stack => ?_) ih
    rw [readRESP_array h hsize, make_array hsize]
    split
    · exact .inr ⟨_, rfl, rfl⟩
    · exact (ihitems stack []).map fun items => ({ array := items } : RedisReply)

theorem replies_of_readMany {stack : ℕ}
    (h : ∀ bytes reply rest, readRESP close stack bytes = .ok (reply, rest) →
      ∀ n out, Replies close n rest out → Replies close (n + 1) bytes out)
    {n : ℕ} {items items' : List RedisReply} {bytes out : Value}
    (hread : readMany (readRESP close stack) n items bytes = .ok (items', out)) :
    Replies close n bytes out := by
  induction n generalizing items bytes with
  | zero =>
    cases hread
    exact .zero
  | succ n ih =>
    cases hreply : readRESP close stack bytes with
    | error s =>
      rw [readMany_succ_error hreply] at hread
      cases hread
    | ok r =>
      rw [readMany_succ_ok hreply] at hread
      exact h bytes r.1 r.2 hreply n out (ih hread)

theorem replies_of_readRESP (stack : ℕ) : ∀ bytes reply rest,
    readRESP close stack bytes = .ok (reply, rest) →
      ∀ n out, Replies close n rest out → Replies close (n + 1) bytes out := by
  induction stack with
  | zero => exact fun _ _ _ h => nomatch h
  | succ stack ih =>
    intro bytes reply rest h
    rcases readRESP_cases close stack bytes with ⟨err, herr⟩ | ⟨_, _, hok, hform⟩ |
      ⟨text, -, hpanic⟩ | ⟨size, items, hheader, hsize, hitems⟩
    · rw [herr] at h
      cases h
    · rw [hok] at h
      cases h
      exact hform
    · rw [hpanic] at h
      cases h
    · rw [hitems] at h
      cases hmany : readMany (readRESP close stack) size.toNat [] items with
      | error s =>
        rw [hmany] at h
        cases h
      | ok r =>
        rw [hmany] at h
        cases h
        exact fun n out => .array hheader hsize (replies_of_readMany ih hmany)

/-! ## Crashes -/

/-- A crash is at a reply that is nested too deep, or has too large a header. -/
theorem begins_of_crash {stack : ℕ} : ∀ {bytes : Value}, Crashes (readRESP close stack bytes) →
    ∃ depth start, Begins close bytes depth start ∧ (stack ≤ depth ∨ Oversized close start) := by
  induction stack with
  | zero => exact fun {bytes} _ => ⟨0, bytes, .here, .inl le_rfl⟩
  | succ stack ih =>
    rintro bytes ⟨s, hs, hcrash⟩
    rcases readRESP_cases close stack bytes with ⟨err, herr⟩ | ⟨_, _, hok, -⟩ |
      ⟨text, hover, -⟩ | ⟨size, rest, hheader, hsize, hitems⟩
    · rw [herr] at hs
      cases hs
      cases hcrash
    · rw [hok] at hs
      cases hs
    · exact ⟨0, bytes, .here, .inr hover⟩
    · rw [hitems] at hs
      cases hmany : readMany (readRESP close stack) size.toNat [] rest with
      | ok r =>
        rw [hmany] at hs
        cases hs
      | error s' =>
        rw [hmany] at hs
        obtain rfl : s' = s := Except.error.inj hs
        obtain ⟨i, hi, items, mid, hbefore, hstop⟩ := readMany_eq_error.1 hmany
        obtain ⟨depth, start, hbegins, hbad⟩ := ih ⟨s', hstop, hcrash⟩
        have hreplies := replies_of_readMany (replies_of_readRESP stack) hbefore
        refine ⟨depth + 1, start, .item hheader (by omega) hreplies hbegins, ?_⟩
        exact hbad.imp_left Nat.succ_le_succ

theorem Oversized.crashes {start : Value} (h : Oversized close start) (stack : ℕ) :
    Crashes (readRESP close stack start) := by
  cases stack with
  | zero => exact crashes_zero start
  | succ stack =>
    rcases h with ⟨size, rest, hheader, hover⟩ | ⟨size, rest, hheader, hover⟩
    · have hsize : 0 ≤ size := by unfold maxAlloc at hover; omega
      rw [readRESP_bulk hheader hsize, make_bulk hsize hheader.le_max, if_pos hover]
      exact ⟨_, rfl, rfl⟩
    · have hsize : 0 ≤ size := by unfold maxAlloc replySize at hover; omega
      rw [readRESP_array hheader hsize, make_array hsize, if_pos hover]
      exact ⟨_, rfl, rfl⟩

theorem Begins.crashes {bytes start : Value} {depth : ℕ} (h : Begins close bytes depth start) :
    ∀ {stack : ℕ}, stack ≤ depth ∨ Oversized close start →
      Crashes (readRESP close stack bytes) := by
  induction h with
  | here =>
    intro stack hbad
    rcases hbad with hstack | hover
    · obtain rfl : stack = 0 := Nat.le_zero.1 hstack
      exact crashes_zero _
    · exact hover.crashes stack
  | @item bytes size rest i mid depth start hheader hi hreplies _ ih =>
    intro stack hbad
    cases stack with
    | zero => exact crashes_zero _
    | succ stack =>
      have hsize : 0 ≤ size := by omega
      have hi' : i < size.toNat := by omega
      rw [readRESP_array hheader hsize, make_array hsize]
      split
      · exact ⟨_, rfl, rfl⟩
      have hitems : Crashes (readMany (readRESP close stack) size.toNat [] rest) := by
        rcases hreplies.yields stack [] with ⟨items, hok⟩ | hcrash
        · exact (ih (hbad.imp_left Nat.le_of_succ_le_succ)).readMany hi' hok
        · obtain ⟨s, hs, hsc⟩ := hcrash
          obtain ⟨j, hj, items, mid', hbefore, hstop⟩ := readMany_eq_error.1 hs
          exact ⟨s, readMany_of_error (hj.trans hi') hbefore hstop, hsc⟩
      obtain ⟨s, hs, hsc⟩ := hitems
      exact ⟨s, by rw [hs]; rfl, hsc⟩

/-- The computation ends with a value or an error. -/
def Completes {α : Type} (m : Except Stop α) : Prop :=
  (∃ a, m = .ok a) ∨ ∃ err, m = .error (.error err)

theorem not_crashes_iff {α : Type} {m : Except Stop α} : ¬ Crashes m ↔ Completes m := by
  constructor
  · intro h
    match m with
    | .ok a => exact .inl ⟨a, rfl⟩
    | .error (.error err) => exact .inr ⟨err, rfl⟩
    | .error (.panic text) => exact absurd ⟨_, rfl, rfl⟩ h
    | .error .stackOverflow => exact absurd ⟨_, rfl, rfl⟩ h
  · rintro (⟨a, rfl⟩ | ⟨err, rfl⟩) ⟨s, hs, hcrash⟩
    · cases hs
    · cases hs
      cases hcrash

theorem readLine_length {bytes line rest : Value} (h : readLine close bytes = .ok (line, rest)) :
    rest.length < bytes.length := by
  have hsuffix := (List.dropWhile_suffix (l := bytes) (· ≠ '\n'.toUInt8)).length_le
  unfold readLine at h
  split at h
  · cases h
  · rename_i hdrop
    cases h
    rw [hdrop] at hsuffix
    exact hsuffix

theorem Header.length {bytes rest : Value} {kind : Char} {size : ℤ}
    (h : Header close bytes kind size rest) : rest.length < bytes.length := by
  obtain ⟨line, tail, rfl, hline, -⟩ := h
  have := readLine_length hline
  rw [List.length_cons]
  omega

theorem Replies.length {n : ℕ} {bytes out : Value} (h : Replies close n bytes out) :
    out.length ≤ bytes.length := by
  induction h with
  | zero => exact le_rfl
  | simple hline _ ih | integer hline _ _ ih =>
    have := readLine_length hline
    rw [List.length_cons]
    omega
  | null _ h _ _ ih =>
    have := h.length
    omega
  | bulk h _ _ _ ih =>
    have := h.length
    rw [List.length_append] at this
    omega
  | array h _ _ _ ihitems ih =>
    have := h.length
    omega

/-- Every level of nesting takes some of the bytes. -/
theorem Begins.depth_le {bytes start : Value} {depth : ℕ} (h : Begins close bytes depth start) :
    depth ≤ bytes.length := by
  induction h with
  | here => exact Nat.zero_le _
  | item hheader _ hreplies _ ih =>
    have := hheader.length
    have := hreplies.length
    omega

/-- **A crash of the reader**: it returns a reply or an error exactly if no reply begins
    that is nested deeper than the stack or whose header asks for more than the address
    space.  A stack with room for as many calls as there are bytes is never exceeded. -/
theorem readRESP_completes_iff (close : ReadError) (stack : ℕ) (bytes : Value) :
    (Completes (readRESP close stack bytes) ↔
      ∀ depth start, Begins close bytes depth start → depth < stack ∧ ¬ Oversized close start) ∧
    (bytes.length < stack → (Completes (readRESP close stack bytes) ↔
      ∀ depth start, Begins close bytes depth start → ¬ Oversized close start)) := by
  have hiff : Completes (readRESP close stack bytes) ↔
      ∀ depth start, Begins close bytes depth start →
        depth < stack ∧ ¬ Oversized close start := by
    rw [← not_crashes_iff]
    constructor
    · intro h depth start hbegins
      refine ⟨lt_of_not_ge fun hle => h (hbegins.crashes (.inl hle)), fun hover => ?_⟩
      exact h (hbegins.crashes (.inr hover))
    · intro h hcrash
      obtain ⟨depth, start, hbegins, hbad⟩ := begins_of_crash hcrash
      obtain ⟨hlt, hsize⟩ := h depth start hbegins
      exact hbad.elim (not_le_of_gt hlt) hsize
  refine ⟨hiff, fun hstack => hiff.trans ⟨fun h depth start hb => (h depth start hb).2, ?_⟩⟩
  exact fun h depth start hb => ⟨hb.depth_le.trans_lt hstack, h depth start hb⟩

/-- A bulk string is returned, and no part of it is too much. -/
theorem readRESP_completes_bulk :
    Completes (readRESP .eof 9 (writeBulk (ascii "hi"))) ∧
      ∀ depth start, Begins .eof (writeBulk (ascii "hi")) depth start →
        depth < 9 ∧ ¬ Oversized .eof start := by
  have hok : readRESP .eof 9 (writeBulk (ascii "hi") ++ []) = .ok ({ data := ascii "hi" }, []) :=
    readRESP_writeBulk (by decide) 8 []
  have hreturns : Completes (readRESP .eof 9 (writeBulk (ascii "hi"))) := .inl ⟨_, hok⟩
  exact ⟨hreturns, (readRESP_completes_iff .eof 9 _).1.1 hreturns⟩

/-- Arrays inside of one another. -/
theorem nested_overflow (close : ReadError) (stack : ℕ) :
    readRESP close stack (List.replicate stack (ascii "*1\r\n")).flatten =
      .error .stackOverflow := by
  induction stack with
  | zero => rfl
  | succ stack ih =>
    have hheader : Header close (List.replicate (stack + 1) (ascii "*1\r\n")).flatten '*' 1
        (List.replicate stack (ascii "*1\r\n")).flatten :=
      header_itoa close '*' (by decide : ((1 : ℕ) : ℤ) ≤ int64Max) _
    have hitems : readMany (readRESP close stack) 1 []
        (List.replicate stack (ascii "*1\r\n")).flatten = .error .stackOverflow :=
      readMany_succ_error ih 0 []
    rw [readRESP_array hheader (by decide), make_array (by decide), if_neg (by decide)]
    change (readMany (readRESP close stack) 1 [] _ >>= _) = _
    rw [hitems]
    rfl

/-- A server makes its client panic, or run out of its stack, however large that is. -/
theorem readRESP_crashes :
    (∀ stack, readRESP .eof (stack + 1) (ascii "$9223372036854775807\r\n") =
        .error (.panic "makeslice: len out of range") ∧
      readRESP .eof (stack + 1) (ascii "*9223372036854775807\r\n") =
        .error (.panic "makeslice: cap out of range")) ∧
    ∀ stack, readRESP .eof stack (List.replicate stack (ascii "*1\r\n")).flatten =
      .error .stackOverflow := by
  have hbytes : ascii "9223372036854775807\r\n" = itoa 9223372036854775807 ++ crlf ++ [] := by
    decide +kernel
  have hheader : ∀ kind : Char, Header .eof (kind.toUInt8 :: ascii "9223372036854775807\r\n") kind
      (9223372036854775807 : ℕ) [] := by
    intro kind
    rw [hbytes]
    exact header_itoa .eof kind (by decide) []
  refine ⟨fun stack => ⟨?_, ?_⟩, nested_overflow .eof⟩
  · change readRESP .eof (stack + 1) ('$'.toUInt8 :: ascii "9223372036854775807\r\n") = _
    rw [readRESP_bulk (hheader '$') (by decide), make_bulk (by decide) (by decide),
      if_pos (by decide)]
    rfl
  · change readRESP .eof (stack + 1) ('*'.toUInt8 :: ascii "9223372036854775807\r\n") = _
    rw [readRESP_array (hheader '*') (by decide), make_array (by decide), if_pos (by decide)]
    rfl

end Aggregator.Realtime
