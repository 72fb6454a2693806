/-
  The protocol spoken with Redis, RESP (`internal/realtime/redis.go`).

  A request is an array of bulk strings.  A reply is read off the bytes that the
  server sends: the model of a reader is the list of bytes that are still to come,
  with the error that the connection gives after the last of them.

  A call of `readRESP` inside another one takes its place on the stack, which is of
  limited size: it is given the number of calls that fit.  `make` panics if the
  memory asked for is not in the address space.

  * `readRESP_array`, `readRESP_bulk`: what a header leads to;
  * `readRESP_writeRESP`: a request is read back, and nothing after it.
-/
import Aggregator.Go.Strconv
import Aggregator.Lib.Reader
import Aggregator.Realtime.Store

namespace Aggregator.Realtime

open Aggregator.Go

/-- A reply; a field that is not set has its zero value. -/
structure RedisReply where
  data : Value := []
  integer : ℤ := 0
  array : List RedisReply := []
  isNil : Bool := false

inductive ReadError
  | eof
  | unexpectedEOF
  | other (text : String)
deriving DecidableEq

inductive RespError
  | read (err : ReadError)
  /-- A `*strconv.NumError` of a function, for a line. -/
  | number (fn : String) (line : Value)
  /-- `redis error: ` and the line. -/
  | redis (line : Value)
  /-- `unsupported redis response prefix ` and the byte. -/
  | unsupported (kind : UInt8)
  | other (text : String)
deriving DecidableEq

/-- What a call ends with if it returns no reply. -/
inductive Stop
  | error (err : RespError)
  | panic (text : String)
  | stackOverflow
deriving DecidableEq

/-! ## Writing -/

/-- The bytes of an ASCII text. -/
def ascii (s : String) : Value := s.toList.map Char.toUInt8

def crlf : Value := ascii "\r\n"

def itoa (n : ℕ) : Value := ascii (toString n)

def writeBulk (arg : Value) : Value := '$'.toUInt8 :: (itoa arg.length ++ crlf ++ arg ++ crlf)

/-- The bytes that `writeRESP` sends. -/
def writeRESP (args : List Value) : Value :=
  '*'.toUInt8 :: (itoa args.length ++ crlf ++ args.flatMap writeBulk)

/-! ## Reading -/

/-- The size of the address space. -/
def maxAlloc : ℤ := 281474976710656

/-- `make` for elements of `elem` bytes. -/
def make (elem size : ℤ) (text : String) : Except Stop Unit :=
  if size < 0 ∨ maxAlloc < elem * size then .error (.panic text) else .ok ()

/-- The size of a `redisReply`. -/
def replySize : ℤ := 64

section
-- the error of the connection after its last byte
variable (close : ReadError)

/-- `strings.TrimSuffix(line, "\r")`. -/
def trimCR (line : Value) : Value :=
  if line.getLast? = some '\r'.toUInt8 then line.dropLast else line

def readLine (bytes : Value) : Except Stop (Value × Value) :=
  match bytes.dropWhile (· ≠ '\n'.toUInt8) with
  | [] => .error (.error (.read close))
  | _ :: rest => .ok (trimCR (bytes.takeWhile (· ≠ '\n'.toUInt8)), rest)

/-- `strconv.ParseInt(line, 10, 64)`, and `strconv.Atoi`. -/
def parseLine (fn : String) (line : Value) : Except Stop ℤ :=
  match parseInt (String.ofList (line.map fun b => Char.ofNat b.toNat)) with
  | .error _ => .error (.error (.number fn line))
  | .ok n => .ok n

/-- `io.ReadFull` into a buffer of `size` bytes. -/
def readFull (size : ℕ) (bytes : Value) : Except Stop (Value × Value) :=
  if size ≤ bytes.length then .ok (bytes.take size, bytes.drop size)
  else if close = .eof ∧ bytes ≠ [] then .error (.error (.read .unexpectedEOF))
  else .error (.error (.read close))

/-- `readRESP`, with room for `stack` calls. -/
def readRESP : ℕ → Value → Except Stop (RedisReply × Value)
  | 0, _ => .error .stackOverflow
  | _ + 1, [] => .error (.error (.read close))
  | stack + 1, kind :: bytes =>
    if kind = '+'.toUInt8 then do
      let (line, rest) ← readLine close bytes
      return ({ data := line }, rest)
    else if kind = '-'.toUInt8 then do
      let (line, _) ← readLine close bytes
      throw (.error (.redis line))
    else if kind = ':'.toUInt8 then do
      let (line, rest) ← readLine close bytes
      let value ← parseLine "ParseInt" line
      return ({ integer := value }, rest)
    else if kind = '$'.toUInt8 then do
      let (line, rest) ← readLine close bytes
      let size ← parseLine "Atoi" line
      if size < 0 then return ({ isNil := true }, rest)
      make 1 (wrap64 (size + 2)) "makeslice: len out of range"
      let (value, rest) ← readFull close (size + 2).toNat rest
      return ({ data := value.take size.toNat }, rest)
    else if kind = '*'.toUInt8 then do
      let (line, rest) ← readLine close bytes
      let size ← parseLine "Atoi" line
      if size < 0 then return ({ isNil := true }, rest)
      make replySize size "makeslice: cap out of range"
      let (items, rest) ← readMany (readRESP stack) size.toNat [] rest
      return ({ array := items }, rest)
    else throw (.error (.unsupported kind))

end

/-! ## Headers -/

variable {close : ReadError}

/-- The bytes end within the line that a reply starts with. -/
theorem readRESP_line_error {kind : Char} (hkind : kind ∈ ['+', '-', ':', '$', '*']) {tail : Value}
    {s : Stop} (hline : readLine close tail = .error s) (stack : ℕ) :
    readRESP close (stack + 1) (kind.toUInt8 :: tail) = .error s := by
  simp only [List.mem_cons, List.not_mem_nil, or_false] at hkind
  rcases hkind with rfl | rfl | rfl | rfl | rfl
  all_goals simp +decide [readRESP, hline, bind, Except.bind]

section
variable {tail line rest : Value} (hline : readLine close tail = .ok (line, rest)) (stack : ℕ)
include hline

theorem readRESP_simple :
    readRESP close (stack + 1) ('+'.toUInt8 :: tail) = .ok ({ data := line }, rest) := by
  simp [readRESP, hline, bind, Except.bind, pure, Except.pure]

theorem readRESP_error :
    readRESP close (stack + 1) ('-'.toUInt8 :: tail) = .error (.error (.redis line)) := by
  simp +decide [readRESP, hline, bind, Except.bind, throw, throwThe, MonadExceptOf.throw]

theorem readRESP_integer : readRESP close (stack + 1) (':'.toUInt8 :: tail) =
    (parseLine "ParseInt" line >>= fun value => .ok ({ integer := value }, rest)) := by
  simp +decide [readRESP, hline, bind, Except.bind, pure, Except.pure]

end

/-- The bytes are a kind, a line with a size, and `rest`. -/
def Header (close : ReadError) (bytes : Value) (kind : Char) (size : ℤ) (rest : Value) : Prop :=
  ∃ line tail, bytes = kind.toUInt8 :: tail ∧ readLine close tail = .ok (line, rest) ∧
    parseLine "Atoi" line = .ok size

theorem readRESP_nil {kind : Char} (hkind : kind = '$' ∨ kind = '*') {bytes rest : Value} {size : ℤ}
    (h : Header close bytes kind size rest) (hsize : size < 0) (stack : ℕ) :
    readRESP close (stack + 1) bytes = .ok ({ isNil := true }, rest) := by
  obtain ⟨line, tail, rfl, hline, hsz⟩ := h
  rcases hkind with rfl | rfl
  all_goals
    simp +decide [readRESP, hline, hsz, hsize, bind, Except.bind, pure, Except.pure]

theorem readRESP_bulk {bytes rest : Value} {size : ℤ} (h : Header close bytes '$' size rest)
    (hsize : 0 ≤ size) (stack : ℕ) : readRESP close (stack + 1) bytes = (do
      make 1 (wrap64 (size + 2)) "makeslice: len out of range"
      let (value, rest) ← readFull close (size + 2).toNat rest
      return ({ data := value.take size.toNat }, rest)) := by
  obtain ⟨line, tail, rfl, hline, hsz⟩ := h
  simp +decide [readRESP, hline, hsz, not_lt.2 hsize, bind, Except.bind]

theorem readRESP_array {bytes rest : Value} {size : ℤ} (h : Header close bytes '*' size rest)
    (hsize : 0 ≤ size) (stack : ℕ) : readRESP close (stack + 1) bytes = (do
      make replySize size "makeslice: cap out of range"
      let (items, rest) ← readMany (readRESP close stack) size.toNat [] rest
      return ({ array := items }, rest)) := by
  obtain ⟨line, tail, rfl, hline, hsz⟩ := h
  simp +decide [readRESP, hline, hsz, not_lt.2 hsize, bind, Except.bind]

/-! ## Reading back -/

theorem toNat_toUInt8_digit {c : Char} (h : c.isDigit = true) : c.toUInt8.toNat = c.toNat := by
  simp only [Char.isDigit, Bool.and_eq_true, decide_eq_true_eq, UInt32.le_iff_toNat_le] at h
  have hle : c.toNat ≤ 57 := h.2
  rw [Char.toUInt8, UInt32.toNat_toUInt8]
  exact Nat.mod_eq_of_lt (Nat.lt_of_le_of_lt hle (by decide))

theorem itoa_eq (n : ℕ) : itoa n = (Nat.toDigits 10 n).map Char.toUInt8 := by
  simp [itoa, ascii, Nat.toString_eq_repr]

theorem parseLine_itoa (fn : String) {n : ℕ} (hn : (n : ℤ) ≤ int64Max) :
    parseLine fn (itoa n) = .ok (n : ℤ) := by
  have htext : (itoa n).map (fun b => Char.ofNat b.toNat) = Nat.toDigits 10 n := by
    rw [itoa_eq, List.map_map]
    refine (List.map_congr_left fun c hc => ?_).trans (List.map_id _)
    rw [Function.comp_apply, toNat_toUInt8_digit (isDigit_toDigits n c hc), Char.ofNat_toNat, id]
  rw [parseLine, htext, parseInt_toDigits hn]

theorem readLine_crlf {line : Value} (h : '\n'.toUInt8 ∉ line) (rest : Value) :
    readLine close (line ++ crlf ++ rest) = .ok (line, rest) := by
  have hall : ∀ b ∈ line ++ ['\r'.toUInt8], (decide (b ≠ '\n'.toUInt8)) = true := by
    intro b hb
    rcases List.mem_append.1 hb with hb | hb
    · exact decide_eq_true fun heq => h (heq ▸ hb)
    · rw [List.mem_singleton.1 hb]
      decide
  have hsplit : line ++ crlf ++ rest = (line ++ ['\r'.toUInt8]) ++ '\n'.toUInt8 :: rest := by
    simp [crlf, ascii]
  rw [readLine, hsplit, List.dropWhile_append_of_pos hall, List.takeWhile_append_of_pos hall]
  simp [trimCR]

theorem newline_notMem_itoa (n : ℕ) : '\n'.toUInt8 ∉ itoa n := by
  intro h
  rw [itoa_eq] at h
  obtain ⟨c, hc, heq⟩ := List.mem_map.1 h
  have hdigit := isDigit_toDigits n c hc
  have hnat := (toNat_toUInt8_digit hdigit).symm.trans (congrArg UInt8.toNat heq)
  simp only [Char.isDigit, Bool.and_eq_true, decide_eq_true_eq, UInt32.le_iff_toNat_le] at hdigit
  have hle : 48 ≤ c.toNat := hdigit.1
  rw [hnat] at hle
  exact absurd hle (by decide)

/-- A header that is written is read. -/
theorem header_itoa (close : ReadError) (kind : Char) {n : ℕ} (hn : (n : ℤ) ≤ int64Max)
    (rest : Value) : Header close (kind.toUInt8 :: (itoa n ++ crlf ++ rest)) kind n rest :=
  ⟨itoa n, _, rfl, readLine_crlf (newline_notMem_itoa n) rest, parseLine_itoa "Atoi" hn⟩

theorem make_eq_ok {elem size : ℤ} {text : String} (h₀ : 0 ≤ size) (h₁ : elem * size ≤ maxAlloc) :
    make elem size text = .ok () :=
  if_neg (by omega)

theorem readFull_append {value : Value} {size : ℕ} (h : value.length = size) (rest : Value) :
    readFull close size (value ++ rest) = .ok (value, rest) := by
  subst h
  rw [readFull, if_pos (by simp), List.take_left, List.drop_left]

/-- A bulk string that is written is read. -/
theorem readRESP_writeBulk {arg : Value} (h : (arg.length : ℤ) + 2 ≤ maxAlloc) (stack : ℕ)
    (rest : Value) :
    readRESP close (stack + 1) (writeBulk arg ++ rest) = .ok ({ data := arg }, rest) := by
  have hmax : maxAlloc ≤ int64Max := by decide
  have hheader : Header close (writeBulk arg ++ rest) '$' arg.length (arg ++ crlf ++ rest) := by
    have := header_itoa close '$' (by omega : (arg.length : ℤ) ≤ int64Max) (arg ++ crlf ++ rest)
    simpa [writeBulk] using this
  have hwrap : wrap64 (arg.length + 2) = arg.length + 2 :=
    wrap64_of_mem (by unfold int64Min; omega) (by omega)
  have hlength : (arg ++ crlf).length = ((arg.length : ℤ) + 2).toNat := by
    simp [crlf, ascii]
    omega
  rw [readRESP_bulk hheader (by omega), hwrap, make_eq_ok (by omega) (by omega),
    readFull_append hlength]
  simp [bind, Except.bind, pure, Except.pure]

theorem readMany_writeBulk {args : List Value}
    (h : ∀ arg ∈ args, (arg.length : ℤ) + 2 ≤ maxAlloc) (stack : ℕ) (rest : Value) :
    ∀ items, readMany (readRESP close (stack + 1)) args.length items
        (args.flatMap writeBulk ++ rest) =
      .ok (items ++ args.map fun arg => { data := arg }, rest) := by
  induction args with
  | nil => simp
  | cons arg args ih =>
    obtain ⟨harg, hargs⟩ := List.forall_mem_cons.1 h
    intro items
    have hread : readRESP close (stack + 1) (writeBulk arg ++ (args.flatMap writeBulk ++ rest)) = _ :=
      readRESP_writeBulk harg stack _
    rw [List.flatMap_cons, List.append_assoc, List.length_cons, readMany_succ_ok hread,
      ih hargs]
    simp

/-- The request is in one buffer, and so are the replies that it is read into. -/
structure Held (args : List Value) : Prop where
  buffer : ((writeRESP args).length : ℤ) ≤ maxAlloc
  replies : replySize * args.length ≤ maxAlloc

theorem Held.arg_le {args : List Value} (h : Held args) :
    ∀ arg ∈ args, (arg.length : ℤ) + 2 ≤ maxAlloc := by
  intro arg harg
  have hsub : (writeBulk arg).length ≤ (args.flatMap writeBulk).length := by
    obtain ⟨before, after, rfl⟩ := List.append_of_mem harg
    simp only [List.flatMap_append, List.flatMap_cons, List.length_append]
    omega
  have hbulk : arg.length + 2 ≤ (writeBulk arg).length := by
    have hcrlf : crlf.length = 2 := rfl
    simp only [writeBulk, List.length_cons, List.length_append]
    omega
  have hrequest : (args.flatMap writeBulk).length ≤ (writeRESP args).length := by
    simp only [writeRESP, List.length_cons, List.length_append]
    omega
  have hbuffer := h.buffer
  omega

/-- **A request is read back**, whatever bytes its arguments are, and what follows it
    is left. -/
theorem readRESP_writeRESP (close : ReadError) (stack : ℕ) (args : List Value) (h : Held args)
    (rest : Value) : readRESP close (stack + 2) (writeRESP args ++ rest) =
      .ok ({ array := args.map fun arg => { data := arg } }, rest) := by
  have hcount : (args.length : ℤ) ≤ int64Max := by
    have hreplies := h.replies
    unfold replySize maxAlloc at hreplies
    unfold int64Max
    omega
  have hheader : Header close (writeRESP args ++ rest) '*' args.length
      (args.flatMap writeBulk ++ rest) := by
    simpa [writeRESP] using header_itoa close '*' hcount (args.flatMap writeBulk ++ rest)
  rw [readRESP_array hheader (by omega), make_eq_ok (by omega) h.replies, Int.toNat_natCast,
    readMany_writeBulk h.arg_le]
  rfl

/-- A value with a line break and an empty one. -/
theorem readRESP_writeRESP_crlf :
    let args := [ascii "SET", ascii "a\r\n$1", []]
    Held args ∧ readRESP .eof 2 (writeRESP args ++ ascii "+OK\r\n") =
      .ok ({ array := args.map fun arg => { data := arg } }, ascii "+OK\r\n") := by
  intro args
  have hheld : Held args := ⟨by decide, by decide⟩
  exact ⟨hheld, readRESP_writeRESP .eof 0 args hheld (ascii "+OK\r\n")⟩

end Aggregator.Realtime
