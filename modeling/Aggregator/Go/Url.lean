/-
  Escaping and query strings of `net/url`, on bytes.

  * `unescape_escape_append`: what is escaped is read back;
  * `mem_escape`: the bytes an escaped text consists of;
  * `parseQuery_encode`: the query string of a set of parameters is read back as
    these parameters, whatever their names and values are.

  `url.Values` is a map from names to lists of values.  It is filled by `Set` only,
  so that each name has one value; a map is given by its entries here, and `encode`
  sorts them by name.  `parseQuery` lists what it appends to the map, in order; its
  limit on the number of parameters is left out.
-/
import Mathlib.Data.List.Lex
import Mathlib.Data.List.Sort

namespace Aggregator.Go.Url

abbrev Bytes := List UInt8

/-- The bytes of a text. -/
def utf8Chars (cs : List Char) : Bytes := cs.flatMap String.utf8EncodeChar

def utf8 (s : String) : Bytes := utf8Chars s.toList

theorem utf8_injective : Function.Injective utf8 := by
  intro s t h
  have hencode : s.toList.utf8Encode = t.toList.utf8Encode := by
    unfold List.utf8Encode
    exact congrArg _ h
  rw [← String.toByteArray_inj, ← String.ofList_toList (s := s), ← String.ofList_toList (s := t)]
  exact hencode

theorem utf8Chars_append (cs ds : List Char) :
    utf8Chars (cs ++ ds) = utf8Chars cs ++ utf8Chars ds := List.flatMap_append

/-- A character other than `%` has no byte that starts an escape. -/
theorem notMem_utf8EncodeChar {c : Char} (hc : c ≠ '%') :
    '%'.toUInt8 ∉ String.utf8EncodeChar c := by
  intro hmem
  have hv : c.val.toNat ≠ 37 := fun h => hc (Char.ext (UInt32.toNat.inj h))
  have hnat := List.mem_map_of_mem (f := UInt8.toNat) hmem
  have hpercent : '%'.toUInt8.toNat = 37 := rfl
  rw [hpercent] at hnat
  unfold String.utf8EncodeChar at hnat
  dsimp only at hnat
  split_ifs at hnat
  all_goals
    simp only [List.map_cons, List.map_nil, List.mem_cons, List.not_mem_nil, or_false,
      UInt8.toNat_ofNat'] at hnat
    omega

/-- What the text is a part of. -/
inductive Encoding where
  | pathSegment
  | queryComponent
deriving DecidableEq, Repr

def isAlnum (c : UInt8) : Bool :=
  ('a'.toUInt8 ≤ c && c ≤ 'z'.toUInt8) || ('A'.toUInt8 ≤ c && c ≤ 'Z'.toUInt8) ||
    ('0'.toUInt8 ≤ c && c ≤ '9'.toUInt8)

/-- `shouldEscape`. -/
def shouldEscape (mode : Encoding) (c : UInt8) : Bool :=
  if isAlnum c then false
  else if c ∈ ['-'.toUInt8, '_'.toUInt8, '.'.toUInt8, '~'.toUInt8] then false
  else if c ∈ ['$'.toUInt8, '&'.toUInt8, '+'.toUInt8, ','.toUInt8, '/'.toUInt8, ':'.toUInt8,
      ';'.toUInt8, '='.toUInt8, '?'.toUInt8, '@'.toUInt8] then
    match mode with
    | .pathSegment => c ∈ ['/'.toUInt8, ';'.toUInt8, ','.toUInt8, '?'.toUInt8]
    | .queryComponent => true
  else true

/-- `"0123456789ABCDEF"[n]`. -/
def upperhex (n : UInt8) : UInt8 := if n < 10 then '0'.toUInt8 + n else 'A'.toUInt8 + (n - 10)

def ishex (c : UInt8) : Bool :=
  ('0'.toUInt8 ≤ c && c ≤ '9'.toUInt8) || ('a'.toUInt8 ≤ c && c ≤ 'f'.toUInt8) ||
    ('A'.toUInt8 ≤ c && c ≤ 'F'.toUInt8)

def unhex (c : UInt8) : UInt8 :=
  if '0'.toUInt8 ≤ c && c ≤ '9'.toUInt8 then c - '0'.toUInt8
  else if 'a'.toUInt8 ≤ c && c ≤ 'f'.toUInt8 then c - 'a'.toUInt8 + 10
  else c - 'A'.toUInt8 + 10

/-- One byte of the escaped text. -/
def escapeByte (mode : Encoding) (c : UInt8) : Bytes :=
  if c = ' '.toUInt8 && mode = .queryComponent then ['+'.toUInt8]
  else if shouldEscape mode c then ['%'.toUInt8, upperhex (c >>> 4), upperhex (c &&& 15)]
  else [c]

def escape (mode : Encoding) (s : Bytes) : Bytes := s.flatMap (escapeByte mode)

/-- `url.PathEscape` and `url.QueryEscape`. -/
def pathEscape : Bytes → Bytes := escape .pathSegment
def queryEscape : Bytes → Bytes := escape .queryComponent

/-- `url.EscapeError`, with what is left of the text at the faulty escape. -/
structure EscapeError where
  rest : Bytes
deriving DecidableEq, Repr

def unescape (mode : Encoding) : Bytes → Except EscapeError Bytes
  | [] => .ok []
  | c :: s =>
    if c = '%'.toUInt8 then
      match s with
      | a :: b :: s =>
        if ishex a && ishex b then (unescape mode s).map ((unhex a <<< 4 ||| unhex b) :: ·)
        else .error ⟨c :: a :: b :: s⟩
      | s => .error ⟨c :: s⟩
    else if c = '+'.toUInt8 then
      (unescape mode s).map ((if mode = .queryComponent then ' '.toUInt8 else '+'.toUInt8) :: ·)
    else (unescape mode s).map (c :: ·)

/-! ## Reading back -/

/-- Facts about single bytes are checked byte by byte. -/
theorem forall_byte {P : UInt8 → Prop} (h : ∀ n < 256, P (UInt8.ofNat n)) (c : UInt8) : P c := by
  have := h c.toNat c.toNat_lt
  rwa [UInt8.ofNat_toNat] at this

theorem hex_byte : ∀ c : UInt8, ishex (upperhex (c >>> 4)) = true ∧
    ishex (upperhex (c &&& 15)) = true ∧
    unhex (upperhex (c >>> 4)) <<< 4 ||| unhex (upperhex (c &&& 15)) = c :=
  forall_byte (by decide +kernel)

/-- A byte that is not escaped is not read as an escape. -/
theorem plain_byte : ∀ c : UInt8, ∀ mode, shouldEscape mode c = false →
    c ≠ '%'.toUInt8 ∧ (c = '+'.toUInt8 → mode = .pathSegment) := by
  intro c mode
  cases mode with
  | pathSegment =>
    revert c
    exact forall_byte (by decide +kernel)
  | queryComponent =>
    revert c
    exact forall_byte (by decide +kernel)

theorem unescape_cons_of_ne {mode : Encoding} {c : UInt8} (h : c ≠ '%'.toUInt8) (s : Bytes) :
    unescape mode (c :: s) =
      if c = '+'.toUInt8 then
        (unescape mode s).map ((if mode = .queryComponent then ' '.toUInt8 else '+'.toUInt8) :: ·)
      else (unescape mode s).map (c :: ·) := by
  conv_lhs => rw [unescape.eq_def]
  exact if_neg h

theorem unescape_escapeByte (mode : Encoding) (c : UInt8) (s : Bytes) :
    unescape mode (escapeByte mode c ++ s) = (unescape mode s).map (c :: ·) := by
  unfold escapeByte
  split
  · rename_i hspace
    simp only [Bool.and_eq_true, decide_eq_true_eq] at hspace
    obtain ⟨rfl, rfl⟩ := hspace
    rw [List.singleton_append, unescape_cons_of_ne (by decide), if_pos rfl, if_pos rfl]
  · split
    · obtain ⟨hhi, hlo, hval⟩ := hex_byte c
      simp only [List.cons_append, List.nil_append, unescape, ↓reduceIte, hhi, hlo, Bool.and_self,
        hval]
    · rename_i hkeep
      obtain ⟨hpercent, hplus⟩ := plain_byte c mode (by simpa using hkeep)
      rw [List.singleton_append, unescape_cons_of_ne hpercent]
      by_cases hc : c = '+'.toUInt8
      · rw [if_pos hc, hplus hc, hc]
        rfl
      · rw [if_neg hc]

/-- What has no escape is kept in a path. -/
theorem unescape_append_of_notMem {s : Bytes} (h : '%'.toUInt8 ∉ s) (t : Bytes) :
    unescape .pathSegment (s ++ t) = (unescape .pathSegment t).map (s ++ ·) := by
  induction s with
  | nil =>
    rw [List.nil_append]
    cases unescape .pathSegment t <;> rfl
  | cons c s ih =>
    have hc : c ≠ '%'.toUInt8 := fun hc => h (hc ▸ List.mem_cons_self)
    rw [List.cons_append, unescape_cons_of_ne hc, ih fun hs => h (List.mem_cons_of_mem _ hs)]
    by_cases hplus : c = '+'.toUInt8
    · rw [if_pos hplus, hplus]
      cases unescape .pathSegment t <;> rfl
    · rw [if_neg hplus]
      cases unescape .pathSegment t <;> rfl

/-- **What is escaped is read back.** -/
theorem unescape_escape_append (mode : Encoding) (s t : Bytes) :
    unescape mode (escape mode s ++ t) = (unescape mode t).map (s ++ ·) := by
  induction s with
  | nil =>
    change unescape mode t = _
    cases unescape mode t <;> rfl
  | cons c s ih =>
    rw [escape, List.flatMap_cons, List.append_assoc, unescape_escapeByte]
    change (unescape mode (escape mode s ++ t)).map _ = _
    rw [ih]
    cases unescape mode t <;> rfl

theorem unescape_escape (mode : Encoding) (s : Bytes) : unescape mode (escape mode s) = .ok s := by
  have h := unescape_escape_append mode s []
  rwa [List.append_nil, unescape, Except.map, List.append_nil] at h

/-- The bytes of an escaped text. -/
theorem mem_escape {mode : Encoding} {s : Bytes} {c : UInt8} (h : c ∈ escape mode s) :
    shouldEscape mode c = false ∨ c = '%'.toUInt8 ∨
      c = '+'.toUInt8 ∧ mode = .queryComponent := by
  obtain ⟨b, -, hc⟩ := List.mem_flatMap.1 h
  unfold escapeByte at hc
  split at hc
  · rename_i hspace
    simp only [Bool.and_eq_true, decide_eq_true_eq] at hspace
    exact .inr (.inr ⟨List.mem_singleton.1 hc, hspace.2⟩)
  · split at hc
    · have hhex : ∀ b : UInt8, ∀ mode, shouldEscape mode (upperhex (b >>> 4)) = false ∧
          shouldEscape mode (upperhex (b &&& 15)) = false := by
        intro b mode
        cases mode with
        | pathSegment =>
          revert b
          exact forall_byte (by decide +kernel)
        | queryComponent =>
          revert b
          exact forall_byte (by decide +kernel)
      simp only [List.mem_cons, List.not_mem_nil, or_false] at hc
      rcases hc with rfl | rfl | rfl
      · exact .inr (.inl rfl)
      · exact .inl (hhex b mode).1
      · exact .inl (hhex b mode).2
    · rename_i hkeep
      rw [List.mem_singleton.1 hc]
      exact .inl (by simpa using hkeep)

/-- A byte that has to be escaped, and is not used for escaping, is not in an
    escaped text. -/
theorem notMem_escape {mode : Encoding} {s : Bytes} {c : UInt8} (hc : shouldEscape mode c = true)
    (hpercent : c ≠ '%'.toUInt8) (hplus : c ≠ '+'.toUInt8) : c ∉ escape mode s := by
  intro hmem
  rcases mem_escape hmem with h | h | ⟨h, -⟩
  · rw [hc] at h
    cases h
  · exact hpercent h
  · exact hplus h

/-! ## Query strings -/

/-- The order of strings, that of their bytes. -/
def bytesLE (s t : Bytes) : Bool := s.map UInt8.toNat ≤ t.map UInt8.toNat

theorem bytesLE_antisymm {s t : Bytes} (h : bytesLE s t = true) (h' : bytesLE t s = true) :
    s = t :=
  List.map_injective_iff.2 (fun _ _ => UInt8.toNat.inj)
    (le_antisymm (of_decide_eq_true h) (of_decide_eq_true h'))

instance : Std.Total fun p q : Bytes × Bytes => bytesLE p.1 q.1 = true :=
  ⟨fun p q => (le_total (p.1.map UInt8.toNat) (q.1.map UInt8.toNat)).imp decide_eq_true
    decide_eq_true⟩

instance : IsTrans (Bytes × Bytes) fun p q => bytesLE p.1 q.1 = true :=
  ⟨fun _ _ _ h h' => decide_eq_true ((of_decide_eq_true h).trans (of_decide_eq_true h'))⟩

def encodeParam (p : Bytes × Bytes) : Bytes := queryEscape p.1 ++ '='.toUInt8 :: queryEscape p.2

/-- `Values.Encode`. -/
def encode (values : List (Bytes × Bytes)) : Bytes :=
  ['&'.toUInt8].intercalate
    ((values.insertionSort fun p q => bytesLE p.1 q.1).map encodeParam)

/-- **The order of the map does not show** in a query string. -/
theorem encode_perm {values values' : List (Bytes × Bytes)} (h : values.Perm values')
    (hnodup : (values.map Prod.fst).Nodup) : encode values = encode values' := by
  have hsort : (values.insertionSort fun p q => bytesLE p.1 q.1) =
      values'.insertionSort fun p q => bytesLE p.1 q.1 := by
    have hperm := List.perm_insertionSort (fun p q : Bytes × Bytes => bytesLE p.1 q.1 = true) values
    have hperm' :=
      List.perm_insertionSort (fun p q : Bytes × Bytes => bytesLE p.1 q.1 = true) values'
    refine List.Perm.eq_of_pairwise (fun p q hp hq hpq hqp => ?_)
      (List.pairwise_insertionSort _ values) (List.pairwise_insertionSort _ values')
      (hperm.trans (h.trans hperm'.symm))
    exact List.inj_on_of_nodup_map hnodup (hperm.mem_iff.1 hp)
      (h.mem_iff.2 (hperm'.mem_iff.1 hq)) (bytesLE_antisymm hpq hqp)
  rw [encode, encode, hsort]

inductive QueryError where
  | semicolon
  | escape (err : EscapeError)
deriving DecidableEq, Repr

/-- `strings.Cut` at one byte. -/
def cut (sep : UInt8) (s : Bytes) : Bytes × Bytes :=
  (s.takeWhile (· ≠ sep), (s.dropWhile (· ≠ sep)).drop 1)

/-- The body of the loop of `ParseQuery`. -/
def parsePiece (acc : List (Bytes × Bytes) × Option QueryError) (piece : Bytes) :
    List (Bytes × Bytes) × Option QueryError :=
  if ';'.toUInt8 ∈ piece then (acc.1, some .semicolon)
  else if piece = [] then acc
  else
    let (key, value) := cut '='.toUInt8 piece
    match unescape .queryComponent key with
    | .error e => (acc.1, acc.2.or (some (.escape e)))
    | .ok key =>
      match unescape .queryComponent value with
      | .error e => (acc.1, acc.2.or (some (.escape e)))
      | .ok value => (acc.1 ++ [(key, value)], acc.2)

/-- `url.ParseQuery`: what is appended to the map, and the error. -/
def parseQuery (query : Bytes) : List (Bytes × Bytes) × Option QueryError :=
  (query.splitOn '&'.toUInt8).foldl parsePiece ([], none)

theorem cut_append {sep : UInt8} {s : Bytes} (hs : sep ∉ s) (t : Bytes) :
    cut sep (s ++ sep :: t) = (s, t) := by
  have hall : ∀ c ∈ s, (decide (c ≠ sep)) = true := by
    intro c hc
    exact decide_eq_true fun h => hs (h ▸ hc)
  unfold cut
  rw [List.takeWhile_append_of_pos hall, List.dropWhile_append_of_pos hall]
  simp

theorem parsePiece_encodeParam (acc : List (Bytes × Bytes) × Option QueryError)
    (p : Bytes × Bytes) : parsePiece acc (encodeParam p) = (acc.1 ++ [p], acc.2) := by
  have hsemicolon : ';'.toUInt8 ∉ encodeParam p := by
    rw [encodeParam, List.mem_append, List.mem_cons, not_or, not_or]
    exact ⟨notMem_escape rfl (by decide) (by decide), by decide,
      notMem_escape rfl (by decide) (by decide)⟩
  have hcut : cut '='.toUInt8 (encodeParam p) = (queryEscape p.1, queryEscape p.2) :=
    cut_append (notMem_escape rfl (by decide) (by decide)) _
  rw [parsePiece, if_neg hsemicolon, if_neg (by simp [encodeParam]), hcut]
  simp only [queryEscape, unescape_escape]

/-- **A query string is read back.** -/
theorem parseQuery_encode (values : List (Bytes × Bytes)) :
    parseQuery (encode values) =
      (values.insertionSort fun p q => bytesLE p.1 q.1, none) := by
  unfold encode
  generalize values.insertionSort (fun p q => bytesLE p.1 q.1) = params
  have hfold : ∀ (acc : List (Bytes × Bytes)),
      (params.map encodeParam).foldl parsePiece (acc, none) = (acc ++ params, none) := by
    induction params with
    | nil => intro acc; simp
    | cons p params ih =>
      intro acc
      rw [List.map_cons, List.foldl_cons, parsePiece_encodeParam, ih, List.append_assoc,
        List.singleton_append]
  cases params with
  | nil => rfl
  | cons p params =>
    have hamp : ∀ piece ∈ (p :: params).map encodeParam, '&'.toUInt8 ∉ piece := by
      intro piece hpiece
      obtain ⟨q, -, rfl⟩ := List.mem_map.1 hpiece
      rw [encodeParam, List.mem_append, List.mem_cons, not_or, not_or]
      exact ⟨notMem_escape rfl (by decide) (by decide), by decide,
        notMem_escape rfl (by decide) (by decide)⟩
    rw [parseQuery, List.splitOn_intercalate _ hamp (by simp), hfold, List.nil_append]

end Aggregator.Go.Url
