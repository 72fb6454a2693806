/-
  Building requests (`internal/exchanges/common/request_builder.go`).

  An endpoint has templates for the path, the parameters and the headers of a
  request, and the values come from the job and its symbol.  The maps of the
  source are ranged over in any order, which `Orders` chooses; parsing and
  resolving URLs is left to `Network`.

  * `buildRequest_query`: in every order, the query string is read back as the
    parameters of the template, with the placeholders of each substituted at once
    and those left out that are blank;
  * `replacePathTemplate_segments`: in every order, a path template is resolved; a
    value adds no segment, query or fragment, and is read back from its segment.
-/
import Aggregator.Exchanges.RequestBuilder
import Aggregator.Go.Strconv
import Aggregator.Go.Url
import Aggregator.Scheduler.Registry

namespace Aggregator.Exchanges

open Aggregator.Go Aggregator.Go.Url Aggregator.Scheduler Aggregator.Substitute

/-- The part of a row of `exchange_api_endpoints` that requests are built from.  A
    template that is empty is `none`. -/
structure RequestEndpoint extends EndpointRow where
  method : String
  baseURL : String
  path : String
  paramsTemplate : Option Json
  headersTemplate : Option Json

/-- The assets of a symbol. -/
structure Assets where
  baseAsset : String
  quoteAsset : String
deriving DecidableEq, Repr

/-! ## Placeholders -/

/-- `strings.TrimRight(s, c)` for one character. -/
def trimRight (c : Char) (s : String) : String :=
  String.ofList (s.toList.reverse.dropWhile (· = c)).reverse

/-- `stringify`; a number in a decoded `any` is a `float64`. -/
def stringify : Option Json → String
  | some (.str s) => trimSpace s
  | some (.int n) => trimRight '.' (trimRight '0' (formatF (roundFloat64 n)))
  | some (.dec q) => trimRight '.' (trimRight '0' (formatF (roundFloat64 q)))
  | _ => ""

/-- `metadata[name]` after decoding into a map; of members with the same name the
    last one counts, and what does not decode has no members. -/
def metadataMember (job : Job) (name : String) : Option Json :=
  match job.metadata with
  | some (.obj fields) =>
    if (Json.obj fields).decodes then (fields.reverse.find? fun f => f.1 = name).map Prod.snd
    else none
  | _ => none

def placeholdersFromJob (job : Job) (symbol : Assets) : RequestPlaceholders where
  sourceSymbol := trimSpace job.sourceSymbol
  baseAsset := trimSpace symbol.baseAsset
  quoteAsset := trimSpace symbol.quoteAsset
  period := trimSpace job.period
  startTime := stringify (metadataMember job "start_time")
  endTime := stringify (metadataMember job "end_time")
  limit :=
    let limit := stringify (metadataMember job "limit")
    if limit ≠ "" then limit else "100"

/-! ## Parameters and headers -/

/-- The orders in which maps are ranged over: that of a template, and those of the
    replacements for each of its entries. -/
structure Orders where
  entries : List (String × String) → List (String × String)
  entries_perm : ∀ l, (entries l).Perm l
  table : String → List (String × String) → List (String × String)
  table_perm : ∀ key l, (table key l).Perm l

/-- A member of a `map[string]string`. -/
def templateEntry (f : String × Json) : Option (String × String) :=
  match f.2 with
  | .str s => some (f.1, s)
  | .null => some (f.1, "")
  | _ => none

/-- Of members with the same name the last one counts. -/
def lastEntry (e : String × String) (rest : List (String × String)) : List (String × String) :=
  if rest.any (·.1 = e.1) then rest else e :: rest

/-- Decoding into a `map[string]string`. -/
def templateEntries : Json → Option (List (String × String))
  | .null => some []
  | .obj fields => (fields.mapM templateEntry).map (List.foldr lastEntry [])
  | _ => none

/-- The loop of `buildQuery` and `buildHeaders`. -/
def expandEntry (o : Orders) (p : RequestPlaceholders) (values : List (String × String))
    (e : String × String) : Except String (List (String × String)) := do
  let value ← replaceTemplate (o.table e.1 (replacements p)) e.2
  if trimSpace value = "" then return values else return values ++ [(e.1, value)]

def expandTemplate (o : Orders) (name : String) (p : RequestPlaceholders) :
    Option Json → Except String (List (String × String))
  | none => .ok []
  | some raw =>
    match templateEntries raw with
    | none => .error s!"parse {name}: json: cannot unmarshal"
    | some entries => (o.entries entries).foldlM (expandEntry o p) []

def buildQuery (o : Orders) (raw : Option Json) (p : RequestPlaceholders) :
    Except String (List (String × String)) :=
  expandTemplate o "params_template" p raw

def buildHeaders (o : Orders) (raw : Option Json) (p : RequestPlaceholders) :
    Except String (List (String × String)) :=
  expandTemplate o "headers_template" p raw

/-- `values.Encode()`. -/
def encodeQuery (values : List (String × String)) : Bytes :=
  encode (values.map (Prod.map utf8 utf8))

/-! ## Paths -/

/-- A text of ASCII bytes. -/
def ofAscii (bytes : Bytes) : String := String.ofList (bytes.map fun b => Char.ofNat b.toNat)

/-- `url.PathEscape`. -/
def pathEscaped (s : String) : String := ofAscii (pathEscape (utf8 s))

def RequestPlaceholders.escaped (p : RequestPlaceholders) : RequestPlaceholders where
  sourceSymbol := pathEscaped p.sourceSymbol
  baseAsset := pathEscaped p.baseAsset
  quoteAsset := pathEscaped p.quoteAsset
  period := pathEscaped p.period
  startTime := pathEscaped p.startTime
  endTime := pathEscaped p.endTime
  limit := pathEscaped p.limit

def replacePathTemplate (o : Orders) (value : String) (p : RequestPlaceholders) :
    Except String String :=
  replaceTemplate (o.table "" (replacements p.escaped)) value

/-! ## Requests -/

/-- What `net/url` and `net/http` do with the texts. -/
structure Network (U : Type) where
  parse : String → Except String U
  resolveReference : U → U → U
  newRequest : String → U → Bytes → Option String

structure BuiltRequest (U : Type) where
  method : String
  path : String
  url : U
  rawQuery : Bytes
  headers : List (String × String)
  timeout : ℤ
  endpointID : ℤ
  endpointName : String
  dataType : String
deriving DecidableEq, Repr

def errEndpointInactive : String := "endpoint is inactive"

def buildRequest {U : Type} (net : Network U) (o : Orders) (endpoint : RequestEndpoint) (job : Job)
    (symbol : Assets) : Except String (BuiltRequest U) :=
  if !endpoint.isActive then
    .error s!"{errEndpointInactive}: {endpoint.exchange}/{endpoint.marketType}/{endpoint.dataType}/{endpoint.name}"
  else if trimSpace job.sourceSymbol = "" then .error "job source_symbol is required"
  else do
    let placeholders := placeholdersFromJob job symbol
    let path ← replacePathTemplate o endpoint.path placeholders
    let baseURL ← (net.parse endpoint.baseURL).mapError ("parse endpoint base_url: " ++ ·)
    let pathURL ← (net.parse path).mapError ("parse endpoint path: " ++ ·)
    let fullURL := net.resolveReference baseURL pathURL
    let query ← buildQuery o endpoint.paramsTemplate placeholders
    let rawQuery := encodeQuery query
    match net.newRequest endpoint.method fullURL rawQuery with
    | some err => .error ("build request: " ++ err)
    | none =>
      let headers ← buildHeaders o endpoint.headersTemplate placeholders
      return ⟨endpoint.method, path, fullURL, rawQuery, headers,
        wrap64 (endpoint.timeoutMS * 1000000), endpoint.id, endpoint.name, endpoint.dataType⟩

/-! ## The query -/

/-- The parameters of a template, the placeholders of each substituted at once. -/
def queryParams (p : RequestPlaceholders) (entries : List (String × String)) :
    List (String × String) :=
  (entries.map fun e => (e.1, substituted p e.2)).filter fun e => trimSpace e.2 ≠ ""

section
variable {o : Orders} {p : RequestPlaceholders}

theorem nodup_foldr_lastEntry (l : List (String × String)) :
    ((l.foldr lastEntry []).map Prod.fst).Nodup := by
  induction l with
  | nil => exact List.nodup_nil
  | cons e l ih =>
    rw [List.foldr_cons, lastEntry]
    split
    · exact ih
    · rename_i hnew
      rw [List.map_cons, List.nodup_cons]
      refine ⟨fun hmem => hnew ?_, ih⟩
      obtain ⟨e', he', hkey⟩ := List.mem_map.1 hmem
      exact List.any_eq_true.2 ⟨e', he', decide_eq_true hkey⟩

/-- The names of a decoded map differ. -/
theorem nodup_templateEntries {raw : Json} {entries : List (String × String)}
    (h : templateEntries raw = some entries) : (entries.map Prod.fst).Nodup := by
  unfold templateEntries at h
  split at h
  · obtain rfl := Option.some.inj h
    exact List.nodup_nil
  · obtain ⟨l, -, rfl⟩ := Option.map_eq_some_iff.1 h
    exact nodup_foldr_lastEntry l
  · cases h

/-- One entry, if substituting all placeholders at once leaves none. -/
theorem expandEntry_eq_ok {values values' : List (String × String)} {e : String × String}
    (hclean : ¬HasPlaceholder p (substituted p e.2)) (h : expandEntry o p values e = .ok values') :
    values' = values ++ queryParams p [e] := by
  obtain ⟨value, hvalue, h⟩ := bind_eq_ok h
  rw [replaceTemplate_of_resolved hclean (o.table_perm e.1 _)] at hvalue
  obtain rfl := Except.ok.inj (elseIf_eq_ok.1 hvalue).2
  split at h
  · rename_i hblank
    obtain rfl := Except.ok.inj h
    simp [queryParams, hblank]
  · rename_i hblank
    obtain rfl := Except.ok.inj h
    simp [queryParams, hblank]

theorem queryParams_cons (e : String × String) (entries : List (String × String)) :
    queryParams p (e :: entries) = queryParams p [e] ++ queryParams p entries := by
  unfold queryParams
  rw [← List.filter_append]
  rfl

theorem expandEntries_eq_ok {entries values values' : List (String × String)}
    (hclean : ∀ e ∈ entries, ¬HasPlaceholder p (substituted p e.2))
    (h : entries.foldlM (expandEntry o p) values = .ok values') :
    values' = values ++ queryParams p entries := by
  induction entries generalizing values with
  | nil =>
    obtain rfl := Except.ok.inj h
    exact (List.append_nil _).symm
  | cons e entries ih =>
    rw [List.foldlM_cons] at h
    obtain ⟨mid, hone, hrest⟩ := bind_eq_ok h
    rw [ih (fun e' he' => hclean e' (List.mem_cons_of_mem _ he')) hrest,
      expandEntry_eq_ok (hclean e List.mem_cons_self) hone, List.append_assoc,
      ← queryParams_cons]

/-- What `buildQuery` returns, in every order. -/
theorem buildQuery_perm {raw : Json} {entries values : List (String × String)}
    (hentries : templateEntries raw = some entries)
    (hclean : ∀ e ∈ entries, ¬HasPlaceholder p (substituted p e.2))
    (h : buildQuery o (some raw) p = .ok values) : values.Perm (queryParams p entries) := by
  simp only [buildQuery, expandTemplate, hentries] at h
  have hperm := o.entries_perm entries
  rw [expandEntries_eq_ok (fun e he => hclean e (hperm.mem_iff.1 he)) h, List.nil_append]
  exact (hperm.map _).filter _

theorem nodup_queryParams {entries : List (String × String)} (h : (entries.map Prod.fst).Nodup) :
    ((queryParams p entries).map Prod.fst).Nodup := by
  refine List.Nodup.sublist (List.filter_sublist.map _) ?_
  rwa [List.map_map]

/-- The query string does not depend on the order. -/
theorem encodeQuery_perm {values values' : List (String × String)} (h : values.Perm values')
    (hnodup : (values'.map Prod.fst).Nodup) : encodeQuery values = encodeQuery values' := by
  refine encode_perm (h.map _) ?_
  rw [List.map_map]
  have hnames : (values.map Prod.fst).Nodup := (h.map Prod.fst).nodup_iff.2 hnodup
  have := hnames.map utf8_injective
  rwa [List.map_map] at this

/-- The query of a request that is built. -/
theorem buildRequest_rawQuery {U : Type} {net : Network U} {endpoint : RequestEndpoint} {job : Job}
    {symbol : Assets} {req : BuiltRequest U}
    (h : buildRequest net o endpoint job symbol = .ok req) :
    ∃ values, buildQuery o endpoint.paramsTemplate (placeholdersFromJob job symbol) = .ok values ∧
      req.rawQuery = encodeQuery values := by
  unfold buildRequest at h
  split at h
  · cases h
  split at h
  · cases h
  obtain ⟨path, -, h⟩ := bind_eq_ok h
  obtain ⟨baseURL, -, h⟩ := bind_eq_ok h
  obtain ⟨pathURL, -, h⟩ := bind_eq_ok h
  obtain ⟨values, hvalues, h⟩ := bind_eq_ok h
  refine ⟨values, hvalues, ?_⟩
  dsimp only at h
  split at h
  · cases h
  · obtain ⟨headers, -, h⟩ := bind_eq_ok h
    obtain rfl := Except.ok.inj h
    rfl

end

/-- **The query is read back.**  Whatever the symbol, the period and the metadata of
    the job contain, and in whatever order maps are ranged over: if substituting the
    placeholders of a parameter leaves none, the query string of a request is that of
    the template's parameters, the blank ones left out, and a server reads just these
    from it. -/
theorem buildRequest_query {U : Type} {net : Network U} {o : Orders} {endpoint : RequestEndpoint}
    {job : Job} {symbol : Assets} {req : BuiltRequest U} {raw : Json}
    {entries : List (String × String)} (hraw : endpoint.paramsTemplate = some raw)
    (hentries : templateEntries raw = some entries)
    (hclean : ∀ e ∈ entries, ¬HasPlaceholder (placeholdersFromJob job symbol)
      (substituted (placeholdersFromJob job symbol) e.2))
    (h : buildRequest net o endpoint job symbol = .ok req) :
    req.rawQuery = encodeQuery (queryParams (placeholdersFromJob job symbol) entries) ∧
      (parseQuery req.rawQuery).2 = none ∧
      (parseQuery req.rawQuery).1.Perm
        ((queryParams (placeholdersFromJob job symbol) entries).map (Prod.map utf8 utf8)) := by
  obtain ⟨values, hvalues, hquery⟩ := buildRequest_rawQuery h
  rw [hraw] at hvalues
  have hperm := buildQuery_perm hentries hclean hvalues
  have heq : req.rawQuery = encodeQuery (queryParams (placeholdersFromJob job symbol) entries) := by
    rw [hquery]
    exact encodeQuery_perm hperm (nodup_queryParams (nodup_templateEntries hentries))
  refine ⟨heq, ?_, ?_⟩
  · rw [heq, encodeQuery, parseQuery_encode]
  · rw [heq, encodeQuery, parseQuery_encode]
    exact List.perm_insertionSort _ _

/-- Maps ranged over in the order of their entries. -/
def inOrder : Orders := ⟨id, List.Perm.refl, fun _ => id, fun _ => List.Perm.refl⟩

/-- URLs as texts. -/
def plainNetwork : Network String := ⟨.ok, (· ++ ·), fun _ _ _ => none⟩

def klinesParams : List (String × String) :=
  [("symbol", "\x7b\x7bsource_symbol\x7d\x7d"), ("interval", "\x7b\x7bperiod\x7d\x7d"),
    ("startTime", "\x7b\x7bstart_time\x7d\x7d")]

/-- An endpoint for candles. -/
def klinesEndpoint : RequestEndpoint where
  id := 7
  name := "klines"
  requestWeight := 1
  timeoutMS := 5000
  rateLimitPerSecond := 1
  rateLimitPerMinute := 60
  exchange := "binance"
  marketType := "futures"
  dataType := "kline"
  isActive := true
  method := "GET"
  baseURL := "https://fapi.binance.com"
  path := "/fapi/v1/klines"
  paramsTemplate := some (.obj (klinesParams.map fun e => (e.1, .str e.2)))
  headersTemplate := none

/-- A job without a start, of a symbol that has to be escaped. -/
def escapedJob : Job :=
  .planned 1 "binance" "kline" "all" 1 "A&B=C" "5m" 100 3 (.obj [("end_time", .int 600)]) 0

theorem buildRequest_query_escaped :
    ∃ req, buildRequest plainNetwork inOrder klinesEndpoint escapedJob ⟨"A", "B"⟩ = .ok req ∧
      (parseQuery req.rawQuery).2 = none ∧
      (parseQuery req.rawQuery).1.Perm
        [(utf8 "symbol", utf8 "A&B=C"), (utf8 "interval", utf8 "5m")] := by
  have hentries : templateEntries (.obj (klinesParams.map fun e => (e.1, .str e.2))) =
      some klinesParams := by decide +kernel
  have hparams : queryParams (placeholdersFromJob escapedJob ⟨"A", "B"⟩) klinesParams =
      [("symbol", "A&B=C"), ("interval", "5m")] := by decide +kernel
  have hok : (buildRequest plainNetwork inOrder klinesEndpoint escapedJob ⟨"A", "B"⟩).isOk := by
    decide +kernel
  cases hreq : buildRequest plainNetwork inOrder klinesEndpoint escapedJob ⟨"A", "B"⟩ with
  | error e =>
    rw [hreq] at hok
    cases hok
  | ok req =>
    have hquery := buildRequest_query rfl hentries (by decide +kernel) hreq
    rw [hparams] at hquery
    exact ⟨req, rfl, hquery.2⟩

/-! ## The path -/

def escapeChars (cs : List Char) : List Char :=
  (pathEscape (utf8Chars cs)).map fun b => Char.ofNat b.toNat

theorem pathEscape_byte {cs : List Char} {b : UInt8} (h : b ∈ pathEscape (utf8Chars cs)) :
    shouldEscape .pathSegment b = false ∨ b = '%'.toUInt8 := by
  rcases mem_escape h with h | h | ⟨-, h⟩
  · exact .inl h
  · exact .inr h
  · cases h

/-- The bytes of an escaped text are ASCII. -/
theorem utf8Chars_escapeChars (cs : List Char) :
    utf8Chars (escapeChars cs) = pathEscape (utf8Chars cs) := by
  have hascii : ∀ b : UInt8, (shouldEscape .pathSegment b = false ∨ b = '%'.toUInt8) →
      String.utf8EncodeChar (Char.ofNat b.toNat) = [b] := forall_byte (by decide +kernel)
  rw [escapeChars, utf8Chars, List.flatMap_map]
  calc _ = (pathEscape (utf8Chars cs)).flatMap (fun b => [b]) :=
        List.flatMap_congr fun b hb => hascii b (pathEscape_byte hb)
    _ = _ := List.flatMap_singleton' _

/-- The characters that are not in an escaped text. -/
theorem notMem_escapeChars {c : Char} (hc : c ∈ ['/', '?', '#', '\x7b', '\x7d']) (cs : List Char) :
    c ∉ escapeChars cs := by
  have hascii : ∀ b : UInt8, (shouldEscape .pathSegment b = false ∨ b = '%'.toUInt8) →
      Char.ofNat b.toNat ∉ ['/', '?', '#', '\x7b', '\x7d'] := forall_byte (by decide +kernel)
  intro hmem
  obtain ⟨b, hb, rfl⟩ := List.mem_map.1 hmem
  exact hascii b (pathEscape_byte hb) hc

theorem charTable_escaped (p : RequestPlaceholders) :
    charTable (replacements p.escaped) =
      (charTable (replacements p)).map (Prod.map id escapeChars) := by
  simp [charTable, replacements, RequestPlaceholders.escaped, pathEscaped, ofAscii, utf8,
    escapeChars]

/-- A token of a template, with the values of its placeholders escaped or not. -/
def tokenChars : Char ⊕ (List Char × List Char) → List Char := Sum.elim (fun c => [c]) Prod.snd

def tokenEscaped : Char ⊕ (List Char × List Char) → List Char :=
  Sum.elim (fun c => [c]) fun e => escapeChars e.2

/-- The template as characters and placeholders with their values. -/
def templateTokens (p : RequestPlaceholders) (value : String) :
    List (Char ⊕ (List Char × List Char)) :=
  tokens (charTable (replacements p)) value.toList

/-- The characters of a template outside its placeholders. -/
def literal (p : RequestPlaceholders) (value : String) : List Char :=
  (templateTokens p value).filterMap Sum.getLeft?

def isSlash : Char ⊕ (List Char × List Char) → Bool := Sum.elim (· = '/') fun _ => false

/-- The segments of a path template, with the values substituted. -/
def pathSegments (p : RequestPlaceholders) (value : String) : List (List Char) :=
  ((templateTokens p value).splitOnP isSlash).map fun segment => segment.flatMap tokenChars

theorem substituted_escaped (p : RequestPlaceholders) (value : String) :
    (substituted p.escaped value).toList = (templateTokens p value).flatMap tokenEscaped := by
  rw [substituted, String.toList_ofList, substitute_eq_flatMap, charTable_escaped,
    tokens_mapValues, List.flatMap_map]
  refine List.flatMap_congr fun t _ => ?_
  rcases t with c | e <;> rfl

theorem mem_literal {p : RequestPlaceholders} {value : String} {c : Char} :
    c ∈ literal p value ↔ .inl c ∈ templateTokens p value := by
  simp only [literal, List.mem_filterMap, Sum.getLeft?_eq_some_iff, exists_eq_right]

theorem notMem_tokenEscaped {c : Char} (hc : c ∈ ['/', '?', '#', '\x7b', '\x7d'])
    {t : Char ⊕ (List Char × List Char)} (ht : t ≠ .inl c) : c ∉ tokenEscaped t := by
  rcases t with d | e
  · intro h
    exact ht (congrArg _ (List.mem_singleton.1 h).symm)
  · exact notMem_escapeChars hc e.2

theorem notMem_flatMap_tokenEscaped {c : Char} (hc : c ∈ ['/', '?', '#', '\x7b', '\x7d'])
    {ts : List (Char ⊕ (List Char × List Char))} (hts : .inl c ∉ ts) :
    c ∉ ts.flatMap tokenEscaped := by
  intro h
  obtain ⟨t, ht, hmem⟩ := List.mem_flatMap.1 h
  exact notMem_tokenEscaped hc (fun heq => hts (heq ▸ ht)) hmem

theorem unescape_tokens {ts : List (Char ⊕ (List Char × List Char))} (hts : .inl '%' ∉ ts) :
    unescape .pathSegment (utf8Chars (ts.flatMap tokenEscaped)) =
      .ok (utf8Chars (ts.flatMap tokenChars)) := by
  induction ts with
  | nil => rfl
  | cons t ts ih =>
    have hrest := ih fun h => hts (List.mem_cons_of_mem _ h)
    rw [List.flatMap_cons, List.flatMap_cons, utf8Chars_append, utf8Chars_append]
    rcases t with c | e
    · have hc : c ≠ '%' := fun h => hts (h ▸ List.mem_cons_self)
      have hone : '%'.toUInt8 ∉ utf8Chars (tokenEscaped (.inl c)) := by
        rw [tokenEscaped, Sum.elim_inl, utf8Chars, List.flatMap_singleton]
        exact notMem_utf8EncodeChar hc
      rw [unescape_append_of_notMem hone, hrest]
      rfl
    · change unescape _ (utf8Chars (escapeChars e.2) ++ _) = _
      rw [utf8Chars_escapeChars, pathEscape, unescape_escape_append, hrest]
      rfl

theorem contains_eq_false {s t : String} {c : Char} (hc : c ∈ t.toList) (h : c ∉ s.toList) :
    contains s t = false :=
  decide_eq_false fun hin => h (hin.subset hc)

/-- **A value stays in its segment.**  If a path template has no braces but those of
    its placeholders, and no escapes of its own, it is resolved in every order of the
    map, whatever the values are.  No value starts a query or a fragment.  The
    segments of the path are those of the template, and reading one back gives its
    text with the values substituted. -/
theorem replacePathTemplate_segments {o : Orders} {p : RequestPlaceholders} {value : String}
    (hliteral : ∀ c ∈ ['\x7b', '\x7d', '%'], c ∉ literal p value) :
    ∃ path, replacePathTemplate o value p = .ok path ∧
      (∀ c ∈ ['?', '#'], c ∈ path.toList → c ∈ literal p value) ∧
      (path.toList.splitOn '/').map (fun segment => unescape .pathSegment (utf8Chars segment)) =
        (pathSegments p value).map fun segment => .ok (utf8Chars segment) := by
  have hchars := substituted_escaped p value
  have hbrace : ∀ c ∈ ['\x7b', '\x7d'], c ∉ (substituted p.escaped value).toList := by
    intro c hc
    rw [hchars]
    exact notMem_flatMap_tokenEscaped (List.mem_append_right ['/', '?', '#'] hc)
      fun h => hliteral c (List.mem_append_left ['%'] hc) (mem_literal.2 h)
  have hresolved : unresolved (substituted p.escaped value) = false := by
    rw [unresolved, Bool.or_eq_false_iff]
    constructor
    · exact contains_eq_false (c := '\x7b') (by decide +kernel) (hbrace _ (by simp))
    · exact contains_eq_false (c := '\x7d') (by decide +kernel) (hbrace _ (by simp))
  refine ⟨substituted p.escaped value, ?_, ?_, ?_⟩
  · have hclean : ¬HasPlaceholder p.escaped (substituted p.escaped value) := fun h =>
      Bool.false_ne_true (hresolved.symm.trans (unresolved_of_hasPlaceholder h))
    rw [replacePathTemplate, replaceTemplate_of_resolved hclean (o.table_perm "" _), hresolved]
    rfl
  · intro c hc hmem
    rw [hchars] at hmem
    rw [mem_literal]
    by_contra hnot
    exact notMem_flatMap_tokenEscaped
      (List.mem_cons_of_mem '/' (List.mem_append_left ['\x7b', '\x7d'] hc)) hnot hmem
  · have hslash : ∀ t ∈ templateTokens p value, isSlash t = true → tokenEscaped t = ['/'] := by
      rintro (c | e) - h
      · rw [of_decide_eq_true h]
        rfl
      · cases h
    have hother : ∀ t ∈ templateTokens p value, isSlash t = false → '/' ∉ tokenEscaped t := by
      rintro t - h
      refine notMem_tokenEscaped List.mem_cons_self ?_
      rintro rfl
      cases h
    rw [hchars, splitOn_flatMap hslash hother, pathSegments, List.map_map, List.map_map]
    refine List.map_congr_left fun segment hsegment => unescape_tokens fun h => ?_
    exact hliteral '%' (by simp) (mem_literal.2 (mem_of_mem_splitOnP hsegment h))

/-- A symbol with a slash, a question mark and a percent sign. -/
def slashPlaceholders : RequestPlaceholders := ⟨"A/B?%41", "", "", "5m", "", "", "100"⟩

theorem replacePathTemplate_segments_slash :
    let value := "/v1/\x7b\x7bsource_symbol\x7d\x7d/\x7b\x7bperiod\x7d\x7d"
    literal slashPlaceholders value = ['/', 'v', '1', '/', '/'] ∧
      (pathSegments slashPlaceholders value).map String.ofList = ["", "v1", "A/B?%41", "5m"] ∧
      ∀ o, ∃ path, replacePathTemplate o value slashPlaceholders = .ok path ∧
        (∀ c ∈ ['?', '#'], c ∈ path.toList → c ∈ literal slashPlaceholders value) ∧
        (path.toList.splitOn '/').map (fun segment => unescape .pathSegment (utf8Chars segment)) =
          (pathSegments slashPlaceholders value).map fun segment => .ok (utf8Chars segment) := by
  intro value
  have hliteral : literal slashPlaceholders value = ['/', 'v', '1', '/', '/'] := by decide +kernel
  refine ⟨hliteral, by decide +kernel, fun o => replacePathTemplate_segments ?_⟩
  rw [hliteral]
  simp

end Aggregator.Exchanges
