/-
  The two filters on the raw data of a row: `rawJSONMarkedDegraded` of
  `internal/repositories/aggregate_quality.go`, which `BuildLatest` asks, and
  the condition

    lower(COALESCE(raw_data->>'quality_status', raw_data->>'status',
      raw_data->>'normalized_status', 'ok')) NOT IN ('degraded', …)

  of the window queries in `aggregate_analytics.go` (`leftOut`).

  * `anyMarkedDegraded_iff`: the first asks for a member, at any depth, that
    marks the value;
  * `leftOut_iff`: the second for a bad status of the object itself, which is such a
    mark (`markedIn_of_badStatus`);
  * `filters_agree_iff`: when the two agree on a stored value.
-/
import Aggregator.Repositories.Aggregate
import Aggregator.Repositories.Windows

namespace Aggregator.Repositories

open Aggregator.Go Aggregator.Normalizers

/-- The member `key` with the value `item` is somewhere in a value. -/
inductive Occurs (key : String) (item : Json) : Json → Prop
  | here {fields : List (String × Json)} : (key, item) ∈ fields → Occurs key item (.obj fields)
  | inField {fields : List (String × Json)} {name : String} {value : Json} :
      (name, value) ∈ fields → Occurs key item value → Occurs key item (.obj fields)
  | inItem {items : List Json} {value : Json} :
      value ∈ items → Occurs key item value → Occurs key item (.arr items)

/-- A member that marks the value it is in: a bad status, or a flag. -/
inductive Mark : String → Json → Prop
  | status {key text : String} :
      toLower (trimSpace key) ∈
        ["quality_status", "data_quality", "normalized_status", "status", "health"] →
      toLower (trimSpace text) ∈ ["degraded", "failed", "invalid", "unhealthy"] →
      Mark key (.str text)
  | flag {key : String} : toLower (trimSpace key) ∈ ["degraded", "failed"] → Mark key (.bool true)

/-- There is one, at any depth. -/
def MarkedIn (value : Json) : Prop := ∃ key item, Occurs key item value ∧ Mark key item

/-- The object does not have the member, or has it with `null`. -/
def Lacks (key : String) (fields : List (String × Json)) : Prop :=
  ∀ item, (key, item) ∈ fields → item = .null

/-- The status of an object is a text: that of the first of three members it does
    not lack. -/
inductive Status (fields : List (String × Json)) : String → Prop
  | quality {text : String} : ("quality_status", .str text) ∈ fields → Status fields text
  | plain {text : String} : Lacks "quality_status" fields → ("status", .str text) ∈ fields →
      Status fields text
  | normalized {text : String} : Lacks "quality_status" fields → Lacks "status" fields →
      ("normalized_status", .str text) ∈ fields → Status fields text

/-- The value is an object with a bad status. -/
def BadStatus (lower : String → String) (value : Json) : Prop :=
  ∃ fields text, value = .obj fields ∧ Status fields text ∧
    lower text ∈ ["degraded", "failed", "invalid", "unhealthy"]

/-- `lower` of a database depends on its collation; where the result is ASCII it is
    that of Go, whatever the collation. -/
structure Collation where
  lower : String → String
  lower_eq : ∀ s, (∀ c ∈ (lower s).toList, c.toNat < 128) → lower s = toLower s

/-! ## The filter of `BuildLatest` -/

theorem memberMarkedDegraded_iff {key : String} {item : Json} :
    memberMarkedDegraded key item = true ↔ Mark key item := by
  -- no key is both a status and a flag
  have hother : ∀ k ∈ ["degraded", "failed"],
      k ∉ ["quality_status", "data_quality", "normalized_status", "status", "health"] := by
    decide
  unfold memberMarkedDegraded
  dsimp only
  constructor
  · intro h
    split at h
    · rename_i hkey
      cases item with
      | str text =>
        rw [degradedStatus, decide_eq_true_eq] at h
        exact .status hkey h
      | _ => simp only [degradedStatus, Bool.false_eq_true] at h
    · split at h
      · rename_i hkey
        cases item with
        | bool flag =>
          rw [boolValue] at h
          subst h
          exact .flag hkey
        | _ => simp only [boolValue, Bool.false_eq_true] at h
      · cases h
  · rintro (⟨hkey, htext⟩ | hkey)
    · rw [if_pos hkey, degradedStatus, decide_eq_true_eq]
      exact htext
    · rw [if_neg (hother _ hkey), if_pos hkey, boolValue]

theorem fieldsMarkedDegraded_iff {fields : List (String × Json)} :
    fieldsMarkedDegraded fields = true ↔ ∃ f ∈ fields,
      Mark f.1 f.2 ∨ anyMarkedDegraded f.2 = true := by
  induction fields with
  | nil => simp [fieldsMarkedDegraded]
  | cons f fields ih =>
    obtain ⟨key, item⟩ := f
    simp [fieldsMarkedDegraded, ih, memberMarkedDegraded_iff]

theorem itemsMarkedDegraded_iff {items : List Json} :
    itemsMarkedDegraded items = true ↔ ∃ item ∈ items, anyMarkedDegraded item = true := by
  induction items with
  | nil => simp [itemsMarkedDegraded]
  | cons item items ih => simp [itemsMarkedDegraded, ih]

theorem anyMarkedDegraded_of_markedIn {value : Json} (h : MarkedIn value) :
    anyMarkedDegraded value = true := by
  obtain ⟨key, item, hoccurs, hmark⟩ := h
  induction hoccurs with
  | here hmem => exact fieldsMarkedDegraded_iff.2 ⟨_, hmem, .inl hmark⟩
  | inField hmem _ ih => exact fieldsMarkedDegraded_iff.2 ⟨_, hmem, .inr ih⟩
  | inItem hmem _ ih => exact itemsMarkedDegraded_iff.2 ⟨_, hmem, ih⟩

mutual

/-- By recursion on the value, as the filter itself. -/
theorem markedIn_of_any : ∀ value : Json, anyMarkedDegraded value = true → MarkedIn value
  | .obj fields => fun h => by
    rw [anyMarkedDegraded] at h
    obtain ⟨name, value, hmem, hmark | ⟨key, item, hoccurs, hmark⟩⟩ := marked_of_fields fields h
    · exact ⟨name, value, .here hmem, hmark⟩
    · exact ⟨key, item, .inField hmem hoccurs, hmark⟩
  | .arr items => fun h => by
    rw [anyMarkedDegraded] at h
    obtain ⟨value, hmem, key, item, hoccurs, hmark⟩ := marked_of_items items h
    exact ⟨key, item, .inItem hmem hoccurs, hmark⟩
  | .null => fun h => by simp [anyMarkedDegraded] at h
  | .bool _ => fun h => by simp [anyMarkedDegraded] at h
  | .int _ => fun h => by simp [anyMarkedDegraded] at h
  | .dec _ => fun h => by simp [anyMarkedDegraded] at h
  | .str _ => fun h => by simp [anyMarkedDegraded] at h

theorem marked_of_fields : ∀ fields : List (String × Json), fieldsMarkedDegraded fields = true →
    ∃ name value, (name, value) ∈ fields ∧ (Mark name value ∨ MarkedIn value)
  | [] => fun h => by simp [fieldsMarkedDegraded] at h
  | (name, value) :: fields => fun h => by
    rw [fieldsMarkedDegraded, Bool.or_eq_true, Bool.or_eq_true, memberMarkedDegraded_iff] at h
    rcases h with (hmark | hany) | hrest
    · exact ⟨name, value, List.mem_cons_self, .inl hmark⟩
    · exact ⟨name, value, List.mem_cons_self, .inr (markedIn_of_any value hany)⟩
    · obtain ⟨name', value', hmem, hmark⟩ := marked_of_fields fields hrest
      exact ⟨name', value', List.mem_cons_of_mem _ hmem, hmark⟩

theorem marked_of_items : ∀ items : List Json, itemsMarkedDegraded items = true →
    ∃ value ∈ items, MarkedIn value
  | [] => fun h => by simp [itemsMarkedDegraded] at h
  | value :: items => fun h => by
    rw [itemsMarkedDegraded, Bool.or_eq_true] at h
    rcases h with hany | hrest
    · exact ⟨value, List.mem_cons_self, markedIn_of_any value hany⟩
    · obtain ⟨value', hmem, hmark⟩ := marked_of_items items hrest
      exact ⟨value', List.mem_cons_of_mem _ hmem, hmark⟩

end

/-- **The filter of `BuildLatest`**: some member, at any depth, marks the value. -/
theorem anyMarkedDegraded_iff {value : Json} : anyMarkedDegraded value = true ↔ MarkedIn value :=
  ⟨markedIn_of_any value, anyMarkedDegraded_of_markedIn⟩

/-! ## The filter of the queries -/

theorem mem_of_mem_jsonbFields {key : String} {fields : List (String × Json)}
    (h : key ∈ (Json.jsonbFields fields).map Prod.fst) : key ∈ fields.map Prod.fst := by
  induction fields with
  | nil => exact h
  | cons f fields ih =>
    obtain ⟨name, item⟩ := f
    rw [Json.jsonbFields] at h
    split at h
    · exact List.mem_cons_of_mem _ (ih h)
    · rcases List.mem_cons.1 h with rfl | h
      · exact List.mem_cons_self
      · exact List.mem_cons_of_mem _ (ih h)

/-- A stored object has each key once. -/
theorem nodup_jsonbFields (fields : List (String × Json)) :
    ((Json.jsonbFields fields).map Prod.fst).Nodup := by
  induction fields with
  | nil => exact List.nodup_nil
  | cons f fields ih =>
    obtain ⟨name, item⟩ := f
    rw [Json.jsonbFields]
    split
    · exact ih
    · rename_i hnew
      refine List.nodup_cons.2 ⟨fun hmem => hnew ?_, ih⟩
      obtain ⟨f, hf, hname⟩ := List.mem_map.1 (mem_of_mem_jsonbFields hmem)
      exact List.any_eq_true.2 ⟨f, hf, decide_eq_true hname⟩

section
variable {key : String} {fields : List (String × Json)}

theorem member_eq_some (hn : (fields.map Prod.fst).Nodup) {item : Json} :
    member key (.obj fields) = some item ↔ (key, item) ∈ fields ∧ item ≠ .null := by
  have hfind : fields.find? (fun f => f.1 = key) = some (key, item) ↔ (key, item) ∈ fields := by
    constructor
    · exact List.mem_of_find?_eq_some
    · intro hmem
      have := Table.find_of_mem (t := (⟨fields, hn⟩ : Table Prod.fst)) hmem
      exact this
  rw [← hfind, member, Option.filter_eq_some_iff, Option.map_eq_some_iff]
  constructor
  · rintro ⟨⟨⟨name, item'⟩, hfound, rfl⟩, hnull⟩
    obtain rfl : name = key := by simpa using List.find?_some hfound
    refine ⟨hfound, ?_⟩
    rintro rfl
    cases hnull
  · rintro ⟨hfound, hnull⟩
    refine ⟨⟨_, hfound, rfl⟩, ?_⟩
    cases item with
    | null => exact absurd rfl hnull
    | _ => rfl

theorem member_eq_none (hn : (fields.map Prod.fst).Nodup) :
    member key (.obj fields) = none ↔ Lacks key fields := by
  constructor
  · intro h item hmem
    by_contra hnull
    rw [(member_eq_some hn).2 ⟨hmem, hnull⟩] at h
    cases h
  · intro h
    cases hmember : member key (.obj fields) with
    | none => rfl
    | some item =>
      obtain ⟨hmem, hnull⟩ := (member_eq_some hn).1 hmember
      exact absurd (h item hmem) hnull

/-- What `COALESCE` takes. -/
theorem findSome_eq_text (hn : (fields.map Prod.fst).Nodup) {text : String} :
    ["quality_status", "status", "normalized_status"].findSome? (member · (.obj fields)) =
      some (.str text) ↔ Status fields text := by
  have htext : ∀ key, member key (.obj fields) = some (.str text) ↔ (key, .str text) ∈ fields :=
    fun key => (member_eq_some hn).trans (and_iff_left (by simp))
  rw [List.findSome?_cons, List.findSome?_cons, List.findSome?_cons, List.findSome?_nil]
  constructor
  · intro h
    split at h
    · rename_i hquality
      exact .quality ((htext _).1 (hquality.trans h))
    · rename_i hquality
      have hlacks := (member_eq_none hn).1 hquality
      split at h
      · rename_i hplain
        exact .plain hlacks ((htext _).1 (hplain.trans h))
      · rename_i hplain
        have hlacks' := (member_eq_none hn).1 hplain
        split at h
        · rename_i hnormalized
          exact .normalized hlacks hlacks' ((htext _).1 (hnormalized.trans h))
        · cases h
  · intro h
    cases h with
    | quality hmem => rw [(htext _).2 hmem]
    | plain hquality hmem => rw [(member_eq_none hn).2 hquality, (htext _).2 hmem]
    | normalized hquality hplain hmem =>
      rw [(member_eq_none hn).2 hquality, (member_eq_none hn).2 hplain, (htext _).2 hmem]

/-- **The filter of the queries** asks for a bad status of the object itself. -/
theorem leftOut_iff {lower : String → String} (hn : (fields.map Prod.fst).Nodup) :
    leftOut lower (.obj fields) = true ↔ BadStatus lower (.obj fields) := by
  constructor
  · intro h
    unfold leftOut at h
    split at h
    · rename_i text hfound
      exact ⟨fields, text, rfl, (findSome_eq_text hn).1 hfound, of_decide_eq_true h⟩
    · cases h
  · rintro ⟨fields', text, heq, htext, hbad⟩
    obtain rfl := Json.obj.inj heq
    rw [leftOut, (findSome_eq_text hn).2 htext]
    exact decide_eq_true hbad

end

theorem leftOut_jsonb_iff (lower : String → String) (raw : Json) :
    leftOut lower raw.jsonb = true ↔ BadStatus lower raw.jsonb := by
  cases raw with
  | obj fields =>
    rw [Json.jsonb]
    exact leftOut_iff (nodup_jsonbFields fields)
  | _ =>
    refine iff_of_false (fun h => ?_) ?_
    · cases h
    · rintro ⟨fields, text, heq, -⟩
      cases heq

/-- **A bad status is a mark**: trimming does not change it, and Go lowers it so. -/
theorem markedIn_of_badStatus (collation : Collation) {value : Json}
    (h : BadStatus collation.lower value) : MarkedIn value := by
  obtain ⟨fields, text, rfl, hstatus, hbad⟩ := h
  have hascii : ∀ s ∈ ["degraded", "failed", "invalid", "unhealthy"],
      s.toList.all (fun c => c.toNat < 128) = true ∧ trimSpace s = s := by
    decide +kernel
  have hkeys : ∀ key ∈ ["quality_status", "status", "normalized_status"],
      toLower (trimSpace key) ∈
        ["quality_status", "data_quality", "normalized_status", "status", "health"] := by
    decide +kernel
  have htext : toLower (trimSpace text) ∈ ["degraded", "failed", "invalid", "unhealthy"] := by
    have hlower := collation.lower_eq text fun c hc =>
      of_decide_eq_true (List.all_eq_true.1 (hascii _ hbad).1 c hc)
    rw [← trimSpace_toLower, ← hlower, (hascii _ hbad).2]
    exact hbad
  have hmark : ∀ key ∈ ["quality_status", "status", "normalized_status"],
      (key, .str text) ∈ fields → MarkedIn (.obj fields) := fun key hkey hmem =>
    ⟨key, .str text, .here hmem, .status (hkeys key hkey) htext⟩
  cases hstatus with
  | quality hmem => exact hmark _ (by simp) hmem
  | plain _ hmem => exact hmark _ (by simp) hmem
  | normalized _ _ hmem => exact hmark _ (by simp) hmem

/-! ## The two on a stored value -/

/-- **The two filters agree on a stored value** exactly if it decodes in Go and has
    no mark at any depth, or has a bad status itself, or it does not decode and has
    no bad status. -/
theorem filters_agree_iff (collation : Collation) (raw : Json) :
    rawJSONMarkedDegraded (some raw.jsonb) = leftOut collation.lower raw.jsonb ↔
      raw.jsonb.decodes = true ∧ ¬MarkedIn raw.jsonb ∨
      raw.jsonb.decodes = true ∧ BadStatus collation.lower raw.jsonb ∨
      raw.jsonb.decodes = false ∧ ¬BadStatus collation.lower raw.jsonb := by
  have hmarked : anyMarkedDegraded raw.jsonb = true ↔ MarkedIn raw.jsonb := anyMarkedDegraded_iff
  have hleft := leftOut_jsonb_iff collation.lower raw
  have hbad : BadStatus collation.lower raw.jsonb → MarkedIn raw.jsonb :=
    markedIn_of_badStatus collation
  rw [rawJSONMarkedDegraded, Bool.eq_iff_iff, Bool.and_eq_true, hmarked, hleft]
  cases raw.jsonb.decodes with
  | true => simp only [true_and, Bool.true_eq_false, false_and, or_false]; tauto
  | false => simp only [Bool.false_eq_true, false_and, false_or, true_and, false_iff]

/-- A mark below the top is found in Go only, and one under a key with another case; a
    value with a number that is no `float64` does not decode there. -/
theorem filters_disagree :
    rawJSONMarkedDegraded (some (Json.obj [("data", .obj [("status", .str "failed")])]).jsonb) =
      true ∧
    statusLeftOut (Json.obj [("data", .obj [("status", .str "failed")])]).jsonb = false ∧
    rawJSONMarkedDegraded (some (Json.obj [("QUAL\u0130TY_STATUS", .str "failed")]).jsonb) = true ∧
    statusLeftOut (Json.obj [("QUAL\u0130TY_STATUS", .str "failed")]).jsonb = false ∧
    rawJSONMarkedDegraded (some (Json.obj [("status", .str "failed"),
      ("volume", .int (10 ^ 400))]).jsonb) = false ∧
    statusLeftOut (Json.obj [("status", .str "failed"), ("volume", .int (10 ^ 400))]).jsonb =
      true := by
  decide +kernel

end Aggregator.Repositories
