import EdgeBase.D1Writes
import EdgeBase.Access.Platform

/-!
# How a field is stored and read back

The Durable Object and the D1 handler keep booleans and JSON in columns of SQLite.  Every path that
writes a field encodes its value, and `normalizeRow` decodes what the column gives back.  There is
one decoder for each provider, and there are four encoders.

* `WritePath.bound` : the value that a path binds to the column of a field.
-/

namespace EdgeBase

open List Option Assoc D1

inductive SqliteProvider where
  | d1
  | durableObject
  deriving DecidableEq

inductive WritePath where
  | insert
  | upsert
  | patch
  | batchInsert
  | batchUpdate
  | batchByFilter
  | transactInsert
  | transactUpdate
  deriving DecidableEq

def WritePath.isUpdate : WritePath → Bool
  | .patch | .batchUpdate | .batchByFilter | .transactUpdate => true
  | .insert | .upsert | .batchInsert | .transactInsert => false

/-- The value that a clause gives its column; that of an increment is not known before. -/
def SetClause.value : SetClause → Option Json
  | .assign _ v => some v
  | .delete _ => some .null
  | .increment _ _ => none

section Paths

variable (env : Env) (config : TableConfig)

/-- The record that an insert stores: its columns and their values. -/
def insertedValues (p : SqliteProvider) (body : Row) (id : Json) : Row :=
  let record := buildRecord env (buildEffectiveSchema config.schema) body id
  match p with
  | .d1 => insertData env config record
  | .durableObject => insertValues env config record

def updatedValues (p : SqliteProvider) (path : WritePath) (body : Row) : Row :=
  let effective := buildEffectiveSchema config.schema
  match p, path with
  | .d1, .patch => singleUpdateData env effective (stampNow env effective body "updatedAt")
  | .durableObject, .patch =>
    let data := updateData env effective body
    serializeUpdate env effective
      (if config.schema.isSome then restrict effective.has data else data)
  | _, .batchByFilter => serializeUpdate env effective (touchUpdatedAt env effective body)
  | _, _ => serializeUpdate env effective (updateData env effective body)

/-- The value that a path binds to a column; it fails if the body has an unknown operator. -/
def WritePath.bound (p : SqliteProvider) (path : WritePath) (body : Row) (id : Json)
    (name : String) : Except HttpError (Option Json) :=
  if path.isUpdate then do
    let clauses ← parseUpdateBody env (updatedValues env config p path body)
    .ok ((clauses.find? (·.column = name)).bind SetClause.value)
  else .ok ((insertedValues env config p body id).lookup name)

end Paths

/-! ### The handlers

What `/batch`, `/transact` and `/batch-by-filter` send to the database, in terms of the paths. -/

section Handlers

variable (env : Env) (config : TableConfig) (name : String)

theorem DatabaseDO.insertOne_eq (message : String) (upsert : Option String) (item : Row) :
    DatabaseDO.insertOne env config name message upsert item = (do
      .lift (validBody (validateInsert env item config.schema) message)
      let id ← newRecordId env item
      let record := buildRecord env (buildEffectiveSchema config.schema) item id
      storeRecord env name (insertedValues env config .durableObject item id) record upsert
      pure record) := rfl

theorem D1.prepareInsert_eq (item : Row) :
    prepareInsert env config item = (do
      let id ← newRecordId env item
      pure (insertedValues env config .d1 item id)) := rfl

theorem DatabaseDO.updateOne_eq (id : String) (data : Row) (row : Option Row) :
    DatabaseDO.updateOne env config name id data row = (do
      let clauses ← .lift
        (parseUpdateBody env (updatedValues env config .durableObject .batchUpdate data))
      applyUpdate env name clauses [id] row.toList) := rfl

theorem D1.updateClauses_eq (data : Row) :
    updateClauses env config data =
      parseUpdateBody env (updatedValues env config .d1 .batchUpdate data) := rfl

theorem DatabaseDO.filterWrite_eq (update : Row) (rows : List Row) :
    DatabaseDO.filterWrite env config name .update update rows = (do
      let clauses ← .lift
        (parseUpdateBody env (updatedValues env config .durableObject .batchByFilter update))
      applyUpdate env name clauses (rows.filterMap Row.id) rows) := rfl

theorem D1.filterWrite_eq (update : Row) (rows : List Row) :
    D1.filterWrite env config name .update update rows = (do
      let clauses ← .lift
        (parseUpdateBody env (updatedValues env config .d1 .batchByFilter update))
      applyUpdate env name clauses (rows.filterMap Row.id) rows) := rfl

end Handlers

/-- What a column of a declared type gives back for the value that was bound.  The columns of
texts, dates and JSON have the type `TEXT`, those of numbers `REAL` and those of booleans
`INTEGER`; what a text column makes of a number or a boolean is the platform's. -/
structure Columns where
  read : SqliteProvider → FieldType → Json → Json
  read_null : ∀ p type, read p type .null = .null
  read_str : ∀ p type s, type ≠ .number → type ≠ .boolean → read p type (.str s) = .str s
  read_num : ∀ p q, read p .number (.num q) = .num q
  read_bit : ∀ p v, read p .boolean (booleanBit v) = booleanBit v

/-- `normalizeRow` of a provider. -/
def SqliteProvider.normalizeRow (p : SqliteProvider) (env : Env) (config : TableConfig)
    (row : Row) : Row :=
  match p with
  | .d1 => D1.normalizeRow env row config
  | .durableObject => DatabaseDO.normalizeRow env row (some config)

/-- A field after a write, as `normalizeRow` reads it. -/
def readBack (columns : Columns) (env : Env) (config : TableConfig) (p : SqliteProvider)
    (path : WritePath) (body : Row) (id : Json) (name : String) (type : FieldType) :
    Except HttpError (Option Json) := do
  let value ← path.bound env config p body id name
  .ok (value.bind fun v =>
    (p.normalizeRow env config [(name, columns.read p type v)]).lookup name)

/-! ### The values that come back -/

/-- A path that stores the JSON text of a number or a boolean. -/
def WritePath.printsScalars (p : SqliteProvider) (path : WritePath) : Prop :=
  p = .d1 ∧ (path.isUpdate = false ∨ path = .patch)

def WritePath.quotesTexts (p : SqliteProvider) (path : WritePath) : Prop :=
  p = .d1 ∧ path = .patch

def decodeJson (env : Env) : Json → Json
  | .str s => (env.parseJson s).getD (.str s)
  | v => v

/-- The values of a type that come back as they were.  A text of a json field must not be a JSON
text itself, unless the path quotes it; a number or a boolean of a json field that the path does not
print must survive the text column. -/
def Keeps (columns : Columns) (env : Env) (p : SqliteProvider) (path : WritePath)
    (type : FieldType) (v : Json) : Prop :=
  type = .json → match v with
    | .str s => path.quotesTexts p ∨ ∀ w, env.parseJson s = some w → w = .str s
    | .num _ | .bool _ => path.printsScalars p ∨ decodeJson env (columns.read p .json v) = v
    | _ => True

/-- The values that a path stores and gives back: an update takes an object with a `$op` for an
operator. -/
def Faithful (columns : Columns) (env : Env) (p : SqliteProvider) (path : WritePath)
    (type : FieldType) (v : Json) : Prop :=
  (path.isUpdate = true → opFields v = none) ∧ Keeps columns env p path type v

/-- A value that the validation of a field lets through. -/
def Accepts (env : Env) (field : SchemaField) (v : Json) : Prop :=
  v = .null ∨ validateType env v field = none

/-! ### The encoders -/

instance (p : SqliteProvider) : DecidablePred (WritePath.printsScalars p) :=
  fun _ => inferInstanceAs (Decidable (_ ∧ _))

instance (p : SqliteProvider) : DecidablePred (WritePath.quotesTexts p) :=
  fun _ => inferInstanceAs (Decidable (_ ∧ _))

/-- What a path binds for a plain value of a type. -/
def encode (env : Env) (p : SqliteProvider) (path : WritePath) : FieldType → Json → Json
  | _, .null => .null
  | .boolean, v => booleanBit v
  | .json, .str s => if path.quotesTexts p then .str (env.stringify (.str s)) else .str s
  | .json, .num q => if path.printsScalars p then .str (env.stringify (.num q)) else .num q
  | .json, .bool b => if path.printsScalars p then .str (env.stringify (.bool b)) else .bool b
  | .json, v => .str (env.stringify v)
  | _, v => v

theorem opFields_encode {env : Env} {p : SqliteProvider} {path : WritePath} {type : FieldType}
    {v : Json} (h : opFields v = none) : opFields (encode env p path type v) = none := by
  cases v with
  | null => cases type <;> rfl
  | bool b => cases type <;> simp only [encode, booleanBit] <;> (try split) <;> rfl
  | num q => cases type <;> simp only [encode, booleanBit] <;> (try split) <;> rfl
  | str s => cases type <;> simp only [encode, booleanBit] <;> (try split) <;> rfl
  | arr items => cases type <;> simp only [encode, booleanBit] <;> (try split) <;> rfl
  | obj fields =>
    cases type <;> simp only [encode, booleanBit] <;> (try split) <;> first | exact h | rfl

section Encoders

variable {env : Env} {effective : EffectiveSchema} {name : String} {field : SchemaField}

theorem serializeField_eq (h : effective.lookup name = some field) {path : WritePath}
    (hpath : path.isUpdate = false) (v : Json) :
    serializeField env effective (name, v) = encode env .d1 path field.type v := by
  have hprints : path.printsScalars .d1 := ⟨rfl, .inl hpath⟩
  have hquotes : ¬path.quotesTexts .d1 := by
    rintro ⟨-, rfl⟩
    cases hpath
  unfold serializeField encode
  rw [h, map_some]
  cases v <;> cases field.type <;> simp [hprints, hquotes]

theorem serializeSingle_eq (h : effective.lookup name = some field) {v : Json}
    (hv : opFields v = none) :
    serializeSingle env effective (name, v) = encode env .d1 .patch field.type v := by
  have hprints : WritePath.printsScalars .d1 .patch := ⟨rfl, .inr rfl⟩
  have hquotes : WritePath.quotesTexts .d1 .patch := ⟨rfl, rfl⟩
  unfold serializeSingle encode
  rw [h, map_some, hv]
  cases v <;> cases field.type <;> simp [hprints, hquotes]

theorem serializeValue_eq (h : effective.lookup name = some field) {p : SqliteProvider}
    {path : WritePath} (hpath : ¬path.printsScalars p) (v : Json) :
    serializeValue env effective (name, v) = encode env p path field.type v := by
  have hquotes : ¬path.quotesTexts p := fun hq => hpath ⟨hq.1, .inr hq.2⟩
  unfold serializeValue encode
  rw [h, map_some]
  cases v <;> cases field.type <;> simp [hpath, hquotes]

end Encoders

/-! ### The bound value -/

theorem buildEffectiveSchema_lookup {schema : UserSchema} (hnodup : (schema.map Prod.fst).Nodup)
    {name : String} {field : SchemaField} (h : (name, some field) ∈ schema)
    (hauto : inAutoFields name = false) :
    (buildEffectiveSchema (some schema)).lookup name = some field := by
  have hfilter : (autoFields.filter fun f => schema.lookup f.1 ≠ some none).lookup name = none := by
    have hnone : autoFields.lookup name = none := by
      simp only [inAutoFields, Bool.or_eq_false_iff] at hauto
      simpa using hauto.1
    have := lookup_restrict (fun k => schema.lookup k ≠ some none) autoFields name
    rw [restrict] at this
    rw [this, hnone, ite_self]
  rw [buildEffectiveSchema, lookup_append, hfilter, none_or]
  clear hfilter
  induction schema with
  | nil => exact absurd h not_mem_nil
  | cons f schema ih =>
    obtain ⟨hf, hnodup⟩ := nodup_cons.1 hnodup
    rcases mem_cons.1 h with rfl | h
    · simp [hauto]
    · -- another name, which has another place in the effective schema or none
      have hne : (name == f.1) = false :=
        beq_eq_false_iff_ne.2 fun hn => hf (hn ▸ List.mem_map_of_mem (f := Prod.fst) h)
      rw [filterMap_cons]
      split
      · exact ih hnodup h
      · next b hb =>
        have hb : b.1 = f.1 := by
          split at hb
          · cases hb
          · obtain ⟨_, -, rfl⟩ := map_eq_some_iff.1 hb
            rfl
        rw [lookup_cons, hb, hne]
        exact ih hnodup h

section Record

variable {env : Env} {effective : EffectiveSchema} {name : String} {v : Json}

theorem ne_of_isAutoField (hauto : isAutoField name = false) {auto : String}
    (h : isAutoField auto = true) : name ≠ auto := by
  rintro rfl
  rw [h] at hauto
  cases hauto

theorem stampNow_lookup {record : Row} {auto : String} (h : name ≠ auto) :
    (stampNow env effective record auto).lookup name = record.lookup name := by
  unfold stampNow
  split
  · exact lookup_set_of_ne _ h _
  · rfl

theorem applyDefault_lookup {record : Row} (h : record.lookup name = some v)
    (f : String × SchemaField) : (applyDefault record f).lookup name = some v := by
  unfold applyDefault
  split
  · next hnone _ =>
    refine (lookup_set_of_ne _ ?_ _).trans h
    rintro rfl
    rw [hnone] at h
    cases h
  · exact h

theorem foldl_applyDefault_lookup (fields : EffectiveSchema) {record : Row}
    (h : record.lookup name = some v) : (fields.foldl applyDefault record).lookup name = some v := by
  induction fields generalizing record with
  | nil => exact h
  | cons f fields ih => exact ih (applyDefault_lookup h f)

theorem buildRecord_lookup {body : Row} (h : body.lookup name = some v)
    (hauto : isAutoField name = false) (id : Json) :
    (buildRecord env effective body id).lookup name = some v := by
  have hid : name ≠ "id" := ne_of_isAutoField hauto rfl
  have hcreated : name ≠ "createdAt" := ne_of_isAutoField hauto rfl
  have hupdated : name ≠ "updatedAt" := ne_of_isAutoField hauto rfl
  refine foldl_applyDefault_lookup effective ?_
  simp only [foldl_cons, foldl_nil]
  rw [stampNow_lookup hupdated, stampNow_lookup hcreated, lookup_set_of_ne _ hid, h]

theorem touchUpdatedAt_lookup {data : Row} (hauto : isAutoField name = false) :
    (touchUpdatedAt env effective data).lookup name = data.lookup name := by
  unfold touchUpdatedAt
  split
  · exact lookup_set_of_ne _ (ne_of_isAutoField hauto rfl) _
  · rfl

theorem updateData_lookup {body : Row} (hauto : isAutoField name = false) :
    (updateData env effective body).lookup name = body.lookup name := by
  rw [updateData, touchUpdatedAt_lookup hauto, lookup_restrict]
  have hid : name ≠ "id" := ne_of_isAutoField hauto rfl
  have hcreated : name ≠ "createdAt" := ne_of_isAutoField hauto rfl
  simp [hid, hcreated]

theorem serializeUpdate_lookup {data : Row} (h : data.lookup name = some v) :
    (serializeUpdate env effective data).lookup name =
      some (if (opFields v).isSome then v else serializeValue env effective (name, v)) := by
  have hmap := lookup_map_snd (fun k w =>
    if (opFields w).isSome then w else serializeValue env effective (k, w)) data name
  rw [h, map_some] at hmap
  rw [← hmap, serializeUpdate]
  congr 1
  refine map_congr_left fun b _ => ?_
  split <;> rfl

end Record

/-! ### Clauses -/

section Clauses

variable {env : Env}

theorem buildSetClause_eq_ok {b : String × Json} {c : SetClause}
    (h : buildSetClause env b = .ok c) :
    c.column = b.1 ∧ (opFields b.2 = none → c.value = some b.2) ∧
      (opFields b.2 ≠ none → c.value = none ∨ c.value = some .null) := by
  unfold buildSetClause at h
  split at h
  · next hplain =>
    cases h
    exact ⟨rfl, fun _ => rfl, fun hne => absurd hplain hne⟩
  · next hop =>
    cases h
    exact ⟨rfl, fun hnone => by simp [hop] at hnone, fun _ => .inl rfl⟩
  · next hop =>
    cases h
    exact ⟨rfl, fun hnone => by simp [hop] at hnone, fun _ => .inr rfl⟩
  · cases h

theorem find_mapM_buildSetClause {data : Row} {clauses : List SetClause}
    (h : data.mapM (buildSetClause env) = .ok clauses) {name : String} {v : Json}
    (hv : data.lookup name = some v) :
    ∃ c, clauses.find? (·.column = name) = some c ∧ buildSetClause env (name, v) = .ok c := by
  induction data generalizing clauses with
  | nil => cases hv
  | cons b data ih =>
    rw [mapM_cons] at h
    cases hb : buildSetClause env b with
    | error e => simp [hb, bind, Except.bind] at h
    | ok c =>
      cases hrest : data.mapM (buildSetClause env) with
      | error e => simp [hb, hrest, bind, Except.bind] at h
      | ok rest =>
        simp only [hb, hrest, bind, Except.bind, pure, Except.pure] at h
        cases h
        have hcolumn := (buildSetClause_eq_ok hb).1
        rw [lookup_cons] at hv
        by_cases hn : name = b.1
        · simp only [hn, beq_self_eq_true] at hv
          cases hv
          exact ⟨c, by simp [hcolumn, hn], by rw [hn]; exact hb⟩
        · rw [beq_eq_false_iff_ne.2 hn] at hv
          obtain ⟨c', hfind, hc'⟩ := ih hrest hv
          exact ⟨c', by rw [List.find?_cons_of_neg (by simpa [hcolumn] using Ne.symm hn), hfind], hc'⟩

theorem find_parseUpdateBody {data : Row} {clauses : List SetClause}
    (h : parseUpdateBody env data = .ok clauses) {name : String} (hid : name ≠ "id") {v : Json}
    (hv : data.lookup name = some v) :
    ∃ c, clauses.find? (·.column = name) = some c ∧ buildSetClause env (name, v) = .ok c := by
  refine find_mapM_buildSetClause h ?_
  rw [lookup_restrict, hv]
  simp [hid]

end Clauses

/-! ### What a path binds -/

section Bound

variable {env : Env} {config : TableConfig} {schema : UserSchema} {name : String}
  {field : SchemaField} {body : Row} {v : Json}

/-- A field of a schema that the server does not set, with a value in a body. -/
structure Written (config : TableConfig) (schema : UserSchema) (name : String)
    (field : SchemaField) (body : Row) (v : Json) : Prop where
  declared : config.schema = some schema
  distinct : (schema.map Prod.fst).Nodup
  mem : (name, some field) ∈ schema
  notAuto : inAutoFields name = false
  given : body.lookup name = some v

variable (h : Written config schema name field body v)
include h

theorem Written.effective : (buildEffectiveSchema config.schema).lookup name = some field := by
  rw [h.declared]
  exact buildEffectiveSchema_lookup h.distinct h.mem h.notAuto

theorem Written.isAutoField : isAutoField name = false := by
  have := h.notAuto
  simp only [inAutoFields, Bool.or_eq_false_iff] at this
  by_contra hauto
  simp only [EdgeBase.isAutoField, mem_cons, not_mem_nil, or_false, Bool.not_eq_false,
    decide_eq_true_eq] at hauto
  rcases hauto with rfl | rfl | rfl <;> exact absurd this.1 (by decide)

theorem Written.has : (buildEffectiveSchema config.schema).has name = true := by
  simp [EffectiveSchema.has, h.effective]

theorem Written.ne_id : name ≠ "id" := ne_of_isAutoField h.isAutoField rfl

variable {p : SqliteProvider}

theorem Written.bound_insert {path : WritePath} (hpath : path.isUpdate = false) (id : Json) :
    path.bound env config p body id name = .ok (some (encode env p path field.type v)) := by
  have hrecord : (buildRecord env (buildEffectiveSchema config.schema) body id).lookup name =
      some v := buildRecord_lookup h.given h.isAutoField id
  rw [WritePath.bound, if_neg (by simp [hpath])]
  congr 1
  cases p with
  | d1 =>
    have hmap := lookup_map_snd (fun k w => serializeField env
      (buildEffectiveSchema config.schema) (k, w)) (restrict
        (buildEffectiveSchema config.schema).has
        (buildRecord env (buildEffectiveSchema config.schema) body id)) name
    refine hmap.trans ?_
    rw [lookup_restrict, h.has, if_pos rfl, hrecord, map_some,
      serializeField_eq h.effective hpath]
  | durableObject =>
    have hprints : ¬path.printsScalars .durableObject := fun hp => by cases hp.1
    have hmap := lookup_map_snd (fun k w => serializeValue env
      (buildEffectiveSchema config.schema) (k, w)) (restrict
        (buildEffectiveSchema config.schema).has
        (buildRecord env (buildEffectiveSchema config.schema) body id)) name
    have hkept : insertedValues env config .durableObject body id =
        (restrict (buildEffectiveSchema config.schema).has
          (buildRecord env (buildEffectiveSchema config.schema) body id)).map fun b =>
            (b.1, serializeValue env (buildEffectiveSchema config.schema) b) := by
      show insertValues env config _ = _
      rw [insertValues]
      simp only [h.declared, isNone_some, Bool.false_eq_true, if_false]
    rw [hkept]
    refine hmap.trans ?_
    rw [lookup_restrict, h.has, if_pos rfl, hrecord, map_some,
      serializeValue_eq h.effective hprints]

theorem Written.updatedValues_lookup {path : WritePath} (hpath : path.isUpdate = true) :
    (updatedValues env config p path body).lookup name =
      some (if (opFields v).isSome then v else encode env p path field.type v) := by
  have hdata : (updateData env (buildEffectiveSchema config.schema) body).lookup name = some v :=
    (updateData_lookup h.isAutoField).trans h.given
  have htouched : (touchUpdatedAt env (buildEffectiveSchema config.schema) body).lookup name =
      some v := (touchUpdatedAt_lookup h.isAutoField).trans h.given
  have hserialize : ∀ data : Row, data.lookup name = some v → ¬path.printsScalars p →
      (serializeUpdate env (buildEffectiveSchema config.schema) data).lookup name =
        some (if (opFields v).isSome then v else encode env p path field.type v) := by
    intro data hv hprints
    rw [serializeUpdate_lookup hv, serializeValue_eq h.effective hprints]
  by_cases hprints : path.printsScalars p
  · -- the single update of D1
    obtain ⟨rfl, hinsert | rfl⟩ := hprints
    · rw [hpath] at hinsert
      cases hinsert
    · have hmap := lookup_map_snd (fun k w => serializeSingle env
        (buildEffectiveSchema config.schema) (k, w)) (restrict
          (buildEffectiveSchema config.schema).has (restrict
            (fun k => k ≠ "id" ∧ k ≠ "createdAt")
            (stampNow env (buildEffectiveSchema config.schema) body "updatedAt"))) name
      refine hmap.trans ?_
      have hcreated : name ≠ "createdAt" := ne_of_isAutoField h.isAutoField rfl
      have hupdated : name ≠ "updatedAt" := ne_of_isAutoField h.isAutoField rfl
      rw [lookup_restrict, h.has, if_pos rfl, lookup_restrict,
        if_pos (by simp [h.ne_id, hcreated]), stampNow_lookup hupdated, h.given, map_some]
      by_cases hop : opFields v = none
      · rw [serializeSingle_eq h.effective hop, hop]
        rfl
      · simp only [serializeSingle, isSome_iff_ne_none.2 hop, if_true]
  · cases path with
    | insert => cases hpath
    | upsert => cases hpath
    | batchInsert => cases hpath
    | transactInsert => cases hpath
    | patch =>
      cases p with
      | d1 => exact absurd ⟨rfl, .inr rfl⟩ hprints
      | durableObject =>
        refine hserialize _ ?_ hprints
        rw [h.declared, isSome_some, if_pos rfl, lookup_restrict, ← h.declared, h.has,
          if_pos rfl, hdata]
    | batchUpdate => cases p <;> exact hserialize _ hdata hprints
    | transactUpdate => cases p <;> exact hserialize _ hdata hprints
    | batchByFilter => cases p <;> exact hserialize _ htouched hprints

/-- An update binds the encoded value of a plain value, and no value of its own for an operator. -/
theorem Written.bound_update {path : WritePath}
    (hpath : path.isUpdate = true) {id : Json} {w : Option Json}
    (hw : path.bound env config p body id name = .ok w) :
    (opFields v = none → w = some (encode env p path field.type v)) ∧
      (opFields v ≠ none → w = none ∨ w = some .null) := by
  have hlookup : (updatedValues env config p path body).lookup name =
      some (if (opFields v).isSome then v else encode env p path field.type v) :=
    h.updatedValues_lookup hpath
  rw [WritePath.bound, if_pos hpath] at hw
  cases hclauses : parseUpdateBody env (updatedValues env config p path body) with
  | error e => simp [hclauses, bind, Except.bind] at hw
  | ok clauses =>
    simp only [hclauses, bind, Except.bind] at hw
    cases hw
    obtain ⟨c, hfind, hc⟩ := find_parseUpdateBody hclauses h.ne_id hlookup
    obtain ⟨-, hplain, hop⟩ := buildSetClause_eq_ok hc
    rw [hfind, bind_some]
    refine ⟨fun hv => ?_, fun hv => ?_⟩
    · simp only [hv, isSome_none, Bool.false_eq_true, if_false] at hplain
      exact hplain (opFields_encode hv)
    · simp only [isSome_iff_ne_none.2 hv, if_true] at hop
      exact hop hv

end Bound

/-! ### The decoders -/

/-- What `normalizeRow` makes of the value of a column. -/
def decode (env : Env) : FieldType → Json → Json
  | .boolean, v => normalizeBoolean v
  | .json, v => decodeJson env v
  | _, v => v

section Decoders

variable {env : Env} {config : TableConfig} {schema : UserSchema} {name : String}
  {field : SchemaField} {w : Json}

def IsNumber (type : FieldType) (w : Json) : Prop :=
  type = .number → w = .null ∨ ∃ q, w = .num q

theorem normalizeValue_eq (hw : IsNumber field.type w) :
    DatabaseDO.normalizeValue env (some field) w = decode env field.type w := by
  unfold DatabaseDO.normalizeValue decode
  rw [map_some]
  cases htype : field.type with
  | number =>
    rcases hw htype with rfl | ⟨q, rfl⟩
    · rfl
    · rfl
  | json => cases w <;> rfl
  | _ => rfl

theorem normalizeColumn_eq (hempty : env.parseJson "" = none) (hw : IsNumber field.type w) :
    normalizeColumn env [(name, w)] (name, some field) =
      [(name, decode env field.type w)] := by
  have hset : ∀ v, Assoc.set [(name, w)] name v = [(name, v)] := by
    intro v
    simp [Assoc.set]
  unfold normalizeColumn decode
  simp only [lookup_cons_self, hset]
  cases htype : field.type with
  | number =>
    rcases hw htype with rfl | ⟨q, rfl⟩
    · rfl
    · rfl
  | json =>
    cases w with
    | str s =>
      by_cases hs : s = ""
      · simp [hs, decodeJson, hempty]
      · simp only [hs, if_false, decodeJson]
        cases env.parseJson s with
        | none => rfl
        | some v => exact hset v
    | _ => rfl
  | _ => rfl

theorem normalizeColumn_of_ne {f : String × Option SchemaField} (h : f.1 ≠ name) :
    normalizeColumn env [(name, w)] f = [(name, w)] := by
  have hnone : List.lookup f.1 [(name, w)] = none := by
    rw [lookup_cons, beq_eq_false_iff_ne.2 h]
    rfl
  rw [normalizeColumn, hnone]
  cases f.2 <;> rfl

theorem foldl_normalizeColumn_of_notMem {fields : UserSchema} (h : name ∉ fields.map Prod.fst) :
    fields.foldl (normalizeColumn env) [(name, w)] = [(name, w)] := by
  induction fields with
  | nil => rfl
  | cons f fields ih =>
    rw [map_cons, mem_cons, not_or] at h
    rw [foldl_cons, normalizeColumn_of_ne (Ne.symm h.1), ih h.2]

theorem foldl_normalizeColumn (hempty : env.parseJson "" = none) (hw : IsNumber field.type w)
    (hnodup : (schema.map Prod.fst).Nodup) (hmem : (name, some field) ∈ schema) :
    schema.foldl (normalizeColumn env) [(name, w)] = [(name, decode env field.type w)] := by
  induction schema with
  | nil => exact absurd hmem not_mem_nil
  | cons f schema ih =>
    obtain ⟨hf, hnodup⟩ := nodup_cons.1 hnodup
    rw [foldl_cons]
    rcases mem_cons.1 hmem with rfl | hmem
    · rw [normalizeColumn_eq hempty hw, foldl_normalizeColumn_of_notMem hf]
    · rw [normalizeColumn_of_ne fun hn => hf (hn ▸ List.mem_map_of_mem (f := Prod.fst) hmem),
        ih hnodup hmem]

theorem Written.normalizeRow_lookup {body : Row} {v : Json}
    (h : Written config schema name field body v) (hempty : env.parseJson "" = none)
    (hw : IsNumber field.type w) (p : SqliteProvider) :
    (p.normalizeRow env config [(name, w)]).lookup name = some (decode env field.type w) := by
  cases p with
  | d1 =>
    rw [SqliteProvider.normalizeRow, D1.normalizeRow, h.declared]
    dsimp only
    rw [foldl_normalizeColumn hempty hw h.distinct h.mem, lookup_cons_self]
  | durableObject =>
    rw [SqliteProvider.normalizeRow, DatabaseDO.normalizeRow, tableSchema, bind_some,
      h.declared]
    dsimp only
    rw [map_cons, lookup_cons_self, ← h.declared, h.effective, normalizeValue_eq hw]

end Decoders

/-! ### The values that come back -/

section RoundTrip

variable {columns : Columns} {env : Env} {config : TableConfig} {schema : UserSchema}
  {name : String} {field : SchemaField} {body : Row} {v : Json}

theorem isNumber_read (haccepts : Accepts env field v) (p : SqliteProvider) (path : WritePath) :
    IsNumber field.type (columns.read p field.type (encode env p path field.type v)) := by
  intro htype
  rcases haccepts with rfl | hv
  · left
    rw [show encode env p path field.type .null = .null from by cases field.type <;> rfl,
      columns.read_null]
  · right
    rw [htype]
    unfold validateType at hv
    rw [htype] at hv
    cases v with
    | num q => exact ⟨q, columns.read_num p q⟩
    | _ => cases hv

theorem decodeJson_of_print (hprint : env.parseJson (env.stringify v) = some v)
    (p : SqliteProvider) : decodeJson env (columns.read p .json (.str (env.stringify v))) = v := by
  rw [columns.read_str p .json _ (by decide) (by decide), decodeJson, hprint, getD_some]

theorem decode_read_encode_iff (haccepts : Accepts env field v)
    (hprint : env.parseJson (env.stringify v) = some v) (p : SqliteProvider) (path : WritePath) :
    decode env field.type (columns.read p field.type (encode env p path field.type v)) = v ↔
      Keeps columns env p path field.type v := by
  unfold Keeps
  rcases haccepts with rfl | hv
  · rw [show encode env p path field.type .null = .null from by cases field.type <;> rfl,
      columns.read_null]
    cases field.type <;> simp [decode, decodeJson, normalizeBoolean]
  · unfold validateType at hv
    cases htype : field.type with
    | string =>
      rw [htype] at hv
      cases v with
      | str s => simp [encode, decode, columns.read_str]
      | _ => cases hv
    | text =>
      rw [htype] at hv
      cases v with
      | str s => simp [encode, decode, columns.read_str]
      | _ => cases hv
    | datetime =>
      rw [htype] at hv
      cases v with
      | str s => simp [encode, decode, columns.read_str]
      | _ => cases hv
    | number =>
      rw [htype] at hv
      cases v with
      | num q => simp [encode, decode, columns.read_num]
      | _ => cases hv
    | boolean =>
      rw [htype] at hv
      cases v with
      | bool b =>
        rw [show encode env p path .boolean (.bool b) = booleanBit (.bool b) from rfl,
          columns.read_bit]
        cases b <;> simp [decode, booleanBit, normalizeBoolean]
      | _ => cases hv
    | json =>
      cases v with
      | null => simp [encode, decode, columns.read_null, decodeJson]
      | bool b =>
        by_cases hp : path.printsScalars p
        · simpa [encode, decode, hp] using decodeJson_of_print hprint p
        · simp [encode, decode, hp]
      | num q =>
        by_cases hp : path.printsScalars p
        · simpa [encode, decode, hp] using decodeJson_of_print hprint p
        · simp [encode, decode, hp]
      | str s =>
        by_cases hp : path.quotesTexts p
        · simpa [encode, decode, hp] using decodeJson_of_print hprint p
        · simp only [encode, decode, hp, if_false, false_or, forall_const,
            columns.read_str p .json s (by decide) (by decide), decodeJson]
          cases env.parseJson s with
          | none => simp
          | some w => simp
      | arr items => simpa [encode, decode] using decodeJson_of_print hprint p
      | obj fields => simpa [encode, decode] using decodeJson_of_print hprint p

theorem Written.readBack_iff (h : Written config schema name field body v)
    (haccepts : Accepts env field v) (hempty : env.parseJson "" = none)
    (hprint : env.parseJson (env.stringify v) = some v) {p : SqliteProvider} {path : WritePath}
    {id : Json} {w : Option Json}
    (hw : readBack columns env config p path body id name field.type = .ok w) :
    w = some v ↔ Faithful columns env p path field.type v := by
  have hplain : path.bound env config p body id name =
      .ok (some (encode env p path field.type v)) →
        (w = some v ↔ Keeps columns env p path field.type v) := by
    intro hbound
    rw [readBack, hbound] at hw
    cases hw
    rw [← decode_read_encode_iff haccepts hprint, bind_some,
      h.normalizeRow_lookup hempty (isNumber_read haccepts p path), Option.some.injEq]
  unfold Faithful
  cases hpath : path.isUpdate with
  | false => simpa using hplain (h.bound_insert hpath id)
  | true =>
    cases hbound : path.bound env config p body id name with
    | error e =>
      rw [readBack, hbound] at hw
      cases hw
    | ok bound =>
      obtain ⟨hvalue, hop⟩ := h.bound_update hpath hbound
      by_cases hv : opFields v = none
      · rw [hvalue hv] at hbound
        simpa [hv] using hplain hbound
      · -- an operator leaves nothing of itself
        have hobj : v ≠ .null := by
          rintro rfl
          exact hv rfl
        have hne : w ≠ some v := by
          rw [readBack, hbound] at hw
          cases hw
          rcases hop hv with rfl | rfl
          · simp
          · rw [bind_some, columns.read_null,
              h.normalizeRow_lookup hempty fun _ => .inl rfl]
            cases field.type <;> simpa [decode, decodeJson, normalizeBoolean] using hobj.symm
        simp [hne, hv]

theorem exists_parseUpdateBody {data : Row} (h : ∀ b ∈ data, opFields b.2 = none) :
    ∃ clauses, parseUpdateBody env data = .ok clauses := by
  have hall : ∀ l : Row, (∀ b ∈ l, opFields b.2 = none) →
      l.mapM (buildSetClause env) = .ok (l.map fun b => .assign b.1 b.2) := by
    intro l hl
    induction l with
    | nil => rfl
    | cons b l ih =>
      have hb : buildSetClause env b = .ok (.assign b.1 b.2) := by
        rw [buildSetClause, hl b (mem_cons_self ..)]
      rw [mapM_cons, hb, ih fun c hc => hl c (mem_cons_of_mem _ hc)]
      rfl
  exact ⟨_, hall _ fun b hb => h b (mem_of_mem_filter hb)⟩

theorem opFields_serializeSingle {effective : EffectiveSchema} {b : String × Json}
    (h : opFields b.2 = none) : opFields (serializeSingle env effective b) = none := by
  unfold serializeSingle
  rw [h]
  simp only [isSome_none, Bool.false_eq_true, if_false]
  split
  · rfl
  · rfl
  · unfold booleanBit
    split <;> rfl
  · exact h

theorem mem_set {l : Row} {k : String} {w : Json} {b : String × Json}
    (h : b ∈ Assoc.set l k w) : b ∈ l ∨ b = (k, w) := by
  induction l with
  | nil => exact .inr (by simpa [Assoc.set] using h)
  | cons c l ih =>
    unfold Assoc.set at h
    split at h
    · rcases mem_cons.1 h with rfl | h
      · exact .inr rfl
      · exact .inl (mem_cons_of_mem _ h)
    · rcases mem_cons.1 h with rfl | h
      · exact .inl (mem_cons_self ..)
      · exact (ih h).imp_left (mem_cons_of_mem _)

theorem exists_readBack_patch (h : ∀ b ∈ body, opFields b.2 = none) (id : Json) :
    ∃ w, readBack columns env config .d1 .patch body id name field.type = .ok w := by
  have hplain : ∀ b ∈ updatedValues env config .d1 .patch body, opFields b.2 = none := by
    intro b hb
    obtain ⟨c, hc, rfl⟩ := List.mem_map.1 hb
    refine opFields_serializeSingle ?_
    have hc := mem_of_mem_filter (mem_of_mem_filter hc)
    unfold stampNow at hc
    split at hc
    · rcases mem_set hc with hc | rfl
      · exact h c hc
      · rfl
    · exact h c hc
  obtain ⟨clauses, hclauses⟩ := exists_parseUpdateBody hplain
  rw [readBack, WritePath.bound, if_pos (show WritePath.patch.isUpdate = true from rfl), hclauses]
  exact ⟨_, rfl⟩

theorem Written.exists_readBack (h : Written config schema name field body v)
    (haccepts : Accepts env field v) (hempty : env.parseJson "" = none)
    (hprint : env.parseJson (env.stringify v) = some v)
    (hothers : ∀ b ∈ body, b = (name, v) ∨ opFields b.2 = none) (id : Json) :
    ∃ path, readBack columns env config .d1 path body id name field.type = .ok (some v) := by
  by_cases hv : opFields v = none
  · -- the single update quotes and prints
    have hplain : ∀ b ∈ body, opFields b.2 = none := by
      intro b hb
      rcases hothers b hb with rfl | hb
      · exact hv
      · exact hb
    obtain ⟨w, hw⟩ : ∃ w, readBack columns env config .d1 .patch body id name field.type = .ok w :=
      exists_readBack_patch hplain id
    refine ⟨.patch, ?_⟩
    rw [hw, (h.readBack_iff haccepts hempty hprint hw).2 ⟨fun _ => hv, fun _ => ?_⟩]
    cases v with
    | str s => exact .inl ⟨rfl, rfl⟩
    | num q => exact .inl ⟨rfl, .inr rfl⟩
    | bool b => exact .inl ⟨rfl, .inr rfl⟩
    | _ => trivial
  · -- an insert stores an operator as the object that it is
    obtain ⟨w, hw⟩ : ∃ w, readBack columns env config .d1 .insert body id name field.type =
        .ok w := by
      rw [readBack, h.bound_insert rfl]
      exact ⟨_, rfl⟩
    refine ⟨.insert, ?_⟩
    rw [hw, (h.readBack_iff haccepts hempty hprint hw).2 ⟨fun hu => (by cases hu), fun _ => ?_⟩]
    cases v with
    | obj fields => trivial
    | _ => exact absurd rfl hv

/-- The values that come back, and when all paths agree. -/
theorem fieldValue_readBack (h : Written config schema name field body v)
    (haccepts : Accepts env field v) (hempty : env.parseJson "" = none)
    (hprint : env.parseJson (env.stringify v) = some v) (id : Json) :
    (∀ p path w, readBack columns env config p path body id name field.type = .ok w →
      (w = some v ↔ Faithful columns env p path field.type v)) ∧
    ((∀ b ∈ body, b = (name, v) ∨ opFields b.2 = none) →
      ((∀ p path w p' path' w',
        readBack columns env config p path body id name field.type = .ok w →
        readBack columns env config p' path' body id name field.type = .ok w' → w = w') ↔
      ∀ p path w, readBack columns env config p path body id name field.type = .ok w →
        Faithful columns env p path field.type v)) := by
  have hback : ∀ p path w, readBack columns env config p path body id name field.type = .ok w →
      (w = some v ↔ Faithful columns env p path field.type v) :=
    fun p path w => h.readBack_iff haccepts hempty hprint
  refine ⟨hback, fun hothers => ⟨fun hagree p path w hw => ?_, fun hall => ?_⟩⟩
  · obtain ⟨path', hv⟩ := h.exists_readBack haccepts hempty hprint hothers id
    exact (hback p path w hw).1 (hagree p path w .d1 path' (some v) hw hv)
  · intro p path w p' path' w' hw hw'
    rw [(hback p path w hw).2 (hall p path w hw), (hback p' path' w' hw').2 (hall p' path' w' hw')]

end RoundTrip

section Exhibits

def metaSchema : UserSchema := [("meta", some { type := .json })]

def metaConfig : TableConfig := { schema := some metaSchema }

def metaBody : Row := [("meta", .str "5")]

/-- `JSON.parse` and `JSON.stringify` on the text `5`. -/
def fiveEnv : Env :=
  { Env.simple with
    parseJson := fun s =>
      if s = "5" then some (.num 5) else if s = "\"5\"" then some (.str "5") else none
    stringify := fun v => if v = .str "5" then "\"5\"" else "" }

/-- Columns that store numbers and booleans in a text column as the text of a number. -/
def plainColumns : Columns where
  read _ type v := match type, v with
    | .number, v => v
    | .boolean, v => v
    | _, .num q => .str (toString q)
    | _, .bool b => .str (if b then "1" else "0")
    | _, v => v
  read_null _ type := by cases type <;> rfl
  read_str _ type s hn hb := by cases type <;> trivial
  read_num _ _ := rfl
  read_bit _ _ := rfl

theorem metaBody_written :
    Written metaConfig metaSchema "meta" { type := .json } metaBody (.str "5") where
  declared := rfl
  distinct := by decide
  mem := by decide
  notAuto := by decide
  given := rfl

theorem fieldValue_readBack_five :
    Faithful plainColumns fiveEnv .d1 .patch .json (.str "5") ∧
      ¬Faithful plainColumns fiveEnv .d1 .insert .json (.str "5") := by
  have h := @fieldValue_readBack plainColumns fiveEnv metaConfig metaSchema "meta"
    { type := .json } metaBody (.str "5") metaBody_written (.inr rfl) rfl rfl (.str "a")
  refine ⟨(h.1 .d1 .patch _ rfl).1 rfl, fun hfaithful => ?_⟩
  exact absurd ((h.1 .d1 .insert _ rfl).2 hfaithful) (by decide)

/-- The text `5` in a json field comes back as a number from an insert, and as a text from a single
update. -/
theorem textOfJsonField_changes :
    validateInsert fiveEnv metaBody (some metaSchema) = [] ∧
      readBack plainColumns fiveEnv metaConfig .d1 .insert metaBody (.str "a") "meta" .json =
        .ok (some (.num 5)) ∧
      readBack plainColumns fiveEnv metaConfig .d1 .patch metaBody (.str "a") "meta" .json =
        .ok (some (.str "5")) ∧
      ¬∀ p path w,
        readBack plainColumns fiveEnv metaConfig p path metaBody (.str "a") "meta" .json = .ok w →
          w = some (.str "5") := by
  have hinsert : readBack plainColumns fiveEnv metaConfig .d1 .insert metaBody (.str "a") "meta"
    .json = .ok (some (.num 5)) := rfl
  refine ⟨rfl, hinsert, rfl, fun h => ?_⟩
  exact absurd (h .d1 .insert _ hinsert) (by decide)

end Exhibits

end EdgeBase
