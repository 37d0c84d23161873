import BotsterHub.Json
import BotsterHub.Lib.Fallible

/-!
Payload schemas of package events (`package_event_schema.rs`).

A schema is a JSON object whose keywords are admitted once and then read each time a payload is
validated. A keyword whose value has another kind than the validator reads is ignored.
-/

namespace BotsterHub.EventSchema

open Except

/-- What `serde_json` answers. A number stands for its code, maybe no integer. -/
structure Serde (F : Type) where
  encodedLen : Json → ℕ
  asU64 : Int → Option UInt64
  asI64 : Int → Option Int64
  asF64 : Int → Option F

abbrev Fields := List (String × Json)

def schemaMaxBytes : ℕ := 8 * 1024
def schemaMaxDepth : ℕ := 8
def schemaMaxProperties : ℕ := 32
def schemaMaxEnum : ℕ := 32
def schemaMaxRequired : ℕ := 32

def allowedKeywords : List String :=
  ["type", "properties", "required", "additionalProperties", "enum", "const", "minLength",
    "maxLength", "minimum", "maximum", "exclusiveMinimum", "exclusiveMaximum", "minItems",
    "maxItems", "items", "description", "title"]

def rejectedKeywords : List String :=
  ["$ref", "$dynamicRef", "$recursiveRef", "$anchor", "$id", "$schema", "pattern",
    "patternProperties", "unevaluatedProperties", "unevaluatedItems", "allOf", "anyOf", "oneOf",
    "not", "if", "then", "else", "dependentSchemas", "prefixItems", "contains", "propertyNames"]

def isString (value : Json) : Bool := value.asStr?.isSome

def ensure (p : Bool) (message : String) : Except String Unit :=
  if p then pure () else throw message

/-- `validate_schema_node` with the depth that is left. -/
def validateSchemaNode : ℕ → Json → Except String Unit
  | 0, _ => throw s!"payload schema exceeds nesting depth {schemaMaxDepth}"
  | depth + 1, .obj object => do
    object.forM fun (key, _) =>
      ensure (key ∉ rejectedKeywords ∧ key ∈ allowedKeywords)
        ("payload schema rejects keyword " ++ key)
    match object.lookup "properties" with
    | none => pure ()
    | some (.obj properties) =>
      ensure (properties.length ≤ schemaMaxProperties)
        s!"payload schema exceeds {schemaMaxProperties} properties"
      properties.forM fun (_, child) => validateSchemaNode depth child
    | some _ => throw "properties must be an object"
    match object.lookup "additionalProperties" with
    | none | some (.bool _) => pure ()
    | some other => validateSchemaNode depth other
    match object.lookup "items" with
    | none => pure ()
    | some (.arr _) => throw "items must be a single in-subset schema"
    | some items => validateSchemaNode depth items
    match object.lookup "required" with
    | none => pure ()
    | some (.arr required) =>
      ensure (required.length ≤ schemaMaxRequired)
        s!"payload schema exceeds {schemaMaxRequired} required names"
      ensure (required.all isString) "required names must be strings"
    | some _ => throw "required must be an array"
    match object.lookup "enum" with
    | none => pure ()
    | some (.arr values) =>
      ensure (values.length ≤ schemaMaxEnum) s!"payload schema exceeds {schemaMaxEnum} enum values"
    | some _ => throw "enum must be an array"
    ensure ((object.lookup "type").all isString) "type must be a string"
  | _ + 1, _ => throw "payload schema must be an object"

section

variable {F : Type} (serde : Serde F)

/-- The checks of `compile`. -/
def admission (schema : Json) : Except String Unit := do
  ensure (serde.encodedLen schema ≤ schemaMaxBytes)
    s!"payload schema exceeds {schemaMaxBytes} byte admission limit"
  validateSchemaNode (schemaMaxDepth + 1) schema

structure CompiledEventSchema where
  spec : Json
  admitted : admission serde spec = .ok ()

def compile (schema : Json) : Except String (CompiledEventSchema serde) :=
  match h : admission serde schema with
  | .ok () => .ok ⟨schema, h⟩
  | .error message => .error message

def asU64? : Json → Option UInt64
  | .num value => serde.asU64 value
  | _ => none

def asF64? : Json → Option F
  | .num value => serde.asF64 value
  | _ => none

def matchType (type payload : Json) : Except String Unit := do
  let .str expected := type | throw "type must be a string"
  let matched ←
    match expected, payload with
    | "object", payload => pure (payload matches .obj _)
    | "array", payload => pure (payload matches .arr _)
    | "string", payload => pure (isString payload)
    | "number", payload => pure (payload matches .num _)
    | "integer", .num value => pure ((serde.asI64 value).isSome || (serde.asU64 value).isSome)
    | "integer", _ => pure false
    | "boolean", payload => pure (payload matches .bool _)
    | "null", payload => pure (payload matches .null)
    | other, _ => throw ("unsupported schema type " ++ other)
  ensure matched ("payload is not a " ++ expected)

def validateString (schema : Fields) (text : String) : Except String Unit := do
  ensure (((schema.lookup "minLength").bind (asU64? serde)).all (·.toNat ≤ text.length))
    "payload string is shorter than minLength"
  ensure (((schema.lookup "maxLength").bind (asU64? serde)).all (text.length ≤ ·.toNat))
    "payload string is longer than maxLength"

variable [LT F] [DecidableLT F] [LE F] [DecidableLE F]

def validateNumber (schema : Fields) (number : Int) : Except String Unit := do
  let some value := serde.asF64 number | throw "payload number is not finite"
  let limit (key : String) (admits : F → Bool) : Bool :=
    ((schema.lookup key).bind (asF64? serde)).all admits
  ensure (limit "minimum" (¬value < ·)) "payload is below minimum"
  ensure (limit "maximum" (¬· < value)) "payload is above maximum"
  ensure (limit "exclusiveMinimum" (¬value ≤ ·)) "payload is not above exclusiveMinimum"
  ensure (limit "exclusiveMaximum" (¬· ≤ value)) "payload is not below exclusiveMaximum"

/-- The keywords of every kind of payload. -/
def validateKeywords (schema : Fields) (payload : Json) : Except String Unit := do
  ensure ((schema.lookup "const").all (· = payload)) "payload does not match const"
  ensure (match schema.lookup "enum" with | some (.arr values) => payload ∈ values | _ => true)
    "payload is not an allowed enum value"
  (schema.lookup "type").forM fun type => matchType serde type payload

def validateRequired (schema object : Fields) : Except String Unit :=
  match schema.lookup "required" with
  | some (.arr required) => (required.filterMap Json.asStr?).forM fun name =>
    ensure (object.lookup name).isSome ("payload is missing required field " ++ name)
  | _ => pure ()

def validateLength (schema : Fields) (length : ℕ) : Except String Unit := do
  ensure (((schema.lookup "minItems").bind (asU64? serde)).all (·.toNat ≤ length))
    "payload array is shorter than minItems"
  ensure (((schema.lookup "maxItems").bind (asU64? serde)).all (length ≤ ·.toNat))
    "payload array is longer than maxItems"

def propertySchema (schema : Fields) (key : String) : Option Json :=
  (schema.lookup "properties").bind (·.get? key)

mutual

def validateInstance : Json → Json → Except String Unit
  | .obj schema, payload => do
    validateKeywords serde schema payload
    match payload with
    | .obj object => do
      validateRequired schema object
      validateFields schema object
    | .arr items => do
      validateLength serde schema items.length
      validateItems (schema.lookup "items") items
    | .str text => validateString serde schema text
    | .num number => validateNumber serde schema number
    | _ => pure ()
  | _, _ => throw "compiled schema must be an object"

/-- The loop of `validate_object`. -/
def validateFields (schema : Fields) : Fields → Except String Unit
  | [] => pure ()
  | (key, value) :: rest => do
    match propertySchema schema key, schema.lookup "additionalProperties" with
    | some property, _ => validateInstance property value
    | none, some (.bool false) => throw ("payload has undeclared field " ++ key)
    | none, some (.obj additional) => validateInstance (.obj additional) value
    | none, _ => pure ()
    validateFields schema rest

/-- The loop of `validate_array`. -/
def validateItems (schema : Option Json) : List Json → Except String Unit
  | [] => pure ()
  | item :: rest => do
    schema.forM fun schema => validateInstance schema item
    validateItems schema rest

end

namespace CompiledEventSchema

variable {serde} (schema : CompiledEventSchema serde)

def validate (payload : Json) : Except String Unit := validateInstance serde schema.spec payload

def limit (key : String) : Option UInt64 := (schema.spec.get? key).bind (asU64? serde)

def acceptsSomeString : Bool :=
  (schema.spec.get? "type").all (·.asStr? = some "string") &&
    match schema.spec.get? "const", schema.spec.get? "enum" with
    | some value, _ => isString value && (schema.validate value).isOk
    | none, some (.arr values) =>
      values.any fun value => isString value && (schema.validate value).isOk
    | none, _ =>
      (schema.limit "minLength").getD 0 ≤ (schema.limit "maxLength").getD 0xffffffffffffffff

end CompiledEventSchema

end

theorem ensure_eq_ok {p : Bool} {message : String} {u : Unit} :
    ensure p message = .ok u ↔ p = true := by
  cases p <;> simp [ensure, throw, throwThe, MonadExceptOf.throw, pure, Except.pure]

variable {F : Type} {serde : Serde F}

/-- Text has one type. -/
theorem matchType_str {type : Json} {text : String} :
    matchType serde type (.str text) = .ok () ↔ type.asStr? = some "string" := by
  cases type with
  | str expected =>
    simp only [matchType, Json.asStr?]
    split <;> simp_all [bind_eq_ok, ensure_eq_ok, isString, Json.asStr?, pure, Except.pure, throw,
      throwThe, MonadExceptOf.throw]
  | _ => simp [matchType, Json.asStr?, throw, throwThe, MonadExceptOf.throw]

/-- What the validator asks of text. -/
structure Admits (serde : Serde F) (schema : Fields) (text : String) : Prop where
  const : ∀ value ∈ schema.lookup "const", value = .str text
  enum : ∀ values, schema.lookup "enum" = some (.arr values) → .str text ∈ values
  type : ∀ type ∈ schema.lookup "type", type.asStr? = some "string"
  min : ∀ n ∈ (schema.lookup "minLength").bind (asU64? serde), n.toNat ≤ text.length
  max : ∀ n ∈ (schema.lookup "maxLength").bind (asU64? serde), text.length ≤ n.toNat

theorem exists_length_between (min max : Option UInt64) :
    min.getD 0 ≤ max.getD 0xffffffffffffffff ↔ ∃ text : String,
      (∀ n ∈ min, n.toNat ≤ text.length) ∧ ∀ n ∈ max, text.length ≤ n.toNat := by
  rw [UInt64.le_iff_toNat_le]
  constructor
  · intro hle
    refine ⟨String.ofList (List.replicate (min.getD 0).toNat 'a'), ?_⟩
    cases min <;> cases max <;> simp_all
  · rintro ⟨text, hmin, hmax⟩
    cases min with
    | none => exact Nat.zero_le _
    | some n =>
      cases max with
      | none => exact Nat.le_of_lt_succ (UInt64.toNat_lt n)
      | some m => exact Nat.le_trans (hmin n rfl) (hmax m rfl)

theorem CompiledEventSchema.exists_fields (schema : CompiledEventSchema serde) :
    ∃ fields, schema.spec = .obj fields := by
  obtain ⟨spec, admitted⟩ := schema
  obtain ⟨_, -, hnode⟩ := bind_eq_ok.mp admitted
  cases spec with
  | obj fields => exact ⟨fields, rfl⟩
  | _ => cases hnode

variable [LT F] [DecidableLT F] [LE F] [DecidableLE F]

theorem validateInstance_str {schema : Fields} {text : String} :
    validateInstance serde (.obj schema) (.str text) = .ok () ↔ Admits serde schema text := by
  simp only [validateInstance, validateKeywords, validateString, bind_eq_ok, ensure_eq_ok,
    Option.all_eq_true, decide_eq_true_iff]
  constructor
  · rintro ⟨_, ⟨_, hc, _, he, ht⟩, _, hmin, hmax⟩
    refine ⟨hc, fun values hv => ?_, fun type hm => ?_, hmin, hmax⟩
    · rw [hv] at he
      exact of_decide_eq_true he
    · rw [Option.mem_def.mp hm] at ht
      exact matchType_str.mp ht
  · intro h
    refine ⟨(), ⟨(), h.const, (), ?_, ?_⟩, (), h.min, h.max⟩
    · split
      · next values hv => exact decide_eq_true (h.enum values hv)
      · rfl
    · cases ht : schema.lookup "type" with
      | none => rfl
      | some type => exact matchType_str.mpr (h.type type ht)

namespace CompiledEventSchema

variable (schema : CompiledEventSchema serde)

theorem isString_and_isOk {value : Json} :
    (isString value && (schema.validate value).isOk) = true ↔
      ∃ text, value = .str text ∧ schema.validate (.str text) = .ok () := by
  cases value with
  | str text =>
    cases hv : schema.validate (.str text) <;>
      simp [isString, Json.asStr?, hv, Except.isOk, Except.toBool]
  | _ => simp [isString, Json.asStr?]

/-- `accepts_some_string` is exact for every admitted schema. -/
theorem acceptsSomeString_iff :
    schema.acceptsSomeString = true ↔ ∃ text, schema.validate (.str text) = .ok () := by
  obtain ⟨fields, hf⟩ := schema.exists_fields
  have hvalidate : ∀ text, schema.validate (.str text) = .ok () ↔ Admits serde fields text := by
    intro text
    rw [validate, hf, validateInstance_str]
  unfold acceptsSomeString limit
  simp only [hf, Json.get?, Bool.and_eq_true, Option.all_eq_true, decide_eq_true_iff]
  by_cases ht : ∀ type ∈ fields.lookup "type", type.asStr? = some "string"
  swap
  · constructor
    · exact fun h => absurd h.1 ht
    · rintro ⟨text, h⟩
      exact absurd ((hvalidate text).mp h).type ht
  refine (and_iff_right ht).trans ?_
  split
  · next hc =>
    rw [isString_and_isOk]
    constructor
    · rintro ⟨text, -, h⟩
      exact ⟨text, h⟩
    · rintro ⟨text, h⟩
      exact ⟨text, ((hvalidate text).mp h).const _ hc, h⟩
  · next values hc he =>
    simp only [List.any_eq_true, isString_and_isOk]
    constructor
    · rintro ⟨_, -, text, -, h⟩
      exact ⟨text, h⟩
    · rintro ⟨text, h⟩
      exact ⟨_, ((hvalidate text).mp h).enum values he, text, rfl, h⟩
  · next hc he =>
    rw [decide_eq_true_iff, exists_length_between]
    constructor
    · rintro ⟨text, hmin, hmax⟩
      refine ⟨text, (hvalidate text).mpr ⟨fun _ hm => ?_, fun values hv => ?_, ht, hmin, hmax⟩⟩
      · rw [hc] at hm
        cases hm
      · exact absurd hv (he values)
    · rintro ⟨text, h⟩
      exact ⟨text, ((hvalidate text).mp h).min, ((hvalidate text).mp h).max⟩

end CompiledEventSchema

end BotsterHub.EventSchema
