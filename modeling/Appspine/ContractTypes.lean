import Appspine.SchemaSemantics
import Appspine.TypeTextParts

/-!
# The payload types of the contract tool

`typescriptType` prints the type of a schema's values. A value that the validator accepts has the
type that the printed text reads as, unless one of the lists that are joined in it is empty.
-/
namespace Appspine.ContractTypes
open JsText JsonText JsonSchema TypeText InsertionMap

variable {N : Type}

section Types

/-- What `typescriptType` returns, by the first keyword that decides it. -/
inductive Form (N : Type) where
  | unknown
  | enum (values : List (Json N))
  | const (value : Json N)
  | types (types : List (Json N))
  | object
  | array
  | number
  | named (type : JsString)
  | union (children : List (Json N))
  | intersection (children : List (Json N))

def combinatorForm (schema : Json N) : Form N :=
  match (schemaList schema (js "anyOf")).or (schemaList schema (js "oneOf")) with
  | some children => .union children
  | none =>
    match schemaList schema (js "allOf") with
    | some children => .intersection children
    | none => .unknown

/-- The type is `schema.type`, or the one that `{ ...schema, type }` has instead. -/
def typeForm (type : Option (Json N)) (schema : Json N) : Form N :=
  if isNode schema = false then .unknown
  else
    match schemaList schema (js "enum") with
    | some values => .enum values
    | none =>
      match field (js "const") schema with
      | some value => .const value
      | none =>
        match type with
        | some (.arr types) => .types types
        | some (.str t) =>
          if t = js "object" then .object
          else if t = js "array" then .array
          else if t = js "integer" ∨ t = js "number" then .number
          else if t = js "boolean" ∨ t = js "string" ∨ t = js "null" then .named t
          else combinatorForm schema
        | _ => combinatorForm schema

/-- What a form says of the schema and the type. -/
def Says (type : Option (Json N)) (schema : Json N) : Form N → Prop
  | .unknown => True
  | .enum values => schemaList schema (js "enum") = some values
  | .const value => field (js "const") schema = some value
  | .types types => type = some (.arr types)
  | .object => type = some (.str (js "object"))
  | .array => type = some (.str (js "array"))
  | .number => type = some (.str (js "integer")) ∨ type = some (.str (js "number"))
  | .named t => type = some (.str t) ∧ (t = js "boolean" ∨ t = js "string" ∨ t = js "null")
  | .union children =>
    schemaList schema (js "anyOf") = some children ∨ schemaList schema (js "oneOf") = some children
  | .intersection children => schemaList schema (js "allOf") = some children

theorem combinatorForm_says (type : Option (Json N)) (schema : Json N) :
    Says type schema (combinatorForm schema) := by
  unfold combinatorForm
  split
  · next children heq =>
    cases hany : schemaList schema (js "anyOf") with
    | some items =>
      rw [hany, Option.some_or] at heq
      exact .inl (hany.trans heq)
    | none =>
      rw [hany, Option.none_or] at heq
      exact .inr heq
  · split
    · next heq => exact heq
    · trivial

theorem typeForm_says (type : Option (Json N)) (schema : Json N) :
    Says type schema (typeForm type schema) := by
  unfold typeForm
  split_ifs
  · trivial
  · split
    · next heq => exact heq
    · split
      · next heq => exact heq
      · split
        · rfl
        · next t =>
          split_ifs with hobject harray hnumber hnamed
          · rw [hobject]
            rfl
          · rw [harray]
            rfl
          · exact hnumber.imp (fun h => by rw [h]) fun h => by rw [h]
          · exact ⟨rfl, hnamed⟩
          · exact combinatorForm_says _ schema
        · exact combinatorForm_says _ schema

theorem says_of_eq {type : Option (Json N)} {schema : Json N} {form : Form N}
    (h : typeForm type schema = form) : Says type schema form := h ▸ typeForm_says type schema

variable [JsonNumber N]

/-- `typescriptType`, for a schema with the type. -/
def typescriptTypeOf (type : Option (Json N)) (schema : Json N) : JsString :=
  match h : typeForm type schema with
  | .unknown => js "unknown"
  | .enum values => join (js " | ") (values.map stringify)
  | .const value => stringify value
  | .types types =>
    join (js " | ") (types.attach.map (fun t => typescriptTypeOf (some t.1) schema))
  | .object =>
    let properties := (schemaEntries schema (js "properties")).attach.map (fun e =>
      quote e.1.1 ++ (if e.1.1 ∈ requiredOf schema then [] else js "?") ++ js ": " ++
        typescriptTypeOf (field (js "type") e.1.2) e.1.2 ++ js ";")
    js "\x7b " ++ join (js " ") properties ++
      (if isClosed schema then [] else js " [key: string]: unknown;") ++ js " \x7d"
  | .array =>
    js "Array<" ++
      (match _hitems : field (js "items") schema with
        | some items => typescriptTypeOf (field (js "type") items) items
        | none => js "unknown") ++ js ">"
  | .number => js "number"
  | .named t => t
  | .union children => join (js " | ")
      (children.attach.map (fun c => typescriptTypeOf (field (js "type") c.1) c.1))
  | .intersection children => join (js " & ")
      (children.attach.map (fun c => typescriptTypeOf (field (js "type") c.1) c.1))
termination_by (sizeOf schema, sizeOf type)
decreasing_by
  · have htype : type = some (.arr types) := says_of_eq h
    have hlt := List.sizeOf_lt_of_mem t.2
    rw [htype]
    apply Prod.Lex.right
    simp only [Option.some.sizeOf_spec, Json.arr.sizeOf_spec]
    omega
  · exact .left _ _ (sizeOf_schemaEntries_lt e.2)
  · exact .left _ _ (sizeOf_field_lt ‹_›)
  · refine .left _ _ ?_
    rcases (says_of_eq h : Says type schema (.union children)) with hlist | hlist
    · exact sizeOf_schemaList_lt hlist c.2
    · exact sizeOf_schemaList_lt hlist c.2
  · have hlist : schemaList schema (js "allOf") = some children := says_of_eq h
    exact .left _ _ (sizeOf_schemaList_lt hlist c.2)

def typescriptType (schema : Json N) : JsString := typescriptTypeOf (field (js "type") schema) schema

theorem typescriptTypeOf_eq (type : Option (Json N)) (schema : Json N) :
    typescriptTypeOf type schema =
      match typeForm type schema with
      | .unknown => js "unknown"
      | .enum values => join (js " | ") (values.map stringify)
      | .const value => stringify value
      | .types types => join (js " | ") (types.map (fun t => typescriptTypeOf (some t) schema))
      | .object =>
        js "\x7b " ++ join (js " ") ((schemaEntries schema (js "properties")).map (fun e =>
          quote e.1 ++ (if e.1 ∈ requiredOf schema then [] else js "?") ++ js ": " ++
            typescriptType e.2 ++ js ";")) ++
          (if isClosed schema then [] else js " [key: string]: unknown;") ++ js " \x7d"
      | .array =>
        js "Array<" ++ ((field (js "items") schema).map typescriptType).getD (js "unknown") ++ js ">"
      | .number => js "number"
      | .named t => t
      | .union children => join (js " | ") (children.map typescriptType)
      | .intersection children => join (js " & ") (children.map typescriptType) := by
  have hmap : ∀ {α : Type} (xs : List α) (f : α → JsString),
      xs.attach.map (fun x => f x.1) = xs.map f := by
    intro α xs f
    rw [List.map_subtype (g := f) fun _ _ => rfl, List.unattach_attach]
  rw [typescriptTypeOf]
  split
  · next h => rw [h]
  · next h => rw [h]
  · next h => rw [h]
  · next types h =>
    rw [h, hmap types fun t => typescriptTypeOf (some t) schema]
  · next h =>
    rw [h]
    dsimp only
    rw [hmap (schemaEntries schema (js "properties")) fun e => quote e.1 ++
      (if e.1 ∈ requiredOf schema then [] else js "?") ++ js ": " ++
        typescriptTypeOf (field (js "type") e.2) e.2 ++ js ";"]
    rfl
  · next h =>
    rw [h]
    dsimp only
    cases hitems : field (js "items") schema with
    | none => rfl
    | some items => rfl
  · next h => rw [h]
  · next h => rw [h]
  · next children h =>
    rw [h, hmap children fun c => typescriptTypeOf (field (js "type") c) c]
    rfl
  · next children h =>
    rw [h, hmap children fun c => typescriptTypeOf (field (js "type") c) c]
    rfl

end Types

section Literals

variable [NumberValue N]

/-- The text of a JSON value is the type of the values equal to it. -/
theorem means_stringify (j : Json N) : Means (stringify j) (fun v : Json N => EqualJson v j) := by
  have hkeyword : ∀ (u : CodeUnit) (us : JsString) (type : TypeExpr N) (value : Json N),
      (u :: us).all isLetter = true → isNumberUnit u = false → u :: us ≠ js "Array" →
        keywordType (u :: us) = some type → (∀ v : Json N, EqualJson v value → Inhabits v type) →
          Means (u :: us) (fun v : Json N => EqualJson v value) := by
    intro u us type value hname hnumber harray htype hsound
    exact (readsAs_keyword hname hnumber harray htype).means hsound
  induction j with
  | null =>
    refine hkeyword (unit 'n') (js "ull") _ .null (by decide) (by decide) (by decide) rfl ?_
    intro v hv
    cases v with
    | null => exact .null
    | _ => simp [EqualJson] at hv
  | bool b =>
    have hsound : ∀ v : Json N, EqualJson v (.bool b) → Inhabits v (.literal (.bool b)) := by
      intro v hv
      cases v with
      | bool b' =>
        rw [EqualJson] at hv
        exact hv ▸ .literal _
      | _ => simp [EqualJson] at hv
    cases b with
    | true =>
      exact hkeyword (unit 't') (js "rue") _ _ (by decide) (by decide) (by decide) rfl hsound
    | false =>
      exact hkeyword (unit 'f') (js "alse") _ _ (by decide) (by decide) (by decide) rfl hsound
  | num n =>
    refine (readsAs_number n).means fun v hv => ?_
    cases v with
    | num m =>
      rw [EqualJson] at hv
      exact NumberValue.toRat_injective hv ▸ .literal _
    | _ => simp [EqualJson] at hv
  | str s =>
    refine (readsAs_string s).means fun v hv => ?_
    cases v with
    | str s' =>
      rw [EqualJson] at hv
      exact hv ▸ .literal _
    | _ => simp [EqualJson] at hv
  | arr items ih =>
    have htuple := @Means.tuple N _ (items.map fun j => (stringify j, fun v => EqualJson v j))
      (List.forall_mem_map.mpr ih)
    rw [List.map_map] at htuple
    rw [stringify, stringifyItems_eq]
    refine htuple.mono fun v hv => ?_
    cases v with
    | arr xs =>
      rw [EqualJson] at hv
      refine ⟨xs, rfl, ?_⟩
      clear ih htuple
      induction items generalizing xs with
      | nil =>
        cases xs with
        | nil => exact .nil
        | cons x xs => simp [EqualItems] at hv
      | cons j items ihitems =>
        cases xs with
        | nil => simp [EqualItems] at hv
        | cons x xs =>
          rw [EqualItems] at hv
          exact .cons hv.1 (ihitems xs hv.2)
    | _ => simp [EqualJson] at hv
  | obj members ih =>
    have hbraces := @Means.braces N _
      (members.map fun m => ⟨m.1, false, stringify m.2, fun v => EqualJson v m.2⟩)
      (List.forall_mem_map.mpr ih) (List.forall_mem_map.mpr fun _ _ => rfl)
    rw [List.map_map] at hbraces
    rw [stringify, stringifyMembers_eq]
    refine hbraces.mono fun v hv => ?_
    cases v with
    | obj record =>
      rw [EqualJson, equalMembers_iff] at hv
      refine ⟨record, rfl, List.forall_mem_map.mpr fun m hm => ⟨fun x hx => ?_, ?_⟩⟩
      · exact hv.2 _ (mem_of_get hx) _ hm
      · exact (hv.1 m.1).mpr (List.mem_map_of_mem hm)
    | _ => simp [EqualJson] at hv

end Literals

section Sound

variable [NumberValue N]

/-- None of the lists that are joined in the printed type is empty. -/
inductive Printable : Option (Json N) → Json N → Prop
  | unknown {type : Option (Json N)} {schema : Json N} (h : typeForm type schema = .unknown) :
      Printable type schema
  | enum {type : Option (Json N)} {schema : Json N} {values : List (Json N)}
      (h : typeForm type schema = .enum values) (hne : values ≠ []) : Printable type schema
  | const {type : Option (Json N)} {schema value : Json N}
      (h : typeForm type schema = .const value) : Printable type schema
  | types {type : Option (Json N)} {schema : Json N} {types : List (Json N)}
      (h : typeForm type schema = .types types) (hne : types ≠ [])
      (hchildren : ∀ t ∈ types, Printable (some t) schema) : Printable type schema
  | object {type : Option (Json N)} {schema : Json N} (h : typeForm type schema = .object)
      (hchildren : ∀ e ∈ schemaEntries schema (js "properties"),
        Printable (field (js "type") e.2) e.2) : Printable type schema
  | array {type : Option (Json N)} {schema : Json N} (h : typeForm type schema = .array)
      (hchildren : ∀ items, field (js "items") schema = some items →
        Printable (field (js "type") items) items) : Printable type schema
  | number {type : Option (Json N)} {schema : Json N} (h : typeForm type schema = .number) :
      Printable type schema
  | named {type : Option (Json N)} {schema : Json N} {t : JsString}
      (h : typeForm type schema = .named t) : Printable type schema
  | union {type : Option (Json N)} {schema : Json N} {children : List (Json N)}
      (h : typeForm type schema = .union children) (hne : children ≠ [])
      (hchildren : ∀ c ∈ children, Printable (field (js "type") c) c) : Printable type schema
  | intersection {type : Option (Json N)} {schema : Json N} {children : List (Json N)}
      (h : typeForm type schema = .intersection children) (hne : children ≠ [])
      (hchildren : ∀ c ∈ children, Printable (field (js "type") c) c) : Printable type schema

variable {P : Platform} {mode : Option SchemaValidationMode} {enforceClassification : Bool}

/-- A plain value that conforms to the schema and is an instance of the type. -/
structure Accepted (P : Platform) (mode : Option SchemaValidationMode) (type : Option (Json N))
    (schema : Json N) (j : Json N) : Prop where
  plain : plainValue j = true
  conforms : Conforms P mode (.json j) schema
  hasType : ∀ t, type = some t → ∃ c, .str c ∈ typeList t ∧ HasType j c

theorem accepted_of_conforms {schema j : Json N} (hdef : WellDefined enforceClassification schema)
    (hj : plainValue j = true) (h : Conforms P mode (.json j) schema) :
    Accepted P mode (field (js "type") schema) schema j :=
  ⟨hj, h, (type_iff hdef).mp ((conforms_iff P mode).mp h).1.type⟩

theorem inhabits_boolean {t : JsString} {j : Json N} (h : HasType j t) (ht : t = js "boolean") :
    Inhabits j .boolean := by
  cases h with
  | boolean b => exact .boolean b
  | _ => exact absurd ht (by decide)

theorem inhabits_string {t : JsString} {j : Json N} (h : HasType j t) (ht : t = js "string") :
    Inhabits j .string := by
  cases h with
  | string s => exact .string s
  | _ => exact absurd ht (by decide)

theorem inhabits_null {t : JsString} {j : Json N} (h : HasType j t) (ht : t = js "null") :
    Inhabits j .null := by
  cases h with
  | null => exact .null
  | _ => exact absurd ht (by decide)

theorem inhabits_number {t : JsString} {j : Json N} (h : HasType j t)
    (ht : t = js "integer" ∨ t = js "number") : Inhabits j .number := by
  cases h with
  | integer n z _ => exact .number n
  | number n => exact .number n
  | _ => exact absurd ht (by decide)

theorem eq_obj_of_hasType {t : JsString} {j : Json N} (h : HasType j t) (ht : t = js "object") :
    ∃ record, j = .obj record := by
  cases h with
  | object record => exact ⟨record, rfl⟩
  | _ => exact absurd ht (by decide)

theorem eq_arr_of_hasType {t : JsString} {j : Json N} (h : HasType j t) (ht : t = js "array") :
    ∃ items, j = .arr items := by
  cases h with
  | array items => exact ⟨items, rfl⟩
  | _ => exact absurd ht (by decide)

/-- An accepted value is an instance of the type, when it is a name. -/
theorem Accepted.hasType_str {t : JsString} {schema j : Json N}
    (h : Accepted P mode (some (.str t)) schema j) : HasType j t := by
  obtain ⟨c, hc, hj⟩ := h.hasType _ rfl
  have heq : Json.str c = .str t := List.mem_singleton.mp hc
  exact Json.str.inj heq ▸ hj

variable {schema : Json N}

theorem means_enum {type : Option (Json N)} {values : List (Json N)} (hplain : PlainSchema schema)
    (hvalues : schemaList schema (js "enum") = some values) (hne : values ≠ []) :
    Means (join (js " | ") (values.map stringify)) (Accepted P mode type schema) := by
  have hunion := @Means.union N _ (values.map fun v => (stringify v, fun j => EqualJson j v))
    (by simpa using hne) (List.forall_mem_map.mpr fun v _ => means_stringify v)
  rw [List.map_map] at hunion
  refine hunion.mono fun j hj => ?_
  obtain ⟨v, hv, hsame⟩ := ((conforms_iff P mode).mp hj.conforms).1.enum values hvalues
  have hequal := (sameJson_json (uniqueKeys_of_plainValue hj.plain)
    (uniqueKeys_of_schemaList hplain.unique hvalues hv)).mp hsame
  exact ⟨_, List.mem_map_of_mem hv, hequal⟩

theorem means_const {type : Option (Json N)} {value : Json N} (hplain : PlainSchema schema)
    (hvalue : field (js "const") schema = some value) :
    Means (stringify value) (Accepted P mode type schema) := by
  refine (means_stringify value).mono fun j hj => ?_
  have hsame := ((conforms_iff P mode).mp hj.conforms).1.const value hvalue
  exact (sameJson_json (uniqueKeys_of_plainValue hj.plain)
    (uniqueKeys_of_field hplain.unique hvalue)).mp hsame

/-- A list of types: an accepted value is an instance of one of them. -/
theorem means_types {types : List (Json N)} (hne : types ≠ []) (h : ∀ t ∈ types,
    Means (typescriptTypeOf (some t) schema) (Accepted P mode (some t) schema)) :
    Means (join (js " | ") (types.map (fun t => typescriptTypeOf (some t) schema)))
      (Accepted P mode (some (.arr types)) schema) := by
  have hunion := @Means.union N _
    (types.map fun t => (typescriptTypeOf (some t) schema, Accepted P mode (some t) schema))
    (by simpa using hne) (List.forall_mem_map.mpr h)
  rw [List.map_map] at hunion
  refine hunion.mono fun j hj => ?_
  obtain ⟨c, hc, hj'⟩ := hj.hasType _ rfl
  refine ⟨_, List.mem_map_of_mem hc, hj.plain, hj.conforms, fun t ht => ?_⟩
  rw [← Option.some.inj ht]
  exact ⟨c, List.mem_singleton_self _, hj'⟩

theorem means_object (hplain : PlainSchema schema) (hdef : WellDefined enforceClassification schema)
    (h : ∀ e ∈ schemaEntries schema (js "properties"),
      Means (typescriptType e.2) (Accepted P mode (field (js "type") e.2) e.2)) :
    Means (objectText ((schemaEntries schema (js "properties")).map fun e =>
        ⟨e.1, !decide (e.1 ∈ requiredOf schema), typescriptType e.2,
          Accepted P mode (field (js "type") e.2) e.2⟩) (!isClosed schema))
      (Accepted P mode (some (.str (js "object"))) schema) := by
  have hnode := hplain.node schema .refl
  refine (Means.object (List.forall_mem_map.mpr h) _).mono fun j hj => ?_
  obtain ⟨hvalue, hchildren⟩ := (conforms_iff P mode).mp hj.conforms
  obtain ⟨record, rfl⟩ := eq_obj_of_hasType hj.hasType_str rfl
  refine ⟨record, rfl, List.forall_mem_map.mpr fun e he => ⟨fun x hx => ?_, fun hrequired => ?_⟩⟩
  · have hk := hnode.names e.1 (List.mem_append_left _ (List.mem_map_of_mem he))
    have hchild : EvalChild schema e.2 := .entry (k := js "properties") (by simp) he
    refine accepted_of_conforms (hdef.child hchild)
      ((plainValue_obj.mp hj.plain).2 _ (mem_of_get hx)) ?_
    refine hchildren.properties rfl e he _ ?_
    rw [property_obj hk, hx]
    rfl
  · have hmem : e.1 ∈ requiredOf schema := by simpa using hrequired
    have hk := hnode.names e.1 (List.mem_append_right _ hmem)
    have hsome := hvalue.required rfl e.1 hmem
    rwa [property_obj hk, Option.isSome_map, isSome_get] at hsome

theorem means_array (hdef : WellDefined enforceClassification schema)
    (h : ∀ items, schemaAt schema (js "items") = some items →
      Means (typescriptType items) (Accepted P mode (field (js "type") items) items)) :
    Means (js "Array<" ++ ((field (js "items") schema).map typescriptType).getD (js "unknown") ++
      js ">") (Accepted P mode (some (.str (js "array"))) schema) := by
  have hunknown : Means (js "unknown") (fun _ : Json N => True) :=
    readsAs_unknown.means fun j _ => .unknown j
  have hitem : ∃ p : Json N → Prop,
      Means (((field (js "items") schema).map typescriptType).getD (js "unknown")) p ∧
        ∀ j items, Accepted P mode (some (.str (js "array"))) schema j → j = .arr items →
          ∀ x ∈ items, p x := by
    cases hfield : field (js "items") schema with
    | none => exact ⟨_, hunknown, fun _ _ _ _ _ _ => trivial⟩
    | some c =>
      by_cases htruthy : truthy (.json c) = true
      · have hat := schemaAt_eq_some.mpr ⟨hfield, htruthy⟩
        refine ⟨_, h c hat, ?_⟩
        rintro j items hj rfl x hx
        have hchild : EvalChild schema c := .keyword (k := js "items") (by simp) hat
        exact accepted_of_conforms (hdef.child hchild) (plainValue_arr.mp hj.plain x hx)
          (((conforms_iff P mode).mp hj.conforms).2.items items rfl c hat x hx)
      · -- what is no schema is not validated, and printed as `unknown`
        have htext : typescriptType c = js "unknown" := by
          have hform : typeForm (field (js "type") c) c = .unknown := by
            cases c with
            | arr items => exact absurd rfl htruthy
            | obj members => exact absurd rfl htruthy
            | _ => rfl
          rw [typescriptType, typescriptTypeOf_eq, hform]
        rw [Option.map_some, Option.getD_some, htext]
        exact ⟨_, hunknown, fun _ _ _ _ _ _ => trivial⟩
  obtain ⟨p, hmeans, hitems⟩ := hitem
  refine hmeans.array.mono fun j hj => ?_
  obtain ⟨items, rfl⟩ := eq_arr_of_hasType hj.hasType_str rfl
  exact ⟨items, rfl, hitems _ items hj rfl⟩

theorem means_children {keyword : JsString} (hkeyword : keyword ∈ [js "allOf", js "anyOf", js "oneOf"])
    {children : List (Json N)} (hchildren : schemaList schema keyword = some children)
    (hdef : WellDefined enforceClassification schema) {c j : Json N} (hc : c ∈ children)
    (hj : plainValue j = true) (h : Conforms P mode (.json j) c) :
    Accepted P mode (field (js "type") c) c j :=
  accepted_of_conforms (hdef.child (.member hkeyword hchildren hc)) hj h

theorem means_union {type : Option (Json N)} {children : List (Json N)} (hne : children ≠ [])
    (hchildren : schemaList schema (js "anyOf") = some children ∨
      schemaList schema (js "oneOf") = some children)
    (hdef : WellDefined enforceClassification schema)
    (h : ∀ c ∈ children, Means (typescriptType c) (Accepted P mode (field (js "type") c) c)) :
    Means (join (js " | ") (children.map typescriptType)) (Accepted P mode type schema) := by
  have hunion := @Means.union N _
    (children.map fun c => (typescriptType c, Accepted P mode (field (js "type") c) c))
    (by simpa using hne) (List.forall_mem_map.mpr h)
  rw [List.map_map] at hunion
  refine hunion.mono fun j hj => ?_
  have hconform := ((conforms_iff P mode).mp hj.conforms).2
  rcases hchildren with hchildren | hchildren
  · obtain ⟨c, hc, hjc⟩ := hconform.anyOf children hchildren
    exact ⟨_, List.mem_map_of_mem hc, means_children (by simp) hchildren hdef hc hj.plain hjc⟩
  · obtain ⟨c, hc, hjc⟩ := (hconform.oneOf children hchildren).1
    exact ⟨_, List.mem_map_of_mem hc, means_children (by simp) hchildren hdef hc hj.plain hjc⟩

theorem means_intersection {type : Option (Json N)} {children : List (Json N)} (hne : children ≠ [])
    (hchildren : schemaList schema (js "allOf") = some children)
    (hdef : WellDefined enforceClassification schema)
    (h : ∀ c ∈ children, Means (typescriptType c) (Accepted P mode (field (js "type") c) c)) :
    Means (join (js " & ") (children.map typescriptType)) (Accepted P mode type schema) := by
  have hinter := @Means.intersection N _
    (children.map fun c => (typescriptType c, Accepted P mode (field (js "type") c) c))
    (by simpa using hne) (List.forall_mem_map.mpr h)
  rw [List.map_map] at hinter
  refine hinter.mono fun j hj => List.forall_mem_map.mpr fun c hc => ?_
  exact means_children (by simp) hchildren hdef hc hj.plain
    (((conforms_iff P mode).mp hj.conforms).2.allOf children hchildren c hc)

/-- The printed type has every accepted value, whatever else the schema says. -/
theorem means_typescriptTypeOf {type : Option (Json N)} (hprint : Printable type schema)
    (hplain : PlainSchema schema) (hdef : WellDefined enforceClassification schema) :
    Means (typescriptTypeOf type schema) (Accepted P mode type schema) := by
  induction hprint with
  | unknown h =>
    rw [typescriptTypeOf_eq, h]
    exact readsAs_unknown.means fun j _ => .unknown j
  | enum h hne =>
    rw [typescriptTypeOf_eq, h]
    exact means_enum hplain (says_of_eq h) hne
  | const h =>
    rw [typescriptTypeOf_eq, h]
    exact means_const hplain (says_of_eq h)
  | types h hne _ ih =>
    obtain rfl := says_of_eq h
    rw [typescriptTypeOf_eq, h]
    exact means_types hne fun t ht => ih t ht hplain hdef
  | @object _ schema h _ ih =>
    obtain rfl := says_of_eq h
    have hobject := @means_object N _ P mode _ schema hplain hdef fun e he => by
      have hchild : EvalChild schema e.2 := .entry (k := js "properties") (by simp) he
      exact ih e he (hplain.child hchild) (hdef.child hchild)
    have hfield : ∀ e : JsString × Json N, fieldText
        ⟨e.1, !decide (e.1 ∈ requiredOf schema), typescriptType e.2,
          Accepted P mode (field (js "type") e.2) e.2⟩ =
        quote e.1 ++ (if e.1 ∈ requiredOf schema then [] else js "?") ++ js ": " ++
          typescriptType e.2 ++ js ";" := by
      intro e
      by_cases hmem : e.1 ∈ requiredOf schema
      · simp [fieldText, mark, hmem]
      · simp only [fieldText, mark, hmem]
        rfl
    simp only [objectText, List.map_map, Function.comp_def, hfield] at hobject
    rw [typescriptTypeOf_eq, h]
    cases hclosed : isClosed schema <;> simpa [hclosed] using hobject
  | @array _ schema h _ ih =>
    obtain rfl := says_of_eq h
    rw [typescriptTypeOf_eq, h]
    refine means_array hdef fun items hitems => ?_
    have hchild : EvalChild schema items := .keyword (k := js "items") (by simp) hitems
    exact ih items (schemaAt_eq_some.mp hitems).1 (hplain.child hchild) (hdef.child hchild)
  | number h =>
    have hnumber := says_of_eq h
    rw [typescriptTypeOf_eq, h]
    refine (@readsAs_keyword N _ (unit 'n') (js "umber") .number (by decide) (by decide) (by decide)
      rfl).means fun j hj => ?_
    rcases hnumber with rfl | rfl
    · exact inhabits_number hj.hasType_str (.inl rfl)
    · exact inhabits_number hj.hasType_str (.inr rfl)
  | named h =>
    obtain ⟨rfl, hnamed⟩ := says_of_eq h
    rw [typescriptTypeOf_eq, h]
    rcases hnamed with rfl | rfl | rfl
    · exact (@readsAs_keyword N _ (unit 'b') (js "oolean") .boolean (by decide) (by decide)
        (by decide) rfl).means fun j hj => inhabits_boolean hj.hasType_str rfl
    · exact (@readsAs_keyword N _ (unit 's') (js "tring") .string (by decide) (by decide)
        (by decide) rfl).means fun j hj => inhabits_string hj.hasType_str rfl
    · exact (@readsAs_keyword N _ (unit 'n') (js "ull") .null (by decide) (by decide)
        (by decide) rfl).means fun j hj => inhabits_null hj.hasType_str rfl
  | @union _ schema children h hne _ ih =>
    rw [typescriptTypeOf_eq, h]
    refine means_union hne (says_of_eq h) hdef fun c hc => ?_
    have hchild : EvalChild schema c := by
      rcases (says_of_eq h : Says _ schema (.union children)) with hlist | hlist
      · exact .member (k := js "anyOf") (by simp) hlist hc
      · exact .member (k := js "oneOf") (by simp) hlist hc
    exact ih c hc (hplain.child hchild) (hdef.child hchild)
  | @intersection _ schema children h hne _ ih =>
    rw [typescriptTypeOf_eq, h]
    refine means_intersection hne (says_of_eq h) hdef fun c hc => ?_
    have hchild : EvalChild schema c := .member (k := js "allOf") (by simp) (says_of_eq h) hc
    exact ih c hc (hplain.child hchild) (hdef.child hchild)

end Sound

section Payloads

variable [NumberValue N]

/-- Every accepted payload has the type that is generated for the schema. -/
def TypesAccepted (P : Platform) (options : ValidateJsonSchemaOptions N) (schema : Json N) : Prop :=
  ∀ j, plainValue j = true → Returns P (.json j) schema options [] →
    ∃ type, Reads (typescriptType schema) type ∧ Inhabits j type

variable {P : Platform} {options : ValidateJsonSchemaOptions N} {schema : Json N}

theorem conforms_of_returns (hplain : PlainSchema schema)
    (hdef : WellDefined (options.resolve schema).enforceClassification schema) {j : Json N}
    (h : Returns P (.json j) schema options []) : Conforms P options.mode (.json j) schema := by
  obtain ⟨n, hn⟩ := h
  obtain ⟨issues, hissues, hiff⟩ := @decides_validateJsonSchema _ _ P options
    (max n (sizeOf schema)) (.json j) schema hplain.refFree hdef (le_max_right _ _)
  rw [hn _ (le_max_left _ _), Option.some_inj] at hissues
  exact hiff.mp hissues.symm

/-- Nothing is read where nothing stands. -/
theorem readType_nil (fuel : ℕ) : readType (N := N) fuel [] = none := by
  have hoperand : ∀ fuel, readOperand (N := N) fuel [] = none := by
    intro fuel
    cases fuel <;> rfl
  have hintersection : ∀ fuel, readIntersection (N := N) fuel [] = none := by
    intro fuel
    cases fuel with
    | zero => rfl
    | succ fuel =>
      simp [readIntersection, hoperand]
  have hunion : ∀ fuel, readUnion (N := N) fuel [] = none := by
    intro fuel
    cases fuel with
    | zero => rfl
    | succ fuel =>
      have hsign : readSign (unit '&') [] = none := rfl
      simp [readUnion, hsign, hintersection]
  cases fuel with
  | zero => rfl
  | succ fuel =>
    have hsign : readSign (unit '|') [] = none := rfl
    simp [readType, hsign, hunion]

theorem not_reads_nil (type : TypeExpr N) : ¬ Reads [] type := by
  rintro ⟨n, hn⟩
  obtain ⟨rest, hrest, -⟩ := hn n le_rfl
  rw [readType_nil] at hrest
  cases hrest

/-- Printed from lists that are not empty, the type has every accepted payload; where nothing is
printed it has them only if there are none. -/
theorem typesAccepted (hplain : PlainSchema schema)
    (hdef : definitionIssues (options.resolve schema).enforceClassification schema (js "$") = []) :
    (Printable (field (js "type") schema) schema → TypesAccepted P options schema) ∧
      (typescriptType schema = [] → (TypesAccepted P options schema ↔
        ∀ j, plainValue j = true → ¬ Returns P (.json j) schema options [])) := by
  constructor
  · intro hprint j hj haccepted
    have hmeans : Means (typescriptType schema)
        (Accepted P options.mode (field (js "type") schema) schema) :=
      means_typescriptTypeOf hprint hplain hdef
    obtain ⟨type, hreads, hsound⟩ := hmeans.exists_reads
    exact ⟨type, hreads,
      hsound j (accepted_of_conforms hdef hj (conforms_of_returns hplain hdef haccepted))⟩
  · intro hempty
    constructor
    · intro h j hj haccepted
      obtain ⟨type, hreads, -⟩ := h j hj haccepted
      rw [hempty] at hreads
      exact not_reads_nil type hreads
    · intro h j hj haccepted
      exact absurd haccepted (h j hj)

def optionalText : Json ℤ :=
  .obj [(js "type", .arr [.str (js "string"), .str (js "null")]),
    (js "x-appspine-data-classification", .str (js "PUBLIC"))]

theorem typesAccepted_optionalText : TypesAccepted anyPlatform strictOptions optionalText := by
  have hplain : PlainSchema optionalText := by
    refine .of_leaf (by decide +kernel) ⟨by decide +kernel, ?_, by decide +kernel⟩ (by rfl)
    intro j hj
    cases hj
  refine (typesAccepted hplain (by decide +kernel)).1 (.types rfl (List.cons_ne_nil _ _) ?_)
  intro t ht
  rcases List.mem_cons.mp ht with rfl | ht
  · exact .named rfl
  · rw [List.mem_singleton.mp ht]
    exact .named rfl

def emptyAllOf : Json ℤ :=
  .obj [(js "allOf", .arr []), (js "x-appspine-data-classification", .str (js "PUBLIC"))]

/-- An empty list is printed as no type at all. -/
theorem emptyAllOf_not_typed : PlainSchema emptyAllOf ∧
    definitionIssues (strictOptions.resolve emptyAllOf).enforceClassification emptyAllOf (js "$") =
      [] ∧
    Returns anyPlatform (.json (.null : Json ℤ)) emptyAllOf strictOptions [] ∧
    ¬ TypesAccepted anyPlatform strictOptions emptyAllOf := by
  have hreturns : Returns anyPlatform (.json (.null : Json ℤ)) emptyAllOf strictOptions [] :=
    returns_of_eq_some (n := 1) (by decide +kernel)
  have htext : typescriptType emptyAllOf = [] := by
    have hform : typeForm (field (js "type") emptyAllOf) emptyAllOf = .intersection [] := rfl
    rw [typescriptType, typescriptTypeOf_eq, hform]
    rfl
  refine ⟨?_, by decide +kernel, hreturns, fun h => ?_⟩
  · refine .of_leaf (by decide +kernel) ⟨by decide +kernel, ?_, by decide +kernel⟩ (by rfl)
    intro j hj
    cases hj
  · obtain ⟨type, hreads, -⟩ := h .null rfl hreturns
    rw [htext] at hreads
    exact not_reads_nil type hreads

end Payloads

end Appspine.ContractTypes
