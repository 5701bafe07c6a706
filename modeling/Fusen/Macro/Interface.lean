import Fusen.Contract.Registration
import Fusen.Macro.Route

/-!
# The interface macro (`procedural-macro/validate.rs`, `args.rs`)

`validate` reads an annotated trait and its attributes and returns the service that
the generated code is written from.  Tokens come parsed: a trait is what `syn` makes of
it, and `TypeSyntax` stands for what the macro looks at in a Rust type.  Spans and the
notes attached to an error are left out.
-/

namespace Fusen.Macro

open Lib Contract

inductive MacroError
  | message (text : Text)
  /-- The text `invalid {field} media type {raw:?}: expected a MIME media type`. -/
  | invalidMediaType (field raw : Text)
deriving DecidableEq

abbrev Result := Except MacroError

def fail {α : Type} (text : Text) : Result α := .error (.message text)

def reject (condition : Bool) (text : Text) : Result Unit :=
  if condition then fail text else .ok ()

/-- An error of the route checks. -/
def checked {α : Type} (x : Except Text α) : Result α := x.mapError .message

/-- A value in backticks. -/
def quoted (s : Text) : Text := '`' :: s ++ ['`']

/-! ## Attributes of the interface and its methods -/

structure ServiceArgs where
  name : Option Text
  group : Option Text
  version : Option Text

structure MethodArgs where
  method : Option Text
  path : Option Text
  consumes : Option Text
  produces : Option Text

/-- One field of an attribute; a value that is no string literal is `none`. -/
inductive AttributeField
  | notNameValue
  | qualified
  | named (name : Text) (value : Option Text)

def parseString (value : Option Text) (field : String) : Result Text :=
  match value with
  | none => fail (quoted field.toList ++ " must be a string literal".toList)
  | some [] => fail (quoted field.toList ++ " must not be empty".toList)
  | some value => .ok value

def setOnce (slot : Option Text) (value : Text) (field : String) : Result (Option Text) :=
  match slot with
  | some _ => fail ("duplicate attribute field ".toList ++ quoted field.toList)
  | none => .ok (some value)

def MethodArgs.setField (args : MethodArgs) : AttributeField → Result MethodArgs
  | .notNameValue => fail "method fields must use `name = value` syntax".toList
  | .qualified => fail "method field names must be unqualified identifiers".toList
  | .named name value => do
    if name = "method".toList then
      let slot ← setOnce args.method (← parseString value "method") "method"
      return { args with method := slot }
    else if name = "path".toList then
      let slot ← setOnce args.path (← parseString value "path") "path"
      return { args with path := slot }
    else if name = "consumes".toList then
      let slot ← setOnce args.consumes (← parseString value "consumes") "consumes"
      return { args with consumes := slot }
    else if name = "produces".toList then
      let slot ← setOnce args.produces (← parseString value "produces") "produces"
      return { args with produces := slot }
    else fail ("unknown method field ".toList ++ quoted name ++
      "; expected `method`, `path`, `consumes`, or `produces`".toList)

/-- A `method` attribute: bare, with a list of fields (or tokens that are none), or with `=`. -/
inductive MethodAttribute
  | bare
  | list (fields : Result (List AttributeField))
  | nameValue

def MethodAttribute.args : MethodAttribute → Result MethodArgs
  | .bare => .ok ⟨none, none, none, none⟩
  | .list fields => do (← fields).foldlM MethodArgs.setField ⟨none, none, none, none⟩
  | .nameValue => fail "`method` must use `#[method(...)]` syntax".toList

/-- The loop of `method_args`. -/
def methodArgsFrom (parsed : Option MethodArgs) : List MethodAttribute → Result MethodArgs
  | [] =>
    match parsed with
    | some args => .ok args
    | none => fail ("each service invocation method must declare " ++
        "#[method(method = \"...\", path = \"/...\")]").toList
  | found :: rest => do
    reject parsed.isSome
      "only one `method` attribute is allowed per service invocation method".toList
    methodArgsFrom (some (← found.args)) rest

def methodArgs (attributes : List MethodAttribute) : Result MethodArgs :=
  methodArgsFrom none attributes

/-! ## The HTTP mapping of a method -/

structure HttpMapping where
  method : Text
  path : Text
  consumes : Text
  produces : Text
deriving DecidableEq

def required (value : Option Text) (text : String) : Result Text :=
  match value with
  | some value => .ok value
  | none => fail text.toList

def validateMediaType (canonicalMediaType : Text → Option Text) (value : Option Text)
    (field : String) : Result Text :=
  match value with
  | none => .ok "application/json".toList
  | some raw =>
    match canonicalMediaType raw with
    | some mediaType => .ok mediaType
    | none => .error (.invalidMediaType field.toList raw)

def httpMethods : List Text :=
  ["GET".toList, "POST".toList, "PUT".toList, "PATCH".toList, "DELETE".toList, "HEAD".toList,
    "OPTIONS".toList]

def validateHttp (canonicalMediaType : Text → Option Text) (args : MethodArgs) :
    Result HttpMapping := do
  let method ← required args.method "method attribute requires method = \"...\""
  let path ← required args.path "method attribute requires path = \"/...\""
  let method := method.map Char.toUpper
  reject (!httpMethods.contains method) ("unsupported HTTP method ".toList ++ method)
  let _ ← checked (validateRoute path)
  let consumes ← validateMediaType canonicalMediaType args.consumes "consumes"
  let produces ← validateMediaType canonicalMediaType args.produces "produces"
  return { method, path, consumes, produces }

/-! ## Parameters -/

inductive ParameterSource
  | context | path | query | header | cookie | bodyField | body | queryMap | headerMap
deriving DecidableEq

def sourceName : ParameterSource → Text
  | .context => "context".toList
  | .path => "path".toList
  | .query => "query".toList
  | .header => "header".toList
  | .cookie => "cookie".toList
  | .bodyField => "body_field".toList
  | .body => "body".toList
  | .queryMap => "query map".toList
  | .headerMap => "header map".toList

/-- One item of a `#[param(...)]` list; `hasValue` when `=` or `(` follows it. -/
inductive ParamMeta
  | source (source : ParameterSource) (hasValue : Bool)
  | name (value : Result Text)
  | repeated (hasValue : Bool)
  | unknown
  /-- Tokens that are no item. -/
  | malformed (error : MacroError)

/-- What the `param` attributes of one parameter declare. -/
structure Declared where
  source : Option ParameterSource
  wireName : Option Text
  repeated : Bool

def Declared.read (d : Declared) : ParamMeta → Result Declared
  | .source source hasValue => do
    reject hasValue (quoted (sourceName source) ++ " does not accept a value".toList)
    match d.source with
    | some first =>
      fail (if first = source then "duplicate parameter source ".toList ++ quoted (sourceName source)
        else "conflicting parameter sources ".toList ++ quoted (sourceName first) ++
          " and ".toList ++ quoted (sourceName source))
    | none => return { d with source := some source }
  | .name value => do
    reject d.wireName.isSome "duplicate parameter wire name".toList
    return { d with wireName := some (← value) }
  | .repeated hasValue => do
    reject hasValue "`repeated` does not accept a value".toList
    reject d.repeated "duplicate parameter flag `repeated`".toList
    return { d with repeated := true }
  | .unknown => fail ("unknown parameter field; expected context, path, query, header, cookie, " ++
      "body_field, body, query_map, header_map, name, or repeated").toList
  | .malformed error => .error error

/-- What the macro looks at in a type: whether it is the runtime's `Call`, the argument of
a standard `Option` or `Vec`, references and other parts that are not owned, the success
type inside a method's result, and whether a type is `()`. -/
structure TypeSyntax (τ : Type) where
  isCall : τ → Bool
  directStandardGenericType : τ → String → Option τ
  validateOwnedType : τ → Result Unit
  responseType : Option τ → Result τ
  isUnit : τ → Bool

/-- A parameter of a method.  `pattern` is its identifier, if it is a plain immutable one;
`sensitivity` is what its `sensitive` attributes read as, and whether there is one. -/
structure TypedInput (τ : Type) where
  conditional : Bool
  pattern : Option Text
  rpcAttribute : Bool
  sensitivity : Result Bool
  params : List (List ParamMeta)
  ty : τ

/-- `plain` is an immutable `&self` without an explicit lifetime. -/
inductive FnArg (τ : Type)
  | receiver (conditional plain : Bool)
  | typed (input : TypedInput τ)

/-- `ordinary` is an `async` method that is neither `const`, `unsafe`, `extern` nor variadic. -/
structure Signature (τ : Type) where
  ident : Text
  ordinary : Bool
  generic : Bool
  inputs : List (FnArg τ)
  output : Option τ

structure Parameter (τ : Type) where
  ident : Text
  kind : τ
  wireName : Text
  source : ParameterSource
  repeated : Bool
  textEncoded : Bool
  sensitive : Bool
deriving DecidableEq

/-- The variables of the loop over the parameters. -/
structure ParameterState (τ : Type) where
  parameters : List (Parameter τ)
  names : List Text
  rawBody : Bool
  firstBodyField : Bool
  context : Bool
  queryMap : Bool
  headerMap : Bool

/-- Leading `r#` marks are no part of a name. -/
def trimRaw : Text → Text
  | 'r' :: '#' :: rest => trimRaw rest
  | s => s

/-- `GET`, `HEAD` and `OPTIONS`. -/
def refusesBody (method : Text) : Bool :=
  ["GET".toList, "HEAD".toList, "OPTIONS".toList].contains method

def bodyFieldsByDefault (method : Text) : Bool :=
  ["POST".toList, "PUT".toList, "PATCH".toList].contains method

def inferredSource (placeholders : List Text) (method wireName : Text) : ParameterSource :=
  if placeholders.contains wireName then .path
  else if bodyFieldsByDefault method then .bodyField
  else .query

section

variable {τ : Type} (types : TypeSyntax τ)

/-- The checks on the type of a query or path parameter. -/
def checkScalarTypes (source : ParameterSource) (ty : τ) (repeated : Bool) : Result Unit := do
  if source = .query then
    reject ((types.directStandardGenericType ty "Option").any fun inner =>
        (types.directStandardGenericType inner "Vec").isSome)
      ("query parameters may not use Option<Vec<T>>; use #[param(query, repeated)] Vec<T> so " ++
        "omission has one unambiguous empty-list meaning").toList
    match types.directStandardGenericType ty "Vec" with
    | none => return
    | some element =>
      reject (!repeated) "Vec query parameters must declare #[param(query, repeated)]".toList
      reject ((types.directStandardGenericType element "Option").isSome ||
          (types.directStandardGenericType element "Vec").isSome)
        "repeated query elements must be scalar values, not Option<T> or Vec<T>".toList
  else if source = .path then
    reject ((types.directStandardGenericType ty "Option").isSome ||
        (types.directStandardGenericType ty "Vec").isSome)
      "path parameters must be required scalar values".toList

def ParameterState.add (s : ParameterState τ) (p : Parameter τ) : ParameterState τ where
  parameters := s.parameters ++ [p]
  names := s.names ++ [p.wireName]
  rawBody := s.rawBody || p.source = .body
  firstBodyField := s.firstBodyField || p.source = .bodyField
  context := s.context
  queryMap := s.queryMap || p.source = .queryMap
  headerMap := s.headerMap || p.source = .headerMap

def addContext (s : ParameterState τ) (ident : Text) (declared : Declared) (sensitive : Bool)
    (ty : τ) : Result (ParameterState τ) := do
  reject sensitive "#[param(context)] parameters cannot declare sensitivity metadata".toList
  reject declared.wireName.isSome "#[param(context)] parameters must not declare a wire name".toList
  reject declared.repeated "#[param(context)] parameters cannot be repeated".toList
  reject s.context
    "a service invocation method may declare at most one #[param(context)] parameter".toList
  reject (!types.isCall ty) "#[param(context)] parameters must use the Call type".toList
  return { s with
    parameters := s.parameters ++ [⟨ident, ty, [], .context, false, false, false⟩]
    context := true }

/-- A map takes every name, so it has none. -/
def checkMapFields (declared : Declared) : Result Unit := do
  if declared.source = some .queryMap ∨ declared.source = some .headerMap then
    reject declared.wireName.isSome ("#[param(query_map)] and #[param(header_map)] parameters " ++
      "must not declare a wire name").toList
    reject declared.repeated
      "#[param(query_map)] and #[param(header_map)] parameters cannot be repeated".toList

/-- The parameters that go over the wire. -/
def addArgument (placeholders : List Text) (method : Text) (s : ParameterState τ) (ident : Text)
    (declared : Declared) (sensitive : Bool) (ty : τ) : Result (ParameterState τ) := do
  checkMapFields declared
  let wireName := declared.wireName.getD (trimRaw ident)
  checked (validateIdentity wireName "service invocation argument name")
  reject (s.names.contains wireName)
    ("duplicate service invocation wire argument name ".toList ++ quoted wireName)
  let source := declared.source.getD (inferredSource placeholders method wireName)
  reject (source = .queryMap && s.queryMap)
    "a service invocation method may declare at most one #[param(query_map)] parameter".toList
  reject (source = .headerMap && s.headerMap)
    "a service invocation method may declare at most one #[param(header_map)] parameter".toList
  reject (source ≠ .path && placeholders.contains wireName)
    ("HTTP path placeholder ".toList ++ quoted ('{' :: wireName ++ ['}']) ++
      " requires this parameter to use `#[param(path)]`".toList)
  reject (declared.repeated && declared.source ≠ some .query)
    (if declared.source = some .bodyField then "#[param(body_field)] parameters cannot be repeated"
      else "repeated query parameters must use `#[param(query, repeated)]`").toList
  reject (source = .path && !placeholders.contains wireName)
    ("#[param(path)] parameter ".toList ++ quoted wireName ++ " requires a matching ".toList ++
      quoted ('{' :: wireName ++ ['}']) ++ " path placeholder".toList)
  reject ((source = .body || source = .bodyField) && refusesBody method)
    (method ++ " methods do not accept a JSON request body".toList)
  reject (source = .body && s.rawBody)
    "a service invocation method may declare at most one #[param(body)] parameter".toList
  checkScalarTypes types source ty declared.repeated
  return s.add
    { ident, kind := ty, wireName, source, sensitive
      repeated := source = .query && declared.repeated
      textEncoded := source = .path || source = .query || source = .header || source = .cookie }

/-- One turn of the loop of `parameters`. -/
def addParameter (placeholders : List Text) (method : Text) (s : ParameterState τ) :
    FnArg τ → Result (ParameterState τ)
  | .receiver .. => fail "the signature validator rejected extra receivers".toList
  | .typed input => do
    let ident ← required input.pattern
      "service invocation parameters must use plain immutable identifier patterns"
    reject input.rpcAttribute "`#[rpc(...)]` was removed; use `#[param(...)]`".toList
    let sensitive ← input.sensitivity
    let declared ← input.params.flatten.foldlM Declared.read ⟨none, none, false⟩
    if declared.source = some .context then addContext types s ident declared sensitive input.ty
    else addArgument types placeholders method s ident declared sensitive input.ty

def parameters (signature : Signature τ) (http : HttpMapping) : Result (List (Parameter τ)) := do
  let placeholders ← checked (validateRoute http.path)
  let s ← signature.inputs.tail.foldlM (addParameter types placeholders http.method)
    ⟨[], [], false, false, false, false, false⟩
  match (orderedSet placeholders).find? fun placeholder =>
      !s.parameters.any fun p => p.source = .path && p.wireName = placeholder with
  | some placeholder => fail ("HTTP path parameter ".toList ++ quoted placeholder ++
      " requires a method parameter with the same wire name".toList)
  | none =>
    reject (s.rawBody && s.firstBodyField) ("body fields cannot be combined with a " ++
      "#[param(body)] raw body; mark the other parameters #[param(query)]").toList
    return s.parameters

/-! ## The trait -/

def rejectConditionalAttributes (conditional : Bool) (owner : String) : Result Unit :=
  reject conditional (owner ++ " must not use conditional compilation attributes").toList

def FnArg.checkAttributes : FnArg τ → Result Unit
  | .receiver conditional _ =>
    rejectConditionalAttributes conditional "service invocation method receivers"
  | .typed input =>
    rejectConditionalAttributes input.conditional "service invocation method parameters"

def FnArg.checkOwned : FnArg τ → Result Unit
  | .receiver .. => fail "service invocation methods may declare only one receiver".toList
  | .typed input => types.validateOwnedType input.ty

def validateSignature (signature : Signature τ) : Result Unit := do
  reject (!signature.ordinary)
    "service invocation methods must be ordinary async Rust methods".toList
  reject signature.generic ("service invocation methods must not declare generic parameters or " ++
    "where clauses").toList
  signature.inputs.forM FnArg.checkAttributes
  match signature.inputs with
  | .receiver _ plain :: rest =>
    reject (!plain) ("service invocation methods must have an immutable &self receiver without an " ++
      "explicit lifetime").toList
    rest.forM (FnArg.checkOwned types)
  | _ => fail "service invocation methods must have an immutable &self receiver".toList

structure TraitFn (τ : Type) where
  conditional : Bool
  attributes : List MethodAttribute
  hasDefault : Bool
  signature : Signature τ

inductive TraitItem (τ : Type)
  | fn (method : TraitFn τ)
  | other

def TraitItem.name? : TraitItem τ → Option Text
  | .fn method => some (trimRaw method.signature.ident)
  | .other => none

/-- A trait.  `ordinary` is neither `unsafe` nor `auto`; `generic` declares parameters;
`constrainsOthers` has a where clause about another type than `Self`.  Rust has no trait
with two functions of one name. -/
structure ItemTrait (τ : Type) where
  ordinary : Bool
  generic : Bool
  constrainsOthers : Bool
  conditional : Bool
  items : List (TraitItem τ)
  distinct : (items.filterMap TraitItem.name?).Nodup

structure ServiceMethod (τ : Type) where
  ident : Text
  parameters : List (Parameter τ)
  response : τ
  http : HttpMapping
deriving DecidableEq

structure Service (τ : Type) where
  name : Text
  group : Option Text
  version : Option Text
  methods : List (ServiceMethod τ)
deriving DecidableEq

def routeShape (path : Text) : Text :=
  ['/'].intercalate ((path.splitOn '/').map fun segment =>
    if segment.head? = some '{' then "{}".toList else segment)

/-- One method of a trait, but for the comparison of its route with the earlier ones. -/
def validateMethod (canonicalMediaType : Text → Option Text) (method : TraitFn τ) :
    Result (ServiceMethod τ) := do
  rejectConditionalAttributes method.conditional "service invocation methods"
  reject method.hasDefault
    "service invocation methods must not provide default implementations".toList
  validateSignature types method.signature
  checked (validateIdentity (trimRaw method.signature.ident) "method name")
  let args ← methodArgs method.attributes
  let http ← validateHttp canonicalMediaType args
  let parameters ← parameters types method.signature http
  let response ← types.responseType method.signature.output
  reject (http.method = "HEAD".toList && !types.isUnit response)
    "HTTP HEAD mappings must return Result<Response<()>, Error>".toList
  return { ident := method.signature.ident, parameters, response, http }

/-- The loop over the items; `routes` are the keys seen so far with their methods. -/
def validateItems (canonicalMediaType : Text → Option Text)
    (routes : List ((Text × Text) × Text)) : List (TraitItem τ) → Result (List (ServiceMethod τ))
  | [] => .ok []
  | .other :: _ => fail "service interfaces may contain only async invocation methods".toList
  | .fn method :: rest => do
    let m ← validateMethod types canonicalMediaType method
    let key := (m.http.method, routeShape m.http.path)
    match routes.find? fun r => r.1 = key with
    | some first => fail ("duplicate HTTP route ".toList ++ m.http.method ++ ' ' :: m.http.path ++
        "; it conflicts with method ".toList ++ quoted first.2)
    | none => return m :: (← validateItems canonicalMediaType (routes ++ [(key, m.ident)]) rest)

def validateOptionalIdentity (value : Option Text) (field : String) : Result Unit :=
  match value with
  | none => .ok ()
  | some value => checked (validateIdentity value field)

def validate (canonicalMediaType : Text → Option Text) (args : ServiceArgs) (item : ItemTrait τ) :
    Result (Service τ) := do
  reject (!item.ordinary) "service interfaces must be ordinary safe traits".toList
  reject item.generic "service interfaces must not declare generic parameters".toList
  reject item.constrainsOthers "service interface where clauses may constrain only Self".toList
  rejectConditionalAttributes item.conditional "service interface traits"
  let name ← required args.name "interface name is required: use `#[interface(name = \"...\")]`"
  checked (validateIdentity name "interface name")
  validateOptionalIdentity args.group "interface group"
  validateOptionalIdentity args.version "interface version"
  reject item.items.isEmpty "service interfaces must declare at least one invocation method".toList
  reject (65536 < item.items.length)
    "service interfaces may declare at most 65536 invocation methods".toList
  let methods ← validateItems types canonicalMediaType [] item.items
  return { name, group := args.group, version := args.version, methods }

end

end Fusen.Macro
