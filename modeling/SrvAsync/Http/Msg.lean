import SrvAsync.Http.Bytes
import Mathlib.Data.List.AList

/-!
# Generic http messages

`http_msg` of `srv_http_msg.h`: header fields and a body.  The header map is an
`std::unordered_map` keyed by the lowercased field name; here it is Mathlib's
`AList`, whose keys are distinct by construction.

Two things of the compiled program are not fixed by the source, and are collected
in `Platform`: the order in which an `unordered_map` is walked, and what
`http_status_text[i]` reads for an index that is not inside the vector.

## Main definitions

* `HttpStatus`, `httpStatusText` — the status codes and their texts.
* `HttpMsg`, `addHeader`, `hasHeader`, `getHeaderValue`.
* `serializeHeadersAndBody`.
-/

namespace SrvAsync.Http

/-- `http_status`. -/
inductive HttpStatus
  /-- No error, request is valid. -/
  | none
  | ok
  | badRequest
  | notFound
  | methodNotAllowed
  | requestTimeout
  | lengthRequired
  | payloadTooLarge
  | internalServerError
  | notImplemented
  | headerFieldsTooLarge
  deriving DecidableEq, Repr, Inhabited

/-- The value of the enumerator. -/
def HttpStatus.code : HttpStatus → ℕ
  | none => 0
  | ok => 200
  | badRequest => 400
  | notFound => 404
  | methodNotAllowed => 405
  | requestTimeout => 408
  | lengthRequired => 411
  | payloadTooLarge => 413
  | internalServerError => 500
  | notImplemented => 501
  | headerFieldsTooLarge => 431

/-- What the compiled program fixes and the source does not. -/
structure Platform where
  /-- The order in which an `unordered_map` with these keys is walked. -/
  order : List Bytes → List Bytes
  /-- A walk meets every key once. -/
  order_perm : ∀ ks, (order ks).Perm ks
  /-- What is read past the end of `http_status_text`. -/
  stray : ℕ → Bytes

/-- A platform that walks a map in the order of its list. -/
def Platform.plain : Platform := ⟨id, fun ks => .refl ks, fun _ => []⟩

/-- The size `http_status_text` is constructed with. -/
def statusTextSize : ℕ := HttpStatus.headerFieldsTooLarge.code + 1

/-- The stores that fill `http_status_text`, in order. -/
def statusTextStores : List (HttpStatus × Bytes) :=
  [(.ok, ascii "OK"),
   (.badRequest, ascii "Bad Request"),
   (.notFound, ascii "Not Found"),
   (.methodNotAllowed, ascii "Method Not Allowed"),
   (.requestTimeout, ascii "Request Timeout"),
   (.lengthRequired, ascii "Length Required"),
   (.payloadTooLarge, ascii "Payload Too Large"),
   (.internalServerError, ascii "Internal Server Error"),
   (.notImplemented, ascii "Not Implemented"),
   (.headerFieldsTooLarge, ascii "Request Header Fields Too Large")]

/-- The cells of `http_status_text`: a store at an index that is not below the
size does not change them. -/
def statusTextCells : List Bytes :=
  statusTextStores.foldl (fun cells st => cells.set st.1.code st.2)
    (List.replicate statusTextSize [])

/-- `http_status_text[i]`. -/
def httpStatusText (P : Platform) (i : ℕ) : Bytes := statusTextCells.getD i (P.stray i)

/-- `header_value_t`, `std::variant<std::string, size_t>`. -/
inductive HeaderValue
  | string (s : Bytes)
  | size (n : ℕ)
  deriving DecidableEq, Repr, Inhabited

/-- What `operator<<` prints for a header value. -/
def HeaderValue.text : HeaderValue → Bytes
  | string s => s
  | size n => decimal n

/-- `AsString`; `none` is `std::bad_variant_access`. -/
def HeaderValue.asString : HeaderValue → Option Bytes
  | string s => some s
  | size _ => none

/-- `AsSizeT`; `none` is `std::bad_variant_access`. -/
def HeaderValue.asSizeT : HeaderValue → Option ℕ
  | string _ => none
  | size n => some n

/-- The header map of a message. -/
abbrev Headers := AList fun _ : Bytes => HeaderValue

/-- `http_msg`. -/
structure HttpMsg where
  headers : Headers := ∅
  body : Bytes := []

namespace HttpMsg

/-- `AddHeader`: the entry of the lowercased name is set. -/
def addHeader (m : HttpMsg) (name : Bytes) (value : HeaderValue) : HttpMsg :=
  { m with headers := m.headers.insert (toLower name) value }

/-- `HasHeader`. -/
def hasHeader (m : HttpMsg) (name : Bytes) : Bool := (m.headers.lookup (toLower name)).isSome

/-- `GetHeaderValue`; an absent header has the default value of the variant. -/
def getHeaderValue (m : HttpMsg) (name : Bytes) : HeaderValue :=
  (m.headers.lookup (toLower name)).getD (.string [])

/-- `SetBody`. -/
def setBody (m : HttpMsg) (b : Bytes) : HttpMsg := { m with body := b }

/-- `AppendBody`. -/
def appendBody (m : HttpMsg) (chunk : Bytes) : HttpMsg := { m with body := m.body ++ chunk }

/-- One line of the header section, `name: value CRLF`. -/
def headerLine (m : HttpMsg) (name : Bytes) : Bytes :=
  match m.headers.lookup name with
  | some v => name ++ ascii ": " ++ v.text ++ crlf
  | none => []

/-- `SerializeHeadersAndBody`. -/
def serializeHeadersAndBody (P : Platform) (m : HttpMsg) : Bytes :=
  (P.order m.headers.keys).flatMap m.headerLine ++ crlf ++ m.body

/-- **The length of a serialized message does not depend on the walk.** -/
theorem length_serializeHeadersAndBody (P : Platform) (m : HttpMsg) :
    (m.serializeHeadersAndBody P).length
      = (m.headers.keys.map fun k => (m.headerLine k).length).sum + 2 + m.body.length := by
  have hperm := ((P.order_perm m.headers.keys).map fun k => (m.headerLine k).length).sum_nat
  simp only [serializeHeadersAndBody, List.length_append, List.length_flatMap, hperm]
  rfl

end HttpMsg
end SrvAsync.Http
