import SrvAsync.Http.Msg

/-!
# Http requests

`http_request_msg` of `srv_http_request_msg.cpp`: the table of methods, the
parser of a header section and the keep-alive decision.

The header loop of `ParseRequestHeader` removes a line and its CRLF from the
view in every round; `parseFields` bounds the rounds by the length of the view.

## Main definitions

* `HttpRequestMsg`, `RequestClass` — a request and its dynamic class.
* `methodsInfo`, `create`, `methodHasBody`.
* `parseRequestHeader`, with `parseField` for one header line.
* `wantKeepAlive`.
-/

namespace SrvAsync.Http

/-- `MAX_HTTP_BODY_SIZE`. -/
def maxHttpBodySize : ℕ := 32 * 1024 * 1024

/-- `MAX_HTTP_HDR_SZIE`. -/
def maxHttpHdrSize : ℕ := 2048

/-- The dynamic class of a request object: which override of `MakeOkResponse`
it has. -/
inductive RequestClass
  /-- `http_request_msg` itself. -/
  | base
  | get
  | head
  | post
  | put
  | delete
  | patch
  deriving DecidableEq, Repr, Inhabited

/-- `http_request_msg`. -/
structure HttpRequestMsg extends HttpMsg where
  cls : RequestClass := .base
  method : Bytes := []
  target : Bytes := []
  version : Bytes := []
  errorCode : HttpStatus := .none

/-- `method_info_t`: what the creator makes, and whether the method can have a
body. -/
structure MethodInfo where
  creator : RequestClass
  hasBody : Bool

/-- `methods_info`. -/
def methodsInfo : List (Bytes × MethodInfo) :=
  [(ascii "GET", ⟨.get, false⟩),
   (ascii "HEAD", ⟨.head, false⟩),
   (ascii "POST", ⟨.post, true⟩),
   (ascii "PUT", ⟨.put, true⟩),
   (ascii "DELETE", ⟨.delete, false⟩),
   (ascii "PATCH", ⟨.patch, true⟩)]

/-- `MethodHasBody`. -/
def methodHasBody (method : Bytes) : Bool :=
  match methodsInfo.lookup method with
  | some info => info.hasBody
  | none => false

namespace HttpRequestMsg

/-- `IsError`. -/
def isError (r : HttpRequestMsg) : Bool := r.errorCode != .none

/-- `IsOk`. -/
def isOk (r : HttpRequestMsg) : Bool := !r.isError

/-- `SetErrorCode`, which is all `fail` does. -/
def fail (r : HttpRequestMsg) (status : HttpStatus) : HttpRequestMsg :=
  { r with errorCode := status }

/-- `AddHeader` on a request. -/
def addHeader (r : HttpRequestMsg) (name : Bytes) (value : HeaderValue) : HttpRequestMsg :=
  { r with toHttpMsg := r.toHttpMsg.addHeader name value }

/-- `AppendBody` on a request. -/
def appendBody (r : HttpRequestMsg) (chunk : Bytes) : HttpRequestMsg :=
  { r with toHttpMsg := r.toHttpMsg.appendBody chunk }

/-- The constructor `http_request_msg(error)`. -/
def ofError (error : HttpStatus) : HttpRequestMsg := { errorCode := error }

/-- `Create`: an object of the class of the method, or a request with an error
for a method that is not supported. -/
def create (method : Bytes) : HttpRequestMsg :=
  match methodsInfo.lookup method with
  | some info => { cls := info.creator }
  | none => { errorCode := .methodNotAllowed, method := method }

/-- One nonempty header line.  `error` carries the object when the parser
returns from inside the loop. -/
def parseField (r : HttpRequestMsg) (line : Bytes) : Except HttpRequestMsg HttpRequestMsg :=
  match findByte 58 line with
  | none => .error (r.fail .badRequest)
  | some colon =>
    let name := line.take colon
    let value := trimSpaces (line.drop (colon + 1))
    if toLower name = ascii "content-length" then
      if methodHasBody r.method then
        match fromChars value with
        | .error _ => .error (r.fail .badRequest)
        | .ok (len, ptr) =>
          if ptr ≠ value.length then .error (r.fail .badRequest)
          else if len > maxHttpBodySize then .error (r.fail .payloadTooLarge)
          else .ok (r.addHeader name (.size len))
      else .error (r.fail .badRequest)
    else .ok (r.addHeader name (.string value))

/-- The check after the header loop: a method with a body needs a length. -/
def checkLength (r : HttpRequestMsg) : HttpRequestMsg :=
  if methodHasBody r.method && !r.hasHeader (ascii "content-length") then r.fail .lengthRequired
  else r

/-- The header loop of `ParseRequestHeader` on the view `p`.  The first argument
bounds the rounds. -/
def parseFields : ℕ → HttpRequestMsg → Bytes → HttpRequestMsg
  | 0, r, _ => r
  | fuel + 1, r, p =>
    if p.isEmpty then r.checkLength
    else
      match List.firstInfix? crlf p with
      | none => r.fail .badRequest
      | some lineEnd =>
        let line := p.take lineEnd
        let rest := p.drop (min (lineEnd + crlf.length) p.length)
        if line.isEmpty then parseFields fuel r rest
        else
          match r.parseField line with
          | .error r' => r'
          | .ok r' => parseFields fuel r' rest

/-- `ParseRequestHeader`. -/
def parseRequestHeader (r : HttpRequestMsg) (buf : Bytes) : HttpRequestMsg :=
  match List.firstInfix? crlf buf with
  | none => r.fail .badRequest
  | some lineEnd =>
    let line := buf.take lineEnd
    match findByte SP line, rfindByte SP line with
    | some sp1, some sp2 =>
      if sp1 = sp2 then r.fail .badRequest
      else
        let method := line.take sp1
        let target := (line.drop (sp1 + 1)).take (sp2 - sp1 - 1)
        let version := line.drop (sp2 + 1)
        if method.isEmpty || target.isEmpty || !(ascii "HTTP/").isPrefixOf version then
          r.fail .badRequest
        else
          parseFields (buf.length + 1)
            { r with method := method, target := target, version := version }
            (buf.drop (lineEnd + crlf.length))
    | _, _ => r.fail .badRequest

/-- `WantKeepAlive`; `none` is `std::bad_variant_access`. -/
def wantKeepAlive (r : HttpRequestMsg) : Option Bool :=
  if r.isError then some false
  else
    let default := r.version != ascii "HTTP/1.0"
    if r.hasHeader (ascii "Connection") then
      (r.getHeaderValue (ascii "Connection")).asString.map fun connVal =>
        if containsCi connVal (ascii "close") then false
        else if containsCi connVal (ascii "keep-alive") then true
        else default
    else some default

/-- `http_request_msg::Serialize`. -/
def serialize (P : Platform) (r : HttpRequestMsg) : Bytes :=
  r.method ++ [SP] ++ r.target ++ [SP] ++ r.version ++ crlf ++ r.serializeHeadersAndBody P

/-- A request in error does not want to keep the connection. -/
theorem wantKeepAlive_of_isError {r : HttpRequestMsg} (h : r.isError = true) :
    r.wantKeepAlive = some false := by
  unfold wantKeepAlive
  rw [if_pos h]

example : ((create (ascii "POST")).parseRequestHeader
    (ascii "POST /a HTTP/1.1\r\nContent-Length: 5\r\n\r\n")).getHeaderValue
      (ascii "content-length") = .size 5 := by decide

end HttpRequestMsg
end SrvAsync.Http
