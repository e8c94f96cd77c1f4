import SrvAsync.Http.Request

/-!
# Http responses

`http_response_msg`, the page builders of `srv_http_response_msg.cpp` and
`srv_http_request_get.cpp`, and the `MakeOkResponse` overrides of the method
classes.

The only part of a response that the request does not determine is the text of
the `Date` header.  `Date` is the type of such texts; `strftime` with the format
of `format_date_hdr` always makes 29 characters of the time, and the type says so.

## Main definitions

* `makePageResponse`, `makeErrorResponse`, `makeMainPageResponse`.
* `makeOkResponse`, `makeResponse` — the virtual dispatch.
* `HttpResponseMsg.serialize`.

## Main results

* `makeResponse_eq` — a response is the reply its request decides, at a date.
* `length_serialize_response` — its serialized length does not depend on the date.
-/

namespace SrvAsync.Http

/-- What `format_date_hdr` returns. -/
structure Date where
  text : Bytes
  length_text : text.length = 29

/-- Some date. -/
def Date.blank : Date := ⟨List.replicate 29 SP, rfl⟩

/-- `http_response_msg`. -/
structure HttpResponseMsg extends HttpMsg where
  statusCode : HttpStatus := .ok
  statusText : Bytes := ascii "OK"

namespace HttpResponseMsg

/-- The constructor `http_response_msg(code)`. -/
def ofCode (P : Platform) (code : HttpStatus) : HttpResponseMsg :=
  { statusCode := code, statusText := httpStatusText P code.code }

/-- `AddHeader` on a response. -/
def addHeader (r : HttpResponseMsg) (name : Bytes) (value : HeaderValue) : HttpResponseMsg :=
  { r with toHttpMsg := r.toHttpMsg.addHeader name value }

/-- `SetBody` on a response. -/
def setBody (r : HttpResponseMsg) (b : Bytes) : HttpResponseMsg :=
  { r with toHttpMsg := r.toHttpMsg.setBody b }

/-- `http_response_msg::Serialize`. -/
def serialize (P : Platform) (r : HttpResponseMsg) : Bytes :=
  ascii "HTTP/1.1 " ++ decimal r.statusCode.code ++ [SP] ++ r.statusText ++ crlf ++
    r.serializeHeadersAndBody P

end HttpResponseMsg

/-- `get_html_page`. -/
def getHtmlPage (title bodyHtml : Bytes) : Bytes :=
  ascii "<!DOCTYPE html>\n<html>\n<head>\n    <meta charset=\"UTF-8\">\n    <title>" ++ title ++
    ascii "</title>\n</head>\n<body>\n" ++ bodyHtml ++ ascii "</body>\n</html>\n"

/-- The headers `make_page_response` fills in, in its order. -/
def pageHeaders (P : Platform) (date : Date) (code : HttpStatus) (keepAlive : Bool) (size : ℕ) :
    HttpResponseMsg :=
  ((((HttpResponseMsg.ofCode P code).addHeader (ascii "Date") (.string date.text)
    |>.addHeader (ascii "Server") (.string (ascii "my_srv_async/1.0 (Ubuntu)")))
    |>.addHeader (ascii "Connection")
      (.string (if keepAlive then ascii "keep-alive" else ascii "close")))
    |>.addHeader (ascii "Content-Type") (.string (ascii "text/html; charset=UTF-8")))
    |>.addHeader (ascii "Content-Length") (.size size)

/-- The response `make_page_response` builds once it knows whether the request
wants to keep the connection. -/
def pageResponse (P : Platform) (date : Date) (code : HttpStatus) (keepAlive : Bool)
    (title bodyHtml : Bytes) (omitBody : Bool) : HttpResponseMsg :=
  let page := getHtmlPage title bodyHtml
  let resp := pageHeaders P date code keepAlive page.length
  if omitBody then resp else resp.setBody page

/-- `make_page_response`. -/
def makePageResponse (P : Platform) (date : Date) (code : HttpStatus) (req : HttpRequestMsg)
    (title bodyHtml : Bytes) (omitBody : Bool) : Option HttpResponseMsg :=
  req.wantKeepAlive.map fun keepAlive => pageResponse P date code keepAlive title bodyHtml omitBody

/-- The `Allow` header of a 405 response, which no other response has. -/
def addAllow (code : HttpStatus) (resp : HttpResponseMsg) : HttpResponseMsg :=
  if code = .methodNotAllowed then
    resp.addHeader (ascii "Allow") (.string (ascii "GET, HEAD, POST, PUT, DELETE, PATCH"))
  else resp

/-- `make_error_response`. -/
def makeErrorResponse (P : Platform) (date : Date) (code : HttpStatus) (req : HttpRequestMsg) :
    Option HttpResponseMsg :=
  let text := decimal code.code ++ [SP] ++ httpStatusText P code.code
  (makePageResponse P date code req text (ascii "<h1>" ++ text ++ ascii "</h1>\n") false).map
    (addAllow code)

/-- `make_main_page_response`. -/
def makeMainPageResponse (P : Platform) (date : Date) (req : HttpRequestMsg) (omitBody : Bool) :
    Option HttpResponseMsg :=
  if req.target = ascii "/" ∨ req.target = ascii "/index.html" then
    makePageResponse P date .ok req (ascii "Main Page")
      (ascii ("<h1>Welcome to coroutine-based async server!</h1>\n" ++
        "<p>This is the server's main page plug.</p>\n")) omitBody
  else
    makePageResponse P date .notFound req (ascii "Not Found")
      (ascii "<h1>404 Page Not Found</h1>\n<p>Requested page: " ++ req.target ++ ascii "</p>\n")
      omitBody

/-- The plug response of the methods whose handling is not implemented yet. -/
def makePlugResponse (P : Platform) (date : Date) (req : HttpRequestMsg) (name : Bytes) :
    Option HttpResponseMsg :=
  makePageResponse P date .notImplemented req (ascii "Not Implemented")
    (ascii "<h1>501 Not Implemented</h1>\n<p>Handling of " ++ name ++
      ascii " requests will be implemented in the next version of server.</p>\n") false

/-- `MakeOkResponse`, by the dynamic class of the request. -/
def makeOkResponse (P : Platform) (date : Date) (req : HttpRequestMsg) : Option HttpResponseMsg :=
  match req.cls with
  | .base => makeErrorResponse P date .internalServerError req
  | .get => makeMainPageResponse P date req false
  | .head => makeMainPageResponse P date req true
  | .post => makePlugResponse P date req (ascii "POST")
  | .put => makePlugResponse P date req (ascii "PUT")
  | .delete => makePlugResponse P date req (ascii "DELETE")
  | .patch => makePlugResponse P date req (ascii "PATCH")

/-- `MakeResponse`. -/
def makeResponse (P : Platform) (date : Date) (req : HttpRequestMsg) : Option HttpResponseMsg :=
  if req.isError then
    makeErrorResponse P date (if req.errorCode ≠ .none then req.errorCode else .badRequest) req
  else makeOkResponse P date req

/-! ### What a request decides about its response -/

/-- What a request decides about its response: everything but the date. -/
structure Reply where
  code : HttpStatus
  keepAlive : Bool
  title : Bytes
  bodyHtml : Bytes
  omitBody : Bool

/-- The response of a reply at a date. -/
def Reply.response (P : Platform) (a : Reply) (date : Date) : HttpResponseMsg :=
  addAllow a.code (pageResponse P date a.code a.keepAlive a.title a.bodyHtml a.omitBody)

/-- The reply of `make_error_response`. -/
def errorReply (P : Platform) (code : HttpStatus) (keepAlive : Bool) : Reply :=
  let text := decimal code.code ++ [SP] ++ httpStatusText P code.code
  ⟨code, keepAlive, text, ascii "<h1>" ++ text ++ ascii "</h1>\n", false⟩

/-- The reply of `make_main_page_response`. -/
def mainPageReply (target : Bytes) (keepAlive omitBody : Bool) : Reply :=
  if target = ascii "/" ∨ target = ascii "/index.html" then
    ⟨.ok, keepAlive, ascii "Main Page",
      ascii ("<h1>Welcome to coroutine-based async server!</h1>\n" ++
        "<p>This is the server's main page plug.</p>\n"), omitBody⟩
  else
    ⟨.notFound, keepAlive, ascii "Not Found",
      ascii "<h1>404 Page Not Found</h1>\n<p>Requested page: " ++ target ++ ascii "</p>\n", omitBody⟩

/-- The reply of the plug responses. -/
def plugReply (name : Bytes) (keepAlive : Bool) : Reply :=
  ⟨.notImplemented, keepAlive, ascii "Not Implemented",
    ascii "<h1>501 Not Implemented</h1>\n<p>Handling of " ++ name ++
      ascii " requests will be implemented in the next version of server.</p>\n", false⟩

/-- The reply to a request, given its keep-alive decision. -/
def replyTo (P : Platform) (req : HttpRequestMsg) (keepAlive : Bool) : Reply :=
  if req.isError then
    errorReply P (if req.errorCode ≠ .none then req.errorCode else .badRequest) keepAlive
  else
    match req.cls with
    | .base => errorReply P .internalServerError keepAlive
    | .get => mainPageReply req.target keepAlive false
    | .head => mainPageReply req.target keepAlive true
    | .post => plugReply (ascii "POST") keepAlive
    | .put => plugReply (ascii "PUT") keepAlive
    | .delete => plugReply (ascii "DELETE") keepAlive
    | .patch => plugReply (ascii "PATCH") keepAlive

theorem makeErrorResponse_eq (P : Platform) (date : Date) (code : HttpStatus)
    (req : HttpRequestMsg) : makeErrorResponse P date code req
      = req.wantKeepAlive.map fun k => (errorReply P code k).response P date := by
  unfold makeErrorResponse makePageResponse
  rw [Option.map_map]
  rfl

theorem makeMainPageResponse_eq (P : Platform) (date : Date) (req : HttpRequestMsg)
    (omitBody : Bool) : makeMainPageResponse P date req omitBody
      = req.wantKeepAlive.map fun k => (mainPageReply req.target k omitBody).response P date := by
  unfold makeMainPageResponse mainPageReply
  split <;> rfl

/-- **The response is the reply at the date.** -/
theorem makeResponse_eq (P : Platform) (date : Date) (req : HttpRequestMsg) :
    makeResponse P date req
      = req.wantKeepAlive.map fun k => (replyTo P req k).response P date := by
  unfold makeResponse replyTo
  split
  · exact makeErrorResponse_eq P date _ req
  · unfold makeOkResponse
    split
    · exact makeErrorResponse_eq P date _ req
    · exact makeMainPageResponse_eq P date req false
    · exact makeMainPageResponse_eq P date req true
    all_goals rfl

/-- The keep-alive decision goes into the reply as it is. -/
theorem keepAlive_replyTo (P : Platform) (req : HttpRequestMsg) (k : Bool) :
    (replyTo P req k).keepAlive = k := by
  unfold replyTo
  split
  · rfl
  · split <;> first | rfl | (unfold mainPageReply; split <;> rfl)

/-- The `Connection` header of a response is the keep-alive decision. -/
theorem getHeaderValue_connection (P : Platform) (a : Reply) (date : Date) :
    (a.response P date).getHeaderValue (ascii "Connection")
      = .string (if a.keepAlive then ascii "keep-alive" else ascii "close") := by
  have h1 : toLower (ascii "Connection") ≠ toLower (ascii "Content-Length") := by decide
  have h2 : toLower (ascii "Connection") ≠ toLower (ascii "Content-Type") := by decide
  have h3 : toLower (ascii "Connection") ≠ toLower (ascii "Allow") := by decide
  have hpage : (pageResponse P date a.code a.keepAlive a.title a.bodyHtml a.omitBody).headers.lookup
      (toLower (ascii "Connection"))
        = some (.string (if a.keepAlive then ascii "keep-alive" else ascii "close")) := by
    unfold pageResponse
    simp only
    split <;>
    · simp only [pageHeaders, HttpResponseMsg.addHeader, HttpMsg.addHeader,
        HttpResponseMsg.setBody, HttpMsg.setBody]
      rw [AList.lookup_insert_ne h1, AList.lookup_insert_ne h2, AList.lookup_insert]
  unfold Reply.response addAllow HttpMsg.getHeaderValue
  split
  · simp only [HttpResponseMsg.addHeader, HttpMsg.addHeader]
    rw [AList.lookup_insert_ne h3, hpage, Option.getD_some]
  · rw [hpage, Option.getD_some]

/-! ### The length of a response -/

/-- Two messages whose serializations have the same lengths line by line. -/
structure HttpMsg.SameShape (m m' : HttpMsg) : Prop where
  keys : m.headers.keys = m'.headers.keys
  line : ∀ k, (m.headerLine k).length = (m'.headerLine k).length
  body : m.body.length = m'.body.length

namespace HttpMsg.SameShape

theorem refl (m : HttpMsg) : m.SameShape m := ⟨rfl, fun _ => rfl, rfl⟩

/-- A header with a value of the same length keeps the shape. -/
theorem addHeader {m m' : HttpMsg} (h : m.SameShape m') (name : Bytes) {v v' : HeaderValue}
    (hv : v.text.length = v'.text.length) :
    (m.addHeader name v).SameShape (m'.addHeader name v') where
  keys := by
    simp only [HttpMsg.addHeader, AList.keys_insert]
    rw [h.keys]
  line := by
    intro k
    have hk := h.line k
    simp only [HttpMsg.headerLine, HttpMsg.addHeader] at hk ⊢
    by_cases hn : k = toLower name
    · subst hn
      rw [AList.lookup_insert, AList.lookup_insert]
      simp [hv]
    · rw [AList.lookup_insert_ne hn, AList.lookup_insert_ne hn]
      exact hk
  body := h.body

theorem setBody {m m' : HttpMsg} (h : m.SameShape m') (b : Bytes) :
    (m.setBody b).SameShape (m'.setBody b) := ⟨h.keys, h.line, rfl⟩

theorem length_eq {m m' : HttpMsg} (h : m.SameShape m') (P : Platform) :
    (m.serializeHeadersAndBody P).length = (m'.serializeHeadersAndBody P).length := by
  rw [length_serializeHeadersAndBody, length_serializeHeadersAndBody, h.keys, h.body]
  simp only [h.line]

end HttpMsg.SameShape

theorem sameShape_pageHeaders (P : Platform) (code : HttpStatus) (keepAlive : Bool) (size : ℕ)
    (date date' : Date) : (pageHeaders P date code keepAlive size).SameShape
      (pageHeaders P date' code keepAlive size).toHttpMsg := by
  have hdate : (HeaderValue.string date.text).text.length
      = (HeaderValue.string date'.text).text.length := date.length_text.trans date'.length_text.symm
  unfold pageHeaders
  refine .addHeader (.addHeader (.addHeader (.addHeader ?_ _ rfl) _ rfl) _ rfl) _ rfl
  exact (HttpMsg.SameShape.refl _).addHeader _ hdate

/-- **The length of a response does not depend on the date.** -/
theorem length_serialize_response (P : Platform) (a : Reply) (date date' : Date) :
    ((a.response P date).serialize P).length = ((a.response P date').serialize P).length := by
  have hpage : (pageResponse P date a.code a.keepAlive a.title a.bodyHtml a.omitBody).SameShape
      (pageResponse P date' a.code a.keepAlive a.title a.bodyHtml a.omitBody).toHttpMsg := by
    unfold pageResponse
    simp only
    split
    · exact sameShape_pageHeaders P a.code a.keepAlive _ date date'
    · exact (sameShape_pageHeaders P a.code a.keepAlive _ date date').setBody _
  have hshape : (a.response P date).SameShape (a.response P date').toHttpMsg := by
    unfold Reply.response addAllow
    split
    · exact hpage.addHeader _ rfl
    · exact hpage
  have hline : (a.response P date).statusCode = (a.response P date').statusCode ∧
      (a.response P date).statusText = (a.response P date').statusText := by
    unfold Reply.response addAllow pageResponse
    simp only
    split <;> split <;> exact ⟨rfl, rfl⟩
  unfold HttpResponseMsg.serialize
  rw [hline.1, hline.2]
  simp only [List.length_append, hshape.length_eq P]

/-- A serialized response is never empty. -/
theorem length_serialize_pos (P : Platform) (r : HttpResponseMsg) : 0 < (r.serialize P).length := by
  unfold HttpResponseMsg.serialize
  simp only [List.length_append]
  have : 0 < (ascii "HTTP/1.1 ").length := by decide
  omega

end SrvAsync.Http
