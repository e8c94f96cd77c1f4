import SrvAsync.Http.Header
import SrvAsync.Http.SendRecv

/-!
# Responses on the wire

What a client sees of a serialized response: the first empty line ends the header
section, every line in front of it is a header field, and the length the section gives is
the length of what follows.  The bytes of a request come back in the page only, behind
that empty line.

## Main definitions

* `NoBreak` — a text that stays on its line.
* `HttpMsg.Printable` — a header map every field of which is printed on one line.
* `Framed` — a text with a header section, a content length and a body.
* `ResponseFramed` — the response to a request is framed.

## Main results

* `framed_response` — every reply is framed, at every date.
* `response_framed` — **every response is framed**.
-/

namespace SrvAsync

open Http HttpRequestMsg

/-- The text has no byte of a line end in it. -/
def NoBreak (s : Bytes) : Prop := CR ∉ s ∧ LF ∉ s

instance (s : Bytes) : Decidable (NoBreak s) := inferInstanceAs (Decidable (CR ∉ s ∧ LF ∉ s))

theorem NoBreak.append {s t : Bytes} (hs : NoBreak s) (ht : NoBreak t) : NoBreak (s ++ t) := by
  constructor
  · intro h
    rcases List.mem_append.mp h with h | h
    · exact hs.1 h
    · exact ht.1 h
  · intro h
    rcases List.mem_append.mp h with h | h
    · exact hs.2 h
    · exact ht.2 h

theorem noBreak_decimal (n : ℕ) : NoBreak (decimal n) := by
  constructor
  · intro h
    exact absurd (isDigit_of_mem_decimal h) (by decide)
  · intro h
    exact absurd (isDigit_of_mem_decimal h) (by decide)

/-! ### Framed texts -/

/-- The name of a header line, in lower case. -/
def lineName (line : Bytes) : Bytes := toLower (line.takeWhile (· != 58))

/-- **A framed text**: a status line and header fields, ended by the first empty line of the text,
and a body behind it. -/
structure Framed (msg status : Bytes) (fields : List Bytes) (length : ℕ) (body : Bytes) : Prop where
  /-- The header section and the body make up the text. -/
  eq : msg = (status :: fields).flatMap (· ++ crlf) ++ (crlf ++ body)
  /-- The first CRLFCRLF is at the end of the header section. -/
  first : findHttpHeadersEnd msg = ((status :: fields).flatMap (· ++ crlf) ++ crlf).length
  /-- The lines in front of it. -/
  lines : lines (msg.take (findHttpHeadersEnd msg)) = (status :: fields ++ [[]], [])
  /-- The bytes behind it. -/
  rest : msg.drop (findHttpHeadersEnd msg) = body
  /-- Every header line parses as `name: value`. -/
  named : ∀ l ∈ fields, ∃ name value, l = name ++ ascii ": " ++ value ∧ name ≠ [] ∧ 58 ∉ name
  /-- There is one content length, and its digits denote this number. -/
  contentLength : ∃ v, fields.filter (lineName · = ascii "content-length") =
    [ascii "content-length: " ++ v] ∧ (∀ c ∈ v, isDigit c = true) ∧ digitsValue v = length
  /-- There is one connection field. -/
  connection : ∃ v, fields.filter (lineName · = ascii "connection") = [ascii "connection: " ++ v]

/-- **Where the header section ends**, and what its lines are. -/
theorem header_section {ls : List Bytes} (hne : ls ≠ [])
    (hls : ∀ l ∈ ls, l ≠ [] ∧ List.firstInfix? crlf (l ++ crlf) = some l.length) (body : Bytes) :
    findHttpHeadersEnd (ls.flatMap (· ++ crlf) ++ (crlf ++ body)) =
        (ls.flatMap (· ++ crlf) ++ crlf).length ∧
      lines (ls.flatMap (· ++ crlf) ++ crlf) = (ls ++ [[]], []) := by
  constructor
  · obtain ⟨n, hn, hlen⟩ := List.firstInfix?_double (t := body)
      (by decide : CR ∉ [LF]) hne hls
    change List.firstInfix? headersEnd (ls.flatMap (· ++ crlf) ++ (crlf ++ body)) = some n at hn
    change n + 2 = (ls.flatMap (· ++ crlf)).length at hlen
    unfold findHttpHeadersEnd
    rw [hn, List.length_append, ← hlen]
    rfl
  · have hempty : lines crlf = ([[]], []) := by decide +kernel
    have hsplit := List.splitEnds_flatMap crlf_ne_nil crlf ls fun l hl => (hls l hl).2
    unfold lines at hempty ⊢
    rw [hsplit, hempty]

/-! ### Header maps -/

/-- A name as the header map keeps it, which is printed on one line. -/
def FieldName (k : Bytes) : Prop := k ≠ [] ∧ 58 ∉ k ∧ NoBreak k ∧ toLower k = k

instance (k : Bytes) : Decidable (FieldName k) :=
  inferInstanceAs (Decidable (k ≠ [] ∧ 58 ∉ k ∧ NoBreak k ∧ toLower k = k))

namespace Http.HttpMsg

/-- Every field is printed on one line. -/
structure Printable (m : HttpMsg) : Prop where
  name : ∀ k v, m.headers.lookup k = some v → FieldName k
  text : ∀ k v, m.headers.lookup k = some v → NoBreak v.text

theorem printable_empty {m : HttpMsg} (h : m.headers = ∅) : m.Printable := by
  constructor <;>
  · intro k v hv
    rw [h] at hv
    cases hv

/-- A field that is printed on one line is added. -/
theorem Printable.addHeader {m : HttpMsg} (h : m.Printable) {name : Bytes} {v : HeaderValue}
    (hname : FieldName (toLower name)) (htext : NoBreak v.text) : (m.addHeader name v).Printable := by
  have hlookup : ∀ k w, (m.addHeader name v).headers.lookup k = some w →
      (k = toLower name ∧ w = v) ∨ m.headers.lookup k = some w := by
    intro k w hw
    simp only [HttpMsg.addHeader] at hw
    by_cases hk : k = toLower name
    · rw [hk, AList.lookup_insert] at hw
      exact .inl ⟨hk, (Option.some.inj hw).symm⟩
    · rw [AList.lookup_insert_ne hk] at hw
      exact .inr hw
  constructor
  · intro k w hw
    rcases hlookup k w hw with ⟨rfl, -⟩ | hw
    · exact hname
    · exact h.name k w hw
  · intro k w hw
    rcases hlookup k w hw with ⟨-, rfl⟩ | hw
    · exact htext
    · exact h.text k w hw

/-- The field of a name, without its line end. -/
def field (m : HttpMsg) (k : Bytes) : Bytes := k ++ ascii ": " ++ (m.getHeaderValue k).text

variable {m : HttpMsg}

/-- A key of the map has a value. -/
theorem lookup_of_mem_keys {k : Bytes} (hk : k ∈ m.headers.keys) :
    ∃ v, m.headers.lookup k = some v :=
  Option.isSome_iff_exists.mp (AList.lookup_isSome.mpr (AList.mem_keys.mpr hk))

theorem Printable.getHeaderValue (h : m.Printable) {k : Bytes} (hk : k ∈ m.headers.keys) :
    FieldName k ∧ m.headers.lookup k = some (m.getHeaderValue k) := by
  obtain ⟨v, hv⟩ := lookup_of_mem_keys hk
  have hname := h.name k v hv
  refine ⟨hname, ?_⟩
  unfold HttpMsg.getHeaderValue
  rw [hname.2.2.2, hv, Option.getD_some]

/-- The line of a key is its field. -/
theorem Printable.headerLine (h : m.Printable) {k : Bytes} (hk : k ∈ m.headers.keys) :
    m.headerLine k = m.field k ++ crlf := by
  obtain ⟨-, hv⟩ := h.getHeaderValue hk
  unfold HttpMsg.headerLine field
  rw [hv]

/-- A field stays on its line, and shows its name. -/
theorem Printable.field (h : m.Printable) {k : Bytes} (hk : k ∈ m.headers.keys) :
    m.field k ≠ [] ∧ NoBreak (m.field k) ∧ lineName (m.field k) = k := by
  obtain ⟨⟨hne, hcolon, hbreak, hlow⟩, hv⟩ := h.getHeaderValue hk
  have htext := h.text k _ hv
  have hsep : NoBreak (ascii ": ") := by decide
  refine ⟨?_, (hbreak.append hsep).append htext, ?_⟩
  · unfold HttpMsg.field
    rw [List.append_assoc]
    exact List.append_ne_nil_of_left_ne_nil hne _
  · have htake : (k ++ 58 :: (SP :: (m.getHeaderValue k).text)).takeWhile (· != 58) = k := by
      rw [List.takeWhile_append_of_pos]
      · simp
      · intro c hc
        rw [bne_iff_ne]
        rintro rfl
        exact hcolon hc
    have heq : m.field k = k ++ 58 :: (SP :: (m.getHeaderValue k).text) := List.append_assoc ..
    unfold lineName
    rw [heq, htake, hlow]

/-- **The fields with a name**: one, when the map has the name, in whatever order it is walked. -/
theorem Printable.filter_fields (h : m.Printable) (P : Platform) {k : Bytes}
    (hk : k ∈ m.headers.keys) :
    ((P.order m.headers.keys).map m.field).filter (lineName · = k) = [m.field k] := by
  have hperm := P.order_perm m.headers.keys
  have hnodup : (P.order m.headers.keys).Nodup := hperm.nodup_iff.mpr m.headers.keys_nodup
  have hname : ∀ k' ∈ P.order m.headers.keys,
      ((fun l => decide (lineName l = k)) ∘ m.field) k' = (k' == k) := by
    intro k' hk'
    rw [Function.comp_apply, (h.field (hperm.mem_iff.mp hk')).2.2, beq_eq_decide]
  rw [List.filter_map]
  have hfilter : (P.order m.headers.keys).filter ((fun l => decide (lineName l = k)) ∘ m.field)
      = [k] := by
    rw [List.filter_congr hname, List.filter_beq,
      List.count_eq_one_of_mem hnodup (hperm.mem_iff.mpr hk)]
    rfl
  rw [hfilter]
  rfl

end Http.HttpMsg

/-! ### Replies -/

/-- The page of a reply. -/
def Http.Reply.page (a : Reply) : Bytes := getHtmlPage a.title a.bodyHtml

/-- The body of its response. -/
def Http.Reply.body (a : Reply) : Bytes := if a.omitBody then [] else a.page

/-- The status line of a response, without its line end. -/
def Http.HttpResponseMsg.statusLine (r : HttpResponseMsg) : Bytes :=
  ascii "HTTP/1.1 " ++ decimal r.statusCode.code ++ [SP] ++ r.statusText

section

variable (P : Platform) (a : Reply) (d : Date)

theorem headers_response : (a.response P d).headers =
    (addAllow a.code (pageHeaders P d a.code a.keepAlive a.page.length)).headers := by
  unfold Reply.response addAllow pageResponse
  simp only
  split <;> split <;> rfl

theorem body_response : (a.response P d).body = a.body := by
  unfold Reply.response addAllow pageResponse Reply.body
  simp only
  split <;> split <;> rfl

/-- The two headers that frame a response. -/
theorem lookup_response :
    (a.response P d).headers.lookup (ascii "content-length") = some (.size a.page.length) ∧
      ∃ s, (a.response P d).headers.lookup (ascii "connection") = some (.string s) := by
  have hlen : toLower (ascii "Content-Length") = ascii "content-length" := by decide
  have hconn : toLower (ascii "Connection") = ascii "connection" := by decide
  have hallow : ∀ k, k ≠ toLower (ascii "Allow") → ∀ r : HttpResponseMsg,
      (addAllow a.code r).headers.lookup k = r.headers.lookup k := by
    intro k hk r
    unfold addAllow
    split
    · exact AList.lookup_insert_ne hk
    · rfl
  rw [headers_response, hallow _ (by decide), hallow _ (by decide), ← hlen, ← hconn]
  refine ⟨AList.lookup_insert _, if a.keepAlive then ascii "keep-alive" else ascii "close", ?_⟩
  simp only [pageHeaders, HttpResponseMsg.addHeader, HttpMsg.addHeader]
  rw [AList.lookup_insert_ne (by decide), AList.lookup_insert_ne (by decide), AList.lookup_insert]

/-- **Every header of a response is printed on one line.** -/
theorem printable_response {d : Date} (hd : NoBreak d.text) : (a.response P d).Printable := by
  have hconn : NoBreak (if a.keepAlive then ascii "keep-alive" else ascii "close") := by
    split <;> decide
  have hpage : (pageHeaders P d a.code a.keepAlive a.page.length).Printable := by
    unfold pageHeaders
    refine .addHeader (.addHeader (.addHeader (.addHeader (.addHeader ?empty ?_ ?date) ?_ ?_) ?_
      ?conn) ?_ ?_) ?_ ?size
    case empty => exact HttpMsg.printable_empty rfl
    case date => exact hd
    case conn => exact hconn
    case size => exact noBreak_decimal _
    all_goals decide
  have hall : (addAllow a.code (pageHeaders P d a.code a.keepAlive a.page.length)).Printable := by
    unfold addAllow
    split
    · exact hpage.addHeader (by decide) (by decide)
    · exact hpage
  constructor
  · intro k v hv
    rw [headers_response] at hv
    exact hall.name k v hv
  · intro k v hv
    rw [headers_response] at hv
    exact hall.text k v hv

/-- A response with printable headers is its status line and its fields, and its body. -/
theorem serialize_eq {r : HttpResponseMsg} (h : r.Printable) : r.serialize P =
    (r.statusLine :: (P.order r.headers.keys).map r.field).flatMap (· ++ crlf) ++
      (crlf ++ r.body) := by
  have hlines : (P.order r.headers.keys).flatMap r.headerLine =
      ((P.order r.headers.keys).map r.field).flatMap (· ++ crlf) := by
    rw [List.flatMap_map]
    refine List.flatMap_congr fun k hk => ?_
    exact h.headerLine ((P.order_perm r.headers.keys).mem_iff.mp hk)
  unfold HttpResponseMsg.serialize HttpMsg.serializeHeadersAndBody HttpResponseMsg.statusLine
  rw [hlines, List.flatMap_cons]
  simp only [List.append_assoc]

/-- **Every reply is framed**, at every date. -/
theorem framed_response {d : Date} (hd : NoBreak d.text)
    (hreason : NoBreak (a.response P d).statusText) :
    ∃ fields, Framed ((a.response P d).serialize P) (a.response P d).statusLine fields
      a.page.length a.body := by
  have hprint := printable_response P a hd
  obtain ⟨hlen, s, hconn⟩ := lookup_response P a d
  have hmem : ∀ k ∈ P.order (a.response P d).headers.keys, k ∈ (a.response P d).headers.keys :=
    fun k hk => (P.order_perm _).mem_iff.mp hk
  have hstatus : NoBreak (a.response P d).statusLine :=
    (((by decide : NoBreak (ascii "HTTP/1.1 ")).append (noBreak_decimal _)).append
      (by decide : NoBreak [SP])).append hreason
  -- no line breaks, so the first empty line is the end of the head
  have hls : ∀ l ∈ (a.response P d).statusLine ::
      (P.order (a.response P d).headers.keys).map (a.response P d).field,
      l ≠ [] ∧ List.firstInfix? crlf (l ++ crlf) = some l.length := by
    intro l hl
    rcases List.mem_cons.mp hl with rfl | hl
    · exact ⟨List.cons_ne_nil _ _, List.firstInfix?_of_not_mem hstatus.1⟩
    · obtain ⟨k, hk, rfl⟩ := List.mem_map.mp hl
      obtain ⟨hne, hbreak, -⟩ := hprint.field (hmem k hk)
      exact ⟨hne, List.firstInfix?_of_not_mem hbreak.1⟩
  have heq := serialize_eq P hprint
  rw [body_response] at heq
  obtain ⟨hfirst, hlines⟩ := header_section (List.cons_ne_nil _ _) hls a.body
  rw [← heq] at hfirst
  -- each header is printed once, so the field with a name is the one that was added
  have hkey : ∀ {k v}, (a.response P d).headers.lookup k = some v →
      k ∈ (a.response P d).headers.keys := by
    intro k v hv
    exact AList.mem_keys.mp (AList.lookup_isSome.mp (Option.isSome_iff_exists.mpr ⟨v, hv⟩))
  refine ⟨(P.order (a.response P d).headers.keys).map (a.response P d).field, ?_⟩
  constructor
  · exact heq
  · exact hfirst
  · rw [hfirst]
    conv_lhs => rw [heq, ← List.append_assoc, List.take_left]
    exact hlines
  · rw [hfirst]
    conv_lhs => rw [heq, ← List.append_assoc, List.drop_left]
  · intro l hl
    obtain ⟨k, hk, rfl⟩ := List.mem_map.mp hl
    obtain ⟨hname, -⟩ := hprint.getHeaderValue (hmem k hk)
    exact ⟨k, _, rfl, hname.1, hname.2.1⟩
  · refine ⟨decimal a.page.length, ?_, fun c hc => isDigit_of_mem_decimal hc,
      digitsValue_decimal _⟩
    have hvalue := (hprint.getHeaderValue (hkey hlen)).2
    rw [hprint.filter_fields P (hkey hlen)]
    unfold HttpMsg.field
    rw [← Option.some.inj (hlen.symm.trans hvalue)]
    rfl
  · refine ⟨s, ?_⟩
    have hvalue := (hprint.getHeaderValue (hkey hconn)).2
    rw [hprint.filter_fields P (hkey hconn)]
    unfold HttpMsg.field
    rw [← Option.some.inj (hconn.symm.trans hvalue)]
    rfl

end

/-! ### Responses -/

/-- The GET request with the target and the headers of a request. -/
def Http.HttpRequestMsg.asGet (req : HttpRequestMsg) : HttpRequestMsg :=
  { req with cls := .get, method := ascii "GET" }

/-- **The response to a request is framed**: its body is the page, and the content length is that
of the page.  The body of the response to a valid HEAD request is empty, and the content length
is that of the response to the GET request, whenever that one is made. -/
def ResponseFramed (P : Platform) (req : HttpRequestMsg) (resp : HttpResponseMsg) : Prop :=
  ∃ k fields, req.wantKeepAlive = some k ∧
    ((req.isOk = true → req.cls ≠ .head) →
      Framed (resp.serialize P) resp.statusLine fields (replyTo P req k).page.length
        (replyTo P req k).page) ∧
    (req.isOk = true → req.cls = .head →
      Framed (resp.serialize P) resp.statusLine fields (replyTo P req k).page.length [] ∧
      ∀ d, ∃ resp', makeResponse P d req.asGet = some resp' ∧
        resp'.body.length = (replyTo P req k).page.length)

/-- The replies without a body are those to valid HEAD requests. -/
theorem omitBody_replyTo (P : Platform) (req : HttpRequestMsg) (k : Bool) :
    (replyTo P req k).omitBody = true ↔ req.isOk = true ∧ req.cls = .head := by
  have hmain : ∀ o, (mainPageReply req.target k o).omitBody = o := by
    intro o
    unfold mainPageReply
    split <;> rfl
  unfold replyTo HttpRequestMsg.isOk
  cases req.isError with
  | true => simp [errorReply]
  | false => cases hc : req.cls <;> simp [hmain, errorReply, plugReply]

/-- The page of the response to a valid HEAD request is that of the GET request. -/
theorem page_replyTo_asGet {P : Platform} {req : HttpRequestMsg} (hok : req.isOk = true)
    (hcls : req.cls = .head) (k : Bool) :
    (replyTo P req.asGet k).body = (replyTo P req k).page := by
  have herr : req.isError = false := by simpa [HttpRequestMsg.isOk] using hok
  have herr' : req.asGet.isError = false := herr
  have hcls' : req.asGet.cls = .get := rfl
  unfold replyTo
  rw [if_neg (by simp [herr']), if_neg (by simp [herr]), hcls, hcls']
  show (mainPageReply req.target k false).body = (mainPageReply req.target k true).page
  unfold mainPageReply
  split <;> rfl

/-- **Every response is framed.** -/
theorem response_framed {P : Platform} {d : Date} {req : HttpRequestMsg} {resp : HttpResponseMsg}
    (hresp : makeResponse P d req = some resp) (hdate : NoBreak d.text)
    (hreason : NoBreak resp.statusText) : ResponseFramed P req resp := by
  rw [makeResponse_eq] at hresp
  obtain ⟨k, hk, rfl⟩ := Option.map_eq_some_iff.mp hresp
  obtain ⟨fields, hframed⟩ := framed_response P (replyTo P req k) hdate hreason
  have homit := omitBody_replyTo P req k
  refine ⟨k, fields, hk, ?_, ?_⟩
  · intro hnot
    have hbody : (replyTo P req k).body = (replyTo P req k).page := by
      refine if_neg fun ho => ?_
      obtain ⟨hok, hcls⟩ := homit.mp ho
      exact hnot hok hcls
    rw [hbody] at hframed
    exact hframed
  · intro hok hcls
    have hbody : (replyTo P req k).body = [] := if_pos (homit.mpr ⟨hok, hcls⟩)
    rw [hbody] at hframed
    refine ⟨hframed, fun d' => ⟨(replyTo P req.asGet k).response P d', ?_, ?_⟩⟩
    · have hkeep : req.asGet.wantKeepAlive = some k := hk
      rw [makeResponse_eq, hkeep]
      rfl
    · rw [body_response, page_replyTo_asGet hok hcls]

/-- A target with every byte in it that could end a line. -/
theorem response_framed_break : ∃ resp,
    makeResponse .plain .blank (ofHeader (ascii "GET /a\r/b\n/c HTTP/1.1\r\n\r\n")) = some resp ∧
      ResponseFramed .plain (ofHeader (ascii "GET /a\r/b\n/c HTTP/1.1\r\n\r\n")) resp := by
  have hsome : (makeResponse .plain .blank
      (ofHeader (ascii "GET /a\r/b\n/c HTTP/1.1\r\n\r\n"))).any
        (fun resp => decide (NoBreak resp.statusText)) = true := by decide +kernel
  obtain ⟨resp, hresp, hreason⟩ := (Option.any_eq_true _ _).mp hsome
  exact ⟨resp, hresp, response_framed hresp (by decide) (of_decide_eq_true hreason)⟩

end SrvAsync
