import SrvAsync.Http.Received

/-!
# The table of status texts

`http_status_text` is constructed with room for one entry more than the value of
`HTTP_STATUS_HEADER_FIELDS_TOO_LARGE`, which is the last of the enumerators and not the
greatest: 500 and 501 are behind the end of the vector.  They are stored there when the
table is built, and 501 is looked up for every valid POST, PUT, DELETE and PATCH request.

## Main definitions

* `responseLookups` — the indices `MakeResponse` looks up.
* `TableCovers` — the table is big enough for a request.

## Main results

* `makeResponse_congr` — the response depends on the table at these indices only.
* `status_table` — **when the lookups are in range**; the stores never are.
* `status_table_post` — a POST request for which they are not.
-/

namespace SrvAsync

open Http HttpRequestMsg

/-! ### The lookups -/

/-- The lookup of the constructor of `http_response_msg`, which is all `make_page_response`
looks up. -/
def pageLookups (code : HttpStatus) : List ℕ := [code.code]

/-- The lookups of `make_error_response`: for the page, and for the status line. -/
def errorLookups (code : HttpStatus) : List ℕ := code.code :: pageLookups code

/-- The lookups of `make_main_page_response`. -/
def mainPageLookups (target : Bytes) : List ℕ :=
  if target = ascii "/" ∨ target = ascii "/index.html" then pageLookups .ok
  else pageLookups .notFound

/-- The lookups of `MakeOkResponse`. -/
def okLookups (req : HttpRequestMsg) : List ℕ :=
  match req.cls with
  | .base => errorLookups .internalServerError
  | .get | .head => mainPageLookups req.target
  | .post | .put | .delete | .patch => pageLookups .notImplemented

/-- The lookups of `http_status_text` in `MakeResponse`. -/
def responseLookups (req : HttpRequestMsg) : List ℕ :=
  if req.isError then errorLookups (if req.errorCode ≠ .none then req.errorCode else .badRequest)
  else okLookups req

section

variable {P Q : Platform} {d : Date} {req : HttpRequestMsg}

theorem makePageResponse_congr {code : HttpStatus} {title bodyHtml : Bytes} {omitBody : Bool}
    (h : ∀ i ∈ pageLookups code, httpStatusText P i = httpStatusText Q i) :
    makePageResponse P d code req title bodyHtml omitBody =
      makePageResponse Q d code req title bodyHtml omitBody := by
  have hcode := h code.code (List.mem_singleton_self _)
  unfold makePageResponse pageResponse pageHeaders HttpResponseMsg.ofCode
  rw [hcode]

theorem makeErrorResponse_congr {code : HttpStatus}
    (h : ∀ i ∈ errorLookups code, httpStatusText P i = httpStatusText Q i) :
    makeErrorResponse P d code req = makeErrorResponse Q d code req := by
  have hcode := h code.code List.mem_cons_self
  have hpage : ∀ i ∈ pageLookups code, httpStatusText P i = httpStatusText Q i :=
    fun i hi => h i (List.mem_cons_of_mem _ hi)
  unfold makeErrorResponse
  simp only [hcode, makePageResponse_congr hpage]

theorem makeMainPageResponse_congr {omitBody : Bool}
    (h : ∀ i ∈ mainPageLookups req.target, httpStatusText P i = httpStatusText Q i) :
    makeMainPageResponse P d req omitBody = makeMainPageResponse Q d req omitBody := by
  unfold mainPageLookups at h
  unfold makeMainPageResponse
  split
  · next ht =>
    rw [if_pos ht] at h
    exact makePageResponse_congr h
  · next ht =>
    rw [if_neg ht] at h
    exact makePageResponse_congr h

/-- **The response depends on the table at the indices looked up only.** -/
theorem makeResponse_congr
    (h : ∀ i ∈ responseLookups req, httpStatusText P i = httpStatusText Q i) :
    makeResponse P d req = makeResponse Q d req := by
  unfold responseLookups at h
  unfold makeResponse
  split
  · next he =>
    rw [if_pos he] at h
    exact makeErrorResponse_congr h
  · next he =>
    rw [if_neg he] at h
    unfold okLookups at h
    unfold makeOkResponse
    split <;> next hc => rw [hc] at h; first
      | exact makeErrorResponse_congr h
      | exact makeMainPageResponse_congr h
      | exact makePageResponse_congr h

end

/-! ### The errors a request is received with -/

/-- A request in error has one of the statuses that `Create` and the parser set. -/
def ParseErrorFits (r : HttpRequestMsg) : Prop :=
  r.errorCode = .none ∨ r.errorCode ∈ [HttpStatus.badRequest, .methodNotAllowed, .lengthRequired,
    .payloadTooLarge]

/-- A request in error has one of the statuses the receive path sets. -/
def ErrorFits (r : HttpRequestMsg) : Prop :=
  r.errorCode = .none ∨ r.errorCode ∈ [HttpStatus.badRequest, .methodNotAllowed, .lengthRequired,
    .payloadTooLarge, .headerFieldsTooLarge]

theorem parseErrorFits_fail (r : HttpRequestMsg) {st : HttpStatus}
    (h : st ∈ [HttpStatus.badRequest, .methodNotAllowed, .lengthRequired, .payloadTooLarge]) :
    ParseErrorFits (r.fail st) := .inr h

theorem ParseErrorFits.parseField {r : HttpRequestMsg} (h : ParseErrorFits r) (line : Bytes) :
    (∀ r', r.parseField line = .ok r' → ParseErrorFits r') ∧
      ∀ r', r.parseField line = .error r' → ParseErrorFits r' := by
  unfold HttpRequestMsg.parseField
  simp only
  repeat' split
  all_goals
    constructor
    · intro r' hr
      first
        | cases hr; exact h
        | cases hr
    · intro r' hr
      first
        | cases hr; exact parseErrorFits_fail r (by decide)
        | cases hr

theorem ParseErrorFits.parseFields : ∀ {fuel : ℕ} {r : HttpRequestMsg} {p : Bytes},
    ParseErrorFits r → ParseErrorFits (parseFields fuel r p) := by
  intro fuel
  induction fuel with
  | zero => intro r p h; exact h
  | succ fuel ih =>
    intro r p h
    unfold HttpRequestMsg.parseFields
    split
    · unfold checkLength
      split
      · exact parseErrorFits_fail r (by decide)
      · exact h
    · split
      · exact parseErrorFits_fail r (by decide)
      · simp only
        split
        · exact ih h
        · split
          · next r' hr' => exact (h.parseField _).2 r' hr'
          · next r' hr' => exact ih ((h.parseField _).1 r' hr')

theorem ParseErrorFits.parseRequestHeader {r : HttpRequestMsg} (h : ParseErrorFits r) (buf : Bytes) :
    ParseErrorFits (r.parseRequestHeader buf) := by
  have hfail : ParseErrorFits (r.fail .badRequest) := parseErrorFits_fail r (by decide)
  unfold HttpRequestMsg.parseRequestHeader
  split
  · exact hfail
  · simp only
    split
    · split
      · exact hfail
      · split
        · exact hfail
        · exact ParseErrorFits.parseFields h
    · exact hfail

/-- A header section that is not too long gets an error of the parser, if any. -/
theorem parseErrorFits_ofHeader {hdr : Bytes} (h : hdr.length ≤ maxHttpHdrSize) :
    ParseErrorFits (ofHeader hdr) := by
  have hcreate : ∀ m, ParseErrorFits (create m) := by
    intro m
    unfold create
    split
    · exact .inl rfl
    · refine .inr ?_
      show HttpStatus.methodNotAllowed ∈ _
      decide
  unfold ofHeader
  rw [if_neg (by omega)]
  simp only
  split
  · exact (hcreate _).parseRequestHeader hdr
  · exact hcreate _

/-- **The status 431 is for the header sections that are too long.** -/
theorem errorCode_ofHeader_iff (hdr : Bytes) :
    (ofHeader hdr).errorCode = .headerFieldsTooLarge ↔ maxHttpHdrSize < hdr.length := by
  constructor
  · intro he
    by_contra hle
    rcases parseErrorFits_ofHeader (show hdr.length ≤ maxHttpHdrSize by omega) with h | h
    · exact HttpStatus.noConfusion (he.symm.trans h)
    · rw [he] at h
      exact absurd h (by decide)
  · intro hlt
    rw [ofHeader_of_lt hlt]
    rfl

/-- **The errors of the receive path.** -/
theorem Received.errorFits {req : HttpRequestMsg} (h : Received req) : ErrorFits req := by
  obtain ⟨hdr, body, rfl⟩ := h
  have hhdr : ErrorFits (ofHeader hdr) := by
    by_cases hlen : maxHttpHdrSize < hdr.length
    · rw [ofHeader_of_lt hlen]
      exact .inr (by decide)
    · exact (parseErrorFits_ofHeader (by omega)).imp id
        fun hmem => List.mem_append_left [HttpStatus.headerFieldsTooLarge] hmem
  exact hhdr

/-! ### The table -/

/-- **The table is big enough for a request**: every lookup made for its response is in range,
every store that fills the table is, and the status line has a reason phrase. -/
structure TableCovers (P : Platform) (d : Date) (req : HttpRequestMsg) : Prop where
  lookups : ∀ i ∈ responseLookups req, i < statusTextSize
  stores : ∀ st ∈ statusTextStores, st.1.code < statusTextSize
  reason : ∀ resp, makeResponse P d req = some resp → resp.statusText ≠ []

/-- Every status in the table has a text. -/
theorem httpStatusText_ne_nil (P : Platform) {c : HttpStatus} (hc : c ≠ .none)
    (hlt : c.code < statusTextSize) : httpStatusText P c.code ≠ [] := by
  have hcell : (statusTextCells[c.code]?).any (fun t => !t.isEmpty) = true →
      httpStatusText P c.code ≠ [] := by
    intro hany
    obtain ⟨t, ht, hne⟩ := (Option.any_eq_true _ _).mp hany
    unfold httpStatusText
    rw [List.getD_eq_getElem?_getD, ht]
    rintro rfl
    exact absurd hne (by decide)
  cases c with
  | none => exact absurd rfl hc
  | internalServerError | notImplemented => exact absurd hlt (by decide)
  | ok | badRequest | notFound | methodNotAllowed | requestTimeout | lengthRequired
    | payloadTooLarge | headerFieldsTooLarge =>
    exact hcell (by decide +kernel)

/-- The status line of a reply has the text of its status. -/
theorem statusText_response (P : Platform) (a : Reply) (d : Date) :
    (a.response P d).statusText = httpStatusText P a.code.code := by
  unfold Reply.response addAllow pageResponse
  simp only
  split <;> split <;> rfl

/-- The status of a reply was looked up, and is not that of no error. -/
theorem code_replyTo (P : Platform) (req : HttpRequestMsg) (k : Bool) :
    (replyTo P req k).code.code ∈ responseLookups req ∧ (replyTo P req k).code ≠ .none := by
  unfold replyTo responseLookups
  split
  · refine ⟨List.mem_cons_self, ?_⟩
    show (if req.errorCode ≠ .none then req.errorCode else .badRequest) ≠ .none
    split
    · assumption
    · exact HttpStatus.noConfusion
  · have hmain : ∀ o, (mainPageReply req.target k o).code.code ∈ mainPageLookups req.target ∧
        (mainPageReply req.target k o).code ≠ .none := by
      intro o
      unfold mainPageReply mainPageLookups
      split <;> exact ⟨List.mem_cons_self, HttpStatus.noConfusion⟩
    unfold okLookups
    cases req.cls with
    | base => exact ⟨List.mem_cons_self, HttpStatus.noConfusion⟩
    | get => exact hmain false
    | head => exact hmain true
    | post | put | delete | patch => exact ⟨List.mem_cons_self, HttpStatus.noConfusion⟩

/-- **When the table is big enough.**  Two stores are behind its end, so it never is; the
lookups for a request that is received are in range when it is in error, or a valid GET or
HEAD request, and then there is a reason phrase. -/
theorem status_table (P : Platform) (d : Date) {req : HttpRequestMsg} (h : Received req) :
    ¬ TableCovers P d req ∧
    ((∀ i ∈ responseLookups req, i < statusTextSize) ↔
      req.isError = true ∨ req.cls = .get ∨ req.cls = .head) ∧
    ((∀ i ∈ responseLookups req, i < statusTextSize) →
      ∀ resp, makeResponse P d req = some resp → resp.statusText ≠ []) := by
  refine ⟨?_, ?_, ?_⟩
  · intro hcov
    -- the stores do not depend on the request
    exact absurd hcov.stores (by decide)
  · constructor
    · intro hall
      by_contra hnot
      rw [not_or, not_or] at hnot
      obtain ⟨herr, hget, hhead⟩ := hnot
      have hok : req.isOk = true := by
        unfold HttpRequestMsg.isOk
        rw [Bool.eq_false_iff.mpr herr]
        rfl
      have hbase := h.cls_ne_base hok
      unfold responseLookups okLookups at hall
      rw [if_neg herr] at hall
      -- only the classes that answer with 501 are left
      cases hcls : req.cls with
      | base => exact hbase hcls
      | get => exact hget hcls
      | head => exact hhead hcls
      | post | put | delete | patch =>
        rw [hcls] at hall
        exact absurd (hall 501 (List.mem_singleton_self 501)) (by decide)
    · intro hcond i hi
      unfold responseLookups at hi
      split at hi
      · -- an error page: its status is one that a received request can have
        have hi' : i = (if req.errorCode ≠ .none then req.errorCode else .badRequest).code := by
          simpa [errorLookups, pageLookups] using hi
        rw [hi']
        rcases h.errorFits with he | he
        · rw [if_neg (not_not.mpr he)]
          decide
        · split
          · simp only [List.mem_cons, List.not_mem_nil, or_false] at he
            rcases he with he | he | he | he | he <;> rw [he] <;> decide
          · decide
      · next herr =>
        -- no error, and the class looks a page up
        have hmain : i ∈ mainPageLookups req.target := by
          unfold okLookups at hi
          rcases hcond with he | hc | hc
          · exact absurd he herr
          · rw [hc] at hi
            exact hi
          · rw [hc] at hi
            exact hi
        unfold mainPageLookups pageLookups at hmain
        split at hmain
        · rw [List.mem_singleton.mp hmain]
          decide
        · rw [List.mem_singleton.mp hmain]
          decide
  · intro hall resp hresp
    rw [makeResponse_eq] at hresp
    obtain ⟨k, -, rfl⟩ := Option.map_eq_some_iff.mp hresp
    obtain ⟨hmem, hne⟩ := code_replyTo P req k
    rw [statusText_response]
    exact httpStatusText_ne_nil P hne (hall _ hmem)

/-- The smallest valid POST request. -/
def postHeader : Bytes := ascii "POST / HTTP/1.1\r\nContent-Length: 0\r\n\r\n"

theorem status_table_get : ¬ TableCovers .plain .blank (ofHeader (ascii "GET / HTTP/1.1\r\n\r\n")) ∧
    ((∀ i ∈ responseLookups (ofHeader (ascii "GET / HTTP/1.1\r\n\r\n")), i < statusTextSize) ↔
      (ofHeader (ascii "GET / HTTP/1.1\r\n\r\n")).isError = true ∨
        (ofHeader (ascii "GET / HTTP/1.1\r\n\r\n")).cls = .get ∨
        (ofHeader (ascii "GET / HTTP/1.1\r\n\r\n")).cls = .head) := by
  obtain ⟨hnot, hiff, -⟩ := status_table .plain .blank
    (received_ofHeader (ascii "GET / HTTP/1.1\r\n\r\n"))
  exact ⟨hnot, hiff⟩

/-- **A valid POST request is answered with a text from behind the end of the table**, and two
texts were stored there. -/
theorem status_table_post : ¬ TableCovers .plain .blank (ofHeader postHeader) ∧
    responseLookups (ofHeader postHeader) = [501] ∧ statusTextSize = 432 ∧
    (statusTextStores.filter fun st => statusTextSize ≤ st.1.code).map (·.1.code) = [500, 501] := by
  have hlookups : responseLookups (ofHeader postHeader) = [501] := by decide +kernel
  refine ⟨?_, hlookups, rfl, by decide⟩
  intro hcov
  have hlt := hcov.lookups 501 (by rw [hlookups]; exact List.mem_singleton_self _)
  exact absurd hlt (by decide)

end SrvAsync
