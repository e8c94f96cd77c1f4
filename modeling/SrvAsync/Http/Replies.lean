import SrvAsync.Base.Codes
import SrvAsync.Dialogue
import SrvAsync.Http.Framing
import SrvAsync.Receive.Decode

/-!
# A stream of responses, as a client reads it

A client that knows which requests it has sent cuts the bytes it gets back into
responses: up to the first empty line there is a header section, whose content length
says how many bytes of a body are behind it; a HEAD request has no body coming back.
`readResponse` is this reader.  It reads every response of the server off the front of a
stream, and reads nothing as long as a byte of it is missing, so the responses of a
connection can be put one behind the other.

## Main definitions

* `ReadResponse`, `readResponse` — a response as it is read, and the reader.
* `HttpResponseMsg.read` — what is read of a response.
* `HttpResponseMsg.OneLine` — the texts of a response stay on their lines.

## Main results

* `reads_of_framed` — a framed text is read as a whole or not at all.
* `reads_response` — every response is.
-/

namespace SrvAsync

open Http HttpRequestMsg Codes

/-! ### The reader -/

/-- A response as a client reads it. -/
structure ReadResponse where
  status : Bytes
  fields : List Bytes
  body : Bytes
  deriving DecidableEq

/-- The number in the only content length field. -/
def contentLength? (fields : List Bytes) : Option ℕ :=
  match fields.filter (lineName · = ascii "content-length") with
  | [l] => some (digitsValue (l.drop (ascii "content-length: ").length))
  | _ => none

/-- A response at the front of a stream, and what is behind it; the flag says that no body is
to come, whatever its length is. -/
def readResponse (noBody : Bool) (S : Bytes) : Option (ReadResponse × Bytes) :=
  let h := findHttpHeadersEnd S
  match (lines (S.take h)).1.dropLast with
  | [] => none
  | status :: fields =>
    match contentLength? fields with
    | none => none
    | some length =>
      let n := if noBody then 0 else length
      if S.length < h + n then none
      else some (⟨status, fields, (S.drop h).take n⟩, S.drop (h + n))

/-- Nothing is read as long as there is no empty line. -/
theorem readResponse_of_find_eq_zero {noBody : Bool} {S : Bytes} (h0 : findHttpHeadersEnd S = 0) :
    readResponse noBody S = none := by
  have hlines : lines [] = ([], []) := by decide +kernel
  unfold readResponse
  simp only [h0, List.take_zero, hlines]
  rfl

theorem readResponse_nil (noBody : Bool) : readResponse noBody [] = none :=
  readResponse_of_find_eq_zero rfl

/-! ### Framed texts are read -/

section

variable {msg status body : Bytes} {fields : List Bytes} {length : ℕ}

theorem Framed.contentLength?_eq (h : Framed msg status fields length body) :
    contentLength? fields = some length := by
  obtain ⟨v, hv, -, hlen⟩ := h.contentLength
  unfold contentLength?
  rw [hv]
  simp only
  rw [List.drop_left, hlen]

/-- The end of the header section of a framed text is in it. -/
theorem Framed.find_ne_zero (h : Framed msg status fields length body) :
    findHttpHeadersEnd msg ≠ 0 := by
  rw [h.first]
  simp [crlf]

/-- What is read of a stream with a framed text, or the beginning of one, in front. -/
theorem Framed.readResponse_eq (h : Framed msg status fields length body) {S : Bytes}
    (hfind : findHttpHeadersEnd S = findHttpHeadersEnd msg)
    (htake : S.take (findHttpHeadersEnd msg) = msg.take (findHttpHeadersEnd msg)) {noBody : Bool}
    {n : ℕ} (hn : n = if noBody then 0 else length) :
    readResponse noBody S =
      if S.length < findHttpHeadersEnd msg + n then none
      else some (⟨status, fields, (S.drop (findHttpHeadersEnd msg)).take n⟩,
        S.drop (findHttpHeadersEnd msg + n)) := by
  unfold readResponse
  simp only [hfind, htake, h.lines, List.dropLast_concat, h.contentLength?_eq, hn]

/-- **A framed text is read as a whole or not at all**, when the body behind it is as long as
the reader expects. -/
theorem reads_of_framed (h : Framed msg status fields length body) {noBody : Bool}
    (hbody : body.length = if noBody then 0 else length) :
    Reads readResponse noBody msg ⟨status, fields, body⟩ := by
  have hle := findHttpHeadersEnd_le msg
  have hlen : msg.length = findHttpHeadersEnd msg + body.length := by
    rw [← h.rest, List.length_drop]
    omega
  constructor
  · intro T
    have hfind := find_of_prefix (List.prefix_append msg T) h.find_ne_zero
    rw [h.readResponse_eq hfind (List.take_append_of_le_length hle) hbody, ← hlen, if_neg (by simp),
      List.drop_append_of_le_length hle, h.rest, List.take_left, List.drop_left]
  · intro p hp hne
    by_cases h0 : findHttpHeadersEnd p = 0
    · exact readResponse_of_find_eq_zero h0
    · have hfind := find_of_prefix hp h0
      obtain ⟨T, rfl⟩ := hp
      have hle' : findHttpHeadersEnd (p ++ T) ≤ p.length := hfind ▸ findHttpHeadersEnd_le p
      rw [h.readResponse_eq hfind.symm (List.take_append_of_le_length hle').symm hbody, ← hlen]
      -- a byte of the text is missing
      refine if_pos ?_
      rw [List.length_append]
      exact Nat.lt_add_of_pos_right (List.length_pos_iff.mpr fun hT => hne (by rw [hT, List.append_nil]))

end

/-! ### Responses are read -/

/-- What is read of a response. -/
def Http.HttpResponseMsg.read (P : Platform) (r : HttpResponseMsg) : ReadResponse :=
  ⟨r.statusLine, (P.order r.headers.keys).map r.field, r.body⟩

/-- The reason and the header values of a response stay on their lines. -/
structure Http.HttpResponseMsg.OneLine (r : HttpResponseMsg) : Prop where
  reason : NoBreak r.statusText
  text : ∀ k v, r.headers.lookup k = some v → NoBreak v.text

instance : DecidablePred Http.HttpResponseMsg.OneLine := fun r =>
  decidable_of_iff (NoBreak r.statusText ∧ ∀ e ∈ r.headers.entries, NoBreak e.2.text) <| by
    constructor
    · rintro ⟨hreason, htext⟩
      exact ⟨hreason, fun k v hv => htext ⟨k, v⟩ (AList.mem_lookup_iff.mp hv)⟩
    · rintro ⟨hreason, htext⟩
      exact ⟨hreason, fun e he => htext e.1 e.2 (AList.mem_lookup_iff.mpr he)⟩

/-- No body comes back for a valid HEAD request. -/
def Http.HttpRequestMsg.noBody (req : HttpRequestMsg) : Bool := req.isOk && decide (req.cls = .head)

section

variable {P : Platform} {req : HttpRequestMsg} {resp : HttpResponseMsg}

/-- The date is one of the header values. -/
theorem lookup_date (P : Platform) (a : Reply) (d : Date) :
    (a.response P d).headers.lookup (ascii "date") = some (.string d.text) := by
  have hname : toLower (ascii "Date") = ascii "date" := by decide
  have hallow : ∀ r : HttpResponseMsg,
      (addAllow a.code r).headers.lookup (ascii "date") = r.headers.lookup (ascii "date") := by
    intro r
    unfold addAllow
    split
    · exact AList.lookup_insert_ne (by decide)
    · rfl
  rw [headers_response, hallow, ← hname]
  simp only [pageHeaders, HttpResponseMsg.addHeader, HttpMsg.addHeader]
  rw [AList.lookup_insert_ne (by decide), AList.lookup_insert_ne (by decide),
    AList.lookup_insert_ne (by decide), AList.lookup_insert_ne (by decide), AList.lookup_insert]

/-- The fields that a framed response has are the ones it is printed with. -/
theorem fields_of_framed {a : Reply} {d : Date} {fields : List Bytes} {length : ℕ}
    (hline : (a.response P d).OneLine) (h : Framed ((a.response P d).serialize P)
      (a.response P d).statusLine fields length a.body) :
    fields = (P.order (a.response P d).headers.keys).map (a.response P d).field := by
  have hprint := printable_response P a (hline.text _ _ (lookup_date P a d))
  have hstatus : NoBreak (a.response P d).statusLine :=
    (((by decide : NoBreak (ascii "HTTP/1.1 ")).append (noBreak_decimal _)).append
      (by decide : NoBreak [SP])).append hline.reason
  have hls : ∀ l ∈ (a.response P d).statusLine ::
      (P.order (a.response P d).headers.keys).map (a.response P d).field,
      l ≠ [] ∧ List.firstInfix? crlf (l ++ crlf) = some l.length := by
    intro l hl
    rcases List.mem_cons.mp hl with rfl | hl
    · exact ⟨List.cons_ne_nil _ _, List.firstInfix?_of_not_mem hstatus.1⟩
    · obtain ⟨k, hk, rfl⟩ := List.mem_map.mp hl
      obtain ⟨hne, hbreak, -⟩ := hprint.field ((P.order_perm _).mem_iff.mp hk)
      exact ⟨hne, List.firstInfix?_of_not_mem hbreak.1⟩
  obtain ⟨hfirst, hlines⟩ := header_section (List.cons_ne_nil _ _) hls (a.response P d).body
  -- the lines of the same text
  rw [← serialize_eq P hprint] at hfirst
  have heq := h.lines
  rw [hfirst, serialize_eq P hprint, ← List.append_assoc, List.take_left, hlines] at heq
  have hcons := List.append_cancel_right (Prod.mk.inj heq).1
  exact (List.cons.inj hcons).2.symm

/-- **Every response is read as a whole or not at all.** -/
theorem reads_response (h : Responds P req resp) (hline : resp.OneLine) :
    Reads readResponse req.noBody (resp.serialize P) (resp.read P) := by
  obtain ⟨d, h⟩ := h
  rw [makeResponse_eq] at h
  obtain ⟨k, -, rfl⟩ := Option.map_eq_some_iff.mp h
  have hdate := hline.text _ _ (lookup_date P (replyTo P req k) d)
  obtain ⟨fields, hframed⟩ := framed_response P (replyTo P req k) hdate hline.reason
  have hbody : (replyTo P req k).body.length =
      if req.noBody then 0 else (replyTo P req k).page.length := by
    have homit := omitBody_replyTo P req k
    unfold Http.Reply.body Http.HttpRequestMsg.noBody
    by_cases ho : (replyTo P req k).omitBody = true
    · simp [ho, homit.mp ho]
    · have hnot : ¬ (req.isOk = true ∧ req.cls = .head) := fun hh => ho (homit.mpr hh)
      simp only [ho, Bool.and_eq_true, decide_eq_true_eq, hnot]
      rfl
  have hreads := reads_of_framed hframed hbody
  rw [fields_of_framed hline hframed] at hreads
  unfold Http.HttpResponseMsg.read
  rw [body_response]
  exact hreads

end

end SrvAsync
