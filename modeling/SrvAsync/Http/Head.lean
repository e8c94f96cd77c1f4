import SrvAsync.Http.Framing
import SrvAsync.Http.Received

/-!
# HEAD requests

The page is left out of a response by the flag `make_main_page_response` passes on, and
only `http_request_head_msg::MakeOkResponse` sets it.  A HEAD request that
`ParseRequestHeader` does not accept is answered by `make_error_response`, with a page.

## Main results

* `head_body_iff` — **the body is empty exactly when the header section is well formed**.
* `head_with_body` — a HEAD request that is answered with a body.
-/

namespace SrvAsync

open Http HttpRequestMsg

/-- A page is never empty. -/
theorem Http.Reply.page_ne_nil (a : Reply) : a.page ≠ [] := by
  have htag : ascii "<!DOCTYPE html>\n<html>\n<head>\n    <meta charset=\"UTF-8\">\n    <title>" ≠ [] := by
    decide
  unfold Reply.page getHtmlPage
  simp only [List.append_assoc]
  exact List.append_ne_nil_of_left_ne_nil htag _

theorem Http.Reply.body_eq_nil_iff {a : Reply} : a.body = [] ↔ a.omitBody = true := by
  unfold Reply.body
  split
  · next ho => exact ⟨fun _ => ho, fun _ => rfl⟩
  · next ho => exact ⟨fun h => absurd h a.page_ne_nil, fun h => absurd h ho⟩

/-- The first token of a section that starts with HEAD and a space. -/
theorem getMethodToken_of_head {hdr : Bytes} (h : ascii "HEAD " <+: hdr) :
    getMethodToken hdr = ascii "HEAD" := by
  obtain ⟨t, rfl⟩ := h
  have hsp : ascii "HEAD " ++ t = ascii "HEAD" ++ SP :: [] ++ t := rfl
  exact getMethodToken_eq hsp (by decide)

/-- **What becomes of a HEAD request**: it is parsed, and OK exactly when it is well formed. -/
theorem ofHeader_head {hdr : Bytes} (h : ascii "HEAD " <+: hdr) (hlen : hdr.length ≤ maxHttpHdrSize) :
    wantsBody hdr = false ∧ ((ofHeader hdr).isOk = true ↔ WellFormed hdr) ∧
      ((ofHeader hdr).isOk = true → (ofHeader hdr).cls = .head) := by
  have htoken := getMethodToken_of_head h
  have hinfo : methodsInfo.lookup (ascii "HEAD") = some ⟨.head, false⟩ := rfl
  have hcreate : create (ascii "HEAD") = { cls := .head } := create_of_lookup hinfo
  have hof : ofHeader hdr = (create (ascii "HEAD")).parseRequestHeader hdr := by
    unfold ofHeader
    rw [if_neg (by omega), htoken, hcreate]
    rfl
  refine ⟨?_, ?_, ?_⟩
  · have hbody : methodHasBody (ascii "HEAD") = false := by decide
    unfold wantsBody
    rw [htoken, hbody, Bool.and_false]
  · rw [hof, hcreate]
    exact isOk_parseRequestHeader_iff rfl rfl
  · intro hok
    rw [hof, hcreate] at hok ⊢
    exact (typed_parseRequestHeader rfl rfl hok).2.1

/-- **The response to a HEAD request has an empty body exactly when the header section is well
formed.** -/
theorem head_body_iff (P : Platform) (s : St) (t : Tick) {hdr : Bytes} (h : ascii "HEAD " <+: hdr)
    (hlen : hdr.length ≤ maxHttpHdrSize) :
    ∃ resp, makeResponse P t.date (ofHeader hdr) = some resp ∧
      recvHttpMsgHdr P s t hdr = sendHttpMsg P ((((s.create .request).log
        (.request (ofHeader hdr))).create .response).log (.response resp)) t (ofHeader hdr) resp ∧
      (resp.body = [] ↔ WellFormed hdr) := by
  obtain ⟨hwants, hok, hcls⟩ := ofHeader_head h hlen
  obtain ⟨k, hk⟩ := wantKeepAlive_ofHeader hdr
  have hresp : makeResponse P t.date (ofHeader hdr) =
      some ((replyTo P (ofHeader hdr) k).response P t.date) := by
    rw [makeResponse_eq, hk]
    rfl
  refine ⟨_, hresp, ?_, ?_⟩
  · have hne : hdr.isEmpty = false := by
      obtain ⟨u, rfl⟩ := h
      rfl
    unfold recvHttpMsgHdr
    rw [hne, hwants]
    show handleOneClientRequestRecv P (s.create .request) t (ofHeader hdr) = _
    unfold handleOneClientRequestRecv
    simp only [hresp]
  · rw [body_response, Reply.body_eq_nil_iff, omitBody_replyTo, ← hok]
    exact ⟨fun ho => ho.1, fun ho => ⟨ho, hcls ho⟩⟩

theorem head_body_iff_main : ∃ resp,
    makeResponse .plain .blank (ofHeader (ascii "HEAD / HTTP/1.1\r\n\r\n")) = some resp ∧
      (resp.body = [] ↔ WellFormed (ascii "HEAD / HTTP/1.1\r\n\r\n")) := by
  let s : St := ⟨⟨⟨[], some 1, 1, 0, 0⟩, fun _ _ => 0, fun _ => none, 1, .coro .start⟩, .zero⟩
  have hhead : ascii "HEAD " <+: ascii "HEAD / HTTP/1.1\r\n\r\n" := by decide +kernel
  obtain ⟨resp, hresp, -, hiff⟩ := head_body_iff .plain s (Tick.atTime 0) hhead (by decide +kernel)
  exact ⟨resp, hresp, hiff⟩

/-- A HEAD request with a length for the body. -/
def headWithLength : Bytes := ascii "HEAD / HTTP/1.1\r\nContent-Length: 0\r\n\r\n"

/-- **A HEAD request that is answered with a body.** -/
theorem head_with_body : ¬ ∀ hdr, ascii "HEAD " <+: hdr → hdr.length ≤ maxHttpHdrSize →
    ∀ resp, makeResponse .plain .blank (ofHeader hdr) = some resp → resp.body = [] := by
  intro hall
  have hany : (makeResponse .plain .blank (ofHeader headWithLength)).any
      (fun resp => !resp.body.isEmpty) = true := by decide +kernel
  obtain ⟨resp, hresp, hne⟩ := (Option.any_eq_true _ _).mp hany
  have hnil := hall headWithLength (by decide +kernel) (by decide +kernel) resp hresp
  rw [hnil] at hne
  exact absurd hne (by decide)

end SrvAsync
