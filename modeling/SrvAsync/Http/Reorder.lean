import SrvAsync.Http.Grammar
import SrvAsync.Http.Received

/-!
# Header lines in another order

The header loop rejects a line for what it is, whatever stands before it, so the order of
the header lines does not matter for being accepted.  It matters for the map, which keeps
the last line of every name: a section with two lengths is read by the second one.

## Main definitions

* `headerSection` — a request line and header lines on the wire.
* `SameResult` — the parser answers the same.
* `bodyBytes` — how many bytes `recv_http_msg` takes for a body.
* `SameLengths` — the content lengths of a section agree.

## Main results

* `Grammar.perm` — a section stays accepted when its lines are permuted.
* `Grammar.bodyBytes_eq` — the bytes taken are those the last content length says.
* `reordered` — **what a permutation of the header lines does to the length of the body**.
-/

namespace SrvAsync

open Http HttpRequestMsg

/-- A request line and header lines, each ended by CRLF. -/
def headerSection (line : Bytes) (fields : List Bytes) : Bytes := (line :: fields).flatMap (· ++ crlf)

/-- The parser answers the same: error code, method, target, version and header map. -/
structure SameResult (r r' : HttpRequestMsg) : Prop where
  errorCode : r.errorCode = r'.errorCode
  method : r.method = r'.method
  target : r.target = r'.target
  version : r.version = r'.version
  headers : ∀ k, r.headers.lookup k = r'.headers.lookup k

theorem SameResult.refl (r : HttpRequestMsg) : SameResult r r := ⟨rfl, rfl, rfl, rfl, fun _ => rfl⟩

/-- The bytes `recv_http_msg` takes from the stream behind a header section. -/
def bodyBytes (hdr : Bytes) : Option ℕ :=
  if wantsBody hdr then ((ofHeader hdr).getHeaderValue (ascii "Content-Length")).asSizeT else some 0

/-- The content lengths of these lines are the same number. -/
def SameLengths (fields : List Bytes) : Prop :=
  ∀ l ∈ fields, ∀ l' ∈ fields, HasName (ascii "content-length") l →
    HasName (ascii "content-length") l' → digitsValue (lineValue l) = digitsValue (lineValue l')

/-- The content length of the header lines: that of the last line with one. -/
def lengthOf (fields : List Bytes) : HeaderValue :=
  match lastLine fields (ascii "content-length") with
  | some l => .size (digitsValue (lineValue l))
  | none => .string []

theorem lengthOf_eq_of_asSizeT {fields fields' : List Bytes}
    (h : (lengthOf fields').asSizeT = (lengthOf fields).asSizeT) :
    lengthOf fields' = lengthOf fields := by
  revert h
  unfold lengthOf
  cases lastLine fields' (ascii "content-length") <;>
    cases lastLine fields (ascii "content-length")
  case none.none => exact fun _ => rfl
  case some.some => exact fun h => congrArg HeaderValue.size (Option.some.inj h)
  all_goals
    intro h
    cases h

section

variable {buf line : Bytes} {fields fields' : List Bytes} {method target version : Bytes}

/-! ### An accepted section -/

/-- An accepted section is parsed to its lines. -/
theorem Grammar.parse (h : Grammar buf line fields method target version) (c : RequestClass) :
    (fresh c).parseRequestHeader buf = filled c method target version fields := by
  obtain ⟨hl, hreq, hs⟩ := grammar_iff.mp h
  exact parse_of_sectionStatus c hl hreq hs

theorem Grammar.sameLine (h : Grammar buf line fields method target version) (c : RequestClass) :
    SameLine ((fresh c).setLine method target version) ((fresh c).parseRequestHeader buf) := by
  rw [h.parse c]
  exact sameLine_filled c method target version fields

/-- The map has the last line of every name. -/
theorem Grammar.lookup (h : Grammar buf line fields method target version) (c : RequestClass)
    (k : Bytes) : ((fresh c).parseRequestHeader buf).headers.lookup k =
      (lastLine fields k).map storedValue := by
  rw [h.parse c, lookup_filled h.colon]

/-- An accepted section has no error. -/
theorem Grammar.errorCode (h : Grammar buf line fields method target version) (c : RequestClass) :
    ((fresh c).parseRequestHeader buf).errorCode = .none := (h.sameLine c).errorCode

/-- The content length of an accepted section. -/
theorem Grammar.contentLength (h : Grammar buf line fields method target version)
    (c : RequestClass) :
    ((fresh c).parseRequestHeader buf).getHeaderValue (ascii "Content-Length") =
      lengthOf fields := by
  have hlow : toLower (ascii "Content-Length") = ascii "content-length" := by decide
  unfold HttpMsg.getHeaderValue lengthOf
  rw [hlow, h.lookup c]
  cases hlast : lastLine fields (ascii "content-length") with
  | none => rfl
  | some l =>
    have hname := (lastLine_mem hlast).2.2
    unfold storedValue
    rw [Option.map_some, if_pos hname]
    rfl

/-- **The bytes taken for a body** are as many as the last content length says, when the section
is not too long and its method has a body. -/
theorem Grammar.bodyBytes_eq (h : Grammar buf line fields method target version) :
    bodyBytes buf = if buf.length ≤ maxHttpHdrSize ∧ methodHasBody method = true then
      (lengthOf fields).asSizeT else some 0 := by
  have htoken : getMethodToken buf = method :=
    getMethodToken_of_requestLine (grammar_iff.mp h).1 h.requestLine
  unfold bodyBytes wantsBody
  rw [htoken]
  by_cases hlen : buf.length ≤ maxHttpHdrSize
  · by_cases hbody : methodHasBody method = true
    · obtain ⟨info, hinfo⟩ : ∃ info, methodsInfo.lookup method = some info := by
        unfold methodHasBody at hbody
        cases hm : methodsInfo.lookup method with
        | some info => exact ⟨info, rfl⟩
        | none =>
          rw [hm] at hbody
          cases hbody
      have hcreate : create (getMethodToken buf) = fresh info.creator := by
        rw [htoken, create_of_lookup hinfo]
        rfl
      have heq : ofHeader buf = (fresh info.creator).parseRequestHeader buf := by
        unfold ofHeader
        rw [if_neg (by omega), hcreate]
        rfl
      have hok : (ofHeader buf).isOk = true := by
        unfold HttpRequestMsg.isOk HttpRequestMsg.isError
        rw [heq, h.errorCode]
        rfl
      rw [hok, decide_eq_true hlen, hbody, heq, h.contentLength,
        if_pos (⟨hlen, rfl⟩ : buf.length ≤ maxHttpHdrSize ∧ true = true)]
      rfl
    · rw [Bool.eq_false_iff.mpr hbody, Bool.and_false, if_neg Bool.false_ne_true,
        if_neg fun hh => Bool.false_ne_true hh.2]
  · rw [decide_eq_false hlen,
      if_neg fun hh : buf.length ≤ maxHttpHdrSize ∧ methodHasBody method = true => hlen hh.1]
    rfl

/-! ### Another order -/

/-- **A section stays accepted when its header lines are permuted.** -/
theorem Grammar.perm (h : Grammar buf line fields method target version)
    (hp : fields'.Perm fields) :
    Grammar (headerSection line fields') line fields' method target version where
  text := rfl
  unbroken := by
    intro l hl
    refine h.unbroken l ?_
    rcases List.mem_cons.mp hl with rfl | hl
    · exact List.mem_cons_self
    · exact List.mem_cons_of_mem _ (hp.mem_iff.mp hl)
  requestLine := h.requestLine
  colon := fun l hl => h.colon l (hp.mem_iff.mp hl)
  length := fun l hl => h.length l (hp.mem_iff.mp hl)
  present := by
    intro hb
    obtain ⟨l, hl, hname⟩ := h.present hb
    exact ⟨l, hp.mem_iff.mpr hl, hname⟩

/-- Permuted lines are as long. -/
theorem length_headerSection (hp : fields'.Perm fields) :
    (headerSection line fields').length = (headerSection line fields).length := by
  unfold headerSection
  exact ((hp.cons line).flatMap_right _).length_eq

/-- Lengths that are the same number are so in every order. -/
theorem SameLengths.lengthOf_eq (h : SameLengths fields) (hp : fields'.Perm fields) :
    lengthOf fields' = lengthOf fields := by
  have hnone : lastLine fields' (ascii "content-length") = none ↔
      lastLine fields (ascii "content-length") = none := by
    rw [lastLine_eq_none_iff, lastLine_eq_none_iff]
    exact ⟨fun hh l hl => hh l (hp.mem_iff.mpr hl), fun hh l hl => hh l (hp.mem_iff.mp hl)⟩
  unfold lengthOf
  cases hl : lastLine fields (ascii "content-length") with
  | none => rw [hnone.mpr hl]
  | some l =>
    cases hl' : lastLine fields' (ascii "content-length") with
    | none =>
      rw [hnone.mp hl'] at hl
      cases hl
    | some l' =>
      obtain ⟨hmem, hname⟩ := lastLine_mem hl
      obtain ⟨hmem', hname'⟩ := lastLine_mem hl'
      exact congrArg HeaderValue.size (h l' (hp.mem_iff.mp hmem') l hmem hname' hname)

/-- **Another length can be made the last one**: two lines are exchanged, and every empty line
stays where it is. -/
theorem exists_perm_lengthOf_ne (h : ¬ SameLengths fields) :
    ∃ fields', fields'.Perm fields ∧ fields'.map List.isEmpty = fields.map List.isEmpty ∧
      lengthOf fields' ≠ lengthOf fields := by
  have hsome : ∃ x, lastLine fields (ascii "content-length") = some x := by
    refine Option.ne_none_iff_exists'.mp fun hnone => h fun l hl _ _ hname => ?_
    exact absurd hname (lastLine_eq_none_iff.mp hnone l hl)
  -- `x` is the line that counts, and `y` one with another length in front of it
  obtain ⟨x, hx⟩ := hsome
  have hxname : HasName (ascii "content-length") x := (lastLine_mem hx).2
  obtain ⟨y, hy, hyname, hne⟩ : ∃ y ∈ fields, HasName (ascii "content-length") y ∧
      digitsValue (lineValue y) ≠ digitsValue (lineValue x) := by
    by_contra hall
    push Not at hall
    exact h fun l hl l' hl' hname hname' => (hall l hl hname).trans (hall l' hl' hname').symm
  have hempty : ∀ {l : Bytes}, HasName (ascii "content-length") l → l.isEmpty = false := by
    intro l hl
    cases l with
    | nil => exact absurd hl.1 List.not_mem_nil
    | cons b l => rfl
  obtain ⟨A, C, rfl, -, hC⟩ := lastLine_eq_some_iff.mp hx
  have hyA : y ∈ A := by
    rcases List.mem_append.mp hy with hy | hy
    · exact hy
    · rcases List.mem_cons.mp hy with rfl | hy
      · exact absurd rfl hne
      · exact absurd hyname (hC y hy)
  obtain ⟨A, B, rfl⟩ := List.append_of_mem hyA
  refine ⟨A ++ x :: B ++ y :: C, ?_, ?_, ?_⟩
  · simp only [List.append_assoc, List.cons_append]
    refine List.Perm.append_left A ?_
    calc (x :: (B ++ y :: C)).Perm (x :: y :: (B ++ C)) := .cons x List.perm_middle
      _ |>.Perm (y :: x :: (B ++ C)) := .swap y x _
      _ |>.Perm (y :: (B ++ x :: C)) := .cons y List.perm_middle.symm
  · simp [hempty hxname, hempty hyname]
  · have hlast : lastLine (A ++ x :: B ++ y :: C) (ascii "content-length") = some y :=
      lastLine_eq_some_iff.mpr ⟨A ++ x :: B, C, rfl, hyname, hC⟩
    unfold lengthOf
    rw [hx, hlast]
    exact fun heq => hne (HeaderValue.size.inj heq)

/-- **What a permutation of the header lines does.**  The section is accepted in every order, and
its length is that of the last line with one.  The length does not depend on the order exactly
when the lengths are the same number. -/
theorem reordered (h : Grammar buf line fields method target version) (c : RequestClass) :
    (∀ fields', fields'.Perm fields →
      ((fresh c).parseRequestHeader (headerSection line fields')).errorCode = .none ∧
      ((fresh c).parseRequestHeader (headerSection line fields')).getHeaderValue
        (ascii "Content-Length") = lengthOf fields') ∧
    (SameLengths fields → ∀ fields', fields'.Perm fields →
      ((fresh c).parseRequestHeader (headerSection line fields')).getHeaderValue
        (ascii "Content-Length") =
          ((fresh c).parseRequestHeader buf).getHeaderValue (ascii "Content-Length") ∧
      bodyBytes (headerSection line fields') = bodyBytes buf) ∧
    (¬ SameLengths fields → ∃ fields', fields'.Perm fields ∧
      fields'.map List.isEmpty = fields.map List.isEmpty ∧
      ((fresh c).parseRequestHeader (headerSection line fields')).getHeaderValue
        (ascii "Content-Length") ≠
          ((fresh c).parseRequestHeader buf).getHeaderValue (ascii "Content-Length") ∧
      (buf.length ≤ maxHttpHdrSize → bodyBytes (headerSection line fields') ≠ bodyBytes buf)) := by
  have hlen : ∀ fields', fields'.Perm fields →
      (headerSection line fields').length = buf.length := by
    intro fields' hp
    rw [h.text]
    exact length_headerSection hp
  refine ⟨fun fields' hp => ⟨(h.perm hp).errorCode c, (h.perm hp).contentLength c⟩, ?_, ?_⟩
  · intro hsame fields' hp
    rw [(h.perm hp).contentLength, h.contentLength, (h.perm hp).bodyBytes_eq, h.bodyBytes_eq,
      hlen fields' hp, hsame.lengthOf_eq hp]
    exact ⟨rfl, rfl⟩
  · intro hnot
    obtain ⟨fields', hp, hempty, hne⟩ := exists_perm_lengthOf_ne hnot
    refine ⟨fields', hp, hempty, ?_, fun hle => ?_⟩
    · rw [(h.perm hp).contentLength, h.contentLength]
      exact hne
    · -- a section with a length has a method that has a body
      have hbody : methodHasBody method = true := by
        by_contra hb
        refine hnot fun l hl _ _ hname => ?_
        exact absurd (h.length l hl hname).1 hb
      rw [(h.perm hp).bodyBytes_eq, h.bodyBytes_eq, hlen fields' hp, if_pos ⟨hle, hbody⟩,
        if_pos ⟨hle, hbody⟩]
      exact fun heq => hne (lengthOf_eq_of_asSizeT heq)

end

/-- A POST request with two lengths. -/
def twoLengths : List Bytes := [ascii "Content-Length: 5", ascii "content-length: 6", []]

theorem grammar_twoLengths : Grammar (headerSection (ascii "POST / HTTP/1.1") twoLengths)
    (ascii "POST / HTTP/1.1") twoLengths (ascii "POST") (ascii "/") (ascii "HTTP/1.1") where
  text := rfl
  unbroken := by decide
  requestLine := ⟨by decide, by decide, by decide, by decide, by decide, by decide⟩
  colon := by decide
  length := by decide +kernel
  present := by decide

/-- The two lengths differ, so the order of the lines matters. -/
theorem reordered_two : ∃ fields', fields'.Perm twoLengths ∧
    bodyBytes (headerSection (ascii "POST / HTTP/1.1") fields') ≠
      bodyBytes (headerSection (ascii "POST / HTTP/1.1") twoLengths) := by
  have hnot : ¬ SameLengths twoLengths := fun h =>
    absurd (h (ascii "Content-Length: 5") (by decide) (ascii "content-length: 6") (by decide)
      (by decide) (by decide)) (by decide)
  obtain ⟨fields', hp, -, -, hne⟩ := (reordered grammar_twoLengths .post).2.2 hnot
  exact ⟨fields', hp, hne (by decide)⟩

/-- **A section with two lengths is accepted**, and its length depends on the order. -/
theorem order_matters : ¬ ∀ (line : Bytes) (fields fields' : List Bytes) (c : RequestClass),
    ((fresh c).parseRequestHeader (headerSection line fields)).errorCode = .none →
      fields'.Perm fields →
      ((fresh c).parseRequestHeader (headerSection line fields')).errorCode = .none ∧
      ((fresh c).parseRequestHeader (headerSection line fields')).getHeaderValue
        (ascii "Content-Length") =
          ((fresh c).parseRequestHeader (headerSection line fields)).getHeaderValue
            (ascii "Content-Length") := by
  intro h
  have hg := grammar_twoLengths
  have hp : [ascii "content-length: 6", ascii "Content-Length: 5", []].Perm twoLengths :=
    .swap _ _ _
  have heq := (h _ _ _ .post (hg.errorCode .post) hp).2
  rw [(hg.perm hp).contentLength, hg.contentLength] at heq
  exact absurd heq (by decide)

end SrvAsync
