import SrvAsync.Http.Header
import SrvAsync.Http.SendRecv

/-!
# The requests of recv_http_msg

`recv_http_msg` looks at the method of a request three times: `get_method_token` finds it
in the whole header section and `Create` chooses the class of the object by it,
`MethodHasBody` is asked about it, and `ParseRequestHeader` finds it again in the first
line.  On a request that is accepted the three agree, so the object has the class of its
method, and its headers have the types the code asks them for.

## Main definitions

* `LookupsAgree hdr` — the three lookups agree, and no accessor throws.

## Main results

* `lookupsAgree_of_isOk` — they do on every request that is accepted.
* `wantKeepAlive_received` — `WantKeepAlive` is defined on every request that is received.
-/

namespace SrvAsync

open Http HttpRequestMsg

/-! ### The method token -/

/-- A method that is supported has a class of its own. -/
theorem creator_ne_base {method : Bytes} {info : MethodInfo}
    (h : methodsInfo.lookup method = some info) : info.creator ≠ .base := by
  have hall : ∀ e ∈ methodsInfo, e.2.creator ≠ .base := by decide
  have hmem : (method, info) ∈ methodsInfo := by
    obtain ⟨l₁, l₂, hl, -⟩ := List.lookup_eq_some_iff.mp h
    rw [hl]
    exact List.mem_append_right l₁ List.mem_cons_self
  exact hall _ hmem

/-- What `Create` makes of a method that is supported. -/
theorem create_of_lookup {method : Bytes} {info : MethodInfo}
    (h : methodsInfo.lookup method = some info) : create method = { cls := info.creator } := by
  unfold create
  rw [h]

/-- A request that is OK was created for a supported method. -/
theorem lookup_of_isOk_create {method : Bytes} (h : (create method).isOk = true) :
    ∃ info, methodsInfo.lookup method = some info := by
  unfold create at h
  split at h
  · next info hinfo => exact ⟨info, hinfo⟩
  · cases h

/-- An accepted request was created without an error, and parsed. -/
theorem ofHeader_of_isOk {hdr : Bytes} (h : (ofHeader hdr).isOk = true) :
    hdr.length ≤ maxHttpHdrSize ∧ (create (getMethodToken hdr)).isOk = true ∧
      ofHeader hdr = (create (getMethodToken hdr)).parseRequestHeader hdr := by
  unfold ofHeader at h ⊢
  split at h
  · cases h
  · next hlen =>
    rw [if_neg hlen]
    refine ⟨by omega, ?_⟩
    simp only at h ⊢
    split at h
    · next hok => exact ⟨hok, if_pos hok⟩
    · next hnot => exact absurd h hnot

/-- A request that is too long is in error. -/
theorem ofHeader_of_lt {hdr : Bytes} (h : maxHttpHdrSize < hdr.length) :
    ofHeader hdr = ofError .headerFieldsTooLarge := if_pos h

/-- The first space of a text that starts with a line which has one. -/
theorem getMethodToken_eq {buf rest method tail : Bytes} (hb : buf = method ++ SP :: tail ++ rest)
    (hm : SP ∉ method) : getMethodToken buf = method := by
  have hfind : findByte SP buf = some method.length :=
    findByte_eq_some_iff.mpr ⟨method, tail ++ rest, by rw [hb, List.append_assoc]; rfl, hm, rfl⟩
  unfold getMethodToken
  rw [hfind, hb, List.append_assoc]
  simp

/-- The first line stands at the front. -/
theorem exists_append_of_lines {buf line rest : Bytes} {fields : List Bytes}
    (h : lines buf = (line :: fields, rest)) : ∃ t, buf = line ++ t := by
  have hjoin := List.flatMap_splitEnds crlf_ne_nil buf
  change (lines buf).1.flatMap (· ++ crlf) ++ (lines buf).2 = buf at hjoin
  rw [h, List.flatMap_cons, List.append_assoc, List.append_assoc] at hjoin
  exact ⟨_, hjoin.symm⟩

/-- The method in the first line is the first token of the whole section. -/
theorem getMethodToken_of_requestLine {buf line rest method target version : Bytes}
    {fields : List Bytes} (hl : lines buf = (line :: fields, rest))
    (h : RequestLine line method target version) : getMethodToken buf = method := by
  obtain ⟨t, ht⟩ := exists_append_of_lines hl
  rw [h.eq] at ht
  exact getMethodToken_eq ht h.method_sp

/-! ### The three lookups -/

/-- **The three lookups of the method agree, and no accessor throws.** -/
structure LookupsAgree (hdr : Bytes) : Prop where
  /-- The method parsed from the first line. -/
  parsed : ∃ line fields target version, lines hdr = (line :: fields, []) ∧
    RequestLine line (ofHeader hdr).method target version
  /-- The token in the whole section is the same. -/
  token : getMethodToken hdr = (ofHeader hdr).method
  /-- It chose the class of the object, and it decides whether a body is read. -/
  chosen : ∃ info, methodsInfo.lookup (getMethodToken hdr) = some info ∧
    (ofHeader hdr).cls = info.creator ∧ wantsBody hdr = info.hasBody
  /-- The fallback of the base class is not reached. -/
  derived : (ofHeader hdr).cls ≠ .base
  /-- There is a length where one is asked for. -/
  length : wantsBody hdr = true → ∃ n, n ≤ maxHttpBodySize ∧
    (ofHeader hdr).getHeaderValue (ascii "Content-Length") = .size n
  /-- Every other header is a string. -/
  strings : ∀ k v, k ≠ ascii "content-length" → (ofHeader hdr).headers.lookup k = some v →
    ∃ s, v = .string s
  /-- So the value of `Connection` is one, also when there is none. -/
  connection : ∃ s, ((ofHeader hdr).getHeaderValue (ascii "Connection")).asString = some s

/-- `AsString` on `Connection` is defined on a typed message. -/
theorem Http.HttpMsg.Typed.asString_connection {m : HttpMsg} (h : m.Typed) :
    ∃ s, (m.getHeaderValue (ascii "Connection")).asString = some s := by
  have hne : toLower (ascii "Connection") ≠ ascii "content-length" := by decide
  unfold HttpMsg.getHeaderValue
  cases hv : m.headers.lookup (toLower (ascii "Connection")) with
  | none => exact ⟨[], rfl⟩
  | some v =>
    obtain ⟨s, rfl⟩ := h.field _ v hne hv
    exact ⟨s, rfl⟩

/-- `AsSizeT` on `Content-Length` is defined on a typed message that has one. -/
theorem Http.HttpMsg.Typed.contentLength {m : HttpMsg} (h : m.Typed)
    (hh : m.hasHeader (ascii "content-length") = true) :
    ∃ n, n ≤ maxHttpBodySize ∧ m.getHeaderValue (ascii "Content-Length") = .size n := by
  have hlow : toLower (ascii "Content-Length") = ascii "content-length" := by decide
  have hlow' : toLower (ascii "content-length") = ascii "content-length" := by decide
  unfold HttpMsg.hasHeader at hh
  rw [hlow'] at hh
  obtain ⟨v, hv⟩ := Option.isSome_iff_exists.mp hh
  obtain ⟨n, hle, rfl⟩ := h.length v hv
  refine ⟨n, hle, ?_⟩
  unfold HttpMsg.getHeaderValue
  rw [hlow, hv]
  rfl

theorem lookupsAgree_of_isOk {hdr : Bytes} (h : (ofHeader hdr).isOk = true) : LookupsAgree hdr := by
  obtain ⟨hlen, hcreate, heq⟩ := ofHeader_of_isOk h
  obtain ⟨info, hinfo⟩ := lookup_of_isOk_create hcreate
  have hempty : (create (getMethodToken hdr)).headers = ∅ := by
    rw [create_of_lookup hinfo]
  have hcls : (create (getMethodToken hdr)).cls = info.creator := by
    rw [create_of_lookup hinfo]
  have hparse := h
  rw [heq] at hparse
  obtain ⟨line, fields, method, target, version, hp⟩ := parsed_of_isOk hcreate hempty hparse
  obtain ⟨htyped, hclass, hlength⟩ := typed_parseRequestHeader hcreate hempty hparse
  rw [← heq] at htyped hclass hlength
  have hmethod : (ofHeader hdr).method = method := by
    rw [heq]
    exact (foldlM_parseLine_ok hp.fold).1.method
  -- the token that chose the class is the method of the request line
  have htoken : getMethodToken hdr = (ofHeader hdr).method := by
    rw [hmethod]
    exact getMethodToken_of_requestLine hp.lines hp.requestLine
  have hwants : wantsBody hdr = methodHasBody (getMethodToken hdr) := by
    unfold wantsBody
    rw [h, decide_eq_true hlen]
    rfl
  have hhas : methodHasBody (getMethodToken hdr) = info.hasBody := by
    unfold methodHasBody
    rw [hinfo]
  constructor
  · exact ⟨line, fields, target, version, hp.lines, hmethod ▸ hp.requestLine⟩
  · exact htoken
  · exact ⟨info, hinfo, hclass.trans hcls, hwants.trans hhas⟩
  · rw [hclass, hcls]
    exact creator_ne_base hinfo
  · intro hw
    rw [hwants, htoken] at hw
    exact htyped.contentLength (hlength hw)
  · exact htyped.field
  · exact htyped.asString_connection

/-! ### What is received -/

/-- `WantKeepAlive` throws on no request that `recv_http_msg` builds. -/
theorem wantKeepAlive_ofHeader (hdr : Bytes) : ∃ k, (ofHeader hdr).wantKeepAlive = some k := by
  unfold wantKeepAlive
  split
  · exact ⟨false, rfl⟩
  · next he =>
    have hok : (ofHeader hdr).isOk = true := by
      unfold HttpRequestMsg.isOk
      rw [Bool.eq_false_iff.mpr he]
      rfl
    simp only
    split
    · obtain ⟨s, hs⟩ := (lookupsAgree_of_isOk hok).connection
      rw [hs]
      exact ⟨_, rfl⟩
    · exact ⟨_, rfl⟩

/-! ### The body -/

/-- No line touches the body. -/
theorem HttpRequestMsg.body_parseField {r r' : HttpRequestMsg} {line : Bytes}
    (h : r.parseField line = .ok r' ∨ r.parseField line = .error r') : r'.body = r.body := by
  unfold parseField at h
  simp only at h
  repeat' split at h
  all_goals
    rcases h with h | h <;> cases h
    rfl

theorem HttpRequestMsg.body_parseFields (fuel : ℕ) (r : HttpRequestMsg) (p : Bytes) :
    (parseFields fuel r p).body = r.body := by
  fun_induction parseFields fuel r p with
  | case1 => rfl
  | case2 r =>
    unfold checkLength
    split <;> rfl
  | case3 => rfl
  | case4 _ _ _ _ _ _ _ _ _ ih => exact ih
  | case5 _ _ _ _ _ _ _ _ _ h => exact body_parseField (.inr h)
  | case6 _ _ _ _ _ _ _ _ _ _ h ih => exact ih.trans (body_parseField (.inl h))

theorem HttpRequestMsg.body_parseRequestHeader (r : HttpRequestMsg) (buf : Bytes) :
    (r.parseRequestHeader buf).body = r.body := by
  unfold parseRequestHeader
  split
  · rfl
  · simp only
    split
    · split
      · rfl
      · split
        · rfl
        · exact body_parseFields _ _ _
    · rfl

/-- A header section gives no part of the body. -/
theorem body_ofHeader (hdr : Bytes) : (ofHeader hdr).body = [] := by
  unfold ofHeader
  split
  · rfl
  · have hcreate : (create (getMethodToken hdr)).body = [] := by
      unfold create
      split <;> rfl
    simp only
    split
    · exact (HttpRequestMsg.body_parseRequestHeader _ hdr).trans hcreate
    · exact hcreate

/-- A request that `recv_http_msg` returns: made of a header section, with what it received of
the body. -/
def Received (r : HttpRequestMsg) : Prop := ∃ hdr body, r = (ofHeader hdr).appendBody body

theorem Received.appendBody {r : HttpRequestMsg} (h : Received r) (chunk : Bytes) :
    Received (r.appendBody chunk) := by
  obtain ⟨hdr, body, rfl⟩ := h
  refine ⟨hdr, body ++ chunk, ?_⟩
  unfold HttpRequestMsg.appendBody HttpMsg.appendBody
  simp only [List.append_assoc]

theorem received_ofHeader (hdr : Bytes) : Received (ofHeader hdr) := by
  refine ⟨hdr, [], ?_⟩
  unfold HttpRequestMsg.appendBody HttpMsg.appendBody
  simp only [List.append_nil]

/-- **`WantKeepAlive` is defined on every request that is received**, and so is its response. -/
theorem Received.wantKeepAlive {r : HttpRequestMsg} (h : Received r) :
    ∃ k, r.wantKeepAlive = some k := by
  obtain ⟨hdr, body, rfl⟩ := h
  exact wantKeepAlive_ofHeader hdr

/-- A request that is received is in error, or has the class of a method. -/
theorem Received.cls_ne_base {r : HttpRequestMsg} (h : Received r) (hok : r.isOk = true) :
    r.cls ≠ .base := by
  obtain ⟨hdr, body, rfl⟩ := h
  exact (lookupsAgree_of_isOk hok).derived

end SrvAsync
