import SrvAsync.Base.Window
import SrvAsync.Http.SendRecv

/-!
# The reference decoding of a byte stream

What the requests in a byte stream are, whatever the reads that bring it: the
shortest prefix that ends in an empty line is the header section, a valid request of
a method with a body takes exactly as many of the next bytes as its Content-Length
says, and the decoding goes on behind a request that keeps the connection.  It knows
no buffer but its size, no cursors and no reads.

## Main definitions

* `cutHeader`, `cutBody` — the first header section, the rest of a body.
* `decodeOne` — the first request of a stream.
* `decode` — **the reference decoding**.

## Main results

* `decode_eq` — a decoding is the header section, and what follows it.
* `cutHeader_append`, `cutHeader_of_find_eq_zero` — a part of the stream that has the end
  of a header section in it decides; one that fills the buffer and has none does too.
* `decodeBody_append` — the body may come in pieces.
-/

namespace SrvAsync

open Http

/-! ### The decoding -/

/-- The first header section of a stream, when it is not longer than a buffer of this
size, and what is behind it. -/
def cutHeader (size : ℕ) (S : Bytes) : Option (Bytes × Bytes) :=
  match List.firstInfix? headersEnd S with
  | none => none
  | some pos =>
    let h := pos + headersEnd.length
    if size < h then none else some (S.take h, S.drop h)

/-- The next `missing` bytes go into the body, if there are as many. -/
def cutBody (req : HttpRequestMsg) (missing : ℕ) (S : Bytes) : Option (HttpRequestMsg × Bytes) :=
  if S.length < missing then none else some (req.appendBody (S.take missing), S.drop missing)

/-- The first request of a stream, and what is behind it. -/
def decodeOne (size : ℕ) (S : Bytes) : Option (HttpRequestMsg × Bytes) :=
  match cutHeader size S with
  | none => none
  | some (hdr, rest) =>
    if wantsBody hdr then
      match ((ofHeader hdr).getHeaderValue (ascii "Content-Length")).asSizeT with
      | none => none
      | some bodyLen => cutBody (ofHeader hdr) bodyLen rest
    else some (ofHeader hdr, rest)

theorem length_of_cutHeader {size : ℕ} {S hdr rest : Bytes} (h : cutHeader size S = some (hdr, rest)) :
    rest.length < S.length := by
  unfold cutHeader at h
  split at h
  · cases h
  · next pos hpos =>
    simp only at h
    split at h
    · cases h
    · obtain ⟨-, rfl⟩ := Prod.mk.inj (Option.some.inj h)
      have hle := List.firstInfix?_add_length_le headersEnd_ne_nil hpos
      have hlen : headersEnd.length = 4 := rfl
      rw [List.length_drop]
      omega

theorem length_of_cutBody {req req' : HttpRequestMsg} {missing : ℕ} {S rest : Bytes}
    (h : cutBody req missing S = some (req', rest)) : rest.length ≤ S.length := by
  unfold cutBody at h
  split at h
  · cases h
  · obtain ⟨-, rfl⟩ := Prod.mk.inj (Option.some.inj h)
    rw [List.length_drop]
    omega

/-- A request takes bytes from the stream. -/
theorem length_of_decodeOne {size : ℕ} {S rest : Bytes} {req : HttpRequestMsg}
    (h : decodeOne size S = some (req, rest)) : rest.length < S.length := by
  unfold decodeOne at h
  split at h
  · cases h
  · next hdr rest' hcut =>
    have hlt := length_of_cutHeader hcut
    split at h
    · split at h
      · cases h
      · exact (length_of_cutBody h).trans_lt hlt
    · obtain ⟨-, rfl⟩ := Prod.mk.inj (Option.some.inj h)
      exact hlt

/-- Is another request decoded behind this one?  Not behind a request in error, and not
behind one that does not want to keep the connection. -/
def GoesOn (req : HttpRequestMsg) : Prop := req.isOk = true ∧ req.wantKeepAlive = some true

instance (req : HttpRequestMsg) : Decidable (GoesOn req) :=
  inferInstanceAs (Decidable (req.isOk = true ∧ req.wantKeepAlive = some true))

/-- **The reference decoding of a byte stream.** -/
def decode (size : ℕ) (S : Bytes) : List HttpRequestMsg :=
  match _h : decodeOne size S with
  | none => []
  | some (req, rest) => req :: if GoesOn req then decode size rest else []
termination_by S.length
decreasing_by exact length_of_decodeOne _h

/-- The decoding from a request on that was decoded already. -/
def decodeAfter (size : ℕ) (req : HttpRequestMsg) (rest : Bytes) : List HttpRequestMsg :=
  req :: if GoesOn req then decode size rest else []

/-- The decoding inside a body. -/
def decodeBody (size : ℕ) (req : HttpRequestMsg) (missing : ℕ) (S : Bytes) : List HttpRequestMsg :=
  match cutBody req missing S with
  | none => []
  | some (req, rest) => decodeAfter size req rest

/-- The decoding behind a header section. -/
def decodeHeader (size : ℕ) (hdr rest : Bytes) : List HttpRequestMsg :=
  if wantsBody hdr then
    match ((ofHeader hdr).getHeaderValue (ascii "Content-Length")).asSizeT with
    | none => []
    | some bodyLen => decodeBody size (ofHeader hdr) bodyLen rest
  else decodeAfter size (ofHeader hdr) rest

/-- A decoding is the first request, and what follows it. -/
theorem decode_eq_decodeOne (size : ℕ) (S : Bytes) : decode size S =
    match decodeOne size S with
    | none => []
    | some (req, rest) => decodeAfter size req rest := by
  rw [decode]
  unfold decodeAfter
  split <;> next hone => simp only [hone]

/-- **A decoding is the header section, and what follows it.** -/
theorem decode_eq (size : ℕ) (S : Bytes) : decode size S =
    match cutHeader size S with
    | none => []
    | some (hdr, rest) => decodeHeader size hdr rest := by
  rw [decode_eq_decodeOne]
  unfold decodeOne decodeHeader decodeBody
  cases cutHeader size S with
  | none => rfl
  | some cut =>
    simp only
    by_cases hbody : wantsBody cut.1 = true
    · rw [if_pos hbody, if_pos hbody]
      cases ((ofHeader cut.1).getHeaderValue (ascii "Content-Length")).asSizeT <;> rfl
    · rw [if_neg hbody, if_neg hbody]

/-! ### Where a request stops the decoding -/

/-- A request in error does not want to keep the connection. -/
theorem goesOn_iff {req : HttpRequestMsg} : GoesOn req ↔ req.wantKeepAlive = some true := by
  constructor
  · exact And.right
  · intro hk
    refine ⟨?_, hk⟩
    by_contra he
    have herr : req.isError = true := by simpa [HttpRequestMsg.isOk] using he
    rw [HttpRequestMsg.wantKeepAlive_of_isError herr] at hk
    cases hk

/-! ### A header section in a part of the stream -/

/-- An end that was found in a part of a stream is the end in the stream. -/
theorem find_of_prefix {W S : Bytes} (hp : W <+: S) (h0 : findHttpHeadersEnd W ≠ 0) :
    findHttpHeadersEnd S = findHttpHeadersEnd W := by
  obtain ⟨pos, hpos⟩ := Option.ne_none_iff_exists'.mp (mt findHttpHeadersEnd_eq_zero_iff.mpr h0)
  unfold findHttpHeadersEnd
  rw [hpos, List.firstInfix?_of_prefix headersEnd_ne_nil hp hpos]

/-- A part of a stream that has no end in it, ends before the end in the stream. -/
theorem length_lt_of_find_eq_zero {W S : Bytes} (hp : W <+: S) (h0 : findHttpHeadersEnd W = 0)
    (hS : findHttpHeadersEnd S ≠ 0) : W.length < findHttpHeadersEnd S := by
  obtain ⟨T, rfl⟩ := hp
  obtain ⟨pos, hpos⟩ := Option.ne_none_iff_exists'.mp (mt findHttpHeadersEnd_eq_zero_iff.mpr hS)
  have hlt := List.length_lt_of_firstInfix?_append (findHttpHeadersEnd_eq_zero_iff.mp h0) hpos
  unfold findHttpHeadersEnd
  rw [hpos]
  exact hlt

/-- The first end of a stream is not behind any other. -/
theorem find_le_of_prefix_drop {S : Bytes} {pos : ℕ} (h : headersEnd <+: S.drop pos) :
    findHttpHeadersEnd S ≤ pos + headersEnd.length := by
  unfold findHttpHeadersEnd
  split
  · next p hp =>
    have hmin := (List.firstInfix?_eq_some_iff.mp hp).2
    by_contra hlt
    exact hmin pos (by omega) h
  · exact Nat.zero_le _

/-- Bytes in front of a stream bring no end behind its first one. -/
theorem find_append_le {L S : Bytes} (h0 : findHttpHeadersEnd S ≠ 0) :
    findHttpHeadersEnd (L ++ S) ≤ L.length + findHttpHeadersEnd S := by
  obtain ⟨pos, hpos⟩ := Option.ne_none_iff_exists'.mp (mt findHttpHeadersEnd_eq_zero_iff.mpr h0)
  have hat : headersEnd <+: (L ++ S).drop (L.length + pos) := by
    rw [List.drop_length_add_append]
    exact (List.firstInfix?_eq_some_iff.mp hpos).1
  have hle := find_le_of_prefix_drop hat
  have hfind : findHttpHeadersEnd S = pos + headersEnd.length := by
    unfold findHttpHeadersEnd
    rw [hpos]
  omega

/-- **The end of a header section in a part of the stream decides.** -/
theorem cutHeader_append {size : ℕ} {W : Bytes} (h0 : findHttpHeadersEnd W ≠ 0)
    (hle : findHttpHeadersEnd W ≤ size) (T : Bytes) : cutHeader size (W ++ T) =
      some (W.take (findHttpHeadersEnd W), W.drop (findHttpHeadersEnd W) ++ T) := by
  have hlen := findHttpHeadersEnd_le W
  obtain ⟨pos, hpos⟩ := Option.ne_none_iff_exists'.mp (mt findHttpHeadersEnd_eq_zero_iff.mpr h0)
  have hfind : findHttpHeadersEnd W = pos + headersEnd.length := by
    unfold findHttpHeadersEnd
    rw [hpos]
  rw [hfind] at hle hlen ⊢
  unfold cutHeader
  rw [List.firstInfix?_append headersEnd_ne_nil hpos T]
  simp only
  rw [if_neg (by omega), List.take_append_of_le_length hlen, List.drop_append_of_le_length hlen]

/-- **A part of the stream that fills the buffer and has no end of a header section
decides.** -/
theorem cutHeader_of_find_eq_zero {size : ℕ} {W : Bytes} (h0 : findHttpHeadersEnd W = 0)
    (hle : size ≤ W.length) (T : Bytes) : cutHeader size (W ++ T) = none := by
  unfold cutHeader
  split
  · rfl
  · next pos hpos =>
    have hlt := List.length_lt_of_firstInfix?_append (findHttpHeadersEnd_eq_zero_iff.mp h0) hpos
    simp only
    rw [if_pos (by omega)]

/-- Nothing is decoded when every header section in the stream is too long. -/
theorem decode_of_lt {size : ℕ} {S : Bytes}
    (h : ∀ pos, headersEnd <+: S.drop pos → size < pos + headersEnd.length) : decode size S = [] := by
  have hcut : cutHeader size S = none := by
    unfold cutHeader
    split
    · rfl
    · next pos hpos => exact if_pos (h pos (List.firstInfix?_eq_some_iff.mp hpos).1)
  rw [decode_eq, hcut]

/-- Nothing is decoded in a stream without the end of a header section. -/
theorem decode_of_find_eq_zero {size : ℕ} {W : Bytes} (h0 : findHttpHeadersEnd W = 0) :
    decode size W = [] := by
  rw [decode_eq]
  unfold cutHeader
  rw [findHttpHeadersEnd_eq_zero_iff.mp h0]

/-! ### A body in pieces -/

theorem appendBody_appendBody (req : HttpRequestMsg) (bs cs : Bytes) :
    (req.appendBody bs).appendBody cs = req.appendBody (bs ++ cs) := by
  unfold HttpRequestMsg.appendBody HttpMsg.appendBody
  simp only [List.append_assoc]

theorem appendBody_nil (req : HttpRequestMsg) : req.appendBody [] = req := by
  unfold HttpRequestMsg.appendBody HttpMsg.appendBody
  simp only [List.append_nil]

/-- **The first piece of a body goes into the body**, when it is not longer than what is
missing. -/
theorem decodeBody_append (size missing : ℕ) (req : HttpRequestMsg) {W : Bytes}
    (hle : W.length ≤ missing) (T : Bytes) : decodeBody size req missing (W ++ T) =
      decodeBody size (req.appendBody W) (missing - W.length) T := by
  unfold decodeBody cutBody
  by_cases hlt : T.length < missing - W.length
  · rw [if_pos hlt, if_pos (by rw [List.length_append]; omega)]
  · rw [if_neg hlt, if_neg (by rw [List.length_append]; omega), appendBody_appendBody,
      List.take_append, List.drop_append, List.take_of_length_le hle, List.drop_of_length_le hle,
      List.nil_append]

/-- A body that lies in the first part of the stream is taken from there. -/
theorem decodeBody_of_le {size missing : ℕ} (req : HttpRequestMsg) {W : Bytes}
    (hle : missing ≤ W.length) (T : Bytes) : decodeBody size req missing (W ++ T) =
      decodeAfter size (req.appendBody (W.take missing)) (W.drop missing ++ T) := by
  unfold decodeBody cutBody
  rw [if_neg (by rw [List.length_append]; omega), List.take_append_of_le_length hle,
    List.drop_append_of_le_length hle]

/-- A body that is not complete gives no request. -/
theorem decodeBody_of_lt {size missing : ℕ} (req : HttpRequestMsg) {W : Bytes}
    (hlt : W.length < missing) : decodeBody size req missing W = [] := by
  unfold decodeBody cutBody
  rw [if_pos hlt]

end SrvAsync
