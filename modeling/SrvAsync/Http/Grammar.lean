import SrvAsync.Http.Fields
import Mathlib.Data.List.Chain

/-!
# The grammar of a header section

`ParseRequestHeader` against a grammar that says nothing of offsets, views or rounds: a
request line and header lines, each ended by CRLF.

The length of a body has three outcomes: a number that is allowed, one that is too large,
and no number at all.  `std::from_chars` has a fourth, a number that does not fit a
`size_t`, and the parser takes it for no number.

## Main definitions

* `Unbroken` — a text without a CRLF.
* `Grammar` — the header sections that are accepted.
* `LoopReturns` — the header loop, round by round.
* `OneLength`, `Classified` — one content length, and what is made of it.

## Main results

* `lines_eq_iff` — the lines of a text.
* `parse_eq` — what the parser makes of a text with a request line.
* `parse_exact` — **the parser accepts its grammar, and stores what the text says**.
* `length_classified_iff` — **a length is classified unless it does not fit a `size_t`**.
-/

namespace SrvAsync

open Http HttpRequestMsg

/-! ### Lines -/

/-- The text stays on its line. -/
def Unbroken (l : Bytes) : Prop := ¬ crlf <:+: l

instance (l : Bytes) : Decidable (Unbroken l) := inferInstanceAs (Decidable (¬ _))

/-- No CR is followed by an LF. -/
theorem unbroken_iff_isChain {l : Bytes} : Unbroken l ↔ l.IsChain fun a b => ¬ (a = CR ∧ b = LF) := by
  rw [List.isChain_iff_forall_rel_of_append_cons_cons]
  constructor
  · rintro h a b s t rfl ⟨rfl, rfl⟩
    exact h ⟨s, t, List.append_assoc _ _ _⟩
  · rintro h ⟨s, t, rfl⟩
    exact h (List.append_assoc _ _ _) ⟨rfl, rfl⟩

/-- Where two texts are joined, a CRLF may come up. -/
theorem unbroken_append_iff {s t : Bytes} : Unbroken (s ++ t) ↔
    Unbroken s ∧ Unbroken t ∧ ¬ (s.getLast? = some CR ∧ t.head? = some LF) := by
  simp only [unbroken_iff_isChain, List.isChain_append]
  refine and_congr_right' (and_congr_right' ⟨?_, ?_⟩)
  · rintro h ⟨hs, ht⟩
    exact h CR hs LF ht ⟨rfl, rfl⟩
  · rintro h x hx y hy ⟨rfl, rfl⟩
    exact h ⟨hx, hy⟩

theorem unbroken_of_not_mem {l : Bytes} (h : CR ∉ l) : Unbroken l :=
  fun hi => h (hi.subset List.mem_cons_self)

/-- Behind a text that stays on its line, the first CRLF is the one at its end. -/
theorem unbroken_iff {l : Bytes} :
    Unbroken l ↔ List.firstInfix? crlf (l ++ crlf) = some l.length := by
  have hlen : crlf.length = 2 := rfl
  constructor
  · intro h
    refine List.firstInfix?_eq_some_iff.mpr ⟨?_, fun m hm hp => ?_⟩
    · rw [List.drop_left]
    · by_cases hin : m + 2 ≤ l.length
      · rw [List.prefix_drop_append_iff (by rw [hlen]; exact hin)] at hp
        exact List.firstInfix?_eq_none_iff.mp
          (List.firstInfix?_eq_none_iff_not_infix.mpr h) m hp
      · -- the CR of the end would have to be an LF
        obtain ⟨b, hb⟩ : ∃ b, l.drop m = [b] := by
          refine List.length_eq_one_iff.mp ?_
          rw [List.length_drop]
          omega
        rw [List.drop_append_of_le_length (by omega), hb] at hp
        have hlf := (List.cons_prefix_cons.mp (List.cons_prefix_cons.mp hp).2).1
        exact absurd hlf (by decide)
  · rintro h ⟨s, t, rfl⟩
    have hfirst := (List.firstInfix?_eq_some_iff.mp h).2 s.length
      (by simp only [List.length_append, hlen]; omega)
    apply hfirst
    rw [List.append_assoc, List.append_assoc, List.drop_left]
    exact List.prefix_append _ _

/-- **The lines of a text**, and what is behind the last of them. -/
theorem lines_eq_iff {buf rest : Bytes} {ls : List Bytes} : lines buf = (ls, rest) ↔
    buf = ls.flatMap (· ++ crlf) ++ rest ∧ (∀ l ∈ ls, Unbroken l) ∧ Unbroken rest := by
  unfold lines
  rw [List.splitEnds_eq_iff, List.firstInfix?_eq_none_iff_not_infix]
  simp only [← unbroken_iff]
  rfl

/-! ### What the parser does -/

/-- A request object that `Create` has just made. -/
def Http.HttpRequestMsg.fresh (c : RequestClass) : HttpRequestMsg := { cls := c }

/-- The object when the header loop has added these lines. -/
def Http.HttpRequestMsg.filled (c : RequestClass) (method target version : Bytes)
    (ls : List Bytes) : HttpRequestMsg :=
  ls.foldl addLine ((fresh c).setLine method target version)

/-- The status a header section is rejected with, behind its request line. -/
def sectionStatus (method : Bytes) (fields : List Bytes) (rest : Bytes) : Option HttpStatus :=
  match badStatus method fields with
  | some status => some status
  | none =>
    if rest ≠ [] then some .badRequest
    else if methodHasBody method = true ∧ lastLine fields (ascii "content-length") = none then
      some .lengthRequired
    else none

section

variable {c : RequestClass} {buf line rest method target version : Bytes} {fields : List Bytes}

theorem sameLine_filled (c : RequestClass) (method target version : Bytes) (ls : List Bytes) :
    SameLine ((fresh c).setLine method target version) (filled c method target version ls) :=
  sameLine_foldl_addLine _ _

/-- The map of the object. -/
theorem lookup_filled {ls : List Bytes} (h : ∀ l ∈ ls, l = [] ∨ 58 ∈ l) (k : Bytes) :
    (filled c method target version ls).headers.lookup k = (lastLine ls k).map storedValue := by
  have hempty : ((fresh c).setLine method target version).headers.lookup k = none := rfl
  unfold filled
  rw [lookup_foldl_addLine h, hempty, Option.or_none]

/-- The check behind the loop. -/
theorem checkLength_filled (h : ∀ l ∈ fields, l = [] ∨ 58 ∈ l) :
    (filled c method target version fields).checkLength =
      if methodHasBody method = true ∧ lastLine fields (ascii "content-length") = none then
        (filled c method target version fields).fail .lengthRequired
      else filled c method target version fields := by
  have hmethod : (filled c method target version fields).method = method :=
    (sameLine_filled c method target version fields).method
  have hlow : toLower (ascii "content-length") = ascii "content-length" := by decide
  unfold checkLength HttpMsg.hasHeader
  rw [hmethod, hlow, lookup_filled h, Option.isSome_map]
  cases methodHasBody method <;> cases lastLine fields (ascii "content-length") <;> rfl

/-- **What the parser makes of a text with a request line**: the lines up to the first one that
is rejected, and a status. -/
theorem parse_eq (c : RequestClass) (hl : lines buf = (line :: fields, rest))
    (hreq : RequestLine line method target version) : (fresh c).parseRequestHeader buf =
      match sectionStatus method fields rest with
      | some status => (filled c method target version (goodLines method fields)).fail status
      | none => filled c method target version (goodLines method fields) := by
  have hmethod : ((fresh c).setLine method target version).method = method := rfl
  rw [parseRequestHeader_of_requestLine hl hreq, foldlM_parseLine_eq, hmethod]
  unfold sectionStatus
  cases hbad : badStatus method fields with
  | some status => rfl
  | none =>
    have hgood := badStatus_eq_none_iff.mp hbad
    have hall : goodLines method fields = fields := by
      refine List.takeWhile_eq_self_iff.mpr fun l hl => ?_
      rw [hgood l hl]
      rfl
    have hcolon : ∀ l ∈ fields, l = [] ∨ 58 ∈ l := fun l hl => colon_of_lineStatus (hgood l hl)
    rw [hall]
    simp only
    change (if rest.isEmpty then (filled c method target version fields).checkLength else _) = _
    by_cases hrest : rest = []
    · rw [if_pos (List.isEmpty_iff.mpr hrest), if_neg (not_not.mpr hrest),
        checkLength_filled hcolon]
      split <;> rfl
    · rw [if_neg (mt List.isEmpty_iff.mp hrest), if_pos hrest]
      rfl

/-- A line is rejected with an error. -/
theorem lineStatus_ne_none {method line : Bytes} {status : HttpStatus}
    (h : lineStatus method line = some status) : status ≠ .none := by
  rintro rfl
  unfold lineStatus at h
  repeat' split at h
  all_goals cases h

/-- A header section is rejected with an error. -/
theorem sectionStatus_ne_none {status : HttpStatus} (h : sectionStatus method fields rest = some status) :
    status ≠ .none := by
  unfold sectionStatus at h
  split at h
  · next hbad =>
    obtain rfl := Option.some.inj h
    obtain ⟨l, -, hl⟩ := List.exists_of_findSome?_eq_some hbad
    exact lineStatus_ne_none hl
  · rintro rfl
    repeat' split at h
    all_goals cases h

/-- The error code of the result. -/
theorem errorCode_parse (c : RequestClass) (hl : lines buf = (line :: fields, rest))
    (hreq : RequestLine line method target version) :
    ((fresh c).parseRequestHeader buf).errorCode =
      (sectionStatus method fields rest).getD .none := by
  rw [parse_eq c hl hreq]
  cases sectionStatus method fields rest with
  | some status => rfl
  | none => exact (sameLine_filled c method target version _).errorCode

/-- What an accepted section is parsed to. -/
theorem parse_of_sectionStatus (c : RequestClass) (hl : lines buf = (line :: fields, rest))
    (hreq : RequestLine line method target version) (hs : sectionStatus method fields rest = none) :
    (fresh c).parseRequestHeader buf = filled c method target version fields := by
  rw [parse_eq c hl hreq, hs]
  unfold sectionStatus at hs
  cases hbad : badStatus method fields with
  | some status =>
    rw [hbad] at hs
    cases hs
  | none =>
    have hall : goodLines method fields = fields := by
      refine List.takeWhile_eq_self_iff.mpr fun l hl => ?_
      rw [badStatus_eq_none_iff.mp hbad l hl]
      rfl
    rw [hall]

end

/-! ### The grammar -/

/-- A line that is not rejected. -/
theorem lineStatus_eq_none_iff {method line : Bytes} : lineStatus method line = none ↔
    line = [] ∨ 58 ∈ line ∧ (lineName line = ascii "content-length" →
      methodHasBody method = true ∧ IsDecimal (lineValue line) ∧
        digitsValue (lineValue line) ≤ maxHttpBodySize) := by
  have hmax : maxHttpBodySize < 2 ^ 64 := by decide
  unfold lineStatus
  by_cases hnil : line = []
  · rw [if_pos hnil]
    exact ⟨fun _ => .inl hnil, fun _ => rfl⟩
  by_cases hcolon : 58 ∈ line
  · rw [if_neg hnil, if_neg (not_not.mpr hcolon)]
    by_cases hname : lineName line = ascii "content-length"
    · rw [if_pos hname]
      simp only [hnil, hcolon, hname, false_or, true_and, true_imp_iff]
      by_cases hle : digitsValue (lineValue line) ≤ maxHttpBodySize
      · have hlt : digitsValue (lineValue line) < 2 ^ 64 := by omega
        rw [if_pos hle]
        by_cases hb : methodHasBody method = true ∧ IsDecimal (lineValue line)
        · rw [if_pos ⟨hb.1, hb.2, hlt⟩]
          exact iff_of_true rfl ⟨hb.1, hb.2, hle⟩
        · rw [if_neg fun hh => hb ⟨hh.1, hh.2.1⟩]
          exact iff_of_false (Option.some_ne_none _) fun hh => hb ⟨hh.1, hh.2.1⟩
      · simp only [hle, if_false, and_false, iff_false]
        split <;> simp
    · rw [if_neg hname]
      exact ⟨fun _ => .inr ⟨hcolon, fun h => absurd h hname⟩, fun _ => rfl⟩
  · rw [if_neg hnil, if_pos hcolon]
    simp [hnil, hcolon]

/-- **The header sections that are accepted.** -/
structure Grammar (buf line : Bytes) (fields : List Bytes) (method target version : Bytes) :
    Prop where
  /-- The text is a request line and header lines, each ended by CRLF. -/
  text : buf = (line :: fields).flatMap (· ++ crlf)
  unbroken : ∀ l ∈ line :: fields, Unbroken l
  /-- The request line is cut at its first and its last space. -/
  requestLine : RequestLine line method target version
  colon : ∀ l ∈ fields, l = [] ∨ 58 ∈ l
  /-- A length stands there only with a method that has a body, and it is allowed. -/
  length : ∀ l ∈ fields, HasName (ascii "content-length") l → methodHasBody method = true ∧
    IsDecimal (lineValue l) ∧ digitsValue (lineValue l) ≤ maxHttpBodySize
  /-- A method that has a body has a length. -/
  present : methodHasBody method = true → ∃ l ∈ fields, HasName (ascii "content-length") l

theorem grammar_iff {buf line : Bytes} {fields : List Bytes} {method target version : Bytes} :
    Grammar buf line fields method target version ↔ lines buf = (line :: fields, []) ∧
      RequestLine line method target version ∧ sectionStatus method fields [] = none := by
  have hlast : lastLine fields (ascii "content-length") = none ↔
      ¬ ∃ l ∈ fields, HasName (ascii "content-length") l := by
    rw [lastLine_eq_none_iff]
    push Not
    rfl
  have hstatus : sectionStatus method fields [] = none ↔
      (∀ l ∈ fields, lineStatus method l = none) ∧
        (methodHasBody method = true → ∃ l ∈ fields, HasName (ascii "content-length") l) := by
    rw [← badStatus_eq_none_iff]
    unfold sectionStatus
    cases badStatus method fields with
    | some status => simp
    | none => simp [hlast]
  rw [hstatus, lines_eq_iff, List.append_nil]
  constructor
  · rintro ⟨htext, hunbroken, hreq, hcolon, hlength, hpresent⟩
    refine ⟨⟨htext, hunbroken, by decide⟩, hreq, fun l hl => lineStatus_eq_none_iff.mpr ?_, hpresent⟩
    rcases hcolon l hl with hnil | hc
    · exact .inl hnil
    · exact .inr ⟨hc, fun hname => hlength l hl ⟨hc, hname⟩⟩
  · rintro ⟨⟨htext, hunbroken, -⟩, hreq, hlines, hpresent⟩
    have hline := fun l hl => lineStatus_eq_none_iff.mp (hlines l hl)
    refine ⟨htext, hunbroken, hreq, fun l hl => (hline l hl).imp_right And.left, ?_, hpresent⟩
    rintro l hl ⟨hc, hname⟩
    rcases hline l hl with rfl | ⟨-, hlen⟩
    · exact absurd hc List.not_mem_nil
    · exact hlen hname

/-! ### The rounds of the header loop -/

/-- **The header loop, round by round**: on this object and this view it returns that object. -/
inductive LoopReturns : HttpRequestMsg → Bytes → HttpRequestMsg → Prop
  /-- The view is empty. -/
  | stop (r : HttpRequestMsg) : LoopReturns r [] r.checkLength
  /-- The view has no end of a line. -/
  | noEnd {r : HttpRequestMsg} {p : Bytes} (hp : p ≠ []) (h : List.firstInfix? crlf p = none) :
    LoopReturns r p (r.fail .badRequest)
  /-- The line is rejected. -/
  | reject {r r' : HttpRequestMsg} {p : Bytes} {lineEnd : ℕ}
    (h : List.firstInfix? crlf p = some lineEnd) (hl : r.parseLine (p.take lineEnd) = .error r') :
    LoopReturns r p r'
  /-- The line and its end are removed from the view. -/
  | next {r r₁ r' : HttpRequestMsg} {p : Bytes} {lineEnd : ℕ}
    (h : List.firstInfix? crlf p = some lineEnd) (hl : r.parseLine (p.take lineEnd) = .ok r₁)
    (hr : LoopReturns r₁ (p.drop (min (lineEnd + crlf.length) p.length)) r') : LoopReturns r p r'

/-- **The header loop ends**, and the rounds that `parseFields` is given are enough. -/
theorem loopReturns_parseFields : ∀ (fuel : ℕ) (r : HttpRequestMsg) (p : Bytes), p.length < fuel →
    LoopReturns r p (parseFields fuel r p) := by
  intro fuel
  induction fuel with
  | zero => exact fun r p h => absurd h (Nat.not_lt_zero _)
  | succ fuel ih =>
    intro r p hlt
    unfold parseFields
    by_cases hp : p = []
    · subst hp
      exact .stop r
    rw [if_neg (mt List.isEmpty_iff.mp hp)]
    cases hf : List.firstInfix? crlf p with
    | none => exact .noEnd hp hf
    | some lineEnd =>
      have hle := List.firstInfix?_add_length_le crlf_ne_nil hf
      have hcrlf : crlf.length = 2 := rfl
      have hrest : (p.drop (min (lineEnd + crlf.length) p.length)).length < fuel := by
        rw [Nat.min_eq_left hle, List.length_drop]
        omega
      simp only
      by_cases hline : (p.take lineEnd).isEmpty = true
      · rw [if_pos hline]
        exact .next hf (if_pos hline) (ih _ _ hrest)
      · rw [if_neg hline]
        have hparse : r.parseLine (p.take lineEnd) = r.parseField (p.take lineEnd) := if_neg hline
        cases hfield : r.parseField (p.take lineEnd) with
        | error r' => exact .reject hf (hparse.trans hfield)
        | ok r' => exact .next hf (hparse.trans hfield) (ih _ _ hrest)

/-! ### The parser and the grammar -/

/-- What is accepted is in the grammar. -/
theorem exists_grammar {c : RequestClass} {buf : Bytes}
    (h : ((fresh c).parseRequestHeader buf).errorCode = .none) :
    ∃ line fields method target version, Grammar buf line fields method target version := by
  have hok : ((fresh c).parseRequestHeader buf).isOk = true := by
    unfold HttpRequestMsg.isOk HttpRequestMsg.isError
    rw [h]
    rfl
  obtain ⟨line, fields, method, target, version, hp⟩ :=
    parsed_of_isOk (r := fresh c) rfl rfl hok
  refine ⟨line, fields, method, target, version, grammar_iff.mpr ⟨hp.lines, hp.requestLine, ?_⟩⟩
  rw [errorCode_parse c hp.lines hp.requestLine] at h
  cases hs : sectionStatus method fields [] with
  | none => rfl
  | some status =>
    rw [hs] at h
    exact absurd h (sectionStatus_ne_none hs)

/-- **The parser accepts exactly its grammar, stores exactly what the text says, and ends.** -/
theorem parse_exact (c : RequestClass) (buf : Bytes) :
    (((fresh c).parseRequestHeader buf).errorCode = .none ↔
      ∃ line fields method target version, Grammar buf line fields method target version) ∧
    (∀ line fields method target version, Grammar buf line fields method target version →
      ((fresh c).parseRequestHeader buf).method = method ∧
      ((fresh c).parseRequestHeader buf).target = target ∧
      ((fresh c).parseRequestHeader buf).version = version ∧
      ∀ k, ((fresh c).parseRequestHeader buf).headers.lookup k =
        (lastLine fields k).map storedValue) ∧
    ∀ fuel r p, p.length < fuel → LoopReturns r p (parseFields fuel r p) := by
  refine ⟨⟨exists_grammar, ?_⟩, ?_, loopReturns_parseFields⟩
  · rintro ⟨line, fields, method, target, version, hg⟩
    obtain ⟨hl, hreq, hs⟩ := grammar_iff.mp hg
    rw [errorCode_parse c hl hreq, hs]
    rfl
  · intro line fields method target version hg
    obtain ⟨hl, hreq, hs⟩ := grammar_iff.mp hg
    have hsame := sameLine_filled c method target version fields
    rw [parse_of_sectionStatus c hl hreq hs]
    exact ⟨hsame.method, hsame.target, hsame.version, lookup_filled hg.colon⟩

/-! ### The length of a body -/

/-- A header section with a method that has a body, and one content length. -/
structure OneLength (buf line : Bytes) (fields : List Bytes) (method target version l : Bytes) :
    Prop where
  text : buf = (line :: fields).flatMap (· ++ crlf)
  unbroken : ∀ l ∈ line :: fields, Unbroken l
  requestLine : RequestLine line method target version
  colon : ∀ l ∈ fields, l = [] ∨ 58 ∈ l
  body : methodHasBody method = true
  one : fields.filter (HasName (ascii "content-length")) = [l]

/-- **A length is classified**: a number that is allowed is stored, one that is too large is
answered with 413, and anything else with 400. -/
def Classified (r : HttpRequestMsg) (v : Bytes) : Prop :=
  if IsDecimal v then
    if digitsValue v ≤ maxHttpBodySize then
      r.errorCode = .none ∧ r.getHeaderValue (ascii "Content-Length") = .size (digitsValue v)
    else r.errorCode = .payloadTooLarge
  else r.errorCode = .badRequest

instance (r : HttpRequestMsg) (v : Bytes) : Decidable (Classified r v) := by
  unfold Classified
  infer_instance

/-- Only a length is rejected among lines that are empty or have a colon. -/
theorem badStatus_eq_filter {method : Bytes} : ∀ {fields : List Bytes},
    (∀ l ∈ fields, l = [] ∨ 58 ∈ l) → badStatus method fields =
      (fields.filter (HasName (ascii "content-length"))).findSome? (lineStatus method) := by
  intro fields
  induction fields with
  | nil => exact fun _ => rfl
  | cons l fields ih =>
    intro h
    have ih := ih fun l' hl' => h l' (List.mem_cons_of_mem l hl')
    unfold badStatus at ih ⊢
    by_cases hname : HasName (ascii "content-length") l
    · rw [List.filter_cons_of_pos (p := fun l => decide (HasName (ascii "content-length") l))
        (decide_eq_true hname), List.findSome?_cons, List.findSome?_cons, ih]
    · have hnone : lineStatus method l = none := by
        refine lineStatus_eq_none_iff.mpr ((h l List.mem_cons_self).imp_right fun hc => ?_)
        exact ⟨hc, fun hn => absurd ⟨hc, hn⟩ hname⟩
      rw [List.filter_cons_of_neg (p := fun l => decide (HasName (ascii "content-length") l))
        (by simpa using hname), List.findSome?_cons, hnone, ih]

/-- **A length is classified exactly when it is no number, or one that fits a `size_t`.** -/
theorem length_classified_iff {buf line : Bytes} {fields : List Bytes}
    {method target version l : Bytes} (h : OneLength buf line fields method target version l)
    (c : RequestClass) : Classified ((fresh c).parseRequestHeader buf) (lineValue l) ↔
      ¬ (IsDecimal (lineValue l) ∧ 2 ^ 64 ≤ digitsValue (lineValue l)) := by
  obtain ⟨htext, hunbroken, hreq, hcolon, hbody, hone⟩ := h
  have hl : lines buf = (line :: fields, []) :=
    lines_eq_iff.mpr ⟨by rw [List.append_nil]; exact htext, hunbroken, by decide⟩
  have hmem : l ∈ fields ∧ HasName (ascii "content-length") l := by
    have := hone ▸ List.mem_singleton_self l
    exact (List.mem_filter.mp this).imp_right of_decide_eq_true
  obtain ⟨hlmem, hlcolon, hlname⟩ := hmem
  have hlast : lastLine fields (ascii "content-length") = some l := by
    unfold lastLine
    rw [hone]
    rfl
  -- no other line can be rejected, so the status of the section is the one of this line
  have hstatus : sectionStatus method fields [] = lineStatus method l := by
    unfold sectionStatus
    rw [badStatus_eq_filter hcolon, hone, List.findSome?_cons]
    cases lineStatus method l <;> simp [hlast]
  have hcode := errorCode_parse c hl hreq
  rw [hstatus] at hcode
  have hmax : maxHttpBodySize < 2 ^ 64 := by decide
  have hnil : l ≠ [] := by
    rintro rfl
    exact absurd hlcolon List.not_mem_nil
  unfold lineStatus at hcode
  rw [if_neg hnil, if_neg (not_not.mpr hlcolon), if_pos hlname] at hcode
  unfold Classified
  by_cases hdec : IsDecimal (lineValue l)
  · rw [if_pos hdec]
    by_cases hle : digitsValue (lineValue l) ≤ maxHttpBodySize
    · -- an allowed number is stored
      have hlt : digitsValue (lineValue l) < 2 ^ 64 := by omega
      rw [if_pos ⟨hbody, hdec, hlt⟩, if_pos hle] at hcode
      rw [if_pos hle]
      have hnone : sectionStatus method fields [] = none := by
        rw [hstatus]
        unfold lineStatus
        rw [if_neg hnil, if_neg (not_not.mpr hlcolon), if_pos hlname, if_pos ⟨hbody, hdec, hlt⟩,
          if_pos hle]
      refine ⟨fun _ hbig => absurd hbig.2 (by omega), fun _ => ⟨hcode, ?_⟩⟩
      have hlow : toLower (ascii "Content-Length") = ascii "content-length" := by decide
      rw [parse_of_sectionStatus c hl hreq hnone]
      unfold HttpMsg.getHeaderValue
      rw [hlow, lookup_filled hcolon, hlast]
      unfold storedValue
      rw [Option.map_some, if_pos hlname]
      rfl
    · rw [if_neg hle]
      by_cases hlt : digitsValue (lineValue l) < 2 ^ 64
      · rw [if_pos ⟨hbody, hdec, hlt⟩, if_neg hle] at hcode
        exact ⟨fun _ hbig => absurd hbig.2 (by omega), fun _ => hcode⟩
      · -- the number does not fit, and is taken for no number
        rw [if_neg fun hh => hlt hh.2.2] at hcode
        refine ⟨fun hpay => ?_, fun hnot => absurd ⟨hdec, by omega⟩ hnot⟩
        exact absurd (hcode.symm.trans hpay) HttpStatus.noConfusion
  · -- no number: a bad request
    rw [if_neg hdec]
    rw [if_neg fun hh => hdec hh.2.1] at hcode
    exact ⟨fun _ hbig => hdec hbig.1, fun _ => hcode⟩

/-- A POST request with this content length. -/
def lengthSection (v : Bytes) : Bytes :=
  ascii "POST / HTTP/1.1\r\nContent-Length: " ++ v ++ ascii "\r\n\r\n"

/-- A length that is allowed. -/
theorem length_classified_five :
    Classified ((fresh .post).parseRequestHeader (lengthSection (ascii "5"))) (ascii "5") := by
  have h : OneLength (lengthSection (ascii "5")) (ascii "POST / HTTP/1.1")
      [ascii "Content-Length: 5", []] (ascii "POST") (ascii "/") (ascii "HTTP/1.1")
      (ascii "Content-Length: 5") :=
    ⟨rfl, by decide +kernel, ⟨by decide, by decide, by decide, by decide, by decide, by decide⟩,
      by decide, by decide, by decide⟩
  have hv : lineValue (ascii "Content-Length: 5") = ascii "5" := by decide +kernel
  have hc := (length_classified_iff h .post).mpr (by decide +kernel)
  rw [hv] at hc
  exact hc

/-- A length that does not fit a `size_t` is answered as if it were no number. -/
theorem length_not_classified :
    ¬ ∀ (buf line : Bytes) (fields : List Bytes) (method target version l : Bytes),
      OneLength buf line fields method target version l →
        ∀ c, Classified ((fresh c).parseRequestHeader buf) (lineValue l) := by
  intro hall
  have h : OneLength (lengthSection (ascii "18446744073709551616")) (ascii "POST / HTTP/1.1")
      [ascii "Content-Length: 18446744073709551616", []] (ascii "POST") (ascii "/")
      (ascii "HTTP/1.1") (ascii "Content-Length: 18446744073709551616") :=
    ⟨rfl, by decide +kernel, ⟨by decide, by decide, by decide, by decide, by decide, by decide⟩,
      by decide, by decide, by decide⟩
  have hnot : ¬ Classified ((fresh .post).parseRequestHeader
      (lengthSection (ascii "18446744073709551616")))
      (lineValue (ascii "Content-Length: 18446744073709551616")) := by decide +kernel
  exact hnot (hall _ _ _ _ _ _ _ h .post)

end SrvAsync
