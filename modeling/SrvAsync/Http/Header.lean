import SrvAsync.Base.Pieces
import SrvAsync.Http.Request

/-!
# What the header parser accepts

`ParseRequestHeader` cuts its view at every CRLF.  Seen as a list of lines the header
section is a request line and field lines, and the header loop is one fold over the
field lines.  `WellFormed` says which sections are accepted, without the parser.

The header map of an accepted request is typed: `content-length` is the only header
with a number in it, and the number is not above the limit.

## Main definitions

* `lines` — the lines of a text.
* `RequestLine`, `FieldLine`, `LengthLine`, `WellFormed` — the accepted header sections.
* `HttpMsg.Typed` — the types of the header values.
* `HttpRequestMsg.parseLine`, `HttpRequestMsg.finish` — the header loop by lines.

## Main results

* `parseFields_eq` — the header loop is a fold over the lines.
* `isOk_parseRequestHeader_iff` — **what is accepted is well formed, and conversely**.
* `typed_parseRequestHeader` — an accepted request is typed.
-/

namespace SrvAsync.Http

/-- The lines of a text, and what is behind the last CRLF. -/
def lines (buf : Bytes) : List Bytes × Bytes := List.splitEnds crlf crlf_ne_nil buf

/-! ### The accepted header sections -/

/-- `METHOD SP request-target SP HTTP-version`; the target may have spaces in it. -/
structure RequestLine (line method target version : Bytes) : Prop where
  eq : line = method ++ SP :: (target ++ SP :: version)
  method_sp : SP ∉ method
  version_sp : SP ∉ version
  method_ne : method ≠ []
  target_ne : target ≠ []
  http : ascii "HTTP/" <+: version

/-- The line has a name in front of its first colon, and a value behind it. -/
structure Named (line name value : Bytes) : Prop where
  eq : line = name ++ 58 :: value
  name_colon : 58 ∉ name

/-- The line gives a length for the body, and one that is allowed. -/
def LengthLine (line : Bytes) : Prop :=
  ∃ name value n, Named line name value ∧ toLower name = ascii "content-length" ∧
    fromChars (trimSpaces value) = .ok (n, (trimSpaces value).length) ∧ n ≤ maxHttpBodySize

/-- A line behind the request line: empty, a length when the method has a body, or a field
with any other name. -/
def FieldLine (method line : Bytes) : Prop :=
  line = [] ∨ (methodHasBody method = true ∧ LengthLine line) ∨
    ∃ name value, Named line name value ∧ toLower name ≠ ascii "content-length"

/-- **The header sections that are accepted**: a request line and field lines, all of them
ended, with a length when the method has a body. -/
def WellFormed (buf : Bytes) : Prop :=
  ∃ line fields method target version, lines buf = (line :: fields, []) ∧
    RequestLine line method target version ∧ (∀ l ∈ fields, FieldLine method l) ∧
    (methodHasBody method = true → ∃ l ∈ fields, LengthLine l)

/-! ### Typed header maps -/

/-- `content-length` is a number that is not above the limit, and every other header is a
string. -/
structure HttpMsg.Typed (m : HttpMsg) : Prop where
  length : ∀ v, m.headers.lookup (ascii "content-length") = some v →
    ∃ n, n ≤ maxHttpBodySize ∧ v = .size n
  field : ∀ k v, k ≠ ascii "content-length" → m.headers.lookup k = some v → ∃ s, v = .string s

theorem HttpMsg.typed_empty {m : HttpMsg} (h : m.headers = ∅) : m.Typed := by
  constructor
  · intro v hv
    rw [h] at hv
    cases hv
  · intro k v _ hv
    rw [h] at hv
    cases hv

/-- A header is added with the type its name asks for. -/
theorem HttpMsg.Typed.addHeader {m : HttpMsg} (h : m.Typed) {name : Bytes} {v : HeaderValue}
    (hv : toLower name = ascii "content-length" ∧ (∃ n, n ≤ maxHttpBodySize ∧ v = .size n) ∨
      toLower name ≠ ascii "content-length" ∧ ∃ s, v = .string s) :
    (m.addHeader name v).Typed := by
  constructor
  · intro v' hv'
    rcases hv with ⟨hn, n, hle, rfl⟩ | ⟨hn, -⟩
    · simp only [HttpMsg.addHeader] at hv'
      rw [hn, AList.lookup_insert] at hv'
      exact ⟨n, hle, (Option.some.inj hv').symm⟩
    · simp only [HttpMsg.addHeader] at hv'
      rw [AList.lookup_insert_ne (Ne.symm hn)] at hv'
      exact h.length v' hv'
  · intro k v' hk hv'
    by_cases hkn : k = toLower name
    · subst hkn
      simp only [HttpMsg.addHeader, AList.lookup_insert, Option.some.injEq] at hv'
      rcases hv with ⟨hn, -⟩ | ⟨-, s, rfl⟩
      · exact absurd hn hk
      · exact ⟨s, hv'.symm⟩
    · simp only [HttpMsg.addHeader] at hv'
      rw [AList.lookup_insert_ne hkn] at hv'
      exact h.field k v' hk hv'

namespace HttpRequestMsg

/-! ### One header line -/

/-- One round of the header loop. -/
def parseLine (r : HttpRequestMsg) (line : Bytes) : Except HttpRequestMsg HttpRequestMsg :=
  if line.isEmpty then .ok r else r.parseField line

/-- The parts of a request that the header loop does not touch. -/
structure SameLine (r r' : HttpRequestMsg) : Prop where
  cls : r'.cls = r.cls
  method : r'.method = r.method
  target : r'.target = r.target
  version : r'.version = r.version
  body : r'.body = r.body
  errorCode : r'.errorCode = r.errorCode

theorem SameLine.refl (r : HttpRequestMsg) : SameLine r r := ⟨rfl, rfl, rfl, rfl, rfl, rfl⟩

theorem SameLine.trans {r r' r'' : HttpRequestMsg} (h : SameLine r r') (h' : SameLine r' r'') :
    SameLine r r'' :=
  ⟨h'.cls.trans h.cls, h'.method.trans h.method, h'.target.trans h.target,
    h'.version.trans h.version, h'.body.trans h.body, h'.errorCode.trans h.errorCode⟩

theorem sameLine_addHeader (r : HttpRequestMsg) (name : Bytes) (v : HeaderValue) :
    SameLine r (r.addHeader name v) := ⟨rfl, rfl, rfl, rfl, rfl, rfl⟩

theorem isError_fail (r : HttpRequestMsg) {st : HttpStatus} (h : st ≠ .none) :
    (r.fail st).isError = true := bne_iff_ne.mpr h

/-- **What one line does**: nothing, a length, or a field. -/
inductive LineAdds (r : HttpRequestMsg) (line : Bytes) (r' : HttpRequestMsg) : Prop
  | nothing (hl : line = []) (hr : r' = r)
  | length {name value : Bytes} {n : ℕ} (hb : methodHasBody r.method = true)
    (hl : Named line name value) (hn : toLower name = ascii "content-length")
    (hv : fromChars (trimSpaces value) = .ok (n, (trimSpaces value).length))
    (hle : n ≤ maxHttpBodySize) (hr : r' = r.addHeader name (.size n))
  | field {name value : Bytes} (hl : Named line name value)
    (hn : toLower name ≠ ascii "content-length")
    (hr : r' = r.addHeader name (.string (trimSpaces value)))

/-- The name and the value of a line are what the first colon makes them. -/
theorem named_iff {line name value : Bytes} : Named line name value ↔
    findByte 58 line = some name.length ∧ name = line.take name.length ∧
      value = line.drop (name.length + 1) := by
  constructor
  · rintro ⟨rfl, hc⟩
    refine ⟨findByte_eq_some_iff.mpr ⟨name, value, rfl, hc, rfl⟩, ?_, ?_⟩
    · rw [List.take_left]
    · rw [← List.drop_drop, List.drop_left, List.drop_one, List.tail_cons]
  · rintro ⟨hf, hn, hv⟩
    obtain ⟨l, t, rfl, hl, hlen⟩ := findByte_eq_some_iff.mp hf
    rw [← hlen, List.take_left] at hn
    rw [← hlen, ← List.drop_drop, List.drop_left, List.drop_one, List.tail_cons] at hv
    subst hn hv
    exact ⟨rfl, hl⟩

theorem parseLine_ok {r r' : HttpRequestMsg} {line : Bytes} (h : r.parseLine line = .ok r') :
    LineAdds r line r' := by
  unfold parseLine at h
  split at h
  · next hl =>
    cases h
    exact .nothing (List.isEmpty_iff.mp hl) rfl
  · unfold parseField at h
    split at h
    · cases h
    · next colon hcolon =>
      have hlen : (line.take colon).length = colon := by
        obtain ⟨l, t, rfl, -, rfl⟩ := findByte_eq_some_iff.mp hcolon
        rw [List.take_left]
      have hnamed : Named line (line.take colon) (line.drop (colon + 1)) := by
        rw [named_iff, hlen]
        exact ⟨hcolon, rfl, rfl⟩
      simp only at h
      -- a `Content-Length` has checks of its own
      split at h
      · next hname =>
        split at h
        · next hbody =>
          split at h
          · cases h
          · next len ptr hval =>
            split at h
            · cases h
            · next hptr =>
              split at h
              · cases h
              · next hle =>
                cases h
                rw [ne_eq, not_not] at hptr
                exact .length hbody hnamed hname (hptr ▸ hval) (by omega) rfl
        · cases h
      · next hname =>
        cases h
        exact .field hnamed hname rfl

/-- A line that is rejected leaves a request in error. -/
theorem parseLine_error {r r' : HttpRequestMsg} {line : Bytes} (h : r.parseLine line = .error r') :
    r'.isError = true := by
  unfold parseLine parseField at h
  simp only at h
  repeat' split at h
  all_goals cases h
  all_goals exact isError_fail r HttpStatus.noConfusion

/-- A line that may stand there is not rejected. -/
theorem parseLine_of_fieldLine {r : HttpRequestMsg} {line : Bytes} (h : FieldLine r.method line) :
    ∃ r', r.parseLine line = .ok r' := by
  unfold parseLine
  split
  · exact ⟨r, rfl⟩
  · next hne =>
    rcases h with rfl | ⟨hbody, name, value, n, hl, hn, hv, hle⟩ | ⟨name, value, hl, hn⟩
    · exact absurd rfl hne
    · obtain ⟨hf, hname, hvalue⟩ := named_iff.mp hl
      unfold parseField
      simp only [hf, ← hname, ← hvalue]
      rw [if_pos hn, if_pos hbody, hv]
      simp only
      rw [if_neg (by simp), if_neg (by omega)]
      exact ⟨_, rfl⟩
    · obtain ⟨hf, hname, hvalue⟩ := named_iff.mp hl
      unfold parseField
      simp only [hf, ← hname, ← hvalue]
      rw [if_neg hn]
      exact ⟨_, rfl⟩

theorem LineAdds.sameLine {r r' : HttpRequestMsg} {line : Bytes} (h : LineAdds r line r') :
    SameLine r r' := by
  cases h with
  | nothing _ hr => exact hr ▸ .refl r
  | length _ _ _ _ _ hr => exact hr ▸ sameLine_addHeader r _ _
  | field _ _ hr => exact hr ▸ sameLine_addHeader r _ _

theorem LineAdds.typed {r r' : HttpRequestMsg} {line : Bytes} (h : LineAdds r line r')
    (ht : r.Typed) : r'.Typed := by
  cases h with
  | nothing _ hr => exact hr ▸ ht
  | length _ _ hn _ hle hr => exact hr ▸ ht.addHeader (.inl ⟨hn, _, hle, rfl⟩)
  | field _ hn hr => exact hr ▸ ht.addHeader (.inr ⟨hn, _, rfl⟩)

theorem LineAdds.fieldLine {r r' : HttpRequestMsg} {line : Bytes} (h : LineAdds r line r') :
    FieldLine r.method line := by
  cases h with
  | nothing hl _ => exact .inl hl
  | length hb hl hn hv hle _ => exact .inr (.inl ⟨hb, _, _, _, hl, hn, hv, hle⟩)
  | field hl hn _ => exact .inr (.inr ⟨_, _, hl, hn⟩)

/-- The length is in the map exactly when it was, or this line gave it. -/
theorem LineAdds.hasHeader_iff {r r' : HttpRequestMsg} {line : Bytes} (h : LineAdds r line r') :
    r'.hasHeader (ascii "content-length") = true ↔
      r.hasHeader (ascii "content-length") = true ∨ LengthLine line := by
  have hlow : toLower (ascii "content-length") = ascii "content-length" := by decide
  have hadd : ∀ (name : Bytes) (v : HeaderValue),
      (r.addHeader name v).hasHeader (ascii "content-length") = true ↔
        r.hasHeader (ascii "content-length") = true ∨ toLower name = ascii "content-length" := by
    intro name v
    unfold HttpMsg.hasHeader
    rw [hlow]
    simp only [HttpRequestMsg.addHeader, HttpMsg.addHeader]
    by_cases hn : toLower name = ascii "content-length"
    · rw [hn, AList.lookup_insert]
      simp
    · rw [AList.lookup_insert_ne (Ne.symm hn)]
      simp [hn]
  cases h with
  | nothing hl hr =>
    subst hr hl
    constructor
    · exact .inl
    · rintro (h | ⟨name, value, n, hl, -⟩)
      · exact h
      · have := hl.eq
        simp at this
  | length _ hl hn hv hle hr =>
    rw [hr, hadd]
    constructor
    · intro _
      exact .inr ⟨_, _, _, hl, hn, hv, hle⟩
    · intro _
      exact .inr hn
  | field hl hn hr =>
    rw [hr, hadd]
    constructor
    · rintro (h | h)
      · exact .inl h
      · exact absurd h hn
    · rintro (h | ⟨name', value', n, hl', hn', -⟩)
      · exact .inl h
      · -- a line has one name
        have hlen : name'.length = _ := Option.some.inj ((named_iff.mp hl').1.symm.trans (named_iff.mp hl).1)
        have hname : name' = _ := (named_iff.mp hl').2.1.trans (hlen ▸ (named_iff.mp hl).2.1.symm)
        exact absurd (hname ▸ hn') hn

/-! ### The header loop -/

/-- What comes behind the lines: the rest must be empty, and a method with a body needs a
length. -/
def finish (rest : Bytes) : Except HttpRequestMsg HttpRequestMsg → HttpRequestMsg
  | .error r => r
  | .ok r => if rest.isEmpty then r.checkLength else r.fail .badRequest

/-- **The header loop is a fold over the lines.** -/
theorem parseFields_eq : ∀ (fuel : ℕ) (r : HttpRequestMsg) (p : Bytes), p.length < fuel →
    parseFields fuel r p = finish (lines p).2 ((lines p).1.foldlM parseLine r) := by
  intro fuel
  induction fuel with
  | zero => intro r p h; exact absurd h (Nat.not_lt_zero _)
  | succ fuel ih =>
    intro r p hlt
    unfold parseFields
    -- the text is used up, or has no line end any more, or starts with a line
    by_cases hp : p.isEmpty = true
    · have hnone : List.firstInfix? crlf p = none := by
        rw [List.isEmpty_iff.mp hp]
        rfl
      rw [if_pos hp, lines, List.splitEnds_of_none crlf_ne_nil hnone]
      exact (if_pos hp).symm
    · rw [if_neg hp]
      cases hf : List.firstInfix? crlf p with
      | none =>
        rw [lines, List.splitEnds_of_none crlf_ne_nil hf]
        exact (if_neg hp).symm
      | some lineEnd =>
        have hle := List.firstInfix?_add_length_le crlf_ne_nil hf
        have hcrlf : crlf.length = 2 := rfl
        have hrest : (p.drop (lineEnd + crlf.length)).length < fuel := by
          rw [List.length_drop]
          omega
        rw [lines, List.splitEnds_of_some crlf_ne_nil hf]
        simp only [Nat.min_eq_left hle, List.foldlM_cons]
        have hloop := fun r' => ih r' _ hrest
        unfold lines at hloop
        unfold parseLine
        split
        · exact hloop r
        · cases hfield : r.parseField (p.take lineEnd) with
          | error r' => rfl
          | ok r' => exact hloop r'

/-- Lines that are not rejected are field lines, and the request stays typed. -/
theorem foldlM_parseLine_ok : ∀ {ls : List Bytes} {r r' : HttpRequestMsg},
    ls.foldlM parseLine r = .ok r' →
    SameLine r r' ∧ (r.Typed → r'.Typed) ∧ (∀ l ∈ ls, FieldLine r.method l) ∧
      (r'.hasHeader (ascii "content-length") = true ↔
        r.hasHeader (ascii "content-length") = true ∨ ∃ l ∈ ls, LengthLine l) := by
  intro ls
  induction ls with
  | nil =>
    intro r r' h
    cases h
    exact ⟨.refl r, id, fun l hl => absurd hl List.not_mem_nil, by simp⟩
  | cons l ls ih =>
    intro r r' h
    rw [List.foldlM_cons] at h
    cases hl : r.parseLine l with
    | error r₁ => rw [hl] at h; cases h
    | ok r₁ =>
      rw [hl] at h
      have hadds := parseLine_ok hl
      obtain ⟨hsame, htyped, hfields, hlength⟩ := ih h
      refine ⟨hadds.sameLine.trans hsame, fun ht => htyped (hadds.typed ht), ?_, ?_⟩
      · intro l' hl'
        rcases List.mem_cons.mp hl' with rfl | hl'
        · exact hadds.fieldLine
        · exact hadds.sameLine.method ▸ hfields l' hl'
      · rw [hlength, hadds.hasHeader_iff, List.exists_mem_cons_iff, or_assoc]

/-- A line that is rejected leaves a request in error. -/
theorem foldlM_parseLine_error : ∀ {ls : List Bytes} {r r' : HttpRequestMsg},
    ls.foldlM parseLine r = .error r' → r'.isError = true := by
  intro ls
  induction ls with
  | nil => intro r r' h; cases h
  | cons l ls ih =>
    intro r r' h
    rw [List.foldlM_cons] at h
    cases hl : r.parseLine l with
    | error r₁ =>
      rw [hl] at h
      cases h
      exact parseLine_error hl
    | ok r₁ =>
      rw [hl] at h
      exact ih h

/-- Field lines are not rejected. -/
theorem foldlM_parseLine_of_fieldLine : ∀ {ls : List Bytes} {r : HttpRequestMsg},
    (∀ l ∈ ls, FieldLine r.method l) → ∃ r', ls.foldlM parseLine r = .ok r' := by
  intro ls
  induction ls with
  | nil => intro r _; exact ⟨r, rfl⟩
  | cons l ls ih =>
    intro r h
    obtain ⟨r₁, hl⟩ := parseLine_of_fieldLine (h l List.mem_cons_self)
    have hmethod := (parseLine_ok hl).sameLine.method
    obtain ⟨r', hr'⟩ := ih (r := r₁) fun l' hl' => hmethod ▸ h l' (List.mem_cons_of_mem _ hl')
    refine ⟨r', ?_⟩
    rw [List.foldlM_cons, hl]
    exact hr'

/-! ### The request line -/

/-- The request line is cut at its first and its last space. -/
theorem requestLine_iff {line method target version : Bytes} :
    RequestLine line method target version ↔ ∃ sp1 sp2, findByte SP line = some sp1 ∧
      rfindByte SP line = some sp2 ∧ sp1 ≠ sp2 ∧ method = line.take sp1 ∧
      target = (line.drop (sp1 + 1)).take (sp2 - sp1 - 1) ∧ version = line.drop (sp2 + 1) ∧
      method ≠ [] ∧ target ≠ [] ∧ ascii "HTTP/" <+: version := by
  constructor
  · rintro ⟨rfl, hm, hv, hmne, htne, hhttp⟩
    refine ⟨method.length, method.length + 1 + target.length, ?_, ?_, ?_, ?_, ?_, ?_, hmne, htne,
      hhttp⟩
    · exact findByte_eq_some_iff.mpr ⟨method, _, rfl, hm, rfl⟩
    · refine rfindByte_eq_some_iff.mpr ⟨method ++ SP :: target, version, ?_, hv, ?_⟩
      · simp
      · simp
        omega
    · omega
    · rw [List.take_left]
    · have hdrop : (method ++ SP :: (target ++ SP :: version)).drop (method.length + 1) =
          target ++ SP :: version := by
        rw [← List.drop_drop, List.drop_left, List.drop_one, List.tail_cons]
      have hlen : method.length + 1 + target.length - method.length - 1 = target.length := by omega
      rw [hdrop, hlen, List.take_left]
    · rw [Nat.add_assoc, Nat.add_assoc, ← List.drop_drop, List.drop_left,
        Nat.add_comm 1 (target.length + 1), ← List.drop_drop, List.drop_succ_cons, List.drop_left,
        List.drop_one, List.tail_cons]
  · rintro ⟨sp1, sp2, hf, hr, hne, rfl, rfl, rfl, hmne, htne, hhttp⟩
    obtain ⟨m, t, hmt, hm, rfl⟩ := findByte_eq_some_iff.mp hf
    obtain ⟨l, v, hlv, hv, rfl⟩ := rfindByte_eq_some_iff.mp hr
    -- the last space is in what follows the first one
    have hsplit : ∃ target, l = m ++ SP :: target ∧ t = target ++ SP :: v := by
      rcases List.append_eq_append_iff.mp (hmt.symm.trans hlv) with ⟨u, hu, hu'⟩ | ⟨u, hu, hu'⟩
      · cases u with
        | nil =>
          rw [List.append_nil] at hu
          exact absurd (congrArg List.length hu).symm hne
        | cons b u =>
          obtain ⟨rfl, ht⟩ := List.cons.inj hu'
          exact ⟨u, hu, ht⟩
      · cases u with
        | nil =>
          rw [List.append_nil] at hu
          exact absurd (congrArg List.length hu) hne
        | cons b u =>
          obtain ⟨rfl, -⟩ := List.cons.inj hu'
          exact absurd (hu ▸ List.mem_append_right l List.mem_cons_self) hm
    obtain ⟨target, rfl, rfl⟩ := hsplit
    subst hmt
    have hdrop : (m ++ SP :: (target ++ SP :: v)).drop (m.length + 1) = target ++ SP :: v := by
      rw [← List.drop_drop, List.drop_left, List.drop_one, List.tail_cons]
    have hlen : (m ++ SP :: target).length - m.length - 1 = target.length := by
      simp
    have hver : (m ++ SP :: (target ++ SP :: v)).drop ((m ++ SP :: target).length + 1) = v := by
      rw [hlv, ← List.drop_drop, List.drop_left, List.drop_one, List.tail_cons]
    rw [List.take_left] at hmne ⊢
    rw [hdrop, hlen, List.take_left] at htne ⊢
    rw [hver] at hhttp ⊢
    exact ⟨rfl, hm, hv, hmne, htne, hhttp⟩

/-- A request line has one method, one target and one version. -/
theorem RequestLine.unique {line m t v m' t' v' : Bytes} (h : RequestLine line m t v)
    (h' : RequestLine line m' t' v') : m = m' ∧ t = t' ∧ v = v' := by
  obtain ⟨sp1, sp2, hf, hr, -, rfl, rfl, rfl, -⟩ := requestLine_iff.mp h
  obtain ⟨sp1', sp2', hf', hr', -, rfl, rfl, rfl, -⟩ := requestLine_iff.mp h'
  obtain rfl := Option.some.inj (hf.symm.trans hf')
  obtain rfl := Option.some.inj (hr.symm.trans hr')
  exact ⟨rfl, rfl, rfl⟩

/-- The fields of the request line are set. -/
def setLine (r : HttpRequestMsg) (method target version : Bytes) : HttpRequestMsg :=
  { r with method := method, target := target, version := version }

/-- `ParseRequestHeader` behind a good request line. -/
theorem parseRequestHeader_of_requestLine {r : HttpRequestMsg} {buf line rest : Bytes}
    {fields : List Bytes} {method target version : Bytes} (hl : lines buf = (line :: fields, rest))
    (h : RequestLine line method target version) : r.parseRequestHeader buf =
      finish rest (fields.foldlM parseLine (r.setLine method target version)) := by
  cases hf : List.firstInfix? crlf buf with
  | none =>
    rw [lines, List.splitEnds_of_none crlf_ne_nil hf] at hl
    cases hl
  | some lineEnd =>
    rw [lines, List.splitEnds_of_some crlf_ne_nil hf] at hl
    obtain ⟨hcons, rfl⟩ := Prod.mk.inj hl
    obtain ⟨rfl, rfl⟩ := List.cons.inj hcons
    obtain ⟨sp1, sp2, h1, h2, hne, rfl, rfl, rfl, hm, ht, hv⟩ := requestLine_iff.mp h
    have hlt : (buf.drop (lineEnd + crlf.length)).length < buf.length + 1 := by
      rw [List.length_drop]
      omega
    unfold parseRequestHeader
    rw [hf]
    simp only [h1, h2]
    rw [if_neg hne, if_neg, parseFields_eq _ _ _ hlt]
    · rfl
    · simp only [Bool.or_eq_true, List.isEmpty_iff, Bool.not_eq_true', not_or, Bool.not_eq_false]
      exact ⟨⟨hm, ht⟩, List.isPrefixOf_iff_prefix.mpr hv⟩

/-- Without a good request line the request is a bad one. -/
theorem parseRequestHeader_of_not_requestLine {r : HttpRequestMsg} {buf : Bytes}
    (h : ∀ line fields rest method target version, lines buf = (line :: fields, rest) →
      ¬ RequestLine line method target version) :
    r.parseRequestHeader buf = r.fail .badRequest := by
  unfold parseRequestHeader
  split
  · rfl
  · next lineEnd hf =>
    have hlines := List.splitEnds_of_some crlf_ne_nil hf
    simp only
    split
    · next sp1 sp2 h1 h2 =>
      split
      · rfl
      · next hne =>
        split
        · rfl
        · next hgood =>
          simp only [Bool.or_eq_true, List.isEmpty_iff, Bool.not_eq_true', not_or,
            Bool.not_eq_false] at hgood
          obtain ⟨⟨hm, ht⟩, hv⟩ := hgood
          have hreq := requestLine_iff.mpr ⟨sp1, sp2, h1, h2, hne, rfl, rfl, rfl, hm, ht,
            List.isPrefixOf_iff_prefix.mp hv⟩
          exact absurd hreq (h _ _ _ _ _ _ hlines)
    · rfl

/-- What is behind the lines decides about a request that was not rejected. -/
theorem isOk_finish_iff {rest : Bytes} {r : HttpRequestMsg} (hr : r.isOk = true) :
    (finish rest (.ok r)).isOk = true ↔ rest = [] ∧
      (methodHasBody r.method = true → r.hasHeader (ascii "content-length") = true) := by
  have hfail : ∀ st, st ≠ HttpStatus.none → (r.fail st).isOk = false := by
    intro st hst
    rw [HttpRequestMsg.isOk, isError_fail r hst]
    rfl
  unfold finish
  by_cases hrest : rest = []
  · subst hrest
    simp only [List.isEmpty_nil, if_true, true_and]
    unfold checkLength
    by_cases hb : methodHasBody r.method = true
    · by_cases hl : r.hasHeader (ascii "content-length") = true
      · simp [hb, hl, hr]
      · simp [hb, hl, hfail .lengthRequired HttpStatus.noConfusion]
    · simp [hb, hr]
  · have hne : ¬ rest.isEmpty = true := fun he => hrest (List.isEmpty_iff.mp he)
    simp only [if_neg hne, hfail .badRequest HttpStatus.noConfusion, hrest, false_and,
      Bool.false_eq_true]

/-- The lines behind the request line, and what the parser made of them. -/
structure Parsed (r : HttpRequestMsg) (buf : Bytes) (r' : HttpRequestMsg) (line : Bytes)
    (fields : List Bytes) (method target version : Bytes) : Prop where
  lines : Http.lines buf = (line :: fields, [])
  requestLine : RequestLine line method target version
  fold : fields.foldlM parseLine (r.setLine method target version) = .ok r'
  length : methodHasBody method = true → ∃ l ∈ fields, LengthLine l

/-- **What the parser does with a section it accepts.** -/
theorem parsed_of_isOk {r : HttpRequestMsg} (hr : r.isOk = true) (hh : r.headers = ∅) {buf : Bytes}
    (h : (r.parseRequestHeader buf).isOk = true) :
    ∃ line fields method target version,
      Parsed r buf (r.parseRequestHeader buf) line fields method target version := by
  have hnot : ∀ {r' : HttpRequestMsg}, r'.isError = true → ¬ r'.isOk = true := by
    intro r' he hok
    rw [HttpRequestMsg.isOk, he] at hok
    cases hok
  by_cases hgood : ∃ line fields rest method target version, lines buf = (line :: fields, rest) ∧
      RequestLine line method target version
  · obtain ⟨line, fields, rest, method, target, version, hl, hreq⟩ := hgood
    rw [parseRequestHeader_of_requestLine hl hreq] at h ⊢
    cases hfold : fields.foldlM parseLine (r.setLine method target version) with
    | error r' =>
      rw [hfold] at h
      exact absurd h (hnot (foldlM_parseLine_error hfold))
    | ok r' =>
      rw [hfold] at h
      obtain ⟨hsame, -, -, hlength⟩ := foldlM_parseLine_ok hfold
      have hok' : r'.isOk = true := by
        rw [HttpRequestMsg.isOk, HttpRequestMsg.isError, hsame.errorCode]
        exact hr
      have hmethod : r'.method = method := hsame.method
      obtain ⟨rfl, hcl⟩ := (isOk_finish_iff hok').mp h
      rw [hmethod] at hcl
      -- the check behind the loop passes
      have hfin : finish [] (.ok r') = r' := by
        show r'.checkLength = r'
        unfold checkLength
        rw [if_neg]
        rw [hmethod]
        simp only [Bool.and_eq_true, Bool.not_eq_true', not_and, Bool.not_eq_false]
        exact hcl
      refine ⟨line, fields, method, target, version, hl, hreq, by rw [hfold, hfin], ?_⟩
      intro hb
      rcases hlength.mp (hcl hb) with hold | hnew
      · have hempty : (r.setLine method target version).headers = ∅ := hh
        unfold HttpMsg.hasHeader at hold
        rw [hempty] at hold
        cases hold
      · exact hnew
  · rw [parseRequestHeader_of_not_requestLine] at h
    · exact absurd h (hnot (isError_fail r HttpStatus.noConfusion))
    · intro line fields rest method target version hl hreq
      exact hgood ⟨line, fields, rest, method, target, version, hl, hreq⟩

/-- **What the parser accepts is well formed, and conversely.** -/
theorem isOk_parseRequestHeader_iff {r : HttpRequestMsg} (hr : r.isOk = true) (hh : r.headers = ∅)
    {buf : Bytes} : (r.parseRequestHeader buf).isOk = true ↔ WellFormed buf := by
  constructor
  · intro h
    obtain ⟨line, fields, method, target, version, hp⟩ := parsed_of_isOk hr hh h
    obtain ⟨-, -, hfields, -⟩ := foldlM_parseLine_ok hp.fold
    exact ⟨line, fields, method, target, version, hp.lines, hp.requestLine, hfields, hp.length⟩
  · rintro ⟨line, fields, method, target, version, hl, hreq, hfields, hlength⟩
    obtain ⟨r', hfold⟩ := foldlM_parseLine_of_fieldLine (r := r.setLine method target version) hfields
    obtain ⟨hsame, -, -, hcl⟩ := foldlM_parseLine_ok hfold
    have hok' : r'.isOk = true := by
      rw [HttpRequestMsg.isOk, HttpRequestMsg.isError, hsame.errorCode]
      exact hr
    have hmethod : r'.method = method := hsame.method
    rw [parseRequestHeader_of_requestLine hl hreq, hfold, isOk_finish_iff hok', hmethod]
    exact ⟨rfl, fun hb => hcl.mpr (.inr (hlength hb))⟩

/-- **An accepted request is typed**, and has a length when its method has a body. -/
theorem typed_parseRequestHeader {r : HttpRequestMsg} (hr : r.isOk = true) (hh : r.headers = ∅)
    {buf : Bytes} (h : (r.parseRequestHeader buf).isOk = true) :
    (r.parseRequestHeader buf).Typed ∧ (r.parseRequestHeader buf).cls = r.cls ∧
      (methodHasBody (r.parseRequestHeader buf).method = true →
        (r.parseRequestHeader buf).hasHeader (ascii "content-length") = true) := by
  obtain ⟨line, fields, method, target, version, hp⟩ := parsed_of_isOk hr hh h
  obtain ⟨hsame, htyped, -, hcl⟩ := foldlM_parseLine_ok hp.fold
  refine ⟨htyped (HttpMsg.typed_empty hh), hsame.cls, fun hb => hcl.mpr (.inr (hp.length ?_))⟩
  rw [hsame.method] at hb
  exact hb

end HttpRequestMsg
end SrvAsync.Http
