import SrvAsync.Http.Framing

/-!
# Header lines

What a header line is to `ParseRequestHeader`: its name is what stands in front of the
first colon, its value what stands behind it without the spaces around it.  A line is
rejected with a status that depends on the line and the method alone, or its value goes
into the header map; so the header loop is an `addLine` after the other up to the first
line that is rejected, and the map holds the last line of every name.

## Main definitions

* `rawName`, `rawValue`, `lineValue`, `storedValue` — what a line says, and how the map stores it.
* `IsDecimal` — a string of digits.
* `lineStatus` — the status a line is rejected with.
* `HttpRequestMsg.addLine` — a line goes into the map.
* `lastLine` — the line that counts for a name.

## Main results

* `fromChars_full_iff` — a conversion that takes the whole string.
* `parseLine_eq` — one round of the header loop.
* `foldlM_parseLine_eq` — the header loop.
* `lookup_foldl_addLine` — **the map holds the last line of every name**.
-/

namespace SrvAsync

open Http HttpRequestMsg

/-! ### Numbers -/

/-- A string of decimal digits, of any length. -/
def IsDecimal (v : Bytes) : Prop := v ≠ [] ∧ ∀ c ∈ v, isDigit c = true

instance (v : Bytes) : Decidable (IsDecimal v) :=
  decidable_of_iff (v ≠ [] ∧ v.all isDigit = true) (and_congr_right' List.all_eq_true)

/-- **The conversion takes the whole string** exactly when it is a number that fits. -/
theorem fromChars_full_iff {v : Bytes} {n : ℕ} :
    fromChars v = .ok (n, v.length) ↔ IsDecimal v ∧ digitsValue v < 2 ^ 64 ∧ n = digitsValue v := by
  unfold fromChars
  simp only [List.isEmpty_iff]
  constructor
  · intro h
    split at h
    · cases h
    · next hne =>
      split at h
      · next hlt =>
        obtain ⟨hn, hlen⟩ := Prod.mk.inj (Except.ok.inj h)
        have htake : v.takeWhile isDigit = v :=
          (List.takeWhile_prefix isDigit).eq_of_length hlen
        rw [htake] at hne hlt hn
        exact ⟨⟨hne, List.takeWhile_eq_self_iff.mp htake⟩, hlt, hn.symm⟩
      · cases h
  · rintro ⟨⟨hne, hdigits⟩, hlt, rfl⟩
    rw [List.takeWhile_eq_self_iff.mpr hdigits, if_neg hne, if_pos hlt]

/-! ### What a line says -/

/-- What stands in front of the first colon. -/
def rawName (line : Bytes) : Bytes := line.takeWhile (· != 58)

/-- What stands behind the first colon. -/
def rawValue (line : Bytes) : Bytes := (line.dropWhile (· != 58)).drop 1

/-- The value of the line: what stands behind the colon, without the spaces around it. -/
def lineValue (line : Bytes) : Bytes := trimSpaces (rawValue line)

/-- The header map stores a number for a content length, and a string for any other field. -/
def storedValue (line : Bytes) : HeaderValue :=
  if lineName line = ascii "content-length" then .size (digitsValue (lineValue line))
  else .string (lineValue line)

/-- The line is a header field with this name. -/
def HasName (k line : Bytes) : Prop := 58 ∈ line ∧ lineName line = k

instance (k line : Bytes) : Decidable (HasName k line) := inferInstanceAs (Decidable (_ ∧ _))

theorem named_of_colon {line : Bytes} (h : 58 ∈ line) :
    Named line (rawName line) (rawValue line) := by
  have hnot : 58 ∉ rawName line := by
    intro hc
    have := List.mem_takeWhile_imp hc
    simp at this
  refine ⟨?_, hnot⟩
  have hsplit : rawName line ++ line.dropWhile (· != 58) = line := List.takeWhile_append_dropWhile
  obtain ⟨b, t, hbt⟩ : ∃ b t, line.dropWhile (· != 58) = b :: t := by
    refine List.exists_cons_of_ne_nil fun hnil => hnot ?_
    rw [hnil, List.append_nil] at hsplit
    rw [hsplit]
    exact h
  have hb : b = 58 := by
    have hhead := List.head?_dropWhile_not (· != (58 : Byte)) line
    rw [hbt] at hhead
    simpa using hhead
  unfold rawValue
  rw [hbt, hb] at hsplit ⊢
  exact hsplit.symm

/-- A line has one name and one value. -/
theorem Http.Named.eq_parts {line name value : Bytes} (h : Named line name value) :
    58 ∈ line ∧ rawName line = name ∧ rawValue line = value := by
  have hmem : 58 ∈ line := h.eq ▸ List.mem_append_right name List.mem_cons_self
  have hname : ∀ c ∈ name, (c != 58) = true := by
    intro c hc
    rw [bne_iff_ne]
    rintro rfl
    exact h.name_colon hc
  refine ⟨hmem, ?_, ?_⟩
  · unfold rawName
    rw [h.eq, List.takeWhile_append_of_pos hname, List.takeWhile_cons_of_neg (by simp),
      List.append_nil]
  · unfold rawValue
    rw [h.eq, List.dropWhile_append_of_pos hname, List.dropWhile_cons_of_neg (by simp)]
    rfl

/-! ### One round of the header loop -/

/-- The status a header line is rejected with. -/
def lineStatus (method line : Bytes) : Option HttpStatus :=
  if line = [] then none
  else if 58 ∉ line then some .badRequest
  else if lineName line = ascii "content-length" then
    if methodHasBody method = true ∧ IsDecimal (lineValue line) ∧
        digitsValue (lineValue line) < 2 ^ 64 then
      if digitsValue (lineValue line) ≤ maxHttpBodySize then none else some .payloadTooLarge
    else some .badRequest
  else none

/-- A header line goes into the map. -/
def Http.HttpRequestMsg.addLine (r : HttpRequestMsg) (line : Bytes) : HttpRequestMsg :=
  if line = [] then r else r.addHeader (rawName line) (storedValue line)

@[simp] theorem method_addLine (r : HttpRequestMsg) (line : Bytes) :
    (r.addLine line).method = r.method := by
  unfold HttpRequestMsg.addLine
  split <;> rfl

/-- **One round of the header loop.** -/
theorem parseLine_eq (r : HttpRequestMsg) (line : Bytes) : r.parseLine line =
    match lineStatus r.method line with
    | some status => .error (r.fail status)
    | none => .ok (r.addLine line) := by
  unfold parseLine lineStatus HttpRequestMsg.addLine
  by_cases hnil : line = []
  · rw [if_pos hnil, if_pos (List.isEmpty_iff.mpr hnil), if_pos hnil]
  rw [if_neg hnil, if_neg (mt List.isEmpty_iff.mp hnil), if_neg hnil]
  unfold parseField
  by_cases hcolon : 58 ∈ line
  · obtain ⟨hfind, htake, hdrop⟩ := named_iff.mp (named_of_colon hcolon)
    rw [if_neg (not_not.mpr hcolon), hfind]
    simp only
    rw [← htake, ← hdrop]
    have hname : toLower (rawName line) = lineName line := rfl
    have hvalue : trimSpaces (rawValue line) = lineValue line := rfl
    rw [hname, hvalue]
    unfold storedValue
    by_cases hname : lineName line = ascii "content-length"
    · rw [if_pos hname, if_pos hname, if_pos hname]
      by_cases hbody : methodHasBody r.method = true
      · rw [if_pos hbody]
        by_cases hnum : IsDecimal (lineValue line) ∧ digitsValue (lineValue line) < 2 ^ 64
        · rw [fromChars_full_iff.mpr ⟨hnum.1, hnum.2, rfl⟩, if_pos ⟨hbody, hnum⟩]
          simp only
          rw [if_neg (not_not.mpr rfl)]
          by_cases hle : digitsValue (lineValue line) ≤ maxHttpBodySize
          · rw [if_pos hle, if_neg (by omega)]
          · rw [if_neg hle, if_pos (by omega)]
        · rw [if_neg fun h => hnum h.2]
          cases hc : fromChars (lineValue line) with
          | error e => rfl
          | ok p =>
            obtain ⟨len, ptr⟩ := p
            refine if_pos fun hptr => hnum ?_
            rw [hptr] at hc
            obtain ⟨hdec, hlt, -⟩ := fromChars_full_iff.mp hc
            exact ⟨hdec, hlt⟩
      · rw [if_neg hbody, if_neg fun h => hbody h.1]
    · rw [if_neg hname, if_neg hname, if_neg hname]
  · rw [if_pos hcolon, findByte_eq_none_iff.mpr hcolon]

/-! ### The header loop -/

/-- The lines in front of the first one that is rejected. -/
def goodLines (method : Bytes) (ls : List Bytes) : List Bytes :=
  ls.takeWhile fun l => lineStatus method l = none

theorem lineStatus_of_mem_goodLines {method l : Bytes} {ls : List Bytes}
    (h : l ∈ goodLines method ls) : lineStatus method l = none :=
  of_decide_eq_true (List.mem_takeWhile_imp (p := fun l => decide (lineStatus method l = none)) h)

/-- The status of the first line that is rejected. -/
def badStatus (method : Bytes) (ls : List Bytes) : Option HttpStatus :=
  ls.findSome? (lineStatus method)

/-- **The header loop adds one line after the other**, up to the first one that is rejected. -/
theorem foldlM_parseLine_eq : ∀ (ls : List Bytes) (r : HttpRequestMsg), ls.foldlM parseLine r =
    match badStatus r.method ls with
    | some status => .error (((goodLines r.method ls).foldl addLine r).fail status)
    | none => .ok (ls.foldl addLine r) := by
  intro ls
  induction ls with
  | nil => exact fun r => rfl
  | cons l ls ih =>
    intro r
    rw [List.foldlM_cons, parseLine_eq]
    unfold badStatus goodLines
    cases hl : lineStatus r.method l with
    | some status =>
      rw [List.findSome?_cons_of_isSome (by rw [hl]; rfl), List.takeWhile_cons_of_neg (by simp [hl]), hl]
      rfl
    | none =>
      rw [List.findSome?_cons_of_isNone (by rw [hl]; rfl), List.takeWhile_cons_of_pos (by simp [hl]),
        List.foldl_cons, List.foldl_cons]
      have ih := ih (r.addLine l)
      rw [method_addLine] at ih
      exact ih

theorem badStatus_eq_none_iff {method : Bytes} {ls : List Bytes} :
    badStatus method ls = none ↔ ∀ l ∈ ls, lineStatus method l = none := List.findSome?_eq_none_iff

/-! ### The map -/

/-- The line that counts for a name: the last one that has it. -/
def lastLine (ls : List Bytes) (k : Bytes) : Option Bytes := (ls.filter (HasName k)).getLast?

theorem lastLine_cons (l : Bytes) (ls : List Bytes) (k : Bytes) :
    lastLine (l :: ls) k = (lastLine ls k).or (if HasName k l then some l else none) := by
  unfold lastLine
  by_cases h : HasName k l
  · rw [List.filter_cons_of_pos (p := fun b => decide (HasName k b)) (decide_eq_true h),
      List.getLast?_cons, if_pos h]
    cases (ls.filter (HasName k)).getLast? <;> rfl
  · rw [List.filter_cons_of_neg (p := fun b => decide (HasName k b)) (by simpa using h), if_neg h,
      Option.or_none]

theorem lastLine_eq_none_iff {ls : List Bytes} {k : Bytes} :
    lastLine ls k = none ↔ ∀ l ∈ ls, ¬ HasName k l := by
  unfold lastLine
  rw [List.getLast?_eq_none_iff, List.filter_eq_nil_iff]
  simp

/-- The line that counts is one of the lines, and has the name. -/
theorem lastLine_mem {ls : List Bytes} {k l : Bytes} (h : lastLine ls k = some l) :
    l ∈ ls ∧ HasName k l := by
  obtain ⟨hl, hname⟩ := List.mem_filter.mp (List.mem_of_getLast? h)
  exact ⟨hl, of_decide_eq_true hname⟩

/-- **The line that counts** stands in front of lines that do not have the name. -/
theorem lastLine_eq_some_iff {ls : List Bytes} {k l : Bytes} : lastLine ls k = some l ↔
    ∃ A C, ls = A ++ l :: C ∧ HasName k l ∧ ∀ l' ∈ C, ¬ HasName k l' := by
  constructor
  · induction ls with
    | nil =>
      intro h
      cases h
    | cons x ls ih =>
      intro h
      rw [lastLine_cons] at h
      cases hls : lastLine ls k with
      | some l' =>
        rw [hls] at h ih
        obtain ⟨A, C, rfl, hl⟩ := ih h
        exact ⟨x :: A, C, rfl, hl⟩
      | none =>
        rw [hls, Option.none_or] at h
        by_cases hx : HasName k x
        · rw [if_pos hx] at h
          obtain rfl := Option.some.inj h
          exact ⟨[], ls, rfl, hx, lastLine_eq_none_iff.mp hls⟩
        · rw [if_neg hx] at h
          cases h
  · rintro ⟨A, C, rfl, hl, hC⟩
    induction A with
    | nil =>
      rw [List.nil_append, lastLine_cons, lastLine_eq_none_iff.mpr hC, if_pos hl]
      rfl
    | cons x A ih =>
      rw [List.cons_append, lastLine_cons, ih]
      rfl

/-- What one line does to the map. -/
theorem lookup_addLine {r : HttpRequestMsg} {line : Bytes} (hc : line = [] ∨ 58 ∈ line) (k : Bytes) :
    (r.addLine line).headers.lookup k =
      if HasName k line then some (storedValue line) else r.headers.lookup k := by
  unfold HttpRequestMsg.addLine
  by_cases hnil : line = []
  · subst hnil
    rw [if_pos rfl, if_neg fun h => List.not_mem_nil h.1]
  rw [if_neg hnil]
  have hcolon := hc.resolve_left hnil
  change (AList.insert (lineName line) _ _).lookup k = _
  by_cases hk : lineName line = k
  · subst hk
    rw [AList.lookup_insert, if_pos ⟨hcolon, rfl⟩]
  · rw [AList.lookup_insert_ne (Ne.symm hk), if_neg fun h => hk h.2]

/-- **The map holds the last line of every name.** -/
theorem lookup_foldl_addLine : ∀ {ls : List Bytes} {r : HttpRequestMsg},
    (∀ l ∈ ls, l = [] ∨ 58 ∈ l) → ∀ k, (ls.foldl addLine r).headers.lookup k =
      ((lastLine ls k).map storedValue).or (r.headers.lookup k) := by
  intro ls
  induction ls with
  | nil => exact fun _ k => rfl
  | cons l ls ih =>
    intro r hls k
    rw [List.foldl_cons, ih fun l' hl' => hls l' (List.mem_cons_of_mem l hl'),
      lookup_addLine (hls l List.mem_cons_self), lastLine_cons]
    cases lastLine ls k with
    | some l' => rfl
    | none =>
      by_cases h : HasName k l
      · rw [if_pos h, if_pos h]
        rfl
      · rw [if_neg h, if_neg h]
        rfl

/-- A line that is not rejected is empty or has a colon. -/
theorem colon_of_lineStatus {method line : Bytes} (h : lineStatus method line = none) :
    line = [] ∨ 58 ∈ line := by
  unfold lineStatus at h
  by_cases hnil : line = []
  · exact .inl hnil
  · rw [if_neg hnil] at h
    by_cases hc : 58 ∈ line
    · exact .inr hc
    · rw [if_pos hc] at h
      cases h

/-- Adding lines touches the header map only. -/
theorem sameLine_foldl_addLine (ls : List Bytes) (r : HttpRequestMsg) :
    SameLine r (ls.foldl addLine r) := by
  induction ls generalizing r with
  | nil => exact .refl r
  | cons l ls ih =>
    have hadd : SameLine r (r.addLine l) := by
      unfold HttpRequestMsg.addLine
      split
      · exact .refl r
      · exact sameLine_addHeader r _ _
    exact hadd.trans (ih (r.addLine l))

end SrvAsync
