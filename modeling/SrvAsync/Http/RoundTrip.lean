import SrvAsync.Http.Reorder

/-!
# Requests that are printed and read again

`Serialize` prints the entries of the header map, one line each, with the name in lower case
and the value as the map has it.  Such a line says what the line it was stored from says, so
the section that is printed is parsed to the same map, in whatever order the map is walked.

## Main definitions

* `reprint` — a header line as it is printed again.
* `reprints` — the header lines of a printed request.

## Main results

* `storedValue_reprint`, `unbroken_reprint` — what a line that is printed says.
* `Grammar.reprint` — the section that is printed is accepted.
* `request_round_trip` — **a request that is printed is parsed to itself**.
-/

namespace SrvAsync

open Http HttpRequestMsg

/-! ### Lower case -/

theorem tolower_tolower (c : Byte) : tolower (tolower c) = tolower c := by
  unfold tolower
  by_cases h : 65 ≤ c ∧ c ≤ 90
  · have hnot : ¬ (65 ≤ c + 32 ∧ c + 32 ≤ 90) := by
      simp only [UInt8.le_iff_toNat_le, UInt8.toNat_add, UInt8.reduceToNat] at h ⊢
      omega
    rw [if_pos h, if_neg hnot]
  · rw [if_neg h, if_neg h]

/-- Nothing below the letters comes of a letter. -/
theorem tolower_eq_iff {b c : Byte} (hb : b < 65) : tolower c = b ↔ c = b := by
  unfold tolower
  by_cases h : 65 ≤ c ∧ c ≤ 90
  · rw [if_pos h]
    constructor
    · rintro rfl
      simp only [UInt8.le_iff_toNat_le, UInt8.lt_iff_toNat_lt, UInt8.toNat_add,
        UInt8.reduceToNat] at h hb
      omega
    · rintro rfl
      simp only [UInt8.le_iff_toNat_le, UInt8.lt_iff_toNat_lt, UInt8.reduceToNat] at h hb
      omega
  · rw [if_neg h]

@[simp] theorem toLower_toLower (s : Bytes) : toLower (toLower s) = toLower s := by
  unfold toLower
  rw [List.map_map]
  exact List.map_congr_left fun c _ => tolower_tolower c

theorem mem_toLower_iff {b : Byte} {s : Bytes} (hb : b < 65) : b ∈ toLower s ↔ b ∈ s := by
  unfold toLower
  rw [List.mem_map]
  constructor
  · rintro ⟨c, hc, heq⟩
    exact (tolower_eq_iff hb).mp heq ▸ hc
  · exact fun h => ⟨b, h, (tolower_eq_iff hb).mpr rfl⟩

theorem unbroken_toLower {s : Bytes} (h : Unbroken s) : Unbroken (toLower s) := by
  have hcr : CR < 65 := by decide
  have hlf : LF < 65 := by decide
  rw [unbroken_iff_isChain] at h ⊢
  unfold toLower
  rw [List.isChain_map]
  refine h.imp fun a b hab => ?_
  rw [tolower_eq_iff hcr, tolower_eq_iff hlf]
  exact hab

/-! ### Printed lines -/

/-- A header line as it is printed again: its name in lower case, and what the map has of it. -/
def reprint (l : Bytes) : Bytes := lineName l ++ ascii ": " ++ (storedValue l).text

section

variable {l method : Bytes}

theorem named_reprint (hc : 58 ∈ l) : Named (reprint l) (lineName l) (SP :: (storedValue l).text) where
  eq := List.append_assoc _ _ _
  name_colon := fun h => (named_of_colon hc).name_colon ((mem_toLower_iff (by decide)).mp h)

theorem lineName_reprint (hc : 58 ∈ l) : lineName (reprint l) = lineName l := by
  have hname : lineName (reprint l) = toLower (lineName l) :=
    congrArg toLower (named_reprint hc).eq_parts.2.1
  have hlow : toLower (lineName l) = lineName l := toLower_toLower _
  rw [hname, hlow]

/-- A text without spaces is not trimmed. -/
theorem trimSpaces_of_not_mem {s : Bytes} (h : SP ∉ s) : trimSpaces s = s := by
  have hleft : s.dropWhile (· == SP) = s := by
    cases s with
    | nil => rfl
    | cons b s =>
      refine List.dropWhile_cons_of_neg fun hb => h ?_
      exact List.mem_cons.mpr (.inl (eq_of_beq hb).symm)
  unfold trimSpaces
  rw [hleft, List.rdropWhile_eq_self_iff]
  exact fun hne hlast => h (eq_of_beq hlast ▸ List.getLast_mem hne)

/-- What the map has of a line has no spaces around it. -/
theorem trimSpaces_text (l : Bytes) : trimSpaces (storedValue l).text = (storedValue l).text := by
  unfold storedValue
  split
  · refine trimSpaces_of_not_mem fun h => ?_
    exact absurd (isDigit_of_mem_decimal h) (by decide)
  · exact trimSpaces_trimSpaces _

theorem lineValue_reprint (hc : 58 ∈ l) : lineValue (reprint l) = (storedValue l).text := by
  have hvalue : lineValue (reprint l) = trimSpaces ([SP] ++ (storedValue l).text) :=
    congrArg trimSpaces (named_reprint hc).eq_parts.2.2
  rw [hvalue, trimSpaces_append_left fun c h => List.mem_singleton.mp h, trimSpaces_text]

/-- **What a line that is printed says** is what the line says. -/
theorem storedValue_reprint (hc : 58 ∈ l) : storedValue (reprint l) = storedValue l := by
  have hname := lineName_reprint hc
  have hvalue := lineValue_reprint hc
  unfold storedValue at hvalue ⊢
  rw [hname, hvalue]
  split
  · exact congrArg HeaderValue.size (digitsValue_decimal _)
  · rfl

theorem hasName_reprint_iff (hc : 58 ∈ l) {k : Bytes} : HasName k (reprint l) ↔ lineName l = k := by
  unfold HasName
  rw [lineName_reprint hc]
  exact and_iff_right (named_reprint hc).eq_parts.1

/-- The number is printed as a number. -/
theorem length_reprint (hname : HasName (ascii "content-length") l) :
    IsDecimal (lineValue (reprint l)) ∧
      digitsValue (lineValue (reprint l)) = digitsValue (lineValue l) := by
  rw [lineValue_reprint hname.1]
  unfold storedValue
  rw [if_pos hname.2]
  refine ⟨⟨?_, fun c hc => isDigit_of_mem_decimal hc⟩, digitsValue_decimal _⟩
  change decimal _ ≠ []
  unfold decimal
  exact fun h => Nat.toDigits_ne_nil (List.map_eq_nil_iff.mp h)

/-- **A line that is printed stays on its line.** -/
theorem unbroken_reprint (hc : 58 ∈ l) (h : Unbroken l) : Unbroken (reprint l) := by
  have hline := (named_of_colon hc).eq
  have hcons : rawName l ++ 58 :: rawValue l = rawName l ++ ([58] ++ rawValue l) := rfl
  rw [hline, hcons, unbroken_append_iff, unbroken_append_iff] at h
  obtain ⟨hname, ⟨-, hvalue, -⟩, -⟩ := h
  have htext : Unbroken (storedValue l).text := by
    unfold storedValue
    split
    · exact unbroken_of_not_mem (noBreak_decimal _).1
    · intro hin
      obtain ⟨u, hu⟩ : lineValue l <+: (rawValue l).dropWhile (· == SP) := List.rdropWhile_prefix _ _
      refine hvalue (hin.trans ?_)
      exact (List.IsPrefix.isInfix ⟨u, hu⟩).trans (List.dropWhile_suffix _).isInfix
  have hsep : ascii ": " = [58, SP] := rfl
  unfold reprint
  rw [List.append_assoc, unbroken_append_iff, unbroken_append_iff, hsep]
  refine ⟨unbroken_toLower hname, ⟨by decide, htext, ?_⟩, ?_⟩
  · exact fun hh => absurd hh.1 (by decide)
  · exact fun hh => absurd hh.2 (by simp [LF])

end

/-! ### Printed requests -/

/-- The line that is printed for a key of the map. -/
def keptLine (fields : List Bytes) (k : Bytes) : Bytes := ((lastLine fields k).map reprint).getD []

/-- The header lines of a request that is printed. -/
def reprints (P : Platform) (fields : List Bytes) (r : HttpRequestMsg) : List Bytes :=
  (P.order r.headers.keys).map (keptLine fields)

section

variable {buf line : Bytes} {fields : List Bytes} {method target version : Bytes}

/-- The keys of the map are the names of the lines. -/
theorem Grammar.mem_order (h : Grammar buf line fields method target version) (P : Platform)
    (c : RequestClass) {k : Bytes} :
    k ∈ P.order ((fresh c).parseRequestHeader buf).headers.keys ↔
      ∃ l, lastLine fields k = some l := by
  rw [(P.order_perm _).mem_iff, ← AList.mem_keys, ← AList.lookup_isSome, h.lookup c,
    Option.isSome_map, Option.isSome_iff_exists]

/-- A line that is printed, and the line it was stored from. -/
theorem Grammar.mem_reprints (h : Grammar buf line fields method target version) (P : Platform)
    (c : RequestClass) {l : Bytes}
    (hl : l ∈ reprints P fields ((fresh c).parseRequestHeader buf)) :
    ∃ k l', lastLine fields k = some l' ∧ l = reprint l' := by
  obtain ⟨k, hk, rfl⟩ := List.mem_map.mp hl
  obtain ⟨l', hl'⟩ := (h.mem_order P c).mp hk
  refine ⟨k, l', hl', ?_⟩
  unfold keptLine
  rw [hl']
  rfl

/-- **The section that is printed is accepted.** -/
theorem Grammar.reprint (h : Grammar buf line fields method target version) (P : Platform)
    (c : RequestClass) :
    Grammar
      (headerSection line (reprints P fields ((fresh c).parseRequestHeader buf) ++ [[]])) line
      (reprints P fields ((fresh c).parseRequestHeader buf) ++ [[]]) method target version := by
  -- every line that is printed, but the empty one, comes from a line of the section
  have hfrom : ∀ {l}, l ∈ reprints P fields ((fresh c).parseRequestHeader buf) ++ [[]] → l ≠ [] →
      ∃ l' ∈ fields, 58 ∈ l' ∧ l = SrvAsync.reprint l' := by
    intro l hl hne
    rcases List.mem_append.mp hl with hl | hl
    · obtain ⟨k, l', hl', rfl⟩ := h.mem_reprints P c hl
      obtain ⟨hmem, hname⟩ := lastLine_mem hl'
      exact ⟨l', hmem, hname.1, rfl⟩
    · exact absurd (List.mem_singleton.mp hl) hne
  refine ⟨rfl, ?_, h.requestLine, ?_, ?_, ?_⟩
  · intro l hl
    rcases List.mem_cons.mp hl with rfl | hl
    · exact h.unbroken l List.mem_cons_self
    · by_cases hne : l = []
      · subst hne
        decide
      · obtain ⟨l', hmem, hc, rfl⟩ := hfrom hl hne
        exact unbroken_reprint hc (h.unbroken l' (List.mem_cons_of_mem line hmem))
  · intro l hl
    by_cases hne : l = []
    · exact .inl hne
    · obtain ⟨l', -, hc, rfl⟩ := hfrom hl hne
      exact .inr (named_reprint hc).eq_parts.1
  · intro l hl hname
    obtain ⟨l', hmem, hc, rfl⟩ := hfrom hl (List.ne_nil_of_mem hname.1)
    have hname' : HasName (ascii "content-length") l' := ⟨hc, (hasName_reprint_iff hc).mp hname⟩
    obtain ⟨hbody, -, hle⟩ := h.length l' hmem hname'
    obtain ⟨hdec, heq⟩ := length_reprint hname'
    exact ⟨hbody, hdec, heq ▸ hle⟩
  · intro hbody
    obtain ⟨l, hmem, hname⟩ := h.present hbody
    -- of the lines with a content length the last one is printed
    obtain ⟨l', hl'⟩ : ∃ l', lastLine fields (ascii "content-length") = some l' := by
      refine Option.ne_none_iff_exists'.mp fun hnone => ?_
      exact lastLine_eq_none_iff.mp hnone l hmem hname
    obtain ⟨hc, hname'⟩ := (lastLine_mem hl').2
    refine ⟨SrvAsync.reprint l', List.mem_append_left _ ?_, (hasName_reprint_iff hc).mpr hname'⟩
    refine List.mem_map.mpr ⟨_, (h.mem_order P c).mpr ⟨l', hl'⟩, ?_⟩
    unfold keptLine
    rw [hl']
    rfl

/-- The line that counts for a name is printed, and no other with the name. -/
theorem Grammar.lastLine_reprints (h : Grammar buf line fields method target version)
    (P : Platform) (c : RequestClass) (k : Bytes) :
    lastLine (reprints P fields ((fresh c).parseRequestHeader buf) ++ [[]]) k =
      (lastLine fields k).map SrvAsync.reprint := by
  have hnodup : (P.order ((fresh c).parseRequestHeader buf).headers.keys).Nodup :=
    (P.order_perm _).nodup_iff.mpr (AList.keys_nodup _)
  have hkept : ∀ {k'}, k' ∈ P.order ((fresh c).parseRequestHeader buf).headers.keys →
      (HasName k (keptLine fields k') ↔ k' = k) := by
    intro k' hk'
    obtain ⟨l, hl⟩ := (h.mem_order P c).mp hk'
    obtain ⟨-, hc, rfl⟩ := lastLine_mem hl
    unfold keptLine
    rw [hl]
    exact hasName_reprint_iff hc
  have hempty : ¬ HasName k [] := fun hh => List.not_mem_nil hh.1
  cases hl : lastLine fields k with
  | none =>
    rw [Option.map_none, lastLine_eq_none_iff]
    intro l hmem hname
    rcases List.mem_append.mp hmem with hmem | hmem
    · obtain ⟨k', hk', rfl⟩ := List.mem_map.mp hmem
      obtain rfl := (hkept hk').mp hname
      obtain ⟨l, hl'⟩ := (h.mem_order P c).mp hk'
      cases hl.symm.trans hl'
    · exact hempty (List.mem_singleton.mp hmem ▸ hname)
  | some l =>
    have hk := (h.mem_order P c).mpr ⟨l, hl⟩
    obtain ⟨A, B, hsplit⟩ := List.append_of_mem hk
    have hkeep : keptLine fields k = SrvAsync.reprint l := by
      unfold keptLine
      rw [hl]
      rfl
    refine lastLine_eq_some_iff.mpr ⟨A.map (keptLine fields), B.map (keptLine fields) ++ [[]], ?_,
      ?_, ?_⟩
    · unfold reprints
      rw [hsplit, List.map_append, List.map_cons, hkeep, List.append_assoc, List.cons_append]
    · exact hkeep ▸ (hkept hk).mpr rfl
    · intro l' hmem hname
      rcases List.mem_append.mp hmem with hmem | hmem
      · obtain ⟨k', hk', rfl⟩ := List.mem_map.mp hmem
        have hin : k' ∈ P.order ((fresh c).parseRequestHeader buf).headers.keys := by
          rw [hsplit]
          exact List.mem_append_right A (List.mem_cons_of_mem k hk')
        obtain rfl := (hkept hin).mp hname
        -- a key is walked once
        rw [hsplit] at hnodup
        exact (List.nodup_cons.mp (List.nodup_append.mp hnodup).2.1).1 hk'
      · exact hempty (List.mem_singleton.mp hmem ▸ hname)

/-- What `Serialize` prints of an accepted request. -/
theorem Grammar.serialize_eq (h : Grammar buf line fields method target version) (P : Platform)
    (c : RequestClass) (body : Bytes) :
    (((fresh c).parseRequestHeader buf).appendBody body).serialize P =
      headerSection line (reprints P fields ((fresh c).parseRequestHeader buf)) ++
        (crlf ++ body) := by
  have hsame := h.sameLine c
  have hlines : (P.order ((fresh c).parseRequestHeader buf).headers.keys).flatMap
      (((fresh c).parseRequestHeader buf).appendBody body).headerLine =
      (reprints P fields ((fresh c).parseRequestHeader buf)).flatMap (· ++ crlf) := by
    unfold reprints
    rw [List.flatMap_map]
    refine List.flatMap_congr fun k hk => ?_
    obtain ⟨l, hl⟩ := (h.mem_order P c).mp hk
    have hlookup : (((fresh c).parseRequestHeader buf).appendBody body).headers.lookup k =
        some (storedValue l) := by
      change ((fresh c).parseRequestHeader buf).headers.lookup k = _
      rw [h.lookup c, hl]
      rfl
    obtain ⟨-, -, rfl⟩ := lastLine_mem hl
    unfold HttpMsg.headerLine keptLine
    rw [hlookup, hl]
    rfl
  have hbody : (((fresh c).parseRequestHeader buf).appendBody body).body = body := by
    change ((fresh c).parseRequestHeader buf).body ++ body = body
    rw [hsame.body]
    rfl
  have hmethod : (((fresh c).parseRequestHeader buf).appendBody body).method = method := hsame.method
  have htarget : (((fresh c).parseRequestHeader buf).appendBody body).target = target := hsame.target
  have hversion : (((fresh c).parseRequestHeader buf).appendBody body).version = version :=
    hsame.version
  have hline : line = method ++ ([SP] ++ (target ++ ([SP] ++ version))) := h.requestLine.eq
  unfold HttpRequestMsg.serialize HttpMsg.serializeHeadersAndBody
  change _ ++ ((P.order ((fresh c).parseRequestHeader buf).headers.keys).flatMap _ ++ crlf ++ _) = _
  rw [hlines, hbody, hmethod, htarget, hversion]
  unfold headerSection
  rw [List.flatMap_cons, hline]
  simp only [List.append_assoc]

end

/-- **A request that is printed is parsed to itself.**  The first empty line of the text ends the
header part, which is accepted with the same method, target, version and header map, and the
rest is the body. -/
theorem request_round_trip {buf : Bytes} {c : RequestClass}
    (h : ((fresh c).parseRequestHeader buf).errorCode = .none) (P : Platform) (body : Bytes)
    (c' : RequestClass) :
    let text := (((fresh c).parseRequestHeader buf).appendBody body).serialize P
    let n := findHttpHeadersEnd text
    text.take n = ((fresh c).parseRequestHeader buf).serialize P ∧ n ≠ 0 ∧ text.drop n = body ∧
      SameResult ((fresh c).parseRequestHeader buf) ((fresh c').parseRequestHeader (text.take n)) := by
  obtain ⟨line, fields, method, target, version, hg⟩ := exists_grammar h
  have hprint := hg.reprint P c
  have hsection : headerSection line (reprints P fields ((fresh c).parseRequestHeader buf) ++ [[]]) =
      headerSection line (reprints P fields ((fresh c).parseRequestHeader buf)) ++ crlf := by
    unfold headerSection
    rw [← List.cons_append, List.flatMap_append]
    rfl
  -- no line is empty or holds a CRLF, so the first empty line is the end
  have hls : ∀ l ∈ line :: reprints P fields ((fresh c).parseRequestHeader buf),
      l ≠ [] ∧ List.firstInfix? crlf (l ++ crlf) = some l.length := by
    intro l hl
    rcases List.mem_cons.mp hl with rfl | hl
    · refine ⟨?_, unbroken_iff.mp (hg.unbroken l List.mem_cons_self)⟩
      rw [hg.requestLine.eq]
      exact List.append_ne_nil_of_left_ne_nil hg.requestLine.method_ne _
    · refine ⟨?_, unbroken_iff.mp (hprint.unbroken l
        (List.mem_cons_of_mem line (List.mem_append_left _ hl)))⟩
      obtain ⟨k, l', hl', rfl⟩ := hg.mem_reprints P c hl
      exact List.ne_nil_of_mem (named_reprint (lastLine_mem hl').2.1).eq_parts.1
  obtain ⟨hend, -⟩ := header_section (List.cons_ne_nil _ _) hls body
  have hnobody : ((fresh c).parseRequestHeader buf).serialize P =
      headerSection line (reprints P fields ((fresh c).parseRequestHeader buf)) ++ crlf := by
    have heq := hg.serialize_eq P c []
    have hsame : ((fresh c).parseRequestHeader buf).appendBody [] =
        (fresh c).parseRequestHeader buf := by
      unfold HttpRequestMsg.appendBody HttpMsg.appendBody
      simp only [List.append_nil]
    rw [hsame, List.append_nil] at heq
    exact heq
  intro text n
  have htext : text = headerSection line (reprints P fields ((fresh c).parseRequestHeader buf)) ++
      crlf ++ body := by
    rw [List.append_assoc]
    exact hg.serialize_eq P c body
  have hn : n = (headerSection line (reprints P fields ((fresh c).parseRequestHeader buf)) ++
      crlf).length := by
    change findHttpHeadersEnd text = _
    rw [htext, List.append_assoc]
    exact hend
  have htake : text.take n = headerSection line
      (reprints P fields ((fresh c).parseRequestHeader buf)) ++ crlf := by
    rw [hn, htext, List.take_left]
  have hsame := hg.sameLine c
  have hsame' := hprint.sameLine c'
  refine ⟨htake.trans hnobody.symm, ?_, ?_, ?_⟩
  · rw [hn, List.length_append]
    exact Nat.succ_ne_zero _
  · rw [hn, htext, List.drop_left]
  · rw [htake, ← hsection]
    refine ⟨h.trans hsame'.errorCode.symm, hsame.method.trans hsame'.method.symm,
      hsame.target.trans hsame'.target.symm, hsame.version.trans hsame'.version.symm, fun k => ?_⟩
    -- the header maps agree key by key
    rw [hprint.lookup c', hg.lastLine_reprints P c, hg.lookup c, Option.map_map]
    cases hl : lastLine fields k with
    | none => rfl
    | some l => exact congrArg some (storedValue_reprint (lastLine_mem hl).2.1).symm

/-- A length with leading zeros is printed in its shortest form, and read back as the number. -/
theorem request_round_trip_post :
    let text := (((fresh .post).parseRequestHeader (lengthSection (ascii "003"))).appendBody
      (ascii "a\r\n")).serialize .plain
    text.drop (findHttpHeadersEnd text) = ascii "a\r\n" ∧
      SameResult ((fresh .post).parseRequestHeader (lengthSection (ascii "003")))
        ((fresh .post).parseRequestHeader (text.take (findHttpHeadersEnd text))) :=
  (request_round_trip (by decide +kernel) .plain (ascii "a\r\n") .post).2.2

end SrvAsync
