import SrvAsync.Http.Reorder

/-!
# The keep-alive decision

`WantKeepAlive` looks for two words in the value of the `Connection` header.  It searches the
value as a whole, so a word is found inside a longer one too; and the header map keeps the last
line of a name, so the other `Connection` lines are not looked at.  Where there is one such
line, and no option contains one of the words as a part, this is the decision by the list of
options.

## Main definitions

* `options` — the comma-separated elements of a value.
* `wantsByWords`, `wantsByOptions` — the decision by the words in the options, and by the options.

## Main results

* `containsCi_iff` — `contains_ci` finds a text in lower case.
* `Grammar.wantKeepAlive` — the words are searched in the last `Connection` line.
* `wantKeepAlive_of_grammar` — **the decision for an accepted section** with one such line.
-/

namespace SrvAsync

open Http HttpRequestMsg

/-! ### The search for a word -/

/-- The inner loop of `contains_ci` counts up to the length of the needle exactly when the needle
stands there. -/
theorem ciMatch_eq_length_iff {haystack needle : Bytes} {i : ℕ}
    (hi : i + needle.length ≤ haystack.length) : ∀ (fuel j : ℕ), j + fuel = needle.length →
      (ciMatch haystack needle i fuel j = needle.length ↔
        (toLower needle).drop j <+: (toLower haystack).drop (i + j)) := by
  intro fuel
  induction fuel with
  | zero =>
    intro j hj
    have hnil : (toLower needle).drop j = [] :=
      List.drop_eq_nil_of_le (by unfold toLower; rw [List.length_map]; omega)
    unfold ciMatch
    rw [hnil]
    exact iff_of_true (by omega) (List.nil_prefix)
  | succ fuel ih =>
    intro j hj
    have hn : j < needle.length := by omega
    have hh : i + j < haystack.length := by omega
    have hdropn : (toLower needle).drop j = tolower needle[j] :: (toLower needle).drop (j + 1) := by
      unfold toLower
      rw [List.drop_eq_getElem_cons (by rw [List.length_map]; exact hn), List.getElem_map]
    have hdroph : (toLower haystack).drop (i + j) =
        tolower haystack[i + j] :: (toLower haystack).drop (i + (j + 1)) := by
      unfold toLower
      rw [List.drop_eq_getElem_cons (by rw [List.length_map]; exact hh), List.getElem_map,
        Nat.add_assoc]
    have hgetn : needle.getD j 0 = needle[j] := List.getD_eq_getElem _ _ hn
    have hgeth : haystack.getD (i + j) 0 = haystack[i + j] := List.getD_eq_getElem _ _ hh
    unfold ciMatch
    rw [hdropn, hdroph, List.cons_prefix_cons, hgetn, hgeth]
    -- the loop goes on when the two bytes are the same, and is left at the first that differ
    by_cases heq : tolower haystack[i + j] = tolower needle[j]
    · rw [if_pos ⟨hn, heq⟩, ih (j + 1) (by omega)]
      exact (and_iff_right heq.symm).symm
    · rw [if_neg fun hh => heq hh.2]
      exact iff_of_false (by omega) fun hh => heq hh.1.symm

/-- **What `contains_ci` finds**: a text that is not empty, in lower case. -/
theorem containsCi_iff {haystack needle : Bytes} : containsCi haystack needle = true ↔
    needle ≠ [] ∧ toLower needle <:+: toLower haystack := by
  have hlen : ∀ s : Bytes, (toLower s).length = s.length := fun s => List.length_map _
  unfold containsCi
  by_cases hnil : needle = []
  · simp [hnil]
  by_cases hlt : haystack.length < needle.length
  · rw [if_pos (by simp [hlt])]
    refine iff_of_false Bool.false_ne_true fun h => ?_
    have hle := h.2.length_le
    rw [hlen, hlen] at hle
    omega
  rw [if_neg (by simp [hnil, hlt]), List.any_eq_true]
  -- one round of the outer loop
  have hround : ∀ i, i < haystack.length - needle.length + 1 →
      ((ciMatch haystack needle i needle.length 0 == needle.length) = true ↔
        toLower needle <+: (toLower haystack).drop i) := by
    intro i hi
    rw [beq_iff_eq, ciMatch_eq_length_iff (by omega) _ _ (Nat.zero_add _), List.drop_zero,
      Nat.add_zero]
  constructor
  · rintro ⟨i, hi, hm⟩
    have hp := (hround i (List.mem_range.mp hi)).mp hm
    exact ⟨hnil, List.infix_iff_prefix_suffix.mpr ⟨_, hp, List.drop_suffix _ _⟩⟩
  · rintro ⟨-, s, t, hst⟩
    have hi : s.length < haystack.length - needle.length + 1 := by
      have := congrArg List.length hst
      simp only [List.length_append, hlen] at this
      omega
    refine ⟨s.length, List.mem_range.mpr hi, (hround _ hi).mpr ⟨t, ?_⟩⟩
    rw [← hst, List.append_assoc, List.drop_left]

/-! ### Options -/

/-- The comma-separated elements of a value, without the spaces around them and in lower case. -/
def options (v : Bytes) : List Bytes := (v.splitOn 44).map fun e => toLower (trimSpaces e)

/-- The spaces that are trimmed. -/
theorem exists_trimSpaces (s : Bytes) : ∃ a b, s = a ++ (trimSpaces s ++ b) ∧
    (∀ c ∈ a, c = SP) ∧ ∀ c ∈ b, c = SP := by
  refine ⟨s.takeWhile (· == SP), (s.dropWhile (· == SP)).rtakeWhile (· == SP), ?_, ?_, ?_⟩
  · unfold trimSpaces
    rw [List.rdropWhile_append_rtakeWhile, List.takeWhile_append_dropWhile]
  · exact fun c hc => eq_of_beq (List.mem_takeWhile_imp (p := (· == SP)) hc)
  · exact fun c hc => eq_of_beq (List.mem_rtakeWhile_imp (p := (· == SP)) hc)

theorem toLower_intercalate {c : Byte} (hc : tolower c = c) : ∀ ls : List Bytes,
    toLower ([c].intercalate ls) = [c].intercalate (ls.map toLower) := by
  intro ls
  induction ls with
  | nil => rfl
  | cons l ls ih =>
    cases ls with
    | nil => simp
    | cons l' ls =>
      have hcons : toLower (l ++ [c] ++ [c].intercalate (l' :: ls)) =
          toLower l ++ [c] ++ toLower ([c].intercalate (l' :: ls)) := by
        unfold toLower
        rw [List.map_append, List.map_append, List.map_cons, hc, List.map_nil]
      rw [List.intercalate_cons_cons, hcons, ih]
      simp only [List.map_cons, List.intercalate_cons_cons]

/-- **A word is in a value exactly when it is in one of the elements.** -/
theorem infix_toLower_iff {w v : Bytes} (hne : w ≠ []) (hcomma : 44 ∉ w) (hspace : SP ∉ w) :
    w <:+: toLower v ↔ ∃ o ∈ options v, w <:+: o := by
  -- a word has no space, so trimming does not touch it
  have htrim : ∀ e : Bytes, w <:+: toLower e ↔ w <:+: toLower (trimSpaces e) := by
    intro e
    obtain ⟨a, b, he, ha, hb⟩ := exists_trimSpaces e
    have hsp : tolower SP = SP := by decide
    have hlow : ∀ {s : Bytes}, (∀ c ∈ s, c = SP) → ∀ c ∈ toLower s, c ∉ w := by
      intro s hs c hc
      obtain ⟨x, hx, rfl⟩ := List.mem_map.mp hc
      rw [hs x hx, hsp]
      exact hspace
    have hsplit : toLower e = toLower a ++ (toLower (trimSpaces e) ++ toLower b) := by
      conv_lhs => rw [he]
      unfold toLower
      rw [List.map_append, List.map_append]
    rw [hsplit, List.infix_append_right_iff hne (hlow ha), List.infix_append_left_iff hne (hlow hb)]
  -- nor a comma, so it lies inside one element
  have hjoin : toLower v = [44].intercalate ((v.splitOn 44).map toLower) := by
    have hv : [44].intercalate (v.splitOn 44) = v := List.intercalate_splitOn 44
    conv_lhs => rw [← hv]
    exact toLower_intercalate (by decide) _
  rw [hjoin, List.infix_intercalate_iff hne hcomma]
  unfold options
  constructor
  · rintro ⟨l, hl, hw⟩
    obtain ⟨e, he, rfl⟩ := List.mem_map.mp hl
    exact ⟨_, List.mem_map_of_mem he, (htrim e).mp hw⟩
  · rintro ⟨o, ho, hw⟩
    obtain ⟨e, he, rfl⟩ := List.mem_map.mp ho
    exact ⟨_, List.mem_map_of_mem he, (htrim e).mpr hw⟩

/-- The decision by the words that are in the options. -/
def wantsByWords (opts : List Bytes) (version : Bytes) : Bool :=
  if ∃ o ∈ opts, ascii "close" <:+: o then false
  else if ∃ o ∈ opts, ascii "keep-alive" <:+: o then true
  else version != ascii "HTTP/1.0"

/-- The decision by the options. -/
def wantsByOptions (opts : List Bytes) (version : Bytes) : Bool :=
  if ascii "close" ∈ opts then false
  else if ascii "keep-alive" ∈ opts then true
  else version != ascii "HTTP/1.0"

/-- The options of the line that counts. -/
def lastOptions (fields : List Bytes) : List Bytes :=
  ((lastLine fields (ascii "connection")).map fun l => options (lineValue l)).getD []

/-- The options of all the `Connection` lines. -/
def connectionOptions (fields : List Bytes) : List Bytes :=
  (fields.filter (HasName (ascii "connection"))).flatMap fun l => options (lineValue l)

/-! ### The decision -/

section

variable {buf line : Bytes} {fields : List Bytes} {method target version : Bytes}

/-- The header the decision is made by. -/
theorem Grammar.connection (h : Grammar buf line fields method target version) (c : RequestClass) :
    ((fresh c).parseRequestHeader buf).headers.lookup (toLower (ascii "Connection")) =
      (lastLine fields (ascii "connection")).map fun l => .string (lineValue l) := by
  have hlow : toLower (ascii "Connection") = ascii "connection" := by decide
  rw [hlow, h.lookup c]
  cases hlast : lastLine fields (ascii "connection") with
  | none => rfl
  | some l =>
    have hname := (lastLine_mem hlast).2.2
    have hne : ascii "connection" ≠ ascii "content-length" := by decide
    unfold storedValue
    rw [Option.map_some, hname, if_neg hne]
    rfl

/-- The words are searched in the last line. -/
theorem Grammar.wantKeepAlive (h : Grammar buf line fields method target version)
    (c : RequestClass) : ((fresh c).parseRequestHeader buf).wantKeepAlive =
      some (wantsByWords (lastOptions fields) version) := by
  have herr : ((fresh c).parseRequestHeader buf).isError = false := by
    unfold HttpRequestMsg.isError
    rw [h.errorCode c]
    rfl
  have hversion : ((fresh c).parseRequestHeader buf).version = version := (h.sameLine c).version
  have hword : ∀ {w : Bytes}, w ≠ [] → 44 ∉ w → SP ∉ w → toLower w = w → ∀ v,
      (containsCi v w = true ↔ ∃ o ∈ options v, w <:+: o) := by
    intro w hne hcomma hspace hlow v
    rw [containsCi_iff, hlow, infix_toLower_iff hne hcomma hspace]
    exact and_iff_right hne
  have hclose := hword (w := ascii "close") (by decide) (by decide) (by decide) (by decide)
  have hkeep := hword (w := ascii "keep-alive") (by decide) (by decide) (by decide) (by decide)
  unfold HttpRequestMsg.wantKeepAlive HttpMsg.hasHeader HttpMsg.getHeaderValue
  rw [herr, if_neg Bool.false_ne_true, h.connection c, hversion]
  unfold lastOptions wantsByWords
  cases lastLine fields (ascii "connection") with
  | none => simp
  | some l =>
    simp only [Option.map_some, Option.isSome_some, if_true, Option.getD_some,
      HeaderValue.asString, hclose, hkeep]

/-- Where no option has a word as a part of it, the words are the options. -/
theorem wantsByWords_eq {opts : List Bytes}
    (hclose : ∀ o ∈ opts, ascii "close" <:+: o → o = ascii "close")
    (hkeep : ∀ o ∈ opts, ascii "keep-alive" <:+: o → o = ascii "keep-alive") (version : Bytes) :
    wantsByWords opts version = wantsByOptions opts version := by
  have hmem : ∀ {w : Bytes}, (∀ o ∈ opts, w <:+: o → o = w) →
      ((∃ o ∈ opts, w <:+: o) ↔ w ∈ opts) := by
    intro w hw
    constructor
    · rintro ⟨o, ho, hin⟩
      exact hw o ho hin ▸ ho
    · exact fun h => ⟨w, h, List.infix_rfl⟩
  unfold wantsByWords wantsByOptions
  simp only [hmem hclose, hmem hkeep]

/-- One `Connection` line is the last one. -/
theorem lastOptions_eq (h : (fields.filter (HasName (ascii "connection"))).length ≤ 1) :
    lastOptions fields = connectionOptions fields := by
  unfold lastOptions connectionOptions lastLine
  cases hf : fields.filter (HasName (ascii "connection")) with
  | nil => rfl
  | cons l ls =>
    rw [hf, List.length_cons] at h
    have hnil : ls = [] := List.length_eq_zero_iff.mp (by omega)
    simp [hnil]

/-- **The keep-alive decision** for a section with at most one `Connection` line is made by the
words in its options.  With no word inside a longer option, it is made by the list of options. -/
theorem wantKeepAlive_of_grammar (h : Grammar buf line fields method target version)
    (c : RequestClass) (hone : (fields.filter (HasName (ascii "connection"))).length ≤ 1) :
    ((fresh c).parseRequestHeader buf).wantKeepAlive =
        some (wantsByWords (connectionOptions fields) version) ∧
      ((∀ o ∈ connectionOptions fields, ascii "close" <:+: o → o = ascii "close") →
        (∀ o ∈ connectionOptions fields, ascii "keep-alive" <:+: o → o = ascii "keep-alive") →
        ((fresh c).parseRequestHeader buf).wantKeepAlive =
          some (wantsByOptions (connectionOptions fields) version)) := by
  have hwords : ((fresh c).parseRequestHeader buf).wantKeepAlive =
      some (wantsByWords (connectionOptions fields) version) := by
    rw [h.wantKeepAlive c, lastOptions_eq hone]
  refine ⟨hwords, fun hclose hkeep => ?_⟩
  rw [hwords, wantsByWords_eq hclose hkeep]

end

/-- A GET request with this `Connection` line. -/
theorem grammar_connection {l : Bytes} (hl : Unbroken l) (hname : HasName (ascii "connection") l) :
    Grammar (headerSection (ascii "GET / HTTP/1.1") [l, []]) (ascii "GET / HTTP/1.1") [l, []]
      (ascii "GET") (ascii "/") (ascii "HTTP/1.1") where
  text := rfl
  unbroken := by
    intro l' hl'
    simp only [List.mem_cons, List.not_mem_nil, or_false] at hl'
    rcases hl' with rfl | rfl | rfl
    · decide
    · exact hl
    · decide
  requestLine := ⟨by decide, by decide, by decide, by decide, by decide, by decide⟩
  colon := by
    intro l' hl'
    simp only [List.mem_cons, List.not_mem_nil, or_false] at hl'
    rcases hl' with rfl | rfl
    · exact .inr hname.1
    · exact .inl rfl
  length := by
    intro l' hl' hlength
    simp only [List.mem_cons, List.not_mem_nil, or_false] at hl'
    rcases hl' with rfl | rfl
    · exact absurd (hname.2.symm.trans hlength.2) (by decide)
    · cases hlength.1
  present := fun hb => absurd hb (by decide)

/-- A list with the option in it, in another case and between spaces. -/
theorem wantKeepAlive_close : ((fresh .get).parseRequestHeader (headerSection
    (ascii "GET / HTTP/1.1") [ascii "connection: TE,  Close ", []])).wantKeepAlive = some false := by
  have h := grammar_connection (l := ascii "connection: TE,  Close ") (by decide) (by decide)
  exact ((wantKeepAlive_of_grammar h .get (by decide)).2 (by decide) (by decide)).trans (by decide)

/-- **A longer word closes the connection.** -/
theorem closed_is_close : ¬ ∀ (buf line : Bytes) (fields : List Bytes)
    (method target version : Bytes) (c : RequestClass), Grammar buf line fields method target version →
      ((fresh c).parseRequestHeader buf).wantKeepAlive =
        some (wantsByOptions (connectionOptions fields) version) := by
  intro hall
  have h := grammar_connection (l := ascii "Connection: closed") (by decide) (by decide)
  have hkeep := hall _ _ _ _ _ _ .get h
  rw [h.wantKeepAlive .get] at hkeep
  exact absurd hkeep (by decide)

end SrvAsync
