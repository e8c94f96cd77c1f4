import SrvAsync.Http.Reorder

/-!
# Blanks around header values

The comment over the header loop quotes the grammar of a header field, with optional blanks
around the value; these are spaces and tabs.  `trim_spaces` drops the spaces only, so a tab
stays in the value: a string gets another value, and a length is no number any more.

## Main definitions

* `Padding` — a header line, and blanks to be inserted around its value.
* `Unheard` — no tab goes into a line that counts.
* `BadAnyway` — a bad request with a tab in a length, whose values are not changed.

## Main results

* `lineStatus_padded`, `storedValue_padded_iff` — what blanks do to one line.
* `padding_harmless_iff` — **when blanks around the values change nothing**.
-/

namespace SrvAsync

open Http HttpRequestMsg

/-- The horizontal tab. -/
def HT : Byte := 9

/-- **A header line, and blanks**: spaces and tabs, to be inserted behind the colon and in front
of the end of the line. -/
structure Padding where
  line : Bytes
  behindColon : Bytes
  beforeEnd : Bytes
  blank : ∀ c ∈ behindColon ++ beforeEnd, c = SP ∨ c = HT

namespace Padding

/-- The line with the blanks in it.  The line that ends a section has no value to pad. -/
def padded (p : Padding) : Bytes :=
  if p.line = [] then []
  else if 58 ∈ p.line then
    rawName p.line ++ 58 :: (p.behindColon ++ (rawValue p.line ++ p.beforeEnd))
  else p.line ++ p.beforeEnd

/-- One of the blanks is a tab. -/
def HasTab (p : Padding) : Prop := HT ∈ p.behindColon ++ p.beforeEnd

instance (p : Padding) : Decidable p.HasTab := inferInstanceAs (Decidable (_ ∈ _))

variable (p : Padding)

/-! ### One line -/

/-- Blanks are no bytes of a line end, and no colon. -/
theorem not_mem_blank {c : Byte} (hc : c ≠ SP ∧ c ≠ HT) :
    c ∉ p.behindColon ∧ c ∉ p.beforeEnd := by
  constructor
  · intro h
    rcases p.blank c (List.mem_append_left _ h) with rfl | rfl
    · exact hc.1 rfl
    · exact hc.2 rfl
  · intro h
    rcases p.blank c (List.mem_append_right _ h) with rfl | rfl
    · exact hc.1 rfl
    · exact hc.2 rfl

variable {p}

theorem named_padded (h : 58 ∈ p.line) : Named p.padded (rawName p.line)
    (p.behindColon ++ (rawValue p.line ++ p.beforeEnd)) := by
  have hne : p.line ≠ [] := List.ne_nil_of_mem h
  refine ⟨?_, (named_of_colon h).name_colon⟩
  unfold padded
  rw [if_neg hne, if_pos h]

theorem padded_eq_nil_iff : p.padded = [] ↔ p.line = [] := by
  unfold padded
  split
  · next h => exact ⟨fun _ => h, fun _ => rfl⟩
  · next h =>
    split
    · simp [h]
    · simp [h]

theorem colon_padded_iff : 58 ∈ p.padded ↔ 58 ∈ p.line := by
  have hblank := p.not_mem_blank (c := 58) (by decide)
  constructor
  · intro h
    by_contra hnot
    unfold padded at h
    rw [if_neg hnot] at h
    split at h
    · cases h
    · rcases List.mem_append.mp h with h | h
      · exact hnot h
      · exact hblank.2 h
  · exact fun h => (named_padded h).eq_parts.1

/-- The blanks leave the name of the line alone. -/
theorem hasName_padded_iff {k : Bytes} : HasName k p.padded ↔ HasName k p.line := by
  unfold HasName
  rw [colon_padded_iff]
  refine and_congr_right fun h => ?_
  have hname : lineName p.padded = lineName p.line := congrArg toLower (named_padded h).eq_parts.2.1
  rw [hname]

theorem lineValue_padded (h : 58 ∈ p.line) :
    lineValue p.padded = trimSpaces (p.behindColon ++ (rawValue p.line ++ p.beforeEnd)) :=
  congrArg trimSpaces (named_padded h).eq_parts.2.2

/-- **Spaces leave the value of the line alone, and a tab does not.** -/
theorem lineValue_padded_iff (h : 58 ∈ p.line) :
    lineValue p.padded = lineValue p.line ↔ ¬ p.HasTab := by
  rw [lineValue_padded h]
  unfold lineValue
  constructor
  · intro heq htab
    -- every tab is kept, so there is one more of them
    have hcount := congrArg (List.count HT) heq
    rw [count_trimSpaces (by decide), count_trimSpaces (by decide)] at hcount
    simp only [List.count_append] at hcount
    have hpos : 0 < (p.behindColon ++ p.beforeEnd).count HT := List.count_pos_iff.mpr htab
    rw [List.count_append] at hpos
    omega
  · intro htab
    have hspace : ∀ c ∈ p.behindColon ++ p.beforeEnd, c = SP := by
      intro c hc
      refine (p.blank c hc).resolve_right ?_
      rintro rfl
      exact htab hc
    rw [trimSpaces_append_left fun c hc => hspace c (List.mem_append_left _ hc),
      trimSpaces_append_right fun c hc => hspace c (List.mem_append_right _ hc)]

/-- A value with a tab in it is no number. -/
theorem not_isDecimal_padded (h : 58 ∈ p.line) (htab : p.HasTab) : ¬ IsDecimal (lineValue p.padded) := by
  rintro ⟨-, hdigits⟩
  have hmem : HT ∈ lineValue p.padded := by
    rw [lineValue_padded h, ← List.count_pos_iff, count_trimSpaces (by decide), List.count_pos_iff]
    rcases List.mem_append.mp htab with ht | ht
    · exact List.mem_append_left _ ht
    · exact List.mem_append_right _ (List.mem_append_right _ ht)
  exact absurd (hdigits HT hmem) (by decide)

/-- A tab goes into a content length. -/
def Spoils (p : Padding) : Prop := HasName (ascii "content-length") p.line ∧ p.HasTab

instance (p : Padding) : Decidable p.Spoils := inferInstanceAs (Decidable (_ ∧ _))

/-- **What blanks do to the status of a line**: a tab in a content length is a bad request. -/
theorem lineStatus_padded (method : Bytes) : lineStatus method p.padded =
    if p.Spoils then some .badRequest else lineStatus method p.line := by
  by_cases hnil : p.line = []
  · have hs : ¬ p.Spoils := by
      rintro ⟨⟨hc, -⟩, -⟩
      rw [hnil] at hc
      cases hc
    rw [if_neg hs, hnil, padded_eq_nil_iff.mpr hnil]
  by_cases hcolon : 58 ∈ p.line
  · have hname : lineName p.padded = lineName p.line :=
      congrArg toLower (named_padded hcolon).eq_parts.2.1
    unfold lineStatus
    rw [if_neg (mt padded_eq_nil_iff.mp hnil), if_neg hnil,
      if_neg (not_not.mpr (colon_padded_iff.mpr hcolon)), if_neg (not_not.mpr hcolon), hname]
    by_cases hk : lineName p.line = ascii "content-length"
    · rw [if_pos hk, if_pos hk]
      by_cases htab : p.HasTab
      · have hs : p.Spoils := ⟨⟨hcolon, hk⟩, htab⟩
        rw [if_neg fun hh => not_isDecimal_padded hcolon htab hh.2.1, if_pos hs]
      · have hs : ¬ p.Spoils := fun hs => htab hs.2
        rw [(lineValue_padded_iff hcolon).mpr htab, if_neg hs]
    · have hs : ¬ p.Spoils := fun hs => hk hs.1.2
      rw [if_neg hk, if_neg hk, if_neg hs]
  · have hs : ¬ p.Spoils := fun hs => hcolon hs.1.1
    unfold lineStatus
    rw [if_neg (mt padded_eq_nil_iff.mp hnil), if_neg hnil, if_pos (mt colon_padded_iff.mp hcolon),
      if_pos hcolon, if_neg hs]

/-- **What is stored of a line is the same** exactly when no tab goes into it. -/
theorem storedValue_padded_iff (h : 58 ∈ p.line) (hs : ¬ p.Spoils) :
    storedValue p.padded = storedValue p.line ↔ ¬ p.HasTab := by
  have hname : lineName p.padded = lineName p.line := congrArg toLower (named_padded h).eq_parts.2.1
  unfold storedValue
  rw [hname]
  by_cases hk : lineName p.line = ascii "content-length"
  · have htab : ¬ p.HasTab := fun ht => hs ⟨⟨h, hk⟩, ht⟩
    rw [if_pos hk, if_pos hk, (lineValue_padded_iff h).mpr htab]
    exact iff_of_true rfl htab
  · rw [if_neg hk, if_neg hk, ← lineValue_padded_iff h]
    exact HeaderValue.string.injEq _ _ ▸ Iff.rfl

/-- A line stays on its line when blanks are inserted. -/
theorem unbroken_padded (h : Unbroken p.line) : Unbroken p.padded := by
  obtain ⟨hcolon, hend⟩ := p.not_mem_blank (c := CR) (by decide)
  obtain ⟨-, hlf⟩ := p.not_mem_blank (c := LF) (by decide)
  have hjoin : ∀ {s : Bytes}, Unbroken s → Unbroken (s ++ p.beforeEnd) := fun hs =>
    unbroken_append_iff.mpr ⟨hs, unbroken_of_not_mem hend, fun hh => hlf (List.mem_of_head? hh.2)⟩
  unfold padded
  split
  · decide
  · split
    · next hc =>
      have hline := (named_of_colon hc).eq
      have hcons : ∀ t : Bytes, rawName p.line ++ 58 :: t = (rawName p.line ++ [58]) ++ t := by
        intro t
        rw [List.append_assoc]
        rfl
      rw [hline, hcons, unbroken_append_iff] at h
      obtain ⟨hname, hvalue, -⟩ := h
      rw [hcons, unbroken_append_iff]
      refine ⟨hname, ?_, ?_⟩
      · rw [unbroken_append_iff]
        exact ⟨unbroken_of_not_mem hcolon, hjoin hvalue,
          fun hh => hcolon (List.mem_of_getLast? hh.1)⟩
      · rw [List.getLast?_concat]
        exact fun hh => absurd hh.1 (by decide)
    · exact hjoin h

/-! ### The lines of a section -/

/-- The lines in front of the first one that is rejected without the blanks. -/
def good (method : Bytes) (ps : List Padding) : List Padding :=
  ps.takeWhile fun p => lineStatus method p.line = none

/-- Among them, those in front of the first content length with a tab. -/
def heard (method : Bytes) (ps : List Padding) : List Padding :=
  (good method ps).takeWhile fun p => ¬ p.Spoils

/-- The first line that is rejected without the blanks. -/
def firstBad (method : Bytes) (ps : List Padding) : Option Padding :=
  ps.find? fun p => lineStatus method p.line ≠ none

/-- The line that counts for a name. -/
def last (ps : List Padding) (k : Bytes) : Option Padding :=
  (ps.filter fun p => HasName k p.line).getLast?

variable {method k : Bytes} {ps : List Padding}

theorem mem_good (h : p ∈ good method ps) : p ∈ ps ∧ lineStatus method p.line = none :=
  ⟨(List.takeWhile_prefix _).subset h, of_decide_eq_true
    (List.mem_takeWhile_imp (p := fun p : Padding => decide (lineStatus method p.line = none)) h)⟩

theorem firstBad_eq_some (h : firstBad method ps = some p) :
    p ∈ ps ∧ lineStatus method p.line ≠ none :=
  ⟨List.mem_of_find?_eq_some h, of_decide_eq_true
    (List.find?_some (p := fun p : Padding => decide (lineStatus method p.line ≠ none)) h)⟩

theorem hasName_of_last (h : last ps k = some p) : p ∈ ps ∧ HasName k p.line := by
  obtain ⟨hp, hname⟩ := List.mem_filter.mp (List.mem_of_getLast? h)
  exact ⟨hp, of_decide_eq_true hname⟩

/-- Without a line of a name there is none in front of a length with a tab. -/
theorem last_heard_of_good (h : last (good method ps) k = none) : last (heard method ps) k = none := by
  unfold last at h ⊢
  rw [List.getLast?_eq_none_iff, List.filter_eq_nil_iff] at h ⊢
  exact fun p hp => h p ((List.takeWhile_prefix _).subset hp)

theorem lastLine_map_line : lastLine (ps.map line) k = (last ps k).map line := by
  unfold lastLine last
  rw [List.filter_map, List.getLast?_map]
  rfl

theorem lastLine_map_padded : lastLine (ps.map padded) k = (last ps k).map padded := by
  unfold lastLine last
  rw [List.filter_map, List.getLast?_map]
  congr 2
  refine List.filter_congr fun p _ => ?_
  simp [hasName_padded_iff]

theorem goodLines_map_line : goodLines method (ps.map line) = (good method ps).map line := by
  unfold goodLines good
  rw [List.takeWhile_map]
  rfl

theorem goodLines_map_padded : goodLines method (ps.map padded) = (heard method ps).map padded := by
  unfold goodLines heard good
  rw [List.takeWhile_map, List.takeWhile_takeWhile]
  congr 2
  funext p
  rw [Function.comp_apply, lineStatus_padded]
  by_cases hs : p.Spoils <;> simp [hs]

/-- The status without the blanks is that of the first line that is rejected. -/
theorem badStatus_map_line : badStatus method (ps.map line) =
    (firstBad method ps).bind fun p => lineStatus method p.line := by
  unfold badStatus firstBad
  induction ps with
  | nil => rfl
  | cons p ps ih =>
    rw [List.map_cons, List.findSome?_cons, ih, List.find?_cons]
    cases hp : lineStatus method p.line with
    | none => simp
    | some st => simp [hp]

/-- The status with the blanks. -/
theorem badStatus_map_padded : badStatus method (ps.map padded) =
    if ∃ p ∈ good method ps, p.Spoils then some .badRequest
    else (firstBad method ps).bind fun p => lineStatus method p.padded := by
  unfold badStatus firstBad good
  induction ps with
  | nil => simp
  | cons p ps ih =>
    rw [List.map_cons, List.findSome?_cons, ih, List.find?_cons]
    cases hp : lineStatus method p.line with
    | none =>
      by_cases hs : p.Spoils
      · simp [lineStatus_padded, hs, hp]
      · simp [lineStatus_padded, hs, hp]
    | some st =>
      rw [List.takeWhile_cons_of_neg (by simp [hp])]
      by_cases hs : p.Spoils <;> simp [lineStatus_padded, hs, hp]

/-- Behind a rejected line nothing is looked at. -/
theorem sectionStatus_map_line {rest : Bytes} (h : firstBad method ps = some p) :
    sectionStatus method (ps.map line) rest = lineStatus method p.line := by
  obtain ⟨st, hst⟩ := Option.ne_none_iff_exists'.mp (firstBad_eq_some h).2
  unfold sectionStatus
  rw [badStatus_map_line, h, Option.bind_some, hst]

/-- **The status of a padded section.** -/
theorem sectionStatus_map_padded (method : Bytes) (ps : List Padding) (rest : Bytes) :
    sectionStatus method (ps.map padded) rest =
      if ∃ p ∈ good method ps, p.Spoils then some .badRequest
      else match firstBad method ps with
        | some p => lineStatus method p.padded
        | none => sectionStatus method (ps.map line) rest := by
  unfold sectionStatus
  rw [badStatus_map_padded, badStatus_map_line, lastLine_map_line, lastLine_map_padded]
  by_cases hs : ∃ p ∈ good method ps, p.Spoils
  · rw [if_pos hs, if_pos hs]
  rw [if_neg hs, if_neg hs]
  cases hf : firstBad method ps with
  | none => simp
  | some p =>
    have hbad : lineStatus method p.padded ≠ none := by
      rw [lineStatus_padded]
      split
      · exact Option.some_ne_none _
      · exact (firstBad_eq_some hf).2
    obtain ⟨st, hst⟩ := Option.ne_none_iff_exists'.mp hbad
    simp only [Option.bind_some, hst]

end Padding

/-! ### Padded sections -/

/-- **No tab goes into a line that counts**: a content length that is read, the last line of its
name in front of the first one that is rejected, or a content length that is too large. -/
structure Unheard (method : Bytes) (ps : List Padding) : Prop where
  length : ∀ p ∈ Padding.good method ps, HasName (ascii "content-length") p.line → ¬ p.HasTab
  last : ∀ k p, Padding.last (Padding.good method ps) k = some p → ¬ p.HasTab
  tooLarge : ∀ p, Padding.firstBad method ps = some p →
    lineStatus method p.line = some .payloadTooLarge → ¬ p.HasTab

/-- The line says with its blanks what another line of its name says without: a length is a
number. -/
def SaysSame (q p : Padding) : Prop :=
  if HasName (ascii "content-length") p.line then
    digitsValue (lineValue q.padded) = digitsValue (lineValue p.line)
  else lineValue q.padded = lineValue p.line

/-- **A length gets a tab, and the section is a bad request without it**: the first line that is
rejected is one, or none is rejected and there is something behind the lines.  The last lines in
front of that length say what those in front of the bad line say. -/
structure BadAnyway (method : Bytes) (ps : List Padding) (rest : Bytes) : Prop where
  spoiled : ∃ p ∈ Padding.good method ps, p.Spoils
  bad : (∃ p, Padding.firstBad method ps = some p ∧ lineStatus method p.line = some .badRequest) ∨
    Padding.firstBad method ps = none ∧ rest ≠ []
  values : ∀ k p, Padding.last (Padding.good method ps) k = some p →
    ∃ q, Padding.last (Padding.heard method ps) k = some q ∧ SaysSame q p

/-- Spaces are never heard. -/
theorem unheard_of_spaces {ps : List Padding} (h : ∀ p ∈ ps, ¬ p.HasTab) (method : Bytes) :
    Unheard method ps where
  length := fun p hp _ => h p (Padding.mem_good hp).1
  last := fun _ p hp => h p (Padding.mem_good (Padding.hasName_of_last hp).1).1
  tooLarge := fun p hp _ => h p (Padding.firstBad_eq_some hp).1

section

variable {buf buf' line rest method target version : Bytes} {fields fields' : List Bytes}

/-- What the parser answers is the status of the section and the fields in front of the first
line that is rejected. -/
theorem sameResult_parse_iff (c : RequestClass) (hl : lines buf = (line :: fields, rest))
    (hl' : lines buf' = (line :: fields', rest)) (hreq : RequestLine line method target version) :
    SameResult ((fresh c).parseRequestHeader buf) ((fresh c).parseRequestHeader buf') ↔
      sectionStatus method fields rest = sectionStatus method fields' rest ∧
      ∀ k, (lastLine (goodLines method fields) k).map storedValue =
        (lastLine (goodLines method fields') k).map storedValue := by
  have hcode : ∀ {b fs}, lines b = (line :: fs, rest) →
      ((fresh c).parseRequestHeader b).errorCode = (sectionStatus method fs rest).getD .none :=
    fun h => errorCode_parse c h hreq
  have hparts : ∀ {b fs}, lines b = (line :: fs, rest) →
      ((fresh c).parseRequestHeader b).method = method ∧
      ((fresh c).parseRequestHeader b).target = target ∧
      ((fresh c).parseRequestHeader b).version = version ∧
      ∀ k, ((fresh c).parseRequestHeader b).headers.lookup k =
        (lastLine (goodLines method fs) k).map storedValue := by
    intro b fs h
    have hsame := sameLine_filled c method target version (goodLines method fs)
    have hcolon : ∀ l ∈ goodLines method fs, l = [] ∨ 58 ∈ l := fun l hl =>
      colon_of_lineStatus (lineStatus_of_mem_goodLines hl)
    rw [parse_eq c h hreq]
    cases sectionStatus method fs rest <;>
      exact ⟨hsame.method, hsame.target, hsame.version, lookup_filled hcolon⟩
  obtain ⟨hm, ht, hv, hh⟩ := hparts hl
  obtain ⟨hm', ht', hv', hh'⟩ := hparts hl'
  constructor
  · intro h
    refine ⟨?_, fun k => by rw [← hh, ← hh', h.headers]⟩
    have heq := h.errorCode
    rw [hcode hl, hcode hl'] at heq
    -- `.none` stands for no status, so the codes determine the status
    cases hs : sectionStatus method fields rest with
    | none =>
      cases hs' : sectionStatus method fields' rest with
      | none => rfl
      | some st' =>
        rw [hs, hs'] at heq
        exact absurd heq.symm (sectionStatus_ne_none hs')
    | some st =>
      cases hs' : sectionStatus method fields' rest with
      | none =>
        rw [hs, hs'] at heq
        exact absurd heq (sectionStatus_ne_none hs)
      | some st' =>
        rw [hs, hs'] at heq
        exact congrArg some heq
  · rintro ⟨hs, hmap⟩
    refine ⟨?_, hm.trans hm'.symm, ht.trans ht'.symm, hv.trans hv'.symm, fun k => ?_⟩
    · rw [hcode hl, hcode hl', hs]
    · rw [hh, hh', hmap]

/-- A line that is rejected is a bad request, or a length that is too large. -/
theorem lineStatus_eq_some {st : HttpStatus} (h : lineStatus method line = some st) :
    st = .badRequest ∨ st = .payloadTooLarge ∧ HasName (ascii "content-length") line := by
  unfold lineStatus at h
  by_cases hnil : line = []
  · rw [if_pos hnil] at h
    cases h
  rw [if_neg hnil] at h
  by_cases hcolon : 58 ∈ line
  · rw [if_neg (not_not.mpr hcolon)] at h
    by_cases hk : lineName line = ascii "content-length"
    · rw [if_pos hk] at h
      repeat' split at h
      · cases h
      · exact .inr ⟨(Option.some.inj h).symm, hcolon, hk⟩
      · exact .inl (Option.some.inj h).symm
    · rw [if_neg hk] at h
      cases h
  · rw [if_pos hcolon] at h
    exact .inl (Option.some.inj h).symm

/-- When a section is a bad request. -/
theorem sectionStatus_eq_badRequest_iff (method : Bytes) (ps : List Padding) (rest : Bytes) :
    sectionStatus method (ps.map Padding.line) rest = some .badRequest ↔
      (∃ p, Padding.firstBad method ps = some p ∧ lineStatus method p.line = some .badRequest) ∨
        Padding.firstBad method ps = none ∧ rest ≠ [] := by
  cases hf : Padding.firstBad method ps with
  | some p => simp [Padding.sectionStatus_map_line hf]
  | none =>
    unfold sectionStatus
    rw [Padding.badStatus_map_line, hf, Option.bind_none]
    by_cases hrest : rest = []
    · simp only [hrest, ne_eq, not_true_eq_false, if_false]
      split <;> simp
    · simp [hrest]

/-- What a line that gives a field stores is what it says. -/
theorem storedValue_eq_iff {k : Bytes} {p q : Padding} (hp : HasName k p.line)
    (hq : HasName k q.line) : storedValue q.padded = storedValue p.line ↔ SaysSame q p := by
  obtain ⟨hcolon, hpk⟩ := hp
  obtain ⟨-, hqk⟩ := Padding.hasName_padded_iff.mpr hq
  have hiff : HasName (ascii "content-length") p.line ↔ lineName p.line = ascii "content-length" :=
    and_iff_right hcolon
  unfold storedValue SaysSame
  rw [hqk, hpk]
  by_cases hk : k = ascii "content-length"
  · rw [if_pos hk, if_pos hk, if_pos (hiff.mpr (hpk.trans hk))]
    exact HeaderValue.size.injEq _ _ ▸ Iff.rfl
  · rw [if_neg hk, if_neg hk, if_neg fun hh => hk (hpk.symm.trans (hiff.mp hh))]
    exact HeaderValue.string.injEq _ _ ▸ Iff.rfl

/-- **A section with a tab in a length** is answered as it is without the blanks when it is a bad
request anyway. -/
theorem badAnyway_iff {method rest : Bytes} {ps : List Padding}
    (hsp : ∃ p ∈ Padding.good method ps, p.Spoils) :
    BadAnyway method ps rest ↔
      sectionStatus method (ps.map Padding.line) rest = some .badRequest ∧
      ∀ k, (Padding.last (Padding.good method ps) k).map (storedValue ∘ Padding.line) =
        (Padding.last (Padding.heard method ps) k).map (storedValue ∘ Padding.padded) := by
  rw [sectionStatus_eq_badRequest_iff]
  have hvalue : ∀ {k p q}, Padding.last (Padding.good method ps) k = some p →
      Padding.last (Padding.heard method ps) k = some q →
      (storedValue q.padded = storedValue p.line ↔ SaysSame q p) := fun hp hq =>
    storedValue_eq_iff (Padding.hasName_of_last hp).2 (Padding.hasName_of_last hq).2
  constructor
  · intro h
    refine ⟨h.bad, fun k => ?_⟩
    cases hp : Padding.last (Padding.good method ps) k with
    | some p =>
      obtain ⟨q, hq, hsame⟩ := h.values k p hp
      rw [hq]
      exact congrArg some ((hvalue hp hq).mpr hsame).symm
    | none =>
      rw [Padding.last_heard_of_good hp]
      rfl
  · rintro ⟨hbad, hmap⟩
    refine ⟨hsp, hbad, fun k p hp => ?_⟩
    have hk := hmap k
    rw [hp] at hk
    obtain ⟨q, hq, heq⟩ := Option.map_eq_some_iff.mp hk.symm
    exact ⟨q, hq, (hvalue hp hq).mp heq⟩

/-- **What the blanks do to the lines of a section.** -/
theorem sameSection_iff (method : Bytes) (ps : List Padding) (rest : Bytes) :
    (sectionStatus method (ps.map Padding.line) rest =
        sectionStatus method (ps.map Padding.padded) rest ∧
      ∀ k, (Padding.last (Padding.good method ps) k).map (storedValue ∘ Padding.line) =
        (Padding.last (Padding.heard method ps) k).map (storedValue ∘ Padding.padded)) ↔
      Unheard method ps ∨ BadAnyway method ps rest := by
  by_cases hsp : ∃ p ∈ Padding.good method ps, p.Spoils
  · -- a content length is spoiled, so the padded section is a bad request
    rw [Padding.sectionStatus_map_padded, if_pos hsp, ← badAnyway_iff hsp]
    refine (or_iff_right fun h => ?_).symm
    obtain ⟨p, hp, hname, htab⟩ := hsp
    exact h.length p hp hname htab
  · -- no content length is spoiled, so the same lines are accepted
    have hall : Padding.heard method ps = Padding.good method ps := by
      refine List.takeWhile_eq_self_iff.mpr fun p hp => decide_eq_true ?_
      exact fun hs => hsp ⟨p, hp, hs⟩
    have hstored : ∀ {k p}, Padding.last (Padding.good method ps) k = some p →
        (storedValue p.padded = storedValue p.line ↔ ¬ p.HasTab) := by
      intro k p hp
      obtain ⟨hmem, hname⟩ := Padding.hasName_of_last hp
      exact Padding.storedValue_padded_iff hname.1 fun hs => hsp ⟨p, hmem, hs⟩
    rw [Padding.sectionStatus_map_padded, if_neg hsp, hall]
    constructor
    · rintro ⟨hs, hmap⟩
      refine .inl ⟨fun p hp hname htab => hsp ⟨p, hp, hname, htab⟩, fun k p hp => ?_,
        fun p hp hlarge htab => ?_⟩
      · have hk := hmap k
        rw [hp] at hk
        exact (hstored hp).mp (Option.some.inj hk).symm
      · -- a length that is too large would become a bad request
        obtain ⟨-, hname⟩ := (lineStatus_eq_some hlarge).resolve_left HttpStatus.noConfusion
        have hspoils : p.Spoils := ⟨hname, htab⟩
        rw [hp, Padding.sectionStatus_map_line hp] at hs
        simp only [Padding.lineStatus_padded, if_pos hspoils, hlarge] at hs
        exact HttpStatus.noConfusion (Option.some.inj hs)
    · intro h
      replace h := h.resolve_right fun hbad => hsp hbad.spoiled
      refine ⟨?_, fun k => ?_⟩
      · -- the first line that is rejected, if there is one, decides on both sides
        cases hf : Padding.firstBad method ps with
        | none => rfl
        | some p =>
          rw [Padding.sectionStatus_map_line hf]
          simp only [Padding.lineStatus_padded]
          by_cases hspoils : p.Spoils
          · rw [if_pos hspoils]
            obtain ⟨st, hst⟩ := Option.ne_none_iff_exists'.mp (Padding.firstBad_eq_some hf).2
            rcases lineStatus_eq_some hst with rfl | ⟨rfl, -⟩
            · exact hst
            · exact absurd hspoils.2 (h.tooLarge p hf hst)
          · rw [if_neg hspoils]
      · cases hk : Padding.last (Padding.good method ps) k with
        | none => rfl
        | some p => exact congrArg some ((hstored hk).mpr (h.last k p hk)).symm

/-- **Blanks around the values change nothing** exactly when no tab goes into a line that counts,
or the section is a bad request anyway and the lines say the same. -/
theorem padding_harmless_iff {ps : List Padding} (hline : Unbroken line)
    (hps : ∀ p ∈ ps, Unbroken p.line) (hrest : Unbroken rest) (c : RequestClass) :
    SameResult
        ((fresh c).parseRequestHeader (headerSection line (ps.map Padding.line) ++ rest))
        ((fresh c).parseRequestHeader (headerSection line (ps.map Padding.padded) ++ rest)) ↔
      ∀ method target version, RequestLine line method target version →
        Unheard method ps ∨ BadAnyway method ps rest := by
  have hlines : ∀ f : Padding → Bytes, (∀ p ∈ ps, Unbroken (f p)) →
      lines (headerSection line (ps.map f) ++ rest) = (line :: ps.map f, rest) := by
    intro f hf
    refine lines_eq_iff.mpr ⟨rfl, ?_, hrest⟩
    intro l hl
    rcases List.mem_cons.mp hl with rfl | hl
    · exact hline
    · obtain ⟨p, hp, rfl⟩ := List.mem_map.mp hl
      exact hf p hp
  have hl := hlines Padding.line hps
  have hl' := hlines Padding.padded fun p hp => Padding.unbroken_padded (hps p hp)
  by_cases hreq : ∃ method target version, RequestLine line method target version
  · -- the request line has one reading only
    obtain ⟨method, target, version, hreq⟩ := hreq
    rw [sameResult_parse_iff c hl hl' hreq, Padding.goodLines_map_line,
      Padding.goodLines_map_padded]
    simp only [Padding.lastLine_map_line, Padding.lastLine_map_padded, Option.map_map]
    have hiff := sameSection_iff method ps rest
    constructor
    · intro h m t v hreq'
      obtain ⟨rfl, -, -⟩ := RequestLine.unique hreq hreq'
      exact hiff.mp h
    · exact fun h => hiff.mpr (h method target version hreq)
  · -- the header lines are not looked at
    have hbad : ∀ {b fs}, lines b = (line :: fs, rest) →
        (fresh c).parseRequestHeader b = (fresh c).fail .badRequest := by
      intro b fs hb
      refine parseRequestHeader_of_not_requestLine ?_
      intro line' fs' rest' method target version hb' hreq'
      obtain ⟨hcons, -⟩ := Prod.mk.inj (hb.symm.trans hb')
      obtain ⟨rfl, -⟩ := List.cons.inj hcons
      exact hreq ⟨method, target, version, hreq'⟩
    rw [hbad hl, hbad hl']
    refine ⟨fun _ method target version hreq' => ?_, fun _ => .refl _⟩
    exact absurd ⟨method, target, version, hreq'⟩ hreq

end

/-- A content length with one more blank behind its colon. -/
def paddedLength (b : Byte) (hb : b = SP ∨ b = HT) : Padding where
  line := ascii "Content-Length: 5"
  behindColon := [b]
  beforeEnd := []
  blank := fun _ hc => List.mem_singleton.mp hc ▸ hb

/-- The empty line at the end of a section. -/
def emptyLine : Padding := ⟨[], [], [], fun _ hc => absurd hc List.not_mem_nil⟩

/-- A space changes nothing. -/
theorem padding_harmless_space : SameResult
    ((fresh .post).parseRequestHeader (headerSection (ascii "POST / HTTP/1.1")
      ([paddedLength SP (by decide), emptyLine].map Padding.line) ++ []))
    ((fresh .post).parseRequestHeader (headerSection (ascii "POST / HTTP/1.1")
      ([paddedLength SP (by decide), emptyLine].map Padding.padded) ++ [])) := by
  refine (padding_harmless_iff (by decide) (by decide) (by decide) .post).mpr ?_
  exact fun method _ _ _ => .inl (unheard_of_spaces (by decide) method)

/-- **A tab in front of a length makes it a bad request.** -/
theorem padding_harmful : ¬ ∀ (line rest : Bytes) (ps : List Padding) (c : RequestClass),
    Unbroken line → (∀ p ∈ ps, Unbroken p.line) → Unbroken rest → SameResult
      ((fresh c).parseRequestHeader (headerSection line (ps.map Padding.line) ++ rest))
      ((fresh c).parseRequestHeader (headerSection line (ps.map Padding.padded) ++ rest)) := by
  intro h
  have hcode := (h (ascii "POST / HTTP/1.1") [] [paddedLength HT (by decide), emptyLine] .post
    (by decide) (by decide) (by decide)).errorCode
  exact absurd hcode (by decide +kernel)

end SrvAsync
