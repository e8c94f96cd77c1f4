import SrvAsync.Config.Settings

/-!
# The lines of the config file

`parse_srv_config` reads with `fgets` into a buffer of `MAX_LINE_LEN` bytes, so what it hands to
`parse_srv_config_line` are pieces of lines: a line that does not fit is cut, and its rest is taken
for a line of its own.

## Main definitions

* `pieces` — what `fgets` reads.
* `lines`, `applyLines` — the lines of a file, and what they say.
* `reached` — the lines up to the first one that is rejected.
* `ReadByLines` — the file is read line by line.

## Main results

* `readLines_eq_run` — the loop handles the pieces until one is rejected.
* `run_pieces` — **the pieces of a file are those of its lines**.
* `read_by_lines_iff` — **a file is read line by line when the lines that count fit**.
-/

namespace SrvAsync
namespace Config

open Http

variable {env : ℕ → LogAnswer}

/-! ### Pieces -/

/-- What the successive calls of `fgets` read. -/
def pieces (file : Bytes) : List Bytes :=
  match _h : fgets maxLineLen file with
  | none => []
  | some (line, rest) => line :: pieces rest
termination_by file.length
decreasing_by exact length_fgets_lt _h

theorem pieces_of_none {file : Bytes} (h : fgets maxLineLen file = none) : pieces file = [] := by
  unfold pieces
  split
  · rfl
  · next hs => cases h.symm.trans hs

theorem pieces_of_some {file line rest : Bytes} (h : fgets maxLineLen file = some (line, rest)) :
    pieces file = line :: pieces rest := by
  rw [pieces]
  split
  · next hn => cases h.symm.trans hn
  · next hs =>
    obtain ⟨rfl, rfl⟩ := Prod.mk.inj (Option.some.inj (h.symm.trans hs))
    rfl

@[simp] theorem pieces_nil : pieces [] = [] := pieces_of_none rfl

/-- A code that ends the loop of `parse_srv_config`. -/
def stops (ret : ℤ) : Bool := decide (ret < 0)

/-- **The loop handles the pieces until one is rejected.** -/
theorem readLines_eq_run (file : Bytes) (ret : ℤ) (s : Proc) :
    readLines env file ret s = Until.run stops (parseSrvConfigLine env) (pieces file) ret s := by
  induction hn : file.length using Nat.strong_induction_on generalizing file ret s with
  | _ n ih =>
    subst hn
    unfold readLines
    split
    · next h => rw [pieces_of_none h, Until.run_nil]
    · next line rest h =>
      rw [pieces_of_some h]
      cases hbad : stops (parseSrvConfigLine env line s).1 with
      | true => rw [Until.run_cons_of_bad hbad, if_pos (of_decide_eq_true hbad)]
      | false =>
        rw [Until.run_cons_of_good hbad, if_neg (of_decide_eq_false hbad)]
        exact ih rest.length (length_fgets_lt h) rest _ _ rfl

/-- How much `fgets` reads. -/
theorem fgets_of_ne_nil {file : Bytes} (h : file ≠ []) :
    fgets maxLineLen file =
      some (file.take (min 1023 ((file.takeWhile (· != LF)).length + 1)),
        file.drop (min 1023 ((file.takeWhile (· != LF)).length + 1))) := if_neg h

/-- What is in a piece is in the file. -/
theorem mem_of_mem_pieces {file l : Bytes} {c : Byte} (hl : l ∈ pieces file) (hc : c ∈ l) :
    c ∈ file := by
  induction hn : file.length using Nat.strong_induction_on generalizing file with
  | _ n ih =>
    subst hn
    by_cases hnil : file = []
    · subst hnil
      simp at hl
    · have hf := fgets_of_ne_nil hnil
      rw [pieces_of_some hf] at hl
      rcases List.mem_cons.mp hl with rfl | hl
      · exact List.mem_of_mem_take hc
      · exact List.mem_of_mem_drop (ih _ (length_fgets_lt hf) hl rfl)

/-- The text in front of the first end of line. -/
theorem takeWhile_line {l : Bytes} (hl : LF ∉ l) (rest : Bytes) :
    (l ++ LF :: rest).takeWhile (· != LF) = l := by
  have hpos : ∀ c ∈ l, (c != LF) = true := by
    intro c hc
    refine bne_iff_ne.mpr ?_
    rintro rfl
    exact hl hc
  rw [List.takeWhile_append_of_pos hpos, List.takeWhile_cons_of_neg (by decide), List.append_nil]

/-- A line that fits and has an end is one piece. -/
theorem pieces_line {l : Bytes} (hl : LF ∉ l) (hlen : l.length ≤ 1022) (rest : Bytes) :
    pieces (l ++ LF :: rest) = (l ++ [LF]) :: pieces rest := by
  have hne : l ++ LF :: rest ≠ [] := by simp
  have hmin : min 1023 (l.length + 1) = l.length + 1 := by omega
  have hf := fgets_of_ne_nil hne
  rw [takeWhile_line hl, hmin] at hf
  rw [List.take_length_add_append, List.drop_length_add_append] at hf
  exact pieces_of_some hf

/-- A line that does not fit is cut. -/
theorem pieces_cut {l : Bytes} (hl : LF ∉ l) (hlen : 1023 ≤ l.length) (rest : Bytes) :
    pieces (l ++ LF :: rest) = l.take 1023 :: pieces (l.drop 1023 ++ LF :: rest) := by
  have hne : l ++ LF :: rest ≠ [] := by simp
  have hmin : min 1023 (l.length + 1) = 1023 := by omega
  have hf := fgets_of_ne_nil hne
  rw [takeWhile_line hl, hmin, List.take_append_of_le_length hlen,
    List.drop_append_of_le_length hlen] at hf
  exact pieces_of_some hf

/-- A text without an end of line is cut every `MAX_LINE_LEN - 1` bytes. -/
theorem pieces_of_not_mem {l : Bytes} (hl : LF ∉ l) (hne : l ≠ []) :
    pieces l = l.take 1023 :: pieces (l.drop 1023) := by
  have hpos : ∀ c ∈ l, (c != LF) = true := by
    intro c hc
    refine bne_iff_ne.mpr ?_
    rintro rfl
    exact hl hc
  have hf := fgets_of_ne_nil hne
  rw [List.takeWhile_eq_self_iff.mpr hpos] at hf
  rw [pieces_of_some hf]
  rcases Nat.lt_or_ge l.length 1023 with h | h
  · rw [Nat.min_eq_right (by omega), List.take_of_length_le (by omega),
      List.take_of_length_le (by omega), List.drop_of_length_le (by omega),
      List.drop_of_length_le (by omega)]
  · rw [Nat.min_eq_left (by omega)]

/-- A text without an end of line that fits is one piece. -/
theorem pieces_eq_singleton {l : Bytes} (hl : LF ∉ l) (hne : l ≠ []) (hlen : l.length ≤ 1023) :
    pieces l = [l] := by
  rw [pieces_of_not_mem hl hne, List.take_of_length_le hlen, List.drop_of_length_le hlen, pieces_nil]

/-! ### What a line says -/

/-- Nothing counts behind the end of a line. -/
theorem trimmed_append_LF (l t : Bytes) : trimmed (l ++ LF :: t) = trimmed l := by
  have htake : (l ++ LF :: t).takeWhile (fun c => !endsLine c) = l.takeWhile fun c => !endsLine c := by
    induction l with
    | nil => rfl
    | cons c l ih =>
      cases hc : endsLine c with
      | true => simp [hc]
      | false => simpa [hc] using ih
  unfold trimmed
  rw [htake]

/-- The end of a line does not count. -/
theorem parseSrvConfigLine_append_LF (l : Bytes) (s : Proc) :
    parseSrvConfigLine env (l ++ [LF]) s = parseSrvConfigLine env l s := by
  rw [parseSrvConfigLine_trimmed, parseSrvConfigLine_trimmed, trimmed_append_LF]

/-- A line without a colon says nothing. -/
theorem parseSrvConfigLine_of_not_mem {l : Bytes} (hl : 58 ∉ l) (s : Proc) :
    parseSrvConfigLine env l s = (0, s) := by
  have hno : findByte 58 (trimmed l) = none := by
    refine List.findIdx?_eq_none_iff.mpr fun c hc => ?_
    have hcl : c ∈ l := (List.takeWhile_prefix _).subset (List.mem_of_mem_filter hc)
    refine beq_eq_false_iff_ne.mpr ?_
    rintro rfl
    exact hl hcl
  rw [parseSrvConfigLine_trimmed]
  unfold parseTrimmedLine
  rw [hno]
  split <;> rfl

/-- A line that does not stop the loop returned zero. -/
theorem ret_of_not_stops (l : Bytes) (s : Proc) (h : stops (parseSrvConfigLine env l s).1 = false) :
    (parseSrvConfigLine env l s).1 = 0 :=
  (parseSrvConfigLine_ret l s).resolve_right (of_decide_eq_false h)

/-! ### Lines -/

/-- The lines of a file. -/
def lines (file : Bytes) : List Bytes := file.splitOn LF

/-- What the lines of a file say, until one is rejected. -/
def applyLines (env : ℕ → LogAnswer) (ls : List Bytes) (s : Proc) : ℤ × Proc :=
  Until.run stops (parseSrvConfigLine env) ls 0 s

/-- The pieces of a line, and those of what is behind it. -/
theorem run_pieces_line {l : Bytes} (hl : LF ∉ l) (rest : Bytes) (s : Proc) :
    applyLines env (pieces (l ++ LF :: rest)) s = applyLines env (pieces l ++ pieces rest) s := by
  induction hn : l.length using Nat.strong_induction_on generalizing l s with
  | _ n ih =>
    subst hn
    rcases Nat.lt_or_ge l.length 1023 with h | h
    · rw [pieces_line hl (by omega)]
      by_cases hnil : l = []
      · -- the end of an empty line is a piece that says nothing
        subst hnil
        rw [pieces_nil]
        unfold applyLines
        have hnoop : parseSrvConfigLine env ([] ++ [LF]) s = (0, s) :=
          parseSrvConfigLine_of_not_mem (by decide) s
        rw [Until.run_cons_of_good (by rw [hnoop]; rfl), hnoop]
        rfl
      · rw [pieces_eq_singleton hl hnil (by omega)]
        unfold applyLines
        rw [List.singleton_append, Until.run, Until.run, parseSrvConfigLine_append_LF]
    · -- a line that is too long: its first piece is cut off, and the rest is shorter
      have hne : l ≠ [] := by
        rintro rfl
        simp at h
      rw [pieces_cut hl h, pieces_of_not_mem hl hne]
      have hdrop : LF ∉ l.drop 1023 := fun hm => hl (List.mem_of_mem_drop hm)
      have hlen : (l.drop 1023).length < l.length := by
        rw [List.length_drop]
        omega
      exact Until.run_append_congr ret_of_not_stops (fun s => ih _ hlen hdrop s rfl) [l.take 1023]

theorem lines_of_not_mem {file : Bytes} (h : LF ∉ file) : lines file = [file] :=
  List.splitOn_eq_singleton h

theorem lines_append {l : Bytes} (hl : LF ∉ l) (rest : Bytes) :
    lines (l ++ LF :: rest) = l :: lines rest := List.splitOn_append_cons_self_of_not_mem hl rest

/-- **The pieces of a file are those of its lines.** -/
theorem run_pieces (file : Bytes) (s : Proc) :
    applyLines env (pieces file) s = applyLines env ((lines file).flatMap pieces) s := by
  induction hn : file.length using Nat.strong_induction_on generalizing file s with
  | _ n ih =>
    subst hn
    by_cases hmem : LF ∈ file
    · obtain ⟨l, rest, rfl, hl⟩ := List.eq_append_cons_of_mem hmem
      have hlen : rest.length < (l ++ LF :: rest).length := by
        rw [List.length_append, List.length_cons]
        omega
      rw [run_pieces_line hl, lines_append hl, List.flatMap_cons]
      exact Until.run_append_congr ret_of_not_stops (fun s => ih _ hlen rest s rfl) (pieces l)
    · rw [lines_of_not_mem hmem, List.flatMap_singleton]

/-- No line has an end of line in it. -/
theorem LF_not_mem_of_mem_lines {file l : Bytes} (hl : l ∈ lines file) : LF ∉ l := by
  induction hn : file.length using Nat.strong_induction_on generalizing file with
  | _ n ih =>
    subst hn
    by_cases hmem : LF ∈ file
    · obtain ⟨a, rest, rfl, ha⟩ := List.eq_append_cons_of_mem hmem
      have hlen : rest.length < (a ++ LF :: rest).length := by
        rw [List.length_append, List.length_cons]
        omega
      rw [lines_append ha] at hl
      rcases List.mem_cons.mp hl with rfl | hl
      · exact ha
      · exact ih _ hlen hl rfl
    · rw [lines_of_not_mem hmem, List.mem_singleton] at hl
      rwa [hl]

/-- The lines that count: those up to the first one that is rejected, and this one. -/
def reached (env : ℕ → LogAnswer) (ls : List Bytes) (s : Proc) : List Bytes :=
  (Until.handled stops (parseSrvConfigLine env) ls s).map Prod.fst

theorem reached_cons_of_bad {l : Bytes} {s : Proc} (h : stops (parseSrvConfigLine env l s).1 = true)
    (ls : List Bytes) : reached env (l :: ls) s = [l] := by
  rw [reached, Until.handled_cons_of_bad h, List.map_singleton]

theorem reached_cons_of_good {l : Bytes} {s : Proc}
    (h : stops (parseSrvConfigLine env l s).1 = false) (ls : List Bytes) :
    reached env (l :: ls) s = l :: reached env ls (parseSrvConfigLine env l s).2 := by
  rw [reached, Until.handled_cons_of_good h, List.map_cons]
  rfl

theorem mem_reached_self (l : Bytes) (ls : List Bytes) (s : Proc) : l ∈ reached env (l :: ls) s := by
  rw [reached, Until.handled, List.map_cons]
  exact List.mem_cons_self

theorem mem_of_mem_reached {l : Bytes} {ls : List Bytes} {s : Proc} (h : l ∈ reached env ls s) :
    l ∈ ls := by
  obtain ⟨x, hx, rfl⟩ := List.mem_map.mp h
  exact Until.mem_of_mem_handled hx

/-- The pieces of lines say what the lines say, when those that count fit. -/
theorem run_pieces_of_fits {ls : List Bytes} (hls : ∀ l ∈ ls, LF ∉ l) {s : Proc}
    (hfits : ∀ l ∈ reached env ls s, l.length ≤ 1023) :
    applyLines env (ls.flatMap pieces) s = applyLines env ls s := by
  induction ls generalizing s with
  | nil => rfl
  | cons l ls ih =>
    have hl := hls l List.mem_cons_self
    have hlen := hfits l (mem_reached_self l ls s)
    have hih : stops (parseSrvConfigLine env l s).1 = false →
        applyLines env (ls.flatMap pieces) (parseSrvConfigLine env l s).2 =
          applyLines env ls (parseSrvConfigLine env l s).2 := by
      intro hgood
      refine ih (fun m hm => hls m (List.mem_cons_of_mem l hm)) fun m hm => hfits m ?_
      rw [reached_cons_of_good hgood]
      exact List.mem_cons_of_mem l hm
    rw [List.flatMap_cons]
    by_cases hnil : l = []
    · subst hnil
      have hnoop : parseSrvConfigLine env [] s = (0, s) :=
        parseSrvConfigLine_of_not_mem (by decide) s
      have hgood : stops (parseSrvConfigLine env [] s).1 = false := by rw [hnoop]; rfl
      have hrest := hih hgood
      rw [pieces_nil, List.nil_append]
      unfold applyLines at hrest ⊢
      rw [Until.run_cons_of_good hgood, hnoop]
      rw [hnoop] at hrest
      exact hrest
    · rw [pieces_eq_singleton hl hnil hlen, List.singleton_append]
      unfold applyLines
      cases hbad : stops (parseSrvConfigLine env l s).1 with
      | true => rw [Until.run_cons_of_bad hbad, Until.run_cons_of_bad hbad]
      | false =>
        rw [Until.run_cons_of_good hbad, Until.run_cons_of_good hbad, ret_of_not_stops l s hbad]
        exact hih hbad

/-- **A file is read line by line when the lines that count fit.** -/
theorem parseSrvConfig_eq_applyLines {file : Bytes} {s : Proc}
    (h : ∀ l ∈ reached env (lines file) s, l.length ≤ 1023) :
    parseSrvConfig env (some file) s = applyLines env (lines file) s := by
  show readLines env file 0 s = _
  rw [readLines_eq_run]
  exact (run_pieces file s).trans (run_pieces_of_fits (fun l hl => LF_not_mem_of_mem_lines hl) h)

/-! ### Lines that do not fit -/

/-- A line of blanks. -/
def blankLine (n : ℕ) : Bytes := List.replicate n SP

/-- A line about the port with blanks between the digits. -/
def splitLine (n : ℕ) : Bytes := ascii "port:8" ++ (List.replicate (n - 7) SP ++ [48])

theorem not_mem_blankLine {c : Byte} (hc : c ≠ SP) (n : ℕ) : c ∉ blankLine n := fun h =>
  hc (List.eq_of_mem_replicate h)

theorem length_splitLine {n : ℕ} (hn : 1023 < n) : (splitLine n).length = n := by
  have hport : (ascii "port:8").length = 6 := rfl
  simp only [splitLine, List.length_append, List.length_replicate, List.length_cons,
    List.length_nil, hport]
  omega

theorem not_mem_splitLine {c : Byte} (hc : c ∉ ascii "port:8" ++ [SP, 48]) (n : ℕ) :
    c ∉ splitLine n := by
  intro h
  simp only [List.mem_append, List.mem_cons, List.not_mem_nil, or_false, not_or] at hc
  rcases List.mem_append.mp h with h | h
  · exact hc.1 h
  · rcases List.mem_append.mp h with h | h
    · exact hc.2.1 (List.eq_of_mem_replicate h)
    · exact hc.2.2 (List.mem_singleton.mp h)

/-- Blanks are no part of a text. -/
theorem trimmed_blanks (a b : Bytes) (n : ℕ) (ha : (a.all fun c => !endsLine c) = true) :
    trimmed (a ++ (List.replicate n SP ++ b)) = trimmed (a ++ b) := by
  have hpos : ∀ c ∈ a, (!endsLine c) = true := List.all_eq_true.mp ha
  have hblank : ∀ c ∈ List.replicate n SP, (!endsLine c) = true := fun c hc => by
    rw [List.eq_of_mem_replicate hc]
    decide
  have hdrop : (List.replicate n SP).filter (fun c => !isspace c) = [] :=
    List.filter_eq_nil_iff.mpr fun c hc => by
      rw [List.eq_of_mem_replicate hc]
      decide
  unfold trimmed
  rw [List.takeWhile_append_of_pos hpos, List.takeWhile_append_of_pos hpos,
    List.takeWhile_append_of_pos hblank, List.filter_append, List.filter_append, List.filter_append,
    hdrop, List.nil_append]

/-- The line says that the port is 80. -/
theorem parse_splitLine (n : ℕ) (s : Proc) :
    parseSrvConfigLine env (splitLine n) s = (0, { s with config := { s.config with port := 80 } }) := by
  have htrim : trimmed (splitLine n) = ascii "port:80" :=
    (trimmed_blanks (ascii "port:8") [48] (n - 7) (by decide)).trans (by decide)
  rw [parseSrvConfigLine_trimmed, htrim]
  show storePort (ascii "80") true s = _
  exact storeRangeValue_of_mem (v := ascii "80") (by decide)

/-- Its first piece says that the port is 8. -/
theorem parse_take_splitLine {n : ℕ} (hn : 1023 < n) (s : Proc) :
    parseSrvConfigLine env ((splitLine n).take 1023) s =
      (0, { s with config := { s.config with port := 8 } }) := by
  have htake : (splitLine n).take 1023 = ascii "port:8" ++ (List.replicate 1017 SP ++ []) := by
    have hport : (ascii "port:8").length = 6 := rfl
    unfold splitLine
    rw [List.append_nil, show 1023 = (ascii "port:8").length + 1017 from rfl,
      List.take_length_add_append, List.take_append_of_le_length
        (by rw [List.length_replicate]; omega), List.take_replicate, Nat.min_eq_left (by omega)]
  have htrim : trimmed ((splitLine n).take 1023) = ascii "port:8" := by
    rw [htake]
    exact (trimmed_blanks (ascii "port:8") [] 1017 (by decide)).trans (by decide)
  rw [parseSrvConfigLine_trimmed, htrim]
  show storePort (ascii "8") true s = _
  exact storeRangeValue_of_mem (v := ascii "8") (by decide)

/-- A file with one line that does not fit, among blanks. -/
def splitFile (before : List ℕ) (n : ℕ) (after : List ℕ) : List Bytes :=
  before.map blankLine ++ splitLine n :: after.map blankLine

/-- The lines of that file. -/
theorem lines_splitFile (before after : List ℕ) (n : ℕ) :
    lines ([LF].intercalate (splitFile before n after)) = splitFile before n after := by
  refine List.splitOn_intercalate LF (fun l hl => ?_) (by simp [splitFile])
  rcases List.mem_append.mp hl with hl | hl
  · obtain ⟨k, -, rfl⟩ := List.mem_map.mp hl
    exact not_mem_blankLine (by decide) k
  · rcases List.mem_cons.mp hl with rfl | hl
    · exact not_mem_splitLine (by decide) n
    · obtain ⟨k, -, rfl⟩ := List.mem_map.mp hl
      exact not_mem_blankLine (by decide) k

/-- A line of blanks says nothing. -/
theorem parse_blankLine (k : ℕ) (s : Proc) : parseSrvConfigLine env (blankLine k) s = (0, s) :=
  parseSrvConfigLine_of_not_mem (not_mem_blankLine (by decide) k) s

/-- Line by line, the port is 80. -/
theorem applyLines_splitFile (before after : List ℕ) (n : ℕ) (s : Proc) :
    applyLines env (splitFile before n after) s =
      (0, { s with config := { s.config with port := 80 } }) := by
  have hblank : ∀ ks : List ℕ, ∀ l ∈ ks.map blankLine, ∀ s : Proc,
      parseSrvConfigLine env l s = (0, s) := by
    intro ks l hl s
    obtain ⟨k, -, rfl⟩ := List.mem_map.mp hl
    exact parse_blankLine k s
  rw [← parse_splitLine n s]
  exact Until.run_middle rfl ret_of_not_stops (hblank before) (hblank after)

/-- As the file is read, the port is 8. -/
theorem parseSrvConfig_splitFile (before after : List ℕ) {n : ℕ} (hn : 1023 < n) (s : Proc) :
    parseSrvConfig env (some ([LF].intercalate (splitFile before n after))) s =
      (0, { s with config := { s.config with port := 8 } }) := by
  have hblank : ∀ ks : List ℕ, ∀ l ∈ (ks.map blankLine).flatMap pieces, ∀ s : Proc,
      parseSrvConfigLine env l s = (0, s) := by
    intro ks l hl s
    obtain ⟨b, hb, hl⟩ := List.mem_flatMap.mp hl
    obtain ⟨k, -, rfl⟩ := List.mem_map.mp hb
    exact parseSrvConfigLine_of_not_mem
      (fun hc => not_mem_blankLine (by decide) k (mem_of_mem_pieces hl hc)) s
  -- behind its first piece the line has no colon
  have hrest : ∀ l ∈ pieces ((splitLine n).drop 1023) ++ (after.map blankLine).flatMap pieces,
      ∀ s : Proc, parseSrvConfigLine env l s = (0, s) := by
    intro l hl s
    rcases List.mem_append.mp hl with hl | hl
    · refine parseSrvConfigLine_of_not_mem (fun hc => ?_) s
      have hdrop := mem_of_mem_pieces hl hc
      have hport : (ascii "port:8").length = 6 := rfl
      unfold splitLine at hdrop
      rw [show 1023 = (ascii "port:8").length + 1017 from rfl, List.drop_length_add_append] at hdrop
      rcases List.mem_append.mp (List.mem_of_mem_drop hdrop) with h | h
      · exact absurd (List.eq_of_mem_replicate h) (by decide)
      · exact absurd (List.mem_singleton.mp h) (by decide)
    · exact hblank after l hl s
  have hne : splitLine n ≠ [] := by
    intro h
    have hlen := length_splitLine hn
    rw [h, List.length_nil] at hlen
    omega
  have hflat : (splitFile before n after).flatMap pieces =
      (before.map blankLine).flatMap pieces ++ (splitLine n).take 1023 ::
        (pieces ((splitLine n).drop 1023) ++ (after.map blankLine).flatMap pieces) := by
    unfold splitFile
    rw [List.flatMap_append, List.flatMap_cons,
      pieces_of_not_mem (not_mem_splitLine (by decide) n) hne]
    rfl
  show readLines env _ 0 s = _
  rw [readLines_eq_run]
  refine (run_pieces _ s).trans ?_
  rw [lines_splitFile, hflat, ← parse_take_splitLine hn s]
  exact Until.run_middle rfl ret_of_not_stops (hblank before) hrest

/-- No line of that file has a zero byte. -/
theorem zero_not_mem_splitFile (before after : List ℕ) (n : ℕ) :
    0 ∉ [LF].intercalate (splitFile before n after) := by
  intro h
  rw [← List.singleton_infix_iff] at h
  obtain ⟨l, hl, hzero⟩ := (List.infix_intercalate_iff (by decide) (by decide)).mp h
  rw [List.singleton_infix_iff] at hzero
  rcases List.mem_append.mp hl with hl | hl
  · obtain ⟨k, -, rfl⟩ := List.mem_map.mp hl
    exact not_mem_blankLine (by decide) k hzero
  · rcases List.mem_cons.mp hl with rfl | hl
    · exact not_mem_splitLine (by decide) n hzero
    · obtain ⟨k, -, rfl⟩ := List.mem_map.mp hl
      exact not_mem_blankLine (by decide) k hzero

/-! ### Line by line -/

/-- **The file is read line by line**: the code and `SRV_CONFIG` are those of the lines, one after
another until one is rejected. -/
def ReadByLines (env : ℕ → LogAnswer) (file : Bytes) (s : Proc) : Prop :=
  (parseSrvConfig env (some file) s).1 = (applyLines env (lines file) s).1 ∧
    (parseSrvConfig env (some file) s).2.config = (applyLines env (lines file) s).2.config

/-- A comment. -/
def isComment (line : Bytes) : Bool := decide ((trimmed line).head? = some 35)

/-- A comment says nothing. -/
theorem parse_comment {line : Bytes} (h : isComment line = true) (s : Proc) :
    parseSrvConfigLine env line s = (0, s) := by
  have hno : lineSetting line = none := if_pos (of_decide_eq_true h)
  rw [parseSrvConfigLine_eq, hno]

/-- **The files whose lines have these lengths, up to the first one that is rejected, are read line
by line if and only if these lines fit.**  Each of them is, whatever stands behind the rejected line,
and its comments do not count. -/
theorem read_by_lines_iff (lens : List ℕ) :
    ((∀ (env : ℕ → LogAnswer) (file : Bytes) (s : Proc), 0 ∉ file →
        (reached env (lines file) s).map List.length = lens → ReadByLines env file s) ↔
      ∀ n ∈ lens, n < maxLineLen) ∧
    ∀ (env : ℕ → LogAnswer) (file : Bytes) (s : Proc),
      (∀ l ∈ reached env (lines file) s, l.length < maxLineLen) →
      ReadByLines env file s ∧ parseSrvConfig env (some file) s =
        applyLines env ((lines file).filter fun l => !isComment l) s := by
  have heq : ∀ (env : ℕ → LogAnswer) (file : Bytes) (s : Proc),
      (∀ l ∈ reached env (lines file) s, l.length < maxLineLen) →
      parseSrvConfig env (some file) s = applyLines env (lines file) s :=
    fun env file s h => parseSrvConfig_eq_applyLines fun l hl => Nat.le_of_lt_succ (h l hl)
  have hread : ∀ (env : ℕ → LogAnswer) (file : Bytes) (s : Proc),
      (∀ l ∈ reached env (lines file) s, l.length < maxLineLen) → ReadByLines env file s := by
    intro env file s h
    unfold ReadByLines
    rw [heq env file s h]
    exact ⟨rfl, rfl⟩
  refine ⟨⟨fun h n hn => ?_, fun h env file s _ hlens => hread env file s fun l hl => ?_⟩,
    fun env file s h => ⟨hread env file s h, ?_⟩⟩
  · -- a file in which no line is rejected, and the long one is cut inside its number
    by_contra hlong
    have hlt : 1023 < n := Nat.lt_of_not_le fun hle => hlong (Nat.lt_succ_of_le hle)
    obtain ⟨before, after, rfl⟩ := List.append_of_mem hn
    have happly : applyLines (fun _ => .opened) (splitFile before n after) initSrvConfigDefault = _ :=
      applyLines_splitFile before after n initSrvConfigDefault
    have hreached : reached (fun _ => .opened) (splitFile before n after) initSrvConfigDefault =
        splitFile before n after := by
      refine Until.map_fst_handled (r := 0) ?_
      show stops (applyLines _ _ _).1 = false
      rw [happly]
      rfl
    have hlens : (reached (fun _ => .opened) (lines ([LF].intercalate (splitFile before n after)))
        initSrvConfigDefault).map List.length = before ++ n :: after := by
      have hblank : List.length ∘ blankLine = id := by
        funext k
        exact List.length_replicate
      rw [lines_splitFile, hreached]
      simp [splitFile, length_splitLine hlt, hblank]
    have hport := congrArg SrvConfig.port (h (fun _ => .opened) _ initSrvConfigDefault
      (zero_not_mem_splitFile before after n) hlens).2
    rw [parseSrvConfig_splitFile before after hlt, lines_splitFile, happly] at hport
    exact absurd hport (by decide)
  · exact h l.length (hlens ▸ List.mem_map_of_mem hl)
  · rw [heq env file s h]
    refine (Until.run_filter rfl ret_of_not_stops fun l _ hl s => parse_comment ?_ s).symm
    simpa using hl

/-- The lines of a file that are joined to the rest. -/
theorem lines_cons {l : Bytes} {rest : Bytes} {ls : List Bytes} (hl : LF ∉ l) (h : lines rest = ls) :
    lines (l ++ LF :: rest) = l :: ls := h ▸ lines_append hl rest

/-- A comment and a setting that is rejected, in front of a line that does not fit. -/
theorem read_by_lines_rejected :
    ReadByLines (fun _ => .opened) (ascii "# port: 82" ++ LF :: (ascii "port: 0" ++
      LF :: List.replicate 2000 120)) initSrvConfigDefault ∧
    parseSrvConfig (fun _ => .opened) (some (ascii "# port: 82" ++ LF :: (ascii "port: 0" ++
        LF :: List.replicate 2000 120))) initSrvConfigDefault =
      applyLines (fun _ => .opened) [ascii "port: 0"] initSrvConfigDefault := by
  have hlast : LF ∉ List.replicate 2000 (120 : Byte) := fun h =>
    absurd (List.eq_of_mem_replicate h) (by decide)
  generalize List.replicate 2000 (120 : Byte) = last at hlast ⊢
  have hlines : lines (ascii "# port: 82" ++ LF :: (ascii "port: 0" ++ LF :: last)) =
      [ascii "# port: 82", ascii "port: 0", last] :=
    lines_cons (by decide) (lines_cons (by decide) (lines_of_not_mem hlast))
  generalize initSrvConfigDefault = s
  have hcomment : parseSrvConfigLine (fun _ => .opened) (ascii "# port: 82") s = (0, s) :=
    parse_comment (by decide) s
  have hbad : stops (parseSrvConfigLine (fun _ => .opened) (ascii "port: 0") s).1 = true := by
    have htrim : trimmed (ascii "port: 0") = ascii "port:0" := by decide
    have hport : parseSrvConfigLine (fun _ => .opened) (ascii "port: 0") s =
        storePort (ascii "0") true s := by
      rw [parseSrvConfigLine_trimmed, htrim]
      rfl
    have hrange : storePort (ascii "0") true s =
        (-ERANGE, s.complain (.range (atoi (ascii "0")) "port" true 1 65535)) :=
      storeRangeValue_of_not_mem (by decide)
    rw [hport, hrange]
    rfl
  -- the line that does not fit stands behind the rejected one
  have hreached : reached (fun _ => .opened) [ascii "# port: 82", ascii "port: 0", last] s =
      [ascii "# port: 82", ascii "port: 0"] := by
    rw [reached_cons_of_good (by rw [hcomment]; rfl), hcomment, reached_cons_of_bad hbad]
  obtain ⟨hread, heq⟩ := (read_by_lines_iff []).2 (fun _ => .opened) _ s
    (by rw [hlines, hreached]; decide)
  refine ⟨hread, ?_⟩
  have hfilter : [ascii "# port: 82", ascii "port: 0", last].filter (fun l => !isComment l) =
      ascii "port: 0" :: [last].filter fun l => !isComment l := by
    rw [List.filter_cons_of_neg (by decide), List.filter_cons_of_pos (by decide)]
  rw [heq, hlines, hfilter]
  exact (Until.run_cons_of_bad hbad).trans (Until.run_cons_of_bad hbad).symm

/-- A comment that does not fit. -/
def longComment : Bytes := ascii "#" ++ (List.replicate 1022 120 ++ ascii "port:1")

theorem not_mem_longComment {c : Byte} (hsign : c ∉ ascii "#") (hx : c ≠ 120)
    (hport : c ∉ ascii "port:1") : c ∉ longComment := by
  intro h
  rcases List.mem_append.mp h with h | h
  · exact hsign h
  · rcases List.mem_append.mp h with h | h
    · exact hx (List.eq_of_mem_replicate h)
    · exact hport h

/-- It is a number sign, and the rest of it. -/
theorem longComment_eq : longComment = 35 :: (List.replicate 1022 120 ++ ascii "port:1") := by
  have hsign : ascii "#" = [35] := by decide
  unfold longComment
  rw [hsign, List.singleton_append]

/-- A line that begins with a number sign is a comment. -/
theorem isComment_cons (t : Bytes) : isComment (35 :: t) = true := by
  have h : (trimmed (35 :: t)).head? = some 35 := rfl
  exact decide_eq_true h

/-- Its end is read as a line of its own. -/
theorem parseSrvConfig_longComment (s : Proc) :
    parseSrvConfig env (some longComment) s =
      (0, { s with config := { s.config with port := 1 } }) := by
  have hLF : LF ∉ longComment := not_mem_longComment (by decide) (by decide) (by decide)
  have hlen : (List.replicate 1022 (120 : Byte)).length = 1022 := List.length_replicate
  have htake : longComment.take (1022 + 1) = 35 :: List.replicate 1022 120 := by
    rw [longComment_eq, List.take_succ_cons, List.take_append_of_le_length (by rw [hlen]),
      List.take_of_length_le (by rw [hlen])]
  have hdrop : longComment.drop (1022 + 1) = ascii "port:1" := by
    rw [longComment_eq, List.drop_succ_cons, List.drop_append_of_le_length (by rw [hlen]),
      List.drop_of_length_le (by rw [hlen]), List.nil_append]
  have hpieces : pieces longComment = [35 :: List.replicate 1022 120, ascii "port:1"] := by
    rw [pieces_of_not_mem hLF (by rw [longComment_eq]; exact List.cons_ne_nil _ _), htake, hdrop,
      pieces_eq_singleton (by decide) (by decide) (by decide)]
  have hcomment : parseSrvConfigLine env (35 :: List.replicate 1022 120) s = (0, s) :=
    parse_comment (isComment_cons _) s
  have hport : parseSrvConfigLine env (ascii "port:1") s =
      (0, { s with config := { s.config with port := 1 } }) := by
    have htrim : trimmed (ascii "port:1") = ascii "port:1" := by decide
    rw [parseSrvConfigLine_trimmed, htrim]
    show storePort (ascii "1") true s = _
    exact storeRangeValue_of_mem (v := ascii "1") (by decide)
  show readLines env _ 0 s = _
  rw [readLines_eq_run, hpieces, Until.run_cons_of_good (by rw [hcomment]; rfl), hcomment,
    Until.run_cons_of_good (by rw [hport]; rfl), hport, Until.run_nil]

/-- **The text of a comment that does not fit sets the port**: a file that is one comment is not
read line by line. -/
theorem long_comment_sets_port :
    isComment longComment = true ∧
      (parseSrvConfig (fun _ => .opened) (some longComment) initSrvConfigDefault).2.config.port = 1 ∧
      ¬ ∀ (env : ℕ → LogAnswer) (file : Bytes) (s : Proc), 0 ∉ file → ReadByLines env file s := by
  have hcomment : isComment longComment = true := by
    rw [longComment_eq]
    exact isComment_cons _
  refine ⟨hcomment, by rw [parseSrvConfig_longComment], fun h => ?_⟩
  have hzero : 0 ∉ longComment := not_mem_longComment (by decide) (by decide) (by decide)
  have hLF : LF ∉ longComment := not_mem_longComment (by decide) (by decide) (by decide)
  have hport := congrArg SrvConfig.port
    (h (fun _ => .opened) longComment initSrvConfigDefault hzero).2
  have hlines : applyLines (fun _ => .opened) [longComment] initSrvConfigDefault =
      (0, initSrvConfigDefault) :=
    Until.run_noop rfl fun l hl s => parse_comment (List.mem_singleton.mp hl ▸ hcomment) s
  rw [parseSrvConfig_longComment, lines_of_not_mem hLF, hlines] at hport
  exact absurd hport (by decide)

end Config
end SrvAsync
