import SrvAsync.Base.Locate
import SrvAsync.Http.Replies

/-!
# The date header

`format_date_hdr` prints the time of the system clock with `gmtime` and the format
`%a, %d %b %Y %H:%M:%S GMT`, in the C locale.  The clock counts nanoseconds in 64 bits, so its
years have four digits: the text has 29 bytes and no line break in it, and it says which second
it was.

## Main definitions

* `gmtime`, `timegm` — a time in seconds as a date and a time of the day, and back.
* `TimePoint` — a time of the system clock.
* `formatDateHdr`, `dateAt` — the text of the header.
* `readDate` — a reader of such texts.

## Main results

* `timegm_gmtime` — `gmtime` loses nothing.
* `year_lt` — a time of the system clock has a year of four digits.
* `readDate_formatDateHdr` — the text is read back.
* `reply_dated` — **every response says at which second it was made**.
-/

namespace SrvAsync

namespace Http

open Intervals

/-! ### The calendar -/

/-- Has the year a 29th of February? -/
def isLeap (y : ℕ) : Bool := decide (y % 4 = 0 ∧ (y % 100 ≠ 0 ∨ y % 400 = 0))

def yearLength (y : ℕ) : ℕ := if isLeap y then 366 else 365

/-- The months are counted from 0. -/
def monthLength (y : ℕ) : ℕ → ℕ
  | 1 => if isLeap y then 29 else 28
  | 3 | 5 | 8 | 10 => 30
  | _ => 31

theorem yearLength_pos (y : ℕ) : 0 < yearLength y := by
  unfold yearLength
  split <;> decide

theorem monthLength_bounds (y m : ℕ) : 0 < monthLength y m ∧ monthLength y m ≤ 31 := by
  unfold monthLength
  split
  · split <;> decide
  all_goals decide

/-- The months make up the year. -/
theorem sum_monthLength (y : ℕ) : ∑ m ∈ Finset.Ico 0 12, monthLength y m = yearLength y := by
  unfold yearLength
  simp only [Finset.sum_Ico_succ_top (Nat.zero_le _), Finset.Ico_self, Finset.sum_empty, monthLength]
  split <;> rfl

/-- `struct tm`, with the year as it is. -/
structure Tm where
  sec : ℕ
  min : ℕ
  hour : ℕ
  mday : ℕ
  mon : ℕ
  year : ℕ
  wday : ℕ
  deriving DecidableEq, Repr

/-- `gmtime`, for a time since 1970.  The first day was a Thursday. -/
def gmtime (now : ℕ) : Tm :=
  let days := now / 86400
  let year := locate yearLength (days + 1) 1970 days
  let month := locate (monthLength year.1) (year.2 + 1) 0 year.2
  ⟨now % 60, now / 60 % 60, now / 3600 % 24, month.2 + 1, month.1, year.1, (days + 4) % 7⟩

/-- The time of a date. -/
def timegm (tm : Tm) : ℕ :=
  let days := ∑ y ∈ Finset.Ico 1970 tm.year, yearLength y +
    (∑ m ∈ Finset.Ico 0 tm.mon, monthLength tm.year m + (tm.mday - 1))
  86400 * days + 3600 * tm.hour + 60 * tm.min + tm.sec

/-- The values of the fields are those of a clock and of a calendar. -/
structure Tm.Fits (tm : Tm) : Prop where
  sec : tm.sec < 60
  min : tm.min < 60
  hour : tm.hour < 24
  mday : 1 ≤ tm.mday ∧ tm.mday ≤ 31
  mon : tm.mon < 12
  year : 1970 ≤ tm.year
  wday : tm.wday < 7

theorem fits_gmtime (now : ℕ) : (gmtime now).Fits := by
  have hyear := locate_spec yearLength_pos (k := 1970) (Nat.lt_succ_self (now / 86400))
  have hmonth := locate_spec (fun m => (monthLength_bounds (gmtime now).year m).1) (k := 0)
    (Nat.lt_succ_self (locate yearLength (now / 86400 + 1) 1970 (now / 86400)).2)
  have hmday := (monthLength_bounds (gmtime now).year (gmtime now).mon).2
  constructor
  · exact Nat.mod_lt _ (by decide)
  · exact Nat.mod_lt _ (by decide)
  · exact Nat.mod_lt _ (by decide)
  · exact ⟨Nat.le_add_left 1 _, hmonth.2.1.trans_le hmday⟩
  · refine locate_lt (fun m => (monthLength_bounds _ m).1) (Nat.lt_succ_self _) ?_
    rw [sum_monthLength]
    exact hyear.2.1
  · exact hyear.1
  · exact Nat.mod_lt _ (by decide)

/-- **`gmtime` loses nothing.** -/
theorem timegm_gmtime (now : ℕ) : timegm (gmtime now) = now := by
  have hyear := (locate_spec yearLength_pos (k := 1970) (Nat.lt_succ_self (now / 86400))).2.2
  have hmonth := (locate_spec (fun m => (monthLength_bounds (gmtime now).year m).1) (k := 0)
    (Nat.lt_succ_self (locate yearLength (now / 86400 + 1) 1970 (now / 86400)).2)).2.2
  have hdays : ∑ y ∈ Finset.Ico 1970 (gmtime now).year, yearLength y +
      (∑ m ∈ Finset.Ico 0 (gmtime now).mon, monthLength (gmtime now).year m +
        ((gmtime now).mday - 1)) = now / 86400 := by
    change _ + (_ + (_ + 1 - 1)) = _
    rw [Nat.add_sub_cancel]
    exact (congrArg _ hmonth).trans hyear
  unfold timegm
  simp only
  rw [hdays]
  change 86400 * (now / 86400) + 3600 * (now / 3600 % 24) + 60 * (now / 60 % 60) + now % 60 = now
  omega

/-! ### The system clock -/

/-- A time of `std::chrono::system_clock`, from 1970 on: nanoseconds in a signed number of 64
bits. -/
structure TimePoint where
  ns : ℕ
  lt : ns < 2 ^ 63

namespace TimePoint

/-- `to_time_t`. -/
def toTimeT (t : TimePoint) : ℕ := t.ns / 1000000000

/-- The last second of the clock. -/
theorem toTimeT_le (t : TimePoint) : t.toTimeT ≤ 9223372036 := by
  have hlt := t.lt
  unfold toTimeT
  omega

/-- **Its years have four digits.** -/
theorem year_lt (t : TimePoint) : (gmtime t.toTimeT).year < 10000 := by
  have hyear := (locate_spec yearLength_pos (k := 1970) (Nat.lt_succ_self (t.toTimeT / 86400))).2.2
  have hmin : ∀ y ∈ Finset.Ico 1970 (gmtime t.toTimeT).year, 365 ≤ yearLength y := by
    intro y _
    unfold yearLength
    split <;> decide
  have hdays : ∑ y ∈ Finset.Ico 1970 (gmtime t.toTimeT).year, yearLength y ≤ t.toTimeT / 86400 :=
    Nat.le_of_add_right_le hyear.le
  have hsum := (Finset.card_nsmul_le_sum _ _ _ hmin).trans hdays
  have hlast := t.toTimeT_le
  rw [Nat.card_Ico] at hsum
  change ((gmtime t.toTimeT).year - 1970) * 365 ≤ _ at hsum
  omega

end TimePoint

/-! ### The text -/

def dayNames : List Bytes := ["Sun", "Mon", "Tue", "Wed", "Thu", "Fri", "Sat"].map ascii

def monthNames : List Bytes :=
  ["Jan", "Feb", "Mar", "Apr", "May", "Jun", "Jul", "Aug", "Sep", "Oct", "Nov", "Dec"].map ascii

/-- A number with two digits. -/
def twoDigits (n : ℕ) : Bytes := [UInt8.ofNat (48 + n / 10), UInt8.ofNat (48 + n % 10)]

/-- `%a, %d %b %Y`. -/
def putDay (tm : Tm) : Bytes :=
  dayNames.getD tm.wday [] ++ ascii ", " ++ twoDigits tm.mday ++ [SP] ++
    monthNames.getD tm.mon [] ++ [SP] ++ decimal tm.year

/-- `%H:%M:%S`. -/
def putClock (tm : Tm) : Bytes :=
  twoDigits tm.hour ++ ascii ":" ++ twoDigits tm.min ++ ascii ":" ++ twoDigits tm.sec

/-- `std::put_time` with `%a, %d %b %Y %H:%M:%S GMT`. -/
def putTime (tm : Tm) : Bytes := putDay tm ++ [SP] ++ putClock tm ++ ascii " GMT"

/-- `format_date_hdr`. -/
def formatDateHdr (now : TimePoint) : Bytes := putTime (gmtime now.toTimeT)

/-! ### A reader -/

/-- A name of three letters, as its place in the list of names. -/
def takeName (names : List Bytes) (s : Bytes) : Option (ℕ × Bytes) :=
  (names.findIdx? (· = s.take 3)).map fun i => (i, s.drop 3)

/-- A number of `n` digits. -/
def takeNumber (n : ℕ) (s : Bytes) : Option (ℕ × Bytes) :=
  if n ≤ s.length ∧ (s.take n).all isDigit then some (digitsValue (s.take n), s.drop n) else none

/-- A text that has to be there. -/
def takeText (t s : Bytes) : Option Bytes := if s.take t.length = t then some (s.drop t.length) else none

/-- A day: the number of the weekday, and the date. -/
def takeDay (s : Bytes) : Option ((ℕ × ℕ × ℕ × ℕ) × Bytes) := do
  let (wday, s) ← takeName dayNames s
  let s ← takeText (ascii ", ") s
  let (mday, s) ← takeNumber 2 s
  let s ← takeText [SP] s
  let (mon, s) ← takeName monthNames s
  let s ← takeText [SP] s
  let (year, s) ← takeNumber 4 s
  return ((wday, mday, mon, year), s)

/-- A time of the day. -/
def takeClock (s : Bytes) : Option ((ℕ × ℕ × ℕ) × Bytes) := do
  let (hour, s) ← takeNumber 2 s
  let s ← takeText (ascii ":") s
  let (min, s) ← takeNumber 2 s
  let s ← takeText (ascii ":") s
  let (sec, s) ← takeNumber 2 s
  return ((hour, min, sec), s)

/-- The time of a date header, when it is one of a date that there is. -/
def readDate (s : Bytes) : Option ℕ := do
  let ((wday, mday, mon, year), s) ← takeDay s
  let s ← takeText [SP] s
  let ((hour, min, sec), s) ← takeClock s
  let s ← takeText (ascii " GMT") s
  let tm : Tm := ⟨sec, min, hour, mday, mon, year, wday⟩
  if s = [] ∧ gmtime (timegm tm) = tm then some (timegm tm) else none

theorem takeText_append (t s : Bytes) : takeText t (t ++ s) = some s := by
  unfold takeText
  rw [List.take_left, if_pos rfl, List.drop_left]

theorem takeNumber_append {n : ℕ} {ds : Bytes} (hlen : ds.length = n)
    (hds : ∀ c ∈ ds, isDigit c = true) (s : Bytes) :
    takeNumber n (ds ++ s) = some (digitsValue ds, s) := by
  subst hlen
  unfold takeNumber
  rw [List.take_left, List.drop_left, if_pos ⟨by simp, List.all_eq_true.mpr hds⟩]

theorem three_dayNames : ∀ t ∈ dayNames, t.length = 3 := by decide

theorem three_monthNames : ∀ t ∈ monthNames, t.length = 3 := by decide

theorem takeName_append {names : List Bytes} (hlen : ∀ t ∈ names, t.length = 3) (hnd : names.Nodup)
    {i : ℕ} (hi : i < names.length) (s : Bytes) :
    takeName names (names.getD i [] ++ s) = some (i, s) := by
  have hget : names.getD i [] = names[i] := by simp [hi]
  have hthree := hlen _ (List.getElem_mem hi)
  have hfind : names.findIdx? (· = names[i]) = some i := by
    refine List.findIdx?_eq_some_iff_getElem.mpr ⟨hi, decide_eq_true rfl, fun j hj hsame => ?_⟩
    exact hj.ne (hnd.getElem_inj_iff.mp (of_decide_eq_true hsame))
  rw [hget]
  unfold takeName
  rw [← hthree, List.take_left, List.drop_left, hfind]
  rfl

/-! ### The text is read back -/

theorem isDigit_twoDigits {n : ℕ} (h : n < 100) : ∀ c ∈ twoDigits n, isDigit c = true := by
  have hdigit : ∀ d < 10, isDigit (UInt8.ofNat (48 + d)) = true := by decide
  intro c hc
  rcases List.mem_cons.mp hc with rfl | hc
  · exact hdigit _ (by omega)
  · obtain rfl := List.mem_singleton.mp hc
    exact hdigit _ (Nat.mod_lt n (by decide))

theorem digitsValue_twoDigits {n : ℕ} (h : n < 100) : digitsValue (twoDigits n) = n := by
  have hdigit : ∀ d < 10, (UInt8.ofNat (48 + d)).toNat - 48 = d := by decide
  unfold digitsValue twoDigits
  simp only [List.foldl_cons, List.foldl_nil]
  rw [hdigit _ (by omega), hdigit _ (Nat.mod_lt n (by decide))]
  omega

/-- A year of four digits. -/
theorem length_decimal_year {y : ℕ} (hge : 1000 ≤ y) (hlt : y < 10000) : (decimal y).length = 4 := by
  have hle := (Nat.length_toDigits_le_iff (b := 10) (n := y) (k := 4) (by decide) (by decide)).mpr hlt
  have hnot := mt (Nat.length_toDigits_le_iff (b := 10) (n := y) (k := 3) (by decide) (by decide)).mp
    (by omega)
  unfold decimal
  rw [List.length_map]
  omega

/-- A name of three letters. -/
theorem length_getD {names : List Bytes} (hlen : ∀ t ∈ names, t.length = 3) {i : ℕ}
    (hi : i < names.length) : (names.getD i []).length = 3 := by
  have hget : names.getD i [] = names[i] := by simp [hi]
  rw [hget]
  exact hlen _ (List.getElem_mem hi)

section

variable {tm : Tm}

theorem length_putTime (hf : tm.Fits) (h : tm.year < 10000) : (putTime tm).length = 29 := by
  have hyear := length_decimal_year (by have := hf.year; omega) h
  have hday := length_getD three_dayNames hf.wday
  have hmon := length_getD three_monthNames hf.mon
  have htwo : ∀ n, (twoDigits n).length = 2 := fun _ => rfl
  unfold putTime putDay putClock
  simp only [List.length_append, hday, hmon, hyear, htwo]
  rfl

/-- Two digits are read. -/
theorem takeNumber_twoDigits {n : ℕ} (hn : n < 100) (s : Bytes) :
    takeNumber 2 (twoDigits n ++ s) = some (n, s) := by
  have hlen : (twoDigits n).length = 2 := rfl
  rw [takeNumber_append hlen (isDigit_twoDigits hn), digitsValue_twoDigits hn]

theorem takeDay_putDay (hf : tm.Fits) (h : tm.year < 10000) (s : Bytes) :
    takeDay (putDay tm ++ s) = some ((tm.wday, tm.mday, tm.mon, tm.year), s) := by
  have hday := takeName_append three_dayNames (by decide) hf.wday
  have hmon := takeName_append three_monthNames (by decide) hf.mon
  have hyear := takeNumber_append (length_decimal_year (by have := hf.year; omega) h)
    fun _ hc => isDigit_of_mem_decimal hc
  have hmday := takeNumber_twoDigits (n := tm.mday) (by have := hf.mday; omega)
  unfold takeDay putDay
  simp only [List.append_assoc, hday, takeText_append, hmday, hmon, hyear, digitsValue_decimal,
    Option.bind_eq_bind, Option.bind_some, Option.pure_def]

theorem takeClock_putClock (hf : tm.Fits) (s : Bytes) :
    takeClock (putClock tm ++ s) = some ((tm.hour, tm.min, tm.sec), s) := by
  have hhour := takeNumber_twoDigits (n := tm.hour) (by have := hf.hour; omega)
  have hmin := takeNumber_twoDigits (n := tm.min) (by have := hf.min; omega)
  have hsec := takeNumber_twoDigits (n := tm.sec) (by have := hf.sec; omega)
  unfold takeClock putClock
  simp only [List.append_assoc, hhour, takeText_append, hmin, hsec, Option.bind_eq_bind,
    Option.bind_some, Option.pure_def]

/-- **The text of a date that there is gives its time.** -/
theorem readDate_putTime (hf : tm.Fits) (h : tm.year < 10000) (hback : gmtime (timegm tm) = tm) :
    readDate (putTime tm) = some (timegm tm) := by
  have htext : putTime tm = putDay tm ++ ([SP] ++ (putClock tm ++ (ascii " GMT" ++ []))) := by
    unfold putTime
    simp only [List.append_assoc, List.append_nil]
  rw [htext]
  unfold readDate
  simp only [takeDay_putDay hf h, takeText_append, takeClock_putClock hf, Option.bind_eq_bind,
    Option.bind_some]
  exact if_pos ⟨trivial, hback⟩

end

section

theorem length_formatDateHdr (now : TimePoint) : (formatDateHdr now).length = 29 :=
  length_putTime (fits_gmtime _) now.year_lt

/-- **The text is read back.** -/
theorem readDate_formatDateHdr (now : TimePoint) :
    readDate (formatDateHdr now) = some now.toTimeT := by
  have hback : gmtime (timegm (gmtime now.toTimeT)) = gmtime now.toTimeT := by rw [timegm_gmtime]
  have hread := readDate_putTime (fits_gmtime now.toTimeT) now.year_lt hback
  rw [timegm_gmtime] at hread
  exact hread

/-- A text of digits stays on its line. -/
theorem noBreak_of_digits {ds : Bytes} (h : ∀ c ∈ ds, isDigit c = true) : NoBreak ds :=
  ⟨fun hc => absurd (h _ hc) (by decide), fun hc => absurd (h _ hc) (by decide)⟩

theorem noBreak_getD {names : List Bytes} (h : ∀ t ∈ names, NoBreak t) (i : ℕ) :
    NoBreak (names.getD i []) := by
  rw [List.getD_eq_getElem?_getD]
  cases hi : names[i]? with
  | none => decide
  | some t => exact h t (List.mem_of_getElem? hi)

theorem noBreak_formatDateHdr (now : TimePoint) : NoBreak (formatDateHdr now) := by
  have hf := fits_gmtime now.toTimeT
  have htwo : ∀ {n}, n < 100 → NoBreak (twoDigits n) := fun hn => noBreak_of_digits (isDigit_twoDigits hn)
  have hdays : ∀ t ∈ dayNames, NoBreak t := by decide
  have hmons : ∀ t ∈ monthNames, NoBreak t := by decide
  have hday := noBreak_getD hdays (gmtime now.toTimeT).wday
  have hmon := noBreak_getD hmons (gmtime now.toTimeT).mon
  have hmday := htwo (n := (gmtime now.toTimeT).mday) (by have := hf.mday; omega)
  have hhour := htwo (n := (gmtime now.toTimeT).hour) (by have := hf.hour; omega)
  have hmin := htwo (n := (gmtime now.toTimeT).min) (by have := hf.min; omega)
  have hsec := htwo (n := (gmtime now.toTimeT).sec) (by have := hf.sec; omega)
  have hsp : NoBreak [SP] := by decide
  have hcolon : NoBreak (ascii ":") := by decide
  have hdate : NoBreak (putDay (gmtime now.toTimeT)) :=
    (((((hday.append (by decide : NoBreak (ascii ", "))).append hmday).append hsp).append
      hmon).append hsp).append (noBreak_decimal (gmtime now.toTimeT).year)
  have hclock : NoBreak (putClock (gmtime now.toTimeT)) :=
    (((hhour.append hcolon).append hmin).append hcolon).append hsec
  exact ((hdate.append hsp).append hclock).append (by decide)

/-- What `format_date_hdr` returns. -/
def dateAt (now : TimePoint) : Date := ⟨formatDateHdr now, length_formatDateHdr now⟩

end

end Http

open Http

variable {P : Platform}

/-- A response with such a date stays on its lines when its reason does. -/
theorem oneLine_dateAt (a : Reply) (now : TimePoint)
    (hreason : NoBreak (a.response P (dateAt now)).statusText) :
    (a.response P (dateAt now)).OneLine :=
  ⟨hreason, (printable_response P a (d := dateAt now) (noBreak_formatDateHdr now)).text⟩

/-- The date is printed in one field. -/
theorem filter_date (a : Reply) (now : TimePoint) :
    ((a.response P (dateAt now)).read P).fields.filter (lineName · = ascii "date") =
      [ascii "date: " ++ formatDateHdr now] := by
  have hprint := printable_response P a (d := dateAt now) (noBreak_formatDateHdr now)
  have hlookup := lookup_date P a (dateAt now)
  have hkey : ascii "date" ∈ (a.response P (dateAt now)).headers.keys :=
    AList.mem_keys.mp (AList.lookup_isSome.mp (Option.isSome_iff_exists.mpr ⟨_, hlookup⟩))
  have hvalue := (hprint.getHeaderValue hkey).2
  change List.filter _ ((P.order _).map _) = _
  rw [hprint.filter_fields P hkey]
  unfold HttpMsg.field
  rw [← Option.some.inj (hlookup.symm.trans hvalue)]
  rfl

/-- **Every response says at which second it was made**: a client that reads it off the front of
what the server sends, whatever is behind it and in whatever order the headers are printed,
finds one field with a date, and reads the time of the system clock back from it. -/
theorem reply_dated (P : Platform) {req : HttpRequestMsg} {resp : HttpResponseMsg} {now : TimePoint}
    (hr : makeResponse P (dateAt now) req = some resp) (hreason : NoBreak resp.statusText)
    (T : Bytes) :
    ∃ r text, readResponse req.noBody (resp.serialize P ++ T) = some (r, T) ∧
      r.fields.filter (lineName · = ascii "date") = [ascii "date: " ++ text] ∧
      readDate text = some now.toTimeT := by
  have hresponds : Responds P req resp := ⟨_, hr⟩
  rw [makeResponse_eq] at hr
  obtain ⟨k, -, rfl⟩ := Option.map_eq_some_iff.mp hr
  have hreads := reads_response hresponds (oneLine_dateAt _ now hreason)
  exact ⟨_, _, hreads.1 T, filter_date _ now, readDate_formatDateHdr now⟩

/-- Some nanoseconds behind the time of the date that `srv.c` has in its page. -/
def pageTime : TimePoint := ⟨1759589460123456789, by decide⟩

/-- A request for the main page. -/
def pageRequest : HttpRequestMsg := ofHeader (ascii "GET / HTTP/1.1\r\nHost: a\r\n\r\n")

theorem pageRequest_isSome : (makeResponse .plain (dateAt pageTime) pageRequest).isSome = true := by
  decide +kernel

/-- The answer to it, with the first bytes of another one behind it. -/
theorem reply_dated_page :
    let resp := (makeResponse .plain (dateAt pageTime) pageRequest).get pageRequest_isSome
    ∃ r text, readResponse pageRequest.noBody (resp.serialize .plain ++ ascii "HTTP/1.1 2") =
        some (r, ascii "HTTP/1.1 2") ∧
      r.fields.filter (lineName · = ascii "date") = [ascii "date: " ++ text] ∧
      readDate text = some 1759589460 :=
  reply_dated .plain (Option.some_get pageRequest_isSome).symm (by decide +kernel)
    (ascii "HTTP/1.1 2")

example : formatDateHdr pageTime = ascii "Sat, 04 Oct 2025 14:51:00 GMT" := by decide +kernel

end SrvAsync
