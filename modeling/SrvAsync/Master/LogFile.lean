import SrvAsync.Master.Reports

/-!
# The log file is closed once, and not used behind that

`wait_for_workers` loads `log_file_desc` once, and `close_srv_log` loads it for its test and
for its `fclose`, and forgets the file behind that.  The handler of SIGINT closes the file as
well.  So a SIGINT that comes when `main` has waited for a child and not reported it, or
between its test and the assignment, makes `main` use a file that is closed, close it again or
close `stdout`, or the handler close the file again; and no other SIGINT does.

## Main definitions

* `Spoiled` — a SIGINT came at one of these points, and its effect is to come.
* `Orderly` — the invariant of runs without such a SIGINT.

## Main results

* `Orderly.step`, `Spoiled.step`.
* `sound_iff` — **the streams are used rightly exactly when no SIGINT comes at these points**.
-/

open scoped List

namespace SrvAsync
namespace Master

open Machine

variable {m m' m₂ : Master} {a : Act} {p : WaitPoint} {q : Option WaitPoint}

/-- The log file was not closed. -/
def IsOpen (m : Master) : Prop := .fclose .file ∉ m.events

/-! ### The events -/

/-- A call that leaves `stdout` open, and uses the log file when it is open. -/
theorem Sound.concat {e : LogEvent} (h : Sound m.events) (hopen : e.uses = some .file → m.IsOpen)
    (hne : e ≠ .fclose .stdout) : Sound (m.events ++ [e]) := by
  refine ⟨List.pairwise_append.mpr ⟨h.1, List.pairwise_singleton _ _, ?_⟩, ?_⟩
  · intro f hf g hg
    obtain rfl := List.mem_singleton.mp hg
    cases f with
    | print | fork => trivial
    | fclose fp =>
      cases fp with
      | stdout => exact absurd hf h.2
      | file => exact fun huse => hopen huse hf
  · rw [List.mem_append, List.mem_singleton]
    rintro (hmem | he)
    · exact h.2 hmem
    · exact hne he.symm

/-- What uses the log file behind its `fclose` is not used rightly. -/
theorem not_sound_concat {e : LogEvent} (hclosed : ¬ m.IsOpen) (he : e.uses = some .file) :
    ¬ Sound (m.events ++ [e]) := fun h =>
  (List.pairwise_append.mp h.1).2.2 _ (not_not.mp hclosed) e (List.mem_singleton.mpr rfl) he

theorem Sound.of_append {es fs : List LogEvent} (h : Sound (es ++ fs)) : Sound es :=
  ⟨(List.pairwise_append.mp h.1).1, fun hmem => h.2 (List.mem_append_left _ hmem)⟩

/-- Another call leaves the log file open. -/
theorem IsOpen.concat {e : LogEvent} (h : m.IsOpen) (he : e ≠ .fclose .file) :
    IsOpen { m with events := m.events ++ [e] } := by
  unfold IsOpen at h ⊢
  simpa [h] using he.symm

/-! ### Runs without such a signal -/

/-- The log file is still the one that is open. -/
def Good (m : Master) : Prop := m.IsOpen ∧ m.logFileDesc = .file

/-- The code can go on from this point: what it is to use is open. -/
def WaitPoint.Fit (m : Master) : WaitPoint → Prop
  | .wait fout => fout = .file → m.Good ∨ m.AllReaped
  | .report fout _ _ => fout = .file → m.Good
  | .close => True
  | .tested => m.Good
  | .closing fp => fp = .file ∧ m.Good
  | .closed => ¬ m.IsOpen ∧ m.logFileDesc = .file

/-- A step of a child. -/
theorem WaitPoint.Fit.setLife {k : ℕ} {c : Child} {l : Life} (h : p.Fit m)
    (hc : m.children[k]? = some c) (hl : c.life.status = none) : p.Fit (m.setLife k c l) := by
  cases p with
  | wait fout => exact fun hfile => .inl ((h hfile).resolve_right fun hall => hall.getElem hc hl)
  | report | close | tested | closing | closed => exact h

/-- **The invariant of runs without such a signal.** -/
structure Orderly (m : Master) : Prop where
  sound : Sound m.events
  desc : m.logFileDesc = .file →
    m.IsOpen ∨ m.main = .tail .closed ∨ m.handler = some .closed
  main : ∀ p, m.main = .tail p → p.Fit m
  handler : ∀ p, m.handler = some p → p.Fit m
  alone : m.main.exposed = true → m.handler = none

namespace Advances

variable (h : m.Advances p q m')

include h

/-- The point it leads to. -/
theorem fit (hp : p.Fit m) (hopen : m.logFileDesc = .file → p ≠ .closed → m.IsOpen)
    {r : WaitPoint} (hr : q = some r) : r.Fit m' := by
  cases h with
  | reap hc hl =>
    cases hr
    intro hfile
    have hnot : ¬ m.AllReaped := fun hall => hall.getElem hc (by rw [hl]; rfl)
    exact (hp hfile).resolve_right hnot
  | drain => cases hr; trivial
  | print =>
    cases hr
    exact fun hfile => .inl ⟨(hp hfile).1.concat LogEvent.noConfusion, (hp hfile).2⟩
  | test hd =>
    cases hr
    exact ⟨hopen hd WaitPoint.noConfusion, hd⟩
  | load hfp =>
    cases hr
    have hgood : m.Good := hp
    exact ⟨hfp.elim (fun he => he.trans hgood.2) id, hgood⟩
  | fclose =>
    cases hr
    obtain ⟨rfl, hgood⟩ := hp
    exact ⟨fun hopen => hopen (by simp), hgood.2⟩
  | skip | assign => cases hr

/-- The point of `main` below it. -/
theorem fit_below {r : WaitPoint} (hr : r.Fit m) (hall : p.Over → m.AllReaped)
    (hne : (MainPoint.tail r).exposed = false) : r.Fit m' := by
  have hover : p.Over → m'.AllReaped := fun ho => h.allReaped (hall ho)
  cases r with
  | close => trivial
  | tested | closing | closed => cases hne
  | report fout pid s =>
    rintro rfl
    cases hne
  | wait fout =>
    intro hfile
    rcases hr hfile with hgood | hall
    · cases h with
      | reap | drain | skip => exact .inl hgood
      | print => exact .inl ⟨hgood.1.concat LogEvent.noConfusion, hgood.2⟩
      | test | load | fclose | assign => exact .inr (hover trivial)
    · exact .inr (h.allReaped hall)

/-- The events. -/
theorem sound (hp : p.Fit m) (hs : Sound m.events) : Sound m'.events := by
  cases h with
  | reap | drain | skip | test | load | assign => exact hs
  | print => exact hs.concat (fun huse => (hp (Option.some.inj huse)).1) LogEvent.noConfusion
  | fclose =>
    obtain ⟨rfl, hgood⟩ := hp
    exact hs.concat (fun _ => hgood.1) fun he => nomatch LogEvent.fclose.inj he

/-- The stream of the log, and the file. -/
theorem desc (hopen : m.logFileDesc = .file → p ≠ .closed → m.IsOpen) :
    m'.logFileDesc = .file → m'.IsOpen ∨ q = some .closed := by
  intro hd
  cases h with
  | reap | drain | test | load => exact .inl (hopen hd WaitPoint.noConfusion)
  | print => exact .inl ((hopen hd WaitPoint.noConfusion).concat LogEvent.noConfusion)
  | fclose => exact .inr rfl
  | skip hd' => cases hd'.symm.trans hd
  | assign => cases hd

/-- Behind the last step the log goes to `stdout`. -/
theorem desc_of_none (hq : q = none) : m'.logFileDesc = .stdout := by
  cases h with
  | reap | drain | print | test | load | fclose => cases hq
  | skip hd => exact hd
  | assign => rfl

end Advances

theorem orderly_start (n : ℕ) (desc : Stream) : (start n desc).Orderly where
  sound := ⟨List.Pairwise.nil, List.not_mem_nil⟩
  desc := fun _ => .inl List.not_mem_nil
  main := fun _ h => nomatch h
  handler := fun _ h => nomatch h
  alone := fun h => nomatch h

/-- While the handler runs, the file is open until it closes it. -/
theorem Orderly.open_of_handler (ho : m.Orderly) (hh : m.handler = some p)
    (hd : m.logFileDesc = .file) (hp : p ≠ .closed) : m.IsOpen := by
  rcases ho.desc hd with h | h | h
  · exact h
  · exact nomatch hh.symm.trans (ho.alone (by rw [h]; rfl))
  · exact absurd (Option.some.inj (hh.symm.trans h)) hp

/-- The same while `main` runs. -/
theorem Orderly.open_of_main (ho : m.Orderly) (hh : m.handler = none)
    (hd : m.logFileDesc = .file) (hm : m.main ≠ .tail .closed) : m.IsOpen := by
  rcases ho.desc hd with h | h | h
  · exact h
  · exact absurd h hm
  · exact nomatch hh.symm.trans h

/-- While the handler runs, `main` is at none of these points. -/
theorem Orderly.not_exposed (ho : m.Orderly) (hh : m.handler = some p) : m.main.exposed = false :=
  Bool.eq_false_iff.mpr fun he => nomatch hh.symm.trans (ho.alone he)

/-- What a step of the handler leaves of the point of `main`. -/
theorem Orderly.main_below (ho : m.Orderly) (hb : m.Balanced) (hh : m.handler = some p)
    (h : m.Advances p q m') {r : WaitPoint} (hr : m'.main = .tail r) : r.Fit m' := by
  have hr' : m.main = .tail r := h.main_eq.symm.trans hr
  exact h.fit_below (ho.main r hr') (hb.handler p hh) (hr' ▸ ho.not_exposed hh)

theorem Orderly.alone_below (ho : m.Orderly) (hh : m.handler = some p) (h : m.Advances p q m') :
    m'.main.exposed ≠ true := by
  rw [h.main_eq, ho.not_exposed hh]
  exact Bool.noConfusion

/-- **A step that is no such signal.** -/
theorem Orderly.step (ho : m.Orderly) (hb : m.Balanced) (hs : m.step a = some m')
    (ha : a = .sigint → ¬ m.Exposed) : m'.Orderly := by
  cases steps_of_step hs with
  | sigint hm hh =>
    have hexp : m.main.exposed ≠ true := fun he => ha rfl ⟨hh, he⟩
    have hopen : m.logFileDesc = .file → m.IsOpen := fun hd =>
      ho.open_of_main hh hd fun hm => hexp (by rw [hm]; rfl)
    refine ⟨ho.sound, fun hd => .inl (hopen hd), ho.main, ?_, fun he => absurd he hexp⟩
    intro p hp
    cases hp
    exact fun hd => .inl ⟨hopen hd, hd⟩
  | blocked hh => exact ⟨ho.sound, ho.desc, ho.main, ho.handler, ho.alone⟩
  | child ha hc hl hl' =>
    exact ⟨ho.sound, ho.desc, fun p hp => (ho.main p hp).setLife hc hl,
      fun p hp => (ho.handler p hp).setLife hc hl, ho.alone⟩
  | @handler _ p q m₁ ha hh h =>
    have hopen := fun hd hp => ho.open_of_handler hh hd hp
    have halone := ho.alone_below hh h
    refine ⟨h.sound (ho.handler p hh) ho.sound, fun hd => (h.desc hopen hd).imp_right .inr,
      fun r hr => ho.main_below hb hh h hr, ?_, fun he => absurd he halone⟩
    intro r hr
    cases hr
    exact h.fit (ho.handler p hh) hopen rfl
  | @again _ p m₁ ha hh h =>
    have hdesc := h.desc_of_none rfl
    have halone := ho.alone_below hh h
    refine ⟨h.sound (ho.handler p hh) ho.sound, fun hd => (nomatch hdesc.symm.trans hd),
      fun r hr => ho.main_below hb hh h hr, ?_, fun he => absurd he halone⟩
    intro r hr
    cases hr
    exact fun hd => (nomatch hdesc.symm.trans hd)
  | @back _ p m₁ ha hh h =>
    have hdesc := h.desc_of_none rfl
    exact ⟨h.sound (ho.handler p hh) ho.sound, fun hd => (nomatch hdesc.symm.trans hd),
      fun r hr => ho.main_below hb hh h hr, fun _ hr => (nomatch hr), fun _ => rfl⟩
  | fork ha hh hm =>
    have hopen := fun hd => ho.open_of_main hh hd (hm ▸ MainPoint.noConfusion)
    have hsound : Sound (m.events ++ [.fork]) :=
      ho.sound.concat (fun huse => nomatch huse) LogEvent.noConfusion
    exact ⟨hsound, fun hd => .inl ((hopen hd).concat LogEvent.noConfusion), fun _ hr => (nomatch hr),
      fun _ hr => (nomatch hh.symm.trans hr), fun _ => hh⟩
  | forkFails ha hh hm =>
    have hopen := fun hd => ho.open_of_main hh hd (hm ▸ MainPoint.noConfusion)
    exact ⟨ho.sound, fun hd => .inl (hopen hd), fun _ hr => (nomatch hr),
      fun _ hr => (nomatch hh.symm.trans hr), fun _ => hh⟩
  | forked ha hh hm =>
    have hopen := fun hd => ho.open_of_main hh hd (hm ▸ MainPoint.noConfusion)
    refine ⟨ho.sound, fun hd => .inl (hopen hd), fun r hr => ?_,
      fun _ hr => (nomatch hh.symm.trans hr), fun _ => hh⟩
    cases hr
    exact fun hd => .inl ⟨hopen hd, hd⟩
  | @main _ p q m₁ ha hh hm h =>
    have hopen : m.logFileDesc = .file → p ≠ .closed → m.IsOpen := fun hd hp =>
      ho.open_of_main hh hd (hm ▸ fun he => hp (MainPoint.tail.inj he))
    have hh' := h.handler_eq.trans hh
    refine ⟨h.sound (ho.main p hm) ho.sound,
      fun hd => (h.desc hopen hd).imp_right fun hq => .inl (congrArg _ (Option.some.inj hq)), fun r hr => ?_,
      fun _ hr => (nomatch hh'.symm.trans hr), fun _ => hh'⟩
    cases hr
    exact h.fit (ho.main p hm) hopen rfl
  | @returns _ p m₁ ha hh hm h =>
    have hdesc := h.desc_of_none rfl
    have hh' := h.handler_eq.trans hh
    exact ⟨h.sound (ho.main p hm) ho.sound, fun hd => (nomatch hdesc.symm.trans hd),
      fun _ hr => (nomatch hr), fun _ hr => (nomatch hh'.symm.trans hr), fun _ => hh'⟩

/-! ### Runs with such a signal -/

/-- The `fclose` of the log file is to come, when the variable holds it. -/
def WaitPoint.Ahead : WaitPoint → Prop
  | .closing fp => fp = .file
  | .closed => False
  | .wait _ | .report _ _ _ | .close | .tested => True

/-- The handler runs, and is going to close the log file. -/
def Doomed (m : Master) : Prop := m.logFileDesc = .file ∧ ∃ p, m.handler = some p ∧ p.Ahead

/-- The log file is closed, or going to be. -/
def Caught (m : Master) : Prop := ¬ m.IsOpen ∨ m.Doomed

/-- **Such a signal came.** -/
inductive Spoiled (m : Master) : Prop
  /-- A stream was used wrongly. -/
  | done (h : ¬ Sound m.events)
  /-- `main` is to report a child to the log file. -/
  | line {pid : ℕ} {s : Status} (hm : m.main = .tail (.report .file pid s)) (h : m.Caught)
  /-- Its test has seen the log file. -/
  | tested (hm : m.main = .tail .tested) (h : m.Caught)
  /-- It is to close it, or `stdout`. -/
  | closing {fp : Stream} (hm : m.main = .tail (.closing fp)) (h : fp = .file → m.Caught)
  /-- The log file is closed, and going to be closed again. -/
  | close (hm : m.main = .tail .closed) (hclosed : ¬ m.IsOpen) (h : m.Doomed)

/-- A step of the code only adds to the events. -/
theorem Advances.prefix_events (h : m.Advances p q m') : m.events <+: m'.events := by
  cases h with
  | reap | drain | skip | test | load | assign => exact List.prefix_rfl
  | print | fclose => exact List.prefix_append _ _

theorem not_sound_mono {es fs : List LogEvent} (h : es <+: fs) (hs : ¬ Sound es) : ¬ Sound fs := by
  obtain ⟨gs, rfl⟩ := h
  exact fun hsound => hs hsound.of_append

theorem not_isOpen_mono (h : m.events <+: m'.events) (hm : ¬ m.IsOpen) : ¬ m'.IsOpen :=
  fun hopen => hm fun hmem => hopen (h.subset hmem)

/-- A step of the handler that is going to close the file: it goes on to that, or closes it. -/
theorem Doomed.advance (hd : m.Doomed) (hh : m.handler = some p) (h : m.Advances p q m') :
    (∃ r, q = some r ∧ r.Ahead ∧ m'.logFileDesc = .file) ∨
      m'.events = m.events ++ [.fclose .file] := by
  obtain ⟨hfile, r, hr, hahead⟩ := hd
  obtain rfl := Option.some.inj (hr.symm.trans hh)
  cases h with
  | reap | drain | test => exact .inl ⟨_, rfl, trivial, hfile⟩
  | print => exact .inl ⟨_, rfl, trivial, hfile⟩
  | skip h => exact (nomatch hfile.symm.trans h)
  | load hfp => exact .inl ⟨_, rfl, hfp.elim (fun he => he.trans hfile) id, hfile⟩
  | fclose =>
    obtain rfl := hahead
    exact .inr rfl
  | assign => exact hahead.elim

theorem Doomed.handler_ne_none (hd : m.Doomed) : m.handler ≠ none := by
  obtain ⟨-, p, hp, -⟩ := hd
  rw [hp]
  exact Option.some_ne_none p

theorem Caught.closed (h : m.Caught) (hh : m.handler = none) : ¬ m.IsOpen :=
  h.resolve_right fun hd => hd.handler_ne_none hh

section Handler

-- a step of the code leads to `m'`, and what becomes of the handler then to `m₂`

variable (hh : m.handler = some p) (h : m.Advances p q m') (hev : m₂.events = m'.events)
  (hdesc : m₂.logFileDesc = m'.logFileDesc) (hq : ∀ r, q = some r → m₂.handler = some r)

include hh h hev hdesc hq

/-- The file stays closed, or going to be. -/
theorem Caught.handlerStep (hc : m.Caught) : m₂.Caught := by
  rcases hc with hcl | hd
  · exact .inl (not_isOpen_mono (hev ▸ h.prefix_events) hcl)
  · rcases hd.advance hh h with ⟨r, hr, hahead, hfile⟩ | hclose
    · exact .inr ⟨hdesc.trans hfile, r, hq r hr, hahead⟩
    · refine .inl fun hopen => hopen ?_
      rw [hev, hclose]
      simp

/-- The effect of such a signal, after a step of the handler. -/
theorem Spoiled.handlerStep (hsp : m.Spoiled) (hmain : m₂.main = m'.main) : m₂.Spoiled := by
  have hpre : m.events <+: m₂.events := hev ▸ h.prefix_events
  have hstays : ∀ r, m.main = r → m₂.main = r := fun r hr => hmain.trans (h.main_eq.trans hr)
  cases hsp with
  | done hs => exact .done (not_sound_mono hpre hs)
  | line hm hc => exact .line (hstays _ hm) (hc.handlerStep hh h hev hdesc hq)
  | tested hm hc => exact .tested (hstays _ hm) (hc.handlerStep hh h hev hdesc hq)
  | closing hm hc => exact .closing (hstays _ hm) fun he => (hc he).handlerStep hh h hev hdesc hq
  | close hm hcl hd =>
    rcases hd.advance hh h with ⟨r, hr, hahead, hfile⟩ | hclose
    · exact .close (hstays _ hm) (not_isOpen_mono hpre hcl) ⟨hdesc.trans hfile, r, hq r hr, hahead⟩
    · refine .done ?_
      rw [hev, hclose]
      exact not_sound_concat hcl rfl

end Handler

/-- The effect of such a signal, after a step of `main`. -/
theorem Spoiled.mainStep (hsp : m.Spoiled) (hh : m.handler = none) (hm : m.main = .tail p)
    (h : m.Advances p q m') (hev : m₂.events = m'.events)
    (hq : ∀ r, q = some r → m₂.main = .tail r) : m₂.Spoiled := by
  cases hsp with
  | done hs => exact .done (hev ▸ not_sound_mono h.prefix_events hs)
  | line hm' hc =>
    obtain rfl := MainPoint.tail.inj (hm.symm.trans hm')
    cases h with
    | print => exact .done (hev ▸ not_sound_concat (hc.closed hh) rfl)
  | tested hm' hc =>
    obtain rfl := MainPoint.tail.inj (hm.symm.trans hm')
    cases h with
    | load =>
      exact .closing (hq _ rfl) fun _ => .inl (not_isOpen_mono (hev ▸ List.prefix_rfl) (hc.closed hh))
  | @closing fp hm' hc =>
    obtain rfl := MainPoint.tail.inj (hm.symm.trans hm')
    cases h with
    | fclose =>
      refine .done ?_
      rw [hev]
      cases fp with
      | stdout => exact fun hs => hs.2 (by simp)
      | file => exact not_sound_concat ((hc rfl).closed hh) rfl
  | close _ _ hd => exact absurd hh hd.handler_ne_none

/-- A further signal. -/
theorem Caught.interrupt (hc : m.Caught) (hh : m.handler = none) : m.interrupt.Caught :=
  .inl (hc.closed hh)

/-- **The effect of such a signal stays to come, or has come.** -/
theorem Spoiled.step (hsp : m.Spoiled) (hs : m.step a = some m') : m'.Spoiled := by
  cases steps_of_step hs with
  | sigint hm hh =>
    cases hsp with
    | done h => exact .done h
    | line hm' h => exact .line hm' (h.interrupt hh)
    | tested hm' h => exact .tested hm' (h.interrupt hh)
    | closing hm' h => exact .closing hm' fun he => (h he).interrupt hh
    | close _ _ hd => exact absurd hh hd.handler_ne_none
  | blocked | child =>
    cases hsp with
    | done h => exact .done h
    | line hm h => exact .line hm h
    | tested hm h => exact .tested hm h
    | closing hm h => exact .closing hm h
    | close hm hcl h => exact .close hm hcl h
  | handler ha hh h => exact hsp.handlerStep hh h rfl rfl (fun r hr => hr ▸ rfl) rfl
  | again ha hh h => exact hsp.handlerStep hh h rfl rfl (fun r hr => nomatch hr) rfl
  | back ha hh h => exact hsp.handlerStep hh h rfl rfl (fun r hr => nomatch hr) rfl
  | fork ha hh hm | forkFails ha hh hm | forked ha hh hm =>
    cases hsp with
    | done h => exact .done (not_sound_mono (by simp) h)
    | line hm' | tested hm' | closing hm' | close hm' => exact (nomatch hm.symm.trans hm')
  | main ha hh hm h =>
    exact hsp.mainStep hh hm h rfl fun r hr => congrArg MainPoint.tail (Option.some.inj hr)
  | returns ha hh hm h => exact hsp.mainStep hh hm h rfl fun r hr => nomatch hr

/-- The signal itself. -/
theorem Orderly.spoiled (ho : m.Orderly) (hexp : m.Exposed) : m.interrupt.Spoiled := by
  obtain ⟨hh, hexp⟩ := hexp
  have hcaught : m.logFileDesc = .file → m.interrupt.Caught := fun hd => .inr ⟨hd, _, rfl, trivial⟩
  unfold MainPoint.exposed at hexp
  split at hexp
  · next pid s hm =>
    have hgood : m.Good := ho.main _ hm rfl
    exact .line hm (hcaught hgood.2)
  · next hm =>
    have hgood : m.Good := ho.main _ hm
    exact .tested hm (hcaught hgood.2)
  · next fp hm =>
    obtain ⟨-, hgood⟩ := ho.main _ hm
    exact .closing hm fun _ => hcaught hgood.2
  · next hm =>
    obtain ⟨hclosed, hd⟩ := ho.main _ hm
    exact .close hm hclosed ⟨hd, _, rfl, trivial⟩
  · cases hexp

/-! ### Whole runs -/

theorem step_sigint_of_exposed (h : m.Exposed) (hs : m.step .sigint = some m') :
    m' = m.interrupt := by
  cases steps_of_step hs with
  | sigint => rfl
  | blocked hh => exact absurd h.1 hh
  | child ha | handler ha | again ha | back ha | fork ha | forkFails ha | forked ha | main ha
  | returns ha => exact absurd rfl ha

/-- A run that returns and uses the log file rightly has no such signal. -/
theorem along_of_sound {as : List Act} (ho : m.Orderly) (hb : m.Balanced)
    (h : run Master.step m as = some m') (hr : m'.main = .returned) (hsound : Sound m'.events) :
    Along (fun m a => a = .sigint → ¬ m.Exposed) Master.step m as := by
  induction as generalizing m with
  | nil => trivial
  | cons a as ih =>
    obtain ⟨m₁, h₁, hrest⟩ := run_cons_eq_some_iff.mp h
    have hno : a = .sigint → ¬ m.Exposed := by
      rintro rfl hexp
      obtain rfl := step_sigint_of_exposed hexp h₁
      have hend := run_invariant (fun _ _ _ hsp hs => Spoiled.step hsp hs) as (ho.spoiled hexp) hrest
      cases hend with
      | done hs => exact hs hsound
      | line hm | tested hm | closing hm | close hm => exact (nomatch hr.symm.trans hm)
    refine ⟨hno, fun m₂ h₂ => ?_⟩
    obtain rfl := Option.some.inj (h₁.symm.trans h₂)
    exact ih (ho.step hb h₁ hno) (hb.step h₁) hrest

/-- **The streams are used rightly exactly when no SIGINT comes at these points**: in every run
of the main process in which `main` returns, nothing is printed to a log file that was closed,
it is closed at most once and `stdout` is not, if and only if no SIGINT comes while `main` has
waited for a child and not reported it to the file, or between the test of its `close_srv_log`
and the assignment there. -/
theorem sound_iff {n : ℕ} {desc : Stream} {as : List Act}
    (h : run Master.step (start n desc) as = some m) (hr : m.main = .returned) :
    Sound m.events ↔
      Along (fun m a => a = .sigint → ¬ m.Exposed) Master.step (start n desc) as := by
  refine ⟨along_of_sound (orderly_start n desc) (balanced_start n desc) h hr, fun hno => ?_⟩
  have hboth : m.Orderly ∧ m.Balanced :=
    run_invariant_along (P := fun m : Master => m.Orderly ∧ m.Balanced)
      (fun _ _ _ hm ha hs => ⟨hm.1.step hm.2 hs ha, hm.2.step hs⟩) as
      ⟨orderly_start n desc, balanced_start n desc⟩ hno h
  exact hboth.1.sound

/-- SIGINT comes behind the test of `close_srv_log` in `main`: the handler closes the log, and
then `main` loads `stdout` and closes it. -/
def exposedRun : List Act :=
  [.fork (some 71), .fork (some 72), .go, .ready 0, .ready 1, .ends 0 (.signaled 11), .wait (some 0), .go,
    .ends 1 (.exited 1), .wait (some 1), .go, .wait none, .go, .sigint, .wait none, .go, .go, .go,
    .go, .go, .go, .go]

theorem exposedRun_isSome : (run Master.step (start 2 .file) exposedRun).isSome = true := by decide

/-- The end of this run. -/
def exposedEnd : Master := (run Master.step (start 2 .file) exposedRun).get exposedRun_isSome

theorem sound_iff_exposed : ¬ Sound exposedEnd.events := by
  intro hsound
  have hno := (sound_iff (Option.some_get exposedRun_isSome).symm (by decide)).mp hsound
  exact absurd hno (by decide)

end Master
end SrvAsync
