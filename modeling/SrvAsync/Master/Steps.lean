import SrvAsync.Master.Defs

/-!
# What a step of the main process can be

## Main definitions

* `Advances` — what a step of `wait_for_workers` and `close_srv_log` does.
* `Steps` — what a step does.

## Main results

* `advances_of_advance`, `steps_of_step`.
-/

namespace SrvAsync
namespace Master

variable {m m' : Master} {a : Act} {p : WaitPoint} {q : Option WaitPoint}

/-- **What a step of `wait_for_workers` and `close_srv_log` does.** -/
inductive Advances (m : Master) : WaitPoint → Option WaitPoint → Master → Prop
  | reap {fout : Stream} {k : ℕ} {c : Child} {s : Status} (hc : m.children[k]? = some c)
    (hl : c.life = .ended s) :
    Advances m (.wait fout) (some (.report fout c.pid s)) (m.setLife k c (.reaped s))
  | drain {fout : Stream} (h : m.AllReaped) : Advances m (.wait fout) (some .close) m
  | print {fout : Stream} {pid : ℕ} {s : Status} :
    Advances m (.report fout pid s) (some (.wait fout))
      { m with events := m.events ++ [.print fout pid s] }
  | skip (h : m.logFileDesc = .stdout) : Advances m .close none m
  | test (h : m.logFileDesc = .file) : Advances m .close (some .tested) m
  | load {fp : Stream} (h : fp = m.logFileDesc ∨ fp = .file) :
    Advances m .tested (some (.closing fp)) m
  | fclose {fp : Stream} :
    Advances m (.closing fp) (some .closed) { m with events := m.events ++ [.fclose fp] }
  | assign : Advances m .closed none { m with logFileDesc := .stdout }

theorem advances_of_advance (h : m.advance p a = some (q, m')) : m.Advances p q m' := by
  unfold advance at h
  split at h
  · next fout r =>
    cases r with
    | some k =>
      obtain ⟨c, hc, h⟩ := Option.bind_eq_some_iff.mp h
      split at h
      · next s hl =>
        obtain ⟨rfl, rfl⟩ := Prod.mk.inj (Option.some.inj h)
        exact .reap hc hl
      · cases h
    | none =>
      obtain ⟨hall, h⟩ := Option.ite_none_right_eq_some.mp h
      obtain ⟨rfl, rfl⟩ := Prod.mk.inj (Option.some.inj h)
      exact .drain hall
  · obtain ⟨rfl, rfl⟩ := Prod.mk.inj (Option.some.inj h)
    exact .print
  · obtain ⟨rfl, rfl⟩ := Prod.mk.inj (Option.some.inj h)
    cases hd : m.logFileDesc with
    | stdout => exact .skip hd
    | file => exact .test hd
  · obtain ⟨rfl, rfl⟩ := Prod.mk.inj (Option.some.inj h)
    exact .load (.inl rfl)
  · obtain ⟨rfl, rfl⟩ := Prod.mk.inj (Option.some.inj h)
    exact .load (.inr rfl)
  · obtain ⟨rfl, rfl⟩ := Prod.mk.inj (Option.some.inj h)
    exact .fclose
  · obtain ⟨rfl, rfl⟩ := Prod.mk.inj (Option.some.inj h)
    exact .assign
  · cases h

/-- **What a step does.** -/
inductive Steps (m : Master) : Act → Master → Prop
  /-- The handler starts. -/
  | sigint (hm : m.main ≠ .returned) (hh : m.handler = none) : Steps m .sigint m.interrupt
  /-- The signal is blocked. -/
  | blocked (hh : m.handler ≠ none) : Steps m .sigint { m with pending := true }
  /-- A child makes a step. -/
  | child {a : Act} {k : ℕ} {c : Child} {l : Life} (ha : a ≠ .sigint) (hc : m.children[k]? = some c)
    (hl : c.life.status = none) (hl' : l.status = none) : Steps m a (m.setLife k c l)
  /-- The handler goes on. -/
  | handler {a : Act} {p q : WaitPoint} {m' : Master} (ha : a ≠ .sigint) (hh : m.handler = some p)
    (h : m.Advances p (some q) m') : Steps m a { m' with handler := some q }
  /-- The handler starts again. -/
  | again {a : Act} {p : WaitPoint} {m' : Master} (ha : a ≠ .sigint) (hh : m.handler = some p)
    (h : m.Advances p none m') : Steps m a { m' with pending := false }.interrupt
  /-- The handler returns. -/
  | back {a : Act} {p : WaitPoint} {m' : Master} (ha : a ≠ .sigint) (hh : m.handler = some p)
    (h : m.Advances p none m') : Steps m a { m' with handler := none }
  /-- `fork` gives a child. -/
  | fork {a : Act} {i pid : ℕ} (ha : a ≠ .sigint) (hh : m.handler = none) (hm : m.main = .fork i)
    (hi : i < m.numWorkers) :
    Steps m a { m with
      children := m.children ++ [⟨pid, .starting⟩]
      main := .fork (i + 1)
      events := m.events ++ [.fork] }
  /-- `fork` fails. -/
  | forkFails {a : Act} {i : ℕ} (ha : a ≠ .sigint) (hh : m.handler = none) (hm : m.main = .fork i)
    (hi : i < m.numWorkers) : Steps m a { m with main := .fork (i + 1) }
  /-- The loop that forks is over. -/
  | forked {a : Act} {i : ℕ} (ha : a ≠ .sigint) (hh : m.handler = none) (hm : m.main = .fork i) :
    Steps m a { m with main := .tail (.wait m.logFileDesc) }
  /-- `main` goes on. -/
  | main {a : Act} {p q : WaitPoint} {m' : Master} (ha : a ≠ .sigint) (hh : m.handler = none)
    (hm : m.main = .tail p) (h : m.Advances p (some q) m') : Steps m a { m' with main := .tail q }
  /-- `main` returns. -/
  | returns {a : Act} {p : WaitPoint} {m' : Master} (ha : a ≠ .sigint) (hh : m.handler = none)
    (hm : m.main = .tail p) (h : m.Advances p none m') : Steps m a { m' with main := .returned }

theorem steps_of_childStep {k : ℕ} {next : Life → Option Life} (ha : a ≠ .sigint)
    (hnext : ∀ l l', next l = some l' → l.status = none ∧ l'.status = none)
    (h : m.childStep k next = some m') : m.Steps a m' := by
  unfold childStep at h
  obtain ⟨c, hc, h⟩ := Option.bind_eq_some_iff.mp h
  obtain ⟨l, hl, h⟩ := Option.bind_eq_some_iff.mp h
  obtain rfl := Option.some.inj h
  exact .child ha hc (hnext _ _ hl).1 (hnext _ _ hl).2

theorem steps_of_handlerStep (ha : a ≠ .sigint) (hh : m.handler = some p)
    (h : m.handlerStep p a = some m') : m.Steps a m' := by
  unfold handlerStep at h
  obtain ⟨⟨q, m₁⟩, hadv, h⟩ := Option.map_eq_some_iff.mp h
  have hadv := advances_of_advance hadv
  cases q with
  | some q => exact h ▸ .handler ha hh hadv
  | none =>
    simp only at h
    split at h
    · exact h ▸ .again ha hh hadv
    · exact h ▸ .back ha hh hadv

theorem steps_of_mainStep (ha : a ≠ .sigint) (hh : m.handler = none)
    (h : m.mainStep m.main a = some m') : m.Steps a m' := by
  unfold mainStep at h
  split at h
  · next i pid hm =>
    obtain ⟨hi, h⟩ := Option.ite_none_right_eq_some.mp h
    exact Option.some.inj h ▸ .fork ha hh hm hi.1
  · next i hm =>
    obtain ⟨hi, h⟩ := Option.ite_none_right_eq_some.mp h
    exact Option.some.inj h ▸ .forkFails ha hh hm hi
  · next i hm =>
    obtain ⟨-, h⟩ := Option.ite_none_left_eq_some.mp h
    exact Option.some.inj h ▸ .forked ha hh hm
  · next p hm =>
    obtain ⟨⟨q, m₁⟩, hadv, h⟩ := Option.map_eq_some_iff.mp h
    have hadv := advances_of_advance hadv
    cases q with
    | some q => exact h ▸ .main ha hh hm hadv
    | none => exact h ▸ .returns ha hh hm hadv
  · cases h

theorem steps_of_step (h : m.step a = some m') : m.Steps a m' := by
  cases a with
  | sigint =>
    unfold step at h
    simp only at h
    obtain ⟨hm, h⟩ := Option.ite_none_left_eq_some.mp h
    split at h
    · next hh => exact Option.some.inj h ▸ .blocked fun he => by simp [he] at hh
    · next hh => exact Option.some.inj h ▸ .sigint hm (by simpa using hh)
  | ready k =>
    unfold step at h
    refine steps_of_childStep Act.noConfusion ?_ h
    intro l l' hl
    split at hl <;> cases hl
    exact ⟨rfl, rfl⟩
  | childSigint k =>
    unfold step at h
    refine steps_of_childStep Act.noConfusion ?_ h
    intro l l' hl
    split at hl <;> cases hl <;> exact ⟨rfl, rfl⟩
  | ends k s =>
    unfold step at h
    refine steps_of_childStep Act.noConfusion ?_ h
    intro l l' hl
    split at hl <;> cases hl <;> exact ⟨rfl, rfl⟩
  | fork r | wait r | go | keep =>
    unfold step at h
    simp only at h
    split at h
    · next p hh => exact steps_of_handlerStep Act.noConfusion hh h
    · next hh => exact steps_of_mainStep Act.noConfusion hh h

end Master
end SrvAsync
