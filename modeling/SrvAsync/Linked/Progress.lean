import SrvAsync.Linked.Refine

/-!
# The process never gets stuck

A step of a worker with links is not possible when the code would follow a null pointer, take
a list head for a context, or touch a context that was freed.  It gets into no state where the
code stands at such a step: until the process ends it goes on, whatever the kernel and the
allocator answer.

## Main definitions

* `LinkedWorker.Reachable` — the states a worker with links can get into.
* `LinkedWorker.Offers` — what comes next, where the process stands.

## Main results

* `never_stuck` — **the process goes on**.
-/

namespace SrvAsync

open Http Machine ListState Worker

variable {P : Platform}

/-! ### Workers with lists -/

namespace Worker

variable {w : Worker}

/-- Rounds that allocate addresses which are not in use are possible. -/
theorem isSome_fillRounds : ∀ {outs : List (Option Ptr)} {w : Worker}, outs.reduceOption.Nodup →
    (∀ p ∈ outs.reduceOption, p ∉ w.queue.qconnList ∧ p ∉ w.cache.qconnList) →
    (outs.foldlM fillRound w).isSome = true := by
  intro outs
  induction outs with
  | nil => intro w _ _; rfl
  | cons o outs ih =>
    intro w hnd hfresh
    rw [List.foldlM_cons]
    cases o with
    | none => exact ih hnd hfresh
    | some p =>
      rw [List.reduceOption_cons_of_some] at hnd hfresh
      obtain ⟨hp, hnd⟩ := List.nodup_cons.mp hnd
      have hnot := hfresh p List.mem_cons_self
      have hround : w.fillRound (some p) = some _ := if_neg (not_or.mpr hnot)
      rw [hround]
      refine ih hnd fun q hq => ⟨(hfresh q (List.mem_cons_of_mem p hq)).1, ?_⟩
      have hne : q ≠ p := fun he => hp (he ▸ hq)
      exact List.not_mem_cons_of_ne_of_not_mem hne (hfresh q (List.mem_cons_of_mem p hq)).2

/-- The outcomes of the allocations that `create_new_conn` makes: none when the cache is not
empty, and else addresses that are not in use, or failures. -/
def Allocates (cnt : ℤ) (used : Ptr → Prop) (outs : List (Option Ptr)) : Prop :=
  if cnt = 0 then (outs.length : ℤ) = minConnCtxCacheCnt ∧ outs.reduceOption.Nodup ∧
    ∀ p ∈ outs.reduceOption, ¬ used p
  else outs = []

theorem isSome_createNewConn {fd : Fd} {inst : ℕ} {outs : List (Option Ptr)}
    (houts : Allocates w.cache.cnt (fun p => p ∈ w.queue.qconnList ∨ p ∈ w.cache.qconnList) outs) :
    (w.createNewConn fd inst outs).isSome = true := by
  unfold createNewConn refillConnCtxCache
  unfold Allocates at houts
  rw [Option.isSome_map]
  split at houts
  · next hcnt =>
    obtain ⟨hlen, hnd, hfresh⟩ := houts
    have hrounds : (outs.length : ℤ) = minConnCtxCacheCnt - w.cache.cnt := by omega
    rw [if_pos hcnt]
    unfold fillConnCtxCache
    rw [if_pos hrounds]
    exact isSome_fillRounds hnd fun p hp => not_or.mp (hfresh p hp)
  · next hcnt =>
    rw [if_neg hcnt, if_pos houts]
    rfl

/-- What `epoll_pwait`, `accept` and the allocator can answer. -/
def Answers (fds : Fd → Option ℕ) (cnt : ℤ) (used : Ptr → Prop) : EpollResult → Prop
  | .ready none outs => outs = []
  | .ready (some fd) outs => 0 ≤ fd ∧ fds fd = none ∧ Allocates cnt used outs
  | .timeout | .eintr | .error => True

theorem isSome_polled {r : EpollResult}
    (hr : Answers w.fds w.cache.cnt (fun p => p ∈ w.queue.qconnList ∨ p ∈ w.cache.qconnList) r) :
    (w.polled r).isSome = true := by
  cases r with
  | ready accept outs =>
    cases accept with
    | none =>
      have houts : outs = [] := hr
      simp only [polled, if_pos houts, Option.isSome_some]
    | some fd =>
      obtain ⟨h0, hfree, houts⟩ := hr
      have hok : 0 ≤ fd ∧ w.fds fd = none := ⟨h0, hfree⟩
      simp only [polled, if_pos hok, Option.isSome_map]
      exact isSome_createNewConn houts
  | timeout | eintr | error => rfl

/-- What a coroutine that stands there goes on from. -/
def CoroOffers : Point → Op → Prop
  | .recv f _, .read r => r.Fits f.toRecv
  | .send f _, .write r => r.Fits f.toSend
  | .check _, .check => True
  | _, _ => False

/-- The main context can switch to a connection. -/
theorem isSome_resume {s : St} {fcntlOk : Bool} (hctl : s.ctl = .main) (t : Tick) :
    (s.step P t (.resume fcntlOk)).isSome = true := by
  simp only [St.step, hctl, Option.isSome_some]

/-- The running coroutine goes on. -/
theorem isSome_coro {s : St} {pt : Point} {op : Op} (hctl : s.ctl = .coro pt)
    (ho : CoroOffers pt op) (t : Tick) : (s.step P t op).isSome = true := by
  unfold CoroOffers at ho
  unfold St.step
  split at ho
  · simp only [hctl, if_pos ho, Option.isSome_some]
  · simp only [hctl, if_pos ho, Option.isSome_some]
  · simp only [hctl]
    split <;> rfl
  · exact ho.elim

/-- A running coroutine stands where it goes on from something. -/
theorem exists_coroOffers {pt : Point} (hpt : pt.running = true) : ∃ op, CoroOffers pt op := by
  cases pt with
  | recv f k => exact ⟨.read .again, trivial⟩
  | send f k => exact ⟨.write .again, trivial⟩
  | check y => exact ⟨.check, trivial⟩
  | _ => cases hpt

end Worker

/-! ### Workers with links -/

namespace LinkedWorker

variable {m : LinkedWorker} {w : Worker} {xs ys : List Ptr} {ph : Phase}

/-- The states a worker with links can get into, whatever was in memory. -/
def Reachable (P : Platform) (m : LinkedWorker) : Prop :=
  ∃ heads heap mem junk outs m₀ is,
    init heads heap mem junk outs = some m₀ ∧ run (step P) m₀ is = some m

/-- What comes next where the main loop stands: what the code does, and what it can be
answered.  At the test of `qlist_foreach_entry_safe` the code compares the pointer with the
head of the queue, and takes anything else for a connection. -/
def MainOffers (m : LinkedWorker) : LoopPoint → WorkerOp → Prop
  | .head, .block => m.activeConnCnt = 0
  | .head, .poll r =>
    ¬ (r = .timeout ∧ m.activeConnCnt = 0) ∧ Answers m.fds m.cnt m.Mapped r
  | .blocked, .poll r => r ≠ .timeout ∧ Answers m.fds m.cnt m.Mapped r
  | .pass conn _, .resume _ => conn ≠ some (.head .queue)
  | .pass conn _, .endPass => conn = some (.head .queue)
  | .resumed .., .back => True
  | _, _ => False

/-- What comes next where the process stands. -/
def Offers (m : LinkedWorker) (op : WorkerOp) : Prop :=
  match m.ctl with
  | .main => m.MainOffers m.point op
  | .coro pt => ∃ o, op = .co o ∧ CoroOffers pt o
  | .dead _ => False

/-- A reachable worker with links has a worker with lists. -/
theorem Reachable.sim (h : Reachable P m) : ∃ w, m.Sim w ∧ Worker.Reachable P w := by
  obtain ⟨heads, heap, mem, junk, outs, m₀, is, hinit, hrun⟩ := h
  have hrel := sim_run (P := P) heads heap mem junk outs is
  rw [hinit, Option.bind_some, hrun] at hrel
  generalize Option.bind _ _ = o at hrel
  cases hrel with
  | some h => exact ⟨_, h⟩

/-- The main loop of the worker with lists takes what comes next. -/
theorem isSome_mainStep {op : WorkerOp} (hctl : m.ctl = .main) (hl : m.Lists xs ys)
    (hpt : Points m.links xs m.point ph) (ho : m.MainOffers m.point op) (t : Tick) :
    ((m.worker xs ys ph).mainStep P t ph op).isSome = true := by
  have hused : m.Mapped = fun p => p ∈ xs ∨ p ∈ ys := funext fun _ => propext hl.mapped_iff
  have hpolled : ∀ r, Answers m.fds m.cnt m.Mapped r →
      ((m.worker xs ys ph).polled r).isSome = true := fun r hr => isSome_polled (hused ▸ hr)
  generalize m.point = point at hpt ho
  cases hpt with
  | head =>
    cases op with
    | block => exact (congrArg Option.isSome (if_pos ho)).trans rfl
    | poll r => exact (congrArg Option.isSome (if_neg ho.1)).trans (hpolled r ho.2)
    | _ => exact ho.elim
  | blocked =>
    cases op with
    | poll r => exact (congrArg Option.isSome (if_neg ho.1)).trans (hpolled r ho.2)
    | _ => exact ho.elim
  | @pass A todo hxs =>
    cases todo with
    | nil =>
      cases op with
      | endPass => rfl
      | resume => exact absurd rfl ho
      | _ => exact ho.elim
    | cons p todo =>
      cases op with
      | resume fcntlOk =>
        change (Option.map _ _).isSome = true
        rw [Option.isSome_map]
        exact isSome_resume hctl t
      | endPass => cases ho
      | _ => exact ho.elim
  | resumed =>
    cases op with
    | back => rfl
    | _ => exact ho.elim

/-- The worker with lists takes what comes next. -/
theorem isSome_step {op : WorkerOp} (hl : m.Lists xs ys) (hpt : Points m.links xs m.point ph)
    (hw : Worker.Reachable P (m.worker xs ys ph)) (ho : m.Offers op) (t : Tick) :
    ((m.worker xs ys ph).step P (t, op)).isSome = true := by
  have hsame : (m.worker xs ys ph).ctl = m.ctl := rfl
  unfold Offers at ho
  unfold Worker.step
  simp only [hsame]
  cases hctl : m.ctl with
  | main =>
    rw [hctl] at ho
    exact isSome_mainStep hctl hl hpt ho t
  | coro pt =>
    rw [hctl] at ho
    obtain ⟨o, rfl, ho⟩ := ho
    obtain ⟨hcur, -⟩ := runs_own hw hctl
    simp only [hcur, Option.isSome_map]
    exact isSome_coro hctl ho t
  | dead d =>
    rw [hctl] at ho
    exact ho.elim

/-- Until the process ends something comes next. -/
theorem exists_offers (hpt : Points m.links xs m.point ph)
    (hw : Worker.Reachable P (m.worker xs ys ph)) (hctl : ∀ d, m.ctl ≠ .dead d) :
    ∃ op, m.Offers op := by
  unfold Offers
  cases hc : m.ctl with
  | main =>
    generalize m.point = point at hpt
    cases hpt with
    | head => exact ⟨.poll .error, by simp, trivial⟩
    | blocked => exact ⟨.poll .error, by simp, trivial⟩
    | @pass A todo =>
      by_cases hend : some (firstNode todo) = some (.head .queue)
      · exact ⟨.endPass, hend⟩
      · exact ⟨.resume true, hend⟩
    | resumed => exact ⟨.back, trivial⟩
  | coro pt =>
    obtain ⟨-, -, -, -, a, -, href⟩ := refines_of_coro hw hc
    obtain ⟨hrun, -⟩ := (refines_coro_iff hc).mp href
    obtain ⟨o, ho⟩ := exists_coroOffers hrun
    exact ⟨.co o, o, rfl, ho⟩
  | dead d => exact absurd hc (hctl d)

/-- **The process never gets stuck.**  In every state it can get into, with whatever was in
memory, it has ended or something comes next; and what comes next is a step, whatever the
kernel, the clock and the allocator answer.  So it never follows a null pointer, never takes a
list head for a connection, and never touches a connection that was freed. -/
theorem never_stuck (h : Reachable P m) :
    ((∃ d, m.ctl = .dead d) ∨ ∃ op, m.Offers op) ∧
      ∀ op t junk, m.Offers op → (m.step P ((t, op), junk)).isSome = true := by
  obtain ⟨w, ⟨xs, ys, ph, rfl, hl, hpt⟩, hw⟩ := h.sim
  refine ⟨?_, fun op t junk ho => ?_⟩
  · by_cases hd : ∃ d, m.ctl = .dead d
    · exact .inl hd
    · exact .inr (exists_offers hpt hw (not_exists.mp hd))
  · have hrel := sim_step ((t, op), junk) ⟨xs, ys, ph, rfl, hl, hpt⟩ hw
    have hsome := isSome_step hl hpt hw ho t
    revert hrel hsome
    generalize m.step P _ = o
    generalize Worker.step P _ _ = o'
    intro hrel hsome
    cases hrel with
    | some => rfl
    | none => exact hsome

/-- The process behind the `accept` of its first connection. -/
def firstAccepted : Option LinkedWorker :=
  (init (fun _ => ⟨none, none⟩) (fun _ => Conn.zero) (fun _ _ => 0) (fun _ => ⟨none, none⟩)
    oneContext).bind fun m =>
      run (step .plain) m
        [((Tick.atTime 0, .poll (.ready (some 4) [])), fun _ => ⟨none, none⟩)]

theorem firstAccepted_isSome : firstAccepted.isSome = true := by
  decide +kernel

/-- It goes on to that connection, also when the `fcntl` calls fail. -/
theorem never_stuck_accepted :
    let m := firstAccepted.get firstAccepted_isSome
    ∀ fcntlOk t junk, (m.step .plain ((t, .resume fcntlOk), junk)).isSome = true := by
  intro m fcntlOk t junk
  have hm : Reachable .plain m := by
    obtain ⟨m₀, hinit, hrun⟩ := Option.bind_eq_some_iff.mp
      (Option.some_get firstAccepted_isSome).symm
    exact ⟨_, _, _, _, _, m₀, _, hinit, hrun⟩
  have hctl : m.ctl = .main := rfl
  have hpoint : m.point = .pass (some (.conn 1)) (some (.head .queue)) := rfl
  have hoffers : m.Offers (.resume fcntlOk) := by
    unfold Offers
    rw [hctl, hpoint]
    simp [MainOffers]
  exact (never_stuck hm).2 _ t junk hoffers

end LinkedWorker
end SrvAsync
