import SrvAsync.Threaded.Steps

/-!
# The descriptors of the server with threads

A thread only ever reads from, writes to and closes the socket of its own connection, although
descriptors are used again and all the threads share them.  But a thread that ends in
`pthread_exit` keeps its socket: each client that connects and goes away without a request
takes a descriptor for good, and when as many did so as there are descriptors the server
accepts nobody any more.

## Main definitions

* `Threaded.Holder`, `Owned` — whom an open descriptor belongs to.
* `Threaded.leaked` — how many threads left their socket open.
* `Threaded.Exhausted` — all descriptors were left open.

## Main results

* `owned_run` — **an open descriptor belongs to the thread of its connection**.
* `accepts_no_more` — **when every descriptor was left open, no connection is accepted any
  more**.
-/

namespace SrvAsync

open Http Machine

namespace Threaded

variable {avail : Finset Fd} {s s' : Threaded} {a : Act}

/-- The thread of this connection has the descriptor, or `main` before it made the thread. -/
def Holder (s : Threaded) (fd : Fd) (k : ℕ) : Prop :=
  (∃ th, s.threads[k]? = some th ∧ th.sock = fd ∧ th.point.holds = true) ∨
    s.main = .create fd ∧ k = s.threads.length

/-- **An open descriptor belongs to the thread of its connection**, and a thread that has not
closed its socket has it. -/
def Owned (s : Threaded) : Prop := ∀ fd k, s.files fd = some k ↔ s.Holder fd k

/-- Whom the descriptors belong to does not depend on where `main` stands outside
`thread_new_conn`. -/
theorem Owned.of_main (h : s.Owned) (hfiles : s'.files = s.files) (hthreads : s'.threads = s.threads)
    (hm : ∀ fd, s.main ≠ .create fd) (hm' : ∀ fd, s'.main ≠ .create fd) : s'.Owned := by
  intro fd k
  rw [hfiles, h fd k]
  unfold Holder
  rw [hthreads]
  simp [hm fd, hm' fd]

/-- What the thread of this connection has. -/
theorem holder_iff {fd : Fd} {k : ℕ} {th : Thread} (hth : s.threads[k]? = some th) :
    s.Holder fd k ↔ th.sock = fd ∧ th.point.holds = true := by
  have hlt := (List.getElem?_eq_some_iff.mp hth).1
  unfold Holder
  rw [hth]
  simp [hlt.ne]

/-- A thread goes on. -/
theorem holder_setThread {fd : Fd} {j k : ℕ} {th' : Thread} (hlt : k < s.threads.length) :
    (s.setThread k th').Holder fd j ↔
      if j = k then th'.sock = fd ∧ th'.point.holds = true else s.Holder fd j := by
  split
  · next hj =>
    subst hj
    exact holder_iff (List.getElem?_set_self hlt)
  · next hj =>
    unfold Holder Threaded.setThread
    rw [List.getElem?_set_ne (Ne.symm hj), List.length_set]

/-- The descriptor of a thread that has not closed it. -/
theorem Owned.files_eq (h : s.Owned) {k : ℕ} {th : Thread} (hth : s.threads[k]? = some th)
    (hholds : th.point.holds = true) : s.files th.sock = some k :=
  (h _ k).mpr ((holder_iff hth).mpr ⟨rfl, hholds⟩)

/-- `main` accepts a connection. -/
theorem Owned.accepted (h : s.Owned) {fd : Fd} {spent : ℤ} (hm : s.main = .accept)
    (hfree : s.files fd = none) : (s.accepted fd spent).Owned := by
  intro fd' k
  unfold Holder Threaded.accepted
  simp only
  by_cases hfd : fd' = fd
  · subst hfd
    rw [Function.update_self]
    refine ⟨fun hk => .inr ⟨rfl, (Option.some.inj hk).symm⟩, ?_⟩
    rintro (hth | ⟨-, rfl⟩)
    · exact absurd ((h fd' k).mpr (.inl hth)) (by simp [hfree])
    · rfl
  · rw [Function.update_of_ne hfd, h fd' k]
    unfold Holder
    rw [hm]
    refine or_congr_right ⟨fun hc => MainPoint.noConfusion hc.1, fun hc => ?_⟩
    exact absurd (MainPoint.create.inj hc.1).symm hfd

/-- `main` makes the thread, which takes the descriptor over. -/
theorem Owned.created (h : s.Owned) {fd : Fd} {spent now : ℤ} (hm : s.main = .create fd) :
    (s.created fd spent now).Owned := by
  have hmain : ∀ fd', (s.created fd spent now).main ≠ .create fd' := by
    intro fd'
    unfold Threaded.created
    simp only
    split <;> exact MainPoint.noConfusion
  intro fd' k
  rw [show (s.created fd spent now).files = s.files from rfl, h fd' k]
  unfold Holder
  simp only [hmain fd', false_and, or_false, hm, MainPoint.create.injEq]
  have hthreads : (s.created fd spent now).threads = s.threads ++ [⟨fd, .read, []⟩] := rfl
  rw [hthreads]
  constructor
  · rintro (⟨th, hth, hsock⟩ | ⟨rfl, rfl⟩)
    · have hlt := (List.getElem?_eq_some_iff.mp hth).1
      exact ⟨th, by rw [List.getElem?_append_left hlt]; exact hth, hsock⟩
    · exact ⟨_, List.getElem?_concat_length, rfl, rfl⟩
  · rintro ⟨th, hth, hsock, hholds⟩
    by_cases hlt : k < s.threads.length
    · rw [List.getElem?_append_left hlt] at hth
      exact .inl ⟨th, hth, hsock, hholds⟩
    · have hlen := (List.getElem?_eq_some_iff.mp hth).1
      rw [List.length_append, List.length_singleton] at hlen
      obtain rfl : k = s.threads.length := by omega
      rw [List.getElem?_concat_length] at hth
      obtain rfl := Option.some.inj hth
      exact .inr ⟨hsock, rfl⟩

/-- A thread goes on, and has its socket if and only if it had it. -/
theorem Owned.setThread (h : s.Owned) {k : ℕ} {th th' : Thread} (hth : s.threads[k]? = some th)
    (hsock : th'.sock = th.sock) (hholds : th'.point.holds = th.point.holds) :
    (s.setThread k th').Owned := by
  intro fd j
  refine (h fd j).trans ?_
  rw [holder_setThread (List.getElem?_eq_some_iff.mp hth).1]
  split
  · next hj => rw [hj, holder_iff hth, hsock, hholds]
  · rfl

/-- A thread closes its socket. -/
theorem Owned.closed (h : s.Owned) {k : ℕ} {th : Thread} (hth : s.threads[k]? = some th)
    (hholds : th.point.holds = true) {pt : ThreadPoint} (hnot : pt.holds = false) :
    ({ s with files := Function.update s.files th.sock none }.setThread k
      { th with point := pt }).Owned := by
  have hown := h.files_eq hth hholds
  intro fd j
  have hiff : Function.update s.files th.sock none fd = some j ↔ j ≠ k ∧ s.files fd = some j := by
    by_cases hfd : fd = th.sock
    · subst hfd
      rw [Function.update_self, hown]
      simp [eq_comm]
    · rw [Function.update_of_ne hfd]
      refine ⟨fun hj => ⟨?_, hj⟩, And.right⟩
      rintro rfl
      exact hfd ((holder_iff hth).mp ((h _ _).mp hj)).1.symm
  refine hiff.trans ?_
  rw [h fd j]
  refine Iff.trans ?_ (holder_setThread (s := s) (List.getElem?_eq_some_iff.mp hth).1).symm
  split
  · next hj => simp [hj, hnot]
  · next hj => simp [hj]

/-- The descriptors of a process that is there belong to its threads. -/
structure Books (avail : Finset Fd) (s : Threaded) : Prop where
  owned : s.main.alive = true → s.Owned
  within : ∀ fd, s.files fd ≠ none → fd ∈ avail

theorem books_start (avail : Finset Fd) (now : ℤ) : (start now).Books avail where
  owned _ fd k := by simp [start, Holder]
  within fd h := absurd rfl h

/-- **One step.** -/
theorem Books.step (h : s.Books avail) (hs : s.step avail a = some s') : s'.Books avail := by
  have halive := alive_of_step hs
  have ho := h.owned halive
  cases steps_of_step hs with
  | @accept fd spent hm hfd hfree =>
    refine ⟨fun _ => ho.accepted hm hfree, fun fd' hne => ?_⟩
    by_cases he : fd' = fd
    · exact he ▸ hfd
    · exact h.within fd' fun hnone => hne ((Function.update_of_ne he _ _).trans hnone)
  | create hm => exact ⟨fun _ => ho.created hm, h.within⟩
  | retry => exact h
  | die hm => exact ⟨fun ha => absurd (hm.symm.trans ha) Bool.false_ne_true, h.within⟩
  | test hm =>
    refine ⟨fun _ => ho.of_main rfl rfl (by simp [hm]) fun fd => ?_, h.within⟩
    simp only
    split <;> exact MainPoint.noConfusion
  | print hm | reset hm =>
    exact ⟨fun _ => ho.of_main rfl rfl (by simp [hm]) fun fd => MainPoint.noConfusion, h.within⟩
  | move hth hpt hsock hholds =>
    refine ⟨fun _ => ho.setThread hth hsock ?_, h.within⟩
    rcases hpt with hpt | hpt <;> rw [hpt, hholds] <;> rfl
  | @close k th hth hpt =>
    refine ⟨fun _ => ho.closed hth (by rw [hpt]; rfl) rfl, fun fd' hne => h.within fd' fun hnone => ?_⟩
    refine hne ?_
    change Function.update s.files th.sock none fd' = none
    by_cases he : fd' = th.sock
    · exact he ▸ Function.update_self _ _ _
    · exact (Function.update_of_ne he _ _).trans hnone
  | @count k th hth hpt =>
    -- the counter does not matter
    have hcounted : (s.setThread k { th with point := .returned }).Owned :=
      ho.setThread hth rfl (by rw [hpt]; rfl)
    exact ⟨fun _ => hcounted, h.within⟩

theorem books_run {now : ℤ} {as : List Act} (h : run (step avail) (start now) as = some s) :
    s.Books avail :=
  run_invariant (fun _ _ _ hb hs => Books.step hb hs) as (books_start avail now) h

/-- **An open descriptor belongs to the thread of its connection**: whatever the clients do, and
in whatever order the threads run, a thread that stands at a read, a write or a close has the
socket that was accepted for it, no other thread has it, and every descriptor that is open belongs
to such a thread, to one that ended early, or to `main` that has just accepted it. -/
theorem owned_run {now : ℤ} {as : List Act} (h : run (step avail) (start now) as = some s)
    (halive : s.main.alive = true) : s.Owned :=
  (books_run h).owned halive

/-- The descriptor of the first connection is used again for the third one, before the first
thread has ended and after the second one has. -/
def reuseRun : List Act :=
  [.accept (.ok 4) 1, .create none 1 0, .read 0 (some [71]), .accept (.ok 5) 1, .create none 1 0,
    .write 0 (.sent 1024), .read 1 (some []), .close 0, .accept (.ok 4) 2, .create none 1 0]

theorem reuseRun_isSome : (run (step {4, 5}) (start 0) reuseRun).isSome = true := by decide +kernel

/-- The end of this run. -/
def reuseEnd : Threaded := (run (step {4, 5}) (start 0) reuseRun).get reuseRun_isSome

theorem owned_run_reuse : reuseEnd.Holder 4 2 ∧ reuseEnd.Holder 5 1 :=
  have howned := owned_run (Option.some_get reuseRun_isSome).symm (by decide +kernel)
  ⟨(howned 4 2).mp (by decide +kernel), (howned 5 1).mp (by decide +kernel)⟩

/-! ### Descriptors that stay open -/

/-- How many threads left their socket open. -/
def leaked (s : Threaded) : ℕ := s.threads.countP fun th => th.point.left

/-- The sockets they left open. -/
def leftOpen (s : Threaded) : List Fd := (s.threads.filter fun th => th.point.left).map Thread.sock

theorem mem_leftOpen {fd : Fd} : fd ∈ s.leftOpen ↔
    ∃ (k : ℕ) (th : Thread), s.threads[k]? = some th ∧ th.sock = fd ∧ th.point.left = true := by
  unfold leftOpen
  constructor
  · intro h
    obtain ⟨th, hth, rfl⟩ := List.mem_map.mp h
    obtain ⟨hth, hleft⟩ := List.mem_filter.mp hth
    obtain ⟨k, hk⟩ := List.mem_iff_getElem?.mp hth
    exact ⟨k, th, hk, rfl, hleft⟩
  · rintro ⟨k, th, hk, rfl, hleft⟩
    exact List.mem_map_of_mem (List.mem_filter.mpr ⟨List.mem_of_getElem? hk, hleft⟩)

/-- Two threads never left the same descriptor open. -/
theorem Owned.nodup_leftOpen (h : s.Owned) : s.leftOpen.Nodup := by
  unfold leftOpen
  rw [List.Nodup, List.pairwise_map, List.pairwise_filter, List.pairwise_iff_getElem]
  intro i j hi hj hij hleft hleft' hsame
  have hown := fun k (hk : k < s.threads.length) (hl : s.threads[k].point.left = true) =>
    h.files_eq (List.getElem?_eq_getElem hk) (ThreadPoint.holds_of_left hl)
  have hsame' := (hown i hi hleft).symm.trans (hsame ▸ hown j hj hleft')
  exact hij.ne (Option.some.inj hsame')

/-- **Every descriptor was left open** by a thread that ended early. -/
structure Exhausted (avail : Finset Fd) (s : Threaded) : Prop where
  books : s.Books avail
  full : avail.card ≤ s.leaked

namespace Exhausted

/-- Each descriptor is one of a thread that ended early. -/
theorem mem_leftOpen (h : s.Exhausted avail) (halive : s.main.alive = true) {fd : Fd}
    (hfd : fd ∈ avail) : fd ∈ s.leftOpen := by
  have ho := h.books.owned halive
  have hsub : s.leftOpen.toFinset ⊆ avail := by
    intro fd' hfd'
    obtain ⟨k, th, hk, rfl, hleft⟩ := Threaded.mem_leftOpen.mp (List.mem_toFinset.mp hfd')
    refine h.books.within _ ?_
    rw [ho.files_eq hk (ThreadPoint.holds_of_left hleft)]
    exact Option.some_ne_none k
  have hcard : s.leftOpen.toFinset.card = s.leaked := by
    rw [List.toFinset_card_of_nodup ho.nodup_leftOpen, leftOpen, List.length_map, leaked,
      List.countP_eq_length_filter]
  have heq := Finset.eq_of_subset_of_card_le hsub (hcard ▸ h.full)
  exact List.mem_toFinset.mp (heq ▸ hfd)

/-- So who has a descriptor is a thread that ended early. -/
theorem left (h : s.Exhausted avail) (halive : s.main.alive = true) {fd : Fd} {k : ℕ}
    (hk : s.Holder fd k) : ∃ th, s.threads[k]? = some th ∧ th.point.left = true := by
  have ho := h.books.owned halive
  have hfile := (ho fd k).mpr hk
  have hfd := h.books.within fd (by simp [hfile])
  obtain ⟨j, th, hj, rfl, hleft⟩ := Threaded.mem_leftOpen.mp (h.mem_leftOpen halive hfd)
  have hfile' := ho.files_eq hj (ThreadPoint.holds_of_left hleft)
  obtain rfl := Option.some.inj (hfile.symm.trans hfile')
  exact ⟨th, hj, hleft⟩

/-- No thread stands at a call on its socket. -/
theorem left_of_holds (h : s.Exhausted avail) (halive : s.main.alive = true) {k : ℕ} {th : Thread}
    (hth : s.threads[k]? = some th) (hholds : th.point.holds = true) : th.point.left = true := by
  obtain ⟨th', hth', hleft⟩ := h.left halive ((holder_iff hth).mpr ⟨rfl, hholds⟩)
  obtain rfl := Option.some.inj (hth.symm.trans hth')
  exact hleft

/-- **One step**: no connection is accepted, and no descriptor comes free. -/
theorem step (h : s.Exhausted avail) (hs : s.step avail a = some s') : s'.Exhausted avail ∧
    s'.files = s.files ∧ s'.threads.length = s.threads.length := by
  have halive := alive_of_step hs
  have hb := h.books.step hs
  cases steps_of_step hs with
  | accept hm hfd hfree =>
    obtain ⟨k, th, hk, rfl, hleft⟩ := Threaded.mem_leftOpen.mp (h.mem_leftOpen halive hfd)
    have hfile := (h.books.owned halive).files_eq hk (ThreadPoint.holds_of_left hleft)
    exact absurd (hfile.symm.trans hfree) (Option.some_ne_none k)
  | create hm =>
    -- `main` would have a descriptor
    obtain ⟨th, hth, -⟩ := h.left halive (.inr ⟨hm, rfl⟩)
    exact absurd (List.getElem?_eq_some_iff.mp hth).1 (lt_irrefl _)
  | retry => exact ⟨h, rfl, rfl⟩
  | die | test | print | reset => exact ⟨⟨hb, h.full⟩, rfl, rfl⟩
  | move hth hpt =>
    have hleft := h.left_of_holds halive hth (by rcases hpt with hpt | hpt <;> rw [hpt] <;> rfl)
    rcases hpt with hpt | hpt <;> rw [hpt] at hleft <;> cases hleft
  | close hth hpt =>
    have hleft := h.left_of_holds halive hth (by rw [hpt]; rfl)
    rw [hpt] at hleft
    cases hleft
  | @count k th hth hpt =>
    refine ⟨⟨hb, ?_⟩, rfl, List.length_set⟩
    have hlt := (List.getElem?_eq_some_iff.mp hth).1
    obtain rfl : s.threads[k] = th := (List.getElem?_eq_some_iff.mp hth).2
    change avail.card ≤
      (s.threads.set k { s.threads[k] with point := .returned }).countP fun th => th.point.left
    have hcount : ThreadPoint.count.left = false := rfl
    have hreturned : ThreadPoint.returned.left = false := rfl
    rw [List.countP_set hlt, hpt, hcount, hreturned]
    exact h.full

end Exhausted

/-- **When every descriptor was left open, no connection is accepted any more**: if as many
threads ended early as there are descriptors, then whatever happens afterwards no descriptor comes
free, and no thread is made. -/
theorem accepts_no_more {now : ℤ} {as bs : List Act}
    (h : run (step avail) (start now) as = some s) (hleaked : avail.card ≤ s.leaked)
    (h' : run (step avail) s bs = some s') :
    s'.files = s.files ∧ s'.threads.length = s.threads.length := by
  have hinv := run_invariant (P := fun t => t.Exhausted avail ∧ t.files = s.files ∧
      t.threads.length = s.threads.length)
    (fun t a t' ht hs => by
      obtain ⟨he, hfiles, hlen⟩ := ht.1.step hs
      exact ⟨he, hfiles.trans ht.2.1, hlen.trans ht.2.2⟩) bs ⟨⟨books_run h, hleaked⟩, rfl, rfl⟩ h'
  exact hinv.2

/-- Of the two descriptors there are, one goes to a client that sends nothing, and the other one
to a client that does not take its answer. -/
def silentRun : List Act :=
  [.accept (.ok 4) 1, .create none 1 0, .read 0 (some []), .accept (.ok 5) 1, .create none 1 0,
    .read 1 (some (ascii "GET / HTTP/1.1\r\n\r\n")), .write 1 .error]

theorem silentRun_isSome : (run (step {4, 5}) (start 0) silentRun).isSome = true := by
  decide +kernel

/-- The end of this run. -/
def silentEnd : Threaded := (run (step {4, 5}) (start 0) silentRun).get silentRun_isSome

theorem refusals_isSome :
    (run (step {4, 5}) silentEnd [.accept (.error 4) 1, .accept (.error 24) 0]).isSome = true := by
  decide +kernel

theorem accepts_no_more_silent :
    ((run (step {4, 5}) silentEnd [.accept (.error 4) 1, .accept (.error 24) 0]).get
      refusals_isSome).threads.length = 2 :=
  (accepts_no_more (Option.some_get silentRun_isSome).symm (by decide +kernel)
    (Option.some_get refusals_isSome).symm).2

end Threaded
end SrvAsync
