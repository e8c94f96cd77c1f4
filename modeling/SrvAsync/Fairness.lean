import SrvAsync.Base.Rounds
import SrvAsync.Isolation

/-!
# The main loop is fair

`qlist_foreach_entry_safe` of the main loop goes round the queue of connections, to
which `create_new_conn` adds at the front and from which completed connections are taken.
A worker is such a round (`Base.Rounds`): whatever the coroutines do, a pass switches
exactly once to every connection that is in the queue when it starts, and of two
connections that stay neither gets more than one turn ahead of the other.

## Main definitions

* `Worker.todo`, `Worker.turn`, `Worker.turns`.
* `Worker.Stays` — a connection is in the queue all along a run.

## Main results

* `rounds_step` — **a worker goes round its queue**.
* `turns_of_whole_pass` — one turn for each connection in a pass.
* `turns_within_one` — **connections that stay have their turns in turn**.
-/

namespace SrvAsync

open Http Machine

variable {P : Platform} {w w' : Worker} {p q : Ptr}

namespace Worker

/-- What the pass over the queue has still to visit. -/
def todo (w : Worker) : List Ptr :=
  match w.phase with
  | .pass todo => todo
  | .resumed _ todo => todo
  | _ => []

/-- The connection the main loop switches to in this step. -/
def turn (w : Worker) (i : Tick × WorkerOp) : Option Ptr :=
  match w.phase, i.2 with
  | .pass (p :: _), .resume _ => some p
  | _, _ => none

/-- The turns of a run, one entry for each of its steps. -/
def turns (P : Platform) : Worker → List (Tick × WorkerOp) → List (Option Ptr)
  | _, [] => []
  | w, i :: is => w.turn i :: (w.step P i).elim [] fun w' => turns P w' is

/-- The connection is in the queue before every step of the run, and behind the last one. -/
def Stays (P : Platform) (w : Worker) (is : List (Tick × WorkerOp)) (p : Ptr) : Prop :=
  Along (fun w _ => p ∈ w.queue.qconnList) (step P) w is ∧
    ∀ w', run (step P) w is = some w' → p ∈ w'.queue.qconnList

instance Stays.decidable (P : Platform) (w : Worker) (is : List (Tick × WorkerOp)) (p : Ptr) :
    Decidable (Stays P w is p) :=
  have : Decidable (∀ w', run (step P) w is = some w' → p ∈ w'.queue.qconnList) :=
    match run (step P) w is with
    | none => isTrue fun _ hw => absurd hw (Option.some_ne_none _).symm
    | some w₁ => decidable_of_iff (p ∈ w₁.queue.qconnList)
      ⟨fun hp _ hw => Option.some.inj hw ▸ hp, fun hp => hp w₁ rfl⟩
  inferInstanceAs (Decidable (_ ∧ _))

/-- The worker goes this round. -/
structure Goes (r : Rounds Ptr) (w : Worker) : Prop where
  queue : r.queue = w.queue.qconnList
  todo : r.todo = w.todo

/-! ### A step of the worker is a step of the round -/

theorem turn_of_ne {t : Tick} {op : WorkerOp} (h : ∀ b, op ≠ .resume b) : w.turn (t, op) = none := by
  unfold turn
  split
  · next he => exact absurd he (h _)
  · rfl

theorem todo_of_pass {l : List Ptr} (h : w.phase = .pass l) : w.todo = l := by
  unfold todo
  rw [h]

theorem todo_of_resumed {x : Ptr} {l : List Ptr} (h : w.phase = .resumed x l) : w.todo = l := by
  unfold todo
  rw [h]

theorem todo_of_head (h : w.phase = .head ∨ w.phase = .blocked) : w.todo = [] := by
  unfold todo
  rcases h with h | h <;> rw [h]

/-- The queue after the code behind `epoll_pwait`, and the pass that starts, if one does. -/
theorem todo_polled {r : EpollResult} (hs : w.polled r = some w') :
    w'.todo = w'.queue.qconnList ∨ (w'.todo = w.todo ∧ w'.queue = w.queue) := by
  cases r with
  | timeout | eintr => exact .inl (Option.some.inj hs ▸ rfl)
  | error => exact .inr (Option.some.inj hs ▸ ⟨rfl, rfl⟩)
  | ready accept outs =>
    cases accept with
    | none =>
      simp only [polled] at hs
      split at hs
      · exact .inl (Option.some.inj hs ▸ rfl)
      · cases hs
    | some fd =>
      simp only [polled] at hs
      split at hs
      · obtain ⟨w₁, -, rfl⟩ := Option.map_eq_some_iff.mp hs
        exact .inl rfl
      · cases hs

/-- A step of the worker inside a pass. -/
def Inside (op : WorkerOp) : Prop := ∀ r, op ≠ .poll r

instance : DecidablePred Inside
  | .poll r => isFalse fun h => h r rfl
  | .block | .resume _ | .co _ | .back | .endPass => isTrue fun _ => WorkerOp.noConfusion

/-- A step of the worker is a step of the round. -/
def Follows (r : Rounds Ptr) (w : Worker) (i : Tick × WorkerOp) (w' : Worker) : Prop :=
  ∃ r', Goes r' w' ∧ r.Step (w.turn i) r' ∧ (Inside i.2 → r.Within (w.turn i) r')

variable {r : Rounds Ptr} {i : Tick × WorkerOp} {t : Tick}

/-- A step that leaves the round as it is. -/
theorem follows_stay (hr : Goes r w) (hturn : w.turn i = none)
    (hq : w'.queue.qconnList = w.queue.qconnList) (ht : w'.todo = w.todo) : Follows r w i w' := by
  unfold Follows
  rw [hturn]
  exact ⟨r, ⟨hr.queue.trans hq.symm, hr.todo.trans ht.symm⟩, .within .stay, fun _ => .stay⟩

/-- `epoll_pwait` returned: a pass starts, or the process ends. -/
theorem follows_poll (h : Reachable P w) (hr : Goes r w) {res : EpollResult}
    (hs : w.step P (t, .poll res) = some w') : Follows r w (t, .poll res) w' := by
  obtain ⟨-, hph, hpoll⟩ := step_poll hs
  have hb : w.Between := by
    rintro x todo he
    rcases hph with hph | hph <;> exact Phase.noConfusion (hph.symm.trans he)
  have hnone : w.turn (t, .poll res) = none := turn_of_ne fun _ => WorkerOp.noConfusion
  rcases todo_polled hpoll with hall | ⟨ht, hq⟩
  · have hover : r.todo = [] := hr.todo.trans (todo_of_head hph)
    have hnd := (inv_reachable (h.step hs)).nodup_queue
    obtain ⟨new, hq⟩ : ∃ new, w'.queue.qconnList = new ++ w.queue.qconnList := by
      rcases qconnList_polled (inv_reachable h) hb hpoll with hq | ⟨x, hq⟩
      · exact ⟨[], hq⟩
      · exact ⟨[x], hq⟩
    unfold Follows
    rw [hnone]
    refine ⟨.restart hnd, ⟨rfl, hall.symm⟩, ?_, fun hin => absurd rfl (hin res)⟩
    exact .start hover (hq.trans (congrArg (new ++ ·) hr.queue.symm)) rfl
  · exact follows_stay hr hnone (congrArg ConnQueue.qconnList hq) ht

/-- The pass switches to its next connection. -/
theorem follows_resume (h : Reachable P w) (hr : Goes r w) {fcntlOk : Bool}
    (hs : w.step P (t, .resume fcntlOk) = some w') : Follows r w (t, .resume fcntlOk) w' := by
  obtain ⟨x, rest, s', hctl, hph, hst, rfl⟩ := step_resume hs
  have hx : r.todo = x :: rest := hr.todo.trans (todo_of_pass hph)
  obtain ⟨-, -, -, -, -, -, a, -, href⟩ := ((inv_reachable h).select hph hctl).control
  have hshares : Shares ((w.selected x rest).load x) s' := shares_step href hst
  have hturn : w.turn (t, .resume fcntlOk) = some x := by
    unfold turn
    rw [hph]
  have hwithin : r.Within (some x) (r.advance hx) := .turn hx rfl
  unfold Follows
  rw [hturn]
  exact ⟨r.advance hx, ⟨hr.queue.trans hshares.qconnList.symm, rfl⟩, .within hwithin, fun _ => hwithin⟩

/-- The running coroutine goes on. -/
theorem follows_co (h : Reachable P w) (hr : Goes r w) {op : Op}
    (hs : w.step P (t, .co op) = some w') : Follows r w (t, .co op) w' := by
  have hi := inv_reachable h
  obtain ⟨pt, x, s', hctl, hcur, hst, rfl⟩ := step_co hs
  obtain ⟨x', rest, hph, hcur', -, -⟩ := hi.running hctl
  obtain rfl := Option.some.inj (hcur.symm.trans hcur')
  have hcon := hi.control
  rw [hph] at hcon
  obtain ⟨-, -, -, -, -, -, a, -, href⟩ := hcon
  have hshares : Shares (w.load x) s' := shares_step href hst
  exact follows_stay hr (turn_of_ne fun _ => WorkerOp.noConfusion) hshares.qconnList rfl

/-- The main loop behind the switch. -/
theorem follows_back (h : Reachable P w) (hr : Goes r w) (hs : w.step P (t, .back) = some w') :
    Follows r w (t, .back) w' := by
  obtain ⟨x, rest, hctl, hph, rfl⟩ := step_back hs
  have hgo := passGoesOn_swappedBack w (t.clk 0) x rest
  have hnone : w.turn (t, .back) = none := turn_of_ne fun _ => WorkerOp.noConfusion
  have hrest : w.todo = rest := todo_of_resumed hph
  have hrest' : (w.swappedBack (t.clk 0) x rest).todo = rest := todo_of_pass hgo.phase
  have hq := hgo.queue
  split at hq
  · -- the connection is completed, and has been visited in this pass
    have hx : x ∉ r.todo := by
      rw [hr.todo, hrest]
      have hcon := (inv_reachable h).control
      rw [hph] at hcon
      exact (List.nodup_cons.mp hcon.2.2.1).1
    have hwithin : r.Within none (r.remove hx) := .leave hx rfl rfl
    unfold Follows
    rw [hnone]
    refine ⟨r.remove hx, ⟨?_, ?_⟩, .within hwithin, fun _ => hwithin⟩
    · exact (congrArg (List.erase · x) hr.queue).trans hq.symm
    · exact hr.todo.trans (hrest.trans hrest'.symm)
  · exact follows_stay hr hnone hq (hrest'.trans hrest.symm)

/-- **A worker goes round its queue**; only `epoll_pwait` starts a pass. -/
theorem rounds_step (h : Reachable P w) (hr : Goes r w) (hs : w.step P i = some w') :
    Follows r w i w' := by
  obtain ⟨t, op⟩ := i
  cases op with
  | block =>
    obtain ⟨-, hph, rfl⟩ := step_block hs
    exact follows_stay hr (turn_of_ne fun _ => WorkerOp.noConfusion) rfl (todo_of_head (.inl hph)).symm
  | poll res => exact follows_poll h hr hs
  | resume fcntlOk => exact follows_resume h hr hs
  | co op => exact follows_co h hr hs
  | back => exact follows_back h hr hs
  | endPass =>
    obtain ⟨-, hph, rfl⟩ := step_endPass hs
    exact follows_stay hr (turn_of_ne fun _ => WorkerOp.noConfusion) rfl (todo_of_pass hph).symm

/-! ### Runs -/

theorem turns_cons {i : Tick × WorkerOp} {is : List (Tick × WorkerOp)} (hs : w.step P i = some w') :
    w.turns P (i :: is) = w.turn i :: w'.turns P is := by
  rw [turns, hs]
  rfl

/-- A run of a worker that goes a round is a path of the round. -/
theorem rounds_run {R : Rounds Ptr → Option Ptr → Rounds Ptr → Prop}
    {Q : Worker → Tick × WorkerOp → Prop}
    (hR : ∀ {w w' i r r'}, Reachable P w → Q w i → w.step P i = some w' → Goes r' w' →
      r.Step (w.turn i) r' → (Inside i.2 → r.Within (w.turn i) r') → R r (w.turn i) r') :
    ∀ {is : List (Tick × WorkerOp)} {w : Worker} {r : Rounds Ptr}, Reachable P w → Goes r w →
      Along Q (step P) w is → run (step P) w is = some w' →
      ∃ r', Goes r' w' ∧ Path R r (w.turns P is) r' := by
  intro is
  induction is with
  | nil =>
    intro w r _ hr _ hrun
    obtain rfl := Option.some.inj hrun
    exact ⟨r, hr, rfl⟩
  | cons i is ih =>
    intro w r h hr hq hrun
    obtain ⟨w₁, h₁, hrun⟩ := run_cons_eq_some_iff.mp hrun
    obtain ⟨r₁, hr₁, hstep, hwithin⟩ := rounds_step h hr h₁
    obtain ⟨r', hr', hpath⟩ := ih (h.step h₁) hr₁ (hq.2 w₁ h₁) hrun
    rw [turns_cons h₁]
    exact ⟨r', hr', r₁, hR h hq.1 h₁ hr₁ hstep hwithin, hpath⟩

/-- Every worker goes a round. -/
theorem exists_rounds (h : Reachable P w) : ∃ r, Goes r w := by
  obtain ⟨heap, mem, outs, w₀, is, h₀, hrun⟩ := h
  obtain ⟨-, heap', mem', cache, hw⟩ := init_cases (P := P) (R := fun _ _ => True) h₀
  refine (run_invariant (P := fun w => Reachable P w ∧ ∃ r, Goes r w) ?_ is ⟨?_, ?_⟩ hrun).2
  · rintro w i w' ⟨h, r, hr⟩ hs
    obtain ⟨r', hr', -⟩ := rounds_step h hr hs
    exact ⟨h.step hs, r', hr'⟩
  · exact ⟨heap, mem, outs, w₀, [], h₀, rfl⟩
  · rw [hw]
    exact ⟨.restart List.nodup_nil, rfl, rfl⟩

/-- **One turn for each connection in a pass**: from its start to its end a pass switches exactly
once to every connection that is in the queue, and to no other. -/
theorem turns_of_whole_pass (h : Reachable P w) {is : List (Tick × WorkerOp)}
    (hstart : w.phase = .pass w.queue.qconnList) (hin : ∀ i ∈ is, Inside i.2)
    (hrun : run (step P) w is = some w') (hend : w'.phase = .head) (p : Ptr) :
    (w.turns P is).count (some p) = if p ∈ w.queue.qconnList then 1 else 0 := by
  obtain ⟨r, hr⟩ := exists_rounds h
  obtain ⟨r', hr', hpath⟩ := rounds_run (R := Rounds.Within) (Q := fun _ i => Inside i.2)
    (fun _ hq _ _ _ hwithin => hwithin hq) h hr (along_of_forall fun i hi _ => hin i hi) hrun
  have hall : r.todo = r.queue := by
    rw [hr.todo, hr.queue]
    exact todo_of_pass hstart
  have hnone : r'.todo = [] := by
    rw [hr'.todo]
    exact todo_of_head (.inl hend)
  rw [Rounds.turns_of_pass hpath hall hnone p, hr.queue]

/-- A second connection arrives while the first one waits for its client. -/
def arrivalScript : List (Time × WorkerOp) :=
  [(0, .poll (.ready (some 5) [])), (1, .resume true), (2, .co (.read .again)), (3, .back),
    (4, .endPass), (5, .poll (.ready (some 6) []))]

theorem arrivalScript_isSome : (script .plain twoContexts arrivalScript).isSome = true := by
  decide +kernel

/-- The worker the second connection has arrived at. -/
def arrivalWorker : Worker := (script .plain twoContexts arrivalScript).get arrivalScript_isSome

/-- A pass in which the second client goes, and the first one still waits. -/
def departurePass : List (Tick × WorkerOp) :=
  [(7, .resume true), (8, .co (.read .eof)), (9, .back), (10, .resume true),
    (11, .co (.read .again)), (12, .back), (13, .endPass)].map fun op => (Tick.atTime op.1, op.2)

theorem departurePass_isSome : (run (step .plain) arrivalWorker departurePass).isSome = true := by
  decide +kernel

example (p : Ptr) : (arrivalWorker.turns .plain departurePass).count (some p) =
    if p ∈ arrivalWorker.queue.qconnList then 1 else 0 :=
  turns_of_whole_pass (reachable_get _ arrivalScript_isSome) (by decide +kernel) (by decide +kernel)
    (Option.some_get departurePass_isSome).symm (by decide +kernel) p

theorem Stays.head {is : List (Tick × WorkerOp)} (hp : Stays P w is p) :
    p ∈ w.queue.qconnList := by
  cases is with
  | nil => exact hp.2 w rfl
  | cons i is => exact hp.1.1

/-- What stays in the queue is there after every step. -/
theorem Stays.along {is : List (Tick × WorkerOp)} (hp : Stays P w is p) :
    Along (fun w i => ∀ w', w.step P i = some w' → p ∈ w'.queue.qconnList) (step P) w is := by
  induction is generalizing w with
  | nil => trivial
  | cons i is ih =>
    have htail : ∀ w₁, w.step P i = some w₁ → Stays P w₁ is p := fun w₁ h₁ =>
      ⟨hp.1.2 w₁ h₁, fun w₂ h₂ => hp.2 w₂ (run_cons_eq_some_iff.mpr ⟨w₁, h₁, h₂⟩)⟩
    exact ⟨fun w₁ h₁ => (htail w₁ h₁).head, fun w₁ h₁ => ih (htail w₁ h₁)⟩

/-- **Connections that stay have their turns in turn**: whatever the coroutines do and whatever
other connections come and go, of two connections that are in the queue all along a run neither
is switched to more than once more often than the other. -/
theorem turns_within_one (h : Reachable P w) {is : List (Tick × WorkerOp)}
    (hrun : run (step P) w is = some w') (hp : Stays P w is p) (hq : Stays P w is q) :
    (w.turns P is).count (some p) ≤ (w.turns P is).count (some q) + 1 := by
  obtain ⟨r, hr⟩ := exists_rounds h
  have hboth := hp.along.and hq.along
  obtain ⟨r', hr', hpath⟩ := rounds_run (R := Rounds.Keeping p q)
    (fun _ hstay hs hgoes hstep _ =>
      ⟨hstep, hgoes.queue ▸ hstay.1 _ hs, hgoes.queue ▸ hstay.2 _ hs⟩) h hr hboth hrun
  refine Rounds.turns_fair ?_ ?_ hpath
  · exact hr.queue ▸ hp.head
  · exact hr.queue ▸ hq.head

/-- A pass in which both clients wait. -/
def waitingPass : List (Tick × WorkerOp) :=
  [(7, .resume true), (8, .co (.read .again)), (9, .back), (10, .resume true),
    (11, .co (.read .again)), (12, .back), (13, .endPass)].map fun op => (Tick.atTime op.1, op.2)

theorem waitingPass_isSome : (run (step .plain) arrivalWorker waitingPass).isSome = true := by
  decide +kernel

theorem turns_within_one_two : (arrivalWorker.turns .plain waitingPass).count (some 1) ≤
    (arrivalWorker.turns .plain waitingPass).count (some 2) + 1 :=
  turns_within_one (reachable_get _ arrivalScript_isSome) (Option.some_get waitingPass_isSome).symm
    (by decide +kernel) (by decide +kernel)

end Worker
end SrvAsync
