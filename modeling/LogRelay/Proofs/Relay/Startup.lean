import LogRelay.Proofs.Relay.Handshake

/-!
# When a start gives up

A start that waits for its worker looks at the running flag and, if the flag is not set, checks
after that whether the time is over or the worker has ended. A worker that was heard of before a
look is found ready, whatever became of it since. A start that gives up found the flag unset at its
last look; at the check behind that look the time was over, or the worker had ended, be it unheard
or after it was heard of between the look and the check.
-/

namespace LogRelay

/-- Whether a start has looked at the running flag in vain. -/
def Conduct.isDoubting : Conduct → Bool
  | .checking _ | .abandoning => true
  | .free | .awaiting | .asking | .acknowledging | .telling _ | .joining _ _ | .dropping | .gone =>
      false

namespace Life

variable {σ : Type} {config : Config} {sink : Sink σ} {w w' : Life σ} {schedule : List Action}

/-- The running flag is not set at any moment of a schedule. -/
def Unheard (sink : Sink σ) (w : Life σ) (schedule : List Action) : Prop :=
  ∀ moment, moment <+: schedule → (w.run sink moment).flag Shared.running = false

/-- Why a start gives up at a check, behind the steps so far and with the time that was left. -/
inductive Reason (sink : Sink σ) (w : Life σ) (steps : List Action) (remaining : Nat) : Prop where
  /-- The time is over. -/
  | late (none_left : remaining = 0)
  /-- The worker could not listen or broke down, and ended without being heard of. -/
  | failed (ended : (w.run sink steps).stage = .ended) (unheard : w.Unheard sink steps)
      (cause : .bind none ∈ steps ∨ .collapse ∈ steps)
  /-- The worker has ended, but it was heard of. -/
  | overtaken (ended : (w.run sink steps).stage = .ended)
      (heard : (w.run sink steps).flag Shared.running = true)

/-- A start looks in vain at the running flag, and gives up at the check behind the look. -/
structure GivesUp (sink : Sink σ) (w : Life σ) (earlier : List Action) (remaining : Nat)
    (gap : List Action) : Prop where
  /-- The start waits for the flag. -/
  awaiting : (w.run sink earlier).conduct = .awaiting
  /-- The flag has not been set until the look. -/
  unheard : w.Unheard sink earlier
  /-- The time that was left when the wait began counts at the check. -/
  checking : (w.run sink (earlier ++ .proceed remaining :: gap)).conduct = .checking remaining
  /-- The check fails. -/
  reason : w.Reason sink (earlier ++ .proceed remaining :: gap) remaining

/-! ## Runs and their last changes -/

theorem run_append (sink : Sink σ) (w : Life σ) (earlier later : List Action) :
    w.run sink (earlier ++ later) = (w.run sink earlier).run sink later :=
  List.foldl_append

/-- What holds at the end of a run, but not at its beginning, came about in some step. -/
theorem exists_rise {P : Life σ → Prop} (hbefore : ¬P w) (hafter : P (w.run sink schedule)) :
    ∃ earlier a later, schedule = earlier ++ a :: later ∧ ¬P (w.run sink earlier) ∧
      P ((w.run sink earlier).step sink a) := by
  induction schedule using List.reverseRecOn with
  | nil => exact absurd hafter hbefore
  | append_singleton schedule last ih =>
      by_cases hlast : P (w.run sink schedule)
      · obtain ⟨earlier, a, later, rfl, hrise⟩ := ih hlast
        exact ⟨earlier, a, later ++ [last], by simp, hrise⟩
      · rw [run_append] at hafter
        exact ⟨schedule, last, [], rfl, hlast, hafter⟩

/-! ## What is heard of the worker during a start -/

/-- A change of the shared state that leaves a part of it alone. -/
theorem shared_map_update {α : Type} {change : Shared → Shared} {get : Shared → α}
    (hrelay : w'.relay = w.relay.update change) (hchange : ∀ s, get (change s) = get s) :
    w'.relay.shared.map get = w.relay.shared.map get := by
  rw [hrelay, Relay.shared_update, Option.map_map]
  exact congrArg (w.relay.shared.map ·) (funext hchange)

/-- What the loop tells the relay sets the sentinel flag at most. -/
theorem signal_cases (loop : Worker.State σ) :
    loop.signal = id ∨ loop.signal = Shared.acknowledge := by
  rcases hending : loop.ending with _ | _ | _ | _ <;>
    simp [funext_iff, Worker.State.signal, Worker.Ending.signal, hending]

theorem running_signal (loop : Worker.State σ) (s : Shared) :
    (loop.signal s).running = s.running := by
  rcases signal_cases loop with hsignal | hsignal <;> rw [hsignal] <;> rfl

theorem terminated_signal (loop : Worker.State σ) (s : Shared) :
    (loop.signal s).terminated = s.terminated := by
  rcases signal_cases loop with hsignal | hsignal <;> rw [hsignal] <;> rfl

/-- What the endpoint, the flags and the stage of the worker tell about each other. -/
structure Posted (w : Life σ) : Prop where
  /-- As long as a start is under way, a worker that was heard of is found running. -/
  underway : w.conduct.call? = some .start →
    w.endpoint? = some .pending ∨ w.flag Shared.running = true
  /-- A worker in its loop was heard of. -/
  serving : w.stage.isServing = true → w.endpoint? ≠ some .pending
  /-- The terminated flag is set by a worker that ends. -/
  ended : w.flag Shared.terminated = true → w.stage = .ended

theorem posted_ofConfig (config : Config) (sink : σ) : (ofConfig config sink).Posted where
  underway := nofun
  serving := nofun
  ended := nofun

theorem Posted.underway_of_move (hw : w.Posted) (h : Move w w')
    (hcall : w'.conduct.call? = some .start) :
    w'.endpoint? = some .pending ∨ w'.flag Shared.running = true := by
  have hkept {change : Shared → Shared} (hrelay : w'.relay = w.relay.update change)
      (hendpoint : ∀ s, (change s).endpoint = s.endpoint)
      (hrunning : ∀ s, (change s).running = s.running) (hbefore : w.conduct.call? = some .start) :
      w'.endpoint? = some .pending ∨ w'.flag Shared.running = true := by
    rw [endpoint?, flag, shared_map_update hrelay hendpoint, shared_map_update hrelay hrunning]
    exact hw.underway hbefore
  cases h with
  | spawn => exact .inl rfl
  | publish => exact .inr rfl
  | pass _ hbefore hafter => exact hw.underway (hbefore.trans (hafter.symm.trans hcall))
  | bind | fail | look => exact hw.underway hcall
  | turn loop => exact hkept rfl (fun s => (signal_spares loop s).1) (running_signal loop) hcall
  | terminate => exact hkept rfl (fun _ => rfl) (fun _ => rfl) hcall
  -- no start is under way behind any other move
  | reply hfree | unmanned _ hfree => cases (congrArg Conduct.call? hfree).symm.trans hcall
  | tell _ _ hafter => cases hafter.symm.trans hcall
  | drop _ _ hconduct => rcases hconduct with ⟨rfl, -⟩ | rfl <;> cases hcall
  | ready | giveUp | halt | report | part => cases hcall

/-- The worker is heard of in the step in which it enters its loop. -/
theorem Posted.serving_of_move (hw : w.Posted) (hagreed : w.Agreed config) (h : Move w w')
    (hserving : w'.stage.isServing = true) : w'.endpoint? ≠ some .pending := by
  have hbefore : w.stage.isServing = true ∨ ∃ port, w'.endpoint? = some (.bound port) := by
    cases h with
    | spawn | bind | fail | terminate => cases hserving
    | publish => exact .inr ⟨_, rfl⟩
    | look _ _ hstage => exact .inl (by rw [hstage]; rfl)
    | turn _ hstage => exact .inl hstage
    | _ => exact .inl hserving
  rcases hbefore with hbefore | ⟨port, hbound⟩
  · have hsome : w.endpoint? ≠ none := by
      intro hnone
      have hidle := hagreed.orderly.untouched (Option.map_eq_none_iff.mp hnone)
      rw [hidle.stage] at hbefore
      cases hbefore
    exact (settled_of_move h ⟨hsome, hw.serving hbefore⟩).2
  · simp [hbound]

/-- The terminated flag of a worker that ended stays set. -/
theorem Posted.ended_of_move (hw : w.Posted) (h : Move w w')
    (hterminated : w'.flag Shared.terminated = true) : w'.stage = .ended := by
  have hkept {change : Shared → Shared} (hrelay : w'.relay = w.relay.update change)
      (hchange : ∀ s, (change s).terminated = s.terminated) : w.stage = .ended := by
    refine hw.ended ?_
    rwa [flag, ← shared_map_update hrelay hchange]
  cases h with
  | unmanned | spawn => cases hterminated
  | terminate => rfl
  | giveUp | tell | part => exact hkept rfl fun _ => rfl
  | bind _ hstage | look _ _ hstage => cases hstage.symm.trans (hw.ended hterminated)
  | fail _ halive => exact absurd (hw.ended hterminated) halive
  | publish hstage hshared =>
      have hbefore : w.stage = .ended := hw.ended (by rw [flag, hshared]; exact hterminated)
      cases hstage.symm.trans hbefore
  | turn loop hserving =>
      rw [hkept rfl (terminated_signal loop)] at hserving
      cases hserving
  | _ => exact hw.ended hterminated

theorem Posted.move (hw : w.Posted) (hagreed : w.Agreed config) (h : Move w w') : w'.Posted where
  underway := hw.underway_of_move h
  serving := hw.serving_of_move hagreed h
  ended := hw.ended_of_move h

/-- The invariants of a run that begins with a relay that was never started. -/
theorem posted_run (config : Config) (sink : Sink σ) (kept : σ) (schedule : List Action) :
    ((ofConfig config kept).run sink schedule).Agreed config ∧
      ((ofConfig config kept).run sink schedule).Posted :=
  run_induction (P := fun w => w.Agreed config ∧ w.Posted)
    (fun h hboth => ⟨hboth.1.move h, hboth.2.move hboth.1 h⟩) sink schedule
    ⟨agreed_ofConfig config kept, posted_ofConfig config kept⟩

/-- A worker that was heard of at some moment is found running by a start that is under way. -/
theorem Posted.running_of_heard {moment : List Action} (hw : (w.run sink schedule).Posted)
    (hmoment : (w.run sink moment).Agreed config) (hbegins : moment <+: schedule)
    (hheard : (w.run sink moment).flag Shared.running = true)
    (hcall : (w.run sink schedule).conduct.call? = some .start) :
    (w.run sink schedule).flag Shared.running = true := by
  obtain ⟨later, rfl⟩ := hbegins
  rw [run_append] at hw hcall ⊢
  obtain ⟨port, hbound⟩ := hmoment.bound hheard
  have hsettled := run_induction settled_of_move sink later (w := w.run sink moment)
    (by simp [hbound])
  exact (hw.underway hcall).resolve_left hsettled.2

/-! ## How a start comes to give up -/

theorem whenFree_doubting {call : Life σ → Life σ} (hcall : (call w).conduct.isDoubting = false)
    (h : (w.whenFree call).conduct.isDoubting = true) :
    (w.whenFree call).conduct = w.conduct := by
  unfold whenFree at h ⊢
  split at h
  · cases hcall.symm.trans h
  · rfl

/-- A start doubts its worker after a look in vain, and gives up at the check behind the look. -/
theorem proceed_doubting {remaining : Nat}
    (h : (w.proceed remaining).conduct.isDoubting = true) :
    (w.proceed remaining).conduct = .checking remaining ∧ w.conduct = .awaiting ∧
        w.flag Shared.running = false ∨
      ∃ left, (w.proceed remaining).conduct = .abandoning ∧ w.conduct = .checking left ∧
        (left = 0 ∨ w.flag Shared.terminated = true) := by
  unfold proceed at h ⊢
  cases hconduct : w.conduct with
  | awaiting =>
      simp only [hconduct] at h ⊢
      split at h
      · cases h
      · next hrunning =>
          exact .inl ⟨by rw [if_neg hrunning], trivial, Bool.eq_false_iff.mpr hrunning⟩
  | checking left =>
      simp only [hconduct] at h ⊢
      split at h
      · cases h
      · next hfailed =>
          refine .inr ⟨left, by rw [if_neg hfailed], rfl, ?_⟩
          simpa [Start.attempt, or_iff_not_imp_left] using hfailed
  | free | gone => simp [hconduct, Conduct.isDoubting] at h
  | abandoning | telling | dropping => simp only [hconduct] at h; cases h
  | asking | acknowledging => simp only [hconduct] at h; split at h <;> cases h
  | joining spans =>
      cases spans with
      | nil => simp only [hconduct] at h; cases h
      | cons => simp only [hconduct] at h; split at h <;> cases h

/-- A step that leaves a start in doubt has left it as it was, is a look in vain or is the check
behind it. -/
theorem step_doubting {a : Action} (h : (w.step sink a).conduct.isDoubting = true) :
    (w.step sink a).conduct = w.conduct ∨
      (∃ remaining, a = .proceed remaining ∧ (w.step sink a).conduct = .checking remaining ∧
        w.conduct = .awaiting ∧ w.flag Shared.running = false) ∨
      ∃ left, (w.step sink a).conduct = .abandoning ∧ w.conduct = .checking left ∧
        (left = 0 ∨ w.flag Shared.terminated = true) := by
  cases a with
  | proceed remaining =>
      rcases proceed_doubting h with hlook | hcheck
      · exact .inr (.inl ⟨remaining, rfl, hlook⟩)
      · exact .inr (.inr hcheck)
  -- a call that begins doubts nothing
  | start fault => exact .inl (whenFree_doubting (by unfold start; split <;> rfl) h)
  | stop => exact .inl (whenFree_doubting (by unfold stop; split <;> rfl) h)
  | isRunning | port => exact .inl (whenFree_doubting rfl h)
  | drop => exact .inl (whenFree_doubting (by rw [drop]; dsimp only; split <;> rfl) h)
  -- the worker leaves the call as it is
  | bind port =>
      change (w.bind port).conduct = w.conduct ∨ _
      exact .inl (by unfold bind; cases w.stage <;> cases port <;> rfl)
  | publish =>
      change w.publish.conduct = w.conduct ∨ _
      exact .inl (by unfold publish; split <;> rfl)
  | look now =>
      change (w.look sink now).conduct = w.conduct ∨ _
      left
      unfold look
      split
      · dsimp only
        split <;> rfl
      · rfl
  | take polled =>
      change (w.take sink polled).conduct = w.conduct ∨ _
      exact .inl (by unfold take; split <;> rfl)
  | collapse =>
      change w.collapse.conduct = w.conduct ∨ _
      exact .inl (by unfold collapse; split <;> rfl)
  | terminate =>
      change w.terminate.conduct = w.conduct ∨ _
      exact .inl (by unfold terminate; split <;> rfl)

/-! ## Why a worker ends unheard -/

theorem stage_proceed (w : Life σ) (remaining : Nat) : (w.proceed remaining).stage = w.stage := by
  unfold proceed
  repeat' split
  all_goals rfl

theorem stage_whenFree {call : Life σ → Life σ}
    (hcall : (call w).stage = w.stage ∨ (call w).stage = .binding) :
    (w.whenFree call).stage = w.stage ∨ (w.whenFree call).stage = .binding := by
  unfold whenFree
  split
  · exact hcall
  · exact .inl rfl

theorem stage_bind_some (w : Life σ) (port : UInt16) :
    (w.bind (some port)).stage = w.stage ∨ (w.bind (some port)).stage = .bound port := by
  unfold bind
  cases hstage : w.stage with
  | binding => exact .inr rfl
  | _ => exact .inl hstage

/-- A worker that can listen and does not break down leaves for something that it was told, or
because it may not tell where it listens. -/
theorem step_leaving {a : Action} (hbind : a ≠ .bind none) (hcollapse : a ≠ .collapse)
    (h : (w.step sink a).stage = .leaving) :
    w.stage = .leaving ∨ w.stage.isServing = true ∨ w.endpoint? = some .abandoned := by
  have hcall (hstage : (w.step sink a).stage = w.stage ∨ (w.step sink a).stage = .binding) :
      w.stage = .leaving := by
    rcases hstage with hsame | hbinding
    · exact hsame.symm.trans h
    · cases hbinding.symm.trans h
  cases a with
  | start fault =>
      refine .inl (hcall (stage_whenFree ?_))
      unfold start
      split
      · exact .inl rfl
      · exact .inl rfl
      · exact .inr rfl
  | stop => exact .inl (hcall (stage_whenFree (by unfold stop; split <;> exact .inl rfl)))
  | isRunning | port | drop => exact .inl (hcall (stage_whenFree (.inl rfl)))
  | proceed remaining => exact .inl ((stage_proceed w remaining).symm.trans h)
  | bind port =>
      cases port with
      | none => exact absurd rfl hbind
      | some port =>
          rcases stage_bind_some w port with hsame | hbound
          · exact .inl (hsame.symm.trans h)
          · cases hbound.symm.trans h
  | publish =>
      change w.publish.stage = .leaving at h
      unfold publish at h
      split at h
      · next port shared hstage hshared =>
          refine .inr (.inr ?_)
          rw [endpoint?, hshared, Option.map_some]
          cases hendpoint : shared.endpoint with
          | abandoned => rfl
          | pending | bound => simp [Shared.publish, hendpoint] at h
      · exact .inl h
  | look now =>
      change (w.look sink now).stage = .leaving at h
      unfold look at h
      split at h
      · next hstage => exact .inr (.inl (by rw [hstage]; rfl))
      · exact .inl h
  | take polled =>
      change (w.take sink polled).stage = .leaving at h
      unfold take at h
      split at h
      · next hstage => exact .inr (.inl (by rw [hstage]; rfl))
      · exact .inl h
  | collapse => exact absurd rfl hcollapse
  | terminate =>
      change w.terminate.stage = .leaving at h
      unfold terminate at h
      split at h
      · cases h
      · exact .inl h

theorem Move.stage_ended (h : Move w w') (hended : w'.stage = .ended) :
    w.stage = .ended ∨ w.stage = .leaving := by
  cases h with
  | terminate hstage => exact .inr hstage
  | spawn | bind | fail | publish | look => cases hended
  | turn _ _ hafter => rcases hafter with rfl | rfl <;> cases hended
  | _ => exact .inl hended

/-- A worker that is about to end, or has ended, and was not heard of. -/
def Failed (w : Life σ) : Prop :=
  (w.stage = .leaving ∨ w.stage = .ended) ∧ w.endpoint? = some .pending

/-- A worker fails only by a step that says so. -/
theorem failed_of_step (hagreed : w.Agreed config) (hposted : w.Posted) {a : Action}
    (hbefore : ¬w.Failed) (hafter : (w.step sink a).Failed) : a = .bind none ∨ a = .collapse := by
  obtain ⟨hstage, hpending⟩ := hafter
  by_contra hother
  obtain ⟨hbind, hcollapse⟩ := not_or.mp hother
  rcases step_move sink w a with hstay | hmoved
  · rw [hstay] at hstage hpending
    exact hbefore ⟨hstage, hpending⟩
  have hcauses : (w.stage = .leaving ∨ w.stage = .ended) ∨ w.stage.isServing = true ∨
      w.endpoint? = some .abandoned := by
    rcases hstage with hleaving | hended
    · exact (step_leaving hbind hcollapse hleaving).imp_left .inl
    · exact .inl (hmoved.stage_ended hended).symm
  cases hmoved.touch with
  | spare hendpoint =>
      have hunheard : w.endpoint? = some .pending := hendpoint.symm.trans hpending
      rcases hcauses with hending | hserving | habandoned
      · exact hbefore ⟨hending, hunheard⟩
      · exact hposted.serving hserving hunheard
      · cases habandoned.symm.trans hunheard
  | create hfresh =>
      have habsent := (hagreed.orderly.untouched hfresh).stage
      simp [habsent, Stage.isServing, endpoint?, hfresh] at hcauses
  | publish _ _ hendpoint => cases hendpoint.symm.trans hpending
  | abandon _ hendpoint => cases eq_abandoned_of_map (hendpoint.symm.trans hpending)

/-! ## What a start tells of its worker -/

theorem unheard_of_unset (hrun : ∀ steps, (w.run sink steps).Agreed config)
    (hposted : (w.run sink schedule).Posted)
    (hcall : (w.run sink schedule).conduct.call? = some .start)
    (hunset : (w.run sink schedule).flag Shared.running = false) : w.Unheard sink schedule := by
  intro moment hbegins
  refine Bool.eq_false_iff.mpr fun hheard => ?_
  cases hunset.symm.trans (hposted.running_of_heard (hrun moment) hbegins hheard hcall)

/-- A start that is giving up has looked in vain, and its check failed. -/
theorem exists_check (hbefore : w.conduct.isDoubting = false)
    (hafter : (w.run sink schedule).conduct = .abandoning) :
    ∃ earlier remaining gap later, schedule = (earlier ++ .proceed remaining :: gap) ++ later ∧
      (w.run sink earlier).conduct = .awaiting ∧
      (w.run sink earlier).flag Shared.running = false ∧
      (w.run sink (earlier ++ .proceed remaining :: gap)).conduct = .checking remaining ∧
      (remaining = 0 ∨
        (w.run sink (earlier ++ .proceed remaining :: gap)).flag Shared.terminated = true) := by
  have hcertain {conduct : Conduct} (hdoubts : conduct.isDoubting = true) :
      w.conduct ≠ conduct := by
    rintro rfl
    cases hbefore.symm.trans hdoubts
  -- first the step that decided to give up, and then the look before that
  obtain ⟨steps, check, later, rfl, hundecided, hdecides⟩ :=
    exists_rise (P := fun w => w.conduct = .abandoning) (hcertain rfl) hafter
  obtain ⟨remaining, hchecking, hover⟩ : ∃ remaining, _ := by
    rcases step_doubting (by rw [hdecides]; rfl) with hsame | ⟨_, -, hlook, -⟩ | ⟨left, -, hleft⟩
    · exact absurd (hsame.symm.trans hdecides) hundecided
    · cases hlook.symm.trans hdecides
    · exact ⟨left, hleft⟩
  obtain ⟨earlier, look, gap, rfl, hnot, hlooks⟩ :=
    exists_rise (P := fun w => w.conduct = .checking remaining) (hcertain rfl) hchecking
  rcases step_doubting (by rw [hlooks]; rfl) with
    hsame | ⟨left, rfl, hleft, hawaiting, hunset⟩ | ⟨_, habandoning, -⟩
  · exact absurd (hsame.symm.trans hlooks) hnot
  · obtain rfl : left = remaining := Conduct.checking.inj (hleft.symm.trans hlooks)
    exact ⟨earlier, left, gap, check :: later, by simp, hawaiting, hunset, hchecking, hover⟩
  · cases habandoning.symm.trans hlooks

/-- When a start tells that its worker is ready and when it gives up, for every order of the steps
of a relay and its worker. -/
theorem run_startup (config : Config) (sink : Sink σ) (kept : σ) (schedule : List Action) :
    let fresh := ofConfig config kept
    let w := fresh.run sink schedule
    (∀ moment, moment <+: schedule → (fresh.run sink moment).flag Shared.running = true →
      w.conduct = .awaiting → ∀ remaining,
        (w.step sink (.proceed remaining)).history = w.history ++ [.returned .started]) ∧
    (∀ limit, .returned (.notStarted (.startupTimeout limit)) ∈ w.history →
      ∃ earlier remaining gap later,
        schedule = (earlier ++ .proceed remaining :: gap) ++ later ∧
        fresh.GivesUp sink earlier remaining gap) := by
  intro fresh w
  have hagreed (steps : List Action) : (fresh.run sink steps).Agreed config :=
    (posted_run config sink kept steps).1
  have hposted (steps : List Action) : (fresh.run sink steps).Posted :=
    (posted_run config sink kept steps).2
  refine ⟨fun moment hbegins hheard hawaiting remaining => ?ready, fun limit hlost => ?lost⟩
  case ready =>
    have hrunning : w.flag Shared.running = true :=
      (hposted schedule).running_of_heard (hagreed moment) hbegins hheard (by rw [hawaiting]; rfl)
    change (w.proceed remaining).history = _
    unfold proceed
    rw [hawaiting]
    dsimp only
    rw [if_pos hrunning]
    rfl
  case lost =>
    obtain ⟨steps, report, later, rfl, hnot, hreports⟩ :=
      exists_rise (P := fun w => .returned (.notStarted (.startupTimeout limit)) ∈ w.history)
        List.not_mem_nil hlost
    have habandoning : (fresh.run sink steps).conduct = .abandoning := by
      rcases step_move sink (fresh.run sink steps) report with hstay | hmoved
      · rw [hstay] at hreports
        exact absurd hreports hnot
      · exact ((hmoved.startupTimeout_mem hreports).resolve_left hnot).1
    obtain ⟨earlier, remaining, gap, rest, rfl, hawaiting, hunset, hchecking, hover⟩ :=
      exists_check rfl habandoning
    have hstarting : (fresh.run sink earlier).conduct.call? = some .start := by rw [hawaiting]; rfl
    have hstill : (fresh.run sink (earlier ++ .proceed remaining :: gap)).conduct.call? =
        some .start := by rw [hchecking]; rfl
    refine ⟨earlier, remaining, gap, rest ++ report :: later, by simp,
      hawaiting, unheard_of_unset hagreed (hposted _) hstarting hunset, hchecking, ?_⟩
    rcases hover with hlate | hterminated
    · exact .late hlate
    · have hended := (hposted _).ended hterminated
      cases hrunning : (fresh.run sink (earlier ++ .proceed remaining :: gap)).flag
          Shared.running with
      | true => exact .overtaken hended hrunning
      | false =>
          refine .failed hended (unheard_of_unset hagreed (hposted _) hstill hrunning) ?_
          have hunheard := ((hposted _).underway hstill).resolve_right (by simp [hrunning])
          obtain ⟨before, a, after, hsplit, hnot, hfails⟩ :=
            exists_rise (P := Failed) (fun hfailed => by cases hfailed.2) ⟨.inr hended, hunheard⟩
          rw [hsplit]
          rcases failed_of_step (hagreed before) (hposted before) hnot hfails with rfl | rfl
          · exact .inl (by simp)
          · exact .inr (by simp)

/-- A worker binds its port with almost all of the time left, but between the look of the start and
its check. If it reads a sentinel and ends before the check, the start reports that the worker did
not bind in time. -/
theorem startupTimeout_of_bound_worker :
    let sink : Sink Unit := ⟨fun _ _ => ((), .taken)⟩
    let remaining := (Duration.ofMillis 4950).nanos
    let checked := (ofConfig (Config.default 4510) ()).run sink
      [.start none, .bind (some 4510), .proceed remaining, .publish, .look 0,
        .take (.message sentinel), .terminate]
    checked.conduct = .checking remaining ∧ checked.endpoint? = some (.bound 4510) ∧
      checked.flag Shared.running = true ∧ checked.flag Shared.terminated = true ∧
      (checked.run sink [.proceed remaining, .proceed remaining]).history =
        [.called .start, .spawned,
          .returned (.notStarted (.startupTimeout (.ofSeconds 5)))] := by
  decide +kernel

end Life

end LogRelay
