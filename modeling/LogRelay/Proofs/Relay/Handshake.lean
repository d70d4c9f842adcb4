import LogRelay.Proofs.Relay.Lifecycle

/-!
# The handshake of a relay and its worker

The worker tells where it listens and the owner may give up on it, and whichever comes first
decides. The endpoint only moves forward: a worker that the owner gave up on is never heard of
again, and one that was heard of in time is kept until the owner lets go of the relay. The running
flag is set in the one step in which the worker is heard of, and it stays cleared once it is
cleared.
-/

namespace LogRelay

/-- How an endpoint moves on. -/
inductive Endpoint.Follows : Endpoint → Endpoint → Prop where
  /-- The worker is heard of. -/
  | publish (port : UInt16) : Follows .pending (.bound port)
  /-- The owner gives up on a worker that was not heard of. -/
  | giveUp : Follows .pending .abandoned
  /-- The owner gives up on a worker that was heard of. -/
  | withdraw (port : UInt16) : Follows (.bound port) .abandoned

namespace Life

variable {σ : Type} {config : Config} {w w' : Life σ}

/-- Where the worker listens, once there is a shared state. -/
def endpoint? (w : Life σ) : Option Endpoint :=
  w.relay.shared.map Shared.endpoint

/-- What a move does to the endpoint and to the running flag. -/
inductive Touch (w w' : Life σ) : Prop where
  /-- It leaves the endpoint alone, and does not set the flag. -/
  | spare (hendpoint : w'.endpoint? = w.endpoint?)
      (hrunning : w'.flag Shared.running = true → w.flag Shared.running = true)
  /-- It creates the shared state. -/
  | create (hfresh : w.relay.shared = none) (hshared : w'.relay.shared = some {})
  /-- The worker is heard of. -/
  | publish {port : UInt16} (hstage : w.stage = .bound port)
      (hwelcome : ∃ e, w.endpoint? = some e ∧ e ≠ .abandoned)
      (hendpoint : w'.endpoint? = some (.bound port)) (hafter : w'.stage = .serving)
  /-- The owner gives up on the worker. -/
  | abandon (hconduct : w.conduct = .abandoning ∨ w.conduct = .dropping)
      (hendpoint : w'.endpoint? = w.endpoint?.map fun _ => .abandoned)
      (hrunning : w'.flag Shared.running = false)

/-- A change of the shared state that leaves endpoint and running flag alone spares both. -/
theorem Touch.of_update {change : Shared → Shared}
    (hrelay : w'.relay = w.relay.update change)
    (hchange : ∀ s, (change s).endpoint = s.endpoint ∧
      ((change s).running = true → s.running = true)) : Touch w w' := by
  refine .spare ?_ ?_
  · rw [endpoint?, endpoint?, hrelay, Relay.shared_update, Option.map_map]
    exact congrArg (w.relay.shared.map ·) (funext fun s => (hchange s).1)
  · rw [flag, flag, hrelay, Relay.shared_update, Option.map_map]
    cases w.relay.shared with
    | none => exact id
    | some s => exact (hchange s).2

theorem Touch.of_abandon (hrelay : w'.relay = w.relay.update Shared.abandon)
    (hconduct : w.conduct = .abandoning ∨ w.conduct = .dropping) : Touch w w' := by
  refine .abandon hconduct ?_ ?_
  · rw [endpoint?, endpoint?, hrelay, Relay.shared_update, Option.map_map, Option.map_map]
    rfl
  · rw [flag, hrelay, Relay.shared_update]
    cases w.relay.shared <;> rfl

theorem eq_abandoned_of_map {before : Option Endpoint} {e : Endpoint}
    (h : (before.map fun _ => Endpoint.abandoned) = some e) : e = .abandoned := by
  obtain ⟨_, -, rfl⟩ := Option.map_eq_some_iff.mp h
  rfl

/-- What the loop tells the relay concerns neither endpoint nor running flag. -/
theorem signal_spares (loop : Worker.State σ) (s : Shared) :
    (loop.signal s).endpoint = s.endpoint ∧
      ((loop.signal s).running = true → s.running = true) := by
  unfold Worker.State.signal
  split
  · exact ⟨rfl, id⟩
  · next ending _ => cases ending <;> exact ⟨rfl, id⟩

theorem Move.touch (h : Move w w') : Touch w w' := by
  cases h with
  | unmanned _ _ hfresh => exact .create hfresh rfl
  | spawn _ hfresh => exact .create hfresh rfl
  | giveUp hconduct => exact .of_abandon rfl (.inl hconduct)
  | part hconduct => exact .of_abandon rfl (.inr hconduct)
  | tell => exact .of_update rfl fun s => ⟨rfl, nofun⟩
  | turn loop => exact .of_update rfl (signal_spares loop)
  | terminate => exact .of_update rfl fun s => ⟨rfl, id⟩
  | publish hstage hshared hwelcome =>
      exact .publish hstage ⟨_, by rw [endpoint?, hshared]; rfl, hwelcome⟩ rfl rfl
  | _ => exact .spare rfl id

/-- A worker that the owner gave up on is not heard of again. -/
theorem abandoned_of_move (h : Move w w') (habandoned : w.endpoint? = some .abandoned) :
    w'.endpoint? = some .abandoned := by
  cases h.touch with
  | spare hendpoint => exact hendpoint.trans habandoned
  | create hfresh =>
      rw [endpoint?, hfresh] at habandoned
      cases habandoned
  | publish _ hwelcome =>
      obtain ⟨e, hendpoint, hne⟩ := hwelcome
      exact absurd (Option.some.inj (hendpoint.symm.trans habandoned)) hne
  | abandon _ hendpoint => rw [hendpoint, habandoned]; rfl

/-- What holds of a relay and its worker at every moment. -/
structure Agreed (config : Config) (w : Life σ) : Prop where
  /-- The relay is in order. -/
  orderly : w.Orderly config
  /-- The running flag is set only while the worker is heard of. -/
  bound : w.flag Shared.running = true → ∃ port, w.endpoint? = some (.bound port)
  /-- A worker that has not tried to tell where it listens did not wait for a message, and is not
  heard of. -/
  early : w.stage.isEarly = true → w.polls = 0 ∧ ∀ port, w.endpoint? ≠ some (.bound port)
  /-- Once a start is over, its worker was heard of or given up. -/
  settled : w.conduct.call? ≠ some .start → w.endpoint? = some .pending → w.stage = .absent
  /-- A worker that was heard of in time is kept until the owner lets go of the relay. -/
  kept : .returned .started ∈ w.history → .dropped ∉ w.history →
    ∃ port, w.endpoint? = some (.bound port)
  /-- A worker that was not heard of in time is given up. -/
  lost : ∀ limit, .returned (.notStarted (.startupTimeout limit)) ∈ w.history →
    w.endpoint? = some .abandoned
  /-- Whoever is letting go of the relay has begun to. -/
  parting : w.conduct = .dropping → .dropped ∈ w.history

theorem agreed_ofConfig (config : Config) (sink : σ) : (ofConfig config sink).Agreed config where
  orderly := orderly_ofConfig config sink
  bound := nofun
  early _ := ⟨rfl, nofun⟩
  settled _ := nofun
  kept := nofun
  lost := nofun
  parting := nofun

/-- A worker that may still be heard of was not heard of before. -/
theorem Agreed.pending_of_welcome (hw : w.Agreed config) {port : UInt16}
    (hstage : w.stage = .bound port) (hwelcome : ∃ e, w.endpoint? = some e ∧ e ≠ .abandoned) :
    w.endpoint? = some .pending := by
  obtain ⟨e, hendpoint, hne⟩ := hwelcome
  have hunheard := (hw.early (by rw [hstage]; rfl)).2
  cases e with
  | pending => exact hendpoint
  | bound port => exact absurd hendpoint (hunheard port)
  | abandoned => exact absurd rfl hne

/-- The endpoint stays or moves forward. -/
theorem Agreed.follows (hw : w.Agreed config) (h : Move w w') :
    w'.endpoint? = w.endpoint? ∨ w.endpoint? = none ∧ w'.endpoint? = some .pending ∨
      ∃ e e', w.endpoint? = some e ∧ w'.endpoint? = some e' ∧ e.Follows e' := by
  cases h.touch with
  | spare hendpoint => exact .inl hendpoint
  | create hfresh hshared =>
      exact .inr (.inl ⟨by rw [endpoint?, hfresh]; rfl, by rw [endpoint?, hshared]; rfl⟩)
  | publish hstage hwelcome hendpoint =>
      exact .inr (.inr ⟨_, _, hw.pending_of_welcome hstage hwelcome, hendpoint, .publish _⟩)
  | abandon hconduct hendpoint =>
      rw [hendpoint]
      cases w.endpoint? with
      | none => exact .inl rfl
      | some e =>
          cases e with
          | pending => exact .inr (.inr ⟨_, _, rfl, rfl, .giveUp⟩)
          | bound port => exact .inr (.inr ⟨_, _, rfl, rfl, .withdraw port⟩)
          | abandoned => exact .inl rfl

/-- A worker is heard of in the step that sets the running flag, and given up in a step that clears
it. -/
theorem Agreed.bound_of_move (hw : w.Agreed config) (h : Move w w')
    (hrunning : w'.flag Shared.running = true) : ∃ port, w'.endpoint? = some (.bound port) := by
  cases h.touch with
  | spare hendpoint hback =>
      rw [hendpoint]
      exact hw.bound (hback hrunning)
  | create _ hshared =>
      rw [flag, hshared] at hrunning
      cases hrunning
  | publish _ _ hendpoint _ => exact ⟨_, hendpoint⟩
  | abandon _ _ hcleared => cases hcleared.symm.trans hrunning

theorem Agreed.early_of_move (hw : w.Agreed config) (h : Move w w')
    (hearly : w'.stage.isEarly = true) :
    w'.polls = 0 ∧ ∀ port, w'.endpoint? ≠ some (.bound port) := by
  have hbefore : w.stage.isEarly = true ∧ w'.polls = w.polls := by
    cases h with
    | spawn _ hfresh => exact ⟨by rw [(hw.orderly.untouched hfresh).stage]; rfl, rfl⟩
    | bind _ hstage => exact ⟨by rw [hstage]; rfl, rfl⟩
    | fail | publish | look | terminate => cases hearly
    | turn _ _ hafter => rcases hafter with rfl | rfl <;> cases hearly
    | _ => exact ⟨hearly, rfl⟩
  obtain ⟨hpolls, hunheard⟩ := hw.early hbefore.1
  refine ⟨hbefore.2.trans hpolls, fun port hbound => ?_⟩
  cases h.touch with
  | spare hendpoint => exact hunheard port (hendpoint.symm.trans hbound)
  | create _ hshared =>
      rw [endpoint?, hshared] at hbound
      cases hbound
  | publish _ _ _ hafter =>
      rw [hafter] at hearly
      cases hearly
  | abandon _ hendpoint => cases eq_abandoned_of_map (hendpoint.symm.trans hbound)

/-- Without a worker there is none later, unless a start creates one. -/
theorem Move.stage_absent (h : Move w w') (habsent : w.stage = .absent) :
    w'.stage = .absent ∨ w.relay.shared = none ∧ w'.conduct.call? = some .start := by
  cases h with
  | spawn _ hfresh => exact .inr ⟨hfresh, rfl⟩
  | bind _ hstage | publish hstage | look _ _ hstage | terminate hstage =>
      cases habsent.symm.trans hstage
  | fail hpresent => exact absurd habsent hpresent
  | turn _ hserving =>
      rw [habsent] at hserving
      cases hserving
  | _ => exact .inl habsent

/-- A start ends by finding the worker ready or by giving up on it. -/
theorem Move.start_over (h : Move w w') (hcall : w.conduct.call? = some .start)
    (hover : w'.conduct.call? ≠ some .start) :
    w.flag Shared.running = true ∨ w'.endpoint? ≠ some .pending := by
  cases h with
  | reply hfree | unmanned _ hfree | spawn hfree | halt hfree | drop _ hfree =>
      rw [hfree] at hcall
      cases hcall
  | pass _ hbefore hafter => exact absurd (hafter.trans (hbefore.symm.trans hcall)) hover
  | ready _ hrunning => exact .inl hrunning
  | giveUp =>
      refine .inr fun hpending => ?_
      simp only [endpoint?, answer, record, Relay.shared_update, Option.map_map] at hpending
      cases hshared : w.relay.shared <;> simp [hshared, Shared.abandon] at hpending
  | tell _ hbefore => cases hbefore.symm.trans hcall
  | report _ hbefore => cases hbefore.symm.trans hcall
  | part hbefore =>
      rw [hbefore] at hcall
      cases hcall
  | bind | fail | publish | look | turn | terminate => exact absurd hcall hover

/-- Only a start that is under way leaves open whether the worker is heard of. -/
theorem Agreed.settled_of_move (hw : w.Agreed config) (h : Move w w')
    (hcall : w'.conduct.call? ≠ some .start) (hpending : w'.endpoint? = some .pending) :
    w'.stage = .absent := by
  suffices habsent : w.stage = .absent from
    (h.stage_absent habsent).resolve_right fun hspawn => hcall hspawn.2
  cases h.touch with
  | spare hendpoint =>
      have hbefore : w.endpoint? = some .pending := hendpoint.symm.trans hpending
      by_cases hstart : w.conduct.call? = some .start
      · rcases h.start_over hstart hcall with hrunning | hne
        · obtain ⟨port, hbound⟩ := hw.bound hrunning
          cases hbefore.symm.trans hbound
        · exact absurd hpending hne
      · exact hw.settled hstart hbefore
  | create hfresh => exact (hw.orderly.untouched hfresh).stage
  | publish _ _ hendpoint => cases hendpoint.symm.trans hpending
  | abandon _ hendpoint => cases eq_abandoned_of_map (hendpoint.symm.trans hpending)

/-- A start succeeds only if it finds the running flag set. -/
theorem Move.started_mem (h : Move w w') (hmem : .returned .started ∈ w'.history) :
    .returned .started ∈ w.history ∨
      w.flag Shared.running = true ∧ w'.endpoint? = w.endpoint? := by
  cases h with
  | ready _ hrunning => exact .inr ⟨hrunning, rfl⟩
  | reply _ hreplies => cases hreplies <;> exact .inl (by simpa [record] using hmem)
  | _ => exact .inl (by simpa [record, answer] using hmem)

theorem spawn_ne_startupTimeout {r : Relay} {limit : Duration} :
    r.spawn ≠ .error (.startupTimeout limit) := by
  unfold Relay.spawn
  split <;> simp

/-- A start runs out of time only by giving up on the worker. -/
theorem Move.startupTimeout_mem (h : Move w w') {limit : Duration}
    (hmem : .returned (.notStarted (.startupTimeout limit)) ∈ w'.history) :
    .returned (.notStarted (.startupTimeout limit)) ∈ w.history ∨ w.conduct = .abandoning ∧
      w'.endpoint? = w.endpoint?.map fun _ => .abandoned := by
  cases h with
  | giveUp hconduct =>
      refine .inr ⟨hconduct, ?_⟩
      rw [endpoint?, endpoint?, Option.map_map]
      exact Option.map_map ..
  | reply _ hreplies =>
      rcases List.mem_append.mp hmem with hold | hnew
      · exact .inl hold
      · cases hreplies with
        | start herror =>
            obtain rfl : _ = StartError.startupTimeout limit := by simpa [eq_comm] using hnew
            exact absurd herror spawn_ne_startupTimeout
        | stop | isRunning | port => simp at hnew
  | _ => exact .inl (by simpa [record, answer] using hmem)

theorem Move.mem_history (h : Move w w') {happening : Happening} (hmem : happening ∈ w.history) :
    happening ∈ w'.history := by
  cases h <;> simp [record, answer, hmem]

/-- A start that succeeded leaves no other start that could give up on the worker. -/
theorem Orderly.call?_ne_start (hw : w.Orderly config) (hstarted : .returned .started ∈ w.history) :
    w.conduct.call? ≠ some .start := by
  intro hcall
  have hpos : 0 < w.history.count (.returned .started) := List.count_pos_iff.mpr hstarted
  have hfewer := hw.starting hcall
  have hmost := hw.spawned
  omega

theorem Agreed.kept_of_move (hw : w.Agreed config) (h : Move w w')
    (hstarted : .returned .started ∈ w'.history) (hdropped : .dropped ∉ w'.history) :
    ∃ port, w'.endpoint? = some (.bound port) := by
  rcases h.started_mem hstarted with hold | ⟨hrunning, hendpoint⟩
  · have hnot : .dropped ∉ w.history := fun hmem => hdropped (h.mem_history hmem)
    obtain ⟨port, hbound⟩ := hw.kept hold hnot
    cases h.touch with
    | spare hendpoint => exact ⟨port, hendpoint.trans hbound⟩
    | create hfresh =>
        rw [endpoint?, hfresh] at hbound
        cases hbound
    | publish _ _ hendpoint => exact ⟨_, hendpoint⟩
    | abandon hconduct =>
        rcases hconduct with habandoning | hparting
        · exact absurd (by rw [habandoning]; rfl) (hw.orderly.call?_ne_start hold)
        · exact absurd (hw.parting hparting) hnot
  · rw [hendpoint]
    exact hw.bound hrunning

theorem Agreed.lost_of_move (hw : w.Agreed config) (h : Move w w') {limit : Duration}
    (hlost : .returned (.notStarted (.startupTimeout limit)) ∈ w'.history) :
    w'.endpoint? = some .abandoned := by
  rcases h.startupTimeout_mem hlost with hold | ⟨hconduct, hendpoint⟩
  · have habandoned := hw.lost limit hold
    exact abandoned_of_move h habandoned
  · have hcall : w.conduct.call? = some .start := by rw [hconduct]; rfl
    obtain ⟨shared, hshared⟩ :=
      Option.ne_none_iff_exists'.mp (hw.orderly.shared_of_call hcall)
    rw [hendpoint, endpoint?, hshared]
    rfl

theorem Agreed.parting_of_move (hw : w.Agreed config) (h : Move w w')
    (hparting : w'.conduct = .dropping) : .dropped ∈ w'.history := by
  cases h with
  | drop => simp [record]
  | pass conduct _ hafter | tell conduct _ hafter =>
      obtain rfl : conduct = .dropping := hparting
      cases hafter
  | bind | fail | publish | look | turn | terminate => exact hw.parting hparting
  | reply hfree => cases hfree.symm.trans hparting
  | unmanned _ hfree => cases hfree.symm.trans hparting
  | spawn | ready | giveUp | halt | report | part => cases hparting

theorem Agreed.move (hw : w.Agreed config) (h : Move w w') : w'.Agreed config where
  orderly := hw.orderly.move h
  bound := hw.bound_of_move h
  early := hw.early_of_move h
  settled := hw.settled_of_move h
  kept := hw.kept_of_move h
  lost _ := hw.lost_of_move h
  parting := hw.parting_of_move h

theorem Agreed.run (hw : w.Agreed config) (sink : Sink σ) (schedule : List Action) :
    (w.run sink schedule).Agreed config :=
  run_induction (fun h hw => Agreed.move hw h) sink schedule hw

/-- Once there is a shared state and the endpoint has moved on, it does not come back. -/
theorem settled_of_move (h : Move w w')
    (hw : w.endpoint? ≠ none ∧ w.endpoint? ≠ some .pending) :
    w'.endpoint? ≠ none ∧ w'.endpoint? ≠ some .pending := by
  cases h.touch with
  | spare hendpoint => rwa [hendpoint]
  | create hfresh => exact absurd (by rw [endpoint?, hfresh]; rfl) hw.1
  | publish _ _ hendpoint => simp [hendpoint]
  | abandon _ hendpoint =>
      obtain ⟨e, hsome⟩ := Option.ne_none_iff_exists'.mp hw.1
      simp [hendpoint, hsome]

/-- A running flag that is not set, and that no worker can set any more. -/
structure Spent (w : Life σ) : Prop where
  /-- There is a shared state. -/
  shared : w.relay.shared ≠ none
  /-- No worker is waited for. -/
  settled : w.endpoint? = some .pending → w.stage = .absent
  /-- The flag is not set. -/
  cleared : w.flag Shared.running = false

theorem Spent.move (hspent : w.Spent) (hw : w.Agreed config) (h : Move w w') : w'.Spent := by
  have hshared : w'.relay.shared ≠ none := fun hnone => hspent.shared (h.shared_eq_none hnone)
  cases h.touch with
  | spare hendpoint hback =>
      refine ⟨hshared, fun hpending => ?_, ?_⟩
      · have habsent := hspent.settled (hendpoint.symm.trans hpending)
        exact (h.stage_absent habsent).resolve_right fun hspawn => hspent.shared hspawn.1
      · refine Bool.eq_false_iff.mpr fun hrunning => ?_
        cases hspent.cleared.symm.trans (hback hrunning)
  | create hfresh => exact absurd hfresh hspent.shared
  | publish hstage hwelcome =>
      have habsent := hspent.settled (hw.pending_of_welcome hstage hwelcome)
      cases hstage.symm.trans habsent
  | abandon _ hendpoint hcleared =>
      refine ⟨hshared, fun hpending => ?_, hcleared⟩
      cases eq_abandoned_of_map (hendpoint.symm.trans hpending)

theorem Spent.run (hspent : w.Spent) (hw : w.Agreed config) (sink : Sink σ)
    (later : List Action) : (w.run sink later).flag Shared.running = false :=
  (run_induction (P := fun w => w.Agreed config ∧ w.Spent)
    (fun h hboth => ⟨hboth.1.move h, hboth.2.move hboth.1 h⟩) sink later ⟨hw, hspent⟩).2.cleared

/-- A stop that tells the worker to end leaves the flag cleared for good. -/
theorem Agreed.spent_of_telling (hw : w.Agreed config) {warnings : List StopWarning}
    (hconduct : w.conduct = .telling warnings) (sink : Sink σ) (remaining : Nat) :
    (w.step sink (.proceed remaining)).Spent := by
  have hstep : w.step sink (.proceed remaining) = { w with
      relay := w.relay.update Shared.clearRunning
      conduct := .joining [w.timeouts.join, w.timeouts.joinRetry] warnings } := by
    simp only [step, proceed, hconduct]
  have hcall : w.conduct.call? = some .stop := by rw [hconduct]; rfl
  obtain ⟨shared, hshared⟩ := Option.ne_none_iff_exists'.mp (hw.orderly.shared_of_call hcall)
  rw [hstep]
  refine ⟨?_, fun hpending => hw.settled (by simp [hcall]) ?_, ?_⟩
  · simp [hshared]
  · rw [← hpending, endpoint?, endpoint?, Relay.shared_update, Option.map_map]
    rfl
  · simp [flag, hshared, Shared.clearRunning]

/-- A worker that the owner gave up on before it was heard of. -/
structure Refused (w : Life σ) : Prop where
  /-- The owner gave up on it. -/
  abandoned : w.endpoint? = some .abandoned
  /-- It is not in its loop. -/
  idle : w.stage.isServing = false
  /-- It has not waited for a message. -/
  unpolled : w.polls = 0

theorem Refused.move (hw : w.Refused) (h : Move w w') : w'.Refused := by
  obtain ⟨habandoned, hidle, hpolls⟩ := hw
  have hafter := abandoned_of_move h habandoned
  cases h with
  | spawn _ hfresh =>
      rw [endpoint?, hfresh] at habandoned
      cases habandoned
  | bind | fail | terminate => exact ⟨hafter, rfl, hpolls⟩
  | publish => cases hafter
  | look _ _ hstage =>
      rw [hstage] at hidle
      cases hidle
  | turn _ hserving => cases hserving.symm.trans hidle
  | _ => exact ⟨hafter, hidle, hpolls⟩

/-- A refused worker that tries to tell where it listens leaves and ends. -/
theorem Refused.publish (hw : w.Refused) {port : UInt16} (hstage : w.stage = .bound port) :
    w.publish = { w with stage := .leaving } ∧ w.publish.terminate.stage = .ended ∧
      w.publish.terminate.flag Shared.terminated = true := by
  obtain ⟨shared, hshared, hendpoint⟩ := Option.map_eq_some_iff.mp hw.abandoned
  have hrefused : shared.publish port = (shared, false) := by
    rw [Shared.publish, hendpoint]
  have hpublish : w.publish = { w with stage := .leaving } := by
    simp only [Life.publish, hstage, hshared, hrefused]
    rw [← hshared]
    rfl
  rw [hpublish]
  exact ⟨rfl, rfl, by simp [terminate, flag, hshared, Shared.terminate]⟩

/-- A worker that a start found ready stays on its port until the owner lets go of the relay. -/
theorem Agreed.endpoint_run (hw : w.Agreed config) (hstarted : .returned .started ∈ w.history)
    {port : UInt16} (hbound : w.endpoint? = some (.bound port)) (sink : Sink σ)
    (later : List Action) (hdropped : .dropped ∉ (w.run sink later).history) :
    (w.run sink later).endpoint? = some (.bound port) := by
  refine (run_induction (P := fun w => w.Agreed config ∧ .returned .started ∈ w.history ∧
    (.dropped ∉ w.history → w.endpoint? = some (.bound port))) ?_ sink later
      ⟨hw, hstarted, fun _ => hbound⟩).2.2 hdropped
  intro w w' h ⟨hw, hstarted, hkept⟩
  have hstarted' := h.mem_history hstarted
  refine ⟨hw.move h, hstarted', fun hdropped => ?_⟩
  have hbefore := hkept fun hmem => hdropped (h.mem_history hmem)
  obtain ⟨now, hafter⟩ := hw.kept_of_move h hstarted' hdropped
  obtain hsame | ⟨hnone, -⟩ | ⟨e, e', he, he', hfollows⟩ := hw.follows h
  · exact hsame.trans hbefore
  · cases hnone.symm.trans hbefore
  · obtain rfl : e = .bound port := Option.some.inj (he.symm.trans hbefore)
    cases hfollows
    cases he'.symm.trans hafter

/-- The handshake, for every order of the steps of a relay and its worker. -/
theorem run_handshake (config : Config) (sink : Sink σ) (kept : σ) (schedule : List Action) :
    let w := (ofConfig config kept).run sink schedule
    (∀ a, let after := w.step sink a
      after.endpoint? = w.endpoint? ∨ w.endpoint? = none ∧ after.endpoint? = some .pending ∨
        ∃ e e', w.endpoint? = some e ∧ after.endpoint? = some e' ∧ e.Follows e') ∧
    (w.flag Shared.running = true → ∃ port, w.endpoint? = some (.bound port)) ∧
    (w.flag Shared.running = true → ∀ middle later,
      (w.run sink middle).flag Shared.running = false →
        ((w.run sink middle).run sink later).flag Shared.running = false) ∧
    (∀ warnings, w.conduct = .telling warnings → ∀ remaining later,
      ((w.step sink (.proceed remaining)).run sink later).flag Shared.running = false) ∧
    (w.endpoint? = some .abandoned → ∀ later,
      (w.run sink later).endpoint? = some .abandoned ∧
        (w.run sink later).flag Shared.running = false) ∧
    (.returned .started ∈ w.history → .dropped ∉ w.history →
      ∃ port, ∀ later, .dropped ∉ (w.run sink later).history →
        (w.run sink later).endpoint? = some (.bound port)) ∧
    (∀ limit, .returned (.notStarted (.startupTimeout limit)) ∈ w.history → ∀ later,
      let after := w.run sink later
      after.endpoint? = some .abandoned ∧ after.relay.shared.bind Shared.port? = none ∧
        (w.stage.isEarly = true → after.stage.isServing = false ∧ after.polls = 0 ∧
          ∀ port, after.stage = .bound port →
            let refused := after.step sink .publish
            refused = { after with stage := .leaving } ∧
              (refused.step sink .terminate).stage = .ended ∧
              (refused.step sink .terminate).flag Shared.terminated = true)) := by
  intro w
  have hw : w.Agreed config := (agreed_ofConfig config kept).run sink schedule
  have habandoned (h : w.endpoint? = some .abandoned) (later : List Action) :
      (w.run sink later).endpoint? = some .abandoned :=
    run_induction (P := fun w => w.endpoint? = some .abandoned) abandoned_of_move sink later h
  refine ⟨fun a => ?moves, hw.bound, fun hrunning middle later hcleared => ?once,
    fun warnings hconduct remaining later => ?told, fun h later => ⟨habandoned h later, ?never⟩,
    fun hstarted hdropped => ?kept, fun limit hlost later => ?lost⟩
  case moves =>
    rcases step_move sink w a with hstay | hmoved
    · exact .inl (congrArg endpoint? hstay)
    · exact hw.follows hmoved
  case once =>
    obtain ⟨port, hbound⟩ := hw.bound hrunning
    have hpublished : w.endpoint? ≠ none ∧ w.endpoint? ≠ some .pending := by simp [hbound]
    have hsettled := run_induction settled_of_move sink middle hpublished
    refine Spent.run ⟨fun hnone => hsettled.1 ?_, fun hpending => absurd hpending hsettled.2,
      hcleared⟩ (hw.run sink middle) sink later
    rw [endpoint?, hnone]
    rfl
  case told =>
    have hnext : (w.step sink (.proceed remaining)).Agreed config :=
      hw.run sink [.proceed remaining]
    exact (hw.spent_of_telling hconduct sink remaining).run hnext sink later
  case never =>
    refine Bool.eq_false_iff.mpr fun hrunning => ?_
    obtain ⟨port, hbound⟩ := (hw.run sink later).bound hrunning
    cases hbound.symm.trans (habandoned h later)
  case kept =>
    obtain ⟨port, hbound⟩ := hw.kept hstarted hdropped
    exact ⟨port, fun later => hw.endpoint_run hstarted hbound sink later⟩
  case lost =>
    intro after
    have hafter : after.endpoint? = some .abandoned := habandoned (hw.lost limit hlost) later
    refine ⟨hafter, ?_, fun hearly => ?_⟩
    · obtain ⟨shared, hshared, hendpoint⟩ := Option.map_eq_some_iff.mp hafter
      rw [hshared, Option.bind_some, Shared.port?, hendpoint]
    · have hidle : w.stage.isServing = false := by
        cases hstage : w.stage <;> first | rfl | (rw [hstage] at hearly; cases hearly)
      have hrefused : after.Refused := run_induction (fun h hw => Refused.move hw h) sink later
        ⟨hw.lost limit hlost, hidle, (hw.early hearly).1⟩
      exact ⟨hrefused.idle, hrefused.unpolled, fun port hstage => hrefused.publish hstage⟩

/-- A worker that comes too late is refused. -/
example :
    let late := (ofConfig (Config.default 4510) ()).run ⟨fun _ _ => ((), .taken)⟩
      [.start none, .proceed 0, .proceed 0, .bind (some 4510), .proceed 0, .publish, .terminate,
        .port]
    late.stage = .ended ∧ late.polls = 0 ∧ late.history = [.called .start, .spawned,
      .returned (.notStarted (.startupTimeout (.ofSeconds 5))), .called .port,
      .returned (.port 4510)] := by
  decide +kernel

end Life

end LogRelay
