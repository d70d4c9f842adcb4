import LogRelay.Relay.Life

/-!
# What a step of a relay or its worker can do

Whatever the schedule asks for, a step either changes nothing or makes one of a few moves. The moves
say all that the steps can do to the relay, to the call under way, to the worker and to the history,
so that an invariant need only be proved to survive each of them.
-/

namespace LogRelay

/-- The call that is under way. -/
def Conduct.call? : Conduct → Option Call
  | .awaiting | .checking _ | .abandoning => some .start
  | .asking | .acknowledging | .telling _ | .joining _ _ => some .stop
  | .free | .dropping | .gone => none

/-- Whether the worker has not tried to tell where it listens. -/
def Stage.isEarly : Stage → Bool
  | .absent | .binding | .bound _ => true
  | .serving | .waiting _ _ | .leaving | .ended => false

/-- Whether the worker is in its loop. -/
def Stage.isServing : Stage → Bool
  | .serving | .waiting _ _ => true
  | .absent | .binding | .bound _ | .leaving | .ended => false

/-- The answers that a relay gives at once, and without a change. -/
inductive Relay.Replies (r : Relay) : Call → Answer → Prop where
  | start {e : StartError} (h : r.spawn = .error e) : Replies r .start (.notStarted e)
  | stop (h : r.takeWorker? = none) : Replies r .stop (.stopped [])
  | isRunning : Replies r .isRunning (.running r.isRunning)
  | port : Replies r .port (.port r.port)

namespace Life

variable {σ : Type} {sink : Sink σ} {w w' : Life σ}

/-- What a step can do. -/
inductive Move : Life σ → Life σ → Prop where
  /-- A call returns at once. -/
  | reply {w : Life σ} {call : Call} {answer : Answer} (hfree : w.conduct = .free)
      (h : w.relay.Replies call answer) : Move w (w.record [.called call, .returned answer])
  /-- A start passes the check, but no worker can be created. -/
  | unmanned {w : Life σ} (fault : SystemFault) (hfree : w.conduct = .free)
      (hfresh : w.relay.shared = none) (hvalid : w.relay.config.validate = .ok ()) :
      Move w ({ w with relay := { w.relay with shared := some {}, joinable := false } }.record
        [.called .start, .returned (.notStarted (.noWorker fault))])
  /-- A start creates a worker. -/
  | spawn {w : Life σ} (hfree : w.conduct = .free) (hfresh : w.relay.shared = none)
      (hvalid : w.relay.config.validate = .ok ()) :
      Move w ({ w with
        relay := { w.relay with shared := some {}, joinable := true }
        conduct := .awaiting
        stage := .binding }.record [.called .start, .spawned])
  /-- The call under way goes on. -/
  | pass {w : Life σ} (conduct : Conduct) {call : Call} (hbefore : w.conduct.call? = some call)
      (hafter : conduct.call? = some call) : Move w { w with conduct := conduct }
  /-- A start finds the worker ready. -/
  | ready {w : Life σ} (hconduct : w.conduct = .awaiting)
      (hrunning : w.flag Shared.running = true) : Move w (w.answer .started)
  /-- A start gives up on the worker. -/
  | giveUp {w : Life σ} (hconduct : w.conduct = .abandoning) :
      Move w ({ w with relay := w.relay.update Shared.abandon }.answer
        (.notStarted (.startupTimeout w.timeouts.startup)))
  /-- A stop takes the handle of the worker. -/
  | halt {w : Life σ} (hfree : w.conduct = .free) (hheld : w.relay.joinable = true) :
      Move w ({ w with relay := { w.relay with joinable := false }, conduct := .asking }.record
        [.called .stop])
  /-- A stop tells the worker to end. -/
  | tell {w : Life σ} (conduct : Conduct) (hbefore : w.conduct.call? = some .stop)
      (hafter : conduct.call? = some .stop) :
      Move w { w with relay := w.relay.update Shared.clearRunning, conduct := conduct }
  /-- A stop returns. -/
  | report {w : Life σ} (warnings : List StopWarning) (hconduct : w.conduct.call? = some .stop) :
      Move w (w.answer (.stopped warnings))
  /-- The owner lets go of the relay. -/
  | drop {w : Life σ} (conduct : Conduct) (hfree : w.conduct = .free)
      (hconduct : conduct = .dropping ∧ w.relay.joinable = true ∨ conduct = .gone) :
      Move w ({ w with conduct := conduct }.record [.dropped])
  /-- The worker of a relay that is let go is given up. -/
  | part {w : Life σ} (hconduct : w.conduct = .dropping) :
      Move w { w with relay := w.relay.update Shared.abandon, conduct := .gone }
  /-- The worker listens. -/
  | bind {w : Life σ} (port : UInt16) (hstage : w.stage = .binding) :
      Move w { w with stage := .bound port }
  /-- The worker cannot go on. -/
  | fail {w : Life σ} (hstage : w.stage ≠ .absent) (halive : w.stage ≠ .ended) :
      Move w { w with stage := .leaving }
  /-- The worker tells where it listens. -/
  | publish {w : Life σ} {port : UInt16} {shared : Shared} (hstage : w.stage = .bound port)
      (hshared : w.relay.shared = some shared) (hwelcome : shared.endpoint ≠ .abandoned) :
      Move w { w with
        relay := { w.relay with
          shared := some { shared with endpoint := .bound port, running := true } }
        stage := .serving }
  /-- The worker begins to wait for a message. -/
  | look {w : Life σ} (running : Bool) (now : Nat) (hstage : w.stage = .serving) :
      Move w { w with stage := .waiting running now, polls := w.polls + 1 }
  /-- The worker completes a turn. -/
  | turn {w : Life σ} (loop : Worker.State σ) {stage : Stage}
      (hbefore : w.stage.isServing = true) (hafter : stage = .serving ∨ stage = .leaving) :
      Move w { w with loop := loop, relay := w.relay.update loop.signal, stage := stage }
  /-- The worker ends. -/
  | terminate {w : Life σ} (hstage : w.stage = .leaving) :
      Move w { w with stage := .ended, relay := w.relay.update Shared.terminate }

section

variable (hfree : w.conduct = .free)

include hfree

theorem answer_record (h : Happening) (a : Answer) :
    (w.record [h]).answer a = w.record [h, .returned a] := by
  simp [answer, record, hfree]

/-- A start is refused, finds no worker or creates one. -/
theorem start_move (fault : Option SystemFault) : Move w (w.start fault) := by
  unfold start
  cases hspawn : w.relay.spawn with
  | error e =>
      dsimp only
      rw [answer_record hfree]
      exact .reply hfree (.start hspawn)
  | ok started =>
      obtain ⟨hfresh, hvalid, rfl⟩ := Relay.spawn_eq_ok hspawn
      cases fault with
      | none =>
          have hspawned := Move.spawn hfree hfresh hvalid
          simpa [record] using hspawned
      | some fault =>
          have hunmanned := Move.unmanned fault hfree hfresh hvalid
          simpa [record, answer, hfree] using hunmanned

/-- A stop returns at once or takes the handle of the worker. -/
theorem stop_move : Move w w.stop := by
  unfold stop
  cases htake : w.relay.takeWorker? with
  | none =>
      dsimp only
      rw [answer_record hfree]
      exact .reply hfree (.stop htake)
  | some taken =>
      obtain ⟨hheld, htaken⟩ := Relay.takeWorker?_eq_some htake
      dsimp only
      rw [htaken]
      exact .halt hfree hheld

theorem drop_move : Move w w.drop := by
  unfold drop
  cases hrunning : w.relay.isRunning with
  | false => exact .drop .gone hfree (.inr rfl)
  | true =>
      have hheld : w.relay.joinable = true := (Bool.and_eq_true_iff.mp hrunning).1
      exact .drop .dropping hfree (.inl ⟨rfl, hheld⟩)

end

/-- Each step of a call under way passes it on, tells the worker something or returns. -/
theorem proceed_move (remaining : Nat) :
    w.proceed remaining = w ∨ Move w (w.proceed remaining) := by
  have hpass {call : Call} (hcall : w.conduct.call? = some call) (conduct : Conduct)
      (h : conduct.call? = some call) : Move w { w with conduct := conduct } :=
    .pass conduct hcall h
  unfold proceed
  cases hconduct : w.conduct with
  | free | gone => exact .inl rfl
  | awaiting =>
      rw [hconduct] at hpass
      by_cases hrunning : w.flag Shared.running
      · simp only [if_pos hrunning]
        exact .inr (.ready hconduct hrunning)
      · simp only [if_neg hrunning]
        exact .inr (hpass rfl _ rfl)
  | checking left =>
      rw [hconduct] at hpass
      dsimp only
      split
      · exact .inr (hpass rfl _ rfl)
      · exact .inr (hpass rfl _ rfl)
  | abandoning => exact .inr (.giveUp hconduct)
  | asking | acknowledging =>
      rw [hconduct] at hpass
      dsimp only
      split
      · exact .inr (hpass rfl _ rfl)
      · exact .inr (hpass rfl _ rfl)
  | telling warnings => exact .inr (.tell _ (by rw [hconduct]; rfl) rfl)
  | joining spans warnings =>
      have hcall : w.conduct.call? = some .stop := by rw [hconduct]; rfl
      cases spans with
      | nil => exact .inr (.report _ hcall)
      | cons span spans =>
          dsimp only
          split
          · exact .inr (.report _ hcall)
          · exact .inr (hpass hcall _ rfl)
  | dropping => exact .inr (.part hconduct)

theorem bind_move (port : Option UInt16) : w.bind port = w ∨ Move w (w.bind port) := by
  unfold bind
  cases hstage : w.stage with
  | binding =>
      cases port with
      | none => exact .inr (.fail (by simp [hstage]) (by simp [hstage]))
      | some port => exact .inr (.bind port hstage)
  | _ => exact .inl rfl

/-- A worker that may not tell where it listens cannot go on. -/
theorem publish_move : w.publish = w ∨ Move w w.publish := by
  unfold publish
  split
  · next port shared hstage hshared =>
      cases hendpoint : shared.endpoint with
      | abandoned =>
          have hrefused : shared.publish port = (shared, false) := by
            rw [Shared.publish, hendpoint]
          right
          rw [hrefused]
          dsimp only
          rw [← hshared]
          exact .fail (by simp [hstage]) (by simp [hstage])
      | pending | bound =>
          have htold : shared.publish port =
              ({ shared with endpoint := .bound port, running := true }, true) := by
            rw [Shared.publish, hendpoint]
          rw [htold]
          exact .inr (.publish hstage hshared (by simp [hendpoint]))
  · exact .inl rfl

theorem turn_move (hstage : w.stage.isServing = true) (t : Worker.Turn) :
    Move w (w.turn sink t) := by
  unfold turn
  refine .turn _ hstage ?_
  split
  · exact .inr rfl
  · exact .inl rfl

theorem look_move (now : Nat) : w.look sink now = w ∨ Move w (w.look sink now) := by
  unfold look
  split
  · next hstage =>
      dsimp only
      split
      · exact .inr (.look _ now hstage)
      · exact .inr (turn_move (by rw [hstage]; rfl) _)
  · exact .inl rfl

theorem take_move (polled : Worker.Polled) :
    w.take sink polled = w ∨ Move w (w.take sink polled) := by
  unfold take
  split
  · next hstage => exact .inr (turn_move (by rw [hstage]; rfl) _)
  · exact .inl rfl

theorem collapse_move : w.collapse = w ∨ Move w w.collapse := by
  unfold collapse
  split
  · exact .inl rfl
  · exact .inl rfl
  · next habsent hended => exact .inr (.fail habsent hended)

theorem terminate_move : w.terminate = w ∨ Move w w.terminate := by
  unfold terminate
  split
  · next hstage => exact .inr (.terminate hstage)
  · exact .inl rfl

theorem whenFree_move {call : Life σ → Life σ}
    (h : w.conduct = .free → Move w (call w)) :
    w.whenFree call = w ∨ Move w (w.whenFree call) := by
  unfold whenFree
  split
  · next hfree => exact .inr (h hfree)
  · exact .inl rfl

/-- Every step changes nothing or makes a move. -/
theorem step_move (sink : Sink σ) (w : Life σ) (a : Action) :
    w.step sink a = w ∨ Move w (w.step sink a) := by
  cases a <;> unfold step
  case start fault => exact whenFree_move fun hfree => start_move hfree fault
  case stop => exact whenFree_move stop_move
  case isRunning =>
    refine whenFree_move fun hfree => ?_
    rw [answer_record hfree]
    exact .reply hfree .isRunning
  case port =>
    refine whenFree_move fun hfree => ?_
    rw [answer_record hfree]
    exact .reply hfree .port
  case drop => exact whenFree_move drop_move
  case proceed remaining => exact proceed_move remaining
  case bind port => exact bind_move port
  case publish => exact publish_move
  case look now => exact look_move now
  case take polled => exact take_move polled
  case collapse => exact collapse_move
  case terminate => exact terminate_move

/-- What every move preserves holds along every run. -/
theorem run_induction {P : Life σ → Prop} (hmove : ∀ {w w' : Life σ}, Move w w' → P w → P w')
    (sink : Sink σ) (schedule : List Action) (h : P w) : P (w.run sink schedule) := by
  induction schedule generalizing w with
  | nil => exact h
  | cons a rest ih =>
      refine ih ?_
      rcases step_move sink w a with hstay | hmoved
      · rw [hstay]
        exact h
      · exact hmove hmoved h

end Life

end LogRelay
