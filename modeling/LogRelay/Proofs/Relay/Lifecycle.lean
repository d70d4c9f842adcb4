import Mathlib.Data.List.Induction
import LogRelay.Proofs.Relay.Life

/-!
# The life of a relay

Whatever its owner asks and whatever its worker does meanwhile, a relay has one worker in its life
at most. The first start that passes the check uses up the relay, even if it fails; the first stop
after that gives up the handle of the worker, and nothing brings it back.
-/

namespace LogRelay

/-- Whether the handle of a worker is held after something happened. -/
def Happening.holds (held : Bool) : Happening → Bool
  | .spawned => true
  | .called .stop => false
  | .called .start | .called .isRunning | .called .port | .returned _ | .dropped => held

/-- Where the last item of a list is when the list is split at an item. -/
theorem append_singleton_eq_iff {α : Type} {items before after : List α} {last item : α} :
    items ++ [last] = before ++ item :: after ↔
      after = [] ∧ items = before ∧ last = item ∨
        ∃ rest, after = rest ++ [last] ∧ items = before ++ item :: rest := by
  constructor
  · intro heq
    obtain rfl | ⟨rest, final, rfl⟩ := List.eq_nil_or_concat after
    · obtain ⟨hitems, hlast⟩ := List.append_inj' heq rfl
      exact .inl ⟨rfl, hitems, List.singleton_inj.mp hlast⟩
    · rw [List.concat_eq_append] at *
      rw [← List.cons_append, ← List.append_assoc] at heq
      obtain ⟨hitems, hlast⟩ := List.append_inj' heq rfl
      rw [List.singleton_inj.mp hlast]
      exact .inr ⟨rest, rfl, hitems⟩
  · rintro (⟨rfl, rfl, rfl⟩ | ⟨rest, rfl, rfl⟩)
    · rfl
    · simp

/-- The handle of a worker is held from the creation of the worker until the next call for a
stop. -/
theorem Happening.foldl_holds_iff {history : List Happening} :
    history.foldl Happening.holds false = true ↔
      ∃ before after, history = before ++ .spawned :: after ∧ .called .stop ∉ after := by
  -- the latest happening decides, so the induction is on the end of the history
  induction history using List.reverseRecOn with
  | nil => simp
  | append_singleton history last ih =>
      rw [List.foldl_append, List.foldl_cons, List.foldl_nil]
      simp only [append_singleton_eq_iff]
      have hkeep (hspawned : last ≠ .spawned) (hstop : last ≠ .called .stop) :
          (∃ before after, (after = [] ∧ history = before ∧ last = .spawned ∨
              ∃ rest, after = rest ++ [last] ∧ history = before ++ .spawned :: rest) ∧
            .called .stop ∉ after) ↔ history.foldl Happening.holds false = true := by
        rw [ih]
        constructor
        · rintro ⟨before, after, ⟨-, -, heq⟩ | ⟨rest, rfl, heq⟩, hafter⟩
          · exact absurd heq hspawned
          · exact ⟨before, rest, heq, fun hmem => hafter (List.mem_append_left _ hmem)⟩
        · rintro ⟨before, rest, heq, hafter⟩
          refine ⟨before, rest ++ [last], .inr ⟨rest, rfl, heq⟩, ?_⟩
          simp [hafter, Ne.symm hstop]
      cases last with
      | spawned => exact iff_of_true rfl ⟨history, [], .inl ⟨rfl, rfl, rfl⟩, nofun⟩
      | called call =>
          cases call with
          | stop =>
              refine iff_of_false nofun ?_
              rintro ⟨before, after, ⟨-, -, heq⟩ | ⟨rest, rfl, -⟩, hafter⟩
              · cases heq
              · simp at hafter
          | start | isRunning | port => exact (hkeep nofun nofun).symm
      | returned answer => exact (hkeep nofun nofun).symm
      | dropped => exact (hkeep nofun nofun).symm

/-- Whether an answer is one of a relay that no start has changed. -/
def Answer.IsIdle (config : Config) (answer : Answer) : Prop :=
  answer = .stopped [] ∨ answer = .running false ∨ answer = .port config.port ∨
    ∃ fault, config.validate = .error fault ∧ answer = .notStarted (.invalidConfig fault)

/-- A relay that no start has changed refuses a start only for its configuration. -/
theorem Relay.Replies.idle {config : Config} {call : Call} {answer : Answer}
    (h : Relay.Replies { config := config } call answer) :
    answer.IsIdle config ∧ (config.validate = .ok () → call ≠ .start) := by
  cases h with
  | start herror =>
      unfold spawn at herror
      split at herror
      · next hshared => cases hshared
      · next fault _ hvalid =>
          have hrefused : config.validate = .error fault := hvalid
          cases herror
          exact ⟨.inr (.inr (.inr ⟨fault, hrefused, rfl⟩)), fun hok => by simp [hok] at hrefused⟩
      · cases herror
  | stop htake => exact ⟨.inl rfl, nofun⟩
  | isRunning => exact ⟨.inr (.inl rfl), nofun⟩
  | port => exact ⟨.inr (.inr (.inl rfl)), nofun⟩

namespace Life

variable {σ : Type} {config : Config} {w w' : Life σ}

/-- A relay that no start has changed, its worker and what its owner has seen of it. -/
structure Untouched (config : Config) (w : Life σ) : Prop where
  /-- The relay is as it was at first. -/
  relay : w.relay = { config := config }
  /-- It has no worker. -/
  stage : w.stage = .absent
  /-- No call is under way, since all of them return at once. -/
  conduct : w.conduct.call? = none
  /-- The answers so far. -/
  answers : ∀ answer, .returned answer ∈ w.history → answer.IsIdle config
  /-- A start with an accepted configuration would have changed the relay. -/
  starts : config.validate = .ok () → .called .start ∉ w.history

/-- What holds of a relay at every moment of its life. -/
structure Orderly (config : Config) (w : Life σ) : Prop where
  /-- The configuration never changes. -/
  config_eq : w.relay.config = config
  /-- Without a shared state the relay is as it was at first. -/
  untouched : w.relay.shared = none → w.Untouched config
  /-- The shared state comes from a start that passed the check. -/
  accepted : w.relay.shared ≠ none → config.validate = .ok ()
  /-- A worker that was created is there, though it may have ended. -/
  unspawned : w.stage = .absent → w.history.count .spawned = 0
  /-- At most one worker is created. -/
  spawned : w.history.count .spawned ≤ 1
  /-- A start that succeeded has created a worker. -/
  started : w.history.count (.returned .started) ≤ w.history.count .spawned
  /-- A start under way has created a worker too. -/
  starting : w.conduct.call? = some .start →
    w.history.count (.returned .started) < w.history.count .spawned
  /-- The history tells whether the handle of a worker is held. -/
  held : w.relay.joinable = w.history.foldl Happening.holds false

theorem orderly_ofConfig (config : Config) (sink : σ) : (ofConfig config sink).Orderly config where
  config_eq := rfl
  untouched _ := ⟨rfl, rfl, rfl, nofun, nofun⟩
  accepted h := absurd rfl h
  unspawned _ := rfl
  spawned := Nat.zero_le 1
  started := Nat.le_refl 0
  starting := nofun
  held := rfl

theorem Move.config_eq (h : Move w w') : w'.relay.config = w.relay.config := by
  cases h <;> rfl

/-- The shared state stays once it is there. -/
theorem Move.shared_eq_none (h : Move w w') (hnone : w'.relay.shared = none) :
    w.relay.shared = none := by
  cases h <;> first | exact hnone | cases hnone | exact Option.map_eq_none_iff.mp hnone

/-- An untouched relay answers every call at once, and a call that it does not answer touches it. -/
theorem Untouched.move (hw : w.Untouched config) (h : Move w w')
    (hnone : w'.relay.shared = none) : w'.Untouched config := by
  obtain ⟨hrelay, hstage, hconduct, hanswers, hstarts⟩ := hw
  cases h with
  | reply hfree hreplies =>
      rw [hrelay] at hreplies
      obtain ⟨hidle, hcall⟩ := hreplies.idle
      refine ⟨hrelay, hstage, hconduct, fun given hmem => ?_, fun hok hmem => ?_⟩
      · rcases List.mem_append.mp hmem with hold | hnew
        · exact hanswers given hold
        · obtain rfl : given = _ := by simpa using hnew
          exact hidle
      · rcases List.mem_append.mp hmem with hold | hnew
        · exact hstarts hok hold
        · exact hcall hok (by simpa [eq_comm] using hnew)
  | drop conduct hfree hcases =>
      refine ⟨hrelay, hstage, ?_, fun given hmem => hanswers given ?_, fun hok hmem => ?_⟩
      · rcases hcases with ⟨rfl, -⟩ | rfl <;> rfl
      · simpa [record] using hmem
      · exact hstarts hok (by simpa [record] using hmem)
  | part hdropping => exact ⟨by rw [hrelay]; rfl, hstage, rfl, hanswers, hstarts⟩
  | unmanned | spawn => cases hnone
  -- all other moves need a call under way, the handle of a worker or a worker
  | pass conduct hbefore | tell conduct hbefore | report warnings hbefore =>
      cases hconduct.symm.trans hbefore
  | ready hbefore | giveUp hbefore =>
      rw [hbefore] at hconduct
      cases hconduct
  | halt hfree hheld =>
      rw [hrelay] at hheld
      cases hheld
  | bind port hbefore | publish hbefore | look running now hbefore | terminate hbefore =>
      cases hstage.symm.trans hbefore
  | fail habsent => exact absurd hstage habsent
  | turn loop hbefore =>
      rw [hstage] at hbefore
      cases hbefore

/-- A shared state comes from a start that passes the check. -/
theorem Move.accepted (h : Move w w') (hnone : w.relay.shared = none)
    (hsome : w'.relay.shared ≠ none) : w.relay.config.validate = .ok () := by
  have hkept (change : Shared → Shared) : (w.relay.update change).shared = none := by
    rw [Relay.update, hnone, Option.map_none]
  cases h with
  | unmanned _ _ _ hvalid => exact hvalid
  | spawn _ _ hvalid => exact hvalid
  | publish _ hshared => cases hnone.symm.trans hshared
  | giveUp | tell | part | turn | terminate => exact absurd (hkept _) hsome
  | _ => exact absurd hnone hsome

/-- Only a start that creates a worker changes how many were created. -/
theorem Orderly.count_spawned (hw : w.Orderly config) (h : Move w w') :
    w'.history.count .spawned ≤ 1 ∧ (w'.stage = .absent → w'.history.count .spawned = 0) := by
  have hmost := hw.spawned
  have habsent := hw.unspawned
  cases h with
  | spawn hfree hfresh =>
      have hnone : w.history.count .spawned = 0 := habsent (hw.untouched hfresh).stage
      exact ⟨by simp [record, hnone], fun hstage => by cases hstage⟩
  | bind | fail | publish | look | terminate => exact ⟨hmost, fun hstage => by cases hstage⟩
  | turn loop hbefore hafter =>
      refine ⟨hmost, fun hstage => ?_⟩
      rcases hafter with rfl | rfl <;> cases hstage
  | _ => exact ⟨by simpa [record, answer] using hmost, by simpa [record, answer] using habsent⟩

/-- A start that returns uses up the worker that it created. -/
theorem Orderly.count_started (hw : w.Orderly config) (h : Move w w') :
    w'.history.count (.returned .started) ≤ w'.history.count .spawned ∧
      (w'.conduct.call? = some .start →
        w'.history.count (.returned .started) < w'.history.count .spawned) := by
  have hstarted := hw.started
  have hstarting := hw.starting
  cases h with
  | reply hfree hreplies =>
      cases hreplies <;>
        exact ⟨by simpa [record] using hstarted, by simpa [record] using hstarting⟩
  | unmanned => exact ⟨by simpa [record] using hstarted, by simpa [record] using hstarting⟩
  | spawn =>
      have hfewer := Nat.lt_succ_of_le hstarted
      exact ⟨by simpa [record] using Nat.le_of_lt hfewer, fun _ => by simpa [record] using hfewer⟩
  | pass conduct hbefore hafter =>
      exact ⟨hstarted, fun hcall => hstarting (hbefore.trans (hafter.symm.trans hcall))⟩
  | ready hbefore =>
      have hfewer : _ + 1 ≤ _ := hstarting (by rw [hbefore]; rfl)
      exact ⟨by simpa [record, answer] using hfewer, fun hcall => by cases hcall⟩
  | giveUp => exact ⟨by simpa [record, answer] using hstarted, fun hcall => by cases hcall⟩
  | halt => exact ⟨by simpa [record] using hstarted, fun hcall => by cases hcall⟩
  | tell conduct _ hafter =>
      refine ⟨hstarted, fun hcall => ?_⟩
      cases hafter.symm.trans hcall
  | report => exact ⟨by simpa [record, answer] using hstarted, fun hcall => by cases hcall⟩
  | drop conduct _ hcases =>
      refine ⟨by simpa [record] using hstarted, fun hcall => ?_⟩
      rcases hcases with ⟨rfl, -⟩ | rfl <;> cases hcall
  | part => exact ⟨hstarted, fun hcall => by cases hcall⟩
  | bind | fail | publish | look | turn | terminate => exact ⟨hstarted, hstarting⟩

theorem Orderly.shared_of_joinable (hw : w.Orderly config) (hheld : w.relay.joinable = true) :
    w.relay.shared ≠ none := by
  intro hnone
  rw [(hw.untouched hnone).relay] at hheld
  cases hheld

theorem Orderly.shared_of_call (hw : w.Orderly config) {call : Call}
    (hcall : w.conduct.call? = some call) : w.relay.shared ≠ none := by
  intro hnone
  cases hcall.symm.trans (hw.untouched hnone).conduct

theorem Orderly.joinable_of_takeWorker?_eq_none (hw : w.Orderly config)
    (h : w.relay.takeWorker? = none) : w.relay.joinable = false := by
  refine Bool.eq_false_iff.mpr fun hheld => ?_
  obtain ⟨shared, hshared⟩ := Option.ne_none_iff_exists'.mp (hw.shared_of_joinable hheld)
  rw [Relay.takeWorker?_of_joinable hshared hheld] at h
  cases h

/-- The handle is held from the creation of the worker until a call for a stop. -/
theorem Orderly.joinable_eq (hw : w.Orderly config) (h : Move w w') :
    w'.relay.joinable = w'.history.foldl Happening.holds false := by
  have hheld := hw.held
  cases h with
  | reply hfree hreplies =>
      cases hreplies with
      | stop htake =>
          have hnone := hw.joinable_of_takeWorker?_eq_none htake
          simpa [record, Happening.holds] using hnone
      | start | isRunning | port => simpa [record, Happening.holds] using hheld
  | unmanned _ _ hfresh =>
      have hnone : w.relay.joinable = false := by rw [(hw.untouched hfresh).relay]
      simpa [record, Happening.holds, hnone] using hheld
  | spawn => simp [record, Happening.holds]
  | halt => simp [record, Happening.holds]
  | _ => simpa [record, answer, Happening.holds] using hheld

theorem Orderly.move (hw : w.Orderly config) (h : Move w w') : w'.Orderly config where
  config_eq := h.config_eq.trans hw.config_eq
  untouched hnone := (hw.untouched (h.shared_eq_none hnone)).move h hnone
  accepted hsome := by
    by_cases hnone : w.relay.shared = none
    · exact hw.config_eq ▸ h.accepted hnone hsome
    · exact hw.accepted hnone
  unspawned := (hw.count_spawned h).2
  spawned := (hw.count_spawned h).1
  started := (hw.count_started h).1
  starting := (hw.count_started h).2
  held := hw.joinable_eq h

/-- Every run leaves the relay in order. -/
theorem orderly_run (config : Config) (sink : Sink σ) (kept : σ) (schedule : List Action) :
    ((ofConfig config kept).run sink schedule).Orderly config :=
  run_induction (fun h hw => hw.move h) sink schedule (orderly_ofConfig config kept)

/-- A handle that was given up does not come back. -/
theorem Move.joinable_eq_false (h : Move w w')
    (hw : w.relay.shared ≠ none ∧ w.relay.joinable = false) :
    w'.relay.shared ≠ none ∧ w'.relay.joinable = false := by
  refine ⟨fun hnone => hw.1 (h.shared_eq_none hnone), ?_⟩
  cases h with
  | spawn _ hfresh => exact absurd hfresh hw.1
  | unmanned | halt => rfl
  | _ => exact hw.2

/-- A relay whose shared state is there refuses every further start. -/
theorem start_of_shared (hfree : w.conduct = .free) (hsome : w.relay.shared ≠ none)
    (fault : Option SystemFault) :
    w.start fault = w.record [.called .start, .returned (.notStarted .alreadyStarted)] := by
  obtain ⟨shared, hshared⟩ := Option.ne_none_iff_exists'.mp hsome
  have hspawn : w.relay.spawn = .error .alreadyStarted := by
    unfold Relay.spawn
    rw [hshared]
  unfold start
  rw [hspawn]
  exact answer_record hfree ..

/-- A relay with a refused configuration refuses every start. -/
theorem start_of_refused {fault : ConfigFault} (hfree : w.conduct = .free)
    (hnone : w.relay.shared = none) (hfault : w.relay.config.validate = .error fault)
    (thread : Option SystemFault) :
    w.start thread = w.record [.called .start, .returned (.notStarted (.invalidConfig fault))] := by
  have hspawn : w.relay.spawn = .error (.invalidConfig fault) := by
    unfold Relay.spawn
    rw [hnone, hfault]
  unfold start
  rw [hspawn]
  exact answer_record hfree ..

/-- A stop without the handle of a worker returns at once and changes nothing. -/
theorem stop_of_takeWorker?_eq_none (hfree : w.conduct = .free)
    (htake : w.relay.takeWorker? = none) :
    w.stop = w.record [.called .stop, .returned (.stopped [])] := by
  unfold stop
  rw [htake]
  exact answer_record hfree ..

theorem step_start (sink : Sink σ) (hfree : w.conduct = .free) (fault : Option SystemFault) :
    w.step sink (.start fault) = w.start fault := by
  simp only [step, whenFree, hfree]

theorem step_stop (sink : Sink σ) (hfree : w.conduct = .free) : w.step sink .stop = w.stop := by
  simp only [step, whenFree, hfree]

theorem isRunning_iff (w : Life σ) :
    w.relay.isRunning = true ↔ w.relay.joinable = true ∧ w.relay.shared ≠ none ∧
      w.flag Shared.terminated = false := by
  unfold Relay.isRunning flag
  cases w.relay.shared <;> simp

/-- The life of a relay, for every order of calls and every step of the worker between them. -/
theorem run_lifecycle (config : Config) (sink : Sink σ) (kept : σ) (schedule : List Action) :
    let w := (ofConfig config kept).run sink schedule
    w.history.count .spawned ≤ 1 ∧
    w.history.count (.returned .started) ≤ 1 ∧
    (∀ fault, config.validate = .error fault →
      w.relay = { config := config } ∧ w.stage = .absent ∧ w.relay.isRunning = false ∧
      (∀ answer, .returned answer ∈ w.history →
        answer ∈ [.notStarted (.invalidConfig fault), .stopped [], .running false,
          .port config.port]) ∧
      (w.conduct = .free → ∀ thread, w.step sink (.start thread) =
        w.record [.called .start, .returned (.notStarted (.invalidConfig fault))])) ∧
    (config.validate = .ok () → .called .start ∈ w.history → w.conduct = .free →
      ∀ thread, w.step sink (.start thread) =
        w.record [.called .start, .returned (.notStarted .alreadyStarted)]) ∧
    (w.relay.isRunning = true ↔ w.flag Shared.terminated = false ∧
      ∃ before after, w.history = before ++ .spawned :: after ∧ .called .stop ∉ after) ∧
    (w.conduct = .free → w.relay.takeWorker? ≠ none →
      ∀ later, ((w.step sink .stop).run sink later).relay.isRunning = false) ∧
    (w.conduct = .free → w.relay.takeWorker? = none →
      w.step sink .stop = w.record [.called .stop, .returned (.stopped [])]) := by
  intro w
  have hw : w.Orderly config := orderly_run config sink kept schedule
  refine ⟨hw.spawned, Nat.le_trans hw.started hw.spawned, fun fault hfault => ?refused,
    fun hvalid hcalled hfree thread => ?again, ?running, fun hfree htake later => ?stopped,
    fun hfree htake => ?idle⟩
  case refused =>
    have hnone : w.relay.shared = none := by
      by_contra hsome
      rw [hw.accepted hsome] at hfault
      cases hfault
    have hidle := hw.untouched hnone
    refine ⟨hidle.relay, hidle.stage, by rw [hidle.relay]; rfl, fun answer hmem => ?_,
      fun hfree thread => ?_⟩
    · obtain rfl | rfl | rfl | ⟨found, hfound, rfl⟩ := hidle.answers answer hmem
      · simp
      · simp
      · simp
      · rw [hfault] at hfound
        cases hfound
        simp
    · rw [step_start sink hfree]
      exact start_of_refused hfree hnone (hw.config_eq ▸ hfault) thread
  case again =>
    have hsome : w.relay.shared ≠ none := fun hnone =>
      (hw.untouched hnone).starts hvalid hcalled
    rw [step_start sink hfree]
    exact start_of_shared hfree hsome thread
  case running =>
    rw [isRunning_iff, ← Happening.foldl_holds_iff, ← hw.held]
    exact ⟨fun h => ⟨h.2.2, h.1⟩, fun h => ⟨h.2, hw.shared_of_joinable h.2, h.1⟩⟩
  case stopped =>
    obtain ⟨⟨shared, taken⟩, htaken⟩ := Option.ne_none_iff_exists'.mp htake
    have hstopped : w.stop.relay = taken := by
      unfold stop
      rw [htaken]
    obtain ⟨hheld, rfl⟩ := Relay.takeWorker?_eq_some htaken
    have hgone := run_induction Move.joinable_eq_false sink later (w := w.stop) ?_
    · rw [step_stop sink hfree]
      exact Relay.isRunning_of_not_joinable hgone.2
    · rw [hstopped]
      exact ⟨hw.shared_of_joinable hheld, rfl⟩
  case idle =>
    rw [step_stop sink hfree]
    exact stop_of_takeWorker?_eq_none hfree htake

/-- A relay is stopped while its sink is at work, and refuses to start again. -/
example :
    let w := (ofConfig (Config.default 4510) ()).run ⟨fun _ _ => ((), .taken)⟩
      [.start none, .bind (some 4510), .publish, .proceed 0, .look 0, .isRunning, .stop,
        .proceed 0, .proceed 0, .proceed 0, .isRunning, .proceed 0, .proceed 0, .proceed 0,
        .isRunning, .start none]
    w.history = [.called .start, .spawned, .returned .started, .called .isRunning,
      .returned (.running true), .called .stop, .returned (.stopped
        [.sentinelTimeout (.ofSeconds 5), .joinTimeout (.ofSeconds 12)]), .called .isRunning,
      .returned (.running false), .called .start, .returned (.notStarted .alreadyStarted)] := by
  decide +kernel

end Life

end LogRelay
