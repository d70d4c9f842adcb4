import LogRelay.Config

/-!
# Bounds of accepted configurations

In a configuration that passes the check every wait is positive and at most a day long, so that sums
of a few waits do not reach the longest duration.
-/

namespace LogRelay.Config

variable {config : Config}

theorem mem_all (timeout : Timeout) : timeout ∈ Timeout.all := by
  cases timeout <;> decide

theorem fault?_of_validate (h : config.validate = .ok ()) : config.fault? = none := by
  unfold validate at h
  split at h
  · cases h
  · assumption

theorem timeoutFault?_of_validate (h : config.validate = .ok ()) (timeout : Timeout) :
    timeoutFault? config.timeouts timeout = none := by
  have hfault := fault?_of_validate h
  unfold fault? at hfault
  split at hfault
  · cases hfault
  · split at hfault
    · cases hfault
    · split at hfault
      · cases hfault
      · exact List.findSome?_eq_none_iff.mp hfault timeout (mem_all timeout)

/-- The bounds of a single wait. -/
theorem nanos_of_validate (h : config.validate = .ok ()) (timeout : Timeout) :
    0 < (config.timeouts.get timeout).nanos ∧
      (config.timeouts.get timeout).nanos ≤ maxTimeout.nanos := by
  have hfault := timeoutFault?_of_validate h timeout
  unfold timeoutFault? at hfault
  split at hfault
  · cases hfault
  · next hzero =>
    split at hfault
    · cases hfault
    · next hlong =>
      constructor
      · refine Nat.pos_of_ne_zero fun hnanos => hzero ?_
        exact congrArg Duration.mk hnanos
      · exact Nat.le_of_not_lt hlong

/-! ## Configurations with the default waits -/

theorem isEmpty_trimChars_defaultHost :
    (Text.trimChars Address.defaultHost.toList).isEmpty = false := by
  decide +kernel

theorem findSome?_timeoutFault?_default :
    Timeout.all.findSome? (timeoutFault? {}) = none := by
  decide +kernel

/-- With the default waits and a host that is not blank only the queue depth can be at fault. -/
theorem fault?_of_default_timeouts
    (hhost : (Text.trimChars config.host.toList).isEmpty = false)
    (htimeouts : config.timeouts = {}) :
    config.fault? =
      if config.depth = 0 then some .zeroDepth
      else if maxDepth < config.depth then some .oversizedDepth
      else none := by
  rw [fault?, hhost, htimeouts, findSome?_timeoutFault?_default, if_neg Bool.false_ne_true]

/-- The defaults pass the check. -/
theorem validate_default (port : UInt16) : (default port).validate = .ok () := by
  have hhost : (Text.trimChars (default port).host.toList).isEmpty = false :=
    isEmpty_trimChars_defaultHost
  have hfault : (default port).fault? = none := by
    rw [fault?_of_default_timeouts hhost rfl]
    simp [default, defaultDepth, maxDepth]
  rw [validate, hfault]

end LogRelay.Config
