import LogRelay.Proofs.Config.Bounds
import LogRelay.Proofs.Text.Numerals
import LogRelay.Proofs.Text.Trimming

/-!
# Configurations from environments

Each variable speaks for one field only. Its text counts without the blanks around it; a text that
spells a value sets the field, and any other leaves the default, except that a level has to be one
of the known words. Of the configurations that arise in this way only those with an unusable queue
depth are refused by the check.
-/

namespace LogRelay

/-! ## What one variable says -/

namespace Setting

variable {α : Type} {setting : Setting} {core : String}

/-- The variable holds a text that is the core with blanks around it. -/
def Holds (setting : Setting) (core : String) : Prop :=
  ∃ s, setting = .text s ∧ Text.Trims s.toList core.toList

theorem trimmed?_eq_some_iff : setting.trimmed? = some core ↔ setting.Holds core := by
  cases setting with
  | text s =>
      have htrim : Text.trim s = core ↔ Text.Trims s.toList core.toList := by
        rw [Text.trims_iff, ← String.toList_inj, Text.trim, String.toList_ofList]
      rw [trimmed?, Option.some.injEq, htrim]
      exact ⟨fun h => ⟨s, rfl, h⟩, fun ⟨_, hs, h⟩ => by cases hs; exact h⟩
  | unset => exact ⟨fun h => (nomatch h), fun ⟨_, hs, _⟩ => (nomatch hs)⟩
  | binary => exact ⟨fun h => (nomatch h), fun ⟨_, hs, _⟩ => (nomatch hs)⟩

/-- The value of a field: what the text of its variable spells, or the default if the variable holds
no text that spells anything. -/
inductive Gives (setting : Setting) (Spells : String → α → Prop) (default : α) : α → Prop
  | spelled {core : String} {a : α} (holds : setting.Holds core) (spells : Spells core a) :
      Gives setting Spells default a
  | kept (silent : ∀ core a, setting.Holds core → ¬Spells core a) :
      Gives setting Spells default default

theorem gives_iff {Spells : String → α → Prop} {read? : String → Option α} {default a : α}
    (hread : ∀ core a, read? core = some a ↔ Spells core a) :
    setting.Gives Spells default a ↔ (setting.trimmed?.bind read?).getD default = a := by
  cases hfound : setting.trimmed?.bind read? with
  | none =>
      have hsilent : ∀ core a, setting.Holds core → ¬Spells core a := by
        intro core a holds spells
        rw [trimmed?_eq_some_iff.mpr holds, Option.bind_some, (hread core a).mpr spells] at hfound
        cases hfound
      constructor
      · intro gives
        cases gives with
        | spelled holds spells => exact absurd spells (hsilent _ _ holds)
        | kept => rfl
      · rintro rfl
        exact .kept hsilent
  | some found =>
      obtain ⟨core, htrim, hcore⟩ := Option.bind_eq_some_iff.mp hfound
      have holds := trimmed?_eq_some_iff.mp htrim
      constructor
      · intro gives
        cases gives with
        | spelled holds' spells =>
            rw [trimmed?_eq_some_iff.mpr holds', Option.bind_some, (hread _ a).mpr spells] at hfound
            exact (Option.some.inj hfound).symm
        | kept silent => exact absurd ((hread core found).mp hcore) (silent core found holds)
      · rintro rfl
        exact .spelled holds ((hread core found).mp hcore)

end Setting

/-! ## Levels -/

namespace Level

/-- The words that name levels. -/
def words : List (String × Level) :=
  [("trace", .trace), ("debug", .debug), ("info", .info), ("warn", .warning),
    ("warning", .warning), ("error", .error), ("critical", .critical), ("fatal", .critical)]

theorem ofWord?_eq_some_iff {word : String} {level : Level} :
    ofWord? word = some level ↔ (word, level) ∈ words := by
  constructor
  · intro h
    rw [ofWord?] at h
    split_ifs at h <;> cases h <;> simp_all [words]
  · intro h
    have htable : ∀ named ∈ words, ofWord? named.1 = some named.2 := by decide
    exact htable _ h

/-- The text in which every capital letter of ASCII is a small one. -/
def lower (s : String) : String :=
  String.ofList (s.toList.map Char.toLower)

theorem parse_eq {s core : String} (h : Text.Trims s.toList core.toList) :
    parse s = match ofWord? (lower core) with
      | some level => .ok level
      | none => .error ⟨lower core⟩ := by
  rw [parse, h.trimChars_eq]
  rfl

end Level

/-! ## Whole environments -/

namespace Environment

/-- The word stands in the variable of the level, in capital or small letters, and names none. -/
def NamesNoLevel (env : Environment) (word : String) : Prop :=
  ∃ core, env.level.Holds core ∧ Level.lower core = word ∧ ∀ level, (word, level) ∉ Level.words

/-- The variable of the queue depth holds a numeral of the number, which has at most sixty-four
bits. -/
def SetsDepth (env : Environment) (n : Nat) : Prop :=
  ∃ core, env.depth.Holds core ∧ Text.Numeral n core ∧ n < 2 ^ 64

/-- Why an environment is refused. The level comes first. -/
inductive Refuses (env : Environment) : ConfigFault → Prop
  | level {word : String} (unnamed : env.NamesNoLevel word) : Refuses env (.unknownLevel ⟨word⟩)
  | zero (named : ∀ word, ¬env.NamesNoLevel word) (depth : env.SetsDepth 0) :
      Refuses env .zeroDepth
  | oversized {n : Nat} (named : ∀ word, ¬env.NamesNoLevel word) (depth : env.SetsDepth n)
      (large : Config.maxDepth < n) : Refuses env .oversizedDepth

/-- Each field of a configuration is given by its own variable; the waits are not configured. -/
structure Describes (env : Environment) (unusedPort : UInt16) (config : Config) : Prop where
  host : env.host.Gives (fun core host => core ≠ "" ∧ core = host) Address.defaultHost config.host
  port : env.port.Gives (fun core port => Text.Numeral port.toNat core) unusedPort config.port
  level : env.level.Gives (fun core level => (Level.lower core, level) ∈ Level.words)
    Config.defaultLevel config.level
  depth : env.depth.Gives (fun core n => Text.Numeral n core ∧ n < 2 ^ 64) Config.defaultDepth
    config.depth
  timeouts : config.timeouts = {}

variable {env : Environment} {unusedPort : UInt16} {config : Config} {level : Option Level}
  {fault : ConfigFault}

/-! ## One field after another -/

theorem gives_host_iff {host : String} :
    env.host.Gives (fun core host => core ≠ "" ∧ core = host) Address.defaultHost host ↔
      env.host?.getD Address.defaultHost = host := by
  have hread : ∀ core host : String,
      Option.guard (· ≠ "") core = some host ↔ core ≠ "" ∧ core = host := by
    intro core host
    rw [Option.guard_eq_some_iff, decide_eq_true_eq, and_comm]
  rw [Setting.gives_iff hread, Option.bind_guard]
  rfl

theorem gives_port_iff {port : UInt16} :
    env.port.Gives (fun core port => Text.Numeral port.toNat core) unusedPort port ↔
      env.port?.getD unusedPort = port :=
  Setting.gives_iff fun _ _ => Text.readUInt16?_eq_some_iff

theorem gives_depth_iff {n : Nat} :
    env.depth.Gives (fun core n => Text.Numeral n core ∧ n < 2 ^ 64) Config.defaultDepth n ↔
      env.depth?.getD Config.defaultDepth = n :=
  Setting.gives_iff fun _ _ => Text.readBelow?_eq_some_iff

theorem level?_of_holds {core : String} (h : env.level.Holds core) :
    env.level? = match Level.ofWord? (Level.lower core) with
      | some level => .ok (some level)
      | none => .error ⟨Level.lower core⟩ := by
  obtain ⟨s, htext, htrims⟩ := h
  rw [level?, htext]
  dsimp only
  rw [Level.parse_eq htrims]
  cases Level.ofWord? (Level.lower core) with
  | none => rfl
  | some level => rfl

theorem level?_of_silent (h : ∀ core, ¬env.level.Holds core) : env.level? = .ok none := by
  rw [level?]
  split
  · next s htext =>
    refine absurd ⟨s, htext, ?_⟩ (h (Text.trim s))
    rw [Text.trim, String.toList_ofList]
    exact Text.trims_trimChars s.toList
  · rfl
  · rfl

theorem level?_eq_error_iff {fault : UnknownLevel} :
    env.level? = .error fault ↔ env.NamesNoLevel fault.name := by
  constructor
  · intro h
    by_cases holds : ∃ core, env.level.Holds core
    · obtain ⟨core, holds⟩ := holds
      rw [level?_of_holds holds] at h
      split at h
      · cases h
      · next hword =>
        cases h
        refine ⟨core, holds, rfl, fun level named => ?_⟩
        rw [Level.ofWord?_eq_some_iff.mpr named] at hword
        cases hword
    · rw [level?_of_silent (not_exists.mp holds)] at h
      cases h
  · rintro ⟨core, holds, hlower, unnamed⟩
    rw [level?_of_holds holds, hlower]
    split
    · next level hword => exact absurd (Level.ofWord?_eq_some_iff.mp hword) (unnamed level)
    · rfl

theorem gives_level_iff (h : env.level? = .ok level) {l : Level} :
    env.level.Gives (fun core level => (Level.lower core, level) ∈ Level.words)
      Config.defaultLevel l ↔ level.getD Config.defaultLevel = l := by
  have hlevel : env.level.trimmed?.bind (fun core => Level.ofWord? (Level.lower core)) = level := by
    cases htrim : env.level.trimmed? with
    | none =>
        have hsilent : ∀ core, ¬env.level.Holds core := fun core holds => by
          rw [Setting.trimmed?_eq_some_iff.mpr holds] at htrim
          cases htrim
        rw [level?_of_silent hsilent] at h
        exact Except.ok.inj h
    | some core =>
        rw [level?_of_holds (Setting.trimmed?_eq_some_iff.mp htrim)] at h
        rw [Option.bind_some]
        split at h
        · next found hword => exact hword.trans (Except.ok.inj h)
        · cases h
  rw [Setting.gives_iff fun _ _ => Level.ofWord?_eq_some_iff, hlevel]

theorem depth?_eq_some_iff {n : Nat} : env.depth? = some n ↔ env.SetsDepth n := by
  simp only [depth?, Option.bind_eq_some_iff, Setting.trimmed?_eq_some_iff,
    Text.readBelow?_eq_some_iff, SetsDepth]

/-- The configuration that the fields of an environment make up. -/
def draft (env : Environment) (unusedPort : UInt16) (level : Option Level) : Config where
  host := env.host?.getD Address.defaultHost
  port := env.port?.getD unusedPort
  level := level.getD Config.defaultLevel
  depth := env.depth?.getD Config.defaultDepth
  timeouts := {}

theorem describes_iff (h : env.level? = .ok level) :
    env.Describes unusedPort config ↔ env.draft unusedPort level = config := by
  constructor
  · rintro ⟨host, port, hlevel, depth, timeouts⟩
    cases config
    cases gives_host_iff.mp host
    cases gives_port_iff.mp port
    cases (gives_level_iff h).mp hlevel
    cases gives_depth_iff.mp depth
    cases timeouts
    rfl
  · rintro rfl
    exact ⟨gives_host_iff.mpr rfl, gives_port_iff.mpr rfl, (gives_level_iff h).mpr rfl,
      gives_depth_iff.mpr rfl, rfl⟩

theorem Describes.isEmpty_trimChars (h : env.Describes unusedPort config) :
    (Text.trimChars config.host.toList).isEmpty = false := by
  have hgives := h.host
  generalize config.host = host at hgives
  cases hgives with
  | @spelled core _ holds spells =>
      obtain ⟨hne, rfl⟩ := spells
      obtain ⟨s, -, htrims⟩ := holds
      rw [← htrims.trimChars_eq, Text.trimChars_trimChars, htrims.trimChars_eq,
        List.isEmpty_eq_false_iff]
      exact fun hnil => hne (String.toList_inj.mp hnil)
  | kept => exact Config.isEmpty_trimChars_defaultHost

theorem depth_of_setsDepth {n : Nat} (h : env.SetsDepth n) :
    env.depth?.getD Config.defaultDepth = n := by
  rw [depth?_eq_some_iff.mpr h, Option.getD_some]

/-- A depth that is not the default one is due to the variable. -/
theorem setsDepth_of_ne (h : env.depth?.getD Config.defaultDepth ≠ Config.defaultDepth) :
    env.SetsDepth (env.depth?.getD Config.defaultDepth) := by
  rw [← depth?_eq_some_iff]
  cases hdepth : env.depth? with
  | none =>
      rw [hdepth] at h
      exact absurd rfl h
  | some n => rw [Option.getD_some]

/-! ## Refused and accepted environments -/

theorem exists_level? (named : ∀ word, ¬env.NamesNoLevel word) :
    ∃ level, env.level? = .ok level := by
  cases hlevel : env.level? with
  | error unknown => exact absurd (level?_eq_error_iff.mp hlevel) (named _)
  | ok level => exact ⟨level, rfl⟩

theorem fault?_draft (h : env.level? = .ok level) :
    (env.draft unusedPort level).fault? =
      if env.depth?.getD Config.defaultDepth = 0 then some .zeroDepth
      else if Config.maxDepth < env.depth?.getD Config.defaultDepth then some .oversizedDepth
      else none := by
  have describes : env.Describes unusedPort (env.draft unusedPort level) :=
    (describes_iff h).mpr rfl
  exact Config.fault?_of_default_timeouts describes.isEmpty_trimChars rfl

theorem ofEnvironment_of_fault (h : env.level? = .ok level)
    (hfault : (env.draft unusedPort level).fault? = some fault) :
    Config.ofEnvironment unusedPort env = .error fault := by
  have hvalidate : (env.draft unusedPort level).validate = .error fault := by
    rw [Config.validate, hfault]
  rw [draft] at hvalidate
  simp only [Config.ofEnvironment, h, hvalidate]

theorem ofEnvironment_of_valid (h : env.level? = .ok level)
    (hvalidate : (env.draft unusedPort level).validate = .ok ()) :
    Config.ofEnvironment unusedPort env = .ok (env.draft unusedPort level) := by
  rw [draft] at hvalidate ⊢
  simp only [Config.ofEnvironment, h, hvalidate]

theorem ofEnvironment_of_refuses (h : env.Refuses fault) :
    Config.ofEnvironment unusedPort env = .error fault := by
  cases h with
  | @level word unnamed =>
      have hlevel : env.level? = .error ⟨word⟩ := level?_eq_error_iff.mpr unnamed
      rw [Config.ofEnvironment, hlevel]
  | zero named depth =>
      obtain ⟨level, hlevel⟩ := exists_level? named
      apply ofEnvironment_of_fault hlevel
      rw [fault?_draft hlevel, depth_of_setsDepth depth, if_pos rfl]
  | oversized named depth large =>
      obtain ⟨level, hlevel⟩ := exists_level? named
      apply ofEnvironment_of_fault hlevel
      rw [fault?_draft hlevel, depth_of_setsDepth depth, if_neg (Nat.ne_zero_of_lt large),
        if_pos large]

/-- The depth of an environment that is not refused is neither zero nor too large, because the
default one is not. -/
theorem depth_of_accepted (accepted : ∀ fault, ¬env.Refuses fault) :
    env.depth?.getD Config.defaultDepth ≠ 0 ∧
      ¬Config.maxDepth < env.depth?.getD Config.defaultDepth := by
  have named : ∀ word, ¬env.NamesNoLevel word := fun word unnamed => accepted _ (.level unnamed)
  constructor
  · intro hzero
    refine accepted _ (.zero named (hzero ▸ setsDepth_of_ne ?_))
    rw [hzero]
    decide
  · intro large
    refine accepted _ (.oversized named (setsDepth_of_ne fun hdefault => ?_) large)
    rw [hdefault] at large
    exact absurd large (by decide)

theorem exists_ofEnvironment_of_accepted (accepted : ∀ fault, ¬env.Refuses fault) :
    ∃ level, env.level? = .ok level ∧ (env.draft unusedPort level).validate = .ok () ∧
      Config.ofEnvironment unusedPort env = .ok (env.draft unusedPort level) := by
  obtain ⟨level, hlevel⟩ := exists_level? fun word unnamed => accepted _ (.level unnamed)
  obtain ⟨hzero, hlarge⟩ := depth_of_accepted accepted
  have hvalidate : (env.draft unusedPort level).validate = .ok () := by
    rw [Config.validate, fault?_draft hlevel, if_neg hzero, if_neg hlarge]
  exact ⟨level, hlevel, hvalidate, ofEnvironment_of_valid hlevel hvalidate⟩

theorem ofEnvironment_eq_error_iff :
    Config.ofEnvironment unusedPort env = .error fault ↔ env.Refuses fault := by
  refine ⟨fun h => ?_, ofEnvironment_of_refuses⟩
  by_cases accepted : ∀ fault, ¬env.Refuses fault
  · obtain ⟨level, -, -, hok⟩ := exists_ofEnvironment_of_accepted accepted
    rw [hok] at h
    cases h
  · obtain ⟨found, refuses⟩ := not_forall_not.mp accepted
    rw [ofEnvironment_of_refuses refuses] at h
    cases h
    exact refuses

theorem not_refuses_of_ofEnvironment (h : Config.ofEnvironment unusedPort env = .ok config) :
    ∀ fault, ¬env.Refuses fault := by
  intro fault refuses
  rw [ofEnvironment_of_refuses refuses] at h
  cases h

theorem ofEnvironment_eq_ok_iff :
    Config.ofEnvironment unusedPort env = .ok config ↔
      (∀ fault, ¬env.Refuses fault) ∧ env.Describes unusedPort config := by
  constructor
  · intro h
    have accepted := not_refuses_of_ofEnvironment h
    obtain ⟨level, hlevel, -, hok⟩ := exists_ofEnvironment_of_accepted accepted
    rw [describes_iff hlevel]
    exact ⟨accepted, Except.ok.inj (hok.symm.trans h)⟩
  · rintro ⟨accepted, describes⟩
    obtain ⟨level, hlevel, -, hok⟩ := exists_ofEnvironment_of_accepted accepted
    rw [hok, (describes_iff hlevel).mp describes]

theorem validate_of_ofEnvironment (h : Config.ofEnvironment unusedPort env = .ok config) :
    config.validate = .ok () := by
  obtain ⟨level, -, hvalidate, hok⟩ :=
    exists_ofEnvironment_of_accepted (not_refuses_of_ofEnvironment h)
  rw [hok] at h
  cases h
  exact hvalidate

theorem exists_refuses_iff :
    (∃ fault, env.Refuses fault) ↔
      (∃ word, env.NamesNoLevel word) ∨
        ∃ n, env.SetsDepth n ∧ (n = 0 ∨ Config.maxDepth < n) := by
  constructor
  · rintro ⟨fault, refuses⟩
    cases refuses with
    | level unnamed => exact .inl ⟨_, unnamed⟩
    | zero _ depth => exact .inr ⟨0, depth, .inl rfl⟩
    | oversized _ depth large => exact .inr ⟨_, depth, .inr large⟩
  · intro h
    by_cases unnamed : ∃ word, env.NamesNoLevel word
    · exact ⟨_, .level unnamed.choose_spec⟩
    · obtain ⟨n, depth, hn⟩ := h.resolve_left unnamed
      rcases hn with rfl | large
      · exact ⟨_, .zero (not_exists.mp unnamed) depth⟩
      · exact ⟨_, .oversized (not_exists.mp unnamed) depth large⟩

end Environment

/-- An environment is refused exactly if its level is a text that names none, or its queue depth is
a numeral of at most sixty-four bits that is zero or too large; the level is reported first. From
any other comes the configuration in which each variable gives its own field, or leaves the default
of that field, and which passes the check. -/
theorem Config.ofEnvironment_accepts (unusedPort : UInt16) (env : Environment) :
    ((∃ fault, ofEnvironment unusedPort env = .error fault) ↔
        (∃ word, env.NamesNoLevel word) ∨ ∃ n, env.SetsDepth n ∧ (n = 0 ∨ maxDepth < n)) ∧
      (∀ fault, ofEnvironment unusedPort env = .error fault ↔ env.Refuses fault) ∧
      (∀ config, ofEnvironment unusedPort env = .ok config ↔
        (∀ fault, ¬env.Refuses fault) ∧ env.Describes unusedPort config) ∧
      ∀ config, ofEnvironment unusedPort env = .ok config → config.validate = .ok () := by
  refine ⟨?_, fun fault => Environment.ofEnvironment_eq_error_iff,
    fun config => Environment.ofEnvironment_eq_ok_iff,
    fun config => Environment.validate_of_ofEnvironment⟩
  rw [← Environment.exists_refuses_iff]
  exact exists_congr fun fault => Environment.ofEnvironment_eq_error_iff

/-- A numeral beyond sixty-four bits leaves the default depth, while the other variables are read
with blanks, a sign, zeros and capital letters. -/
theorem Config.ofEnvironment_accepts_long_numeral :
    ofEnvironment 4510
        ⟨.text " ::1\t", .text "+0080", .text "Fatal\n", .text "18446744073709551616"⟩ =
      .ok ⟨"::1", 80, .critical, defaultDepth, {}⟩ ∧
    Config.validate ⟨"::1", 80, .critical, defaultDepth, {}⟩ = .ok () := by
  have haccepted : ofEnvironment 4510
      ⟨.text " ::1\t", .text "+0080", .text "Fatal\n", .text "18446744073709551616"⟩ =
        .ok ⟨"::1", 80, .critical, defaultDepth, {}⟩ :=
    rfl
  exact ⟨haccepted, (ofEnvironment_accepts _ _).2.2.2 _ haccepted⟩

end LogRelay
