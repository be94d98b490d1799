import VllmScheduler.Scheduler.Steps
/-!
# Hot reload of the SJF scheduler

`on_reload` of `python/scheduler/sjf_scheduler.py`. The dictionary it is
given may hold anything: `AgingConfig(**…)` refuses what is no mapping and
keys it does not know, and stores the values as they are; `create_aging`
refuses a policy it does not know; the numbers are first used by the aging
loop, which ends with an exception where they are none.

The settings live in several attributes. `aging_config` is assigned before
`create_aging` can refuse it, and `fallback_to_fcfs` is assigned without
`_fcfs_fallback`, which alone is looked at. So a reload is atomic where
nothing is refused after the assignment. It is effective where the new flag
says what `_fcfs_fallback` has been since the construction, and nothing else
tells the scheduler from a new one with the same requests: no failed
prediction has turned it to the fallback, no tick is under way, and its aging
loop has not ended (`AtRest`).
-/

namespace VllmScheduler

variable {Id K : Type}

/-- A value of a configuration dictionary. A key of a nested mapping that is
no string is `none`. -/
inductive ConfigValue (K : Type) where
  | none
  | bool (value : Bool)
  | number (value : K)
  | text (value : String)
  | sequence (items : List (ConfigValue K))
  | mapping (fields : List (Option String × ConfigValue K))

/-- The exceptions of a reload. -/
inductive ConfigError where
  | typeError
  | keyError
deriving DecidableEq

/-- The fields of an `AgingConfig`, which the dataclass does not check. -/
structure RawAgingConfig (K : Type) where
  policy : ConfigValue K
  factor : ConfigValue K
  maxBoost : ConfigValue K
  basePriority : ConfigValue K

/-- What `create_aging` returns: the class and the configuration it keeps. -/
structure RawAging (K : Type) where
  policy : AgingPolicy
  config : RawAgingConfig K

namespace ConfigValue

variable [Field K] [LinearOrder K]

/-- `bool(value)`. -/
def truthy : ConfigValue K → Bool
  | none => false
  | bool b => b
  | number x => x ≠ 0
  | text s => s ≠ ""
  | sequence items => !items.isEmpty
  | mapping fields => !fields.isEmpty

/-- The number arithmetic takes the value for; a `bool` is one. -/
def numeric : ConfigValue K → Option K
  | number x => some x
  | bool b => some (if b then 1 else 0)
  | _ => Option.none

/-- `AgingConfig(**value)`. -/
def agingConfig : ConfigValue K → Except ConfigError (RawAgingConfig K)
  | mapping fields =>
    let names := [some "policy", some "factor", some "max_boost", some "base_priority"]
    if ∀ key ∈ fields.map Prod.fst, key ∈ names then
      .ok
        { policy := (fields.lookup (some "policy")).getD (text "linear")
          factor := (fields.lookup (some "factor")).getD (number (1 / 1000))
          maxBoost := (fields.lookup (some "max_boost")).getD (number 500)
          basePriority := (fields.lookup (some "base_priority")).getD (number 0) }
    else .error .typeError
  | _ => .error .typeError

/-- `mapping[policy]` in `create_aging`. The members of `AgingPolicy` are
strings and are found by their texts; what cannot be hashed is a
`TypeError`. -/
def policy : ConfigValue K → Except ConfigError AgingPolicy
  | text s =>
    if s = "linear" then .ok .linear
    else if s = "logarithmic" then .ok .logarithmic
    else if s = "exponential" then .ok .exponential
    else .error .keyError
  | sequence _ | mapping _ => .error .typeError
  | _ => .error .keyError

end ConfigValue

/-- `create_aging`. -/
def RawAgingConfig.create (config : RawAgingConfig K) :
    Except ConfigError (RawAging K) :=
  config.policy.policy.map (⟨·, config⟩)

/-- The aging function of the object, where its numbers are numbers; otherwise
`boost` raises. -/
def RawAging.function [Field K] (aging : RawAging K) : Option (AgingFunction K) :=
  match aging.config.factor.numeric, aging.config.maxBoost.numeric with
  | some factor, some maxBoost =>
    some (createAging ⟨aging.policy, factor, maxBoost, aging.config.basePriority.numeric.getD 0⟩)
  | _, _ => none

/-- A scheduler with the settings a reload may give it. `scheduler` is the
rest of its state: the aging function in there is not looked at. The aging
object is the one of the configuration, unless `create_aging` has refused
that. -/
@[ext]
structure ReloadableScheduler [LinearOrder K] (H : RequestHeap Id K) where
  scheduler : SJFScheduler H
  agingConfig : RawAgingConfig K
  aging : RawAging K
  /-- An exception has ended the aging loop. -/
  loopEnded : Bool
  created : ∀ made, agingConfig.create = .ok made → made = aging

namespace ReloadableScheduler

variable [DecidableEq Id] [Field K] [LinearOrder K] {H : RequestHeap Id K}

/-- `SJFScheduler.__init__`. -/
def construct (H : RequestHeap Id K) (agingConfig : RawAgingConfig K) (fallbackToFcfs : Bool)
    (timeout : K) : Except ConfigError (ReloadableScheduler H) :=
  match h : agingConfig.create with
  | .error error => .error error
  | .ok aging =>
    .ok
      { scheduler := SJFScheduler.init H (AgingConfig.default K) fallbackToFcfs timeout
        agingConfig := agingConfig
        aging := aging
        loopEnded := false
        created := fun _ hm => Except.ok.inj (hm.symm.trans h) }

/-- The rest of the state changes. -/
def withScheduler (s : ReloadableScheduler H) (scheduler : SJFScheduler H) :
    ReloadableScheduler H :=
  { s with scheduler := scheduler }

/-- The aging loop comes to `boost` next. -/
def BoostsNext (scheduler : SJFScheduler H) : Prop :=
  match scheduler.tickRest with
  | [] => False
  | (_, request) :: _ => ¬ scheduler.TimedOut request

instance (scheduler : SJFScheduler H) : Decidable (BoostsNext scheduler) := by
  unfold BoostsNext
  split <;> infer_instance

variable (M : MathFns K)

/-- The steps of the scheduler, with the aging object it has now. -/
def step (s : ReloadableScheduler H) : SJFOp Id K → ReloadableScheduler H × SJFOut Id K
  | .tick now =>
    if s.loopEnded then (s, .done)
    else (s.withScheduler (s.scheduler.step M (.tick now)).1, (s.scheduler.step M (.tick now)).2)
  | .age =>
    if s.loopEnded then (s, .done)
    else
      match s.aging.function with
      | some aging =>
        let result := SJFScheduler.step M { s.scheduler with aging := aging } .age
        (s.withScheduler result.1, result.2)
      | none =>
        if BoostsNext s.scheduler then
          ({ s with loopEnded := true, scheduler := { s.scheduler with tickRest := [] } }, .done)
        else (s.withScheduler (s.scheduler.step M .age).1, (s.scheduler.step M .age).2)
  | op => (s.withScheduler (s.scheduler.step M op).1, (s.scheduler.step M op).2)

/-- The machine of `step`. -/
def machine (H : RequestHeap Id K) :
    Machine (ReloadableScheduler H) (SJFOp Id K) (SJFOut Id K) where
  step := step M

/-- The part of `on_reload` for the key "aging". -/
def reloadAging (s : ReloadableScheduler H) (value : ConfigValue K) :
    ReloadableScheduler H × Option ConfigError :=
  match value.agingConfig with
  | .error error => (s, some error)
  | .ok config =>
    match h : config.create with
    -- `self.aging_config` has been assigned
    | .error error =>
      ({ s with
          agingConfig := config
          created := fun _ hm => by rw [h] at hm; cases hm }, some error)
    | .ok aging =>
      ({ s with
          agingConfig := config
          aging := aging
          created := fun _ hm => Except.ok.inj (hm.symm.trans h) }, none)

/-- The part for the key "fallback_to_fcfs". -/
def reloadFallback (s : ReloadableScheduler H) (value : ConfigValue K) : ReloadableScheduler H :=
  s.withScheduler { s.scheduler with fallbackToFcfs := value.truthy }

/-- `on_reload`, with the exception it raises. -/
def onReload (s : ReloadableScheduler H) (config : List (String × ConfigValue K)) :
    ReloadableScheduler H × Option ConfigError :=
  let aged :=
    match config.lookup "aging" with
    | none => (s, none)
    | some value => s.reloadAging value
  match aged with
  | (s, some error) => (s, some error)
  | (s, none) =>
    match config.lookup "fallback_to_fcfs" with
    | none => (s, none)
    | some value => (s.reloadFallback value, none)

/-! ## The scheduler with this aging function -/

section Function

variable {M} {s : ReloadableScheduler H} {f : AgingFunction K}

omit [DecidableEq Id] [Field K] in
theorem withAging_self {s : SJFScheduler H} (h : s.aging = f) : { s with aging := f } = s := by
  subst h
  rfl

/-- Only the aging loop looks at the aging function. -/
theorem sjfStep_withAging {s : SJFScheduler H} {op : SJFOp Id K} (hop : op ≠ .age) :
    SJFScheduler.step M { s with aging := f } op =
      ({ (s.step M op).1 with aging := f }, (s.step M op).2) := by
  cases op with
  | submit request prediction now =>
    simp only [SJFScheduler.step, SJFScheduler.submit, SJFScheduler.afterPrediction]
    by_cases hz : request.predictedTokens = 0
    · rcases prediction with - | pred <;>
        simp only [if_pos hz, SJFScheduler.activeFallback] <;>
        split <;> rfl
    · simp only [if_neg hz, SJFScheduler.activeFallback]
      split <;> rfl
  | acquire now =>
    have hactive : ({ s with aging := f } : SJFScheduler H).activeFallback = s.activeFallback := rfl
    rcases ha : s.activeFallback with - | fallback
    · simp only [SJFScheduler.step, SJFScheduler.acquire, hactive, ha]
      rfl
    · simp only [SJFScheduler.step, SJFScheduler.acquire, hactive, ha]
  | wake now =>
    simp only [SJFScheduler.step]
    split <;> rfl
  | tick now =>
    simp only [SJFScheduler.step]
    split <;> rfl
  | timeOut | complete | cancel => rfl
  | age => exact absurd rfl hop

/-- **With numbers for its settings the scheduler is the one that has this
aging function**, to everybody who sees what its steps show. -/
theorem log_eq_sjf (hf : s.aging.function = some f) (hloop : s.loopEnded = false)
    (ops : List (SJFOp Id K)) :
    (machine M H).log s ops =
      (SJFScheduler.machine M H).log { s.scheduler with aging := f } ops := by
  induction ops generalizing s with
  | nil => rfl
  | cons op ops ih =>
    have hstep : ∃ t, s.step M op = (s.withScheduler t,
          (SJFScheduler.step M { s.scheduler with aging := f } op).2) ∧
        (SJFScheduler.step M { s.scheduler with aging := f } op).1 = { t with aging := f } := by
      cases op with
      | age =>
        refine ⟨(SJFScheduler.step M { s.scheduler with aging := f } .age).1, ?_, ?_⟩
        · simp only [step, hloop, hf, Bool.false_eq_true, if_false]
        · have hkept : (SJFScheduler.step M { s.scheduler with aging := f } .age).1.aging = f :=
            aging_coreStep (SJFScheduler.coreStep_step (s := { s.scheduler with aging := f }) .age)
          exact (withAging_self hkept).symm
      | tick now =>
        rw [sjfStep_withAging (by simp)]
        refine ⟨(s.scheduler.step M (.tick now)).1, ?_, rfl⟩
        simp only [step, hloop, Bool.false_eq_true, if_false]
      | submit | acquire | wake | timeOut | complete | cancel =>
        rw [sjfStep_withAging (by simp)]
        exact ⟨_, rfl, rfl⟩
    obtain ⟨t, hs, ht⟩ := hstep
    have hrest := ih (s := s.withScheduler t) hf hloop
    rw [Machine.log_cons, Machine.log_cons]
    show (op, (s.step M op).2) :: (machine M H).log (s.step M op).1 ops =
      (op, _) :: (SJFScheduler.machine M H).log
        (SJFScheduler.step M { s.scheduler with aging := f } op).1 ops
    rw [hs, ht, hrest]
    rfl

end Function

/-! ## Atomic and effective -/

/-- The aging configuration a reload asks for; that of the scheduler where it
asks for none. -/
def requestedAging (s : ReloadableScheduler H) (config : List (String × ConfigValue K)) :
    Except ConfigError (RawAgingConfig K) :=
  match config.lookup "aging" with
  | none => .ok s.agingConfig
  | some value => value.agingConfig

/-- The flag it asks for. -/
def requestedFallback (s : ReloadableScheduler H) (config : List (String × ConfigValue K)) :
    Bool :=
  match config.lookup "fallback_to_fcfs" with
  | none => s.scheduler.fallbackToFcfs
  | some value => value.truthy

/-- A new scheduler that is given what another one holds in its queues, and
the calls that wait there. Everything else is as `__init__` leaves it. -/
def withContents (fresh s : ReloadableScheduler H) : ReloadableScheduler H :=
  fresh.withScheduler
    { fresh.scheduler with
      queue := s.scheduler.queue
      pending := s.scheduler.pending
      priority := s.scheduler.priority
      parked := s.scheduler.parked
      fcfsFallback :=
        fresh.scheduler.fcfsFallback.map fun empty => s.scheduler.fcfsFallback.getD empty }

/-- After the submission the scheduler works on the FCFS queue. -/
def Switches (s : ReloadableScheduler H) (request : ScheduledRequest Id K)
    (prediction : Option (Prediction K)) (now : K) : Prop :=
  (s.step M (.submit request prediction now)).1.scheduler.activeFallback.isSome = true

/-- What is wanted of a reload. Either it raises and leaves everything as it
was. Or it does not, and then on every later run the scheduler shows what one
constructed with the requested settings and given the same queue contents
shows, and a prediction that fails later switches to FCFS exactly where the
requested flag is true. -/
def AtomicAndEffective (s : ReloadableScheduler H) (config : List (String × ConfigValue K)) :
    Prop :=
  match s.onReload config with
  | (s', some _) => s'.agingConfig = s.agingConfig ∧ s'.aging = s.aging ∧ s'.scheduler = s.scheduler
  | (s', none) =>
    (∃ aging fresh, s.requestedAging config = .ok aging ∧
      construct H aging (s.requestedFallback config) s.scheduler.timeout = .ok fresh ∧
      ∀ ops, (machine M H).log s' ops = (machine M H).log (fresh.withContents s) ops) ∧
    ∀ ops request prediction now, PredictionFails request prediction →
      (Switches M ((machine M H).run s' ops) request prediction now ↔
        s.requestedFallback config = true)

/-- The scheduler works on its priority queue, no tick is under way and the
aging loop has not ended. -/
def AtRest (s : ReloadableScheduler H) : Prop :=
  s.scheduler.activeFallback = none ∧ s.scheduler.tickRest = [] ∧ s.loopEnded = false

/-- The reload refuses nothing it has assigned. It finds the scheduler at rest,
and asks for the fallback the scheduler was constructed with. -/
def Harmless (s : ReloadableScheduler H) (config : List (String × ConfigValue K)) : Prop :=
  match s.requestedAging config with
  | .error _ => True
  | .ok aging =>
    match aging.create with
    | .error _ => (config.lookup "aging").isSome = true ∧ aging = s.agingConfig
    | .ok _ => s.AtRest ∧ s.scheduler.fcfsFallback.isSome = s.requestedFallback config

/-! ## The fallback -/

section Fallback

variable {M} {s : ReloadableScheduler H}

/-- No step makes or drops the fallback. -/
theorem hasFallback_coreStep {c c' : SJFCore H} {op : SJFOp Id K} {out : SJFOut Id K}
    (h : CoreStep M c op c' out) : c'.hasFallback = c.hasFallback := by
  cases h <;> rfl

theorem isSome_fallback_sjfStep {s : SJFScheduler H} (op : SJFOp Id K) :
    (s.step M op).1.fcfsFallback.isSome = s.fcfsFallback.isSome :=
  hasFallback_coreStep (SJFScheduler.coreStep_step op)

theorem isSome_fallback_step (op : SJFOp Id K) :
    (s.step M op).1.scheduler.fcfsFallback.isSome = s.scheduler.fcfsFallback.isSome := by
  cases op with
  | tick now =>
    simp only [step]
    split
    · rfl
    · exact isSome_fallback_sjfStep _
  | age =>
    simp only [step]
    split
    · rfl
    · split
      · exact isSome_fallback_sjfStep (s := { s.scheduler with aging := _ }) .age
      · split
        · rfl
        · exact isSome_fallback_sjfStep _
  | submit | acquire | wake | timeOut | complete | cancel => exact isSome_fallback_sjfStep _

theorem isSome_fallback_run (ops : List (SJFOp Id K)) :
    ((machine M H).run s ops).scheduler.fcfsFallback.isSome =
      s.scheduler.fcfsFallback.isSome := by
  refine Machine.run_inv_of_step (M := machine M H)
    (I := fun t => t.scheduler.fcfsFallback.isSome = s.scheduler.fcfsFallback.isSome) ?_ rfl
  exact fun t op ht => (isSome_fallback_step op).trans ht

omit [DecidableEq Id] [Field K] in
theorem isSome_activeFallback {s : SJFScheduler H} :
    s.activeFallback.isSome = (s.useFallback && s.fcfsFallback.isSome) := by
  rw [SJFScheduler.activeFallback]
  cases s.useFallback <;> rfl

theorem useFallback_submit {s : SJFScheduler H} (request : ScheduledRequest Id K)
    (prediction : Option (Prediction K)) (now : K) :
    (s.submit request prediction now).useFallback = s.core.flagAfter request prediction := by
  unfold SJFScheduler.submit
  dsimp only
  split <;> exact congrArg SJFCore.useFallback (SJFScheduler.core_afterPrediction _ _)

/-- **A failed prediction switches where there is a fallback.** The flag
`fallback_to_fcfs` has no part in it. -/
theorem switches_iff {request : ScheduledRequest Id K} {prediction : Option (Prediction K)}
    {now : K} (hfails : PredictionFails request prediction) :
    Switches M s request prediction now ↔ s.scheduler.fcfsFallback.isSome = true := by
  have hkept : (s.step M (.submit request prediction now)).1.scheduler.fcfsFallback.isSome = _ :=
    isSome_fallback_step _
  have hflag : (s.step M (.submit request prediction now)).1.scheduler.useFallback =
      s.scheduler.core.flagAfter request prediction := useFallback_submit _ _ _
  have hcore : s.scheduler.core.hasFallback = s.scheduler.fcfsFallback.isSome := rfl
  rw [Switches, isSome_activeFallback, hkept, hflag, SJFCore.flagAfter, hcore]
  cases s.scheduler.fcfsFallback.isSome <;> simp [hfails]

end Fallback

/-! ## The parts of a reload -/

section Parts

variable {s : ReloadableScheduler H} {aging : RawAgingConfig K} {made : RawAging K}
variable {flag : Bool} {timeout : K}

omit [DecidableEq Id] in
theorem construct_eq_ok {fresh : ReloadableScheduler H}
    (h : construct H aging flag timeout = .ok fresh) :
    aging.create = .ok fresh.aging ∧ fresh.agingConfig = aging ∧
      fresh.scheduler = SJFScheduler.init H (AgingConfig.default K) flag timeout ∧
      fresh.loopEnded = false := by
  unfold construct at h
  split at h
  · cases h
  · rename_i hcreate
    cases h
    exact ⟨hcreate, rfl, rfl, rfl⟩

omit [DecidableEq Id] in
theorem exists_construct (h : aging.create = .ok made) :
    ∃ fresh, construct H aging flag timeout = .ok fresh := by
  unfold construct
  split
  · rename_i herror
    rw [h] at herror
    cases herror
  · exact ⟨_, rfl⟩

omit [DecidableEq Id] in
/-- What the second part of `on_reload` leaves. -/
theorem reloaded_fallback (s : ReloadableScheduler H) (config : List (String × ConfigValue K)) :
    ∃ t : ReloadableScheduler H,
      (match config.lookup "fallback_to_fcfs" with
        | none => (s, none)
        | some value => (s.reloadFallback value, none)) = (t, (none : Option ConfigError)) ∧
      t.agingConfig = s.agingConfig ∧ t.aging = s.aging ∧ t.loopEnded = s.loopEnded ∧
      t.scheduler = { s.scheduler with fallbackToFcfs := s.requestedFallback config } := by
  unfold requestedFallback
  rcases config.lookup "fallback_to_fcfs" with - | value
  · exact ⟨s, rfl, rfl, rfl, rfl, rfl⟩
  · exact ⟨s.reloadFallback value, rfl, rfl, rfl, rfl, rfl⟩

omit [DecidableEq Id] in
/-- What the first part leaves where `create_aging` refuses. -/
theorem reloadAging_refused {value : ConfigValue K} {error : ConfigError}
    (hvalue : value.agingConfig = .ok aging) (hcreate : aging.create = .error error) :
    ∃ t : ReloadableScheduler H, s.reloadAging value = (t, some error) ∧
      t.agingConfig = aging ∧ t.aging = s.aging ∧ t.scheduler = s.scheduler := by
  simp only [reloadAging, hvalue]
  split
  · rename_i error' herror
    rw [hcreate, Except.error.injEq] at herror
    subst herror
    exact ⟨_, rfl, rfl, rfl, rfl⟩
  · rename_i made hmade
    rw [hcreate] at hmade
    cases hmade

omit [DecidableEq Id] in
/-- What it leaves where nothing is refused. -/
theorem reloadAging_accepted {value : ConfigValue K}
    (hvalue : value.agingConfig = .ok aging) (hcreate : aging.create = .ok made) :
    ∃ t : ReloadableScheduler H, s.reloadAging value = (t, none) ∧
      t.agingConfig = aging ∧ t.aging = made ∧ t.loopEnded = s.loopEnded ∧
      t.scheduler = s.scheduler := by
  simp only [reloadAging, hvalue]
  split
  · rename_i error herror
    rw [hcreate] at herror
    cases herror
  · rename_i made' hmade
    rw [hcreate, Except.ok.injEq] at hmade
    subst hmade
    exact ⟨_, rfl, rfl, rfl, rfl, rfl⟩

end Parts

end ReloadableScheduler

end VllmScheduler
