import VllmScheduler.Common.Json
import VllmScheduler.Gateway.Workers
/-!
# What the counters say and what the client sees

Whether a plain request went well is decided twice in
`python/scheduler/gateway.py`. `_forward_request` counts a success where no
exception was raised, whatever the backend answered. `chat_completions` looks
at the result: it answers 502 where it finds an `"error"` in it, and 200 where
the result can be rendered. The two agree on the exceptions, and on the
responses with status 200 whose body is served; on no other response.
-/

namespace VllmScheduler

/-- How the backend call of a plain request ends. -/
inductive BackendOutcome where
  /-- A response; `json` is what `resp.json()` returns, or the text of the
  exception it raises. -/
  | response (status : ℕ) (text : PyString) (json : Except PyString Json)
  /-- `post` raises. -/
  | raised (error : PyString)

/-- The dictionary `_forward_request` builds for an error. -/
def errorResult (text : PyString) : Json := .object [(py "error", .string text)]

namespace BackendOutcome

/-- What the future of the client is set to. -/
def result : BackendOutcome → Json
  | .response status text json =>
    if status = 200 then
      match json with
      | .ok value => value
      | .error error => errorResult error
    else errorResult text
  | .raised error => errorResult error

/-- The text of a Python string, for the models that do not look into it. -/
def display (s : PyString) : String := String.ofList (s.map fun c => Char.ofNat c.val)

/-- The outcome as the gateway model has it. -/
def backendResult : BackendOutcome → BackendResult
  | .response status text json =>
    if status = 200 then
      match json with
      | .ok _ => .answered status (display text)
      | .error error => .raised (display error)
    else .answered status (display text)
  | .raised error => .raised (display error)

end BackendOutcome

/-! ## The response -/

/-- What a client of `chat_completions` receives. The 500 of an exception
that nobody handles has no JSON body. -/
structure HttpResponse where
  status : ℕ
  body : Option Json

/-- The answer to an exception in the handler. -/
def internalError : HttpResponse := ⟨500, none⟩

/-- `JSONResponse`, whose constructor renders the content. -/
def jsonResponse (status : ℕ) (content : Json) : HttpResponse :=
  if content.Encodable then ⟨status, some content⟩ else internalError

/-- The answer to an `HTTPException`; a `detail` of `None` is replaced by the
phrase of the status. -/
def httpException (status : ℕ) (phrase : String) (detail : Json) : HttpResponse :=
  let detail :=
    match detail with
    | .null => .string (py phrase)
    | detail => detail
  jsonResponse status (.object [(py "detail", detail)])

/-- `chat_completions` for a plain request, from the result of `submit_chat`
on; nothing where that has timed out. -/
def chatCompletions : Option Json → HttpResponse
  | none => httpException 504 "Gateway Timeout" (.string (py "Request timed out"))
  | some result =>
    match result.contains (py "error") with
    -- `in` raises
    | none => internalError
    | some true =>
      match result with
      | .object fields =>
        httpException 502 "Bad Gateway" ((fields.lookup (py "error")).getD .null)
      -- an array or a string is not indexed by a string
      | _ => internalError
    | some false => jsonResponse 200 result

/-- The value is answered with 200: it is a container without `"error"`, and
can be rendered. -/
def Served (value : Json) : Prop := value.contains (py "error") = some false ∧ value.Encodable

instance (value : Json) : Decidable (Served value) :=
  inferInstanceAs (Decidable (value.contains (py "error") = some false ∧ value.Encodable))

theorem status_jsonResponse {status : ℕ} {content : Json} :
    (jsonResponse status content).status = if content.Encodable then status else 500 := by
  unfold jsonResponse
  split <;> rfl

theorem status_jsonResponse_ne {status : ℕ} {content : Json} (h : status ≠ 200) :
    (jsonResponse status content).status ≠ 200 := by
  rw [status_jsonResponse]
  split
  · exact h
  · decide

theorem status_chatCompletions_iff {value : Json} :
    (chatCompletions (some value)).status = 200 ↔ Served value := by
  rw [Served]
  simp only [chatCompletions]
  split
  · rename_i hraises
    simp [hraises, internalError]
  · -- there is an error, and no branch ends with 200
    rename_i herror
    simp only [herror, Option.some.injEq, Bool.true_eq_false, false_and, iff_false]
    cases value with
    | object fields => exact status_jsonResponse_ne (by decide)
    | null | bool | number | string | array => simp [internalError]
  · rename_i hclean
    simp [hclean, status_jsonResponse]

/-- An error dictionary is not answered with 200. -/
theorem not_served_errorResult {text : PyString} : ¬ Served (errorResult text) := by
  rintro ⟨hcontains, -⟩
  simp [errorResult, Json.contains] at hcontains

/-! ## The counters -/

/-- The counters tell the client's story: the body of a response with status
200 is served where it is JSON, and there is no response with another
status. -/
def BackendOutcome.Plain : BackendOutcome → Prop
  | .response status _ json => status = 200 ∧ ∀ value, json = .ok value → Served value
  | .raised _ => True

namespace SchedulerGateway

variable {Id K C : Type} [DecidableEq Id] [Field K] [LinearOrder K] {H : RequestHeap Id K}

/-- `total_completed` and `total_errors` of the scheduler, and the metrics
for "success" and "error". -/
def counters (g : SchedulerGateway C H) : ℕ × ℕ × ℕ × ℕ :=
  (g.scheduler.base.totalCompleted, g.scheduler.base.totalErrors, g.metrics.success,
    g.metrics.error)

/-- Between two states one request was counted, as a success or as an
error. -/
def CountedAs (success : Prop) [Decidable success] (g g' : SchedulerGateway C H) : Prop :=
  g'.counters =
    if success then
      (g.scheduler.base.totalCompleted + 1, g.scheduler.base.totalErrors, g.metrics.success + 1,
        g.metrics.error)
    else
      (g.scheduler.base.totalCompleted, g.scheduler.base.totalErrors + 1, g.metrics.success,
        g.metrics.error + 1)

variable {M : MathFns K} {g : SchedulerGateway C H} {task : ℕ} {i : Id}

omit [Field K] in
theorem countedAs_settle (result : BackendResult) :
    CountedAs (result.ok = true) g (g.settle i result) := by
  cases hok : result.ok <;>
    simp [CountedAs, counters, settle, SJFScheduler.complete, BaseScheduler.completed, hok]

omit [DecidableEq Id] [Field K] in
/-- A request is not counted both ways. -/
theorem countedAs_iff {success seen : Prop} [Decidable success] [Decidable seen]
    {g' : SchedulerGateway C H} (h : CountedAs success g g') :
    CountedAs seen g g' ↔ (seen ↔ success) := by
  unfold CountedAs at h ⊢
  rw [h]
  by_cases hs : success <;> by_cases hn : seen <;> simp [hs, hn]

/-- The step that ends a forward. -/
theorem step_finish (htask : g.tasks[task]? = some ⟨i, .running⟩) (result : BackendResult) :
    (g.step M (.finish task result)).1 =
      { g.settle i result with
        tasks := g.tasks.set task ⟨i, if result.ok then .succeeded else .failed⟩ } := by
  simp only [step, htask]

/-- **Counters and clients.** A running forward of a plain request whose
client is still waiting ends with an outcome of the backend. The client's
future is set to its result, and the request is counted as a success where
the client receives a 200 and as an error where it does not, exactly where the
outcome is plain: an exception, or a response with status 200 whose body, if
it is JSON, is a container without `"error"` that can be rendered. -/
theorem counted_as_seen_iff (htask : g.tasks[task]? = some ⟨i, .running⟩)
    (hplain : g.streams i = false) (hwaits : g.futures i = .pending) (outcome : BackendOutcome) :
    (g.step M (.finish task outcome.backendResult)).1.futures i =
        .settled outcome.backendResult.chatResult ∧
      (CountedAs ((chatCompletions (some outcome.result)).status = 200) g
          (g.step M (.finish task outcome.backendResult)).1 ↔ outcome.Plain) := by
  rw [step_finish htask]
  constructor
  · simp [settle, hplain, hwaits]
  · have hcount := countedAs_settle (g := g) (i := i) outcome.backendResult
    refine (countedAs_iff hcount).trans ?_
    rw [status_chatCompletions_iff]
    cases outcome with
    | raised error =>
      simp [BackendOutcome.Plain, BackendOutcome.result, BackendOutcome.backendResult,
        BackendResult.ok, not_served_errorResult]
    | response status text json =>
      by_cases hstatus : status = 200
      · cases json with
        | ok value =>
          simp [BackendOutcome.Plain, BackendOutcome.result, BackendOutcome.backendResult,
            BackendResult.ok, hstatus]
        | error error =>
          simp [BackendOutcome.Plain, BackendOutcome.result, BackendOutcome.backendResult,
            BackendResult.ok, hstatus, not_served_errorResult]
      · simp [BackendOutcome.Plain, BackendOutcome.result, BackendOutcome.backendResult,
          BackendResult.ok, hstatus, not_served_errorResult]

/-- A plain request that a worker has acquired. -/
def forwarding : SchedulerGateway String (listHeap PrioritizedItem.key : RequestHeap String ℚ) :=
  (machine MathFns.firstOrder _ _).run (demo 1)
    [.submit (chatRequest "a" 0) (some ⟨100, 1, 1⟩) 0 false, .dispatch 0 1]

/-- The gateway when its backend call has ended so. -/
def ended (outcome : BackendOutcome) :
    SchedulerGateway String (listHeap PrioritizedItem.key : RequestHeap String ℚ) :=
  (forwarding.step MathFns.firstOrder (.finish 0 outcome.backendResult)).1

/-- A response with a JSON body. -/
def answer (status : ℕ) (value : Json) : BackendOutcome := .response status (py "") (.ok value)

/-- **Counted as a success and seen as an error**: a backend that answers
500, and bodies that `chat_completions` answers with 502 or 500. -/
theorem counted_as_success_unseen :
    forwarding.counters = (0, 0, 0, 0) ∧
    (ended (answer 500 (.object []))).counters = (1, 0, 1, 0) ∧
    (chatCompletions (some (answer 500 (.object [])).result)).status = 502 ∧
    (ended (answer 200 (errorResult (py "busy")))).counters = (1, 0, 1, 0) ∧
    (chatCompletions (some (errorResult (py "busy")))).status = 502 ∧
    (ended (answer 200 .null)).counters = (1, 0, 1, 0) ∧
    (chatCompletions (some .null)).status = 500 ∧
    (ended (answer 200 (.array [.number (py "inf")]))).counters = (1, 0, 1, 0) ∧
    (chatCompletions (some (.array [.number (py "inf")]))).status = 500 := by
  decide +kernel

/-- A completion that is served. -/
theorem counted_as_seen :
    (ended (answer 200 (.object [(py "choices", .array [])]))).counters = (1, 0, 1, 0) ∧
    CountedAs ((chatCompletions (some (.object [(py "choices", .array [])]))).status = 200)
      forwarding (ended (answer 200 (.object [(py "choices", .array [])]))) := by
  have hserved : Served (.object [(py "choices", .array [])]) := by decide +kernel
  have htask : forwarding.tasks[0]? = some ⟨"a", .running⟩ := by decide +kernel
  have hplain : (answer 200 (.object [(py "choices", .array [])])).Plain := by
    refine ⟨rfl, fun value hvalue => ?_⟩
    cases hvalue
    exact hserved
  exact ⟨by decide +kernel, (counted_as_seen_iff htask (by decide +kernel) (by decide +kernel)
    (answer 200 (.object [(py "choices", .array [])]))).2.mpr hplain⟩

end SchedulerGateway

end VllmScheduler
