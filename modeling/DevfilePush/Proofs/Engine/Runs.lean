import DevfilePush.Engine.Conduct
import DevfilePush.Proofs.Engine.Closed
import Mathlib.Data.List.Nodup

/-!
# Runs of scripts, taken apart

A run of a script is taken apart along the script's own shape: a run of two scripts in sequence is a run
of the first and then one of the second, a run of a call is an answer and a run of what follows. Nothing
here depends on what an engine does; the last sections say what honest engines keep along a run.

## Main definitions

* `Happening.Fails`, `Conduct.FailsCleanly`: calls that fail, and engines on which these have no effect.
* `Happening.calls`: the calls of a trace with their answers.
* `Script.Logs`: the events that a script can log.

## Main statements

* `Script.runs_bind_iff`, `Script.runs_bind_ok`: runs of a sequence.
* `Script.runs_ask_cases`, `Script.runs_step_iff`: runs of a call and of an announced step.
* `Script.exists_run`: a script has a run on an engine that answers.
* `Script.Runs.requests`, `Script.Runs.unchanged`: what the calls of a script bound for all its runs.
* `Script.Runs.logged`: what its events bound.
-/

namespace DevfilePush

/-- Only one container has an id. -/
theorem Holdings.DistinctIds.eq_of_id {h : Holdings} {r s : Running} (ids : h.DistinctIds)
    (hr : r ∈ h.containers) (hs : s ∈ h.containers) (hid : r.live.id = s.live.id) : r = s :=
  List.inj_on_of_nodup_map ids hr hs hid

namespace Conduct.Honest

variable {engine : Conduct} {before after : Holdings}

/-- However a call ends that asks for no change, nothing has changed. -/
theorem unaltered (honest : engine.Honest) {r : Request} {answer : Answer r.Reply}
    (met : engine before r answer after) (quiet : r.alters = false) : after = before := by
  rcases honest.effect met with h | ⟨reply, granted⟩
  · exact h
  · exact Holdings.eq_of_grants granted quiet

/-- However fetching an image ends, the engine holds what it held. -/
theorem unaltered_pull (honest : engine.Honest) {image : String}
    {answer : Answer (Request.pullImage image).Reply}
    (met : engine before (.pullImage image) answer after) : after = before := by
  rcases honest.effect met with h | ⟨reply, granted⟩
  · exact h
  · exact granted

end Conduct.Honest

/-- Whether an answer is no reply. -/
def Answer.Fails {α : Type} : Answer α → Prop
  | .reply _ => False
  | .refused _ | .expired => True

/-- A call that has no reply has no effect. -/
def Conduct.FailsCleanly (engine : Conduct) : Prop :=
  ∀ ⦃before : Holdings⦄ ⦃r : Request⦄ ⦃answer : Answer r.Reply⦄ ⦃after : Holdings⦄,
    engine before r answer after → answer.Fails → after = before

namespace Happening

/-- Whether it is a call that fails: one without a reply, or a command that does not end with success. -/
def Fails : Happening → Prop
  | answered (.exec ..) answer => answer ≠ .reply (0 : Int32)
  | answered _ answer => answer.Fails
  | logged _ => False

/-- Whether it is an answered call. -/
def isCall : Happening → Bool
  | answered .. => true
  | logged _ => false

/-- The calls of a trace with their answers. -/
def calls (trace : List Happening) : List Happening := trace.filter (·.isCall)

@[simp] theorem calls_nil : calls [] = [] := rfl

@[simp] theorem calls_logged (event : Event) (trace : List Happening) :
    calls (logged event :: trace) = calls trace := rfl

@[simp] theorem calls_answered (request : Request) (answer : Answer request.Reply)
    (trace : List Happening) :
    calls (answered request answer :: trace) = answered request answer :: calls trace := rfl

@[simp] theorem calls_append (a b : List Happening) : calls (a ++ b) = calls a ++ calls b :=
  List.filter_append ..

@[simp] theorem calls_map_logged (events : List Event) : calls (events.map logged) = [] := by
  simp [calls, isCall]

/-- What is called stays the same where only the calls are looked at. -/
theorem filterMap_call?_calls (trace : List Happening) :
    (calls trace).filterMap (·.call?) = trace.filterMap (·.call?) := by
  induction trace with
  | nil => rfl
  | cons x trace ih =>
    cases x with
    | logged event => exact ih
    | answered request answer => exact congrArg (request :: ·) ih

end Happening

namespace Script

variable {α β : Type} {engine : Conduct} {before after : Holdings} {trace : List Happening}

section Shape

@[simp] theorem runs_done {value : α} {verdict : Except PushError α} :
    (done value).Runs engine before trace verdict after ↔
      trace = [] ∧ verdict = .ok value ∧ after = before := Iff.rfl

@[simp] theorem runs_fail {error : PushError} {verdict : Except PushError α} :
    (fail error : Script α).Runs engine before trace verdict after ↔
      trace = [] ∧ verdict = .error error ∧ after = before := Iff.rfl

@[simp] theorem runs_log {event : Event} {next : Script α} {verdict : Except PushError α} :
    (log event next).Runs engine before trace verdict after ↔
      ∃ rest, trace = .logged event :: rest ∧ next.Runs engine before rest verdict after := Iff.rfl

@[simp] theorem runs_call {request : Request} {deadline : Duration}
    {next : Answer request.Reply → Script α} {verdict : Except PushError α} :
    (call request deadline next).Runs engine before trace verdict after ↔
      ∃ answer middle rest, engine before request answer middle ∧
        trace = .answered request answer :: rest ∧
        (next answer).Runs engine middle rest verdict after := Iff.rfl

/-- A run of a sequence ends with the first script's error, or goes on with the second script where the
first one ended. -/
theorem runs_bind_iff {s : Script α} {f : α → Script β} {verdict : Except PushError β} :
    (s >>= f).Runs engine before trace verdict after ↔
      (∃ error, verdict = .error error ∧ s.Runs engine before trace (.error error) after) ∨
      ∃ value middle t₁ t₂, s.Runs engine before t₁ (.ok value) middle ∧
        (f value).Runs engine middle t₂ verdict after ∧ trace = t₁ ++ t₂ := by
  induction s generalizing before trace with
  | done value =>
    simp only [done_bind, runs_done]
    constructor
    · exact fun h => .inr ⟨value, before, [], trace, ⟨rfl, rfl, rfl⟩, h, rfl⟩
    · rintro (⟨error, rfl, -, hv, -⟩ | ⟨v, middle, t₁, t₂, ⟨rfl, hv, rfl⟩, h, rfl⟩)
      · cases hv
      · cases hv
        exact h
  | fail error =>
    simp only [fail_bind, runs_fail]
    constructor
    · rintro ⟨rfl, rfl, rfl⟩
      exact .inl ⟨error, rfl, rfl, rfl, rfl⟩
    · rintro (⟨e, rfl, rfl, hv, rfl⟩ | ⟨v, middle, t₁, t₂, ⟨-, hv, -⟩, -⟩)
      · cases hv
        exact ⟨rfl, rfl, rfl⟩
      · cases hv
  | log event next ih =>
    simp only [log_bind, runs_log, ih]
    constructor
    · rintro ⟨rest, rfl, ⟨error, rfl, h⟩ | ⟨v, middle, t₁, t₂, h₁, h₂, rfl⟩⟩
      · exact .inl ⟨error, rfl, rest, rfl, h⟩
      · exact .inr ⟨v, middle, .logged event :: t₁, t₂, ⟨t₁, rfl, h₁⟩, h₂, rfl⟩
    · rintro (⟨error, rfl, rest, rfl, h⟩ | ⟨v, middle, t₁, t₂, ⟨rest, rfl, h₁⟩, h₂, rfl⟩)
      · exact ⟨rest, rfl, .inl ⟨error, rfl, h⟩⟩
      · exact ⟨rest ++ t₂, rfl, .inr ⟨v, middle, rest, t₂, h₁, h₂, rfl⟩⟩
  | call request deadline next ih =>
    simp only [call_bind, runs_call, ih]
    constructor
    · rintro ⟨answer, m, rest, hm, rfl, ⟨error, rfl, h⟩ | ⟨v, middle, t₁, t₂, h₁, h₂, rfl⟩⟩
      · exact .inl ⟨error, rfl, answer, m, rest, hm, rfl, h⟩
      · exact .inr ⟨v, middle, .answered request answer :: t₁, t₂,
          ⟨answer, m, t₁, hm, rfl, h₁⟩, h₂, rfl⟩
    · rintro (⟨error, rfl, answer, m, rest, hm, rfl, h⟩ |
        ⟨v, middle, t₁, t₂, ⟨answer, m, rest, hm, rfl, h₁⟩, h₂, rfl⟩)
      · exact ⟨answer, m, rest, hm, rfl, .inl ⟨error, rfl, h⟩⟩
      · exact ⟨answer, m, rest ++ t₂, hm, rfl, .inr ⟨v, middle, rest, t₂, h₁, h₂, rfl⟩⟩

/-- A run of a sequence that ends well is a run of both scripts that end well. -/
theorem runs_bind_ok {s : Script α} {f : α → Script β} {result : β} :
    (s >>= f).Runs engine before trace (.ok result) after ↔
      ∃ value middle t₁ t₂, s.Runs engine before t₁ (.ok value) middle ∧
        (f value).Runs engine middle t₂ (.ok result) after ∧ trace = t₁ ++ t₂ := by
  rw [runs_bind_iff]
  constructor
  · rintro (⟨error, h, -⟩ | h)
    · cases h
    · exact h
  · exact .inr

@[simp] theorem runs_note {event : Event} {verdict : Except PushError Unit} :
    (note event).Runs engine before trace verdict after ↔
      trace = [.logged event] ∧ verdict = .ok () ∧ after = before := by
  simp only [note, runs_log, runs_done]
  constructor
  · rintro ⟨rest, rfl, rfl, hv, ha⟩
    exact ⟨rfl, hv, ha⟩
  · rintro ⟨rfl, hv, ha⟩
    exact ⟨[], rfl, rfl, hv, ha⟩

/-- A script that follows a note runs after it. -/
theorem runs_note_bind {event : Event} {f : Unit → Script α} {verdict : Except PushError α} :
    (note event >>= f).Runs engine before trace verdict after ↔
      ∃ rest, trace = .logged event :: rest ∧ (f ()).Runs engine before rest verdict after := Iff.rfl

/-- A script of which only the value is changed in the end runs as it does without that. -/
theorem runs_bind_done {s : Script α} {f : α → β} {verdict : Except PushError β} :
    (s >>= fun value => done (f value)).Runs engine before trace verdict after ↔
      ∃ inner, s.Runs engine before trace inner after ∧ verdict = inner.map f := by
  rw [runs_bind_iff]
  constructor
  · rintro (⟨error, rfl, h⟩ | ⟨value, middle, t₁, t₂, h, ⟨rfl, rfl, rfl⟩, rfl⟩)
    · exact ⟨.error error, h, rfl⟩
    · rw [List.append_nil]
      exact ⟨.ok value, h, rfl⟩
  · rintro ⟨error | value, h, rfl⟩
    · exact .inl ⟨error, rfl, h⟩
    · exact .inr ⟨value, after, trace, [], h, ⟨rfl, rfl, rfl⟩, (List.append_nil trace).symm⟩

@[simp] theorem runs_notes {events : List Event} {verdict : Except PushError Unit} :
    (notes events).Runs engine before trace verdict after ↔
      trace = events.map .logged ∧ verdict = .ok () ∧ after = before := by
  induction events generalizing trace with
  | nil => simp [notes, List.forM]
  | cons event events ih =>
    have hcons : notes (event :: events) = note event >>= fun _ => notes events := by
      simp [notes]
    rw [hcons, runs_bind_iff]
    constructor
    · rintro (⟨error, rfl, h⟩ | ⟨_, middle, t₁, t₂, h₁, h₂, rfl⟩)
      · exact absurd (runs_note.1 h).2.1 (by simp)
      · obtain ⟨rfl, -, rfl⟩ := runs_note.1 h₁
        obtain ⟨rfl, hv, rfl⟩ := ih.1 h₂
        exact ⟨rfl, hv, rfl⟩
    · rintro ⟨rfl, rfl, rfl⟩
      exact .inr ⟨(), after, [.logged event], events.map .logged,
        runs_note.2 ⟨rfl, rfl, rfl⟩, ih.2 ⟨rfl, rfl, rfl⟩, rfl⟩

/-- A script that follows notes runs after them. -/
theorem runs_notes_bind {events : List Event} {f : Unit → Script α} {verdict : Except PushError α} :
    (notes events >>= f).Runs engine before trace verdict after ↔
      ∃ rest, trace = events.map .logged ++ rest ∧
        (f ()).Runs engine before rest verdict after := by
  rw [runs_bind_iff]
  constructor
  · rintro (⟨error, -, h⟩ | ⟨_, middle, t₁, t₂, h₁, h₂, rfl⟩)
    · cases (runs_notes.1 h).2.1
    · obtain ⟨rfl, -, rfl⟩ := runs_notes.1 h₁
      exact ⟨t₂, rfl, h₂⟩
  · rintro ⟨rest, rfl, h⟩
    exact .inr ⟨(), before, _, rest, runs_notes.2 ⟨rfl, rfl, rfl⟩, h, rfl⟩

@[simp] theorem runs_ofExcept {x : Except PushError α} {verdict : Except PushError α} :
    (ofExcept x).Runs engine before trace verdict after ↔
      trace = [] ∧ verdict = x ∧ after = before := by
  cases x <;> rfl

/-- On an engine that answers every call, a script has a run. -/
theorem exists_run (answers : ∀ before r, ∃ answer after, engine before r answer after) (s : Script α)
    (before : Holdings) : ∃ trace verdict after, s.Runs engine before trace verdict after := by
  induction s generalizing before with
  | done value => exact ⟨[], .ok value, before, rfl, rfl, rfl⟩
  | fail error => exact ⟨[], .error error, before, rfl, rfl, rfl⟩
  | log event next ih =>
    obtain ⟨trace, verdict, after, run⟩ := ih before
    exact ⟨.logged event :: trace, verdict, after, trace, rfl, run⟩
  | call request deadline next ih =>
    obtain ⟨answer, middle, meets⟩ := answers before request
    obtain ⟨trace, verdict, after, run⟩ := ih answer middle
    exact ⟨.answered request answer :: trace, verdict, after, answer, middle, trace, meets, rfl, run⟩

/-- A call ends with its reply, or with an error if it is answered otherwise. -/
theorem runs_ask_cases {component : String} {deadline : Duration} {request : Request}
    {verdict : Except PushError request.Reply}
    (run : (ask component deadline request).Runs engine before trace verdict after) :
    (∃ reply, verdict = .ok reply ∧ engine before request (.reply reply) after ∧
      trace = [.answered request (.reply reply)]) ∨
    ∃ answer error, answer.Fails ∧ verdict = .error error ∧ engine before request answer after ∧
      trace = [.answered request answer] := by
  simp only [ask, runs_call] at run
  obtain ⟨answer, middle, rest, hm, rfl, h⟩ := run
  cases answer with
  | reply reply =>
    obtain ⟨rfl, rfl, rfl⟩ := h
    exact .inl ⟨reply, rfl, hm, rfl⟩
  | refused reason =>
    obtain ⟨rfl, rfl, rfl⟩ := h
    exact .inr ⟨.refused reason, _, trivial, rfl, hm, rfl⟩
  | expired =>
    obtain ⟨rfl, rfl, rfl⟩ := h
    exact .inr ⟨.expired, _, trivial, rfl, hm, rfl⟩

/-- A call that ends well was replied. -/
theorem runs_ask_ok {component : String} {deadline : Duration} {request : Request}
    {reply : request.Reply} :
    (ask component deadline request).Runs engine before trace (.ok reply) after ↔
      engine before request (.reply reply) after ∧ trace = [.answered request (.reply reply)] := by
  constructor
  · intro run
    rcases runs_ask_cases run with ⟨_, hreply, hm, htrace⟩ | ⟨answer, error, -, herror, -⟩
    · cases hreply
      exact ⟨hm, htrace⟩
    · cases herror
  · rintro ⟨hm, rfl⟩
    exact ⟨.reply reply, after, [], hm, rfl, rfl, rfl, rfl⟩

/-- A call that an engine without faults can grant is granted, and the script goes on. -/
theorem runs_ask_granted (honest : engine.Honest) (faultless : engine.Faultless) {component : String}
    {deadline : Duration} {request : Request} {verdict : Except PushError request.Reply}
    (possible : ∃ reply after', before.Grants request reply after')
    (run : (ask component deadline request).Runs engine before trace verdict after) :
    ∃ reply, verdict = .ok reply ∧ before.Grants request reply after ∧
      trace = [.answered request (.reply reply)] := by
  rcases runs_ask_cases run with ⟨reply, rfl, hm, rfl⟩ | ⟨answer, error, fails, -, hm, -⟩
  · exact ⟨reply, rfl, honest.granted hm, rfl⟩
  · obtain ⟨reply, rfl⟩ := faultless hm possible
    cases fails

/-- A closed script runs as the script does, and tells in the end how it ended. -/
theorem runs_closing_iff {message : String} {s : Script α} {verdict : Except PushError α} :
    (s.closing message).Runs engine before trace verdict after ↔
      ∃ inner, s.Runs engine before inner verdict after ∧
        trace = inner ++ [.logged (.closing message verdict.isOk)] := by
  induction s generalizing before trace with
  | done value =>
    simp only [closing, runs_log, runs_done]
    constructor
    · rintro ⟨rest, rfl, rfl, rfl, ha⟩
      exact ⟨[], ⟨rfl, rfl, ha⟩, rfl⟩
    · rintro ⟨inner, ⟨rfl, rfl, ha⟩, rfl⟩
      exact ⟨[], rfl, rfl, rfl, ha⟩
  | fail error =>
    simp only [closing, runs_log, runs_fail]
    constructor
    · rintro ⟨rest, rfl, rfl, rfl, ha⟩
      exact ⟨[], ⟨rfl, rfl, ha⟩, rfl⟩
    · rintro ⟨inner, ⟨rfl, rfl, ha⟩, rfl⟩
      exact ⟨[], rfl, rfl, rfl, ha⟩
  | log event next ih =>
    simp only [closing, runs_log, ih]
    constructor
    · rintro ⟨rest, rfl, inner, h, rfl⟩
      exact ⟨_, ⟨inner, rfl, h⟩, rfl⟩
    · rintro ⟨_, ⟨inner, rfl, h⟩, rfl⟩
      exact ⟨_, rfl, inner, h, rfl⟩
  | call request deadline next ih =>
    simp only [closing, runs_call, ih]
    constructor
    · rintro ⟨answer, middle, rest, hm, rfl, inner, h, rfl⟩
      exact ⟨_, ⟨answer, middle, inner, hm, rfl, h⟩, rfl⟩
    · rintro ⟨_, ⟨answer, middle, inner, hm, rfl, h⟩, rfl⟩
      exact ⟨answer, middle, _, hm, rfl, inner, h, rfl⟩

/-- A step is its body between two events, of which the second one tells how it ended. -/
theorem runs_step_iff {message : String} {body : Script α} {verdict : Except PushError α} :
    (step message body).Runs engine before trace verdict after ↔
      ∃ inner, body.Runs engine before inner verdict after ∧
        trace = .logged (.started message) :: (inner ++ [.logged (.closing message verdict.isOk)]) := by
  simp only [step, runs_log, runs_closing_iff]
  constructor
  · rintro ⟨rest, rfl, inner, h, rfl⟩
    exact ⟨inner, h, rfl⟩
  · rintro ⟨inner, h, rfl⟩
    exact ⟨_, rfl, inner, h, rfl⟩

/-- What a step calls and how it ends are its body's. -/
theorem runs_step_calls {message : String} {body : Script α} {verdict : Except PushError α}
    (run : (step message body).Runs engine before trace verdict after) :
    ∃ inner, body.Runs engine before inner verdict after ∧
      Happening.calls trace = Happening.calls inner := by
  obtain ⟨inner, h, rfl⟩ := runs_step_iff.1 run
  exact ⟨inner, h, by simp⟩

end Shape

/-! ## The calls of a script -/

section Calls

variable {calls : Request → Prop}

theorem Asks.bind {s : Script α} {f : α → Script β} (hs : s.Asks calls)
    (hf : ∀ value, (f value).Asks calls) : (s >>= f).Asks calls := by
  induction s with
  | done value => exact hf value
  | fail error => trivial
  | log event next ih => exact ih hs
  | call request deadline next ih => exact ⟨hs.1, fun answer => ih answer (hs.2 answer)⟩

theorem Asks.mono {others : Request → Prop} {s : Script α} (hs : s.Asks calls)
    (h : ∀ r, calls r → others r) : s.Asks others := by
  induction s with
  | done | fail => trivial
  | log event next ih => exact ih hs
  | call request deadline next ih => exact ⟨h _ hs.1, fun answer => ih answer (hs.2 answer)⟩

theorem Asks.closing {s : Script α} (hs : s.Asks calls) (message : String) :
    (s.closing message).Asks calls := by
  induction s with
  | done | fail => trivial
  | log event next ih => exact ih hs
  | call request deadline next ih => exact ⟨hs.1, fun answer => ih answer (hs.2 answer)⟩

theorem asks_note (event : Event) : (note event).Asks calls := trivial

/-- Scripts that only end or log make no calls, and sequencing makes no others. -/
theorem closed_asks : Closed fun _ s => s.Asks calls where
  done _ := trivial
  bind := Asks.bind
  fail _ := trivial
  note := asks_note
  closing := Asks.closing

theorem asks_ask {request : Request} (h : calls request) (component : String) (deadline : Duration) :
    (ask component deadline request).Asks calls := by
  refine ⟨h, fun answer => ?_⟩
  cases answer <;> trivial

namespace Runs

variable {s : Script α} {verdict : Except PushError α}

/-- The calls of a run are among those that the script can make. -/
theorem requests (run : s.Runs engine before trace verdict after) (asks : s.Asks calls) :
    ∀ r ∈ trace.filterMap (·.call?), calls r := by
  induction s generalizing before trace with
  | done | fail =>
    obtain ⟨rfl, -⟩ := run
    simp
  | log event next ih =>
    obtain ⟨rest, rfl, h⟩ := run
    change ∀ r ∈ rest.filterMap (·.call?), calls r
    exact ih h asks
  | call request deadline next ih =>
    obtain ⟨answer, middle, rest, -, rfl, h⟩ := run
    intro r hr
    rcases List.mem_cons.1 hr with rfl | hr
    · exact asks.1
    · exact ih answer h (asks.2 answer) r hr

/-- What every call that the script can make keeps, a run keeps. -/
theorem invariant {P : Holdings → Prop} (run : s.Runs engine before trace verdict after)
    (asks : s.Asks calls)
    (keeps : ∀ {b r answer a}, calls r → engine b r answer a → P b → P a) (h : P before) :
    P after := by
  induction s generalizing before trace with
  | done | fail =>
    obtain ⟨-, -, rfl⟩ := run
    exact h
  | log event next ih =>
    obtain ⟨rest, -, hnext⟩ := run
    exact ih hnext asks h
  | call request deadline next ih =>
    obtain ⟨answer, middle, rest, hm, -, hnext⟩ := run
    exact ih answer hnext (asks.2 answer) (keeps asks.1 hm h)

/-- What an engine keeps, whatever it is asked, a run keeps. -/
theorem kept {P : Holdings → Prop} (run : s.Runs engine before trace verdict after)
    (keeps : ∀ {b r answer a}, engine b r answer a → P b → P a) (h : P before) : P after := by
  have any : s.Asks fun _ => True := by
    clear run
    induction s with
    | done | fail => trivial
    | log event next ih => exact ih
    | call request deadline next ih => exact ⟨trivial, ih⟩
  exact run.invariant any (fun _ hm => keeps hm) h

/-- Ids that an engine keeps distinct stay distinct along a run. -/
theorem distinctIds (run : s.Runs engine before trace verdict after) (keepsIds : engine.KeepsIds)
    (ids : before.DistinctIds) : after.DistinctIds :=
  run.kept (fun met => keepsIds met) ids

/-- A script that only lists, inspects and executes leaves an honest engine as it was. -/
theorem unchanged (run : s.Runs engine before trace verdict after) (honest : engine.Honest)
    (asks : s.Asks fun r => r.alters = false) : after = before := by
  refine run.invariant (P := fun h => h = before) asks ?_ rfl
  intro b r answer a hr hm hb
  exact (honest.unaltered hm hr).trans hb

end Runs

end Calls

/-! ## The events of a script -/

section Events

variable {events : Event → Prop}

/-- Every event that the script can log, whatever it is answered, is one of those. -/
def Logs (events : Event → Prop) : Script α → Prop
  | .done _ => True
  | .fail _ => True
  | .log event next => events event ∧ next.Logs events
  | .call _ _ next => ∀ answer, (next answer).Logs events

theorem Logs.bind {s : Script α} {f : α → Script β} (hs : s.Logs events)
    (hf : ∀ value, (f value).Logs events) : (s >>= f).Logs events := by
  induction s with
  | done value => exact hf value
  | fail error => trivial
  | log event next ih => exact ⟨hs.1, ih hs.2⟩
  | call request deadline next ih => exact fun answer => ih answer (hs answer)

theorem composes_logs : Composes fun _ s => s.Logs events where
  done _ := trivial
  bind := Logs.bind

/-- Scripts without steps log what they may if that holds of each event that is no step. -/
theorem plain_logs (h : ∀ event : Event, event.isStep = false → events event) :
    Plain fun _ s => s.Logs events where
  toComposes := composes_logs
  fail _ := trivial
  note event hevent := ⟨h event hevent, trivial⟩

theorem logs_ask {component : String} {deadline : Duration} {request : Request} :
    (ask component deadline request).Logs events := by
  intro answer
  cases answer <;> trivial

theorem logs_notes {list : List Event} (h : ∀ event ∈ list, events event) :
    (notes list).Logs events := by
  induction list with
  | nil => trivial
  | cons event list ih =>
    rw [List.forall_mem_cons] at h
    exact ⟨h.1, ih h.2⟩

/-- The events of a run are among those that the script can log. -/
theorem Runs.logged {s : Script α} {verdict : Except PushError α}
    (run : s.Runs engine before trace verdict after) (logs : s.Logs events) :
    ∀ event, .logged event ∈ trace → events event := by
  induction s generalizing before trace with
  | done | fail =>
    obtain ⟨rfl, -⟩ := run
    simp
  | log first next ih =>
    obtain ⟨rest, rfl, h⟩ := run
    intro event hevent
    rcases List.mem_cons.1 hevent with heq | hrest
    · cases heq
      exact logs.1
    · exact ih h logs.2 event hrest
  | call request deadline next ih =>
    obtain ⟨answer, middle, rest, -, rfl, h⟩ := run
    intro event hevent
    rcases List.mem_cons.1 hevent with heq | hrest
    · cases heq
    · exact ih answer h (logs answer) event hrest

end Events

end Script

end DevfilePush
