import DevfilePush.Devfile.Check
import DevfilePush.Proofs.Fallible

/-!
# What the checks accept

The checks walk through what is declared and carry along the names that came before. Read from their
success, they accept exactly the lists of containers that are not empty, whose aliases differ and whose
containers are each well formed.

## Main definitions

* `checkNew`: the walk itself, which variables and containers have in common.
* `Component.WellFormed`: what is asked of one container.

## Main statements

* `checkComponents_ok_iff`: the lists of containers that are accepted.
* `CommandSelection.checkTargets_ok_iff`: the selections of commands that are accepted.
-/

namespace DevfilePush

/-! ## Names that may not come twice -/

/-- Names that are new to those seen and to one more are new to those seen, and that one is none of
them. -/
theorem forall_new_cons_iff {α : Type} {P : α → Prop} {name : α → String} {seen : List String} {a : α}
    {rest : List α} :
    (∀ b ∈ rest, P b ∧ name b ∉ name a :: seen) ↔
      (∀ b ∈ rest, P b ∧ name b ∉ seen) ∧ name a ∉ rest.map name := by
  constructor
  · intro h
    refine ⟨fun b hb => ⟨(h b hb).1, fun hseen => ?_⟩, fun hmem => ?_⟩
    · exact (h b hb).2 (List.mem_cons_of_mem _ hseen)
    · obtain ⟨b, hb, heq⟩ := List.mem_map.1 hmem
      exact (h b hb).2 (heq ▸ List.mem_cons_self)
  · rintro ⟨h, hnew⟩ b hb
    refine ⟨(h b hb).1, fun hmem => ?_⟩
    rcases List.mem_cons.1 hmem with heq | hseen
    · exact hnew (heq ▸ List.mem_map_of_mem hb)
    · exact (h b hb).2 hseen

section New

variable {α ε : Type} (own : α → Except ε Unit) (name : α → String) (again : α → ε)

/-- Checks members one by one: each on its own, and then that its name is none of those before. -/
def checkNew : List String → List α → Except ε Unit
  | _, [] => .ok ()
  | seen, x :: rest => do
    own x
    if name x ∈ seen then .error (again x) else checkNew (name x :: seen) rest

variable {own name again} {seen : List String}

theorem checkNew_cons_ok_iff {x : α} {rest : List α} :
    checkNew own name again seen (x :: rest) = .ok () ↔
      own x = .ok () ∧ name x ∉ seen ∧ checkNew own name again (name x :: seen) rest = .ok () := by
  rw [checkNew, Except.bind_ok_iff, Unique.exists_iff]
  by_cases hseen : name x ∈ seen <;> simp [hseen]

theorem checkNew_cons_error_iff {x : α} {rest : List α} {e : ε} :
    checkNew own name again seen (x :: rest) = .error e ↔
      own x = .error e ∨ own x = .ok () ∧ (name x ∈ seen ∧ e = again x ∨
        name x ∉ seen ∧ checkNew own name again (name x :: seen) rest = .error e) := by
  rw [checkNew, Except.bind_error_iff, Unique.exists_iff]
  by_cases hseen : name x ∈ seen <;> simp [hseen, eq_comm]

/-- Members are accepted if each of them is on its own, and their names are new and differ. -/
theorem checkNew_ok_iff {xs : List α} :
    checkNew own name again seen xs = .ok () ↔
      (∀ x ∈ xs, own x = .ok () ∧ name x ∉ seen) ∧ (xs.map name).Nodup := by
  induction xs generalizing seen with
  | nil => simp [checkNew]
  | cons x rest ih =>
    rw [checkNew_cons_ok_iff, ih, forall_new_cons_iff, List.forall_mem_cons, List.map_cons,
      List.nodup_cons, and_assoc, and_assoc, and_assoc]

/-- The error is about the first member at fault: all before it are accepted, and it is refused on its
own or else its name came before. -/
theorem checkNew_error_iff {xs : List α} {e : ε} :
    checkNew own name again seen xs = .error e ↔
      ∃ earlier x later, xs = earlier ++ x :: later ∧
        checkNew own name again seen earlier = .ok () ∧
        (own x = .error e ∨
          own x = .ok () ∧ (name x ∈ seen ∨ name x ∈ earlier.map name) ∧ e = again x) := by
  induction xs generalizing seen with
  | nil => simp [checkNew]
  | cons x rest ih =>
    rw [checkNew_cons_error_iff, ih]
    constructor
    · rintro (hown | ⟨hown, ⟨hseen, rfl⟩ | ⟨hnew, earlier, y, later, rfl, hearlier, hy⟩⟩)
      · exact ⟨[], x, rest, rfl, rfl, .inl hown⟩
      · exact ⟨[], x, rest, rfl, rfl, .inr ⟨hown, .inl hseen, rfl⟩⟩
      · refine ⟨x :: earlier, y, later, rfl, checkNew_cons_ok_iff.2 ⟨hown, hnew, hearlier⟩, ?_⟩
        simpa [or_assoc, or_left_comm] using hy
    · rintro ⟨_ | ⟨z, earlier⟩, y, later, hsplit, hearlier, hy⟩
      · obtain ⟨rfl, rfl⟩ := List.cons.inj hsplit
        simpa using hy.imp_right fun ⟨hown, hseen, he⟩ => ⟨hown, .inl ⟨by simpa using hseen, he⟩⟩
      · obtain ⟨rfl, rfl⟩ := List.cons.inj hsplit
        obtain ⟨hown, hnew, hearlier⟩ := checkNew_cons_ok_iff.1 hearlier
        refine .inr ⟨hown, .inr ⟨hnew, earlier, y, later, rfl, hearlier, ?_⟩⟩
        simpa [or_assoc, or_left_comm] using hy

end New

/-! ## Containers -/

/-- A container has an alias and an image, and its variables have names of their own. -/
@[mk_iff]
structure Component.WellFormed (c : Component) : Prop where
  aliasName : c.aliasName ≠ ""
  image : c.image ≠ ""
  envNamed : ∀ e ∈ c.env, e.name ≠ ""
  envDistinct : (c.env.map (·.name)).Nodup

/-- A variable has a name. -/
def EnvVar.check (aliasName : String) (e : EnvVar) : Except InvalidValue Unit :=
  if e.name = "" then .error (.emptyEnvName aliasName) else .ok ()

theorem checkEnv_eq_checkNew (aliasName : String) (seen : List String) (env : List EnvVar) :
    checkEnv aliasName seen env =
      checkNew (EnvVar.check aliasName) (·.name) (fun e => .repeatedEnv aliasName e.name) seen env := by
  induction env generalizing seen with
  | nil => rfl
  | cons e rest ih =>
    rw [checkEnv, checkNew, EnvVar.check, ih]
    by_cases hname : e.name = ""
    · rw [if_pos hname, if_pos hname]
      rfl
    · rw [if_neg hname, if_neg hname]
      rfl

theorem checkEnv_ok_iff (aliasName : String) {env : List EnvVar} :
    checkEnv aliasName [] env = .ok () ↔
      (∀ e ∈ env, e.name ≠ "") ∧ (env.map (·.name)).Nodup := by
  simp only [checkEnv_eq_checkNew, checkNew_ok_iff, EnvVar.check, List.not_mem_nil, not_false_iff,
    and_true, ite_eq_right_iff, reduceCtorEq, imp_false]

/-- A container is accepted if and only if it is well formed. -/
theorem Component.check_ok_iff {c : Component} : c.check = .ok () ↔ c.WellFormed := by
  unfold Component.check
  constructor
  · intro h
    split at h
    · cases h
    split at h
    · cases h
    obtain ⟨hnamed, hdistinct⟩ := (checkEnv_ok_iff _).1 h
    exact ⟨‹_›, ‹_›, hnamed, hdistinct⟩
  · rintro ⟨haliasName, himage, hnamed, hdistinct⟩
    rw [if_neg haliasName, if_neg himage, checkEnv_ok_iff]
    exact ⟨hnamed, hdistinct⟩

theorem checkEach_eq_checkNew (seen : List String) (components : List Component) :
    checkEach seen components =
      checkNew Component.check (·.aliasName) (fun c => .repeatedAlias c.aliasName) seen components := by
  induction components generalizing seen with
  | nil => rfl
  | cons c rest ih => rw [checkEach, checkNew, ih]

theorem checkEach_ok_iff {components : List Component} :
    checkEach [] components = .ok () ↔
      (∀ c ∈ components, c.WellFormed) ∧ (components.map (·.aliasName)).Nodup := by
  simp only [checkEach_eq_checkNew, checkNew_ok_iff, Component.check_ok_iff, List.not_mem_nil,
    not_false_iff, and_true]

/-- A list of containers is accepted if and only if it is not empty, each of them is well formed and
their aliases differ. -/
theorem checkComponents_ok_iff {components : List Component} :
    checkComponents components = .ok () ↔
      components ≠ [] ∧ (∀ c ∈ components, c.WellFormed) ∧
        (components.map (·.aliasName)).Nodup := by
  unfold checkComponents
  cases components with
  | nil => simp
  | cons c rest =>
    rw [if_neg (by simp), Except.mapError_ok_iff, checkEach_ok_iff]
    simp only [ne_eq, reduceCtorEq, not_false_iff, true_and]

/-! ## Commands -/

/-- A selection of commands is accepted if and only if each command names a declared container. -/
theorem CommandSelection.checkTargets_ok_iff {s : CommandSelection} {components : List Component} :
    s.checkTargets components = .ok () ↔
      ∀ gc ∈ s.commands, ∃ c ∈ components, c.aliasName = gc.2.component := by
  unfold CommandSelection.checkTargets
  constructor
  · intro h gc hgc
    split at h
    · cases h
    · have hdeclared := List.find?_eq_none.1 ‹_› gc hgc
      simpa using hdeclared
  · intro h
    have hnone : s.commands.find? (fun gc => !components.any (·.aliasName = gc.2.component)) = none := by
      rw [List.find?_eq_none]
      intro gc hgc
      simpa using h gc hgc
    rw [hnone]

end DevfilePush
