import DevfilePush.Duration
import DevfilePush.Simulation.Fate
import DevfilePush.Text.Within

/-!
# An engine with faults

An engine in memory that answers late, refuses, or misreports, as rules say. Time is virtual: a call
that takes longer than its deadline is given up when the deadline has passed, and then it never
happens; a call that takes exactly as long as its deadline still happens.

## Main definitions

* `Rule`: which calls are met, and what becomes of them.
* `Bench`: an engine with its rules.
* `Bench.serve`: what becomes of one call.
-/

namespace DevfilePush

namespace Request

/-- What a rule's pattern is looked for in. -/
def detail : Request → String
  | listVolumes selector => selector.describe
  | createVolume stem _ => stem
  | pullImage image => image
  | createContainer d => (d.config.labels.get? Conventions.aliasLabel).getD ""
  | removeContainer id => id
  | listContainers selector => selector.describe
  | inspectContainer id => id
  | exec _ argv _ => " ".intercalate argv

end Request

/-- What becomes of certain calls. -/
structure Rule where
  /-- The calls' operation. -/
  operation : String
  /-- A text that stands within the calls' details. -/
  pattern : Option String
  /-- How many more calls it applies to; without limit if none. -/
  times : Option Nat
  /-- How long the call takes, in milliseconds. -/
  delay : Nat
  /-- The reason with which the call is refused. -/
  failure : Option String
  /-- The exit code of a command. -/
  exitCode : Option Int32
  /-- Whether a listing comes back empty. -/
  hide : Bool
  deriving DecidableEq, Repr

namespace Rule

/-- Whether a rule applies to a call. -/
def applies (rule : Rule) (r : Request) : Bool :=
  rule.operation = r.operation && rule.times ≠ some 0 &&
    rule.pattern.all fun part => Text.occursIn part r.detail

/-- The rule after it was used once. -/
def spent (rule : Rule) : Rule := { rule with times := rule.times.map (· - 1) }

/-- What becomes of a call with a deadline. -/
def fate (rule : Rule) (deadline : Duration) : Fate :=
  if deadline.milliseconds < rule.delay then .expired false
  else match rule.failure with
    | some reason => .refused reason false
    | none => .served (rule.exitCode.getD 0)

/-- How long the caller waits, in milliseconds. -/
def wait (rule : Rule) (deadline : Duration) : Nat := min rule.delay deadline.milliseconds

/-- What a rule makes of a reply. -/
def alterReply (rule : Rule) : (r : Request) → r.Reply → r.Reply
  | .listVolumes _, found => if rule.hide then ([] : List Volume) else found
  | .listContainers _, found => if rule.hide then ([] : List ListedContainer) else found
  | .createVolume .., reply | .pullImage _, reply | .createContainer _, reply
  | .removeContainer _, reply | .inspectContainer _, reply | .exec .., reply => reply

/-- What a rule makes of an answer. -/
def alter (rule : Rule) (r : Request) : Answer r.Reply → Answer r.Reply
  | .reply value => .reply (rule.alterReply r value)
  | .refused reason => .refused reason
  | .expired => .expired

end Rule

/-- The first rule that applies to a call, and the rules after it was used. -/
def drawRule (r : Request) : List Rule → Option Rule × List Rule
  | [] => (none, [])
  | rule :: rest =>
    if rule.applies r then (some rule, rule.spent :: rest)
    else
      let (found, others) := drawRule r rest
      (found, rule :: others)

/-- An engine with rules for its faults. -/
structure Bench where
  engine : MemoryEngine
  rules : List Rule
  deriving DecidableEq, Inhabited

/-- What becomes of one call. -/
structure Service (α : Type) where
  /-- How long the caller waits, in milliseconds. -/
  wait : Nat
  answer : Answer α
  /-- The engine and its rules after the call. -/
  bench : Bench

namespace Bench

/-- An engine that holds nothing and has no faults. -/
def empty : Bench := ⟨.empty, []⟩

/-- Makes a call with a deadline. -/
def serve (b : Bench) (r : Request) (deadline : Duration) : Service r.Reply :=
  match drawRule r b.rules with
  | (none, rules) =>
    let (answer, engine) := b.engine.meet r (.served 0)
    ⟨0, answer, ⟨engine, rules⟩⟩
  | (some rule, rules) =>
    let (answer, engine) := b.engine.meet r (rule.fate deadline)
    ⟨rule.wait deadline, rule.alter r answer, ⟨engine, rules⟩⟩

/-- Adds a rule, after those there are. -/
def addRule (b : Bench) (rule : Rule) : Bench := { b with rules := b.rules ++ [rule] }

/-- Takes all rules away. -/
def clearRules (b : Bench) : Bench := { b with rules := [] }

/-- Adds a volume that nobody asked for. -/
def seedVolume (b : Bench) (v : Volume) : Bench :=
  { b with engine := { b.engine with volumes := b.engine.volumes ++ [v] } }

/-- Adds a container that nobody asked for. -/
def seedContainer (b : Bench) (c : Running) : Bench :=
  { b with engine := { b.engine with containers := b.engine.containers ++ [c] } }

/-- Takes away the containers of an id and the volumes of a name. -/
def drop (b : Bench) (id : String) : Bench :=
  let kept := b.engine.removeContainer id
  { b with engine := { kept with volumes := kept.volumes.filter (·.name ≠ id) } }

/-- Changes what the engine tells of the containers of an id. -/
def edit (b : Bench) (id : String) (live : Option ListedContainer) (definition : Option Definition) :
    Bench :=
  let change (c : Running) : Running :=
    if c.live.id = id then ⟨live.getD c.live, definition.getD c.definition⟩ else c
  { b with engine := { b.engine with containers := b.engine.containers.map change } }

end Bench

end DevfilePush
