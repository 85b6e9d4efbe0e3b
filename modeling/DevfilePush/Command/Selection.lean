import DevfilePush.PushError

/-!
# Selecting commands

A devfile may declare many commands; a push runs at most one of each group. A command chosen by its
id comes first; else the only command of the group; else its only default.

## Main definitions

* `Overrides`: the ids that a user chose.
* `chooseCommand`: the choice within one group, which no other group influences.
* `CommandSelection.ofCommands`: the choice of all groups, failing for the first group at fault.
-/

namespace DevfilePush

/-- Commands chosen by id, at most one per group. -/
structure Overrides where
  init : Option String
  build : Option String
  run : Option String
  deriving DecidableEq, Repr, Inhabited

/-- The id chosen for a group. -/
def Overrides.get (o : Overrides) : CommandGroup → Option String
  | .init => o.init
  | .build => o.build
  | .run => o.run

/-- The commands of a group, in declaration order. -/
def commandsOf (group : CommandGroup) (commands : List Command) : List Command :=
  commands.filter (·.group = group)

/-- The default command among the several of a group. -/
def chooseDefault (group : CommandGroup) (candidates : List Command) :
    Except Misconfiguration Command :=
  match candidates.filter (·.isDefault) with
  | [one] => .ok one
  | [] => .error (.noDefault group)
  | many => .error (.severalDefaults group many.length)

/-- The command of one group, from all commands and the id chosen for the group. -/
def chooseCommand (commands : List Command) (chosen : Option String) (group : CommandGroup) :
    Except Misconfiguration (Option Command) :=
  let candidates := commandsOf group commands
  match chosen with
  | some id =>
    match candidates.find? (·.id = id) with
    | some command => .ok (some command)
    | none => .error (.unknownCommand id group)
  | none =>
    match candidates with
    | [] => .ok none
    | [only] => .ok (some only)
    | many => (chooseDefault group many).map some

/-- One command per group; the first group in execution order that has no clear choice is reported. -/
def CommandSelection.ofCommands (commands : List Command) (overrides : Overrides) :
    Except Misconfiguration CommandSelection := do
  let init ← chooseCommand commands (overrides.get .init) .init
  let build ← chooseCommand commands (overrides.get .build) .build
  let run ← chooseCommand commands (overrides.get .run) .run
  return ⟨init, build, run⟩

end DevfilePush
