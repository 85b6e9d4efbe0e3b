import DevfilePush.PushError

/-!
# Checks on what is declared

A list of containers is accepted when it is not empty, every container has an alias and an image,
environment variables have nonempty names that differ within a container, and aliases differ. The
error is about the first offence met in declaration order.

## Main definitions

* `Component.check`: one container.
* `checkComponents`: all of them.
* `CommandSelection.checkTargets`: every command names a declared container.
-/

namespace DevfilePush

/-- The first offence among environment variables, given the names that came before. -/
def checkEnv (aliasName : String) : List String → List EnvVar → Except InvalidValue Unit
  | _, [] => .ok ()
  | seen, e :: rest =>
    if e.name = "" then .error (.emptyEnvName aliasName)
    else if e.name ∈ seen then .error (.repeatedEnv aliasName e.name)
    else checkEnv aliasName (e.name :: seen) rest

/-- Checks the alias, the image and the names of the environment variables, in this order. -/
def Component.check (c : Component) : Except InvalidValue Unit :=
  if c.aliasName = "" then .error .emptyAlias
  else if c.image = "" then .error (.noImage c.aliasName)
  else checkEnv c.aliasName [] c.env

/-- The first offence among containers, given the aliases that came before. -/
def checkEach : List String → List Component → Except InvalidValue Unit
  | _, [] => .ok ()
  | seen, c :: rest => do
    c.check
    if c.aliasName ∈ seen then .error (.repeatedAlias c.aliasName)
    else checkEach (c.aliasName :: seen) rest

/-- Checks a component's containers. -/
def checkComponents (components : List Component) : Except PushError Unit :=
  if components.isEmpty then .error (.misconfigured .noComponents)
  else (checkEach [] components).mapError .invalid

/-- Checks that every command names a declared container; the first group at fault is reported. -/
def CommandSelection.checkTargets (s : CommandSelection) (components : List Component) :
    Except Misconfiguration Unit :=
  match s.commands.find? fun gc => !components.any (·.aliasName = gc.2.component) with
  | some (group, command) => .error (.undeclaredTarget group command.id command.component)
  | none => .ok ()

end DevfilePush
